import KernelDrivers.Lib.CArray
import Mathlib.Data.List.OfFn
import Mathlib.Data.Fin.Basic

/-!
# Counting loops over arrays

`forRange body first n` is `for (i = first; i < first + n; i++)` with a body that may be
undefined. A loop that stores at its index fills a segment of the array. The elements of a matrix
lie row after row in its list.
-/

namespace KernelDrivers.Lib

variable {σ α : Type*}

def forRange (body : Nat → σ → Option σ) : Nat → Nat → σ → Option σ
  | _, 0, s => some s
  | i, n + 1, s => (body i s).bind (forRange body (i + 1) n)

/-- Loop rule: an invariant indexed by the next iteration. -/
theorem forRange_invariant {body : Nat → σ → Option σ} (I : Nat → σ → Prop) {first n : Nat}
    (hbody : ∀ i s, first ≤ i → i < first + n → I i s → ∃ s', body i s = some s' ∧ I (i + 1) s')
    {s : σ} (hs : I first s) : ∃ s', forRange body first n s = some s' ∧ I (first + n) s' := by
  induction n generalizing first s with
  | zero => exact ⟨s, rfl, hs⟩
  | succ n ih =>
    obtain ⟨s₁, hs₁, hI⟩ := hbody first s le_rfl (by omega) hs
    have hrest : ∀ i t, first + 1 ≤ i → i < first + 1 + n → I i t →
        ∃ t', body i t = some t' ∧ I (i + 1) t' :=
      fun i t hle hlt => hbody i t (by omega) (by omega)
    obtain ⟨s₂, hs₂, hI₂⟩ := ih hrest hI
    refine ⟨s₂, by simp [forRange, hs₁, hs₂], ?_⟩
    rwa [show first + (n + 1) = first + 1 + n by omega]

/-- A loop whose iteration `i` stores `f i` at `i`. The rest of the array is kept. -/
theorem forRange_store {m : Nat} (f : Nat → α) {first n : Nat} (hm : first + n ≤ m)
    (a : CArray m α) : forRange (fun i a => a.store (i : Int) (f i)) first n a =
      some fun j : Fin m => if first ≤ j.val ∧ j.val < first + n then f j else a j := by
  let I : Nat → CArray m α → Prop := fun i b =>
    ∀ j : Fin m, b j = if first ≤ j.val ∧ j.val < i then f j else a j
  have hbody : ∀ i b, first ≤ i → i < first + n → I i b →
      ∃ b', b.store (i : Int) (f i) = some b' ∧ I (i + 1) b' := by
    intro i b hle hlt hI
    have hi : i < m := by omega
    refine ⟨_, CArray.store_fin b ⟨i, hi⟩ (f i), fun j => ?_⟩
    by_cases hj : j = ⟨i, hi⟩
    · subst hj
      simp [hle]
    · have hne : j.val ≠ i := fun h => hj (Fin.ext h)
      have hiff : (first ≤ j.val ∧ j.val < i) ↔ (first ≤ j.val ∧ j.val < i + 1) := by omega
      rw [Function.update_of_ne hj, hI j]
      simp only [hiff]
  have hfirst : I first a := by
    intro j
    simp [show ¬ (first ≤ j.val ∧ j.val < first) by omega]
  obtain ⟨b, hb, hI⟩ := forRange_invariant I hbody hfirst
  rw [hb]
  exact congrArg some (funext hI)

/-! ## Matrices -/

/-- The elements of a matrix, row after row. -/
def rowMajor {m n : Nat} (a : CArray m (CArray n α)) : List α :=
  (List.ofFn fun r => List.ofFn (a r)).flatten

theorem rowMajor_eq {m n : Nat} (a : CArray m (CArray n α)) :
    rowMajor a = List.ofFn fun k : Fin (m * n) => a k.divNat k.modNat := by
  rw [List.ofFn_mul, rowMajor]
  refine congrArg List.flatten (congrArg List.ofFn (funext fun r => congrArg List.ofFn ?_))
  funext c
  have hdiv : (r.val * n + c.val) / n = r.val := by
    rw [Nat.mul_comm, Nat.mul_add_div c.pos, Nat.div_eq_of_lt c.isLt, Nat.add_zero]
  have hmod : (r.val * n + c.val) % n = c.val := by
    rw [Nat.mul_comm, Nat.mul_add_mod, Nat.mod_eq_of_lt c.isLt]
  exact congrArg₂ a (Fin.ext hdiv.symm) (Fin.ext hmod.symm)

theorem rowMajor_length {m n : Nat} (a : CArray m (CArray n α)) :
    (rowMajor a).length = m * n := by
  rw [rowMajor_eq, List.length_ofFn]

theorem rowMajor_getElem? {m n : Nat} (a : CArray m (CArray n α)) (r : Fin m) (c : Fin n) :
    (rowMajor a)[n * r + c]? = some (a r c) := by
  have hlt : n * r.val + c.val < m * n :=
    calc
      n * r.val + c.val < n * (r.val + 1) := by rw [Nat.mul_add_one]; omega
      _ ≤ m * n := by rw [Nat.mul_comm]; exact Nat.mul_le_mul_right n r.isLt
  have hdiv : (n * r.val + c.val) / n = r.val := by
    rw [Nat.mul_add_div c.pos, Nat.div_eq_of_lt c.isLt, Nat.add_zero]
  have hmod : (n * r.val + c.val) % n = c.val := by
    rw [Nat.mul_add_mod, Nat.mod_eq_of_lt c.isLt]
  rw [rowMajor_eq, List.getElem?_ofFn, dif_pos hlt]
  exact congrArg some (congrArg₂ a (Fin.ext hdiv) (Fin.ext hmod))

theorem rowMajor_map {β : Type*} {m n : Nat} (f : α → β) (a : CArray m (CArray n α)) :
    (rowMajor a).map f = rowMajor fun r c => f (a r c) := by
  rw [rowMajor_eq, rowMajor_eq, List.map_ofFn]
  rfl

end KernelDrivers.Lib
