import KernelDrivers.Lib.CArray
import Mathlib.Data.Nat.ModEq

/-!
# Rings over a growing history

A ring of `n` slots filled in turn keeps the last `n` entries of the history of what was put
into it: entry `k` is in slot `k % n` until entry `k + n` overwrites it.
-/

namespace KernelDrivers.Lib

variable {n : Nat} {α : Type*}

/-- The slot of entry `k`. -/
def slotOf (n k : Nat) [NeZero n] : Fin n := Fin.ofNat n k

theorem slotOf_ne [NeZero n] {k l : Nat} (hkl : k < l) (hln : l < k + n) :
    slotOf n k ≠ slotOf n l := by
  intro h
  have hmod : k ≡ l [MOD n] := congrArg Fin.val h
  have hdvd : n ∣ l - k := (Nat.modEq_iff_dvd' hkl.le).mp hmod
  have hle : n ≤ l - k := Nat.le_of_dvd (by omega) hdvd
  omega

/-- The ring holds the last `n` entries of the history. -/
def HoldsLast [NeZero n] (ring : CArray n α) (history : List α) : Prop :=
  ∀ k (hk : k < history.length), history.length ≤ k + n → ring (slotOf n k) = history[k]

theorem holdsLast_nil [NeZero n] (ring : CArray n α) : HoldsLast ring [] :=
  fun _ hk => absurd hk (Nat.not_lt_zero _)

/-- Putting an entry into the slot whose turn it is. -/
theorem HoldsLast.put [NeZero n] {ring : CArray n α} {history : List α}
    (h : HoldsLast ring history) (x : α) :
    HoldsLast (Function.update ring (slotOf n history.length) x) (history ++ [x]) := by
  intro k hk hlast
  simp only [List.length_append, List.length_singleton] at hk hlast
  by_cases hold : k < history.length
  · have hne : slotOf n k ≠ slotOf n history.length := slotOf_ne hold (by omega)
    rw [Function.update_of_ne hne, h k hold (by omega), List.getElem_append_left hold]
  · obtain rfl : k = history.length := by omega
    simp

end KernelDrivers.Lib
