import Mathlib.Data.List.Basic
import Mathlib.Logic.Function.Basic

/-!
# C arrays

An array of fixed length. An access with an index outside the array is undefined. `memcpy`
copies a number of leading elements and leaves the rest.
-/

namespace KernelDrivers.Lib

abbrev CArray (n : Nat) (α : Type*) := Fin n → α

namespace CArray

variable {n : Nat} {α : Type*}

def load (a : CArray n α) (i : Int) : Option α :=
  if h : 0 ≤ i ∧ i < n then some (a ⟨i.toNat, by omega⟩) else none

def store (a : CArray n α) (i : Int) (x : α) : Option (CArray n α) :=
  if h : 0 ≤ i ∧ i < n then some (Function.update a ⟨i.toNat, by omega⟩ x) else none

def memcpy (dst src : CArray n α) (len : Nat) : CArray n α :=
  fun i => if i < len then src i else dst i

theorem load_fin (a : CArray n α) (i : Fin n) : a.load (i : Nat) = some (a i) := by
  simp [load]

theorem store_fin (a : CArray n α) (i : Fin n) (x : α) :
    a.store (i : Nat) x = some (Function.update a i x) := by
  simp [store]

theorem load_eq_none {a : CArray n α} {i : Int} (h : i < 0 ∨ n ≤ i) : a.load i = none := by
  have : ¬ (0 ≤ i ∧ i < n) := by omega
  simp [load, this]

theorem store_eq_none {a : CArray n α} {i : Int} {x : α} (h : i < 0 ∨ n ≤ i) :
    a.store i x = none := by
  have : ¬ (0 ≤ i ∧ i < n) := by omega
  simp [store, this]

/-- An index inside is the number of an element. -/
theorem exists_fin {i : Int} (h : 0 ≤ i ∧ i < n) : ∃ k : Fin n, i = (k : Nat) :=
  ⟨⟨i.toNat, by omega⟩, (Int.toNat_of_nonneg h.1).symm⟩

theorem index_cases (n : Nat) (i : Int) : (∃ k : Fin n, i = (k : Nat)) ∨ (i < 0 ∨ n ≤ i) := by
  by_cases hin : 0 ≤ i ∧ i < n
  · exact .inl (exists_fin hin)
  · exact .inr (by omega)

/-- A load has a result exactly when its index is inside. -/
theorem load_defined_iff (a : CArray n α) {i : Int} :
    (∃ x, a.load i = some x) ↔ 0 ≤ i ∧ i < n := by
  constructor
  · rintro ⟨x, hx⟩
    by_contra hout
    rw [load_eq_none (by omega)] at hx
    cases hx
  · intro h
    exact ⟨_, dif_pos h⟩

/-- What a load returns is an element. -/
theorem exists_of_load {a : CArray n α} {i : Int} {x : α} (h : a.load i = some x) :
    ∃ k, a k = x := by
  obtain ⟨k, rfl⟩ := exists_fin ((load_defined_iff a).mp ⟨x, h⟩)
  rw [load_fin] at h
  exact ⟨k, Option.some.inj h⟩

/-- After a store every element is an old one or the one stored. -/
theorem forall_of_store {P : α → Prop} {a b : CArray n α} {i : Int} {x : α} (ha : ∀ k, P (a k))
    (hx : P x) (h : a.store i x = some b) : ∀ k, P (b k) := by
  rcases index_cases n i with ⟨k, rfl⟩ | hout
  · rw [store_fin] at h
    obtain rfl := Option.some.inj h
    grind
  · rw [store_eq_none hout] at h
    cases h

end CArray

end KernelDrivers.Lib
