import Mathlib.Data.List.Nodup

/-!
# Lists looked up by a key

A list whose elements carry a key, searched from the front. Removing the first element of a
key, changing the elements of a key in place, and pushing an element with a new key each act
on the lookup function as on a finite map, as long as no key occurs twice.
-/

namespace KernelDrivers.Lib

variable {α κ : Type*} [DecidableEq κ] (key : α → κ)

def lookup (k : κ) (xs : List α) : Option α := xs.find? fun a => key a = k

def DistinctKeys (xs : List α) : Prop := (xs.map key).Nodup

variable {key}

@[simp] theorem lookup_nil (k : κ) : lookup key k [] = none := rfl

theorem lookup_cons (k : κ) (a : α) (xs : List α) :
    lookup key k (a :: xs) = if key a = k then some a else lookup key k xs := by
  by_cases h : key a = k <;> simp [lookup, h]

theorem lookup_eq_none {k : κ} {xs : List α} : lookup key k xs = none ↔ k ∉ xs.map key := by
  simp [lookup]

omit [DecidableEq κ] in
theorem distinctKeys_nil : DistinctKeys key ([] : List α) := by simp [DistinctKeys]

theorem distinctKeys_cons {a : α} {xs : List α} :
    DistinctKeys key (a :: xs) ↔ lookup key (key a) xs = none ∧ DistinctKeys key xs := by
  simp [DistinctKeys, lookup_eq_none]

/-! ## Removing the first element of a key -/

theorem lookup_eraseP {xs : List α} (h : DistinctKeys key xs) (k k' : κ) :
    lookup key k' (xs.eraseP fun a => key a = k) =
      if k' = k then none else lookup key k' xs := by
  induction xs with
  | nil => simp
  | cons a xs ih =>
    obtain ⟨hfresh, htail⟩ := distinctKeys_cons.mp h
    by_cases ha : key a = k
    · subst ha
      by_cases hk : k' = key a
      · simp [hk, hfresh]
      · simp [hk, lookup_cons, Ne.symm hk]
    · rw [List.eraseP_cons_of_neg (by simpa using ha), lookup_cons, lookup_cons, ih htail]
      by_cases hk : k' = k
      · simp [hk, ha]
      · simp [hk]

omit [DecidableEq κ] in
theorem DistinctKeys.eraseP {xs : List α} (h : DistinctKeys key xs) (p : α → Bool) :
    DistinctKeys key (xs.eraseP p) :=
  List.Nodup.sublist (List.eraseP_sublist.map key) h

/-! ## Changing the elements of a key in place -/

theorem map_key_modify {f : α → α} (hf : ∀ a, key (f a) = key a) (k : κ) (xs : List α) :
    (xs.map fun a => if key a = k then f a else a).map key = xs.map key := by
  rw [List.map_map]
  refine List.map_congr_left fun a _ => ?_
  by_cases h : key a = k <;> simp [h, hf]

theorem DistinctKeys.modify {f : α → α} (hf : ∀ a, key (f a) = key a) (k : κ) {xs : List α}
    (h : DistinctKeys key xs) :
    DistinctKeys key (xs.map fun a => if key a = k then f a else a) := by
  unfold DistinctKeys
  rwa [map_key_modify hf]

theorem lookup_modify {f : α → α} (hf : ∀ a, key (f a) = key a) (k k' : κ) (xs : List α) :
    lookup key k' (xs.map fun a => if key a = k then f a else a) =
      if k' = k then (lookup key k xs).map f else lookup key k' xs := by
  induction xs with
  | nil => simp
  | cons a xs ih =>
    rw [List.map_cons, lookup_cons, ih, lookup_cons, lookup_cons]
    by_cases ha : key a = k
    · by_cases hk : k' = k
      · simp [ha, hk, hf]
      · simp [ha, hk, hf, Ne.symm hk]
    · by_cases hk : k' = k
      · simp [ha, hk]
      · simp [ha, hk]

end KernelDrivers.Lib
