import KernelDrivers.Lib.CArray
import Mathlib.Algebra.Group.Fin.Basic
import Mathlib.Tactic.Abel

/-!
# Stacks in a ring

A stack of at most `n` elements in a ring of `n` slots. The top element is in slot `top`, the
elements below it are in the slots before it, wrapping around, and the slots that hold no
element carry a mark. A push on a full stack overwrites the oldest element. Readers stop at the
first marked slot, so the stack they see may end before the slots that are in use.
-/

namespace KernelDrivers.Lib

variable {n : Nat} [NeZero n] {α : Type*}

/-- The slot `k` places below the top. -/
def below (top : Fin n) (k : Nat) : Fin n := top - Fin.ofNat n k

theorem ofNat_succ (k : Nat) : Fin.ofNat n (k + 1) = Fin.ofNat n k + 1 := by
  apply Fin.ext
  simp [Fin.val_add]

@[simp] theorem below_zero (top : Fin n) : below top 0 = top := by
  simp [below]

theorem below_succ (top : Fin n) (k : Nat) : below top (k + 1) = below (top - 1) k := by
  rw [below, below, ofNat_succ]
  abel

theorem below_self (top : Fin n) : below top n = top := by
  simp [below]

theorem below_ne {top : Fin n} {k : Nat} (hpos : 0 < k) (hk : k < n) : below top k ≠ top := by
  intro h
  have hzero : Fin.ofNat n k = 0 := by simpa [below] using h
  have hval : k % n = 0 := by simpa using congrArg Fin.val hzero
  rw [Nat.mod_eq_of_lt hk] at hval
  omega

/-! ## What can be read -/

/-- Reading from the top down finds the elements `xs` and then a marked slot, unless they fill
the ring. What the slots behind that one hold cannot be read. -/
structure ReadableIn (Mark : α → Prop) (ring : CArray n α) (top : Fin n) (xs : List α) :
    Prop where
  fits : xs.length ≤ n
  holds : ∀ k (hk : k < xs.length), ring (below top k) = xs[k]
  unmarked : ∀ x ∈ xs, ¬ Mark x
  stops : xs.length < n → Mark (ring (below top xs.length))

/-- The elements found in at most `k` slots from the top down. -/
def readableFrom (Mark : α → Prop) [DecidablePred Mark] (ring : CArray n α) :
    Fin n → Nat → List α
  | _, 0 => []
  | top, k + 1 =>
    if Mark (ring top) then [] else ring top :: readableFrom Mark ring (top - 1) k

def readable (Mark : α → Prop) [DecidablePred Mark] (ring : CArray n α) (top : Fin n) : List α :=
  readableFrom Mark ring top n

namespace ReadableIn

variable {Mark : α → Prop} {ring : CArray n α} {top : Fin n} {xs : List α} {x : α}

theorem top_marked (h : ReadableIn Mark ring top []) : Mark (ring top) := by
  simpa using h.stops (Nat.pos_of_ne_zero (NeZero.ne n))

theorem top_eq (h : ReadableIn Mark ring top (x :: xs)) : ring top = x := by
  have h0 := h.holds 0 (Nat.zero_lt_succ _)
  rwa [below_zero] at h0

theorem of_marked (h : Mark (ring top)) : ReadableIn Mark ring top [] where
  fits := Nat.zero_le _
  holds := nofun
  unmarked := nofun
  stops := fun _ => by simpa using h

theorem push (h : ReadableIn Mark ring top xs) (hx : ¬ Mark x) :
    ReadableIn Mark (Function.update ring (top + 1) x) (top + 1) ((x :: xs).take n) where
  fits := by simp
  holds := by
    intro k hk
    rw [List.length_take, List.length_cons] at hk
    rw [List.getElem_take]
    cases k with
    | zero => simp
    | succ k =>
      have hne : below (top + 1) (k + 1) ≠ top + 1 := below_ne (by omega) (by omega)
      rw [Function.update_of_ne hne, below_succ, add_sub_cancel_right, h.holds k (by omega)]
      rfl
  unmarked := by
    intro y hy
    rcases List.mem_cons.mp (List.mem_of_mem_take hy) with rfl | hmem
    · exact hx
    · exact h.unmarked y hmem
  stops := by
    intro hlt
    rw [List.length_take, List.length_cons] at hlt
    have hlen : ((x :: xs).take n).length = xs.length + 1 := by
      rw [List.length_take, List.length_cons]
      omega
    have hne : below (top + 1) (xs.length + 1) ≠ top + 1 := below_ne (by omega) (by omega)
    rw [hlen, Function.update_of_ne hne, below_succ, add_sub_cancel_right]
    exact h.stops (by omega)

theorem pop (h : ReadableIn Mark ring top (x :: xs)) {e : α} (he : Mark e) :
    ReadableIn Mark (Function.update ring top e) (top - 1) xs where
  fits := by
    have hfits := h.fits
    rw [List.length_cons] at hfits
    omega
  holds := by
    intro k hk
    have hfits := h.fits
    rw [List.length_cons] at hfits
    rw [← below_succ, Function.update_of_ne (below_ne (by omega) (by omega)),
      h.holds (k + 1) (by simpa using hk), List.getElem_cons_succ]
  unmarked := fun y hy => h.unmarked y (List.mem_cons_of_mem x hy)
  stops := by
    intro hlt
    rw [← below_succ]
    by_cases hlast : xs.length + 1 = n
    · rw [hlast, below_self, Function.update_self]
      exact he
    · rw [Function.update_of_ne (below_ne (by omega) (by omega))]
      exact h.stops (by rw [List.length_cons]; omega)

end ReadableIn

theorem readableFrom_spec (Mark : α → Prop) [DecidablePred Mark] (ring : CArray n α)
    (top : Fin n) (k : Nat) :
    (readableFrom Mark ring top k).length ≤ k ∧
    (∀ j (hj : j < (readableFrom Mark ring top k).length),
      ring (below top j) = (readableFrom Mark ring top k)[j]) ∧
    (∀ x ∈ readableFrom Mark ring top k, ¬ Mark x) ∧
    ((readableFrom Mark ring top k).length < k →
      Mark (ring (below top (readableFrom Mark ring top k).length))) := by
  induction k generalizing top with
  | zero => simp [readableFrom]
  | succ k ih =>
    by_cases hmark : Mark (ring top)
    · simp [readableFrom, hmark]
    · obtain ⟨hfits, hholds, hunmarked, hstops⟩ := ih (top - 1)
      simp only [readableFrom, hmark, if_false, List.length_cons]
      refine ⟨by omega, ?_, ?_, ?_⟩
      · intro j hj
        cases j with
        | zero => simp
        | succ j =>
          rw [below_succ, List.getElem_cons_succ]
          exact hholds j (by omega)
      · intro x hx
        rcases List.mem_cons.mp hx with rfl | hx
        · exact hmark
        · exact hunmarked x hx
      · intro hlt
        rw [below_succ]
        exact hstops (by omega)

/-- What can be read is a computed list. -/
theorem readableIn_readable (Mark : α → Prop) [DecidablePred Mark] (ring : CArray n α)
    (top : Fin n) : ReadableIn Mark ring top (readable Mark ring top) :=
  have ⟨hfits, hholds, hunmarked, hstops⟩ := readableFrom_spec Mark ring top n
  ⟨hfits, hholds, hunmarked, hstops⟩

/-! ## Stacks whose free slots are all marked -/

/-- The ring holds the stack `xs`, top element first. -/
structure StackIn (Mark : α → Prop) (ring : CArray n α) (top : Fin n) (xs : List α) : Prop where
  fits : xs.length ≤ n
  holds : ∀ k (hk : k < xs.length), ring (below top k) = xs[k]
  unmarked : ∀ x ∈ xs, ¬ Mark x
  free : ∀ k, xs.length ≤ k → k < n → Mark (ring (below top k))

namespace StackIn

variable {Mark : α → Prop} {ring : CArray n α} {top : Fin n} {xs : List α} {x : α}

theorem empty (h : ∀ i, Mark (ring i)) : StackIn Mark ring top [] where
  fits := Nat.zero_le _
  holds := nofun
  unmarked := nofun
  free := fun _ _ _ => h _

theorem readableIn (h : StackIn Mark ring top xs) : ReadableIn Mark ring top xs where
  fits := h.fits
  holds := h.holds
  unmarked := h.unmarked
  stops := h.free _ le_rfl

theorem top_marked (h : StackIn Mark ring top []) : Mark (ring top) := h.readableIn.top_marked

theorem top_eq (h : StackIn Mark ring top (x :: xs)) : ring top = x := h.readableIn.top_eq

theorem push (h : StackIn Mark ring top xs) (hx : ¬ Mark x) :
    StackIn Mark (Function.update ring (top + 1) x) (top + 1) ((x :: xs).take n) where
  fits := (h.readableIn.push hx).fits
  holds := (h.readableIn.push hx).holds
  unmarked := (h.readableIn.push hx).unmarked
  free := by
    intro k hlen hk
    rw [List.length_take, List.length_cons] at hlen
    cases k with
    | zero => omega
    | succ k =>
      have hne : below (top + 1) (k + 1) ≠ top + 1 := below_ne (by omega) (by omega)
      rw [Function.update_of_ne hne, below_succ, add_sub_cancel_right]
      exact h.free k (by omega) (by omega)

theorem pop (h : StackIn Mark ring top (x :: xs)) {e : α} (he : Mark e) :
    StackIn Mark (Function.update ring top e) (top - 1) xs where
  fits := (h.readableIn.pop he).fits
  holds := (h.readableIn.pop he).holds
  unmarked := (h.readableIn.pop he).unmarked
  free := by
    intro k hlen hk
    rw [← below_succ]
    by_cases hlast : k + 1 = n
    · rw [hlast, below_self, Function.update_self]
      exact he
    · rw [Function.update_of_ne (below_ne (by omega) (by omega))]
      exact h.free (k + 1) (by simpa using hlen) (by omega)

end StackIn

end KernelDrivers.Lib
