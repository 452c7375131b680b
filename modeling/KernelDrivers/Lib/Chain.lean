import Mathlib.Data.List.Basic

/-!
# Walking a singly linked chain

A chain is the list of its nodes in link order. A walk runs a body at each node and takes
the next pointer from the current node only after the body has run. So a body that unlinks
its node (which clears the node's next pointer) ends the walk, and the nodes behind it stay
in the chain unvisited.
-/

namespace KernelDrivers.Lib

variable {α β σ : Type*}

/-- What the body did to the node it visited. -/
inductive Visit (α : Type*) where
  /-- the node stays linked, possibly with new contents -/
  | keep (a : α)
  /-- the node was unlinked and its next pointer cleared -/
  | unlink
  /-- the body left the loop -/
  | leave (a : α)

/-- Walk the chain, threading the loop's variables through the visits. -/
def walk (body : σ → α → σ × Visit α) : σ → List α → σ × List α
  | s, [] => (s, [])
  | s, a :: rest =>
    match body s a with
    | (s', .keep a') =>
      let (t, rest') := walk body s' rest
      (t, a' :: rest')
    | (s', .unlink) => (s', rest)
    | (s', .leave a') => (s', a' :: rest)

/-- A body that unlinks the nodes satisfying `p` removes the first of them and no other. -/
theorem walk_unlink (p : α → Bool) (s : σ) (xs : List α) :
    walk (fun s a => if p a then (s, .unlink) else (s, .keep a)) s xs = (s, xs.eraseP p) := by
  induction xs with
  | nil => rfl
  | cons a xs ih =>
    cases h : p a
    · simp only [walk, h, Bool.false_eq_true, if_false, ih]
      simp [h]
    · simp [walk, h]

/-- A body that never unlinks maps the chain and folds its variables along it. -/
theorem walk_keep (f : σ → α → σ) (g : α → α) (s : σ) (xs : List α) :
    walk (fun s a => (f s a, .keep (g a))) s xs = (xs.foldl f s, xs.map g) := by
  induction xs generalizing s with
  | nil => rfl
  | cons a xs ih => simp [walk, ih]

/-- Walking commutes with a view of the nodes that the two bodies agree on. -/
theorem walk_map (v : α → β) (body : σ → α → σ × Visit α) (body' : σ → β → σ × Visit β)
    (hkeep : ∀ s a, body' s (v a) = ((body s a).1, match (body s a).2 with
      | .keep b => .keep (v b)
      | .unlink => .unlink
      | .leave b => .leave (v b)))
    (s : σ) (xs : List α) :
    walk body' s (xs.map v) = ((walk body s xs).1, (walk body s xs).2.map v) := by
  induction xs generalizing s with
  | nil => rfl
  | cons a xs ih =>
    have h := hkeep s a
    rcases hb : body s a with ⟨s', _ | _ | _⟩ <;> simp only [hb] at h <;>
      simp [walk, h, hb, ih]

end KernelDrivers.Lib
