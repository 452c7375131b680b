import KernelDrivers.Lib.Run

/-!
# Unwinding: runs with other users' inputs removed

Inputs belong to users. A user's view of a machine is a relation between the states of two
runs. When a user's own inputs give equal outputs from related states, and other users' inputs
keep a state related, removing the other users' inputs from a run changes none of the user's
outputs. The steps may be required to satisfy a side condition along the run.
-/

namespace KernelDrivers.Lib

variable {σ ι ο υ : Type*} (step : σ → ι → Option (σ × ο))

variable [DecidableEq υ] (owner : ι → υ)

/-- The outputs of one user's inputs. -/
def outputsOf (u : υ) (is : List ι) (os : List ο) : List ο :=
  ((is.zip os).filter fun p => owner p.1 = u).map (·.2)

theorem outputsOf_cons (u : υ) (i : ι) (is : List ι) (o : ο) (os : List ο) :
    outputsOf owner u (i :: is) (o :: os) =
      if owner i = u then o :: outputsOf owner u is os else outputsOf owner u is os := by
  unfold outputsOf
  by_cases h : owner i = u <;> simp [h]

/-- Unwinding theorem. -/
theorem run_filter {Ok : σ → ι → Prop} {Sim : υ → σ → σ → Prop}
    (hown : ∀ s t i, Ok s i → Sim (owner i) s t → ∃ s' t' o,
      step s i = some (s', o) ∧ step t i = some (t', o) ∧ Sim (owner i) s' t')
    (hother : ∀ s t i u s' o, Ok s i → u ≠ owner i → step s i = some (s', o) → Sim u s t →
      Sim u s' t)
    {u : υ} {s t s' : σ} {is : List ι} {os : List ο} (hsim : Sim u s t)
    (hok : Along step Ok s is) (hrun : run step s is = some (s', os)) :
    ∃ t', run step t (is.filter fun i => owner i = u) = some (t', outputsOf owner u is os) := by
  induction is generalizing s t os with
  | nil =>
    have he : s = s' ∧ [] = os := by simpa using hrun
    exact ⟨t, by simp [outputsOf]⟩
  | cons i is ih =>
    obtain ⟨s₁, o, os', hi, htail, rfl⟩ := run_cons_eq_some.mp hrun
    have hok' := hok.2 s₁ o hi
    by_cases hu : owner i = u
    · subst hu
      obtain ⟨s₂, t₁, o', hs, ht, hsim'⟩ := hown s t i hok.1 hsim
      obtain ⟨rfl, rfl⟩ : s₂ = s₁ ∧ o' = o := by simpa [hi, eq_comm] using hs
      obtain ⟨t', hrun'⟩ := ih hsim' hok' htail
      refine ⟨t', ?_⟩
      rw [List.filter_cons_of_pos (by simp), run_cons_of_some step ht, hrun', outputsOf_cons]
      simp
    · obtain ⟨t', hrun'⟩ := ih (hother s t i u s₁ o hok.1 (Ne.symm hu) hi hsim) hok' htail
      refine ⟨t', ?_⟩
      rw [List.filter_cons_of_neg (by simpa using hu), hrun', outputsOf_cons, if_neg hu]

end KernelDrivers.Lib
