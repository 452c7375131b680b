import KernelDrivers.Lib.Pool

/-!
# Counters tested outside a lock

A thread that finds a counter below its limit updates it in a later step, whatever the other
threads did in between. So a counter passes its limit by less than the number of threads: those
that passed the test and did not update yet are counted beside it. A thread leaves only when it
finds the limit reached, and the counter never falls.
-/

namespace KernelDrivers.Lib

variable {σ τ : Type*}

section Overshoot

variable (count : σ → Int) (limit : Int) (passed : τ → Bool) (Left : τ → Prop)

/-- What a step does to one counter: the test passes or sends the thread on, a thread that passed
updates it, or the step is about something else. -/
inductive TestedStep (s : σ) (t : τ) (s' : σ) (t' : τ) : Prop
  | pass (hlt : count s < limit) (hcount : count s' = count s) (hleft : ¬ Left t')
  | leave (hle : limit ≤ count s) (hcount : count s' = count s) (hpassed : passed t' = false)
  | update (hcount : count s' = count s + 1) (hpassed : passed t = true)
      (hpassed' : passed t' = false) (hleft : ¬ Left t')
  | other (hcount : count s' = count s) (hpassed : passed t' = passed t)
      (hleft : Left t' → Left t)

/-- The threads that passed the test and did not update the counter yet. -/
def pending (ts : List τ) : Nat := total (fun t => (passed t).toNat) ts

structure OvershootInv (p : Pool σ τ) : Prop where
  bound : count p.shared + pending passed p.threads ≤ limit - 1 + p.threads.length
  left : ∀ t ∈ p.threads, Left t → limit ≤ count p.shared

variable {count limit passed Left}

theorem pending_le_length (ts : List τ) : pending passed ts ≤ ts.length := by
  induction ts with
  | nil => exact Nat.le_refl 0
  | cons t ts ih =>
    have hhead := Bool.toNat_le (passed t)
    simp only [pending, total_cons, List.length_cons] at ih ⊢
    omega

/-- Without threads there is nothing to pass the limit. -/
theorem overshootInv_nil {s : σ} (h : count s < limit) :
    OvershootInv count limit passed Left ⟨s, []⟩ where
  bound := by
    simp only [pending, total_nil, List.length_nil]
    omega
  left := fun t ht => absurd ht List.not_mem_nil

theorem OvershootInv.step {p : Pool σ τ} (h : OvershootInv count limit passed Left p) {i : Nat}
    {t t' : τ} {s' : σ} (ht : p.threads[i]? = some t)
    (hstep : TestedStep count limit passed Left p.shared t s' t') :
    OvershootInv count limit passed Left ⟨s', p.threads.set i t'⟩ := by
  have hset := total_set (fun t => (passed t).toNat) ht t'
  have hlength : pending passed (p.threads.set i t') ≤ (p.threads.set i t').length :=
    pending_le_length _
  have hbound := h.bound
  have hothers : ∀ u ∈ p.threads.set i t', Left u → u = t' ∨ limit ≤ count p.shared := by
    intro u hu hleft
    rcases List.mem_or_eq_of_mem_set hu with hu | rfl
    · exact .inr (h.left u hu hleft)
    · exact .inl rfl
  simp only [pending, List.length_set] at hbound hlength
  cases hstep with
  | pass hlt hcount hleft =>
    refine ⟨?_, fun u hu hu' => ?_⟩
    · simp only [pending, List.length_set]
      omega
    · rcases hothers u hu hu' with rfl | hle
      · exact absurd hu' hleft
      · exact hcount ▸ hle
  | leave hle hcount hpassed =>
    refine ⟨?_, fun u _ _ => hcount ▸ hle⟩
    simp only [pending, List.length_set]
    rw [hpassed, Bool.toNat_false] at hset
    omega
  | update hcount hpassed hpassed' hleft =>
    refine ⟨?_, fun u hu hu' => ?_⟩
    · simp only [pending, List.length_set]
      rw [hpassed, hpassed', Bool.toNat_true, Bool.toNat_false] at hset
      omega
    · rcases hothers u hu hu' with rfl | hle
      · exact absurd hu' hleft
      · change limit ≤ count s'
        omega
  | other hcount hpassed hleft =>
    refine ⟨?_, fun u hu hu' => ?_⟩
    · simp only [pending, List.length_set]
      rw [hpassed] at hset
      omega
    · rcases hothers u hu hu' with rfl | hle
      · exact hcount ▸ h.left t (List.mem_of_getElem? ht) (hleft hu')
      · exact hcount ▸ hle

theorem OvershootInv.start {p : Pool σ τ} (h : OvershootInv count limit passed Left p) {t : τ}
    {s' : σ} (hcount : count s' = count p.shared) (hpassed : passed t = false) (hleft : ¬ Left t) :
    OvershootInv count limit passed Left ⟨s', p.threads ++ [t]⟩ where
  bound := by
    have hbound := h.bound
    simp only [pending, total_append, total_cons, total_nil, hpassed, Bool.toNat_false,
      List.length_append, List.length_cons, List.length_nil] at hbound ⊢
    omega
  left := by
    intro u hu hu'
    rcases List.mem_append.mp hu with hu | hu
    · exact hcount ▸ h.left u hu hu'
    · obtain rfl := List.mem_singleton.mp hu
      exact absurd hu' hleft

/-- The counter passes its limit by less than the number of threads. -/
theorem OvershootInv.count_le {p : Pool σ τ} (h : OvershootInv count limit passed Left p) :
    count p.shared ≤ limit + p.threads.length - 1 := by
  have hbound := h.bound
  omega

end Overshoot

end KernelDrivers.Lib
