import KernelDrivers.Lib.Pool

/-!
# Calls under a lock

The threads of a pool call the functions of some shared data, one statement at a time. A thread
inside a call holds the lock, and its remaining statements, taken without interruption, do what
the call does in one step. Then the calls that have returned are a run of the data by itself, in
the order in which they returned, and they had the replies of that run. A call of one statement
may also be made without the lock, while no thread is inside a call.
-/

namespace KernelDrivers.Lib

variable {σ τ β κ ρ : Type*}

section Calls

variable (view : σ → β) (call : β → κ → Option (β × ρ)) (inside : τ → Option κ)
  (rest : τ → β → Option (β × ρ))

/-- What a step of a thread is to the data, and the call that returns with its reply. `inside t`
is the call that `t` is in, and `rest t` is what its remaining statements do. -/
inductive CallStep (s : σ) (t : τ) (s' : σ) (t' : τ) : Option (κ × ρ) → Prop
  | quiet (hout : inside t = none) (hout' : inside t' = none) (hview : view s' = view s) :
    CallStep s t s' t' none
  | atomic {k : κ} {r : ρ} (hout : inside t = none) (hout' : inside t' = none)
      (hcall : call (view s) k = some (view s', r)) : CallStep s t s' t' (some (k, r))
  | enter {k : κ} (hout : inside t = none) (hin : inside t' = some k) (hview : view s' = view s)
      (hrest : rest t' (view s) = call (view s) k) : CallStep s t s' t' none
  | within {k : κ} (hin : inside t = some k) (hin' : inside t' = some k)
      (hrest : rest t' (view s') = rest t (view s)) : CallStep s t s' t' none
  | leave {k : κ} {r : ρ} (hin : inside t = some k) (hout : inside t' = none)
      (hrest : rest t (view s) = some (view s', r)) : CallStep s t s' t' (some (k, r))

/-- No thread is inside a call. -/
def AllOutside (p : Pool σ τ) : Prop := ∀ t ∈ p.threads, inside t = none

/-- The calls that returned are a run of the data from `b₀` to some `b`. The data are `b` when no
thread is inside a call, and whoever is inside turns them into what its call makes of `b`. -/
def Linear (b₀ : β) (p : Pool σ τ) (log : List (κ × ρ)) : Prop :=
  ∃ b, run call b₀ (log.map Prod.fst) = some (b, log.map Prod.snd) ∧
    (AllOutside inside p → view p.shared = b) ∧
    ∀ t ∈ p.threads, ∀ k, inside t = some k → rest t (view p.shared) = call b k

variable {view call inside rest}

/-- Running one more call of the data. -/
theorem run_snoc {b₀ b b' : β} {log : List (κ × ρ)} {k : κ} {r : ρ}
    (hlog : run call b₀ (log.map Prod.fst) = some (b, log.map Prod.snd))
    (hcall : call b k = some (b', r)) :
    run call b₀ ((log ++ [(k, r)]).map Prod.fst) = some (b', (log ++ [(k, r)]).map Prod.snd) := by
  rw [List.map_append, List.map_append]
  exact run_trans call hlog (run_singleton call hcall)

section Lock

variable {Locked : σ → Prop} {Holds : τ → Prop}

/-- While a thread holds the lock, nobody else is inside a call. -/
theorem outside_of_holds (hholds : ∀ t k, inside t = some k → Holds t) {p : Pool σ τ}
    (hlock : LockInv Locked Holds p) {i j : Nat} {t u : τ} (ht : p.threads[i]? = some t)
    (hu : p.threads[j]? = some u) (hne : j ≠ i) (hin : Holds t) : inside u = none := by
  cases hcall : inside u with
  | none => rfl
  | some k => exact absurd (hlock.exclusive j i u t hu ht (hholds u k hcall) hin) hne

/-- A step of a thread keeps the calls in order. -/
theorem Linear.step (hholds : ∀ t k, inside t = some k → Holds t) {b₀ : β} {p : Pool σ τ}
    {log : List (κ × ρ)} (h : Linear view call inside rest b₀ p log)
    (hlock : LockInv Locked Holds p) {i : Nat} {t t' : τ} {s' : σ} {e : Option (κ × ρ)}
    (hlock' : LockInv Locked Holds ⟨s', p.threads.set i t'⟩) (ht : p.threads[i]? = some t)
    (halone : inside t = none → e.isSome → AllOutside inside p)
    (hstep : CallStep view call inside rest p.shared t s' t' e) :
    Linear view call inside rest b₀ ⟨s', p.threads.set i t'⟩ (log ++ e.toList) := by
  obtain ⟨b, hlog, hidle, hbusy⟩ := h
  have hlt : i < p.threads.length := (List.getElem?_eq_some_iff.mp ht).1
  have ht' : (p.threads.set i t')[i]? = some t' := by simp [hlt]
  have hmem : t ∈ p.threads := List.mem_of_getElem? ht
  have hmem' : t' ∈ p.threads.set i t' := List.mem_of_getElem? ht'
  -- the other threads are the same before and after
  have hothers : ∀ u ∈ p.threads.set i t', u = t' ∨ ∃ j, j ≠ i ∧ p.threads[j]? = some u ∧
      (p.threads.set i t')[j]? = some u := by
    intro u hu
    obtain ⟨j, hj⟩ := List.mem_iff_getElem?.mp hu
    rcases getElem?_set_cases hj with ⟨-, rfl⟩ | ⟨hne, hj'⟩
    · exact .inl rfl
    · exact .inr ⟨j, hne, hj', hj⟩
  have hbefore : ∀ u ∈ p.threads, u = t ∨ ∃ j, j ≠ i ∧ p.threads[j]? = some u ∧
      (p.threads.set i t')[j]? = some u := by
    intro u hu
    obtain ⟨j, hj⟩ := List.mem_iff_getElem?.mp hu
    rcases eq_or_ne j i with rfl | hne
    · exact .inl (Option.some.inj (hj.symm.trans ht))
    · exact .inr ⟨j, hne, hj, by rw [List.getElem?_set_ne hne.symm]; exact hj⟩
  cases hstep with
  | quiet hout hout' hview =>
    rw [Option.toList_none, List.append_nil]
    refine ⟨b, hlog, fun hall => ?_, fun u hu k hk => ?_⟩
    · refine hview.trans (hidle fun u hu => ?_)
      rcases hbefore u hu with rfl | ⟨j, -, -, hj⟩
      · exact hout
      · exact hall u (List.mem_of_getElem? hj)
    · rcases hothers u hu with rfl | ⟨j, -, hj, -⟩
      · rw [hout'] at hk
        cases hk
      · rw [hview]
        exact hbusy u (List.mem_of_getElem? hj) k hk
  | @atomic k r hout hout' hcall =>
    have hnobody := halone hout rfl
    rw [hidle hnobody] at hcall
    refine ⟨view s', run_snoc hlog hcall, fun _ => rfl, fun u hu k hk => ?_⟩
    rcases hothers u hu with rfl | ⟨j, -, hj, -⟩
    · rw [hout'] at hk
      cases hk
    · rw [hnobody u (List.mem_of_getElem? hj)] at hk
      cases hk
  | @enter k hout hin hview hrest =>
    rw [Option.toList_none, List.append_nil]
    have hnobody : AllOutside inside p := by
      intro u hu
      rcases hbefore u hu with rfl | ⟨j, hne, -, hj⟩
      · exact hout
      · exact outside_of_holds hholds hlock' ht' hj hne (hholds t' k hin)
    refine ⟨b, hlog, fun hall => ?_, fun u hu k' hk => ?_⟩
    · rw [hall t' hmem'] at hin
      cases hin
    · rcases hothers u hu with rfl | ⟨j, -, hj, -⟩
      · obtain rfl : k = k' := Option.some.inj (hin.symm.trans hk)
        show rest u (view s') = call b k
        rw [hview, hrest, hidle hnobody]
      · rw [hnobody u (List.mem_of_getElem? hj)] at hk
        cases hk
  | @within k hin hin' hrest =>
    rw [Option.toList_none, List.append_nil]
    refine ⟨b, hlog, fun hall => ?_, fun u hu k' hk => ?_⟩
    · rw [hall t' hmem'] at hin'
      cases hin'
    · rcases hothers u hu with rfl | ⟨j, hne, hj, -⟩
      · obtain rfl : k = k' := Option.some.inj (hin'.symm.trans hk)
        exact hrest.trans (hbusy t hmem k hin)
      · rw [outside_of_holds hholds hlock ht hj hne (hholds t k hin)] at hk
        cases hk
  | @leave k r hin hout hrest =>
    have hcall : call b k = some (view s', r) := (hbusy t hmem k hin).symm.trans hrest
    refine ⟨view s', run_snoc hlog hcall, fun _ => rfl, fun u hu k' hk => ?_⟩
    rcases hothers u hu with rfl | ⟨j, hne, hj, -⟩
    · rw [hout] at hk
      cases hk
    · rw [outside_of_holds hholds hlock ht hj hne (hholds t k hin)] at hk
      cases hk

theorem Linear.start {b₀ : β} {p : Pool σ τ} {log : List (κ × ρ)}
    (h : Linear view call inside rest b₀ p log) {t : τ} {s' : σ} (hout : inside t = none)
    (hview : view s' = view p.shared) :
    Linear view call inside rest b₀ ⟨s', p.threads ++ [t]⟩ log := by
  obtain ⟨b, hlog, hidle, hbusy⟩ := h
  refine ⟨b, hlog, fun hall => ?_, fun u hu k hk => ?_⟩
  · exact hview.trans (hidle fun u hu => hall u (List.mem_append_left _ hu))
  · rcases List.mem_append.mp hu with hu | hu
    · show rest u (view s') = call b k
      rw [hview]
      exact hbusy u hu k hk
    · rw [List.mem_singleton.mp hu, hout] at hk
      cases hk

variable {step : τ → σ → Option (σ × τ)} {start : τ → σ → Option σ}
  {returns : σ → τ → Option (κ × ρ)}

/-- A call of one statement is made without the lock only while no thread is inside a call. -/
def MadeAlone (inside : τ → Option κ) (returns : σ → τ → Option (κ × ρ)) (p : Pool σ τ) :
    PoolMove τ → Prop
  | .start _ => True
  | .step i => ∀ t ∈ p.threads[i]?, inside t = none → (returns p.shared t).isSome →
      AllOutside inside p

instance (p : Pool σ τ) : Decidable (AllOutside inside p) :=
  inferInstanceAs (Decidable (∀ t ∈ p.threads, inside t = none))

instance (p : Pool σ τ) : ∀ move, Decidable (MadeAlone inside returns p move)
  | .start _ => isTrue trivial
  | .step i => inferInstanceAs (Decidable (∀ t ∈ p.threads[i]?, inside t = none →
      (returns p.shared t).isSome → AllOutside inside p))

/-- Rule for calls under a lock: `returns s t` is the call that the next step of `t` returns
from. -/
theorem run_linear (hholds : ∀ t k, inside t = some k → Holds t)
    (hlock : ∀ t s s' t', step t s = some (s', t') → (Holds t → Locked s) →
      LockStep Locked Holds s t s' t')
    (hstep : ∀ t s s' t', step t s = some (s', t') → (Holds t → Locked s) →
      CallStep view call inside rest s t s' t' (returns s t))
    (hstart : ∀ t s s', start t s = some s' →
      ¬ Holds t ∧ (Locked s → Locked s') ∧ view s' = view s)
    {p q : Pool σ τ} {moves : List (PoolMove τ)} {os : List Unit}
    (hp : LockInv Locked Holds p) (hout : AllOutside inside p)
    (halone : Along (poolMove step start) (MadeAlone inside returns) p moves)
    (hrun : run (poolMove step start) p moves = some (q, os)) :
    Linear view call inside rest (view p.shared) q (poolEvents step start returns p moves) := by
  let Inv : Pool σ τ → List (κ × ρ) → Prop := fun q log =>
    LockInv Locked Holds q ∧ Linear view call inside rest (view p.shared) q log
  have hinit : Inv p [] := by
    refine ⟨hp, view p.shared, rfl, fun _ => rfl, fun t ht k hk => ?_⟩
    rw [hout t ht] at hk
    cases hk
  have hkept : ∀ q move q' o log, Inv q log → MadeAlone inside returns q move →
      poolMove step start q move = some (q', o) →
      Inv q' (log ++ (moveEvent returns q move).toList) := by
    rintro q (t | i) q' ⟨⟩ log ⟨hq, hlinear⟩ hok hmove
    · obtain ⟨s, hs, rfl⟩ := poolMove_start_eq_some.mp hmove
      obtain ⟨hnot, hkept, hview⟩ := hstart t q.shared s hs
      have hout : inside t = none := by
        cases hcall : inside t with
        | none => rfl
        | some k => exact absurd (hholds t k hcall) hnot
      have hlog : log ++ (moveEvent returns q (.start t)).toList = log := by simp [moveEvent]
      rw [hlog]
      exact ⟨hq.append hnot hkept, hlinear.start hout hview⟩
    · obtain ⟨t, s, t', ht, hs, rfl⟩ := poolMove_step_eq_some.mp hmove
      have hlocked := hq.locked i t ht
      have hq' := hq.set ht (hlock t q.shared s t' hs hlocked)
      have hevent : moveEvent returns q (.step i) = returns q.shared t := by
        simp [moveEvent, ht]
      rw [hevent]
      exact ⟨hq', hlinear.step hholds hq hq' ht (hok t ht) (hstep t q.shared s t' hs hlocked)⟩
  have hend := run_along_events _ (moveEvent returns) hkept hinit halone hrun
  rw [List.nil_append, ← poolEvents_eq] at hend
  exact hend.2

end Lock

end Calls

end KernelDrivers.Lib
