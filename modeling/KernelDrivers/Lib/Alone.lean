import KernelDrivers.Lib.Pool
import Mathlib.Computability.StateTransition

/-!
# A thread on its own

A thread that takes all the steps ends in one state, where it has returned or waits. A new thread
of a pool does so while the other threads stand still.
-/

namespace KernelDrivers.Lib

variable {σ κ τ : Type*}

/-- The step of a thread together with the shared state it works on. -/
abbrev soloStep (step : κ → σ → Option (σ × κ)) : σ × κ → Option (σ × κ) := fun x => step x.2 x.1

/-- Stepping alone leads from one state and place in the code to another. -/
abbrev Alone (step : κ → σ → Option (σ × κ)) : σ × κ → σ × κ → Prop :=
  StateTransition.Reaches (soloStep step)

namespace Alone

variable {step : κ → σ → Option (σ × κ)} {x y z : σ × κ}

theorem next (h : Alone step x y) (hstep : step y.2 y.1 = some z) : Alone step x z := h.tail hstep

theorem trans (h : Alone step x y) (h' : Alone step y z) : Alone step x z :=
  Relation.ReflTransGen.trans h h'

theorem of_step (hstep : step x.2 x.1 = some y) : Alone step x y := .single hstep

theorem eq_of_ended (h : Alone step x y) (hend : step x.2 x.1 = none) : y = x := by
  rcases h.cases_head with heq | ⟨c, hstep, -⟩
  · exact heq.symm
  · exact absurd (hend.symm.trans hstep) (by simp)

/-- A loop of `n` iterations, each from one state to the next. -/
theorem loop {f : Nat → σ × κ} {n : Nat} (h : ∀ i < n, Alone step (f i) (f (i + 1))) :
    Alone step (f 0) (f n) := by
  induction n with
  | zero => exact .refl
  | succ n ih => exact (ih fun i hi => h i (by omega)).trans (h n n.lt_succ_self)

/-- Where the thread cannot go on is determined. -/
theorem end_unique (h : Alone step x y) (hend : step y.2 y.1 = none) (h' : Alone step x z)
    (hend' : step z.2 z.1 = none) : y = z := by
  rcases StateTransition.reaches_total h h' with hyz | hzy
  · exact (eq_of_ended hyz hend).symm
  · exact eq_of_ended hzy hend'

end Alone

/-! ## New threads of a pool -/

section Pool

variable (poolStep : τ → σ → Option (σ × τ)) (start : τ → σ → Option σ)

/-- The new thread `t` of the pool takes steps until it is `t'` and leaves the shared state `s'`,
and no other thread takes any. -/
def Completes (p : Pool σ τ) (t : τ) (s' : σ) (t' : τ) : Prop :=
  ∃ n os, run (poolMove poolStep start) p
    (.start t :: List.replicate n (.step p.threads.length)) = some (⟨s', p.threads ++ [t']⟩, os)

variable {poolStep start} {step : κ → σ → Option (σ × κ)} {thread : κ → τ}

theorem getElem?_length_append (ts : List τ) (t : τ) : (ts ++ [t])[ts.length]? = some t := by simp

theorem set_length_append (ts : List τ) (t t' : τ) :
    (ts ++ [t]).set ts.length t' = ts ++ [t'] := by simp

/-- Steps of the last thread are steps of its call. -/
theorem alone_of_run
    (hthread : ∀ call s, poolStep (thread call) s =
      (step call s).map fun (s', call') => (s', thread call'))
    (ts : List τ) {s : σ} {call : κ} {n : Nat} {q : Pool σ τ} {os : List Unit}
    (hrun : run (poolMove poolStep start) ⟨s, ts ++ [thread call]⟩
      (List.replicate n (.step ts.length)) = some (q, os)) :
    ∃ call', q = ⟨q.shared, ts ++ [thread call']⟩ ∧ Alone step (s, call) (q.shared, call') := by
  induction n generalizing s call os with
  | zero =>
    obtain ⟨rfl, -⟩ := Prod.mk.inj (Option.some.inj hrun)
    exact ⟨call, rfl, .refl⟩
  | succ n ih =>
    obtain ⟨p₁, ⟨⟩, os', hmove, hrest, -⟩ := run_cons_eq_some.mp hrun
    obtain ⟨t, s₁, t₁, ht, hst, rfl⟩ := poolMove_step_eq_some.mp hmove
    obtain rfl : thread call = t := Option.some.inj ((getElem?_length_append ts _).symm.trans ht)
    obtain ⟨⟨s₂, call₁⟩, hcall, heq⟩ := Option.map_eq_some_iff.mp ((hthread call s).symm.trans hst)
    obtain ⟨rfl, rfl⟩ := Prod.mk.inj heq
    rw [set_length_append] at hrest
    obtain ⟨call', hq, halone⟩ := ih hrest
    exact ⟨call', hq, (Alone.of_step hcall).trans halone⟩

theorem set_eq_self {α : Type*} {as : List α} {i : Nat} {a : α} (h : as[i]? = some a) :
    as.set i a = as := by
  obtain ⟨hlt, rfl⟩ := List.getElem?_eq_some_iff.mp h
  exact List.set_getElem_self hlt

/-- A thread of a pool runs as it does on its own while the others stand still. -/
theorem run_alone_at
    (hthread : ∀ call s, poolStep (thread call) s =
      (step call s).map fun (s', call') => (s', thread call'))
    {ts : List τ} {i : Nat} {x y : σ × κ} (ht : ts[i]? = some (thread x.2)) (h : Alone step x y) :
    ∃ n os, run (poolMove poolStep start) ⟨x.1, ts⟩ (List.replicate n (.step i)) =
      some (⟨y.1, ts.set i (thread y.2)⟩, os) := by
  have hlt : i < ts.length := (List.getElem?_eq_some_iff.mp ht).1
  induction h with
  | refl =>
    refine ⟨0, [], ?_⟩
    rw [set_eq_self ht]
    rfl
  | @tail y z _ hstep ih =>
    obtain ⟨n, os, hrun⟩ := ih
    have hst : poolStep (thread y.2) y.1 = some (z.1, thread z.2) := by
      rw [hthread, show step y.2 y.1 = some z from hstep]
      rfl
    have hmove : poolMove poolStep start ⟨y.1, ts.set i (thread y.2)⟩ (.step i) =
        some (⟨z.1, ts.set i (thread z.2)⟩, ()) :=
      poolMove_step_eq_some.mpr ⟨_, _, _, by simp [hlt], hst, by rw [List.set_set]⟩
    refine ⟨n + 1, os ++ [()], ?_⟩
    rw [List.replicate_succ', run_trans _ hrun (run_singleton _ hmove)]

theorem run_of_alone
    (hthread : ∀ call s, poolStep (thread call) s =
      (step call s).map fun (s', call') => (s', thread call'))
    (ts : List τ) {x y : σ × κ} (h : Alone step x y) :
    ∃ n os, run (poolMove poolStep start) ⟨x.1, ts ++ [thread x.2]⟩
      (List.replicate n (.step ts.length)) = some (⟨y.1, ts ++ [thread y.2]⟩, os) := by
  obtain ⟨n, os, hrun⟩ := run_alone_at hthread (getElem?_length_append ts _) h
  rw [set_length_append] at hrun
  exact ⟨n, os, hrun⟩

/-- A call made in a pool runs as it does on its own. -/
theorem completes_iff
    (hthread : ∀ call s, poolStep (thread call) s =
      (step call s).map fun (s', call') => (s', thread call'))
    (hinj : Function.Injective thread) {p : Pool σ τ} {call call' : κ} {s' : σ}
    (hstart : start (thread call) p.shared = some p.shared) :
    Completes poolStep start p (thread call) s' (thread call') ↔
      Alone step (p.shared, call) (s', call') := by
  have hmove : poolMove poolStep start p (.start (thread call)) =
      some (⟨p.shared, p.threads ++ [thread call]⟩, ()) :=
    poolMove_start_eq_some.mpr ⟨_, hstart, rfl⟩
  constructor
  · rintro ⟨n, os, hrun⟩
    rw [run_cons_of_some _ hmove] at hrun
    obtain ⟨⟨q, os'⟩, hrest, heq⟩ := Option.map_eq_some_iff.mp hrun
    obtain ⟨call₁, hq, halone⟩ := alone_of_run hthread p.threads hrest
    obtain ⟨rfl, -⟩ := Prod.mk.inj heq
    have hthreads := List.append_cancel_left (congrArg Pool.threads hq)
    rwa [hinj (List.singleton_inj.mp hthreads)]
  · intro halone
    obtain ⟨n, os, hrun⟩ : ∃ n os, run (poolMove poolStep start)
        ⟨p.shared, p.threads ++ [thread call]⟩ (List.replicate n (.step p.threads.length)) =
        some (⟨s', p.threads ++ [thread call']⟩, os) := run_of_alone hthread p.threads halone
    refine ⟨n, () :: os, ?_⟩
    rw [run_cons_of_some _ hmove, hrun]
    rfl

end Pool

end KernelDrivers.Lib
