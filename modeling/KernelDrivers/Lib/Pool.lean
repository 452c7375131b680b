import KernelDrivers.Lib.Run
import Mathlib.Algebra.GroupWithZero.Nat

/-!
# Threads with one lock

A pool is a shared state and the threads that work on it. A move lets one thread take its next
step or starts a new thread. A lock is a predicate of the shared state; which threads hold it is
a predicate of the threads. When only a holder gives the lock back and only a free lock is taken,
no two threads hold it, and what a thread knows of the shared state survives the steps of the
others. Invariants may count threads, and speak of the events of the run so far.
-/

namespace KernelDrivers.Lib

variable {σ τ : Type*}

structure Pool (σ τ : Type*) where
  shared : σ
  threads : List τ

inductive PoolMove (τ : Type*) where
  | start (t : τ)
  | step (i : Nat)

section Pool

variable (step : τ → σ → Option (σ × τ)) (start : τ → σ → Option σ)

/-- A thread that waits cannot be moved. A new thread goes to the end of the list. -/
def poolMove (p : Pool σ τ) : PoolMove τ → Option (Pool σ τ × Unit)
  | .start t => (start t p.shared).map fun s => (⟨s, p.threads ++ [t]⟩, ())
  | .step i => p.threads[i]?.bind fun t =>
      (step t p.shared).map fun (s, t') => (⟨s, p.threads.set i t'⟩, ())

variable {step start}

theorem poolMove_start_eq_some {p q : Pool σ τ} {t : τ} :
    poolMove step start p (.start t) = some (q, ()) ↔
      ∃ s, start t p.shared = some s ∧ q = ⟨s, p.threads ++ [t]⟩ := by
  simp only [poolMove, Option.map_eq_some_iff, Prod.mk.injEq, and_true]
  exact exists_congr fun s => and_congr_right fun _ => eq_comm

theorem poolMove_step_eq_some {p q : Pool σ τ} {i : Nat} :
    poolMove step start p (.step i) = some (q, ()) ↔
      ∃ t s t', p.threads[i]? = some t ∧ step t p.shared = some (s, t') ∧
        q = ⟨s, p.threads.set i t'⟩ := by
  simp only [poolMove, Option.bind_eq_some_iff, Option.map_eq_some_iff, Prod.mk.injEq, and_true,
    Prod.exists]
  constructor
  · rintro ⟨t, ht, s, t', hst, rfl⟩
    exact ⟨t, s, t', ht, hst, rfl⟩
  · rintro ⟨t, s, t', ht, hst, rfl⟩
    exact ⟨t, ht, s, t', hst, rfl⟩

/-- A step of the only thread. -/
theorem run_only_thread {s s' : σ} {t t' : τ} (h : step t s = some (s', t')) :
    run (poolMove step start) ⟨s, [t]⟩ [.step 0] = some (⟨s', [t']⟩, [()]) :=
  run_singleton _ (poolMove_step_eq_some.mpr ⟨t, s', t', rfl, h, rfl⟩)

/-- A thread of the list after one of them was replaced. -/
theorem getElem?_set_cases {ts : List τ} {i j : Nat} {t u : τ}
    (h : (ts.set i t)[j]? = some u) : j = i ∧ u = t ∨ j ≠ i ∧ ts[j]? = some u := by
  rcases eq_or_ne j i with rfl | hne
  · have hlt : j < ts.length := by
      by_contra hge
      simp [hge] at h
    left
    simpa [List.getElem?_set, hlt, eq_comm] using h
  · right
    rw [List.getElem?_set_ne (Ne.symm hne)] at h
    exact ⟨hne, h⟩

/-- A thread of the list after one was added. -/
theorem getElem?_append_cases {ts : List τ} {j : Nat} {t u : τ}
    (h : (ts ++ [t])[j]? = some u) : u = t ∨ ts[j]? = some u := by
  rcases Nat.lt_or_ge j ts.length with hlt | hge
  · right
    rwa [List.getElem?_append_left hlt] at h
  · left
    rw [List.getElem?_append_right hge] at h
    simpa using List.mem_of_getElem? h

/-- Invariant rule for pools: what every step and every start keeps holds after the run. -/
theorem run_pool_inv (Inv : Pool σ τ → Prop) {Ok : Pool σ τ → PoolMove τ → Prop}
    (hstep : ∀ (p : Pool σ τ) (i : Nat) t s' t', Inv p → Ok p (.step i) →
      p.threads[i]? = some t → step t p.shared = some (s', t') →
      Inv ⟨s', p.threads.set i t'⟩)
    (hstart : ∀ (p : Pool σ τ) t s', Inv p → start t p.shared = some s' →
      Inv ⟨s', p.threads ++ [t]⟩)
    {p q : Pool σ τ} {moves : List (PoolMove τ)} {os : List Unit} (hp : Inv p)
    (hok : Along (poolMove step start) Ok p moves)
    (hrun : run (poolMove step start) p moves = some (q, os)) : Inv q := by
  refine run_along (poolMove step start) ?_ hp hok hrun
  intro p move q _ hp hok hmove
  cases move with
  | start t =>
    obtain ⟨s, hs, rfl⟩ := poolMove_start_eq_some.mp hmove
    exact hstart p t s hp hs
  | step i =>
    obtain ⟨t, s, t', ht, hst, rfl⟩ := poolMove_step_eq_some.mp hmove
    exact hstep p i t s t' hp hok ht hst

/-! ## Counting threads -/

/-- The sum of what the threads count for. -/
def total (w : τ → Nat) (ts : List τ) : Nat := (ts.map w).sum

@[simp] theorem total_nil (w : τ → Nat) : total w [] = 0 := rfl

@[simp] theorem total_cons (w : τ → Nat) (t : τ) (ts : List τ) :
    total w (t :: ts) = w t + total w ts := rfl

@[simp] theorem total_append (w : τ → Nat) (ts us : List τ) :
    total w (ts ++ us) = total w ts + total w us := by
  simp [total]

/-- Replacing a thread exchanges what it counts for. -/
theorem total_set (w : τ → Nat) {ts : List τ} {i : Nat} {t : τ} (h : ts[i]? = some t) (t' : τ) :
    total w (ts.set i t') + w t = total w ts + w t' := by
  induction ts generalizing i with
  | nil => simp at h
  | cons u ts ih =>
    cases i with
    | zero =>
      obtain rfl : u = t := by simpa using h
      simp only [List.set_cons_zero, total_cons]
      omega
    | succ i =>
      have hrest := ih (i := i) (by simpa using h)
      simp only [List.set_cons_succ, total_cons]
      omega

theorem total_add (w v : τ → Nat) (ts : List τ) :
    total (fun t => w t + v t) ts = total w ts + total v ts := by
  induction ts with
  | nil => rfl
  | cons t ts ih =>
    simp only [total_cons, ih]
    omega

theorem total_eq_zero_iff {w : τ → Nat} {ts : List τ} : total w ts = 0 ↔ ∀ t ∈ ts, w t = 0 := by
  induction ts with
  | nil => simp
  | cons t ts ih => simp [ih]

theorem total_le_total {w v : τ → Nat} {ts : List τ} (h : ∀ t ∈ ts, w t ≤ v t) :
    total w ts ≤ total v ts := by
  induction ts with
  | nil => exact Nat.le_refl 0
  | cons t ts ih =>
    have hrest := ih fun u hu => h u (List.mem_cons_of_mem t hu)
    have hhead := h t List.mem_cons_self
    simp only [total_cons]
    omega

theorem total_congr {w v : τ → Nat} {ts : List τ} (h : ∀ t ∈ ts, w t = v t) :
    total w ts = total v ts := by
  apply Nat.le_antisymm
  · exact total_le_total fun t ht => Nat.le_of_eq (h t ht)
  · exact total_le_total fun t ht => Nat.le_of_eq (h t ht).symm

/-- A thread counts at most as much as all of them together. -/
theorem weight_le_total (w : τ → Nat) {ts : List τ} {t : τ} (h : t ∈ ts) : w t ≤ total w ts := by
  induction ts with
  | nil => simp at h
  | cons u ts ih =>
    rcases List.mem_cons.mp h with rfl | hmem
    · simp
    · have hrest := ih hmem
      simp only [total_cons]
      omega

/-! ## Events of a run -/

/-- What the steps of a run make happen, in order: `event s t` is what thread `t` does to the
shared state `s` at its next step. -/
def poolEvents {ε : Type*} (step : τ → σ → Option (σ × τ)) (start : τ → σ → Option σ)
    (event : σ → τ → Option ε) : Pool σ τ → List (PoolMove τ) → List ε
  | _, [] => []
  | p, .start t :: moves =>
    match poolMove step start p (.start t) with
    | none => []
    | some (q, _) => poolEvents step start event q moves
  | p, .step i :: moves =>
    match poolMove step start p (.step i) with
    | none => []
    | some (q, _) =>
      ((p.threads[i]?.bind (event p.shared)).toList) ++ poolEvents step start event q moves

/-- What a move makes happen. -/
def moveEvent {ε : Type*} (event : σ → τ → Option ε) (p : Pool σ τ) : PoolMove τ → Option ε
  | .start _ => none
  | .step i => p.threads[i]?.bind (event p.shared)

theorem poolEvents_eq {ε : Type*} (event : σ → τ → Option ε) (p : Pool σ τ)
    (moves : List (PoolMove τ)) : poolEvents step start event p moves =
      runEvents (poolMove step start) (moveEvent event) p moves := by
  induction moves generalizing p with
  | nil => rfl
  | cons move moves ih =>
    cases move with
    | start t =>
      cases hmove : poolMove step start p (.start t) with
      | none => simp [poolEvents, runEvents, hmove]
      | some r => simp [poolEvents, runEvents, hmove, ih, moveEvent]
    | step i =>
      cases hmove : poolMove step start p (.step i) with
      | none => simp [poolEvents, runEvents, hmove]
      | some r => simp [poolEvents, runEvents, hmove, ih, moveEvent]

theorem poolEvents_append {ε : Type*} (event : σ → τ → Option ε) {p q : Pool σ τ}
    {moves : List (PoolMove τ)} {os : List Unit}
    (hrun : run (poolMove step start) p moves = some (q, os)) (moves' : List (PoolMove τ)) :
    poolEvents step start event p (moves ++ moves') =
      poolEvents step start event p moves ++ poolEvents step start event q moves' := by
  rw [poolEvents_eq, poolEvents_eq, poolEvents_eq, runEvents_append _ _ hrun]

/-- What the threads give off at their events is what the events of the run do. -/
theorem poolEvents_emitted {β ε δ : Type*} (event : σ → τ → Option ε) (view : σ → β)
    (next : β → ε → β) (emit : β → ε → Option δ)
    (hstep : ∀ t s s' t', step t s = some (s', t') →
      view s' = (event s t).toList.foldl next (view s))
    (hstart : ∀ t s s', start t s = some s' → view s' = view s)
    {p q : Pool σ τ} {moves : List (PoolMove τ)} {os : List Unit}
    (hrun : run (poolMove step start) p moves = some (q, os)) :
    poolEvents step start (fun s t => (event s t).bind (emit (view s))) p moves =
      emitted next emit (view p.shared) (poolEvents step start event p moves) := by
  have hview : ∀ (p : Pool σ τ) move q o, poolMove step start p move = some (q, o) →
      view q.shared = (moveEvent event p move).toList.foldl next (view p.shared) := by
    rintro p (t | i) q ⟨⟩ hmove
    · obtain ⟨s, hs, rfl⟩ := poolMove_start_eq_some.mp hmove
      exact hstart t _ s hs
    · obtain ⟨t, s, t', ht, hs, rfl⟩ := poolMove_step_eq_some.mp hmove
      rw [moveEvent, ht]
      exact hstep t _ s t' hs
  have hevent : moveEvent (fun s t => (event s t).bind (emit (view s))) =
      fun (p : Pool σ τ) move => (moveEvent event p move).bind (emit (view p.shared)) := by
    funext p move
    cases move with
    | start t => rfl
    | step i => cases ht : p.threads[i]? <;> simp [moveEvent, ht]
  rw [poolEvents_eq, poolEvents_eq, hevent]
  exact runEvents_emitted _ (moveEvent event) (fun p => view p.shared) next emit hview hrun

/-- Some run leads from `p` to `q` and makes `es` happen. -/
def Reaches {ε : Type*} (step : τ → σ → Option (σ × τ)) (start : τ → σ → Option σ)
    (event : σ → τ → Option ε) (p : Pool σ τ) (es : List ε) (q : Pool σ τ) : Prop :=
  ∃ moves os, run (poolMove step start) p moves = some (q, os) ∧
    poolEvents step start event p moves = es

theorem reaches_iff {ε : Type*} {event : σ → τ → Option ε} {p q : Pool σ τ} {es : List ε} :
    Reaches step start event p es q ↔
      Leads (poolMove step start) (moveEvent event) p es q := by
  simp only [Reaches, Leads, poolEvents_eq]

theorem Reaches.refl {ε : Type*} (event : σ → τ → Option ε) (p : Pool σ τ) :
    Reaches step start event p [] p :=
  reaches_iff.mpr (.refl _ p)

theorem Reaches.trans {ε : Type*} {event : σ → τ → Option ε} {p q r : Pool σ τ} {es es' : List ε}
    (h : Reaches step start event p es q) (h' : Reaches step start event q es' r) :
    Reaches step start event p (es ++ es') r :=
  reaches_iff.mpr ((reaches_iff.mp h).trans (reaches_iff.mp h'))

theorem Reaches.of_step {ε : Type*} (event : σ → τ → Option ε) {p : Pool σ τ} {i : Nat} {t t' : τ}
    {s : σ} (ht : p.threads[i]? = some t) (h : step t p.shared = some (s, t')) :
    Reaches step start event p (event p.shared t).toList ⟨s, p.threads.set i t'⟩ := by
  have hmove : poolMove step start p (.step i) = some (⟨s, p.threads.set i t'⟩, ()) :=
    poolMove_step_eq_some.mpr ⟨t, s, t', ht, h, rfl⟩
  have hevent : moveEvent event p (.step i) = event p.shared t := by
    simp [moveEvent, ht]
  rw [reaches_iff, ← hevent]
  exact Leads.of_step (moveEvent event) hmove

/-! ## Runs that keep their events -/

/-- The machine that keeps what happened beside the shared state. -/
def loggedStep {ε : Type*} (step : τ → σ → Option (σ × τ)) (event : σ → τ → Option ε) :
    τ → σ × List ε → Option ((σ × List ε) × τ) :=
  fun t (s, es) => (step t s).map fun (s', t') => ((s', es ++ (event s t).toList), t')

def loggedStart {ε : Type*} (start : τ → σ → Option σ) : τ → σ × List ε → Option (σ × List ε) :=
  fun t (s, es) => (start t s).map (·, es)

def Pool.withLog {ε : Type*} (p : Pool σ τ) (es : List ε) : Pool (σ × List ε) τ :=
  ⟨(p.shared, es), p.threads⟩

theorem loggedStep_eq_some {ε : Type*} {event : σ → τ → Option ε} {t t' : τ} {s s' : σ}
    {es es' : List ε} : loggedStep step event t (s, es) = some ((s', es'), t') ↔
      step t s = some (s', t') ∧ es' = es ++ (event s t).toList := by
  simp only [loggedStep, Option.map_eq_some_iff, Prod.mk.injEq, Prod.exists]
  constructor
  · rintro ⟨s₁, t₁, hstep, ⟨rfl, rfl⟩, rfl⟩
    exact ⟨hstep, rfl⟩
  · rintro ⟨hstep, rfl⟩
    exact ⟨s', t', hstep, ⟨rfl, rfl⟩, rfl⟩

theorem loggedStart_eq_some {ε : Type*} {t : τ} {s s' : σ} {es es' : List ε} :
    loggedStart start t (s, es) = some (s', es') ↔ start t s = some s' ∧ es' = es := by
  simp only [loggedStart, Option.map_eq_some_iff, Prod.mk.injEq]
  constructor
  · rintro ⟨s₁, hstart, rfl, rfl⟩
    exact ⟨hstart, rfl⟩
  · rintro ⟨hstart, rfl⟩
    exact ⟨s', hstart, rfl, rfl⟩

/-- A run is also one of the machine that keeps its events. -/
theorem run_withLog {ε : Type*} (event : σ → τ → Option ε) {p q : Pool σ τ}
    {moves : List (PoolMove τ)} {os : List Unit}
    (hrun : run (poolMove step start) p moves = some (q, os)) (es : List ε) :
    run (poolMove (loggedStep step event) (loggedStart start)) (p.withLog es) moves =
      some (q.withLog (es ++ poolEvents step start event p moves), os) := by
  induction moves generalizing p es os with
  | nil =>
    obtain ⟨rfl, rfl⟩ : p = q ∧ [] = os := by simpa using hrun
    simp [poolEvents]
  | cons move moves ih =>
    obtain ⟨p₁, ⟨⟩, os', hmove, htail, rfl⟩ := run_cons_eq_some.mp hrun
    cases move with
    | start t =>
      obtain ⟨s, hs, rfl⟩ := poolMove_start_eq_some.mp hmove
      have hlogged : poolMove (loggedStep step event) (loggedStart start) (p.withLog es)
          (.start t) = some (Pool.withLog ⟨s, p.threads ++ [t]⟩ es, ()) :=
        poolMove_start_eq_some.mpr ⟨(s, es), loggedStart_eq_some.mpr ⟨hs, rfl⟩, rfl⟩
      rw [run_cons_of_some _ hlogged, ih htail]
      simp [poolEvents, hmove]
    | step i =>
      obtain ⟨t, s, t', ht, hst, rfl⟩ := poolMove_step_eq_some.mp hmove
      have hlogged : poolMove (loggedStep step event) (loggedStart start) (p.withLog es)
          (.step i) = some (Pool.withLog ⟨s, p.threads.set i t'⟩
            (es ++ (event p.shared t).toList), ()) :=
        poolMove_step_eq_some.mpr
          ⟨t, _, t', ht, loggedStep_eq_some.mpr ⟨hst, rfl⟩, rfl⟩
      rw [run_cons_of_some _ hlogged, ih htail]
      simp [poolEvents, hmove, ht]

/-- Invariant rule for pools with their events: `Inv q es` speaks of the pool and of what
happened so far. -/
theorem run_pool_events {ε : Type*} (event : σ → τ → Option ε) (Inv : Pool σ τ → List ε → Prop)
    (hstep : ∀ (p : Pool σ τ) es (i : Nat) t s' t', Inv p es → p.threads[i]? = some t →
      step t p.shared = some (s', t') →
      Inv ⟨s', p.threads.set i t'⟩ (es ++ (event p.shared t).toList))
    (hstart : ∀ (p : Pool σ τ) es t s', Inv p es → start t p.shared = some s' →
      Inv ⟨s', p.threads ++ [t]⟩ es)
    {p q : Pool σ τ} {moves : List (PoolMove τ)} {os : List Unit} (hp : Inv p [])
    (hrun : run (poolMove step start) p moves = some (q, os)) :
    Inv q (poolEvents step start event p moves) := by
  let InvLog : Pool (σ × List ε) τ → Prop := fun p => Inv ⟨p.shared.1, p.threads⟩ p.shared.2
  refine run_pool_inv InvLog ?_ ?_ hp (along_true _ _ _) (run_withLog event hrun [])
  · intro p i t s' t' hinv _ ht hst
    obtain ⟨hst, hes⟩ := loggedStep_eq_some.mp hst
    have hnext := hstep ⟨p.shared.1, p.threads⟩ p.shared.2 i t s'.1 t' hinv ht hst
    rw [← hes] at hnext
    exact hnext
  · intro p t s' hinv hst
    obtain ⟨hst, hes⟩ := loggedStart_eq_some.mp hst
    have hnext := hstart ⟨p.shared.1, p.threads⟩ p.shared.2 t s'.1 hinv hst
    rw [← hes] at hnext
    exact hnext

/-! ## The events of one thread -/

/-- What thread `i` makes happen at a move. -/
def ownEvent {ε : Type*} (event : σ → τ → Option ε) (i : Nat) (p : Pool σ τ) :
    PoolMove τ → Option ε
  | .start _ => none
  | .step j => if j = i then p.threads[j]?.bind (event p.shared) else none

/-- A step of the thread is its next one, and every other move leaves it where it is. -/
theorem poolMove_own {ε : Type*} (event : σ → τ → Option ε) {p q : Pool σ τ} {move : PoolMove τ}
    {i : Nat} {t : τ} (ht : p.threads[i]? = some t)
    (hmove : poolMove step start p move = some (q, ())) :
    (q.threads[i]? = some t ∧ ownEvent event i p move = none) ∨
      ∃ t', step t p.shared = some (q.shared, t') ∧ q.threads[i]? = some t' ∧
        ownEvent event i p move = event p.shared t := by
  have hlt : i < p.threads.length := (List.getElem?_eq_some_iff.mp ht).1
  cases move with
  | start u =>
    obtain ⟨s, -, rfl⟩ := poolMove_start_eq_some.mp hmove
    left
    rw [List.getElem?_append_left hlt]
    exact ⟨ht, rfl⟩
  | step j =>
    obtain ⟨u, s, u', hu, hstep, rfl⟩ := poolMove_step_eq_some.mp hmove
    by_cases hij : j = i
    · subst hij
      obtain rfl := Option.some.inj (ht.symm.trans hu)
      exact .inr ⟨u', hstep, by simp [hlt], by simp [ownEvent, ht]⟩
    · left
      rw [List.getElem?_set_ne hij]
      exact ⟨ht, if_neg hij⟩

/-- Rule for one thread: what each of its steps keeps, of its place in the code and of what it
made happen so far, holds after the run. -/
theorem run_own_events {ε : Type*} (event : σ → τ → Option ε) {I : σ → Prop}
    {K : τ → List ε → Prop}
    (hkeep : ∀ (p q : Pool σ τ) move, I p.shared → poolMove step start p move = some (q, ()) →
      I q.shared)
    (hown : ∀ t s t' s' es, I s → K t es → step t s = some (s', t') →
      K t' (es ++ (event s t).toList))
    {p q : Pool σ τ} {moves : List (PoolMove τ)} {os : List Unit} {i : Nat} {t : τ}
    (ht : p.threads[i]? = some t) (hI : I p.shared) {es : List ε} (hK : K t es)
    (hrun : run (poolMove step start) p moves = some (q, os)) :
    ∃ t', q.threads[i]? = some t' ∧
      K t' (es ++ runEvents (poolMove step start) (ownEvent event i) p moves) := by
  induction moves generalizing p t es os with
  | nil =>
    obtain ⟨rfl, -⟩ := Prod.mk.inj (Option.some.inj hrun)
    refine ⟨t, ht, ?_⟩
    rw [runEvents, List.append_nil]
    exact hK
  | cons move moves ih =>
    obtain ⟨p₁, ⟨⟩, os', hmove, htail, -⟩ := run_cons_eq_some.mp hrun
    rw [runEvents_cons_of_some _ _ hmove, ← List.append_assoc]
    have hI₁ := hkeep p p₁ move hI hmove
    rcases poolMove_own event ht hmove with ⟨ht₁, hnone⟩ | ⟨t₁, hstep, ht₁, hevent⟩
    · rw [hnone, Option.toList_none, List.append_nil]
      exact ih ht₁ hI₁ hK htail
    · rw [hevent]
      exact ih ht₁ hI₁ (hown t _ t₁ _ es hI hK hstep) htail

/-- Thread `i` is at one of the places. -/
def Pool.At {β : Type*} (place : β → τ) (p : Pool σ τ) (i : Nat) : Prop :=
  ∃ b, p.threads[i]? = some (place b)

section Count

variable {β ε : Type*} (step : τ → σ → Option (σ × τ)) (start : τ → σ → Option σ)
  (event : σ → τ → Option ε) (place : β → τ)

/-- How many events thread `i` makes happen. -/
def ownEventCount (i : Nat) (p : Pool σ τ) (moves : List (PoolMove τ)) : Nat :=
  (runEvents (poolMove step start) (ownEvent event i) p moves).length

/-- Thread `i` can come to one of the places, and makes `n` events happen whenever it does. -/
def MakesUntil (p : Pool σ τ) (i n : Nat) : Prop :=
  (∃ moves q os, run (poolMove step start) p moves = some (q, os) ∧ q.At place i) ∧
    ∀ moves q os, run (poolMove step start) p moves = some (q, os) → q.At place i →
      ownEventCount step start event i p moves = n

variable {step start event place}

/-- A thread that comes to the places under a condition only, and always with `k` events. -/
theorem makesUntil_iff {p : Pool σ τ} {i k : Nat} {C : Prop}
    (hcan : C → ∃ moves q os, run (poolMove step start) p moves = some (q, os) ∧ q.At place i)
    (hall : ∀ {moves q os}, run (poolMove step start) p moves = some (q, os) → q.At place i →
      C ∧ ownEventCount step start event i p moves = k) (n : Nat) :
    MakesUntil step start event place p i n ↔ C ∧ n = k := by
  constructor
  · rintro ⟨⟨moves, q, os, hrun, hq⟩, hcount⟩
    obtain ⟨hc, hk⟩ := hall hrun hq
    exact ⟨hc, (hcount moves q os hrun hq).symm.trans hk⟩
  · rintro ⟨hc, rfl⟩
    exact ⟨hcan hc, fun moves q os hrun hq => (hall hrun hq).2⟩

end Count

/-! ## The lock -/

variable (Locked : σ → Prop) (Holds : τ → Prop)

/-- A thread takes the lock only when it is free, and gives it back only when it holds it. -/
structure LockStep (s : σ) (t : τ) (s' : σ) (t' : τ) : Prop where
  holds : Holds t' → Locked s' ∧ (Holds t ∨ ¬ Locked s)
  unlock : Locked s → ¬ Locked s' → Holds t

/-- At most one thread holds the lock, and the lock is taken while one does. -/
structure LockInv (p : Pool σ τ) : Prop where
  locked : ∀ (i : Nat) t, p.threads[i]? = some t → Holds t → Locked p.shared
  exclusive : ∀ (i j : Nat) t u, p.threads[i]? = some t → p.threads[j]? = some u →
    Holds t → Holds u → i = j

variable {Locked Holds}

theorem LockStep.keep {s s' : σ} {t t' : τ} (hlocked : Holds t → Locked s)
    (hs : Locked s' ↔ Locked s) (ht : Holds t' → Holds t) : LockStep Locked Holds s t s' t' :=
  ⟨fun h => ⟨hs.mpr (hlocked (ht h)), .inl (ht h)⟩, fun h h' => absurd (hs.mpr h) h'⟩

theorem LockStep.take {s s' : σ} {t t' : τ} (hs : ¬ Locked s) (hs' : Locked s') :
    LockStep Locked Holds s t s' t' :=
  ⟨fun _ => ⟨hs', .inr hs⟩, fun h => absurd h hs⟩

theorem LockStep.give {s s' : σ} {t t' : τ} (ht : Holds t) (ht' : ¬ Holds t') :
    LockStep Locked Holds s t s' t' :=
  ⟨fun h => absurd h ht', fun _ _ => ht⟩

/-- What a step does to the lock depends on the threads only through what they hold. -/
theorem LockStep.congr {υ : Type*} {Holds' : υ → Prop} {s s' : σ} {t t' : τ} {u u' : υ}
    (h : LockStep Locked Holds s t s' t') (ht : Holds' u ↔ Holds t) (ht' : Holds' u' ↔ Holds t') :
    LockStep Locked Holds' s u s' u' :=
  ⟨fun hu => (h.holds (ht'.mp hu)).imp id (Or.imp_left ht.mpr),
    fun hs hs' => ht.mpr (h.unlock hs hs')⟩

theorem LockInv.set {p : Pool σ τ} (h : LockInv Locked Holds p) {i : Nat} {t t' : τ} {s : σ}
    (ht : p.threads[i]? = some t) (hstep : LockStep Locked Holds p.shared t s t') :
    LockInv Locked Holds ⟨s, p.threads.set i t'⟩ := by
  -- another holder rules out both that `t` takes the lock and that it gives it back
  have hother : ∀ j u, j ≠ i → p.threads[j]? = some u → Holds u → Locked s ∧ ¬ Holds t' := by
    intro j u hne hu hholds
    have hlocked := h.locked j u hu hholds
    have hnot : ¬ Holds t := fun hholds' => hne (h.exclusive j i u t hu ht hholds hholds')
    refine ⟨by_contra fun hfree => hnot (hstep.unlock hlocked hfree), fun htaken => ?_⟩
    exact (hstep.holds htaken).2.elim hnot fun hfree => hfree hlocked
  constructor
  · intro j u hu hholds
    rcases getElem?_set_cases hu with ⟨-, rfl⟩ | ⟨hne, hu⟩
    · exact (hstep.holds hholds).1
    · exact (hother j u hne hu hholds).1
  · intro j k u v hu hv hholds hholds'
    rcases getElem?_set_cases hu with ⟨rfl, rfl⟩ | ⟨hne, hu'⟩ <;>
      rcases getElem?_set_cases hv with ⟨rfl, rfl⟩ | ⟨hne', hv'⟩
    · rfl
    · exact absurd hholds (hother k v hne' hv' hholds').2
    · exact absurd hholds' (hother j u hne hu' hholds).2
    · exact h.exclusive j k u v hu' hv' hholds hholds'

theorem LockInv.append {p : Pool σ τ} (h : LockInv Locked Holds p) {t : τ} {s : σ}
    (hnot : ¬ Holds t) (hkept : Locked p.shared → Locked s) :
    LockInv Locked Holds ⟨s, p.threads ++ [t]⟩ := by
  have hmem : ∀ (j : Nat) u, (p.threads ++ [t])[j]? = some u → Holds u →
      p.threads[j]? = some u := by
    intro j u hu hholds
    rcases getElem?_append_cases hu with rfl | hu
    · exact absurd hholds hnot
    · exact hu
  constructor
  · exact fun j u hu hholds => hkept (h.locked j u (hmem j u hu hholds) hholds)
  · exact fun j k u v hu hv hholds hholds' =>
      h.exclusive j k u v (hmem j u hu hholds) (hmem k v hv hholds') hholds hholds'

/-- At every state of a run the lock is held by at most one thread. -/
theorem along_lockInv
    (hlock : ∀ t s s' t', step t s = some (s', t') → (Holds t → Locked s) →
      LockStep Locked Holds s t s' t')
    (hstart : ∀ t s s', start t s = some s' → ¬ Holds t ∧ (Locked s → Locked s'))
    {p : Pool σ τ} (hp : LockInv Locked Holds p) (moves : List (PoolMove τ)) :
    Along (poolMove step start) (fun p _ => LockInv Locked Holds p) p moves := by
  refine Along.imp _ (fun _ _ hp _ => hp) ?_ hp (along_true _ p moves)
  rintro p (t | i) q ⟨⟩ hp - hmove
  · obtain ⟨s, hs, rfl⟩ := poolMove_start_eq_some.mp hmove
    exact hp.append (hstart t _ s hs).1 (hstart t _ s hs).2
  · obtain ⟨t, s, t', ht, hs, rfl⟩ := poolMove_step_eq_some.mp hmove
    exact hp.set ht (hlock t _ s t' hs (hp.locked i t ht))

/-! ## What the threads know -/

/-- The lock is held by at most one thread, and each thread knows `T` of the shared state. -/
structure PoolInv (Locked : σ → Prop) (Holds : τ → Prop) (T : τ → σ → Prop) (p : Pool σ τ) :
    Prop where
  lock : LockInv Locked Holds p
  knows : ∀ (i : Nat) t, p.threads[i]? = some t → T t p.shared

theorem poolInv_nil (T : τ → σ → Prop) (s : σ) : PoolInv Locked Holds T ⟨s, []⟩ := by
  refine ⟨⟨?_, ?_⟩, ?_⟩ <;> simp

/-- Invariant rule for pools: a thread's step keeps what the thread knows, what any other thread
knows, given that the two do not both hold the lock, and an invariant `G` of the shared state. -/
theorem run_pool_with {T : τ → σ → Prop} {G : σ → Prop} {Ok : Pool σ τ → PoolMove τ → Prop}
    (hlock : ∀ t s s' t', step t s = some (s', t') → (Holds t → Locked s) →
      LockStep Locked Holds s t s' t')
    (hshared : ∀ (p : Pool σ τ) (i : Nat) t s' t', p.threads[i]? = some t → Ok p (.step i) →
      step t p.shared = some (s', t') → G p.shared → T t p.shared → G s')
    (hown : ∀ (p : Pool σ τ) (i : Nat) t s' t', p.threads[i]? = some t → Ok p (.step i) →
      step t p.shared = some (s', t') → (Holds t → Locked p.shared) → G p.shared →
      T t p.shared → T t' s')
    (hother : ∀ (p : Pool σ τ) (i j : Nat) t u s' t', p.threads[i]? = some t →
      p.threads[j]? = some u → Ok p (.step i) → step t p.shared = some (s', t') →
      ¬ (Holds t ∧ Holds u) → T u p.shared → T u s')
    (hstart : ∀ t s s', start t s = some s' →
      ¬ Holds t ∧ (Locked s → Locked s') ∧ T t s' ∧ (G s → G s') ∧ ∀ u, T u s → T u s')
    {p q : Pool σ τ} {moves : List (PoolMove τ)} {os : List Unit}
    (hp : PoolInv Locked Holds T p) (hG : G p.shared) (hok : Along (poolMove step start) Ok p moves)
    (hrun : run (poolMove step start) p moves = some (q, os)) :
    PoolInv Locked Holds T q ∧ G q.shared := by
  let Inv : Pool σ τ → Prop := fun p => PoolInv Locked Holds T p ∧ G p.shared
  suffices hkept : ∀ p move q o, Inv p → Ok p move → poolMove step start p move = some (q, o) →
      Inv q from run_along (poolMove step start) hkept (⟨hp, hG⟩ : Inv p) hok hrun
  rintro p move q _ ⟨hp, hG⟩ hok hmove
  cases move with
  | start t =>
    obtain ⟨s, hs, rfl⟩ := poolMove_start_eq_some.mp hmove
    obtain ⟨hnot, hkept, hT, hG', hTs⟩ := hstart t p.shared s hs
    refine ⟨⟨hp.lock.append hnot hkept, fun j u hu => ?_⟩, hG' hG⟩
    rcases getElem?_append_cases hu with rfl | hu
    · exact hT
    · exact hTs u (hp.knows j u hu)
  | step i =>
    obtain ⟨t, s, t', ht, hst, rfl⟩ := poolMove_step_eq_some.mp hmove
    have hlocked := hp.lock.locked i t ht
    refine ⟨⟨hp.lock.set ht (hlock t p.shared s t' hst hlocked), fun j u hu => ?_⟩,
      hshared p i t s t' ht hok hst hG (hp.knows i t ht)⟩
    rcases getElem?_set_cases hu with ⟨rfl, rfl⟩ | ⟨hne, hu⟩
    · exact hown p j t s u ht hok hst hlocked hG (hp.knows j t ht)
    · refine hother p i j t u s t' ht hu hok hst ?_ (hp.knows j u hu)
      exact fun hboth => hne (hp.lock.exclusive j i u t hu ht hboth.2 hboth.1)

/-- Invariant rule for pools: a thread's step keeps what the thread knows, and what any other
thread knows, given that the two do not both hold the lock. -/
theorem run_pool {T : τ → σ → Prop} {Ok : Pool σ τ → PoolMove τ → Prop}
    (hlock : ∀ t s s' t', step t s = some (s', t') → (Holds t → Locked s) →
      LockStep Locked Holds s t s' t')
    (hown : ∀ (p : Pool σ τ) (i : Nat) t s' t', p.threads[i]? = some t → Ok p (.step i) →
      step t p.shared = some (s', t') → (Holds t → Locked p.shared) → T t p.shared → T t' s')
    (hother : ∀ (p : Pool σ τ) (i j : Nat) t u s' t', p.threads[i]? = some t →
      p.threads[j]? = some u → Ok p (.step i) → step t p.shared = some (s', t') →
      ¬ (Holds t ∧ Holds u) → T u p.shared → T u s')
    (hstart : ∀ t s s', start t s = some s' →
      ¬ Holds t ∧ (Locked s → Locked s') ∧ T t s' ∧ ∀ u, T u s → T u s')
    {p q : Pool σ τ} {moves : List (PoolMove τ)} {os : List Unit}
    (hp : PoolInv Locked Holds T p) (hok : Along (poolMove step start) Ok p moves)
    (hrun : run (poolMove step start) p moves = some (q, os)) : PoolInv Locked Holds T q := by
  refine (run_pool_with (G := fun _ => True) hlock ?_ ?_ hother ?_ hp trivial hok hrun).1
  · exact fun _ _ _ _ _ _ _ _ _ _ => trivial
  · exact fun p i t s' t' ht hok hst hlocked _ => hown p i t s' t' ht hok hst hlocked
  · intro t s s' hst
    obtain ⟨hnot, hkept, hT, hTs⟩ := hstart t s s' hst
    exact ⟨hnot, hkept, hT, id, hTs⟩

end Pool

end KernelDrivers.Lib
