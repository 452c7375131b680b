import Mathlib.Data.List.Basic
import Mathlib.Data.List.Induction
import Mathlib.Logic.Function.Basic

/-!
# Runs of partial machines

A machine answers each input with an output and a next state, or with `none` where the
program's behaviour is undefined. `run` feeds it a list of inputs. Two rules carry the proofs
about whole runs: a machine whose steps are matched by a total machine is defined on every run,
and an invariant kept by the steps that satisfy a side condition is kept along a run of them.
-/

namespace KernelDrivers.Lib

variable {σ τ ι ο : Type*}

section Run

variable (step : σ → ι → Option (σ × ο))

/-- The last state and the outputs, one for each input. -/
def run : σ → List ι → Option (σ × List ο)
  | s, [] => some (s, [])
  | s, i :: is => (step s i).bind fun (s', o) =>
      (run s' is).map fun (t, os) => (t, o :: os)

@[simp] theorem run_nil (s : σ) : run step s [] = some (s, []) := rfl

theorem run_cons_of_some {s s' : σ} {i : ι} {o : ο} (h : step s i = some (s', o))
    (is : List ι) :
    run step s (i :: is) = (run step s' is).map fun (t, os) => (t, o :: os) := by
  simp [run, h]

variable {step} in
theorem run_cons_eq_some {s t : σ} {i : ι} {is : List ι} {os : List ο} :
    run step s (i :: is) = some (t, os) ↔
      ∃ s' o os', step s i = some (s', o) ∧ run step s' is = some (t, os') ∧ os = o :: os' := by
  cases h : step s i with
  | none => simp [run, h]
  | some r =>
    obtain ⟨s', o⟩ := r
    rw [run_cons_of_some step h, Option.map_eq_some_iff]
    constructor
    · rintro ⟨⟨u, os'⟩, hu, he⟩
      obtain ⟨rfl, rfl⟩ := Prod.mk.inj he
      exact ⟨s', o, os', rfl, hu, rfl⟩
    · rintro ⟨s₁, o₁, os', hs, hu, rfl⟩
      obtain ⟨rfl, rfl⟩ : s' = s₁ ∧ o = o₁ := by simpa using hs
      exact ⟨(t, os'), hu, rfl⟩

/-- A run over a list that continues another one starts where the first one ends. -/
theorem run_append (s : σ) (is js : List ι) :
    run step s (is ++ js) = (run step s is).bind fun (t, os) =>
      (run step t js).map fun (u, os') => (u, os ++ os') := by
  induction is generalizing s with
  | nil => cases h : run step s js <;> simp [h]
  | cons i is ih =>
    cases h : step s i with
    | none => simp [run, h]
    | some r =>
      obtain ⟨s', o⟩ := r
      rw [List.cons_append, run_cons_of_some step h, run_cons_of_some step h, ih s']
      cases run step s' is with
      | none => rfl
      | some r => cases hj : run step r.1 js <;> simp [hj]

theorem run_append_of_some {s t : σ} {is : List ι} {os : List ο}
    (h : run step s is = some (t, os)) (js : List ι) :
    run step s (is ++ js) = (run step t js).map fun (u, os') => (u, os ++ os') := by
  rw [run_append, h]
  rfl

/-- Two runs, one after the other. -/
theorem run_trans {s t u : σ} {is js : List ι} {os os' : List ο}
    (h : run step s is = some (t, os)) (h' : run step t js = some (u, os')) :
    run step s (is ++ js) = some (u, os ++ os') := by
  rw [run_append_of_some step h, h']
  rfl

theorem run_singleton {s t : σ} {i : ι} {o : ο} (h : step s i = some (t, o)) :
    run step s [i] = some (t, [o]) := by
  simp [run, h]

variable {step} in
/-- History rule: `Inv t is` speaks of the state and of the inputs that led to it. -/
theorem run_history {Inv : σ → List ι → Prop} {s : σ} (hnil : Inv s [])
    (hsnoc : ∀ is t os i u o, run step s is = some (t, os) → Inv t is →
      step t i = some (u, o) → Inv u (is ++ [i]))
    {t : σ} {is : List ι} {os : List ο} (hrun : run step s is = some (t, os)) : Inv t is := by
  induction is using List.reverseRecOn generalizing t os with
  | nil =>
    obtain ⟨rfl, -⟩ := Prod.mk.inj (Option.some.inj hrun)
    exact hnil
  | append_singleton is i ih =>
    rw [run_append] at hrun
    obtain ⟨⟨u, os₁⟩, hbefore, hrun⟩ := Option.bind_eq_some_iff.mp hrun
    obtain ⟨⟨v, os₂⟩, hlast, hrun⟩ := Option.map_eq_some_iff.mp hrun
    obtain ⟨rfl, -⟩ := Prod.mk.inj hrun
    obtain ⟨w, o, os₃, hstep, hnil', -⟩ := run_cons_eq_some.mp hlast
    obtain ⟨rfl, -⟩ := Prod.mk.inj (Option.some.inj hnil')
    exact hsnoc is u os₁ i w o hbefore (ih hbefore) hstep

/-- Simulation rule: a machine matched step by step by `abstract` is defined on every run
and ends in a state related to the abstract one. -/
theorem run_simulation {R : σ → τ → Prop} {abstract : τ → ι → τ}
    (hstep : ∀ s a i, R s a → ∃ s' o, step s i = some (s', o) ∧ R s' (abstract a i))
    {s : σ} {a : τ} (h : R s a) (is : List ι) :
    ∃ t os, run step s is = some (t, os) ∧ R t (is.foldl abstract a) := by
  induction is generalizing s a with
  | nil => exact ⟨s, [], rfl, h⟩
  | cons i is ih =>
    obtain ⟨s', o, hi, h'⟩ := hstep s a i h
    obtain ⟨t, os, ht, hR⟩ := ih h'
    exact ⟨t, o :: os, by simp [run_cons_of_some step hi, ht], hR⟩

/-- A machine is defined on every run when its steps are defined wherever the invariant holds and
keep it. -/
theorem run_total {Inv : σ → Prop}
    (hstep : ∀ s i, Inv s → ∃ s' o, step s i = some (s', o) ∧ Inv s') {s : σ} (hs : Inv s)
    (is : List ι) : ∃ t os, run step s is = some (t, os) ∧ Inv t :=
  @run_simulation σ Unit ι ο step (fun s _ => Inv s) (fun a _ => a) (fun s _ i => hstep s i) s () hs
    is

/-- What the inputs of a run make happen, in order: `event s i` is what input `i` does in
state `s`. -/
def runEvents {ε : Type*} (event : σ → ι → Option ε) : σ → List ι → List ε
  | _, [] => []
  | s, i :: is =>
    match step s i with
    | none => []
    | some (s', _) => (event s i).toList ++ runEvents event s' is

theorem runEvents_cons_of_some {ε : Type*} (event : σ → ι → Option ε) {s s' : σ} {i : ι} {o : ο}
    (h : step s i = some (s', o)) (is : List ι) :
    runEvents step event s (i :: is) = (event s i).toList ++ runEvents step event s' is := by
  simp [runEvents, h]

theorem runEvents_append {ε : Type*} (event : σ → ι → Option ε) {s t : σ} {is : List ι}
    {os : List ο} (hrun : run step s is = some (t, os)) (js : List ι) :
    runEvents step event s (is ++ js) = runEvents step event s is ++ runEvents step event t js := by
  induction is generalizing s os with
  | nil =>
    obtain ⟨rfl, -⟩ : s = t ∧ [] = os := by simpa using hrun
    rfl
  | cons i is ih =>
    obtain ⟨s', o, os', hi, htail, -⟩ := run_cons_eq_some.mp hrun
    rw [List.cons_append, runEvents_cons_of_some step event hi,
      runEvents_cons_of_some step event hi, ih htail, List.append_assoc]

theorem runEvents_snoc {ε : Type*} (event : σ → ι → Option ε) {s t u : σ} {is : List ι}
    {os : List ο} (hrun : run step s is = some (t, os)) {i : ι} {o : ο}
    (h : step t i = some (u, o)) :
    runEvents step event s (is ++ [i]) = runEvents step event s is ++ (event t i).toList := by
  rw [runEvents_append step event hrun, runEvents_cons_of_some step event h]
  simp [runEvents]

theorem runEvents_bind {ε δ : Type*} (event : σ → ι → Option ε) (f : ε → Option δ) (s : σ)
    (is : List ι) : runEvents step (fun s i => (event s i).bind f) s is =
      (runEvents step event s is).filterMap f := by
  induction is generalizing s with
  | nil => rfl
  | cons i is ih =>
    cases hi : step s i with
    | none => simp [runEvents, hi]
    | some r =>
      obtain ⟨s', o⟩ := r
      rw [runEvents_cons_of_some step _ hi, runEvents_cons_of_some step _ hi, ih,
        List.filterMap_append]
      cases event s i with
      | none => rfl
      | some e => cases he : f e <;> simp [he]

/-- What the events give off, each of them in the view that those before it leave. -/
def emitted {β ε δ : Type*} (next : β → ε → β) (emit : β → ε → Option δ) : β → List ε → List δ
  | _, [] => []
  | b, e :: es => (emit b e).toList ++ emitted next emit (next b e) es

theorem emitted_append {β ε δ : Type*} (next : β → ε → β) (emit : β → ε → Option δ) (b : β)
    (es es' : List ε) : emitted next emit b (es ++ es') =
      emitted next emit b es ++ emitted next emit (es.foldl next b) es' := by
  induction es generalizing b with
  | nil => rfl
  | cons e es ih => rw [List.cons_append, emitted, emitted, ih, List.append_assoc, List.foldl_cons]

/-- Where the view of a state changes by the events only, what a run gives off is what its events
do. -/
theorem runEvents_emitted {β ε δ : Type*} (event : σ → ι → Option ε) (view : σ → β)
    (next : β → ε → β) (emit : β → ε → Option δ)
    (hview : ∀ s i s' o, step s i = some (s', o) →
      view s' = (event s i).toList.foldl next (view s))
    {s t : σ} {is : List ι} {os : List ο} (hrun : run step s is = some (t, os)) :
    runEvents step (fun s i => (event s i).bind (emit (view s))) s is =
      emitted next emit (view s) (runEvents step event s is) := by
  induction is generalizing s os with
  | nil => rfl
  | cons i is ih =>
    obtain ⟨s', o, os', hi, htail, -⟩ := run_cons_eq_some.mp hrun
    rw [runEvents_cons_of_some step _ hi, runEvents_cons_of_some step _ hi, ih htail,
      hview s i s' o hi, emitted_append]
    cases event s i <;> simp [emitted]

/-- Some run leads from `s` to `t` and makes `es` happen. -/
def Leads {ε : Type*} (event : σ → ι → Option ε) (s : σ) (es : List ε) (t : σ) : Prop :=
  ∃ is os, run step s is = some (t, os) ∧ runEvents step event s is = es

variable {step}

theorem Leads.refl {ε : Type*} (event : σ → ι → Option ε) (s : σ) : Leads step event s [] s :=
  ⟨[], [], rfl, rfl⟩

theorem Leads.trans {ε : Type*} {event : σ → ι → Option ε} {s t u : σ} {es es' : List ε}
    (h : Leads step event s es t) (h' : Leads step event t es' u) :
    Leads step event s (es ++ es') u := by
  obtain ⟨is, os, hrun, hevents⟩ := h
  obtain ⟨js, os', hrun', hevents'⟩ := h'
  refine ⟨is ++ js, os ++ os', run_trans step hrun hrun', ?_⟩
  rw [runEvents_append step event hrun, hevents, hevents']

theorem Leads.of_step {ε : Type*} (event : σ → ι → Option ε) {s t : σ} {i : ι} {o : ο}
    (h : step s i = some (t, o)) : Leads step event s (event s i).toList t :=
  ⟨[i], [o], run_singleton step h, by simp [runEvents, h]⟩

variable (step)

/-! ## Runs under a side condition -/

/-- Every step a run takes satisfies `Ok` in the state it starts from. -/
def Along (Ok : σ → ι → Prop) : σ → List ι → Prop
  | _, [] => True
  | s, i :: is => Ok s i ∧ ∀ s' o, step s i = some (s', o) → Along Ok s' is

instance decidableAlong {Ok : σ → ι → Prop} [∀ s i, Decidable (Ok s i)] :
    ∀ s is, Decidable (Along step Ok s is)
  | _, [] => isTrue trivial
  | s, i :: is =>
    match h : step s i with
    | none => decidable_of_iff (Ok s i) (by simp [Along, h])
    | some (s', _) =>
      have : Decidable (Along step Ok s' is) := decidableAlong s' is
      decidable_of_iff (Ok s i ∧ Along step Ok s' is) (by simp [Along, h])

theorem Along.of_append {Ok : σ → ι → Prop} {s t : σ} {is js : List ι} {os : List ο}
    (h : Along step Ok s (is ++ js)) (hrun : run step s is = some (t, os)) :
    Along step Ok t js := by
  induction is generalizing s os with
  | nil =>
    have he : s = t ∧ [] = os := by simpa using hrun
    exact he.1 ▸ h
  | cons i is ih =>
    obtain ⟨s', o, os', hi, htail, -⟩ := run_cons_eq_some.mp hrun
    exact ih (h.2 s' o hi) htail

/-- Invariant rule: when every step that satisfies `Ok` keeps the invariant, so does every run
along which `Ok` holds. -/
theorem run_along {Ok : σ → ι → Prop} {Inv : σ → Prop}
    (hstep : ∀ s i s' o, Inv s → Ok s i → step s i = some (s', o) → Inv s')
    {s t : σ} {is : List ι} {os : List ο} (hs : Inv s) (hok : Along step Ok s is)
    (hrun : run step s is = some (t, os)) : Inv t := by
  induction is generalizing s os with
  | nil =>
    have he : s = t ∧ [] = os := by simpa using hrun
    exact he.1 ▸ hs
  | cons i is ih =>
    obtain ⟨s', o, os', hi, htail, -⟩ := run_cons_eq_some.mp hrun
    exact ih (hstep s i s' o hs hok.1 hi) (hok.2 s' o hi) htail

/-- Invariant rule for runs with their events: `Inv s es` speaks of the state and of what happened
so far. -/
theorem run_along_events {ε : Type*} (event : σ → ι → Option ε) {Ok : σ → ι → Prop}
    {Inv : σ → List ε → Prop}
    (hstep : ∀ s i s' o es, Inv s es → Ok s i → step s i = some (s', o) →
      Inv s' (es ++ (event s i).toList))
    {s t : σ} {is : List ι} {os : List ο} {es : List ε} (hs : Inv s es)
    (hok : Along step Ok s is) (hrun : run step s is = some (t, os)) :
    Inv t (es ++ runEvents step event s is) := by
  induction is generalizing s es os with
  | nil =>
    obtain ⟨rfl, -⟩ : s = t ∧ [] = os := by simpa using hrun
    rw [runEvents, List.append_nil]
    exact hs
  | cons i is ih =>
    obtain ⟨s', o, os', hi, htail, -⟩ := run_cons_eq_some.mp hrun
    rw [runEvents_cons_of_some step event hi, ← List.append_assoc]
    exact ih (hstep s i s' o es hs hok.1 hi) (hok.2 s' o hi) htail

/-- No side condition. -/
theorem along_true (s : σ) (is : List ι) : Along step (fun _ _ => True) s is := by
  induction is generalizing s with
  | nil => trivial
  | cons i is ih => exact ⟨trivial, fun t _ _ => ih t⟩

/-- A side condition follows from another one wherever the invariant holds, when the steps that
satisfy it keep the invariant. -/
theorem Along.imp {Ok Ok' : σ → ι → Prop} {Inv : σ → Prop}
    (himp : ∀ s i, Inv s → Ok s i → Ok' s i)
    (hstep : ∀ s i s' o, Inv s → Ok s i → step s i = some (s', o) → Inv s') {s : σ} (hs : Inv s)
    {is : List ι} (h : Along step Ok s is) : Along step Ok' s is := by
  induction is generalizing s with
  | nil => trivial
  | cons i is ih =>
    refine ⟨himp s i hs h.1, fun s' o hi => ?_⟩
    exact ih (hstep s i s' o hs h.1 hi) (h.2 s' o hi)

theorem along_of_forall {Ok : σ → ι → Prop} (s : σ) {is : List ι}
    (h : ∀ i ∈ is, ∀ s, Ok s i) : Along step Ok s is := by
  induction is generalizing s with
  | nil => trivial
  | cons i is ih =>
    exact ⟨h i (by simp) s, fun s' _ _ => ih s' fun j hj => h j (List.mem_cons_of_mem i hj)⟩

/-- Two side conditions that agree wherever the invariant holds hold along the same runs, when the
steps that satisfy them keep it. -/
theorem along_congr {Ok Ok' : σ → ι → Prop} {Inv : σ → Prop}
    (hiff : ∀ s i, Inv s → (Ok s i ↔ Ok' s i))
    (hstep : ∀ s i s' o, Inv s → Ok' s i → step s i = some (s', o) → Inv s') {s : σ} (hs : Inv s)
    (is : List ι) : Along step Ok s is ↔ Along step Ok' s is := by
  induction is generalizing s with
  | nil => exact Iff.rfl
  | cons i is ih =>
    refine (and_congr_left' (hiff s i hs)).trans (and_congr_right fun hok => ?_)
    refine forall_congr' fun s' => forall_congr' fun o => forall_congr' fun hi => ?_
    exact ih (hstep s i s' o hs hok hi)

/-- When the steps that satisfy `Ok` keep the invariant and every other step leaves a state
without the property, the property holds in every state of a run exactly when `Ok` holds along
the run. -/
theorem always_iff_along {Ok : σ → ι → Prop} {Inv P : σ → Prop} (hP : ∀ s, Inv s → P s)
    (hkeeps : ∀ s i s' o, Inv s → step s i = some (s', o) → Ok s i → Inv s')
    (hneeds : ∀ s i s' o, Inv s → step s i = some (s', o) → P s' → Ok s i)
    {s t : σ} {is : List ι} {os : List ο} (hs : Inv s) (hrun : run step s is = some (t, os)) :
    (∀ before u os', before <+: is → run step s before = some (u, os') → P u) ↔
      Along step Ok s is := by
  induction is generalizing s os with
  | nil =>
    refine iff_of_true (fun before u os' hpre hu => ?_) trivial
    obtain rfl := List.prefix_nil.mp hpre
    obtain ⟨rfl, -⟩ : s = u ∧ [] = os' := by simpa using hu
    exact hP s hs
  | cons i is ih =>
    obtain ⟨s₁, o, os₁, hi, htail, -⟩ := run_cons_eq_some.mp hrun
    constructor
    · intro h
      have hs₁ : P s₁ :=
        h [i] s₁ [o] (List.cons_prefix_cons.mpr ⟨rfl, List.nil_prefix⟩) (run_singleton step hi)
      have hok := hneeds s i s₁ o hs hi hs₁
      refine ⟨hok, fun s' o' hi' => ?_⟩
      obtain ⟨rfl, rfl⟩ : s₁ = s' ∧ o = o' := by simpa [hi] using hi'
      refine (ih (hkeeps s i s₁ o hs hi hok) htail).mp fun before u os' hpre hu => ?_
      exact h (i :: before) u (o :: os') (List.cons_prefix_cons.mpr ⟨rfl, hpre⟩)
        (run_cons_eq_some.mpr ⟨s₁, o, os', hi, hu, rfl⟩)
    · rintro ⟨hok, hrest⟩ before u os' hpre hu
      cases before with
      | nil =>
        obtain ⟨rfl, -⟩ : s = u ∧ [] = os' := by simpa using hu
        exact hP s hs
      | cons j before =>
        obtain ⟨rfl, hpre'⟩ := List.cons_prefix_cons.mp hpre
        obtain ⟨s', o', os'', hj, hu', -⟩ := run_cons_eq_some.mp hu
        obtain ⟨rfl, rfl⟩ : s₁ = s' ∧ o = o' := by simpa [hi] using hj
        exact (ih (hkeeps s j s₁ o hs hi hok) htail).mpr (hrest s₁ o hi) before u os'' hpre' hu'

end Run

end KernelDrivers.Lib
