import KernelDrivers.Hcsr04.Independence
import Mathlib.Algebra.Group.Nat.Even

/-!
# Pulses that are measured

The handler takes the edges in turn as rising and as falling, and nothing resets the turn when a
measurement starts. So a measurement samples the pulses of its echoes exactly when an even number
of edges was handled before it; otherwise it samples the gaps between them.
-/

namespace KernelDrivers.Hcsr04
open Lib

/-! ## Pulses -/

/-- A pulse of the echo line. -/
structure Pulse where
  rise : UInt64
  fall : UInt64

def Pulse.edges (pulse : Pulse) : List UInt64 := [pulse.rise, pulse.fall]

/-- In ticks. -/
def Pulse.width (pulse : Pulse) : Nat := pulse.fall.toNat - pulse.rise.toNat

/-- The time stamps do not decrease, and no pulse is wider than an echo from 400 cm. -/
structure WellTimed (pulses : List Pulse) : Prop where
  ordered : (pulses.flatMap Pulse.edges).Pairwise (· ≤ ·)
  widths : ∀ pulse ∈ pulses, pulse.width ≤ 400 * 23200

/-- What happens on the two lines of a device. -/
inductive LineEvent where
  | trigger
  | edge (irqTime : UInt64)
  deriving DecidableEq

/-- A trigger and its echo. -/
def Pulse.events (pulse : Pulse) : List LineEvent :=
  [.trigger, .edge pulse.rise, .edge pulse.fall]

/-- The triggers of measurement `i`, and every edge. -/
def lineEvent (i : Nat) (p : Pool Shared Thread) : PoolMove Thread → Option LineEvent
  | .start _ => none
  | .step j =>
    match p.threads[j]? with
    | some (.measure ⟨_, .triggerHigh _ _⟩) => if j = i then some .trigger else none
    | some (.irq ⟨irqTime, .edge⟩) => some (.edge irqTime)
    | _ => none

def lineEvents (env : KernelEnv) (i : Nat) :
    Pool Shared Thread → List (PoolMove Thread) → List LineEvent :=
  runEvents (deviceMove env) (lineEvent i)

/-! ## Samples -/

/-- The sample a thread adds at its next statement. -/
def sampleEvent (s : Shared) (t : Thread) : Option Int32 :=
  (edgeEvent s t).bind (sampleOf s.device.irqData)

def addedSamples (env : KernelEnv) : Pool Shared Thread → List (PoolMove Thread) → List Int32 :=
  poolEvents (threadStep env) threadStart sampleEvent

/-- Measurement `i` is about to collect its samples. -/
def Starts (p : Pool Shared Thread) (i : Nat) : Prop :=
  p.At (fun tsc => .measure ⟨tsc, .start⟩) i

/-- Measurement `i` has collected its samples. -/
def Collected (p : Pool Shared Thread) (i : Nat) : Prop :=
  p.At (fun tsc => .measure ⟨tsc, .average⟩) i

/-- Whenever each trigger of measurement `i` is answered by one pulse, the samples are the widths
of the pulses divided by 23200. -/
def MeasuresPulses (env : KernelEnv) (p : Pool Shared Thread) (i : Nat) : Prop :=
  ∀ moves q os pulses, run (deviceMove env) p moves = some (q, os) → Collected q i →
    lineEvents env i p moves = pulses.flatMap Pulse.events → WellTimed pulses →
    (addedSamples env p moves).map Int32.toInt =
      pulses.map fun pulse => ((pulse.width / 23200 : Nat) : Int)

/-! ## The samples of a run -/

theorem emitted_sampleOf (irqData : Hcsr04IrqData) (edges : List UInt64) :
    emitted takeEdge sampleOf irqData edges = irqData.accepted edges := by
  induction edges generalizing irqData with
  | nil => rfl
  | cons irqTime edges ih => rw [emitted, accepted_cons, ih]

/-- The samples added in a run are the echoes the device accepts of the edges handled in it. -/
theorem addedSamples_eq {env : KernelEnv} {p q : Pool Shared Thread}
    {moves : List (PoolMove Thread)} {os : List Unit}
    (hrun : run (deviceMove env) p moves = some (q, os)) :
    addedSamples env p moves = p.shared.device.irqData.accepted (handledEdges env p moves) := by
  rw [← emitted_sampleOf]
  refine poolEvents_emitted edgeEvent (fun s => s.device.irqData) takeEdge sampleOf
    (fun _ _ _ _ hstep => threadStep_irqData hstep) (fun _ _ _ hstart => ?_) hrun
  rw [threadStart_device hstart]

/-- The edge of an event. -/
def LineEvent.edge? : LineEvent → Option UInt64
  | .trigger => none
  | .edge irqTime => some irqTime

theorem edges_of_lineEvent (i : Nat) (p : Pool Shared Thread) (move : PoolMove Thread) :
    (lineEvent i p move).bind LineEvent.edge? = moveEvent edgeEvent p move := by
  cases move with
  | start t => rfl
  | step j =>
    simp only [lineEvent, moveEvent]
    cases p.threads[j]? with
    | none => rfl
    | some t =>
      cases t with
      | read | write => rfl
      | measure thread =>
        obtain ⟨tsc, pc⟩ := thread
        cases pc with
        | triggerHigh =>
          dsimp only
          split <;> rfl
        | _ => rfl
      | irq irq =>
        obtain ⟨irqTime, pc⟩ := irq
        cases pc <;> rfl

theorem handledEdges_eq (env : KernelEnv) (i : Nat) (p : Pool Shared Thread)
    (moves : List (PoolMove Thread)) : handledEdges env p moves =
      (lineEvents env i p moves).filterMap LineEvent.edge? := by
  rw [handledEdges, poolEvents_eq, lineEvents, ← runEvents_bind]
  congr 1
  funext p move
  exact (edges_of_lineEvent i p move).symm

theorem edges_of_events (pulses : List Pulse) :
    (pulses.flatMap Pulse.events).filterMap LineEvent.edge? = pulses.flatMap Pulse.edges := by
  induction pulses with
  | nil => rfl
  | cons pulse pulses ih =>
    rw [List.flatMap_cons, List.filterMap_append, ih]
    rfl

/-- The samples that answer the triggers. -/
theorem addedSamples_of_events {env : KernelEnv} {i : Nat} {p q : Pool Shared Thread}
    {moves : List (PoolMove Thread)} {os : List Unit} {pulses : List Pulse}
    (hrun : run (deviceMove env) p moves = some (q, os))
    (hevents : lineEvents env i p moves = pulses.flatMap Pulse.events) :
    addedSamples env p moves =
      p.shared.device.irqData.accepted (pulses.flatMap Pulse.edges) := by
  rw [addedSamples_eq hrun, handledEdges_eq env i, hevents, edges_of_events]

/-! ## Pulses in phase -/

theorem distanceOf_eq_ofNat {pulse : Pulse} (horder : pulse.rise ≤ pulse.fall) :
    distanceOf pulse.rise pulse.fall = Int32.ofNat (pulse.width / 23200) := by
  have hticks : ((pulse.fall - pulse.rise) / 23200).toNat = pulse.width / 23200 := by
    rw [UInt64.toNat_div, UInt64.toNat_sub_of_le _ _ horder]
    rfl
  rw [distanceOf, ← UInt32.toInt32_ofNat', ← hticks, UInt32.ofNat_uInt64ToNat]

theorem toInt_distanceOf {pulse : Pulse} (horder : pulse.rise ≤ pulse.fall)
    (hwidth : pulse.width ≤ 400 * 23200) :
    (distanceOf pulse.rise pulse.fall).toInt = (pulse.width / 23200 : Nat) := by
  rw [distanceOf_eq_ofNat horder]
  exact Int32.toInt_ofNat_of_lt (by omega)

/-- From a rising edge on, the distances are the widths. -/
theorem acceptedEchoes_pulses (risingEdgeTime : UInt64) {pulses : List Pulse}
    (h : WellTimed pulses) :
    (acceptedEchoes 0 risingEdgeTime (pulses.flatMap Pulse.edges)).map Int32.toInt =
      pulses.map fun pulse => ((pulse.width / 23200 : Nat) : Int) := by
  induction pulses generalizing risingEdgeTime with
  | nil => rfl
  | cons pulse pulses ih =>
    obtain ⟨horder, hrest⟩ : pulse.rise ≤ pulse.fall ∧ WellTimed pulses := by
      have hordered := h.ordered
      rw [List.flatMap_cons, List.pairwise_append] at hordered
      refine ⟨?_, hordered.2.1, fun pulse' hmem => h.widths pulse' (List.mem_cons_of_mem _ hmem)⟩
      simpa [Pulse.edges] using hordered.1
    have hdistance := toInt_distanceOf horder (h.widths pulse List.mem_cons_self)
    have hnear : ¬ distanceOf pulse.rise pulse.fall > 400 := by
      have hwidth := h.widths pulse List.mem_cons_self
      have hmax : Int32.toInt 400 = 400 := by decide
      rw [gt_iff_lt, Int32.lt_iff_toInt_lt, hdistance, hmax]
      omega
    have hedges : (pulse :: pulses).flatMap Pulse.edges =
        pulse.rise :: pulse.fall :: pulses.flatMap Pulse.edges := rfl
    rw [hedges, acceptedEchoes, if_pos rfl, acceptedEchoes, if_neg (by decide), if_pos rfl,
      List.map_append, ih pulse.rise hrest, List.map_cons, if_neg hnear, ← hdistance]
    rfl

/-! ## Pulses out of phase -/

/-- Two edges for each echo, but for one edge that came before. -/
theorem length_acceptedEchoes (irqEdge : Int32) (risingEdgeTime : UInt64) (edges : List UInt64) :
    2 * (acceptedEchoes irqEdge risingEdgeTime edges).length ≤
      edges.length + if irqEdge = 0 then 0 else 1 := by
  induction edges generalizing irqEdge risingEdgeTime with
  | nil => simp [acceptedEchoes]
  | cons irqTime edges ih =>
    by_cases hrising : irqEdge = 0
    · have hone := ih 1 irqTime
      rw [if_neg (by decide)] at hone
      rw [acceptedEchoes, if_pos hrising, if_pos hrising, List.length_cons]
      omega
    · by_cases hfalling : irqEdge = 1
      · have hzero := ih 0 risingEdgeTime
        rw [if_pos rfl] at hzero
        rw [acceptedEchoes, if_neg hrising, if_neg hrising, if_pos hfalling, List.length_append,
          List.length_cons]
        split <;> simp <;> omega
      · have hsame := ih irqEdge risingEdgeTime
        rw [if_neg hrising] at hsame
        rw [acceptedEchoes, if_neg hrising, if_neg hrising, if_neg hfalling, List.length_cons]
        omega

theorem length_edges (pulses : List Pulse) :
    (pulses.flatMap Pulse.edges).length = 2 * pulses.length := by
  induction pulses with
  | nil => rfl
  | cons pulse pulses ih =>
    rw [List.flatMap_cons, List.length_append, ih, List.length_cons]
    simp only [Pulse.edges, List.length_cons, List.length_nil]
    omega

/-- When the first edge is taken as falling, the first sample is not the first width, or a sample
is missing. -/
theorem accepted_slipped {irqData : Hcsr04IrqData} (hedge : irqData.irqEdge ≠ 0) {pulse : Pulse}
    (hdiffers : (distanceOf irqData.risingEdgeTime pulse.rise).toInt ≠
      ((pulse.width / 23200 : Nat) : Int)) (pulses : List Pulse) :
    (irqData.accepted ((pulse :: pulses).flatMap Pulse.edges)).map Int32.toInt ≠
      (pulse :: pulses).map fun pulse => ((pulse.width / 23200 : Nat) : Int) := by
  intro heq
  have hlength := congrArg List.length heq
  rw [List.length_map, List.length_map, List.length_cons] at hlength
  have hedges : (pulse :: pulses).flatMap Pulse.edges =
      pulse.rise :: pulse.fall :: pulses.flatMap Pulse.edges := rfl
  rw [hedges, Hcsr04IrqData.accepted] at heq hlength
  have hcount := length_edges pulses
  by_cases hfalling : irqData.irqEdge = 1
  · rw [acceptedEchoes, if_neg hedge, if_pos hfalling] at heq hlength
    by_cases hfar : distanceOf irqData.risingEdgeTime pulse.rise > 400
    · -- the first sample is rejected, and the edges left are too few
      have hrest := length_acceptedEchoes 0 irqData.risingEdgeTime
        (pulse.fall :: pulses.flatMap Pulse.edges)
      simp only [if_pos hfar, List.nil_append] at hlength
      rw [if_pos rfl, List.length_cons] at hrest
      omega
    · simp only [if_neg hfar, List.singleton_append, List.map_cons, List.cons.injEq] at heq
      exact hdiffers heq.1
  · have hrest := length_acceptedEchoes irqData.irqEdge irqData.risingEdgeTime
      (pulses.flatMap Pulse.edges)
    rw [acceptedEchoes, if_neg hedge, if_neg hfalling, acceptedEchoes, if_neg hedge,
      if_neg hfalling] at hlength
    rw [if_neg hedge] at hrest
    omega

/-- A pulse at the start of time, not as wide as the distance that a slipped handler takes it
for. -/
def slippedPulse (irqData : Hcsr04IrqData) : Pulse :=
  ⟨0, if distanceOf irqData.risingEdgeTime 0 = 0 then 23200 else 0⟩

def slippedPulses (irqData : Hcsr04IrqData) (n : Nat) : List Pulse :=
  slippedPulse irqData :: List.replicate n ⟨23200, 23200⟩

theorem slippedPulse_differs (irqData : Hcsr04IrqData) :
    (distanceOf irqData.risingEdgeTime (slippedPulse irqData).rise).toInt ≠
      (((slippedPulse irqData).width / 23200 : Nat) : Int) := by
  unfold slippedPulse Pulse.width
  split
  next hzero =>
    dsimp only
    rw [hzero]
    decide
  next hne =>
    intro heq
    exact hne (Int32.toInt_inj.mp heq)

theorem wellTimed_slippedPulses (irqData : Hcsr04IrqData) (n : Nat) :
    WellTimed (slippedPulses irqData n) where
  ordered := by
    have hfall : (slippedPulse irqData).fall ≤ 23200 := by
      unfold slippedPulse
      split <;> decide
    have hrest : ∀ n, ((List.replicate n (⟨23200, 23200⟩ : Pulse)).flatMap Pulse.edges) =
        List.replicate (2 * n) 23200 := by
      intro n
      induction n with
      | zero => rfl
      | succ n ih =>
        rw [List.replicate_succ, List.flatMap_cons, ih]
        rfl
    have hedges : (slippedPulses irqData n).flatMap Pulse.edges =
        0 :: (slippedPulse irqData).fall :: List.replicate (2 * n) 23200 := by
      rw [slippedPulses, List.flatMap_cons, hrest]
      rfl
    rw [hedges, List.pairwise_cons, List.pairwise_cons]
    refine ⟨fun _ _ => UInt64.zero_le, fun irqTime hmem => ?_, ?_⟩
    · rwa [List.eq_of_mem_replicate hmem]
    · exact List.pairwise_replicate.mpr (.inr (UInt64.le_refl _))
  widths := by
    intro pulse hmem
    rcases List.mem_cons.mp hmem with rfl | hmem
    · unfold slippedPulse Pulse.width
      split <;> decide
    · rw [List.eq_of_mem_replicate hmem]
      decide

/-! ## Measurements without triggers -/

/-- The measurement has no trigger left to send, or will find none when it starts. -/
def MeasurePc.Quiet (m : Int32) : MeasurePc → Prop
  | .lock | .start => ¬ 0 < m + 2
  | .loop samplesCollected totalSamples => ¬ samplesCollected < totalSamples
  | .triggerHigh _ _ | .triggerLow _ _ => False
  | _ => True

theorem hcsr04ThreadWrite_quiet {env : KernelEnv} {s s' : Shared} {thread thread' : Measurement}
    (hquiet : thread.pc.Quiet s.device.m)
    (h : hcsr04ThreadWrite env thread s = some (s', thread')) : thread'.pc.Quiet s.device.m := by
  cases hcsr04ThreadWrite_cases h with
  | lock | start => exact hquiet
  | up hmore => exact absurd hmore hquiet
  | triggerHigh | triggerLow => exact hquiet.elim
  | _ => trivial

/-- Thread `i` is a measurement without triggers. -/
def QuietAt (p : Pool Shared Thread) (i : Nat) : Prop :=
  ∃ thread, p.threads[i]? = some (.measure thread) ∧ thread.pc.Quiet p.shared.device.m

theorem QuietAt.step {env : KernelEnv} {p q : Pool Shared Thread} {i : Nat}
    {move : PoolMove Thread} (h : QuietAt p i) (hmove : deviceMove env p move = some (q, ())) :
    QuietAt q i ∧ lineEvent i p move ≠ some .trigger := by
  obtain ⟨thread, ht, hquiet⟩ := h
  have hlt : i < p.threads.length := (List.getElem?_eq_some_iff.mp ht).1
  have hm := (deviceMove_frame hmove).m
  cases move with
  | start t =>
    obtain ⟨s, -, rfl⟩ := poolMove_start_eq_some.mp hmove
    refine ⟨⟨thread, ?_, hm.symm ▸ hquiet⟩, nofun⟩
    rw [List.getElem?_append_left hlt]
    exact ht
  | step j =>
    obtain ⟨t, s, t', hj, hstep, rfl⟩ := poolMove_step_eq_some.mp hmove
    by_cases hij : j = i
    · subst hij
      obtain rfl := Option.some.inj (ht.symm.trans hj)
      obtain ⟨⟨s₁, thread'⟩, hthread, hst⟩ := Option.map_eq_some_iff.mp hstep
      obtain ⟨rfl, rfl⟩ := Prod.mk.inj hst
      refine ⟨⟨thread', by simp [hlt], hm.symm ▸ hcsr04ThreadWrite_quiet hquiet hthread⟩, ?_⟩
      obtain ⟨tsc, pc⟩ := thread
      cases pc with
      | triggerHigh => exact absurd hquiet id
      | _ => simp [lineEvent, ht]
    · refine ⟨⟨thread, ?_, hm.symm ▸ hquiet⟩, ?_⟩
      · rw [List.getElem?_set_ne hij]
        exact ht
      · simp only [lineEvent, hj, if_neg hij]
        split <;> nofun

theorem QuietAt.run {env : KernelEnv} {p q : Pool Shared Thread} {i : Nat}
    {moves : List (PoolMove Thread)} {os : List Unit} (h : QuietAt p i)
    (hrun : run (deviceMove env) p moves = some (q, os)) :
    .trigger ∉ lineEvents env i p moves := by
  induction moves generalizing p os with
  | nil => exact List.not_mem_nil
  | cons move moves ih =>
    obtain ⟨p₁, ⟨⟩, os', hmove, htail, -⟩ := run_cons_eq_some.mp hrun
    obtain ⟨h₁, hevent⟩ := h.step hmove
    rw [lineEvents, runEvents_cons_of_some _ _ hmove, List.mem_append, not_or]
    refine ⟨fun hmem => hevent ?_, ih h₁ htail⟩
    simpa using hmem

/-! ## Measurements whose triggers are answered -/

abbrev LeadsWith (env : KernelEnv) (i : Nat) (p : Pool Shared Thread) (events : List LineEvent)
    (q : Pool Shared Thread) : Prop :=
  Leads (deviceMove env) (lineEvent i) p events q

/-- The event of a measurement's next statement. -/
def MeasurePc.event? : MeasurePc → Option LineEvent
  | .triggerHigh _ _ => some .trigger
  | _ => none

theorem leads_measure (env : KernelEnv) {p : Pool Shared Thread} {i : Nat}
    {thread thread' : Measurement} {s : Shared} (ht : p.threads[i]? = some (.measure thread))
    (hstep : hcsr04ThreadWrite env thread p.shared = some (s, thread')) :
    ∃ q, LeadsWith env i p thread.pc.event?.toList q ∧ q.shared = s ∧
      q.threads[i]? = some (.measure thread') := by
  have hlt : i < p.threads.length := (List.getElem?_eq_some_iff.mp ht).1
  have hthread : threadStep env (.measure thread) p.shared = some (s, .measure thread') := by
    rw [threadStep, hstep]
    rfl
  have hmove : deviceMove env p (.step i) = some (⟨s, p.threads.set i (.measure thread')⟩, ()) :=
    poolMove_step_eq_some.mpr ⟨_, _, _, ht, hthread, rfl⟩
  have hevent : lineEvent i p (.step i) = thread.pc.event? := by
    obtain ⟨tsc, pc⟩ := thread
    cases pc <;> simp [lineEvent, ht, MeasurePc.event?]
  rw [← hevent]
  exact ⟨_, .of_step (lineEvent i) hmove, rfl, by simp [hlt]⟩

theorem leads_edge (env : KernelEnv) {p : Pool Shared Thread} {i : Nat} {t : Thread}
    (ht : p.threads[i]? = some t) (hconfigured : p.shared.device.irqData.irqNo ≠ NO_VALUE)
    (irqTime : UInt64) :
    ∃ q, LeadsWith env i p [.edge irqTime] q ∧ q.threads[i]? = some t ∧
      q.shared.device.irqData.irqNo ≠ NO_VALUE := by
  obtain ⟨irq', hstart, hstep⟩ := edge_moves env hconfigured irqTime
  have hlt : i < p.threads.length := (List.getElem?_eq_some_iff.mp ht).1
  have hevent : lineEvent i ⟨p.shared, p.threads ++ [.irq ⟨irqTime, .edge⟩]⟩
      (.step p.threads.length) = some (.edge irqTime) := by
    simp [lineEvent]
  have hleads := (Leads.of_step (lineEvent i) hstart).trans (Leads.of_step (lineEvent i) hstep)
  rw [hevent] at hleads
  refine ⟨_, hleads, ?_, ?_⟩
  · rw [List.getElem?_append_left hlt]
    exact ht
  · simpa [Shared.setDevice, takeEdge_irqNo] using hconfigured

/-- A trigger and the pulse that answers it. -/
theorem leads_pulse (env : KernelEnv) {p : Pool Shared Thread} {i : Nat} {tsc : UInt64}
    {samplesCollected totalSamples : Int32}
    (ht : p.threads[i]? = some (.measure ⟨tsc, .loop samplesCollected totalSamples⟩))
    (hmore : samplesCollected < totalSamples)
    (hconfigured : p.shared.device.irqData.irqNo ≠ NO_VALUE) (pulse : Pulse) :
    ∃ q, LeadsWith env i p pulse.events q ∧
      q.threads[i]? = some (.measure ⟨tsc, .loop (samplesCollected + 1) totalSamples⟩) ∧
      q.shared.device.irqData.irqNo ≠ NO_VALUE := by
  obtain ⟨q₁, hleads₁, hshared₁, hq₁⟩ := leads_measure env ht (by
    rw [hcsr04ThreadWrite]
    exact if_pos hmore)
  obtain ⟨q₂, hleads₂, hshared₂, hq₂⟩ := leads_measure env hq₁ rfl
  have hconfigured₂ : q₂.shared.device.irqData.irqNo ≠ NO_VALUE := by
    rw [hshared₂, hshared₁]
    exact hconfigured
  obtain ⟨q₃, hleads₃, hq₃, hconfigured₃⟩ := leads_edge env hq₂ hconfigured₂ pulse.rise
  obtain ⟨q₄, hleads₄, hq₄, hconfigured₄⟩ := leads_edge env hq₃ hconfigured₃ pulse.fall
  obtain ⟨q₅, hleads₅, hshared₅, hq₅⟩ := leads_measure env hq₄ rfl
  refine ⟨q₅, (((hleads₁.trans hleads₂).trans hleads₃).trans hleads₄).trans hleads₅, hq₅, ?_⟩
  rw [hshared₅]
  exact hconfigured₄

theorem leads_pulses (env : KernelEnv) {tsc : UInt64} {totalSamples : Int32} {i : Nat}
    (pulses : List Pulse) {p : Pool Shared Thread} {samplesCollected : Int32}
    (ht : p.threads[i]? = some (.measure ⟨tsc, .loop samplesCollected totalSamples⟩))
    (hcount : totalSamples.toInt = samplesCollected.toInt + pulses.length)
    (hconfigured : p.shared.device.irqData.irqNo ≠ NO_VALUE) :
    ∃ q, LeadsWith env i p (pulses.flatMap Pulse.events) q ∧ Collected q i := by
  induction pulses generalizing p samplesCollected with
  | nil =>
    have hdone : ¬ samplesCollected < totalSamples := by
      rw [Int32.lt_iff_toInt_lt, hcount]
      simp
    obtain ⟨q, hleads, -, hq⟩ := leads_measure env ht (by
      rw [hcsr04ThreadWrite]
      exact if_neg hdone)
    exact ⟨q, hleads, tsc, hq⟩
  | cons pulse pulses ih =>
    rw [List.length_cons] at hcount
    have hmore : samplesCollected < totalSamples := by
      rw [Int32.lt_iff_toInt_lt]
      omega
    have hnext := toInt_add_one hmore
    obtain ⟨q₁, hleads₁, hq₁, hconfigured₁⟩ := leads_pulse env ht hmore hconfigured pulse
    obtain ⟨q, hleads, hq⟩ := ih hq₁ (by omega) hconfigured₁
    exact ⟨q, hleads₁.trans hleads, hq⟩

/-- Any pulses can answer the triggers of a measurement, one for each. -/
theorem leads_measurement (env : KernelEnv) {p : Pool Shared Thread} {i : Nat} (h : Starts p i)
    (hconfigured : p.shared.device.irqData.irqNo ≠ NO_VALUE) {pulses : List Pulse}
    (hcount : (p.shared.device.m + 2).toInt = pulses.length) :
    ∃ q, LeadsWith env i p (pulses.flatMap Pulse.events) q ∧ Collected q i := by
  obtain ⟨tsc, ht⟩ := h
  obtain ⟨q₁, hleads₁, hshared₁, hq₁⟩ := leads_measure env ht rfl
  have hconfigured₁ : q₁.shared.device.irqData.irqNo ≠ NO_VALUE := by
    rw [hshared₁]
    exact hconfigured
  have hzero : Int32.toInt 0 = 0 := by decide
  obtain ⟨q, hleads, hq⟩ := leads_pulses env pulses hq₁ (by omega) hconfigured₁
  exact ⟨q, hleads₁.trans hleads, hq⟩

/-! ## The turn of the edges -/

/-- The turn of the edges is the parity of those handled. -/
theorem irqEdge_foldl (edges : List UInt64) (irqData : Hcsr04IrqData) :
    (irqData.irqEdge = 0 → ((edges.foldl takeEdge irqData).irqEdge = 0 ↔ Even edges.length)) ∧
      (irqData.irqEdge = 1 →
        ((edges.foldl takeEdge irqData).irqEdge = 0 ↔ ¬ Even edges.length)) := by
  induction edges generalizing irqData with
  | nil =>
    refine ⟨fun h => by simp [h], fun h => ?_⟩
    simp [h]
  | cons irqTime edges ih =>
    obtain ⟨hzero, hone⟩ := ih (takeEdge irqData irqTime)
    rw [List.foldl_cons, List.length_cons, Nat.even_add_one]
    constructor
    · intro h
      exact hone (by simp [takeEdge, h])
    · intro h
      rw [hzero (by rw [takeEdge_falling h]; exact (countSample_eq _ _).1), not_not]

/-- After the device was opened, the next edge is taken as rising exactly when an even number of
edges was handled. -/
theorem rising_iff_even {env : KernelEnv} {p q : Pool Shared Thread}
    (hopened : p.shared.device.irqData.irqEdge = 0) {moves : List (PoolMove Thread)}
    {os : List Unit} (hrun : run (deviceMove env) p moves = some (q, os)) :
    q.shared.device.irqData.irqEdge = 0 ↔ Even (handledEdges env p moves).length := by
  rw [irqData_of_run hrun]
  exact (irqEdge_foldl _ _).1 hopened

/-! ## The main result -/

/-- A measurement that starts out of phase and sends a trigger may sample other distances. -/
theorem not_measuresPulses_of_slipped {env : KernelEnv} {p : Pool Shared Thread} {i : Nat}
    (hstarts : Starts p i) (hconfigured : p.shared.device.irqData.irqNo ≠ NO_VALUE)
    (hedge : p.shared.device.irqData.irqEdge ≠ 0) (htriggers : 0 < p.shared.device.m + 2) :
    ¬ MeasuresPulses env p i := by
  intro hmeasures
  have hpos : 0 < (p.shared.device.m + 2).toInt := Int32.lt_iff_toInt_lt.mp htriggers
  let n := (p.shared.device.m + 2).toInt.toNat - 1
  have hcount : (p.shared.device.m + 2).toInt =
      (slippedPulses p.shared.device.irqData n).length := by
    simp only [slippedPulses, List.length_cons, List.length_replicate, n]
    omega
  obtain ⟨q, ⟨moves, os, hrun, hevents⟩, hq⟩ := leads_measurement env hstarts hconfigured hcount
  have hsamples := hmeasures moves q os _ hrun hq hevents (wellTimed_slippedPulses _ n)
  rw [addedSamples_of_events hrun hevents] at hsamples
  exact accepted_slipped hedge (slippedPulse_differs _) _ hsamples

/-- A measurement of a configured device samples the pulses that answer its triggers, whatever
they are, exactly when the next edge is taken as rising at its start, or it sends no trigger. -/
theorem measuresPulses_iff {env : KernelEnv} {p : Pool Shared Thread} {i : Nat}
    (hstarts : Starts p i) (hconfigured : p.shared.device.irqData.irqNo ≠ NO_VALUE) :
    MeasuresPulses env p i ↔
      p.shared.device.irqData.irqEdge = 0 ∨ ¬ 0 < p.shared.device.m + 2 := by
  constructor
  · intro hmeasures
    by_contra hneither
    rw [not_or, not_not] at hneither
    exact not_measuresPulses_of_slipped hstarts hconfigured hneither.1 hneither.2 hmeasures
  · rintro (hrising | hquiet) moves q os pulses hrun - hevents htimed
    · rw [addedSamples_of_events hrun hevents, Hcsr04IrqData.accepted, hrising]
      exact acceptedEchoes_pulses _ htimed
    · obtain ⟨tsc, ht⟩ := hstarts
      have hnone := QuietAt.run ⟨_, ht, hquiet⟩ hrun
      rw [hevents] at hnone
      cases pulses with
      | nil =>
        rw [addedSamples_of_events hrun hevents]
        rfl
      | cons pulse pulses => exact absurd List.mem_cons_self hnone

/-- The first measurement of a device that handled no edge. -/
theorem measuresPulses_iff_first : ∃ p os,
    run (deviceMove grantAll) (idle configuredDevice) (firstMeasurement ++ stepsOf 1 1) =
      some (p, os) ∧ MeasuresPulses grantAll p 1 := by
  obtain ⟨p, os, hrun, hstarts, hconfigured, hrising⟩ : ∃ p os,
      run (deviceMove grantAll) (idle configuredDevice) (firstMeasurement ++ stepsOf 1 1) =
        some (p, os) ∧ Starts p 1 ∧ p.shared.device.irqData.irqNo ≠ NO_VALUE ∧
      p.shared.device.irqData.irqEdge = 0 := ⟨_, _, rfl, ⟨8, rfl⟩, by decide, by decide⟩
  exact ⟨p, os, hrun, (measuresPulses_iff hstarts hconfigured).mpr (.inl hrising)⟩

/-- Every measurement samples the pulses that answer it, whatever edges were handled before. -/
def Resynchronizes : Prop :=
  ∀ (env : KernelEnv) (blank : Int32 → Hcsr04Device) (minorLeft : Int32 → Int32)
    (ops : List MiscOp) (minor : Int32) (moves : List (PoolMove Thread)) (p : Pool Shared Thread)
    (os : List Unit) (i : Nat),
    run (deviceMove env) (idle ((afterOps (hcsr04Init blank minorLeft) ops).device minor)) moves =
      some (p, os) →
    Starts p i → p.shared.device.irqData.irqNo ≠ NO_VALUE → MeasuresPulses env p i

/-- A trigger of measurement `i` and the pulse that answers it out of phase. Its edges are the
threads from `j` on. -/
def answered (i j : Nat) (pulse : Pulse) : List (PoolMove Thread) :=
  stepsOf i 2 ++ .start (.irq ⟨pulse.rise, .edge⟩) :: stepsOf j 2 ++
    .start (.irq ⟨pulse.fall, .edge⟩) :: stepsOf (j + 1) 1 ++ stepsOf i 1

/-- After one edge at 5000000, three pulses of 100 cm are taken for 215, 331 and 331 cm. -/
theorem not_resynchronizes : ¬ Resynchronizes := by
  intro hall
  let moves : List (PoolMove Thread) := .start (.irq ⟨5000000, .edge⟩) :: stepsOf 0 1 ++
    startMeasurement 1 ++ .start (.measure ⟨8, .lock⟩) :: stepsOf 2 1
  let pulses : List Pulse :=
    [⟨10000000, 12320000⟩, ⟨20000000, 22320000⟩, ⟨30000000, 32320000⟩]
  let measurement : List (PoolMove Thread) := stepsOf 2 1 ++ answered 2 3 ⟨10000000, 12320000⟩ ++
    answered 2 5 ⟨20000000, 22320000⟩ ++ answered 2 7 ⟨30000000, 32320000⟩ ++ stepsOf 2 1
  obtain ⟨p, os, hrun, hstarts, hconfigured, q, os', hmeasurement, hq, hevents, hsamples⟩ :
      ∃ p os, run (deviceMove grantAll) (idle configuredDevice) moves = some (p, os) ∧
        Starts p 2 ∧ p.shared.device.irqData.irqNo ≠ NO_VALUE ∧
        ∃ q os', run (deviceMove grantAll) p measurement = some (q, os') ∧ Collected q 2 ∧
          lineEvents grantAll 2 p measurement = pulses.flatMap Pulse.events ∧
          addedSamples grantAll p measurement = [215, 331, 331] :=
    ⟨_, _, rfl, ⟨8, rfl⟩, by decide, _, _, rfl, ⟨8, rfl⟩, rfl, by decide⟩
  have htimed : WellTimed pulses := ⟨by decide, by decide⟩
  have hwidths := hall _ _ _ _ _ moves p os 2 hrun hstarts hconfigured measurement q os' pulses
    hmeasurement hq hevents htimed
  rw [hsamples] at hwidths
  exact absurd hwidths (by decide)

end KernelDrivers.Hcsr04
