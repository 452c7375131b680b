import KernelDrivers.Platform.Divisor
import KernelDrivers.Platform.SameDistance

/-!
# The number of samples that are averaged

The interrupt handler adds a sample to the sum and counts it, but every trigger of a measurement
overwrites the count by the number of triggers so far. So the count at the average is that of the
samples exactly when as many samples as triggers were there at the last trigger.
-/

namespace KernelDrivers.Platform
open Lib Hcsr04

/-! ## The samples of a run -/

/-- The sample that an event adds to the sum. -/
def sampleOf (irqData : Hcsr04IrqData) : EchoEvent → Option Int32
  | .edge irqTime =>
    if irqData.irqEdge = 1 then some (distanceOf irqData.risingEdgeTime irqTime) else none
  | .trigger _ => none

/-- The sample a thread adds at its next statement. -/
def sampleEvent (s : Shared) (t : Thread) : Option Int32 :=
  (echoEvent s t).bind (sampleOf s.device.irqData)

def addedSamples (env : KernelEnv) : Pool Shared Thread → List (PoolMove Thread) → List Int32 :=
  poolEvents (threadStep env) threadStart sampleEvent

/-- The samples that the events add, in order. -/
abbrev samplesOf : Hcsr04IrqData → List EchoEvent → List Int32 := emitted takeEvent sampleOf

theorem addedSamples_eq {env : KernelEnv} {p q : Pool Shared Thread}
    {moves : List (PoolMove Thread)} {os : List Unit}
    (hrun : run (deviceMove env) p moves = some (q, os)) :
    addedSamples env p moves = samplesOf p.shared.device.irqData (echoEvents env p moves) := by
  refine poolEvents_emitted echoEvent (fun s => s.device.irqData) takeEvent sampleOf
    (fun _ _ _ _ hstep => (threadStep_effect hstep).irqData) (fun _ _ _ hstart => ?_) hrun
  rw [(threadStart_effect hstart).2]

theorem takeEdge_falling {irqData : Hcsr04IrqData} (h : irqData.irqEdge = 1) (irqTime : UInt64) :
    (takeEdge irqData irqTime).irqEdge = 0 := by
  rw [takeEdge, h, if_neg (by decide), if_pos rfl, countSample]
  dsimp only
  split_ifs <;> rfl

/-! ## Counting edges -/

/-- The edges so far, and those up to the last trigger. -/
def edgeCountStep : Nat × Nat → EchoEvent → Nat × Nat
  | (edges, atTrigger), .edge _ => (edges + 1, atTrigger)
  | (edges, _), .trigger _ => (edges, edges)

def edgeCounts (es : List EchoEvent) : Nat × Nat := es.foldl edgeCountStep (0, 0)

/-- The samples added until the last trigger: every second edge is one. -/
def samplesAtTrigger (es : List EchoEvent) : Nat := (edgeCounts es).2 / 2

theorem samplesOf_concat (irqData : Hcsr04IrqData) (es : List EchoEvent) (e : EchoEvent) :
    samplesOf irqData (es ++ [e]) =
      samplesOf irqData es ++ (sampleOf (es.foldl takeEvent irqData) e).toList := by
  rw [samplesOf, emitted_append]
  simp [emitted]

/-- What the counts of the edges tell of the events of a fresh device. -/
structure Counted (irqData : Hcsr04IrqData) (es : List EchoEvent) : Prop where
  le : (edgeCounts es).2 ≤ (edgeCounts es).1
  irqEdge : (es.foldl takeEvent irqData).irqEdge = Int32.ofNat ((edgeCounts es).1 % 2)
  samples : (samplesOf irqData es).length = (edgeCounts es).1 / 2
  tally : es.foldl tallyStep (0, 0) =
    (Int32.ofNat ((edgeCounts es).1 % 2), (edgeCounts es).1 / 2 - (edgeCounts es).2 / 2)

theorem counted {irqData : Hcsr04IrqData} (h : irqData.irqEdge = 0) (es : List EchoEvent) :
    Counted irqData es := by
  induction es using List.reverseRecOn with
  | nil => exact ⟨le_rfl, h, rfl, rfl⟩
  | append_singleton es e ih =>
    obtain ⟨hle, hedge, hsamples, htally⟩ := ih
    have hcounts : edgeCounts (es ++ [e]) = edgeCountStep (edgeCounts es) e := by
      simp [edgeCounts]
    generalize edgeCounts es = counts at hle hedge hsamples htally hcounts
    obtain ⟨edges, atTrigger⟩ := counts
    simp only at hle hedge hsamples htally
    cases e with
    | trigger samplesCollected =>
      constructor
      · rw [hcounts]
        exact le_rfl
      · rw [hcounts, List.foldl_append]
        exact hedge
      · rw [hcounts, samplesOf_concat]
        simpa [sampleOf, edgeCountStep] using hsamples
      · rw [hcounts, List.foldl_append, htally]
        simp [edgeCountStep, tallyStep]
    | edge irqTime =>
      have hnext : (es ++ [EchoEvent.edge irqTime]).foldl takeEvent irqData =
          takeEdge (es.foldl takeEvent irqData) irqTime := by
        rw [List.foldl_append]
        rfl
      rcases Nat.mod_two_eq_zero_or_one edges with heven | hodd
      · -- the edge is taken as rising
        have hsucc : (edges + 1) % 2 = 1 := by omega
        have hhalf : (edges + 1) / 2 = edges / 2 := by omega
        rw [heven] at hedge htally
        have hrising : (es.foldl takeEvent irqData).irqEdge = 0 := hedge
        constructor
        · rw [hcounts]
          exact Nat.le_succ_of_le hle
        · rw [hcounts, hnext, takeEdge, if_pos hrising]
          simp only [edgeCountStep, hsucc]
          rfl
        · rw [hcounts, samplesOf_concat, sampleOf, if_neg (by rw [hrising]; decide)]
          simpa [edgeCountStep, hhalf] using hsamples
        · rw [hcounts, List.foldl_append, htally]
          simp [edgeCountStep, tallyStep, hsucc, hhalf]
      · have hsucc : (edges + 1) % 2 = 0 := by omega
        have hhalf : (edges + 1) / 2 = edges / 2 + 1 := by omega
        rw [hodd] at hedge htally
        have hfalling : (es.foldl takeEvent irqData).irqEdge = 1 := hedge
        constructor
        · rw [hcounts]
          exact Nat.le_succ_of_le hle
        · rw [hcounts, hnext, takeEdge_falling hfalling irqTime]
          simp only [edgeCountStep, hsucc]
          rfl
        · rw [hcounts, samplesOf_concat, sampleOf, if_pos hfalling]
          simpa [edgeCountStep, hhalf] using hsamples
        · rw [hcounts, List.foldl_append, htally]
          simp [edgeCountStep, tallyStep, hsucc, hhalf]
          omega

/-! ## The main result -/

/-- The triggers of a measurement. -/
def triggersOf (m : Int32) : Int := if 0 ≤ m + 2 then m.toInt + 3 else 0

/-- Neither the test of the loop nor the number of triggers overflows when there are triggers. -/
theorem toInt_bounds_of_triggers {m : Int32} (h : 0 ≤ m + 2) :
    -2 ≤ m.toInt ∧ m.toInt + 3 ≤ 2 ^ 31 := by
  have hmin := m.le_toInt
  have hlt := m.toInt_lt
  have htwo : Int32.toInt 2 = 2 := by decide
  have hzero : Int32.toInt 0 = 0 := by decide
  rw [Int32.le_iff_toInt_le, Int32.toInt_add, htwo, hzero, Int.bmod_def] at h
  omega

theorem add_ofNat_eq_ofInt (m : Int32) (count : Nat) :
    m + 3 + Int32.ofNat count = Int32.ofInt (m.toInt + 3 + count) := by
  rw [Int32.ofInt_add, Int32.ofInt_add, Int32.ofInt_toInt, Int32.ofInt_eq_ofNat]
  rfl

/-- At its average a measurement divides by the number of the samples that were added since the
device was initialised exactly when as many were added until the last trigger as there are
triggers, and the number of all is one of an `int`. -/
theorem divides_by_samples_iff {env : KernelEnv} {device : Hcsr04Device} {p : Pool Shared Thread}
    {moves : List (PoolMove Thread)} {os : List Unit} {i : Nat} {tsc : UInt64}
    (hfresh : FreshEcho device.irqData)
    (hrun : run (deviceMove env) (idle device) moves = some (p, os))
    (hat : p.threads[i]? = some (.measure ⟨tsc, .average⟩)) :
    p.shared.device.irqData.totalSamples.toInt = (addedSamples env (idle device) moves).length ↔
      samplesAtTrigger (echoEvents env (idle device) moves) = triggersOf device.m ∧
        (addedSamples env (idle device) moves).length < 2 ^ 31 := by
  have htotal : p.shared.device.irqData.totalSamples =
      (if 0 ≤ device.m + 2 then device.m + 3 else device.irqData.totalSamples) + Int32.ofNat
        (fallingEdges device.irqData.irqEdge (echoEvents env (idle device) moves)) := by
    rw [← lastTrigger_at_average hrun hat, ← foldl_takeEvent]
    exact congrArg _ (irqData_of_run hrun)
  have hadded : addedSamples env (idle device) moves =
      samplesOf device.irqData (echoEvents env (idle device) moves) := addedSamples_eq hrun
  rw [hadded]
  generalize echoEvents env (idle device) moves = es at htotal ⊢
  obtain ⟨irqNo, irqEchoPin, irqTriggerPin, hdata⟩ := hfresh
  have hedge : device.irqData.irqEdge = 0 := by rw [hdata]; rfl
  have hzero : device.irqData.totalSamples = 0 := by rw [hdata]; rfl
  obtain ⟨hle, -, hsamples, htally⟩ := counted hedge es
  have hfalling : fallingEdges device.irqData.irqEdge es =
      (edgeCounts es).1 / 2 - (edgeCounts es).2 / 2 := by
    rw [fallingEdges, hedge, htally]
  have hsize : (Int32.size : Int) = 2 ^ 32 := rfl
  rw [htotal, hfalling, hzero, hsamples, samplesAtTrigger, triggersOf]
  split
  next htriggers =>
    have hbounds := toInt_bounds_of_triggers htriggers
    rw [add_ofNat_eq_ofInt, Int32.toInt_ofInt, Int.bmod_def, hsize]
    omega
  next =>
    rw [Int32.zero_add, Int32.toInt_ofNat', Int.bmod_def, hsize]
    omega

/-! ## Measurements with and without echoes -/

/-- A measurement that hears four echoes before its first trigger. -/
def hearThenMeasure : List (PoolMove Thread) :=
  enableMeasurement 0 ++ [2, 3, 4, 5, 6, 7, 8, 9].flatMap
    (fun i => [.start (.irq ⟨0, .edge⟩), .step i]) ++ stepsOf 1 19

theorem average_of_hearThenMeasure :
    ((run (deviceMove grantAll) (idle (noOfSamplesStore (some 1) listeningDevice))
      hearThenMeasure).map fun r => r.1.threads[1]?) =
    some (some (.measure ⟨7, .average⟩)) := by decide

/-- Four triggers, and four samples before the last one. -/
theorem divides_by_samples_iff_heard : ∃ p os,
    run (deviceMove grantAll) (idle (noOfSamplesStore (some 1) listeningDevice))
      hearThenMeasure = some (p, os) ∧
    p.shared.device.irqData.totalSamples.toInt = (addedSamples grantAll
      (idle (noOfSamplesStore (some 1) listeningDevice)) hearThenMeasure).length := by
  obtain ⟨⟨p, os⟩, hrun, hat⟩ := Option.map_eq_some_iff.mp average_of_hearThenMeasure
  have hfresh : FreshEcho (noOfSamplesStore (some 1) listeningDevice).irqData :=
    freshEcho_listeningDevice
  exact ⟨p, os, hrun, (divides_by_samples_iff hfresh hrun hat).mpr (by decide)⟩

/-- Without an echo the sum of no sample is divided by 4. -/
theorem not_divides_by_samples : ¬ ∀ (env : KernelEnv) (device : Hcsr04Device)
    (moves : List (PoolMove Thread)) (p : Pool Shared Thread) (os : List Unit) (i : Nat)
    (tsc : UInt64), FreshEcho device.irqData →
    run (deviceMove env) (idle device) moves = some (p, os) →
    p.threads[i]? = some (.measure ⟨tsc, .average⟩) →
    p.shared.device.irqData.totalSamples.toInt = (addedSamples env (idle device) moves).length := by
  intro hall
  obtain ⟨⟨p, os⟩, hrun, hp⟩ := Option.map_eq_some_iff.mp heard_platform
  obtain ⟨hat, htotal⟩ := Prod.mk.inj hp
  have hsame := hall _ _ _ p os 1 7 ⟨_, _, _, rfl⟩ hrun hat
  rw [htotal] at hsame
  revert hsame
  decide

end KernelDrivers.Platform
