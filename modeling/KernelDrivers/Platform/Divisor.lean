import KernelDrivers.Platform.Driver
import KernelDrivers.Platform.Echoes

/-!
# The divisor of the average

A measurement divides by the number of samples. In the misc driver this is the number of echoes
accepted so far, and nothing makes it positive. In the platform driver a measurement counts its
triggers, `m + 3` of them when `m + 2` is not negative, and the falling edges behind the last one
are added; with a smaller `m`, or one whose `m + 2` overflows, it triggers nothing.
-/

namespace KernelDrivers.Platform
open Lib Hcsr04

/-! ## The number of samples -/

/-- The number set by the last trigger. -/
def lastTrigger (totalSamples : Int32) (es : List EchoEvent) : Int32 :=
  es.foldl (fun last e =>
    match e with
    | .trigger samplesCollected => samplesCollected
    | .edge _ => last) totalSamples

/-- The edge taken next, and the falling edges since the last trigger. -/
def tallyStep : Int32 × Nat → EchoEvent → Int32 × Nat
  | (irqEdge, _), .trigger _ => (irqEdge, 0)
  | (irqEdge, count), .edge _ =>
    if irqEdge = 0 then (1, count) else if irqEdge = 1 then (0, count + 1) else (irqEdge, count)

/-- The falling edges behind the last trigger, or all of them when nothing was triggered. -/
def fallingEdges (irqEdge : Int32) (es : List EchoEvent) : Nat :=
  (es.foldl tallyStep (irqEdge, 0)).2

theorem takeEdge_tally (irqData : Hcsr04IrqData) (irqTime : UInt64) (count : Nat) :
    (takeEdge irqData irqTime).irqEdge = (tallyStep (irqData.irqEdge, count) (.edge irqTime)).1 ∧
      (takeEdge irqData irqTime).totalSamples + Int32.ofNat count = irqData.totalSamples +
        Int32.ofNat (tallyStep (irqData.irqEdge, count) (.edge irqTime)).2 := by
  unfold takeEdge tallyStep
  by_cases hrising : irqData.irqEdge = 0
  · simp [hrising]
  · by_cases hfalling : irqData.irqEdge = 1
    · have hone : Int32.ofNat (count + 1) = Int32.ofNat count + 1 := by
        rw [Int32.ofNat_add]
        rfl
      simp only [hfalling, if_true]
      constructor
      · unfold countSample
        dsimp only
        split_ifs <;> rfl
      · have hcount : (countSample { irqData with fallingEdgeTime := irqTime, irqEdge := 0 }
            (distanceOf irqData.risingEdgeTime irqTime)).totalSamples =
            irqData.totalSamples + 1 := by
          unfold countSample
          dsimp only
          split_ifs <;> rfl
        grind
    · simp [hrising, hfalling]

/-- The number of samples is that of the last trigger and the falling edges behind it. -/
theorem foldl_takeEvent (irqData : Hcsr04IrqData) (es : List EchoEvent) :
    (es.foldl takeEvent irqData).totalSamples =
      lastTrigger irqData.totalSamples es + Int32.ofNat (fallingEdges irqData.irqEdge es) := by
  suffices hall : ∀ (last : Int32) (count : Nat), irqData.totalSamples = last + Int32.ofNat count →
      (es.foldl takeEvent irqData).totalSamples =
        lastTrigger last es + Int32.ofNat (es.foldl tallyStep (irqData.irqEdge, count)).2 by
    exact hall _ 0 (by simp)
  induction es generalizing irqData with
  | nil =>
    intro last count h
    exact h
  | cons e es ih =>
    intro last count h
    cases e with
    | edge irqTime =>
      obtain ⟨hedge, htotal⟩ := takeEdge_tally irqData irqTime count
      have hpair : tallyStep (irqData.irqEdge, count) (.edge irqTime) =
          ((takeEdge irqData irqTime).irqEdge,
            (tallyStep (irqData.irqEdge, count) (.edge irqTime)).2) := Prod.ext hedge.symm rfl
      rw [List.foldl_cons, List.foldl_cons, hpair]
      exact ih (takeEdge irqData irqTime) last _ (by grind)
    | trigger samplesCollected =>
      exact ih { irqData with totalSamples := samplesCollected } samplesCollected 0 (by simp)

theorem lastTrigger_append (totalSamples : Int32) (es es' : List EchoEvent) :
    lastTrigger totalSamples (es ++ es') = lastTrigger (lastTrigger totalSamples es) es' := by
  simp [lastTrigger]

/-! ## What a measurement knows -/

/-- A measurement between its triggers knows the number it set last. -/
def Thread.Knows (m totalSamples : Int32) : Thread → Shared × List EchoEvent → Prop
  | .measure ⟨_, .loop samplesCollected total⟩, (_, es) =>
    total = m ∧ (samplesCollected = 0 ∨ 0 ≤ m + 2 ∧ samplesCollected - 1 ≤ m + 2 ∧
      lastTrigger totalSamples es = samplesCollected)
  | .measure ⟨_, .triggerHigh samplesCollected total⟩, _ =>
    total = m ∧ 0 ≤ m + 2 ∧ samplesCollected ≤ m + 2
  | .measure ⟨_, .triggerLow samplesCollected total⟩, _ =>
    total = m ∧ 0 ≤ m + 2 ∧ samplesCollected ≤ m + 2
  | .measure ⟨_, .collect samplesCollected total⟩, _ =>
    total = m ∧ 0 ≤ m + 2 ∧ samplesCollected ≤ m + 2
  | .measure ⟨_, .average⟩, (_, es) => 0 ≤ m + 2 → lastTrigger totalSamples es = m + 3
  | _, _ => True

/-- When `m + 2` is negative nothing is triggered. -/
def Untriggered (m totalSamples : Int32) (s : Shared × List EchoEvent) : Prop :=
  s.1.device.m = m ∧ (¬ 0 ≤ m + 2 → lastTrigger totalSamples s.2 = totalSamples)

/-- A number that passes a bound by one step is the next one. -/
theorem eq_add_one_of_not_le {a k : Int32} (hlast : a - 1 ≤ k) (hover : ¬ a ≤ k) : a = k + 1 := by
  rw [Int32.le_iff_toInt_le] at hlast hover
  have hmin := k.le_toInt
  have hlt := a.toInt_lt
  have hstep : (a - 1).toInt = a.toInt - 1 := by
    rw [Int32.toInt_sub]
    apply Int.bmod_eq_of_le <;> simp <;> omega
  have hk : a - 1 = k := Int32.toInt_inj.mp (by omega)
  rw [← hk, Int32.sub_add_cancel]

/-- A thread that does not trigger adds no trigger. -/
theorem lastTrigger_event {totalSamples : Int32} {es : List EchoEvent} {s : Shared} {t : Thread}
    (h : ∀ samplesCollected, echoEvent s t ≠ some (.trigger samplesCollected)) :
    lastTrigger totalSamples (es ++ (echoEvent s t).toList) = lastTrigger totalSamples es := by
  rw [lastTrigger_append]
  cases he : echoEvent s t with
  | none => rfl
  | some e =>
    cases e with
    | edge => rfl
    | trigger samplesCollected => exact absurd he (h samplesCollected)

/-- Only a measurement at its own place triggers, and it holds the lock. -/
theorem echoEvent_trigger {s : Shared} {t : Thread} {samplesCollected : Int32}
    (h : echoEvent s t = some (.trigger samplesCollected)) :
    ∃ tsc collected total, t = .measure ⟨tsc, .collect collected total⟩ := by
  unfold echoEvent at h
  split at h
  · cases h
  · exact ⟨_, _, _, rfl⟩
  · cases h

theorem Untriggered.step {env : KernelEnv} {m totalSamples : Int32} {s s' : Shared × List EchoEvent}
    {t t' : Thread} (h : Untriggered m totalSamples s) (hknows : t.Knows m totalSamples s)
    (hstep : loggedStep (threadStep env) echoEvent t s = some (s', t')) :
    Untriggered m totalSamples s' := by
  obtain ⟨hst, hes⟩ := loggedStep_eq_some.mp hstep
  refine ⟨(threadStep_effect hst).m.trans h.1, fun hneg => ?_⟩
  rw [hes, lastTrigger_event, h.2 hneg]
  intro samplesCollected he
  obtain ⟨tsc, collected, total, rfl⟩ := echoEvent_trigger he
  exact hneg hknows.2.1

/-- What a measurement knows after its own step. -/
theorem Measurement.knows_step {env : KernelEnv} {m totalSamples : Int32} {s s' : Shared}
    {es : List EchoEvent} {thread thread' : Measurement} (hm : s.device.m = m)
    (hknows : Thread.Knows m totalSamples (.measure thread) (s, es))
    (h : hcsr04ThreadWrite env thread s = some (s', thread')) :
    Thread.Knows m totalSamples (.measure thread')
      (s', es ++ (echoEvent s (.measure thread)).toList) := by
  cases hcsr04ThreadWrite_cases h with
  | lock | trap | average | fifoWrite | clearInProgress | unlock | up => trivial
  | start => exact ⟨hm, .inl rfl⟩
  | @more tsc samplesCollected total hmore =>
    obtain ⟨rfl, hlast⟩ := hknows
    refine ⟨rfl, ?_, hmore⟩
    rcases hlast with rfl | ⟨hpos, -⟩
    · exact hmore
    · exact hpos
  | @done tsc samplesCollected total hdone =>
    obtain ⟨rfl, hlast⟩ := hknows
    intro hpos
    rcases hlast with rfl | ⟨-, hlast, htrigger⟩
    · exact absurd hpos hdone
    · have hes : es ++ (echoEvent s (.measure ⟨tsc, .loop samplesCollected total⟩)).toList = es :=
        List.append_nil es
      rw [hes, htrigger, eq_add_one_of_not_le hlast hdone]
      grind
  | triggerHigh | triggerLow => exact hknows
  | @collect tsc samplesCollected total =>
    obtain ⟨rfl, hpos, hle⟩ := hknows
    refine ⟨rfl, .inr ⟨hpos, ?_, ?_⟩⟩
    · rwa [Int32.add_sub_cancel]
    · rw [lastTrigger_append]
      rfl

theorem Thread.Knows.step {env : KernelEnv} {m totalSamples : Int32}
    {s s' : Shared × List EchoEvent} {t t' : Thread} (h : t.Knows m totalSamples s)
    (hm : s.1.device.m = m)
    (hstep : loggedStep (threadStep env) echoEvent t s = some (s', t')) :
    t'.Knows m totalSamples s' := by
  obtain ⟨s, es⟩ := s
  obtain ⟨s', es'⟩ := s'
  obtain ⟨hst, rfl⟩ := loggedStep_eq_some.mp hstep
  cases threadStep_cases hst with
  | measure hthread => exact Measurement.knows_step hm h hthread
  | read | write | enable | irq => trivial

/-- What a thread knows depends on the last trigger only. -/
theorem Thread.Knows.congr {m totalSamples : Int32} {s s' : Shared × List EchoEvent} {t : Thread}
    (h : t.Knows m totalSamples s)
    (hlast : lastTrigger totalSamples s'.2 = lastTrigger totalSamples s.2) :
    t.Knows m totalSamples s' := by
  unfold Thread.Knows at h ⊢
  split at h
  all_goals grind

/-- Only the holder of the lock triggers. -/
theorem Thread.Knows.other {env : KernelEnv} {m totalSamples : Int32}
    {s s' : Shared × List EchoEvent} {t t' u : Thread} (h : u.Knows m totalSamples s)
    (hexclusive : ¬ (t.Holds ∧ u.Holds))
    (hstep : loggedStep (threadStep env) echoEvent t s = some (s', t')) :
    u.Knows m totalSamples s' := by
  obtain ⟨hst, hes⟩ := loggedStep_eq_some.mp hstep
  by_cases hu : u.Holds
  · apply h.congr
    rw [hes]
    apply lastTrigger_event
    intro samplesCollected he
    obtain ⟨tsc, collected, total, rfl⟩ := echoEvent_trigger he
    exact hexclusive ⟨trivial, hu⟩
  · -- a thread without the lock is not between its triggers
    unfold Thread.Knows
    split
    all_goals first | trivial | exact absurd trivial hu

theorem threadStart_knows {m totalSamples : Int32} {s s' : Shared × List EchoEvent} {t : Thread}
    (h : loggedStart threadStart t s = some (s')) :
    ¬ t.Holds ∧ s'.1.device = s.1.device ∧ s'.2 = s.2 ∧ t.Knows m totalSamples s' := by
  obtain ⟨hst, hes⟩ := loggedStart_eq_some.mp h
  obtain ⟨hnot, hdevice⟩ := threadStart_effect hst
  refine ⟨hnot, hdevice, hes, ?_⟩
  unfold Thread.Knows
  split
  all_goals trivial

/-- Before its average a measurement has triggered `m + 3` times, or nothing was triggered. -/
theorem lastTrigger_at_average {env : KernelEnv} {device : Hcsr04Device} {p : Pool Shared Thread}
    {moves : List (PoolMove Thread)} {os : List Unit} {i : Nat} {tsc : UInt64}
    (hrun : run (deviceMove env) (idle device) moves = some (p, os))
    (hat : p.threads[i]? = some (.measure ⟨tsc, .average⟩)) :
    lastTrigger device.irqData.totalSamples (echoEvents env (idle device) moves) =
      if 0 ≤ device.m + 2 then device.m + 3 else device.irqData.totalSamples := by
  have hlogged := run_withLog echoEvent hrun []
  suffices hinv : PoolInv (fun s => Locked s.1) Thread.Holds
      (Thread.Knows device.m device.irqData.totalSamples)
      (p.withLog (echoEvents env (idle device) moves)) ∧
      Untriggered device.m device.irqData.totalSamples
        (p.withLog (echoEvents env (idle device) moves)).shared by
    have hknows := hinv.1.knows i _ hat
    split
    next hpos => exact hknows hpos
    next hneg => exact hinv.2.2 hneg
  refine run_pool_with ?_ ?_ ?_ ?_ ?_ (poolInv_nil _ _) ⟨rfl, fun _ => rfl⟩ (along_true _ _ _)
    hlogged
  · intro t s s' t' hstep hlocked
    obtain ⟨hst, -⟩ := loggedStep_eq_some.mp hstep
    have hlock := (threadStep_effect hst).lock hlocked
    exact ⟨hlock.holds, hlock.unlock⟩
  · exact fun p i t s' t' _ _ hstep hG hknows => hG.step hknows hstep
  · exact fun p i t s' t' _ _ hstep _ hG hknows => hknows.step hG.1 hstep
  · exact fun p i j t u s' t' _ _ _ hstep hexclusive hknows => hknows.other hexclusive hstep
  · intro t s s' hstart
    obtain ⟨hnot, hdevice, hes, hknows⟩ := threadStart_knows hstart
    refine ⟨hnot, ?_, hknows, ?_, fun u hu => hu.congr (by rw [hes])⟩
    · simp [Locked, hdevice]
    · exact fun hG => ⟨by rw [hdevice]; exact hG.1, by rw [hes]; exact hG.2⟩

/-! ## The main result -/

/-- When a measurement computes the average, the divisor is not 0 in the misc driver exactly when
the echoes accepted so far are not a multiple of `2 ^ 32`, and in the platform driver exactly when
the triggers it made and the falling edges behind the last one are not. -/
theorem divisor_ne_zero_iff (env : KernelEnv) (device : Hcsr04Device) :
    (∀ (moves : List (PoolMove Hcsr04.Thread)) (p : Pool Shared Hcsr04.Thread) os (i : Nat) tsc,
      run (Hcsr04.deviceMove env) (Hcsr04.idle device) moves = some (p, os) →
      p.threads[i]? = some (.measure ⟨tsc, .average⟩) →
      (p.shared.device.irqData.totalSamples ≠ 0 ↔
        device.irqData.totalSamples + Int32.ofNat
          (device.irqData.accepted (handledEdges env (Hcsr04.idle device) moves)).length ≠ 0)) ∧
    (∀ (moves : List (PoolMove Thread)) (p : Pool Shared Thread) os (i : Nat) tsc,
      run (deviceMove env) (idle device) moves = some (p, os) →
      p.threads[i]? = some (.measure ⟨tsc, .average⟩) →
      (p.shared.device.irqData.totalSamples ≠ 0 ↔
        (if 0 ≤ device.m + 2 then device.m + 3 else device.irqData.totalSamples) + Int32.ofNat
          (fallingEdges device.irqData.irqEdge (echoEvents env (idle device) moves)) ≠ 0)) := by
  constructor
  · intro moves p os i tsc hrun _
    rw [Hcsr04.irqData_of_run hrun, (Hcsr04.foldl_takeEdge _ _).1]
    rfl
  · intro moves p os i tsc hrun hat
    rw [irqData_of_run hrun, foldl_takeEvent, ← lastTrigger_at_average hrun hat]
    rfl

/-! ## Measurements without an echo -/

/-- A measurement of the misc driver up to its average, as thread `i`. -/
def measureUnheard (i : Nat) : List (PoolMove Hcsr04.Thread) :=
  .start (.measure ⟨7, .lock⟩) :: Hcsr04.stepsOf i 12

def stepsOf (i n : Nat) : List (PoolMove Thread) := List.replicate n (.step i)

/-- A write of 1 to `enable`, and the measurement by its first `n` statements. -/
def enableMeasurement (n : Nat) : List (PoolMove Thread) :=
  .start (.enable ⟨some 1, 2, true, .testEnable⟩) :: stepsOf 0 7 ++
    .start (.measure ⟨7, .lock⟩) :: stepsOf 1 n

/-- A probed device with a number written to `no_of_samples`. -/
def sampledDevice (text : Int32) : Hcsr04Device :=
  noOfSamplesStore (some text) (initializeDevice blankDevice)

theorem unheard_misc :
    ((run (Hcsr04.deviceMove grantAll) (Hcsr04.idle configuredDevice)
        (startMeasurement 0 ++ measureUnheard 1)).map fun r =>
      (r.1.threads[1]?, r.1.shared.device.irqData.totalSamples)) =
    some (some (.measure ⟨7, .average⟩), 0) := by decide

theorem unheard_platform :
    ((run (deviceMove grantAll) (idle (sampledDevice (-3))) (enableMeasurement 3)).map fun r =>
      (r.1.threads[1]?, r.1.shared.device.irqData.totalSamples)) =
    some (some (.measure ⟨7, .average⟩), 0) := by decide

theorem heard_platform :
    ((run (deviceMove grantAll) (idle (sampledDevice 1)) (enableMeasurement 19)).map fun r =>
      (r.1.threads[1]?, r.1.shared.device.irqData.totalSamples)) =
    some (some (.measure ⟨7, .average⟩), 4) := by decide

/-- Without an echo the misc driver divides by 0, and the platform driver by the 4 triggers of a
measurement with `m` 1. -/
theorem divisor_ne_zero_iff_unheard :
    (∃ p os, run (Hcsr04.deviceMove grantAll) (Hcsr04.idle configuredDevice)
        (startMeasurement 0 ++ measureUnheard 1) = some (p, os) ∧
      p.shared.device.irqData.totalSamples = 0) ∧
    (∃ p os, run (deviceMove grantAll) (idle (sampledDevice 1)) (enableMeasurement 19) =
        some (p, os) ∧
      p.shared.device.irqData.totalSamples = 4 ∧ p.shared.device.irqData.totalSamples ≠ 0) := by
  obtain ⟨⟨p, os⟩, hrun, hp⟩ := Option.map_eq_some_iff.mp unheard_misc
  obtain ⟨⟨q, os'⟩, hrun', hq⟩ := Option.map_eq_some_iff.mp heard_platform
  obtain ⟨hat, -⟩ := Prod.mk.inj hp
  obtain ⟨hat', htotal⟩ := Prod.mk.inj hq
  have hmisc := (divisor_ne_zero_iff grantAll configuredDevice).1 _ _ _ _ _ hrun hat
  have hplatform := (divisor_ne_zero_iff grantAll (sampledDevice 1)).2 _ _ _ _ _ hrun' hat'
  refine ⟨⟨p, os, hrun, not_ne_iff.mp (hmisc.not.mpr ?_)⟩, q, os', hrun', htotal,
    hplatform.mpr ?_⟩
  · decide
  · decide

/-- A measurement without an echo divides by 0: in the misc driver always, in the platform driver
when -3 was written to `no_of_samples`. -/
theorem not_divisor_ne_zero :
    (¬ ∀ (env : KernelEnv) (blank : Int32 → Hcsr04Device) (minorLeft : Int32 → Int32)
      (ops : List MiscOp) (minor : Int32) (moves : List (PoolMove Hcsr04.Thread))
      (p : Pool Shared Hcsr04.Thread) (os : List Unit) (i : Nat) (tsc : UInt64),
      run (Hcsr04.deviceMove env)
        (Hcsr04.idle ((afterOps (Hcsr04.hcsr04Init blank minorLeft) ops).device minor)) moves =
          some (p, os) →
      p.threads[i]? = some (.measure ⟨tsc, .average⟩) →
      p.shared.device.irqData.totalSamples ≠ 0) ∧
    ¬ ∀ (env : KernelEnv) (blank : Hcsr04Device) (m : Int32) (moves : List (PoolMove Thread))
      (p : Pool Shared Thread) (os : List Unit) (i : Nat) (tsc : UInt64),
      run (deviceMove env) (idle (noOfSamplesStore (some m) (initializeDevice blank))) moves =
        some (p, os) →
      p.threads[i]? = some (.measure ⟨tsc, .average⟩) →
      p.shared.device.irqData.totalSamples ≠ 0 := by
  constructor
  · intro hall
    obtain ⟨⟨p, os⟩, hrun, hp⟩ := Option.map_eq_some_iff.mp unheard_misc
    obtain ⟨hat, htotal⟩ := Prod.mk.inj hp
    exact hall _ _ _ _ _ _ p os 1 7 hrun hat htotal
  · intro hall
    obtain ⟨⟨p, os⟩, hrun, hp⟩ := Option.map_eq_some_iff.mp unheard_platform
    obtain ⟨hat, htotal⟩ := Prod.mk.inj hp
    exact hall _ _ _ _ p os 1 7 hrun hat htotal

end KernelDrivers.Platform
