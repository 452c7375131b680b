import KernelDrivers.Hcsr04.Resync
import Mathlib.Algebra.Ring.Int.Defs

/-!
# The pulses on the trigger line

A measurement triggers `m + 2` times, or not at all when `m + 2` overflows. Whatever level
`pin_config` is given, the last it does is to set the line to 0. So the line is low while the
measurement waits for the pulse to last, and no trigger is a pulse.
-/

namespace KernelDrivers.Hcsr04
open Lib

/-! ## The iterations of a measurement -/

section Iterations

variable {ε : Type*} (high low : List ε)

/-- What `n` iterations of the loop make happen. -/
def iterations (n : Nat) : List ε := (List.replicate n (high ++ low)).flatten

theorem iterations_succ (n : Nat) :
    iterations high low (n + 1) = iterations high low n ++ high ++ low := by
  simp [iterations, List.replicate_succ']

/-- What a measurement makes happen at its next statement. -/
def MeasurePc.word : MeasurePc → List ε
  | .triggerHigh _ _ => high
  | .triggerLow _ _ => low
  | _ => []

/-- What a measurement has made happen since its start. -/
def MeasurePc.Made (m : Int32) : MeasurePc → List ε → Prop
  | .lock, es | .start, es => es = []
  | .loop samplesCollected totalSamples, es => totalSamples = m + 2 ∧ ∃ n : Nat,
    samplesCollected.toInt = n ∧ (n = 0 ∨ (n : Int) ≤ totalSamples.toInt) ∧
      es = iterations high low n
  | .triggerHigh samplesCollected totalSamples, es => totalSamples = m + 2 ∧ ∃ n : Nat,
    samplesCollected.toInt = n ∧ samplesCollected < totalSamples ∧ es = iterations high low n
  | .triggerLow samplesCollected totalSamples, es => totalSamples = m + 2 ∧ ∃ n : Nat,
    samplesCollected.toInt = n ∧ samplesCollected < totalSamples ∧
      es = iterations high low n ++ high
  | _, es => es = iterations high low (m + 2).toInt.toNat

theorem hcsr04ThreadWrite_made {env : KernelEnv} {s s' : Shared} {thread thread' : Measurement}
    {es : List ε} (hmade : thread.pc.Made high low s.device.m es)
    (h : hcsr04ThreadWrite env thread s = some (s', thread')) :
    thread'.pc.Made high low s.device.m (es ++ thread.pc.word high low) := by
  have hzero : Int32.toInt 0 = 0 := by decide
  cases hcsr04ThreadWrite_cases h with
  | lock => simpa [MeasurePc.Made, MeasurePc.word] using hmade
  | start =>
    obtain rfl : es = [] := hmade
    exact ⟨rfl, 0, hzero, .inl rfl, rfl⟩
  | up hmore =>
    obtain ⟨htotal, n, hn, -, rfl⟩ := hmade
    exact ⟨htotal, n, hn, hmore, List.append_nil _⟩
  | done hdone =>
    obtain ⟨htotal, n, hn, hle, rfl⟩ := hmade
    rw [Int32.lt_iff_toInt_lt] at hdone
    have hcount : n = (s.device.m + 2).toInt.toNat := by
      rw [← htotal]
      omega
    simp [MeasurePc.Made, MeasurePc.word, hcount]
  | triggerHigh =>
    obtain ⟨htotal, n, hn, hmore, rfl⟩ := hmade
    exact ⟨htotal, n, hn, hmore, rfl⟩
  | triggerLow =>
    obtain ⟨htotal, n, hn, hmore, rfl⟩ := hmade
    have hnext := toInt_add_one hmore
    rw [Int32.lt_iff_toInt_lt] at hmore
    exact ⟨htotal, n + 1, by omega, .inr (by omega), (iterations_succ high low n).symm⟩
  | _ => simpa [MeasurePc.Made, MeasurePc.word] using hmade

theorem threadStep_irqTriggerPin {env : KernelEnv} {s s' : Shared} {t t' : Thread}
    (h : threadStep env t s = some (s', t')) :
    s'.device.irqData.irqTriggerPin = s.device.irqData.irqTriggerPin := by
  rw [threadStep_irqData h]
  cases edgeEvent s t with
  | none => rfl
  | some irqTime =>
    simp only [Option.toList_some, List.foldl_cons, List.foldl_nil, takeEdge, countSample]
    split_ifs <;> rfl

/-- The device's `m` and its trigger line stay what they are. -/
structure Triggering (m line : Int32) (s : Shared) : Prop where
  m : s.device.m = m
  line : s.device.irqData.irqTriggerPin = line

theorem Triggering.move {env : KernelEnv} {m line : Int32} {p q : Pool Shared Thread}
    {move : PoolMove Thread} (h : Triggering m line p.shared)
    (hmove : deviceMove env p move = some (q, ())) : Triggering m line q.shared := by
  refine ⟨(deviceMove_frame hmove).m.trans h.m, ?_⟩
  cases move with
  | start t =>
    obtain ⟨s, hstart, rfl⟩ := poolMove_start_eq_some.mp hmove
    rw [← h.line, threadStart_device hstart]
  | step i =>
    obtain ⟨t, s, t', -, hstep, rfl⟩ := poolMove_step_eq_some.mp hmove
    exact (threadStep_irqTriggerPin hstep).trans h.line

/-- Once it has collected its samples, a measurement has gone through `m + 2` iterations. -/
theorem own_events_of_measurement {env : KernelEnv} {event : Shared → Thread → Option ε}
    {p q : Pool Shared Thread} {i : Nat} {moves : List (PoolMove Thread)} {os : List Unit}
    (hword : ∀ s thread s' thread', hcsr04ThreadWrite env thread s = some (s', thread') →
      s.device.irqData.irqTriggerPin = p.shared.device.irqData.irqTriggerPin →
      (event s (.measure thread)).toList = thread.pc.word high low)
    (hstarts : Starts p i) (hrun : run (deviceMove env) p moves = some (q, os))
    (hq : Collected q i) :
    runEvents (deviceMove env) (ownEvent event i) p moves =
      iterations high low (p.shared.device.m + 2).toInt.toNat := by
  obtain ⟨tsc, ht⟩ := hstarts
  obtain ⟨tsc', ht'⟩ := hq
  let K : Thread → List ε → Prop := fun t es =>
    ∃ thread, t = .measure thread ∧ thread.pc.Made high low p.shared.device.m es
  have hown : ∀ t s t' s' es, Triggering p.shared.device.m p.shared.device.irqData.irqTriggerPin s →
      K t es → threadStep env t s = some (s', t') → K t' (es ++ (event s t).toList) := by
    rintro t s t' s' es htriggering ⟨thread, rfl, hmade⟩ hstep
    obtain ⟨⟨s₁, thread'⟩, hthread, heq⟩ := Option.map_eq_some_iff.mp hstep
    obtain ⟨rfl, rfl⟩ := Prod.mk.inj heq
    refine ⟨thread', rfl, ?_⟩
    rw [hword s thread _ thread' hthread htriggering.line]
    rw [← htriggering.m] at hmade ⊢
    exact hcsr04ThreadWrite_made high low hmade hthread
  have hnone : K (.measure ⟨tsc, .start⟩) [] := ⟨_, rfl, rfl⟩
  obtain ⟨t', hthread, thread, rfl, hmade⟩ := run_own_events event
    (fun p q move => Triggering.move) hown ht ⟨rfl, rfl⟩ hnone hrun
  obtain rfl := Thread.measure.inj (Option.some.inj (ht'.symm.trans hthread))
  exact hmade

end Iterations

/-! ## The number of triggers -/

def triggerEvent (_ : Shared) : Thread → Option Unit
  | .measure ⟨_, .triggerHigh _ _⟩ => some ()
  | _ => none

/-- The triggers of measurement `i`. -/
def triggers (env : KernelEnv) : Nat → Pool Shared Thread → List (PoolMove Thread) → Nat :=
  ownEventCount (threadStep env) threadStart triggerEvent

/-- Measurement `i` can come to its average, and triggers `n` times whenever it does. -/
def Triggers (env : KernelEnv) : Pool Shared Thread → Nat → Nat → Prop :=
  MakesUntil (threadStep env) threadStart triggerEvent fun tsc => .measure ⟨tsc, .average⟩

theorem length_iterations {ε : Type*} (high low : List ε) (n : Nat) :
    (iterations high low n).length = n * (high.length + low.length) := by
  induction n with
  | zero => simp [iterations]
  | succ n ih =>
    simp only [iterations_succ, List.length_append, ih]
    grind

theorem triggers_eq {env : KernelEnv} {p q : Pool Shared Thread} {i : Nat}
    {moves : List (PoolMove Thread)} {os : List Unit} (hstarts : Starts p i)
    (hrun : run (deviceMove env) p moves = some (q, os)) (hq : Collected q i) :
    triggers env i p moves = (p.shared.device.m + 2).toInt.toNat := by
  have hword : ∀ s (thread : Measurement) s' thread',
      hcsr04ThreadWrite env thread s = some (s', thread') →
      s.device.irqData.irqTriggerPin = p.shared.device.irqData.irqTriggerPin →
      (triggerEvent s (.measure thread)).toList = thread.pc.word [()] [] := by
    rintro s ⟨tsc, pc⟩ - - - -
    cases pc <;> rfl
  rw [triggers, ownEventCount, own_events_of_measurement [()] [] hword hstarts hrun hq,
    length_iterations]
  exact Nat.mul_one _

theorem exists_collected (env : KernelEnv) {p : Pool Shared Thread} {i : Nat} (h : Starts p i) :
    ∃ moves q os, run (deviceMove env) p moves = some (q, os) ∧ Collected q i := by
  obtain ⟨tsc, ht⟩ := h
  obtain ⟨q₁, ⟨moves₁, os₁, hrun₁, -⟩, -, hq₁⟩ := reaches_measure env ht rfl
  obtain ⟨q, ⟨moves, os, hrun, -⟩, -, hq⟩ := reaches_average env _ rfl hq₁
  exact ⟨_, q, _, run_trans _ hrun₁ hrun, tsc, hq⟩

/-- A measurement triggers as often as the `int` `m + 2` says, and not when it is negative. -/
theorem triggers_iff {env : KernelEnv} {p : Pool Shared Thread} {i : Nat} (h : Starts p i)
    (n : Nat) : Triggers env p i n ↔ n = (p.shared.device.m + 2).toInt.toNat := by
  have hiff : Triggers env p i n ↔ True ∧ n = (p.shared.device.m + 2).toInt.toNat :=
    makesUntil_iff (fun _ => exists_collected env h)
      (fun hrun hq => ⟨trivial, triggers_eq h hrun hq⟩) n
  exact hiff.trans (and_iff_right trivial)

/-! ## Levels -/

/-- The level of a line, as the driver set it last. -/
def levelOf (line : Int32) : List KernelCall → Option Bool
  | [] => none
  | .gpioDirectionOutput pin val :: calls => if pin = line then some val else levelOf line calls
  | .gpioSetValue pin val :: calls => if pin = line then some (val ≠ 0) else levelOf line calls
  | _ :: calls => levelOf line calls

theorem levelOf_pinConfig (env : KernelEnv) (line ioFlag : Int32) (val : Bool)
    (calls : List KernelCall) :
    levelOf line (pinConfig env line ioFlag val false calls).1 = some false := by
  simp [pinConfig, levelOf]

/-- A delay of a measurement and the level of the trigger line in it. -/
inductive Delay where
  | udelay (level : Option Bool)
  | mdelay (level : Option Bool)
  deriving DecidableEq

/-- Each statement that sets the trigger ends with a delay. -/
def delayEvent (env : KernelEnv) (line : Int32) (s : Shared) : Thread → Option Delay
  | .measure ⟨tsc, .triggerHigh samplesCollected totalSamples⟩ =>
    (hcsr04ThreadWrite env ⟨tsc, .triggerHigh samplesCollected totalSamples⟩ s).map fun r =>
      .udelay (levelOf line r.1.calls)
  | .measure ⟨tsc, .triggerLow samplesCollected totalSamples⟩ =>
    (hcsr04ThreadWrite env ⟨tsc, .triggerLow samplesCollected totalSamples⟩ s).map fun r =>
      .mdelay (levelOf line r.1.calls)
  | _ => none

/-- The delays of measurement `i` with the levels of its trigger line. -/
def delays (env : KernelEnv) (i : Nat) (p : Pool Shared Thread) :
    List (PoolMove Thread) → List Delay :=
  runEvents (deviceMove env) (ownEvent (delayEvent env p.shared.device.irqData.irqTriggerPin) i) p

theorem delays_eq {env : KernelEnv} {p q : Pool Shared Thread} {i : Nat}
    {moves : List (PoolMove Thread)} {os : List Unit} (hstarts : Starts p i)
    (hrun : run (deviceMove env) p moves = some (q, os)) (hq : Collected q i) :
    delays env i p moves = iterations [.udelay (some false)] [.mdelay (some false)]
      (p.shared.device.m + 2).toInt.toNat := by
  refine own_events_of_measurement _ _ ?_ hstarts hrun hq
  rintro s ⟨tsc, pc⟩ - - - hline
  cases pc with
  | triggerHigh | triggerLow =>
    simp [delayEvent, hcsr04ThreadWrite, MeasurePc.word, hline, levelOf_pinConfig]
  | _ => rfl

/-! ## The main result -/

/-- Every trigger is a pulse: the line is high for the `udelay(20)`, then low. -/
def RealPulses (m : Int32) (trace : List Delay) : Prop :=
  trace = iterations [.udelay (some true)] [.mdelay (some false)] (m.toInt + 2).toNat

theorem toInt_add_two {m : Int32} (hpos : 1 ≤ m.toInt) :
    (m + 2).toInt = if m.toInt ≤ 2 ^ 31 - 3 then m.toInt + 2 else m.toInt + 2 - 2 ^ 32 := by
  have hlt := m.toInt_lt
  have htwo : Int32.toInt 2 = 2 := by decide
  rw [Int32.toInt_add, htwo, Int.bmod_def]
  omega

/-- In every measurement the trigger line is low through all `m + 2` of its pulses, so they are
no pulses. -/
theorem pulses_stay_low {env : KernelEnv} {p q : Pool Shared Thread} {i : Nat}
    {moves : List (PoolMove Thread)} {os : List Unit} (hstarts : Starts p i)
    (hpos : 1 ≤ p.shared.device.m.toInt) (hmax : p.shared.device.m.toInt ≤ 2 ^ 31 - 3)
    (hrun : run (deviceMove env) p moves = some (q, os)) (hq : Collected q i) :
    delays env i p moves = iterations [.udelay (some false)] [.mdelay (some false)]
        (p.shared.device.m.toInt + 2).toNat ∧
      ¬ RealPulses p.shared.device.m (delays env i p moves) := by
  have htrace := delays_eq hstarts hrun hq
  rw [toInt_add_two hpos, if_pos hmax] at htrace
  refine ⟨htrace, fun hreal => ?_⟩
  obtain ⟨n, hn⟩ : ∃ n, (p.shared.device.m.toInt + 2).toNat = n + 1 :=
    ⟨(p.shared.device.m.toInt + 1).toNat, by omega⟩
  rw [RealPulses, htrace, hn] at hreal
  have hhead := congrArg List.head? hreal
  simp [iterations, List.replicate_succ] at hhead

/-- The first measurement of a device whose trigger is line 62. -/
theorem measurement_on_line_62 : ∃ p os q os',
    run (deviceMove grantAll) (idle configuredDevice) (firstMeasurement ++ stepsOf 1 1) =
      some (p, os) ∧
    Starts p 1 ∧ p.shared.device.m = 1 ∧ p.shared.device.irqData.irqTriggerPin = 62 ∧
    run (deviceMove grantAll) p (stepsOf 1 11) = some (q, os') ∧ Collected q 1 :=
  ⟨_, _, _, _, rfl, ⟨8, rfl⟩, by decide, by decide, rfl, ⟨8, rfl⟩⟩

theorem pulses_stay_low_first : ∃ p os,
    run (deviceMove grantAll) (idle configuredDevice) (firstMeasurement ++ stepsOf 1 1) =
      some (p, os) ∧
    delays grantAll 1 p (stepsOf 1 11) =
      iterations [.udelay (some false)] [.mdelay (some false)] 3 ∧
    ¬ RealPulses 1 (delays grantAll 1 p (stepsOf 1 11)) := by
  obtain ⟨p, os, q, os', hp, hstarts, hm, -, hrun, hq⟩ := measurement_on_line_62
  have hlow := pulses_stay_low hstarts (by rw [hm]; decide) (by rw [hm]; decide) hrun hq
  rw [hm] at hlow
  exact ⟨p, os, hp, hlow⟩

/-- The line is low in all three pulses of a measurement with `m` 1. -/
theorem not_real_pulses : ¬ ∀ (env : KernelEnv) (blank : Int32 → Hcsr04Device)
    (minorLeft : Int32 → Int32) (ops : List MiscOp) (minor : Int32)
    (before : List (PoolMove Thread)) (p : Pool Shared Thread) (os : List Unit) (i : Nat)
    (moves : List (PoolMove Thread)) (q : Pool Shared Thread) (os' : List Unit),
    run (deviceMove env) (idle ((afterOps (hcsr04Init blank minorLeft) ops).device minor)) before =
      some (p, os) →
    Starts p i → 1 ≤ p.shared.device.m.toInt → p.shared.device.m.toInt ≤ 2 ^ 31 - 3 →
    p.shared.device.irqData.irqTriggerPin < 64 →
    run (deviceMove env) p moves = some (q, os') → Collected q i →
    RealPulses p.shared.device.m (delays env i p moves) := by
  intro hall
  obtain ⟨p, os, q, os', hp, hstarts, hm, hline, hrun, hq⟩ := measurement_on_line_62
  have hreal := hall _ _ _ _ _ _ p os 1 _ q os' hp hstarts (by rw [hm]; decide)
    (by rw [hm]; decide) (by rw [hline]; decide) hrun hq
  rw [hm, RealPulses, delays_eq hstarts hrun hq, hm] at hreal
  revert hreal
  decide

end KernelDrivers.Hcsr04
