import KernelDrivers.Hcsr04.Locking
import KernelDrivers.Platform.Pins

/-!
# Measurements of the platform driver

The threads of one device, as in the misc driver. The reads and the start of a measurement are
the misc driver's; the interrupt handler takes no semaphore, the measurement counts its own
triggers as samples, and the attribute `enable` starts a measurement as well.
-/

namespace KernelDrivers.Platform
open Lib Hcsr04

/-! ## Interrupts -/

/-- `do_div` returns the remainder. The difference is taken the other way round. -/
def distanceOf (risingEdgeTime fallingEdgeTime : UInt64) : Int32 :=
  ((risingEdgeTime - fallingEdgeTime) % 23200).toUInt32.toInt32

/-- The falling edge's accounting of a distance. -/
def countSample (irqData : Hcsr04IrqData) (distance : Int32) : Hcsr04IrqData :=
  let irqData :=
    if distance > irqData.outlierHighest then { irqData with outlierHighest := distance }
    else if distance < irqData.outlierLowest then { irqData with outlierLowest := distance }
    else irqData
  { irqData with
    totalSamples := irqData.totalSamples + 1
    sampleSum := irqData.sampleSum + distance }

/-- The interrupt data after an edge at `irqTime`. -/
def takeEdge (irqData : Hcsr04IrqData) (irqTime : UInt64) : Hcsr04IrqData :=
  if irqData.irqEdge = 0 then { irqData with risingEdgeTime := irqTime, irqEdge := 1 }
  else if irqData.irqEdge = 1 then
    countSample { irqData with fallingEdgeTime := irqTime, irqEdge := 0 }
      (distanceOf irqData.risingEdgeTime irqTime)
  else irqData

def irqHandler (irq : Irq) (s : Shared) : Option (Shared × Irq) :=
  match irq.pc with
  | .edge =>
    some (s.setDevice { s.device with irqData := takeEdge s.device.irqData irq.irqTime },
      { irq with pc := .handled })
  | _ => none

/-! ## The measurement thread -/

inductive MeasurePc where
  | lock
  | start
  | loop (samplesCollected totalSamples : Int32)
  | triggerHigh (samplesCollected totalSamples : Int32)
  | triggerLow (samplesCollected totalSamples : Int32)
  | collect (samplesCollected totalSamples : Int32)
  | average
  | fifoWrite (buffer : FifoBuffer) (pc : FifoWritePc)
  | unlock
  | up
  | exited
  /-- stopped by a trap of the division -/
  | died
  deriving DecidableEq

/-- A thread that reads `tsc` from the time stamp counter. -/
structure Measurement where
  tsc : UInt64
  pc : MeasurePc
  deriving DecidableEq

def hcsr04ThreadWrite (env : KernelEnv) (thread : Measurement) (s : Shared) :
    Option (Shared × Measurement) :=
  match thread.pc with
  | .lock => s.lock.map (·, { thread with pc := .start })
  | .start => some (s, { thread with pc := .loop 0 s.device.m })
  | .loop samplesCollected totalSamples =>
    some (s, { thread with
      pc :=
        if samplesCollected ≤ totalSamples + 2 then .triggerHigh samplesCollected totalSamples
        else .average })
  | .triggerHigh samplesCollected totalSamples =>
    some ({ s with
      calls := (pinConfig env s.device.irqData.irqTriggerPin 1 true false s.calls).1 },
      { thread with pc := .triggerLow samplesCollected totalSamples })
  | .triggerLow samplesCollected totalSamples =>
    some ({ s with
      calls := (pinConfig env s.device.irqData.irqTriggerPin 1 false false s.calls).1 },
      { thread with pc := .collect samplesCollected totalSamples })
  | .collect samplesCollected totalSamples =>
    some (s.setDevice { s.device with
      irqData := { s.device.irqData with totalSamples := samplesCollected + 1 } },
      { thread with pc := .loop (samplesCollected + 1) totalSamples })
  | .average =>
    match averageDistance s.device.irqData with
    | none => some (s, { thread with pc := .died })
    | some distance =>
      some (s, { thread with pc := .fifoWrite ⟨distance, thread.tsc⟩ .stepForward })
  | .fifoWrite _ .returned =>
    some (s.setDevice { s.device with measurementInProgress := 0 }, { thread with pc := .unlock })
  | .fifoWrite buffer pc => (fifoWriteStep s.device buffer pc).map fun (device, pc) =>
    (s.setDevice device, { thread with pc := .fifoWrite buffer pc })
  | .unlock => some (s.unlock, { thread with pc := .up })
  | .up =>
    some (s.setDevice { s.device with readLock := s.device.readLock + 1 },
      { thread with pc := .exited })
  | .exited => none
  | .died => none

/-! ## The calls that start a measurement -/

inductive WritePc where
  | testConfigured
  | copyFromUser
  | resetIndex
  | testInProgress
  | setInProgress
  | initiating (pc : InitiatePc)
  | returned (ret : Int32)
  deriving DecidableEq

/-- A call with its operand in the user's buffer. -/
structure WriteCall where
  bufferOperation : Int32
  created : Bool
  pc : WritePc
  deriving DecidableEq

/-- A nonzero operand resets the index only. -/
def hcsr04Write (call : WriteCall) (s : Shared) : Option (Shared × WriteCall) :=
  match call.pc with
  | .testConfigured =>
    some (s, { call with
      pc :=
        if s.device.arePinsConfigured = 0 ∨ s.device.areMDeltaConfigured = 0 then .returned EINVAL
        else .copyFromUser })
  | .copyFromUser =>
    some (s, { call with pc := if call.bufferOperation ≠ 0 then .resetIndex else .testInProgress })
  | .resetIndex =>
    some (s.setDevice { s.device with bufferIndex := 0 }, { call with pc := .testInProgress })
  | .testInProgress =>
    some (s, { call with
      pc := if s.device.measurementInProgress ≠ 0 then .returned EINVAL else .setInProgress })
  | .setInProgress =>
    some (s.setDevice { s.device with measurementInProgress := 1 },
      { call with pc := .initiating .lock })
  | .initiating (.returned ret) =>
    some (s, { call with pc := .returned (if ret = 0 then EINVAL else SUCCESS) })
  | .initiating pc => (initiateMeasurement call.created s pc).map fun (s, pc) =>
    (s, { call with pc := .initiating pc })
  | .returned _ => none

inductive EnablePc where
  | testEnable
  | testInProgress
  | setInProgress
  | initiating (pc : InitiatePc)
  | returned (ret : Int32)
  deriving DecidableEq

/-- A write of `count` characters to the attribute. `text` is the number `sscanf` reads there,
if it reads one. -/
structure EnableCall where
  text : Option Int32
  count : Int32
  created : Bool
  pc : EnablePc
  deriving DecidableEq

def enableStore (call : EnableCall) (s : Shared) : Option (Shared × EnableCall) :=
  match call.pc with
  | .testEnable =>
    some (s, { call with
      pc := if call.text.getD 0 = 1 then .testInProgress else .returned call.count })
  | .testInProgress =>
    some (s, { call with
      pc := if s.device.measurementInProgress ≠ 0 then .returned EINVAL else .setInProgress })
  | .setInProgress =>
    some (s.setDevice { s.device with measurementInProgress := 1 },
      { call with pc := .initiating .lock })
  | .initiating (.returned ret) =>
    some (s, { call with pc := .returned (if ret = 0 then EINVAL else call.count) })
  | .initiating pc => (initiateMeasurement call.created s pc).map fun (s, pc) =>
    (s, { call with pc := .initiating pc })
  | .returned _ => none

/-! ## The threads of a device -/

inductive Thread where
  | read (call : ReadCall)
  | write (call : WriteCall)
  | enable (call : EnableCall)
  | measure (thread : Measurement)
  | irq (irq : Irq)
  deriving DecidableEq

def threadStep (env : KernelEnv) : Thread → Shared → Option (Shared × Thread)
  | .read call, s => (hcsr04Read call s).map fun (s, call) => (s, .read call)
  | .write call, s => (hcsr04Write call s).map fun (s, call) => (s, .write call)
  | .enable call, s => (enableStore call s).map fun (s, call) => (s, .enable call)
  | .measure thread, s =>
    (hcsr04ThreadWrite env thread s).map fun (s, thread) => (s, .measure thread)
  | .irq irq, s => (irqHandler irq s).map fun (s, irq) => (s, .irq irq)

/-- A step of a thread is a step of its call, its measurement or its interrupt. -/
inductive ThreadStep (env : KernelEnv) (s s' : Shared) : Thread → Thread → Prop
  | read {call call' : ReadCall} (h : hcsr04Read call s = some (s', call')) :
      ThreadStep env s s' (.read call) (.read call')
  | write {call call' : WriteCall} (h : hcsr04Write call s = some (s', call')) :
      ThreadStep env s s' (.write call) (.write call')
  | enable {call call' : EnableCall} (h : enableStore call s = some (s', call')) :
      ThreadStep env s s' (.enable call) (.enable call')
  | measure {thread thread' : Measurement}
      (h : hcsr04ThreadWrite env thread s = some (s', thread')) :
      ThreadStep env s s' (.measure thread) (.measure thread')
  | irq {irq irq' : Irq} (h : irqHandler irq s = some (s', irq')) :
      ThreadStep env s s' (.irq irq) (.irq irq')

theorem threadStep_cases {env : KernelEnv} {s s' : Shared} {t t' : Thread}
    (h : threadStep env t s = some (s', t')) : ThreadStep env s s' t t' := by
  cases t
  all_goals
    obtain ⟨⟨s₁, call⟩, hstep, h⟩ := Option.map_eq_some_iff.mp h
    obtain ⟨rfl, rfl⟩ := Prod.mk.inj h
    constructor
    exact hstep

/-- The statements of a measurement. -/
inductive MeasureStatement (env : KernelEnv) (s : Shared) :
    Measurement → Shared → Measurement → Prop
  | lock {tsc : UInt64} {s' : Shared} (hlock : s.lock = some s') :
    MeasureStatement env s ⟨tsc, .lock⟩ s' ⟨tsc, .start⟩
  | start {tsc : UInt64} :
    MeasureStatement env s ⟨tsc, .start⟩ s ⟨tsc, .loop 0 s.device.m⟩
  | more {tsc : UInt64} {samplesCollected totalSamples : Int32}
      (hmore : samplesCollected ≤ totalSamples + 2) :
    MeasureStatement env s ⟨tsc, .loop samplesCollected totalSamples⟩ s
      ⟨tsc, .triggerHigh samplesCollected totalSamples⟩
  | done {tsc : UInt64} {samplesCollected totalSamples : Int32}
      (hdone : ¬ samplesCollected ≤ totalSamples + 2) :
    MeasureStatement env s ⟨tsc, .loop samplesCollected totalSamples⟩ s ⟨tsc, .average⟩
  | triggerHigh {tsc : UInt64} {samplesCollected totalSamples : Int32} :
    MeasureStatement env s ⟨tsc, .triggerHigh samplesCollected totalSamples⟩
      { s with calls := (pinConfig env s.device.irqData.irqTriggerPin 1 true false s.calls).1 }
      ⟨tsc, .triggerLow samplesCollected totalSamples⟩
  | triggerLow {tsc : UInt64} {samplesCollected totalSamples : Int32} :
    MeasureStatement env s ⟨tsc, .triggerLow samplesCollected totalSamples⟩
      { s with calls := (pinConfig env s.device.irqData.irqTriggerPin 1 false false s.calls).1 }
      ⟨tsc, .collect samplesCollected totalSamples⟩
  | collect {tsc : UInt64} {samplesCollected totalSamples : Int32} :
    MeasureStatement env s ⟨tsc, .collect samplesCollected totalSamples⟩
      (s.setDevice { s.device with
        irqData := { s.device.irqData with totalSamples := samplesCollected + 1 } })
      ⟨tsc, .loop (samplesCollected + 1) totalSamples⟩
  | trap {tsc : UInt64} (haverage : averageDistance s.device.irqData = none) :
    MeasureStatement env s ⟨tsc, .average⟩ s ⟨tsc, .died⟩
  | average {tsc : UInt64} {distance : Int32}
      (haverage : averageDistance s.device.irqData = some distance) :
    MeasureStatement env s ⟨tsc, .average⟩ s ⟨tsc, .fifoWrite ⟨distance, tsc⟩ .stepForward⟩
  | fifoWrite {tsc : UInt64} {buffer : FifoBuffer} {pc pc' : FifoWritePc} {device : Hcsr04Device}
      (hstep : fifoWriteStep s.device buffer pc = some (device, pc')) :
    MeasureStatement env s ⟨tsc, .fifoWrite buffer pc⟩ (s.setDevice device)
      ⟨tsc, .fifoWrite buffer pc'⟩
  | clearInProgress {tsc : UInt64} {buffer : FifoBuffer} :
    MeasureStatement env s ⟨tsc, .fifoWrite buffer .returned⟩
      (s.setDevice { s.device with measurementInProgress := 0 }) ⟨tsc, .unlock⟩
  | unlock {tsc : UInt64} : MeasureStatement env s ⟨tsc, .unlock⟩ s.unlock ⟨tsc, .up⟩
  | up {tsc : UInt64} :
    MeasureStatement env s ⟨tsc, .up⟩
      (s.setDevice { s.device with readLock := s.device.readLock + 1 }) ⟨tsc, .exited⟩

theorem hcsr04ThreadWrite_cases {env : KernelEnv} {s s' : Shared} {thread thread' : Measurement}
    (h : hcsr04ThreadWrite env thread s = some (s', thread')) :
    MeasureStatement env s thread s' thread' := by
  obtain ⟨tsc, pc⟩ := thread
  cases pc with
  | lock =>
    obtain ⟨s₁, hlock, h⟩ := Option.map_eq_some_iff.mp h
    obtain ⟨rfl, rfl⟩ := Prod.mk.inj h
    exact .lock hlock
  | loop samplesCollected totalSamples =>
    obtain ⟨rfl, rfl⟩ := Prod.mk.inj (Option.some.inj h)
    dsimp only
    split
    next hmore => exact .more hmore
    next hdone => exact .done hdone
  | average =>
    simp only [hcsr04ThreadWrite] at h
    split at h
    next haverage =>
      obtain ⟨rfl, rfl⟩ := Prod.mk.inj (Option.some.inj h)
      exact .trap haverage
    next haverage =>
      obtain ⟨rfl, rfl⟩ := Prod.mk.inj (Option.some.inj h)
      exact .average haverage
  | fifoWrite buffer pc =>
    cases pc with
    | returned =>
      obtain ⟨rfl, rfl⟩ := Prod.mk.inj (Option.some.inj h)
      exact .clearInProgress
    | stepForward | writeDistance | writeTsc =>
      simp only [hcsr04ThreadWrite] at h
      obtain ⟨⟨device, pc₁⟩, hstep, h⟩ := Option.map_eq_some_iff.mp h
      obtain ⟨rfl, rfl⟩ := Prod.mk.inj h
      exact .fifoWrite hstep
  | start | triggerHigh | triggerLow | collect | unlock | up =>
    obtain ⟨rfl, rfl⟩ := Prod.mk.inj (Option.some.inj h)
    constructor
  | exited | died => cases h

/-- A thread starts at its first statement: a measurement when its kernel thread was created, an
interrupt when it is configured. -/
def threadStart : Thread → Shared → Option Shared
  | .read ⟨_, _, _, [], .lock⟩, s => some s
  | .write ⟨_, _, .testConfigured⟩, s => some s
  | .enable ⟨_, _, _, .testEnable⟩, s => some s
  | .measure ⟨_, .lock⟩, s =>
    if s.created = 0 then none else some { s with created := s.created - 1 }
  | .irq ⟨_, .edge⟩, s => if s.device.irqData.irqNo = NO_VALUE then none else some s
  | _, _ => none

/-- The moves of a device's threads. -/
abbrev deviceMove (env : KernelEnv) := poolMove (threadStep env) threadStart

/-- The device with no thread at work. -/
def idle (device : Hcsr04Device) : Pool Shared Thread := ⟨⟨device, 0, []⟩, []⟩

/-! ## The lock -/

def Thread.Holds : Thread → Prop
  | .read call => Hcsr04.Thread.Holds (.read call)
  | .write ⟨_, _, .initiating pc⟩ => pc.Holds
  | .write _ => False
  | .enable ⟨_, _, _, .initiating pc⟩ => pc.Holds
  | .enable _ => False
  | .measure ⟨_, .lock⟩ => False
  | .measure ⟨_, .up⟩ => False
  | .measure ⟨_, .exited⟩ => False
  | .measure ⟨_, .died⟩ => False
  | .measure _ => True
  | .irq _ => False

end KernelDrivers.Platform
