import KernelDrivers.Hcsr04.Measurement

/-!
# What a statement does

Each of the functions that threads run takes one statement at a time. The relations here list
the statements with their guards, so that a proof about a thread is a case analysis of them.
-/

namespace KernelDrivers.Hcsr04
open Lib

/-! ## Starting a measurement -/

inductive InitiateStatement (created : Bool) (s : Shared) :
    InitiatePc → Shared → InitiatePc → Prop
  | lock {s' : Shared} (hlock : s.lock = some s') :
    InitiateStatement created s .lock s' .kthreadRun
  | create (hcreated : created = true) :
    InitiateStatement created s .kthreadRun { s with created := s.created + 1 } .unlock
  | refuse (hcreated : created = false) :
    InitiateStatement created s .kthreadRun s (.returned 1)
  | unlock : InitiateStatement created s .unlock s.unlock (.returned 0)

theorem initiateMeasurement_cases {created : Bool} {s s' : Shared} {pc pc' : InitiatePc}
    (h : initiateMeasurement created s pc = some (s', pc')) :
    InitiateStatement created s pc s' pc' := by
  cases pc with
  | lock =>
    obtain ⟨s₁, hlock, h⟩ := Option.map_eq_some_iff.mp h
    obtain ⟨rfl, rfl⟩ := Prod.mk.inj h
    exact .lock hlock
  | kthreadRun =>
    cases created with
    | false =>
      obtain ⟨rfl, rfl⟩ := Prod.mk.inj (Option.some.inj h)
      exact .refuse rfl
    | true =>
      obtain ⟨rfl, rfl⟩ := Prod.mk.inj (Option.some.inj h)
      exact .create rfl
  | unlock =>
    obtain ⟨rfl, rfl⟩ := Prod.mk.inj (Option.some.inj h)
    exact .unlock
  | returned => cases h

/-! ## Writes -/

inductive WriteStatement (s : Shared) : WriteCall → Shared → WriteCall → Prop
  | testConfigured {operand : Int32} {created : Bool} :
    WriteStatement s ⟨operand, created, .testConfigured⟩ s ⟨operand, created,
      if s.device.arePinsConfigured = 0 ∨ s.device.areMDeltaConfigured = 0 then .returned EINVAL
      else .copyFromUser⟩
  | copyFromUser {operand : Int32} {created : Bool} :
    WriteStatement s ⟨operand, created, .copyFromUser⟩ s
      ⟨operand, created, if operand ≠ 0 then .eraseDistance 0 else .testInProgress⟩
  | eraseDistance {operand : Int32} {created : Bool} {bufferIndex : Int32}
      (hmore : bufferIndex < FIFO_SIZE) {device : Hcsr04Device}
      (hassign : assignSlot s.device bufferIndex (fun slot => { slot with distance := NO_VALUE }) =
        some device) :
    WriteStatement s ⟨operand, created, .eraseDistance bufferIndex⟩ (s.setDevice device)
      ⟨operand, created, .eraseTsc bufferIndex⟩
  | resetIndex {operand : Int32} {created : Bool} {bufferIndex : Int32}
      (hdone : ¬ bufferIndex < FIFO_SIZE) :
    WriteStatement s ⟨operand, created, .eraseDistance bufferIndex⟩
      (s.setDevice { s.device with bufferIndex := 0 }) ⟨operand, created, .testInProgress⟩
  | eraseTsc {operand : Int32} {created : Bool} {bufferIndex : Int32} {device : Hcsr04Device}
      (hassign : assignSlot s.device bufferIndex (fun slot => { slot with tsc := NO_TSC }) =
        some device) :
    WriteStatement s ⟨operand, created, .eraseTsc bufferIndex⟩ (s.setDevice device)
      ⟨operand, created, .eraseDistance (bufferIndex + 1)⟩
  | testInProgress {operand : Int32} {created : Bool} :
    WriteStatement s ⟨operand, created, .testInProgress⟩ s ⟨operand, created,
      if s.device.measurementInProgress ≠ 0 then .returned EINVAL else .setInProgress⟩
  | setInProgress {operand : Int32} {created : Bool} :
    WriteStatement s ⟨operand, created, .setInProgress⟩
      (s.setDevice { s.device with measurementInProgress := 1 })
      ⟨operand, created, .initiating .lock⟩
  | initiating {operand : Int32} {created : Bool} {pc pc' : InitiatePc} {s' : Shared}
      (hinitiate : InitiateStatement created s pc s' pc') :
    WriteStatement s ⟨operand, created, .initiating pc⟩ s' ⟨operand, created, .initiating pc'⟩
  | initiated {operand : Int32} {created : Bool} {ret : Int32} :
    WriteStatement s ⟨operand, created, .initiating (.returned ret)⟩ s
      ⟨operand, created, .returned (if ret = 0 then EINVAL else SUCCESS)⟩

theorem hcsr04Write_cases {s s' : Shared} {call call' : WriteCall}
    (h : hcsr04Write call s = some (s', call')) : WriteStatement s call s' call' := by
  obtain ⟨operand, created, pc⟩ := call
  cases pc with
  | testConfigured =>
    obtain ⟨rfl, rfl⟩ := Prod.mk.inj (Option.some.inj h)
    exact .testConfigured
  | copyFromUser =>
    obtain ⟨rfl, rfl⟩ := Prod.mk.inj (Option.some.inj h)
    exact .copyFromUser
  | eraseDistance bufferIndex =>
    simp only [hcsr04Write] at h
    split at h
    next hmore =>
      obtain ⟨device, hassign, h⟩ := Option.map_eq_some_iff.mp h
      obtain ⟨rfl, rfl⟩ := Prod.mk.inj h
      exact .eraseDistance hmore hassign
    next hdone =>
      obtain ⟨rfl, rfl⟩ := Prod.mk.inj (Option.some.inj h)
      exact .resetIndex hdone
  | eraseTsc bufferIndex =>
    obtain ⟨device, hassign, h⟩ := Option.map_eq_some_iff.mp h
    obtain ⟨rfl, rfl⟩ := Prod.mk.inj h
    exact .eraseTsc hassign
  | testInProgress =>
    obtain ⟨rfl, rfl⟩ := Prod.mk.inj (Option.some.inj h)
    exact .testInProgress
  | setInProgress =>
    obtain ⟨rfl, rfl⟩ := Prod.mk.inj (Option.some.inj h)
    exact .setInProgress
  | initiating pc =>
    cases pc with
    | returned ret =>
      obtain ⟨rfl, rfl⟩ := Prod.mk.inj (Option.some.inj h)
      exact .initiated
    | lock | kthreadRun | unlock =>
      simp only [hcsr04Write] at h
      obtain ⟨⟨s₁, pc₁⟩, hinitiate, h⟩ := Option.map_eq_some_iff.mp h
      obtain ⟨rfl, rfl⟩ := Prod.mk.inj h
      exact .initiating (initiateMeasurement_cases hinitiate)
  | returned => cases h

/-! ## Reads -/

inductive ReadStatement (s : Shared) : ReadCall → Shared → ReadCall → Prop
  | lock {created : Bool} {copied : CopiedBytes} {userBuf : FifoBuffer}
      {removed : List FifoBuffer} {s' : Shared} (hlock : s.lock = some s') :
    ReadStatement s ⟨created, copied, userBuf, removed, .lock⟩ s'
      ⟨created, copied, userBuf, removed, .fifoRead .testEmpty⟩
  | fifoRead {created : Bool} {copied : CopiedBytes} {userBuf : FifoBuffer}
      {removed removed' : List FifoBuffer} {pc pc' : FifoReadPc} {device : Hcsr04Device}
      (hstep : fifoReadStep s.device pc = some (device, pc', removed')) :
    ReadStatement s ⟨created, copied, userBuf, removed, .fifoRead pc⟩ (s.setDevice device)
      ⟨created, copied, userBuf, removed ++ removed', .fifoRead pc'⟩
  | unlock {created : Bool} {copied : CopiedBytes} {userBuf : FifoBuffer}
      {removed : List FifoBuffer} {buffer : FifoBuffer} :
    ReadStatement s ⟨created, copied, userBuf, removed, .fifoRead (.returned buffer)⟩ s.unlock
      ⟨created, copied, userBuf, removed, .testEmpty buffer⟩
  | testEmpty {created : Bool} {copied : CopiedBytes} {userBuf : FifoBuffer}
      {removed : List FifoBuffer} {buffer : FifoBuffer} :
    ReadStatement s ⟨created, copied, userBuf, removed, .testEmpty buffer⟩ s
      ⟨created, copied, userBuf, removed,
        if buffer.distance = BUFFER_EMPTY then .testConfigured buffer else .copyToUser buffer⟩
  | testConfigured {created : Bool} {copied : CopiedBytes} {userBuf : FifoBuffer}
      {removed : List FifoBuffer} {buffer : FifoBuffer} :
    ReadStatement s ⟨created, copied, userBuf, removed, .testConfigured buffer⟩ s
      ⟨created, copied, userBuf, removed,
        if s.device.arePinsConfigured = 0 ∨ s.device.areMDeltaConfigured = 0 then .returned EINVAL
        else .testInProgress buffer⟩
  | testInProgress {created : Bool} {copied : CopiedBytes} {userBuf : FifoBuffer}
      {removed : List FifoBuffer} {buffer : FifoBuffer} :
    ReadStatement s ⟨created, copied, userBuf, removed, .testInProgress buffer⟩ s
      ⟨created, copied, userBuf, removed,
        if s.device.measurementInProgress ≠ 0 then .lockAgain buffer else .initiating buffer .lock⟩
  | initiating {created : Bool} {copied : CopiedBytes} {userBuf : FifoBuffer}
      {removed : List FifoBuffer} {buffer : FifoBuffer} {pc pc' : InitiatePc} {s' : Shared}
      (hinitiate : InitiateStatement created s pc s' pc') :
    ReadStatement s ⟨created, copied, userBuf, removed, .initiating buffer pc⟩ s'
      ⟨created, copied, userBuf, removed, .initiating buffer pc'⟩
  | initiated {created : Bool} {copied : CopiedBytes} {userBuf : FifoBuffer}
      {removed : List FifoBuffer} {buffer : FifoBuffer} :
    ReadStatement s ⟨created, copied, userBuf, removed, .initiating buffer (.returned 0)⟩ s
      ⟨created, copied, userBuf, removed, .returned EINVAL⟩
  | refused {created : Bool} {copied : CopiedBytes} {userBuf : FifoBuffer}
      {removed : List FifoBuffer} {buffer : FifoBuffer} {ret : Int32} (hret : ret ≠ 0) {s' : Shared}
      (hlock : s.lock = some s') :
    ReadStatement s ⟨created, copied, userBuf, removed, .initiating buffer (.returned ret)⟩ s'
      ⟨created, copied, userBuf, removed, .fifoReadAgain buffer .testEmpty⟩
  | lockAgain {created : Bool} {copied : CopiedBytes} {userBuf : FifoBuffer}
      {removed : List FifoBuffer} {buffer : FifoBuffer} {s' : Shared} (hlock : s.lock = some s') :
    ReadStatement s ⟨created, copied, userBuf, removed, .lockAgain buffer⟩ s'
      ⟨created, copied, userBuf, removed, .fifoReadAgain buffer .testEmpty⟩
  | fifoReadAgain {created : Bool} {copied : CopiedBytes} {userBuf : FifoBuffer}
      {removed removed' : List FifoBuffer} {buffer : FifoBuffer} {pc pc' : FifoReadPc}
      {device : Hcsr04Device}
      (hstep : fifoReadStep s.device pc = some (device, pc', removed')) :
    ReadStatement s ⟨created, copied, userBuf, removed, .fifoReadAgain buffer pc⟩
      (s.setDevice device)
      ⟨created, copied, userBuf, removed ++ removed', .fifoReadAgain buffer pc'⟩
  | copySecond {created : Bool} {copied : CopiedBytes} {userBuf : FifoBuffer}
      {removed : List FifoBuffer} {buffer second : FifoBuffer} :
    ReadStatement s ⟨created, copied, userBuf, removed, .fifoReadAgain buffer (.returned second)⟩ s
      ⟨created, copied, second.copyTo copied.second userBuf, removed, .unlockAgain buffer⟩
  | unlockAgain {created : Bool} {copied : CopiedBytes} {userBuf : FifoBuffer}
      {removed : List FifoBuffer} {buffer : FifoBuffer} :
    ReadStatement s ⟨created, copied, userBuf, removed, .unlockAgain buffer⟩ s.unlock
      ⟨created, copied, userBuf, removed, .copyToUser buffer⟩
  | copyToUser {created : Bool} {copied : CopiedBytes} {userBuf : FifoBuffer}
      {removed : List FifoBuffer} {buffer : FifoBuffer} :
    ReadStatement s ⟨created, copied, userBuf, removed, .copyToUser buffer⟩ s
      ⟨created, copied, buffer.copyTo copied.last userBuf, removed, .returned SUCCESS⟩

theorem hcsr04Read_cases {s s' : Shared} {call call' : ReadCall}
    (h : hcsr04Read call s = some (s', call')) : ReadStatement s call s' call' := by
  obtain ⟨created, copied, userBuf, removed, pc⟩ := call
  cases pc with
  | lock =>
    obtain ⟨s₁, hlock, h⟩ := Option.map_eq_some_iff.mp h
    obtain ⟨rfl, rfl⟩ := Prod.mk.inj h
    exact .lock hlock
  | fifoRead pc =>
    cases pc with
    | returned buffer =>
      obtain ⟨rfl, rfl⟩ := Prod.mk.inj (Option.some.inj h)
      exact .unlock
    | _ =>
      simp only [hcsr04Read] at h
      obtain ⟨⟨device, pc₁, removed₁⟩, hstep, h⟩ := Option.map_eq_some_iff.mp h
      obtain ⟨rfl, rfl⟩ := Prod.mk.inj h
      exact .fifoRead hstep
  | testEmpty buffer =>
    obtain ⟨rfl, rfl⟩ := Prod.mk.inj (Option.some.inj h)
    exact .testEmpty
  | testConfigured buffer =>
    obtain ⟨rfl, rfl⟩ := Prod.mk.inj (Option.some.inj h)
    exact .testConfigured
  | testInProgress buffer =>
    obtain ⟨rfl, rfl⟩ := Prod.mk.inj (Option.some.inj h)
    exact .testInProgress
  | initiating buffer pc =>
    cases pc with
    | returned ret =>
      simp only [hcsr04Read] at h
      split at h
      next hret =>
        subst hret
        obtain ⟨rfl, rfl⟩ := Prod.mk.inj (Option.some.inj h)
        exact .initiated
      next hret =>
        obtain ⟨s₁, hlock, h⟩ := Option.map_eq_some_iff.mp h
        obtain ⟨rfl, rfl⟩ := Prod.mk.inj h
        exact .refused hret hlock
    | lock | kthreadRun | unlock =>
      simp only [hcsr04Read] at h
      obtain ⟨⟨s₁, pc₁⟩, hinitiate, h⟩ := Option.map_eq_some_iff.mp h
      obtain ⟨rfl, rfl⟩ := Prod.mk.inj h
      exact .initiating (initiateMeasurement_cases hinitiate)
  | lockAgain buffer =>
    obtain ⟨s₁, hlock, h⟩ := Option.map_eq_some_iff.mp h
    obtain ⟨rfl, rfl⟩ := Prod.mk.inj h
    exact .lockAgain hlock
  | fifoReadAgain buffer pc =>
    cases pc with
    | returned second =>
      obtain ⟨rfl, rfl⟩ := Prod.mk.inj (Option.some.inj h)
      exact .copySecond
    | _ =>
      simp only [hcsr04Read] at h
      obtain ⟨⟨device, pc₁, removed₁⟩, hstep, h⟩ := Option.map_eq_some_iff.mp h
      obtain ⟨rfl, rfl⟩ := Prod.mk.inj h
      exact .fifoReadAgain hstep
  | unlockAgain buffer =>
    obtain ⟨rfl, rfl⟩ := Prod.mk.inj (Option.some.inj h)
    exact .unlockAgain
  | copyToUser buffer =>
    obtain ⟨rfl, rfl⟩ := Prod.mk.inj (Option.some.inj h)
    exact .copyToUser
  | returned => cases h

/-! ## Measurements -/

inductive MeasureStatement (env : KernelEnv) (s : Shared) :
    Measurement → Shared → Measurement → Prop
  | lock {tsc : UInt64} {s' : Shared} (hlock : s.lock = some s') :
    MeasureStatement env s ⟨tsc, .lock⟩ s' ⟨tsc, .start⟩
  | start {tsc : UInt64} :
    MeasureStatement env s ⟨tsc, .start⟩ s ⟨tsc, .loop 0 (s.device.m + 2)⟩
  | up {tsc : UInt64} {samplesCollected totalSamples : Int32}
      (hmore : samplesCollected < totalSamples) :
    MeasureStatement env s ⟨tsc, .loop samplesCollected totalSamples⟩
      (s.setDevice { s.device with readLock := s.device.readLock + 1 })
      ⟨tsc, .triggerHigh samplesCollected totalSamples⟩
  | done {tsc : UInt64} {samplesCollected totalSamples : Int32}
      (hdone : ¬ samplesCollected < totalSamples) :
    MeasureStatement env s ⟨tsc, .loop samplesCollected totalSamples⟩ s ⟨tsc, .average⟩
  | triggerHigh {tsc : UInt64} {samplesCollected totalSamples : Int32} :
    MeasureStatement env s ⟨tsc, .triggerHigh samplesCollected totalSamples⟩
      { s with calls := (pinConfig env s.device.irqData.irqTriggerPin 1 true false s.calls).1 }
      ⟨tsc, .triggerLow samplesCollected totalSamples⟩
  | triggerLow {tsc : UInt64} {samplesCollected totalSamples : Int32} :
    MeasureStatement env s ⟨tsc, .triggerLow samplesCollected totalSamples⟩
      { s with calls := (pinConfig env s.device.irqData.irqTriggerPin 1 false false s.calls).1 }
      ⟨tsc, .loop (samplesCollected + 1) totalSamples⟩
  | trap {tsc : UInt64} (haverage : averageDistance s.device.irqData = none) :
    MeasureStatement env s ⟨tsc, .average⟩ s ⟨tsc, .died⟩
  | average {tsc : UInt64} {distance : Int32}
      (haverage : averageDistance s.device.irqData = some distance) :
    MeasureStatement env s ⟨tsc, .average⟩ s ⟨tsc, .fifoWrite ⟨distance, tsc⟩ .stepForward⟩
  | fifoWrite {tsc : UInt64} {buffer : FifoBuffer} {pc pc' : FifoWritePc} {device : Hcsr04Device}
      (hstep : fifoWriteStep s.device buffer pc = some (device, pc')) :
    MeasureStatement env s ⟨tsc, .fifoWrite buffer pc⟩ (s.setDevice device)
      ⟨tsc, .fifoWrite buffer pc'⟩
  | clearInProgress {tsc : UInt64} {buffer : FifoBuffer} :
    MeasureStatement env s ⟨tsc, .fifoWrite buffer .returned⟩
      (s.setDevice { s.device with measurementInProgress := 0 }) ⟨tsc, .unlock⟩
  | unlock {tsc : UInt64} : MeasureStatement env s ⟨tsc, .unlock⟩ s.unlock ⟨tsc, .exited⟩

theorem hcsr04ThreadWrite_cases {env : KernelEnv} {s s' : Shared} {thread thread' : Measurement}
    (h : hcsr04ThreadWrite env thread s = some (s', thread')) :
    MeasureStatement env s thread s' thread' := by
  obtain ⟨tsc, pc⟩ := thread
  cases pc with
  | lock =>
    obtain ⟨s₁, hlock, h⟩ := Option.map_eq_some_iff.mp h
    obtain ⟨rfl, rfl⟩ := Prod.mk.inj h
    exact .lock hlock
  | start =>
    obtain ⟨rfl, rfl⟩ := Prod.mk.inj (Option.some.inj h)
    exact .start
  | loop samplesCollected totalSamples =>
    simp only [hcsr04ThreadWrite] at h
    split at h
    next hmore =>
      obtain ⟨rfl, rfl⟩ := Prod.mk.inj (Option.some.inj h)
      exact .up hmore
    next hdone =>
      obtain ⟨rfl, rfl⟩ := Prod.mk.inj (Option.some.inj h)
      exact .done hdone
  | triggerHigh =>
    obtain ⟨rfl, rfl⟩ := Prod.mk.inj (Option.some.inj h)
    exact .triggerHigh
  | triggerLow =>
    obtain ⟨rfl, rfl⟩ := Prod.mk.inj (Option.some.inj h)
    exact .triggerLow
  | average =>
    simp only [hcsr04ThreadWrite] at h
    split at h
    next haverage =>
      obtain ⟨rfl, rfl⟩ := Prod.mk.inj (Option.some.inj h)
      exact .trap haverage
    next haverage =>
      obtain ⟨rfl, rfl⟩ := Prod.mk.inj (Option.some.inj h)
      exact .average haverage
  | fifoWrite buffer pc =>
    cases pc with
    | returned =>
      obtain ⟨rfl, rfl⟩ := Prod.mk.inj (Option.some.inj h)
      exact .clearInProgress
    | stepForward | writeDistance | writeTsc =>
      simp only [hcsr04ThreadWrite] at h
      obtain ⟨⟨device, pc₁⟩, hstep, h⟩ := Option.map_eq_some_iff.mp h
      obtain ⟨rfl, rfl⟩ := Prod.mk.inj h
      exact .fifoWrite hstep
  | unlock =>
    obtain ⟨rfl, rfl⟩ := Prod.mk.inj (Option.some.inj h)
    exact .unlock
  | exited | died => cases h

/-! ## Interrupts -/

inductive IrqStatement (s : Shared) : Irq → Shared → Irq → Prop
  | rising {irqTime : UInt64} (hrising : s.device.irqData.irqEdge = 0) :
    IrqStatement s ⟨irqTime, .edge⟩
      (s.setDevice { s.device with
        irqData := { s.device.irqData with risingEdgeTime := irqTime, irqEdge := 1 } })
      ⟨irqTime, .handled⟩
  | falling {irqTime : UInt64} (hfalling : s.device.irqData.irqEdge = 1) :
    IrqStatement s ⟨irqTime, .edge⟩
      (s.setDevice { s.device with
        irqData := countSample { s.device.irqData with fallingEdgeTime := irqTime, irqEdge := 0 }
          (distanceOf s.device.irqData.risingEdgeTime irqTime) })
      ⟨irqTime, .down⟩
  | ignored {irqTime : UInt64} (hrising : s.device.irqData.irqEdge ≠ 0)
      (hfalling : s.device.irqData.irqEdge ≠ 1) :
    IrqStatement s ⟨irqTime, .edge⟩ s ⟨irqTime, .handled⟩
  | down {irqTime : UInt64} (hlock : s.device.readLock ≠ 0) :
    IrqStatement s ⟨irqTime, .down⟩
      (s.setDevice { s.device with readLock := s.device.readLock - 1 }) ⟨irqTime, .handled⟩

theorem irqHandler_cases {s s' : Shared} {irq irq' : Irq}
    (h : irqHandler irq s = some (s', irq')) : IrqStatement s irq s' irq' := by
  obtain ⟨irqTime, pc⟩ := irq
  cases pc with
  | edge =>
    simp only [irqHandler] at h
    split at h
    next hrising =>
      obtain ⟨rfl, rfl⟩ := Prod.mk.inj (Option.some.inj h)
      exact .rising hrising
    next hrising =>
      split at h
      next hfalling =>
        obtain ⟨rfl, rfl⟩ := Prod.mk.inj (Option.some.inj h)
        exact .falling hfalling
      next hfalling =>
        obtain ⟨rfl, rfl⟩ := Prod.mk.inj (Option.some.inj h)
        exact .ignored hrising hfalling
  | down =>
    simp only [irqHandler] at h
    split at h
    next => cases h
    next hlock =>
      obtain ⟨rfl, rfl⟩ := Prod.mk.inj (Option.some.inj h)
      exact .down hlock
  | handled => cases h

/-! ## Starts -/

inductive StartStatement (s : Shared) : Thread → Shared → Prop
  | read {created : Bool} {copied : CopiedBytes} {userBuf : FifoBuffer} :
    StartStatement s (.read ⟨created, copied, userBuf, [], .lock⟩) s
  | write {operand : Int32} {created : Bool} :
    StartStatement s (.write ⟨operand, created, .testConfigured⟩) s
  | measure {tsc : UInt64} (hcreated : s.created ≠ 0) :
    StartStatement s (.measure ⟨tsc, .lock⟩) { s with created := s.created - 1 }
  | irq {irqTime : UInt64} (hclaimed : s.device.irqData.irqNo ≠ NO_VALUE) :
    StartStatement s (.irq ⟨irqTime, .edge⟩) s

theorem threadStart_cases {s s' : Shared} {t : Thread} (h : threadStart t s = some s') :
    StartStatement s t s' := by
  unfold threadStart at h
  split at h
  · obtain rfl := Option.some.inj h
    exact .read
  · obtain rfl := Option.some.inj h
    exact .write
  · split at h
    next => cases h
    next hcreated =>
      obtain rfl := Option.some.inj h
      exact .measure hcreated
  · split at h
    next => cases h
    next hclaimed =>
      obtain rfl := Option.some.inj h
      exact .irq hclaimed
  · cases h

end KernelDrivers.Hcsr04
