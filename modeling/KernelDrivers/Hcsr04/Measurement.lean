import KernelDrivers.Lib.Pool
import KernelDrivers.Lib.Words
import KernelDrivers.Hcsr04.Pins

/-!
# Reads, writes and measurements of one device

A read, a write, a measurement thread and an interrupt are threads that share the device and
take one statement at a time. The spin lock excludes; a thread that waits for it, or for the
semaphore, cannot step. The user's operands can be read, and memory is not exhausted. A copy to
the user copies as many bytes as the user's buffer takes.
-/

namespace KernelDrivers.Hcsr04
open Lib

/-- The device, the kernel threads that were created and did not start yet, and the calls made to
the kernel. -/
structure Shared where
  device : Hcsr04Device
  created : Nat
  calls : List KernelCall

namespace Shared

def setDevice (s : Shared) (device : Hcsr04Device) : Shared := { s with device }

/-- `spin_lock_irqsave` -/
def lock (s : Shared) : Option Shared :=
  if s.device.bufferLock then none else some (s.setDevice { s.device with bufferLock := true })

/-- `spin_unlock_irqrestore` -/
def unlock (s : Shared) : Shared := s.setDevice { s.device with bufferLock := false }

end Shared

/-! ## The sample buffer, statement by statement -/

/-- The slot at the buffer index. -/
def currentSlot (device : Hcsr04Device) : Option FifoBuffer :=
  device.buffer.load device.bufferIndex.toInt

/-- An assignment to fields of a slot. -/
def assignSlot (device : Hcsr04Device) (index : Int32) (f : FifoBuffer → FifoBuffer) :
    Option Hcsr04Device :=
  (device.buffer.load index.toInt).bind fun slot =>
    (device.buffer.store index.toInt (f slot)).map fun buffer => { device with buffer }

inductive FifoReadPc where
  | testEmpty
  | copyDistance
  | copyTsc (distance : Int32)
  | eraseDistance (buffer : FifoBuffer)
  | eraseTsc (buffer : FifoBuffer)
  | stepBack (buffer : FifoBuffer)
  | wrap (buffer : FifoBuffer)
  | returned (buffer : FifoBuffer)
  deriving DecidableEq

/-- Answers with the sample removed: the one in the slot whose distance is erased. -/
def fifoReadStep (device : Hcsr04Device) :
    FifoReadPc → Option (Hcsr04Device × FifoReadPc × List FifoBuffer)
  | .testEmpty => (currentSlot device).map fun slot =>
      (device, if slot.tsc = NO_TSC then .returned ⟨BUFFER_EMPTY, 0⟩ else .copyDistance, [])
  | .copyDistance => (currentSlot device).map fun slot => (device, .copyTsc slot.distance, [])
  | .copyTsc distance => (currentSlot device).map fun slot =>
      (device, .eraseDistance ⟨distance, slot.tsc⟩, [])
  | .eraseDistance buffer => (currentSlot device).bind fun slot =>
      (assignSlot device device.bufferIndex fun slot => { slot with distance := NO_VALUE }).map
        fun device => (device, .eraseTsc buffer, if slot.tsc = NO_TSC then [] else [slot])
  | .eraseTsc buffer =>
      (assignSlot device device.bufferIndex fun slot => { slot with tsc := NO_TSC }).map
        fun device => (device, .stepBack buffer, [])
  | .stepBack buffer =>
      some ({ device with bufferIndex := device.bufferIndex - 1 }, .wrap buffer, [])
  | .wrap buffer =>
      some ({ device with
        bufferIndex := if device.bufferIndex < 0 then FIFO_SIZE - 1 else device.bufferIndex },
        .returned buffer, [])
  | .returned _ => none

inductive FifoWritePc where
  | stepForward
  | writeDistance
  | writeTsc
  | returned
  deriving DecidableEq

def fifoWriteStep (device : Hcsr04Device) (buffer : FifoBuffer) :
    FifoWritePc → Option (Hcsr04Device × FifoWritePc)
  | .stepForward =>
      some ({ device with bufferIndex := (device.bufferIndex + 1) % FIFO_SIZE }, .writeDistance)
  | .writeDistance =>
      (assignSlot device device.bufferIndex fun slot =>
        { slot with distance := buffer.distance }).map (·, .writeTsc)
  | .writeTsc =>
      (assignSlot device device.bufferIndex fun slot => { slot with tsc := buffer.tsc }).map
        (·, .returned)
  | .returned => none

/-- The statements of the buffer's functions write to the buffer and its index only. -/
theorem assignSlot_device {device device' : Hcsr04Device} {index : Int32}
    {f : FifoBuffer → FifoBuffer} (h : assignSlot device index f = some device') :
    ∃ buffer, device' = { device with buffer } := by
  obtain ⟨slot, -, h⟩ := Option.bind_eq_some_iff.mp h
  obtain ⟨buffer, -, rfl⟩ := Option.map_eq_some_iff.mp h
  exact ⟨buffer, rfl⟩

theorem fifoReadStep_device {device device' : Hcsr04Device} {pc pc' : FifoReadPc}
    {removed : List FifoBuffer} (h : fifoReadStep device pc = some (device', pc', removed)) :
    ∃ buffer bufferIndex, device' = { device with buffer, bufferIndex } := by
  cases pc with
  | testEmpty | copyDistance | copyTsc =>
    obtain ⟨slot, -, h⟩ := Option.map_eq_some_iff.mp h
    exact ⟨device.buffer, device.bufferIndex, (Prod.mk.inj h).1.symm⟩
  | eraseDistance =>
    obtain ⟨slot, -, h⟩ := Option.bind_eq_some_iff.mp h
    obtain ⟨device₁, hassign, h⟩ := Option.map_eq_some_iff.mp h
    obtain ⟨buffer, rfl⟩ := assignSlot_device hassign
    exact ⟨buffer, device.bufferIndex, (Prod.mk.inj h).1.symm⟩
  | eraseTsc =>
    obtain ⟨device₁, hassign, h⟩ := Option.map_eq_some_iff.mp h
    obtain ⟨buffer, rfl⟩ := assignSlot_device hassign
    exact ⟨buffer, device.bufferIndex, (Prod.mk.inj h).1.symm⟩
  | stepBack | wrap => exact ⟨device.buffer, _, (Prod.mk.inj (Option.some.inj h)).1.symm⟩
  | returned => cases h

theorem fifoWriteStep_device {device device' : Hcsr04Device} {buffer : FifoBuffer}
    {pc pc' : FifoWritePc} (h : fifoWriteStep device buffer pc = some (device', pc')) :
    ∃ buffer bufferIndex, device' = { device with buffer, bufferIndex } := by
  cases pc with
  | stepForward => exact ⟨device.buffer, _, (Prod.mk.inj (Option.some.inj h)).1.symm⟩
  | writeDistance | writeTsc =>
    obtain ⟨device₁, hassign, h⟩ := Option.map_eq_some_iff.mp h
    obtain ⟨buffer, rfl⟩ := assignSlot_device hassign
    exact ⟨buffer, device.bufferIndex, (Prod.mk.inj h).1.symm⟩
  | returned => cases h

/-! ## Interrupts -/

inductive IrqPc where
  | edge
  | down
  | handled
  deriving DecidableEq

/-- An edge of the echo line at `irqTime`. -/
structure Irq where
  irqTime : UInt64
  pc : IrqPc
  deriving DecidableEq

/-- `(int)dist_temp` for the time between two edges. -/
def distanceOf (risingEdgeTime fallingEdgeTime : UInt64) : Int32 :=
  ((fallingEdgeTime - risingEdgeTime) / 23200).toUInt32.toInt32

/-- The falling edge's accounting of a distance. -/
def countSample (irqData : Hcsr04IrqData) (distance : Int32) : Hcsr04IrqData :=
  if distance > 400 then irqData
  else
    let irqData :=
      if distance > irqData.outlierHighest then { irqData with outlierHighest := distance }
      else if distance < irqData.outlierLowest then { irqData with outlierLowest := distance }
      else irqData
    { irqData with
      totalSamples := irqData.totalSamples + 1
      sampleSum := irqData.sampleSum + distance }

/-- The semaphore is taken last, on a falling edge only. -/
def irqHandler (irq : Irq) (s : Shared) : Option (Shared × Irq) :=
  let irqData := s.device.irqData
  match irq.pc with
  | .edge =>
    if irqData.irqEdge = 0 then
      some (s.setDevice { s.device with
        irqData := { irqData with risingEdgeTime := irq.irqTime, irqEdge := 1 } },
        { irq with pc := .handled })
    else if irqData.irqEdge = 1 then
      let irqData := { irqData with fallingEdgeTime := irq.irqTime, irqEdge := 0 }
      let distance := distanceOf irqData.risingEdgeTime irqData.fallingEdgeTime
      some (s.setDevice { s.device with irqData := countSample irqData distance },
        { irq with pc := .down })
    else some (s, { irq with pc := .handled })
  | .down =>
    if s.device.readLock = 0 then none
    else
      some (s.setDevice { s.device with readLock := s.device.readLock - 1 },
        { irq with pc := .handled })
  | .handled => none

/-! ## The measurement thread -/

inductive MeasurePc where
  | lock
  | start
  | loop (samplesCollected totalSamples : Int32)
  | triggerHigh (samplesCollected totalSamples : Int32)
  | triggerLow (samplesCollected totalSamples : Int32)
  | average
  | fifoWrite (buffer : FifoBuffer) (pc : FifoWritePc)
  | unlock
  | exited
  /-- stopped by a trap of the division -/
  | died
  deriving DecidableEq

/-- A thread that reads `tsc` from the time stamp counter. -/
structure Measurement where
  tsc : UInt64
  pc : MeasurePc
  deriving DecidableEq

/-- The division by the number of samples traps on 0 and when the quotient overflows. -/
def averageDistance (irqData : Hcsr04IrqData) : Option Int32 :=
  if irqData.totalSamples = 0 ∨ irqData.sampleSum = Int32.minValue ∧ irqData.totalSamples = -1 then
    none
  else some (irqData.sampleSum / irqData.totalSamples)

def hcsr04ThreadWrite (env : KernelEnv) (thread : Measurement) (s : Shared) :
    Option (Shared × Measurement) :=
  match thread.pc with
  | .lock => s.lock.map (·, { thread with pc := .start })
  | .start => some (s, { thread with pc := .loop 0 (s.device.m + 2) })
  | .loop samplesCollected totalSamples =>
    if samplesCollected < totalSamples then
      some (s.setDevice { s.device with readLock := s.device.readLock + 1 },
        { thread with pc := .triggerHigh samplesCollected totalSamples })
    else some (s, { thread with pc := .average })
  | .triggerHigh samplesCollected totalSamples =>
    some ({ s with
      calls := (pinConfig env s.device.irqData.irqTriggerPin 1 true false s.calls).1 },
      { thread with pc := .triggerLow samplesCollected totalSamples })
  | .triggerLow samplesCollected totalSamples =>
    some ({ s with
      calls := (pinConfig env s.device.irqData.irqTriggerPin 1 false false s.calls).1 },
      { thread with pc := .loop (samplesCollected + 1) totalSamples })
  | .average =>
    match averageDistance s.device.irqData with
    | none => some (s, { thread with pc := .died })
    | some distance =>
      some (s, { thread with pc := .fifoWrite ⟨distance, thread.tsc⟩ .stepForward })
  | .fifoWrite _ .returned =>
    some (s.setDevice { s.device with measurementInProgress := 0 }, { thread with pc := .unlock })
  | .fifoWrite buffer pc => (fifoWriteStep s.device buffer pc).map fun (device, pc) =>
    (s.setDevice device, { thread with pc := .fifoWrite buffer pc })
  | .unlock => some (s.unlock, { thread with pc := .exited })
  | .exited => none
  | .died => none

inductive InitiatePc where
  | lock
  | kthreadRun
  | unlock
  | returned (ret : Int32)
  deriving DecidableEq

/-- When the thread cannot be created, the call returns without giving the lock back. -/
def initiateMeasurement (created : Bool) (s : Shared) : InitiatePc → Option (Shared × InitiatePc)
  | .lock => s.lock.map (·, .kthreadRun)
  | .kthreadRun =>
    if created then some ({ s with created := s.created + 1 }, .unlock) else some (s, .returned 1)
  | .unlock => some (s.unlock, .returned 0)
  | .returned _ => none

/-! ## The calls of the device file -/

inductive WritePc where
  | testConfigured
  | copyFromUser
  | eraseDistance (bufferIndex : Int32)
  | eraseTsc (bufferIndex : Int32)
  | testInProgress
  | setInProgress
  | initiating (pc : InitiatePc)
  | returned (ret : Int32)
  deriving DecidableEq

/-- A call with its operand in the user's buffer. `created` tells whether a kernel thread can be
created. -/
structure WriteCall where
  bufferOperation : Int32
  created : Bool
  pc : WritePc
  deriving DecidableEq

/-- The buffer is cleared without the lock. -/
def hcsr04Write (call : WriteCall) (s : Shared) : Option (Shared × WriteCall) :=
  match call.pc with
  | .testConfigured =>
    some (s, { call with
      pc :=
        if s.device.arePinsConfigured = 0 ∨ s.device.areMDeltaConfigured = 0 then .returned EINVAL
        else .copyFromUser })
  | .copyFromUser =>
    some (s, { call with
      pc := if call.bufferOperation ≠ 0 then .eraseDistance 0 else .testInProgress })
  | .eraseDistance bufferIndex =>
    if bufferIndex < FIFO_SIZE then
      (assignSlot s.device bufferIndex fun slot => { slot with distance := NO_VALUE }).map
        fun device => (s.setDevice device, { call with pc := .eraseTsc bufferIndex })
    else some (s.setDevice { s.device with bufferIndex := 0 }, { call with pc := .testInProgress })
  | .eraseTsc bufferIndex =>
    (assignSlot s.device bufferIndex fun slot => { slot with tsc := NO_TSC }).map
      fun device => (s.setDevice device, { call with pc := .eraseDistance (bufferIndex + 1) })
  | .testInProgress =>
    some (s, { call with
      pc := if s.device.measurementInProgress ≠ 0 then .returned EINVAL else .setInProgress })
  | .setInProgress =>
    some (s.setDevice { s.device with measurementInProgress := 1 },
      { call with pc := .initiating .lock })
  | .initiating (.returned ret) =>
    some (s, { call with pc := .returned (if ret = 0 then EINVAL else SUCCESS) })
  | .initiating pc => (initiateMeasurement call.created s pc).map fun (s, pc) =>
    (s, { call with pc := .initiating pc })
  | .returned _ => none

inductive ReadPc where
  | lock
  | fifoRead (pc : FifoReadPc)
  | testEmpty (buffer : FifoBuffer)
  | testConfigured (buffer : FifoBuffer)
  | testInProgress (buffer : FifoBuffer)
  | initiating (buffer : FifoBuffer) (pc : InitiatePc)
  | lockAgain (buffer : FifoBuffer)
  | fifoReadAgain (buffer : FifoBuffer) (pc : FifoReadPc)
  | unlockAgain (buffer : FifoBuffer)
  | copyToUser (buffer : FifoBuffer)
  | returned (ret : Int32)
  deriving DecidableEq

/-- `sizeof(struct fifo_buffer)` on the target. -/
def sizeofFifoBuffer : Nat := 12

/-- The user's buffer after the first `copied` bytes of a sample were copied to it. The distance
has the bytes 0 to 3, the time stamp the bytes 4 to 11. -/
def FifoBuffer.copyTo (buffer : FifoBuffer) (copied : Nat) (userBuf : FifoBuffer) :
    FifoBuffer where
  distance := (UInt32.ofNat (copyLow copied buffer.distance.toUInt32.toNat
    userBuf.distance.toUInt32.toNat)).toInt32
  tsc := UInt64.ofNat (copyLow (copied - 4) buffer.tsc.toNat userBuf.tsc.toNat)

theorem FifoBuffer.copyTo_eq {copied : Nat} (h : sizeofFifoBuffer ≤ copied)
    (buffer userBuf : FifoBuffer) : buffer.copyTo copied userBuf = buffer := by
  have h : 12 ≤ copied := h
  have hdistance := copyLow_eq (n := copied) (k := 4) (by omega) buffer.distance.toUInt32.toNat_lt
    userBuf.distance.toUInt32.toNat_lt
  have htsc := copyLow_eq (n := copied - 4) (k := 8) (by omega) buffer.tsc.toNat_lt
    userBuf.tsc.toNat_lt
  rw [FifoBuffer.copyTo, hdistance, htsc, UInt32.ofNat_toNat, Int32.toInt32_toUInt32,
    UInt64.ofNat_toNat]

/-- How many bytes a read copies: in the `copy_to_user` behind its second `fifo_read`, and in its
last one. -/
structure CopiedBytes where
  second : Nat
  last : Nat
  deriving DecidableEq

/-- A call with the contents of the user's buffer and the samples it removed from the device's. -/
structure ReadCall where
  created : Bool
  copied : CopiedBytes
  userBuf : FifoBuffer
  removed : List FifoBuffer
  pc : ReadPc
  deriving DecidableEq

/-- Past a failed `initiate_measurement` the next statement takes the lock. The results of the
copies are ignored. -/
def hcsr04Read (call : ReadCall) (s : Shared) : Option (Shared × ReadCall) :=
  match call.pc with
  | .lock => s.lock.map (·, { call with pc := .fifoRead .testEmpty })
  | .fifoRead (.returned buffer) => some (s.unlock, { call with pc := .testEmpty buffer })
  | .fifoRead pc => (fifoReadStep s.device pc).map fun (device, pc, removed) =>
    (s.setDevice device, { call with pc := .fifoRead pc, removed := call.removed ++ removed })
  | .testEmpty buffer =>
    some (s, { call with
      pc := if buffer.distance = BUFFER_EMPTY then .testConfigured buffer else .copyToUser buffer })
  | .testConfigured buffer =>
    some (s, { call with
      pc :=
        if s.device.arePinsConfigured = 0 ∨ s.device.areMDeltaConfigured = 0 then .returned EINVAL
        else .testInProgress buffer })
  | .testInProgress buffer =>
    some (s, { call with
      pc :=
        if s.device.measurementInProgress ≠ 0 then .lockAgain buffer
        else .initiating buffer .lock })
  | .initiating buffer (.returned ret) =>
    if ret = 0 then some (s, { call with pc := .returned EINVAL })
    else s.lock.map (·, { call with pc := .fifoReadAgain buffer .testEmpty })
  | .initiating buffer pc => (initiateMeasurement call.created s pc).map fun (s, pc) =>
    (s, { call with pc := .initiating buffer pc })
  | .lockAgain buffer => s.lock.map (·, { call with pc := .fifoReadAgain buffer .testEmpty })
  | .fifoReadAgain buffer (.returned second) =>
    some (s, { call with
      pc := .unlockAgain buffer
      userBuf := second.copyTo call.copied.second call.userBuf })
  | .fifoReadAgain buffer pc => (fifoReadStep s.device pc).map fun (device, pc, removed) =>
    (s.setDevice device,
      { call with pc := .fifoReadAgain buffer pc, removed := call.removed ++ removed })
  | .unlockAgain buffer => some (s.unlock, { call with pc := .copyToUser buffer })
  | .copyToUser buffer =>
    some (s, { call with
      pc := .returned SUCCESS
      userBuf := buffer.copyTo call.copied.last call.userBuf })
  | .returned _ => none

/-! ## The threads of a device -/

inductive Thread where
  | read (call : ReadCall)
  | write (call : WriteCall)
  | measure (thread : Measurement)
  | irq (irq : Irq)
  deriving DecidableEq

def threadStep (env : KernelEnv) : Thread → Shared → Option (Shared × Thread)
  | .read call, s => (hcsr04Read call s).map fun (s, call) => (s, .read call)
  | .write call, s => (hcsr04Write call s).map fun (s, call) => (s, .write call)
  | .measure thread, s =>
    (hcsr04ThreadWrite env thread s).map fun (s, thread) => (s, .measure thread)
  | .irq irq, s => (irqHandler irq s).map fun (s, irq) => (s, .irq irq)

/-- A step of a thread is a step of its call, its measurement or its interrupt. -/
inductive ThreadStep (env : KernelEnv) (s s' : Shared) : Thread → Thread → Prop
  | read {call call' : ReadCall} (h : hcsr04Read call s = some (s', call')) :
      ThreadStep env s s' (.read call) (.read call')
  | write {call call' : WriteCall} (h : hcsr04Write call s = some (s', call')) :
      ThreadStep env s s' (.write call) (.write call')
  | measure {thread thread' : Measurement}
      (h : hcsr04ThreadWrite env thread s = some (s', thread')) :
      ThreadStep env s s' (.measure thread) (.measure thread')
  | irq {irq irq' : Irq} (h : irqHandler irq s = some (s', irq')) :
      ThreadStep env s s' (.irq irq) (.irq irq')

theorem threadStep_cases {env : KernelEnv} {s s' : Shared} {t t' : Thread}
    (h : threadStep env t s = some (s', t')) : ThreadStep env s s' t t' := by
  cases t
  all_goals
    obtain ⟨⟨s₁, call⟩, hstep, h⟩ := Option.map_eq_some_iff.mp h
    obtain ⟨rfl, rfl⟩ := Prod.mk.inj h
    constructor
    exact hstep

/-- A thread starts at its first statement: a measurement when its kernel thread was created, an
interrupt when it is configured. -/
def threadStart : Thread → Shared → Option Shared
  | .read ⟨_, _, _, [], .lock⟩, s => some s
  | .write ⟨_, _, .testConfigured⟩, s => some s
  | .measure ⟨_, .lock⟩, s =>
    if s.created = 0 then none else some { s with created := s.created - 1 }
  | .irq ⟨_, .edge⟩, s => if s.device.irqData.irqNo = NO_VALUE then none else some s
  | _, _ => none

/-- The moves of a device's threads. -/
abbrev deviceMove (env : KernelEnv) := poolMove (threadStep env) threadStart

/-- The device with no thread at work. -/
def idle (device : Hcsr04Device) : Pool Shared Thread := ⟨⟨device, 0, []⟩, []⟩

/-! ## Moves of single threads, for examples of runs -/

/-- The device of minor 5, opened and configured. -/
def configuredDevice : Hcsr04Device :=
  (afterOps (hcsr04Init (fun _ => blankDevice) fun _ => 0)
    [(5, .openFile), (5, .configPins grantAll 3 2), (5, .setParameters 1 1)]).device 5

def stepsOf (i n : Nat) : List (PoolMove Thread) := List.replicate n (.step i)

/-- A write to its end, as thread `i`. -/
def startMeasurement (i : Nat) : List (PoolMove Thread) :=
  .start (.write ⟨0, true, .testConfigured⟩) :: stepsOf i 8

/-- A measurement to its end, as thread `i`, with the two edges of one echo. -/
def measureOnce (i : Nat) : List (PoolMove Thread) :=
  .start (.measure ⟨7, .lock⟩) :: stepsOf i 3 ++
    .start (.irq ⟨0, .edge⟩) :: stepsOf (i + 1) 1 ++
    .start (.irq ⟨2320000, .edge⟩) :: stepsOf (i + 2) 2 ++ stepsOf i 15

/-- Every copy copies the whole sample. -/
def wholeCopies : CopiedBytes := ⟨sizeofFifoBuffer, sizeofFifoBuffer⟩

/-- A read, as thread `i`, by its first `n` statements. -/
def startRead (i n : Nat) : List (PoolMove Thread) :=
  .start (.read ⟨true, wholeCopies, noSample, [], .lock⟩) :: stepsOf i n

end KernelDrivers.Hcsr04
