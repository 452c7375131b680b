import KernelDrivers.Hcsr04.Statements

/-!
# The lock of the sample buffer

Which threads hold the lock, and what a thread without it can do to the sample buffer. Only the
clearing loop of a write touches the buffer without the lock.
-/

namespace KernelDrivers.Hcsr04
open Lib

/-! ## The statements of the buffer's functions -/

/-- Taken one after the other, the statements are `fifo_read`. -/
def finishFifoRead : Nat → Hcsr04Device → FifoReadPc → Option (Hcsr04Device × FifoBuffer)
  | _, device, .returned buffer => some (device, buffer)
  | 0, _, _ => none
  | n + 1, device, pc => (fifoReadStep device pc).bind fun (device, pc, _) =>
      finishFifoRead n device pc

theorem finishFifoRead_eq (device : Hcsr04Device) :
    finishFifoRead 7 device .testEmpty = fifoRead device := by
  rcases CArray.index_cases 5 device.bufferIndex.toInt with ⟨i, hi⟩ | hout
  · by_cases hempty : (device.buffer i).tsc = NO_TSC
    · simp [finishFifoRead, fifoReadStep, fifoRead, currentSlot, hi, CArray.load_fin, hempty]
    · simp [finishFifoRead, fifoReadStep, fifoRead, currentSlot, assignSlot, hi, CArray.load_fin,
        CArray.store_fin, hempty, noSample]
  · simp [finishFifoRead, fifoReadStep, fifoRead, currentSlot, CArray.load_eq_none hout]

def finishFifoWrite : Nat → Hcsr04Device → FifoBuffer → FifoWritePc → Option Hcsr04Device
  | _, device, _, .returned => some device
  | 0, _, _, _ => none
  | n + 1, device, buffer, pc => (fifoWriteStep device buffer pc).bind fun (device, pc) =>
      finishFifoWrite n device buffer pc

theorem finishFifoWrite_eq (device : Hcsr04Device) (buffer : FifoBuffer) :
    finishFifoWrite 3 device buffer .stepForward = (fifoWrite device buffer).map (·.1) := by
  simp only [finishFifoWrite, fifoWriteStep, fifoWrite, assignSlot, Option.bind_some]
  generalize (device.bufferIndex + 1) % FIFO_SIZE = index
  rcases CArray.index_cases 5 index.toInt with ⟨i, hi⟩ | hout
  · simp [finishFifoWrite, fifoWriteStep, assignSlot, hi, CArray.load_fin, CArray.store_fin]
  · simp [CArray.load_eq_none hout, CArray.store_eq_none hout]

/-! ## The lock -/

def Locked (s : Shared) : Prop := s.device.bufferLock = true

def InitiatePc.Holds : InitiatePc → Prop
  | .lock => False
  | .kthreadRun => True
  | .unlock => True
  | .returned ret => ret ≠ 0

/-- A write that has returned holds nothing, even where it left the lock taken. -/
def Thread.Holds : Thread → Prop
  | .read ⟨_, _, _, _, .fifoRead _⟩ => True
  | .read ⟨_, _, _, _, .initiating _ pc⟩ => pc.Holds
  | .read ⟨_, _, _, _, .fifoReadAgain _ _⟩ => True
  | .read ⟨_, _, _, _, .unlockAgain _⟩ => True
  | .read _ => False
  | .write ⟨_, _, .initiating pc⟩ => pc.Holds
  | .write _ => False
  | .measure ⟨_, .lock⟩ => False
  | .measure ⟨_, .exited⟩ => False
  | .measure ⟨_, .died⟩ => False
  | .measure _ => True
  | .irq _ => False

/-- The clearing loop of a write. -/
def Thread.Clears : Thread → Prop
  | .write ⟨_, _, .eraseDistance _⟩ => True
  | .write ⟨_, _, .eraseTsc _⟩ => True
  | _ => False

theorem Shared.lock_eq_some {s s' : Shared} (h : s.lock = some s') :
    ¬ Locked s ∧ s' = s.setDevice { s.device with bufferLock := true } := by
  cases hlocked : s.device.bufferLock <;> simp [Shared.lock, hlocked] at h
  exact ⟨by simp [Locked, hlocked], h.symm⟩

theorem assignSlot_bufferLock {device device' : Hcsr04Device} {index : Int32}
    {f : FifoBuffer → FifoBuffer} (h : assignSlot device index f = some device') :
    device'.bufferLock = device.bufferLock := by
  obtain ⟨buffer, rfl⟩ := assignSlot_device h
  rfl

theorem fifoReadStep_bufferLock {device device' : Hcsr04Device} {pc pc' : FifoReadPc}
    {removed : List FifoBuffer} (h : fifoReadStep device pc = some (device', pc', removed)) :
    device'.bufferLock = device.bufferLock := by
  obtain ⟨buffer, bufferIndex, rfl⟩ := fifoReadStep_device h
  rfl

theorem fifoWriteStep_bufferLock {device device' : Hcsr04Device} {buffer : FifoBuffer}
    {pc pc' : FifoWritePc} (h : fifoWriteStep device buffer pc = some (device', pc')) :
    device'.bufferLock = device.bufferLock := by
  obtain ⟨buffer, bufferIndex, rfl⟩ := fifoWriteStep_device h
  rfl

/-- What a step of a thread does to the lock, and to the buffer when the thread does not hold
the lock. -/
structure Effect (s : Shared) (t : Thread) (s' : Shared) (t' : Thread) : Prop where
  lock : (t.Holds → Locked s) → LockStep Locked Thread.Holds s t s' t'
  buffer : ¬ t.Holds → ¬ t.Clears → currentSlot s'.device = currentSlot s.device

/-- A holder that stays one without touching the lock. -/
theorem Effect.of_holds {s s' : Shared} {t t' : Thread} (ht : t.Holds)
    (hs : s'.device.bufferLock = s.device.bufferLock) : Effect s t s' t' :=
  ⟨fun h => LockStep.keep h (by simp [Locked, hs]) fun _ => ht, fun h => absurd ht h⟩

/-- A thread that works without the lock. -/
theorem Effect.of_not_holds {s s' : Shared} {t t' : Thread} (ht' : ¬ t'.Holds)
    (hs : s'.device.bufferLock = s.device.bufferLock)
    (hbuffer : ¬ t.Clears → currentSlot s'.device = currentSlot s.device) : Effect s t s' t' :=
  ⟨fun h => LockStep.keep h (by simp [Locked, hs]) fun h' => absurd h' ht', fun _ => hbuffer⟩

theorem Effect.take {s s' : Shared} {t t' : Thread} (h : s.lock = some s') : Effect s t s' t' := by
  obtain ⟨hfree, rfl⟩ := Shared.lock_eq_some h
  exact ⟨fun _ => LockStep.take hfree rfl, fun _ _ => rfl⟩

theorem Effect.give {s : Shared} {t t' : Thread} (ht : t.Holds) (ht' : ¬ t'.Holds) :
    Effect s t s.unlock t' :=
  ⟨fun _ => LockStep.give ht ht', fun h => absurd ht h⟩

theorem InitiateStatement.effect {s s' : Shared} {pc pc' : InitiatePc} {created : Bool}
    {t t' : Thread} (h : InitiateStatement created s pc s' pc')
    (ht : t.Holds ↔ pc.Holds) (ht' : t'.Holds ↔ pc'.Holds) : Effect s t s' t' := by
  cases h with
  | lock hlock => exact .take hlock
  | create | refuse => exact .of_holds (ht.mpr trivial) rfl
  | unlock => exact .give (ht.mpr trivial) fun h' => (ht'.mp h') rfl

theorem hcsr04Write_effect {s s' : Shared} {call call' : WriteCall}
    (h : hcsr04Write call s = some (s', call')) :
    Effect s (.write call) s' (.write call') := by
  cases hcsr04Write_cases h with
  | testConfigured | copyFromUser | testInProgress =>
    refine .of_not_holds ?_ rfl fun _ => rfl
    split <;> exact id
  | eraseDistance _ hassign | eraseTsc hassign =>
    exact .of_not_holds id (assignSlot_bufferLock hassign) fun h' => absurd trivial h'
  | resetIndex => exact .of_not_holds id rfl fun h' => absurd trivial h'
  | setInProgress | initiated => exact .of_not_holds id rfl fun _ => rfl
  | initiating hinitiate => exact hinitiate.effect Iff.rfl Iff.rfl

theorem hcsr04Read_effect {s s' : Shared} {call call' : ReadCall}
    (h : hcsr04Read call s = some (s', call')) : Effect s (.read call) s' (.read call') := by
  cases hcsr04Read_cases h with
  | lock hlock | lockAgain hlock | refused _ hlock => exact .take hlock
  | fifoRead hstep | fifoReadAgain hstep =>
    exact .of_holds trivial (fifoReadStep_bufferLock hstep)
  | copySecond => exact .of_holds trivial rfl
  | unlock | unlockAgain => exact .give trivial id
  | testEmpty | testConfigured | testInProgress =>
    refine .of_not_holds ?_ rfl fun _ => rfl
    split <;> exact id
  | initiating hinitiate => exact hinitiate.effect Iff.rfl Iff.rfl
  | initiated | copyToUser => exact .of_not_holds id rfl fun _ => rfl

theorem hcsr04ThreadWrite_effect {env : KernelEnv} {s s' : Shared} {thread thread' : Measurement}
    (h : hcsr04ThreadWrite env thread s = some (s', thread')) :
    Effect s (.measure thread) s' (.measure thread') := by
  cases hcsr04ThreadWrite_cases h with
  | lock hlock => exact .take hlock
  | fifoWrite hstep => exact .of_holds trivial (fifoWriteStep_bufferLock hstep)
  | unlock => exact .give trivial id
  | _ => exact .of_holds trivial rfl

theorem irqHandler_effect {s s' : Shared} {irq irq' : Irq}
    (h : irqHandler irq s = some (s', irq')) : Effect s (.irq irq) s' (.irq irq') := by
  cases irqHandler_cases h with
  | _ => exact .of_not_holds id rfl fun _ => rfl

theorem threadStep_effect {env : KernelEnv} {s s' : Shared} {t t' : Thread}
    (h : threadStep env t s = some (s', t')) : Effect s t s' t' := by
  cases threadStep_cases h with
  | read hstep => exact hcsr04Read_effect hstep
  | write hstep => exact hcsr04Write_effect hstep
  | measure hstep => exact hcsr04ThreadWrite_effect hstep
  | irq hstep => exact irqHandler_effect hstep

/-- A thread starts without the lock and leaves the device as it is. -/
theorem threadStart_effect {s s' : Shared} {t : Thread} (h : threadStart t s = some s') :
    ¬ t.Holds ∧ s'.device = s.device := by
  cases threadStart_cases h with
  | _ => exact ⟨id, rfl⟩

end KernelDrivers.Hcsr04
