import KernelDrivers.Lib.CArray

/-!
# The HC-SR04 device

The data of a device of the misc driver, its initialisation and its sample buffer. A C `int` is
an `Int32` and `uint64_t` is a `UInt64`; `NO_VALUE` stored in a `uint64_t` is `2 ^ 64 - 1`.
-/

namespace KernelDrivers.Hcsr04
open Lib

def SUCCESS : Int32 := 0
def EINVAL : Int32 := 22
def NO_PIN : Int32 := -1
def NO_VALUE : Int32 := -1
def BUFFER_EMPTY : Int32 := -1
def FIFO_SIZE : Int32 := 5
/-- `NO_VALUE` converted to `uint64_t`. -/
def NO_TSC : UInt64 := 0xffffffffffffffff

/-- `struct fifo_buffer`: a measured distance and the time it was measured. -/
structure FifoBuffer where
  distance : Int32
  tsc : UInt64
  deriving DecidableEq, Repr

/-- `struct hcsr04_irq_data` -/
structure Hcsr04IrqData where
  irqNo : Int32
  irqEchoPin : Int32
  irqTriggerPin : Int32
  /-- 0 when the next edge is taken as rising, 1 when it is taken as falling -/
  irqEdge : Int32
  risingEdgeTime : UInt64
  fallingEdgeTime : UInt64
  totalSamples : Int32
  outlierLowest : Int32
  outlierHighest : Int32
  sampleSum : Int32
  deriving DecidableEq, Repr

/-- `struct hcsr04_device`. The name and the thread pointer are left out. -/
structure Hcsr04Device where
  miscMinor : Int32
  irqData : Hcsr04IrqData
  triggerPin : Int32
  echoPin : Int32
  m : Int32
  delta : Int32
  measurementInProgress : Int32
  buffer : CArray 5 FifoBuffer
  bufferIndex : Int32
  /-- the count of the semaphore -/
  readLock : Nat
  /-- the spin lock is taken -/
  bufferLock : Bool
  arePinsConfigured : Int32
  areMDeltaConfigured : Int32

def initialIrqData : Hcsr04IrqData :=
  ⟨NO_VALUE, NO_VALUE, NO_VALUE, 0, 0, 0, 0, 0, 0, 0⟩

/-- An empty slot of the sample buffer. -/
def noSample : FifoBuffer := ⟨NO_VALUE, NO_TSC⟩

def initializeDevice (device : Hcsr04Device) : Hcsr04Device :=
  { device with
    bufferIndex := 0
    triggerPin := NO_PIN
    echoPin := NO_PIN
    m := NO_VALUE
    delta := NO_VALUE
    measurementInProgress := 0
    arePinsConfigured := 0
    areMDeltaConfigured := 0
    readLock := 0
    bufferLock := false
    irqData := initialIrqData
    buffer := fun _ => noSample }

/-- A device that was never initialised. -/
def blankDevice : Hcsr04Device :=
  ⟨0, initialIrqData, 0, 0, 0, 0, 0, fun _ => ⟨0, 0⟩, 0, 0, false, 0, 0⟩

/-! ## The sample buffer -/

/-- The sample read, or the empty report; the slot read is erased and the index steps back. -/
def fifoRead (device : Hcsr04Device) : Option (Hcsr04Device × FifoBuffer) :=
  (device.buffer.load device.bufferIndex.toInt).bind fun slot =>
  if slot.tsc = NO_TSC then some (device, ⟨BUFFER_EMPTY, 0⟩)
  else
    (device.buffer.store device.bufferIndex.toInt noSample).map fun buffer =>
      let bufferIndex := device.bufferIndex - 1
      ({ device with
          buffer
          bufferIndex := if bufferIndex < 0 then FIFO_SIZE - 1 else bufferIndex }, slot)

def fifoWrite (device : Hcsr04Device) (buffer : FifoBuffer) : Option (Hcsr04Device × Int32) :=
  let bufferIndex := (device.bufferIndex + 1) % FIFO_SIZE
  (device.buffer.store bufferIndex.toInt buffer).map fun slots =>
    ({ device with buffer := slots, bufferIndex }, SUCCESS)

/-- A call of the buffer's two functions. -/
inductive FifoOp where
  | write (buffer : FifoBuffer)
  | read

/-- The call's effect, and the sample a read returns. -/
def fifoOp (device : Hcsr04Device) : FifoOp → Option (Hcsr04Device × Option FifoBuffer)
  | .write buffer => (fifoWrite device buffer).map fun (device, _) => (device, none)
  | .read => (fifoRead device).map fun (device, buffer) => (device, some buffer)

end KernelDrivers.Hcsr04
