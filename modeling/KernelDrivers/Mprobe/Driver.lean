import KernelDrivers.Lib.CArray
import KernelDrivers.Lib.Code

/-!
# The Mprobe driver

The device registers a kprobe whose handler stores a record of every hit in a ring buffer, and
a read takes the oldest record. The calls are written statement by statement, since a hit of
the probe may fall between any two of them. The target is i586: a pointer has 4 bytes.

A call that dereferences a bad pointer dies (`Reply.oops`). What allocation, registration and
the copies to the user answer is an argument of the call.
-/

namespace KernelDrivers.Mprobe
open Lib

def SIZE_OF_BUFFER : Int32 := 10
def EINVAL : Int32 := 22
def ENOMEM : Int32 := 12
/-- `sizeof(mprobe_output)`, the size of a pointer. -/
def sizeofMprobeOutput : Nat := 4
def sizeofUserOutput : Nat := 20

inductive Ptr (α : Type) where
  | null
  /-- freed, or never initialised -/
  | wild
  | valid (a : α)

namespace Ptr

variable {α : Type}

def isNull : Ptr α → Bool
  | null => true
  | _ => false

def target? : Ptr α → Option α
  | valid a => some a
  | _ => none

/-- The pointer's value after `kfree` of it. -/
def freed : Ptr α → Ptr α
  | null => null
  | _ => wild

/-- What `kmalloc` returns: a block with some contents, or `NULL`. -/
def ofBlock : Option α → Ptr α
  | some a => valid a
  | none => null

end Ptr

/-! ## Data -/

structure UserOutput where
  kprobeAddr : UInt32
  tsc : UInt64
  pid : Int32
  value : Int32

/-- The bytes of a `user_output`: the address at 0, `tsc` at 4, `pid` at 12, `value` at 16. -/
abbrev Slot := CArray 20 UInt8

/-- Byte `i` of a little-endian number. -/
def byteOf (x i : Nat) : UInt8 := UInt8.ofNat (x >>> (8 * i))

def UserOutput.bytes (u : UserOutput) : Slot := fun i =>
  if i.val < 4 then byteOf u.kprobeAddr.toNat i
  else if i.val < 12 then byteOf u.tsc.toNat (i - 4)
  else if i.val < 16 then byteOf u.pid.toUInt32.toNat (i - 12)
  else byteOf u.value.toUInt32.toNat (i - 16)

/-- `struct mprobe_ring_buffer` -/
structure RingBuffer where
  data : Ptr (CArray 10 Slot)
  head : Int32
  tail : Int32
  count : UInt32
  loss : UInt32

/-- The handler fields of the kprobe always hold the driver's two handlers. -/
structure Kprobe where
  ptr : Nat
  addr : UInt32
  deriving DecidableEq, Repr

structure MprobeState where
  kp : Option Kprobe
  mprobeOutput : Ptr RingBuffer
  /-- the kprobes registered with the kernel -/
  registered : List Kprobe
  /-- the next block `kmalloc` hands out for a kprobe -/
  fresh : Nat

/-- The globals when the module is loaded. -/
def mprobeDriverInit : MprobeState := ⟨none, .null, [], 0⟩

/-- What the caller gets back; a read also leaves bytes in the user's buffer. -/
inductive Reply where
  | returned (ret : Int32)
  | readReturned (ret : Int32) (buf : Slot)
  | oops

/-! ## The handler -/

/-- What the handler captures at a hit, besides the address of the probe. -/
structure Hit where
  tsc : UInt64
  pid : Int32
  value : Int32

/-- The ring buffer part of the handler. The copy has the size of the pointer
`mprobe_output`. -/
def RingBuffer.storeRecord (b : RingBuffer) (probeData : UserOutput) : Option RingBuffer :=
  match b.data with
  | .null => some b
  | .wild => none
  | .valid data =>
    (data.load b.tail.toInt).bind fun slot =>
    (data.store b.tail.toInt (slot.memcpy probeData.bytes sizeofMprobeOutput)).map fun data =>
      let b := { b with data := .valid data, tail := (b.tail + 1) % SIZE_OF_BUFFER }
      if b.tail = b.head then { b with loss := b.loss + 1 } else { b with count := b.count + 1 }

/-- `mprobe_output` is dereferenced without a check. -/
def mprobePreHandler (p : Kprobe) (hit : Hit) (s : MprobeState) :
    Option (MprobeState × Int32) :=
  s.mprobeOutput.target?.bind fun b =>
    (b.storeRecord ⟨p.addr, hit.tsc, hit.pid, hit.value⟩).map fun b =>
      ({ s with mprobeOutput := .valid b }, 0)

/-! ## The calls -/

abbrev Body := Code MprobeState Reply

/-- A statement through `mprobe_output`; what follows may use the fields it had. -/
def throughOutput (f : RingBuffer → RingBuffer) (k : RingBuffer → Body) : Body :=
  .act (fun s => some (match s.mprobeOutput with
      | .valid b => { s with mprobeOutput := .valid (f b) }
      | _ => s))
    fun s => match s.mprobeOutput with
      | .valid b => k b
      | _ => .ret .oops

def setOutput (f : RingBuffer → RingBuffer) (k : Body) : Body := throughOutput f fun _ => k

theorem exec_throughOutput (f : RingBuffer → RingBuffer) (k : RingBuffer → Body)
    (s : MprobeState) : (throughOutput f k).exec s =
      match s.mprobeOutput with
      | .valid b => (k b).exec { s with mprobeOutput := .valid (f b) }
      | _ => some (s, .oops) := by
  obtain ⟨kp, _ | _ | _, registered, fresh⟩ := s <;> rfl

/-- `outputBlock` and `dataBlock` are what the two allocations return. -/
def mprobeDeviceOpen (outputBlock : Option RingBuffer) (dataBlock : Option (CArray 10 Slot)) :
    Body :=
  .assign (fun s => { s with kp := none }) <|
  .assign (fun s => { s with mprobeOutput := .null }) <|
  .assign (fun s => { s with mprobeOutput := .ofBlock outputBlock }) <|
  .test (fun s => s.mprobeOutput.isNull) (.ret (.returned (-ENOMEM))) <|
  throughOutput (fun b => { b with data := .ofBlock dataBlock }) fun _ =>
  throughOutput id fun b =>
  if b.data.isNull then .ret (.returned (-ENOMEM)) else
  setOutput (fun b => { b with head := 0 }) <|
  setOutput (fun b => { b with tail := 0 }) <|
  setOutput (fun b => { b with count := 0 }) <|
  setOutput (fun b => { b with loss := 0 }) <|
  .ret (.returned 0)

/-- `if(kp != NULL) { unregister_kprobe(kp); kfree(kp); kp = NULL; }` -/
def clearKp (k : Body) : Body :=
  .test (fun s => s.kp.isSome)
    (.assign (fun s => { s with registered := s.registered.filter fun p => s.kp ≠ some p }) <|
     .assign (fun s => { s with kp := none }) k)
    k

/-- The two blocks with which the write, the ioctl and the release begin. -/
def clearOutputAndKp (k : Body) : Body :=
  .test (fun s => !s.mprobeOutput.isNull)
    (setOutput (fun b => { b with data := b.data.freed }) <|
     .assign (fun s => { s with mprobeOutput := s.mprobeOutput.freed }) <|
     .assign (fun s => { s with mprobeOutput := .null }) <|
     clearKp k)
    (clearKp k)

def mprobeDeviceRelease : Body := clearOutputAndKp (.ret (.returned 0))

def mprobeDeviceUnregister : Body := clearOutputAndKp (.ret (.returned 0))

/-- The copy of the error code, which both failing ends of the read make. -/
def copyResult (buf : Slot) (copiedResult : Nat) : Reply :=
  .readReturned (-EINVAL) (buf.memcpy (fun _ => 0xff) (min copiedResult 4))

/-- `copied` is the number of bytes `copy_to_user` copies of the slot, `copiedResult` of the
error code. -/
def mprobeDeviceRead (buf : Slot) (copied copiedResult : Nat) : Body :=
  .test (fun s => s.mprobeOutput.isNull) (.ret (copyResult buf copiedResult)) <|
  throughOutput id fun b =>
  if b.count < 1 then .ret (copyResult buf copiedResult) else
  throughOutput id fun b =>
  let counter := b.head
  throughOutput id fun b =>
  match b.data.target?.bind fun data => data.load counter.toInt with
  | none => .ret .oops
  | some slot =>
    if copied < sizeofUserOutput then .ret (copyResult (buf.memcpy slot copied) copiedResult)
    else
      setOutput (fun b => { b with head := (b.head + 1) % SIZE_OF_BUFFER }) <|
      .ret (.readReturned (Int32.ofNat sizeofUserOutput) (buf.memcpy slot copied))

/-- `lookup` is the address of `ht530_drv_driver_write`, `kpBlock` tells whether the kprobe is
allocated (`memset` of a null pointer otherwise), `res` is the answer of `register_kprobe`. -/
def mprobeDeviceWrite (lookup funcOffset : UInt32) (kpBlock : Bool) (res : Int32) : Body :=
  clearOutputAndKp <|
  .assign (fun s =>
    if kpBlock then { s with kp := some ⟨s.fresh, 0⟩, fresh := s.fresh + 1 }
    else { s with kp := none }) <|
  if !kpBlock then .ret .oops else
  .assign (fun s => { s with kp := s.kp.map fun p => { p with addr := lookup + funcOffset } }) <|
  .assign (fun s => if res < 0 then s else { s with registered := s.kp.toList ++ s.registered }) <|
  .ret (.returned 0)

inductive Call where
  | openFile (outputBlock : Option RingBuffer) (dataBlock : Option (CArray 10 Slot))
  | readFile (buf : Slot) (copied copiedResult : Nat)
  | writeFile (lookup funcOffset : UInt32) (kpBlock : Bool) (res : Int32)
  | ioctl
  | releaseFile

def Call.body : Call → Body
  | .openFile outputBlock dataBlock => mprobeDeviceOpen outputBlock dataBlock
  | .readFile buf copied copiedResult => mprobeDeviceRead buf copied copiedResult
  | .writeFile lookup funcOffset kpBlock res => mprobeDeviceWrite lookup funcOffset kpBlock res
  | .ioctl => mprobeDeviceUnregister
  | .releaseFile => mprobeDeviceRelease

end KernelDrivers.Mprobe
