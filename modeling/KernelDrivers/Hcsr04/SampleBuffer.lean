import KernelDrivers.Hcsr04.Device
import KernelDrivers.Lib.RingStack
import KernelDrivers.Lib.Run

/-!
# The sample buffer as a bounded stack

The samples neither read nor dropped form a stack in the ring of slots, and an erased or fresh
slot is marked by its time stamp. So the buffer answers as a stack of `FIFO_SIZE` samples that
drops the oldest one when a sample is written to a full stack.
-/

namespace KernelDrivers.Hcsr04
open Lib

/-! ## The abstract stack, newest sample first -/

/-- A write to a full stack drops the oldest sample. -/
def writeUnread (unread : List FifoBuffer) (buffer : FifoBuffer) : List FifoBuffer :=
  if unread.length = 5 then buffer :: unread.dropLast else buffer :: unread

/-- The report of an empty stack. -/
def emptyReport : FifoBuffer := ⟨BUFFER_EMPTY, 0⟩

def unreadOp (unread : List FifoBuffer) : FifoOp → List FifoBuffer × Option FifoBuffer
  | .write buffer => (writeUnread unread buffer, none)
  | .read =>
    match unread with
    | [] => ([], some emptyReport)
    | newest :: older => (older, some newest)

/-- No written sample has the time stamp that marks an erased slot. -/
def Storable (ops : List FifoOp) : Prop := ∀ buffer, .write buffer ∈ ops → buffer.tsc ≠ NO_TSC

theorem writeUnread_eq {unread : List FifoBuffer} (h : unread.length ≤ 5) (buffer : FifoBuffer) :
    writeUnread unread buffer = (buffer :: unread).take 5 := by
  unfold writeUnread
  split
  next hfull => rw [List.take_succ_cons, List.dropLast_eq_take, hfull]
  next hroom => rw [List.take_of_length_le (by rw [List.length_cons]; omega)]

/-! ## The slots -/

abbrev Erased (slot : FifoBuffer) : Prop := slot.tsc = NO_TSC

/-- The buffer holds the stack. -/
structure Holds (device : Hcsr04Device) (top : Fin 5) (unread : List FifoBuffer) : Prop where
  index : device.bufferIndex = Int32.ofNat top
  stack : StackIn Erased device.buffer top unread

theorem index_toInt (top : Fin 5) : (Int32.ofNat top).toInt = (top.val : Int) := by
  revert top
  decide

theorem index_next (top : Fin 5) :
    (Int32.ofNat top + 1) % FIFO_SIZE = Int32.ofNat (top + 1 : Fin 5) := by
  revert top
  decide

theorem index_back (top : Fin 5) :
    (if Int32.ofNat top - 1 < 0 then FIFO_SIZE - 1 else Int32.ofNat top - 1) =
      Int32.ofNat (top - 1 : Fin 5) := by
  revert top
  decide

/-- What a read does, whatever is at the index. -/
theorem fifoRead_eq {device : Hcsr04Device} {top : Fin 5}
    (h : device.bufferIndex = Int32.ofNat top) :
    fifoRead device = if (device.buffer top).tsc = NO_TSC then some (device, emptyReport)
      else some ({ device with
        buffer := Function.update device.buffer top noSample
        bufferIndex := Int32.ofNat (top - 1 : Fin 5) }, device.buffer top) := by
  simp only [fifoRead, h, index_toInt, CArray.load_fin, CArray.store_fin, Option.bind_some,
    Option.map_some, index_back]
  rfl

theorem fifoWrite_eq {device : Hcsr04Device} {top : Fin 5}
    (h : device.bufferIndex = Int32.ofNat top)
    (buffer : FifoBuffer) : fifoWrite device buffer = some ({ device with
      buffer := Function.update device.buffer (top + 1) buffer
      bufferIndex := Int32.ofNat (top + 1 : Fin 5) }, SUCCESS) := by
  simp only [fifoWrite, h, index_next, index_toInt, CArray.store_fin, Option.map_some]

theorem holds_initializeDevice (device : Hcsr04Device) :
    Holds (initializeDevice device) 0 [] where
  index := rfl
  stack := .empty fun _ => rfl

theorem Holds.write {device : Hcsr04Device} {top : Fin 5} {unread : List FifoBuffer}
    (h : Holds device top unread) {buffer : FifoBuffer} (hbuffer : buffer.tsc ≠ NO_TSC) :
    ∃ device', fifoWrite device buffer = some (device', SUCCESS) ∧
      Holds device' (top + 1) (writeUnread unread buffer) := by
  refine ⟨_, fifoWrite_eq h.index buffer, rfl, ?_⟩
  rw [writeUnread_eq h.stack.fits]
  exact h.stack.push hbuffer

theorem Holds.read_empty {device : Hcsr04Device} {top : Fin 5} (h : Holds device top []) :
    fifoRead device = some (device, emptyReport) := by
  have hslot : (device.buffer top).tsc = NO_TSC := h.stack.top_marked
  rw [fifoRead_eq h.index, if_pos hslot]

theorem Holds.read_newest {device : Hcsr04Device} {top : Fin 5} {newest : FifoBuffer}
    {older : List FifoBuffer} (h : Holds device top (newest :: older)) :
    ∃ device', fifoRead device = some (device', newest) ∧ Holds device' (top - 1) older := by
  have hslot : device.buffer top = newest := h.stack.top_eq
  have htsc : ¬ newest.tsc = NO_TSC := h.stack.unmarked newest List.mem_cons_self
  have hread := fifoRead_eq h.index
  rw [hslot, if_neg htsc] at hread
  exact ⟨_, hread, rfl, h.stack.pop rfl⟩

/-- One call acts on the buffer as on the abstract stack. -/
theorem Holds.step {device : Hcsr04Device} {top : Fin 5} {unread : List FifoBuffer}
    (h : Holds device top unread) (op : FifoOp)
    (hop : ∀ buffer, op = .write buffer → buffer.tsc ≠ NO_TSC) :
    ∃ device' top', fifoOp device op = some (device', (unreadOp unread op).2) ∧
      Holds device' top' (unreadOp unread op).1 := by
  cases op with
  | write buffer =>
    obtain ⟨device', hwrite, h'⟩ := h.write (hop buffer rfl)
    exact ⟨device', top + 1, by rw [fifoOp, hwrite]; rfl, h'⟩
  | read =>
    cases unread with
    | nil => exact ⟨device, top, by rw [fifoOp, h.read_empty]; rfl, h⟩
    | cons newest older =>
      obtain ⟨device', hread, h'⟩ := h.read_newest
      exact ⟨device', top - 1, by rw [fifoOp, hread]; rfl, h'⟩

/-- A run of calls answers as the abstract stack does. -/
theorem Holds.run {device : Hcsr04Device} {top : Fin 5} {unread : List FifoBuffer}
    (h : Holds device top unread) {ops : List FifoOp} (hops : Storable ops) :
    ∃ device' top' replies unread', Lib.run fifoOp device ops = some (device', replies) ∧
      Lib.run (fun u op => some (unreadOp u op)) unread ops = some (unread', replies) ∧
      Holds device' top' unread' := by
  induction ops generalizing device top unread with
  | nil => exact ⟨device, top, [], unread, rfl, rfl, h⟩
  | cons op ops ih =>
    obtain ⟨d₁, top₁, hstep, h₁⟩ := h.step op fun buffer hop => hops buffer (by simp [hop])
    obtain ⟨device', top', replies, unread', hrun, hstack, h'⟩ :=
      ih h₁ fun buffer hmem => hops buffer (by simp [hmem])
    refine ⟨device', top', (unreadOp unread op).2 :: replies, unread', ?_, ?_, h'⟩
    · exact run_cons_eq_some.mpr ⟨d₁, _, replies, hstep, hrun, rfl⟩
    · exact run_cons_eq_some.mpr ⟨_, _, replies, rfl, hstack, rfl⟩

/-! ## The stack property -/

/-- From initialisation, every run of calls answers as the bounded stack does. A read that
follows reports an empty buffer exactly when nothing is unread or the newest unread sample looks
like that report, and it leaves the device as it was when nothing is unread. -/
theorem bounded_stack (device : Hcsr04Device) (ops : List FifoOp) (hops : Storable ops) :
    ∃ d replies unread, run fifoOp (initializeDevice device) ops = some (d, replies) ∧
      run (fun u op => some (unreadOp u op)) [] ops = some (unread, replies) ∧
      unread.length ≤ 5 ∧
      ∃ d' sample, fifoRead d = some (d', sample) ∧
        (sample = emptyReport ↔ unread = [] ∨ unread.head? = some emptyReport) ∧
        (unread = [] → d' = d) := by
  obtain ⟨d, top, replies, unread, hrun, hstack, h⟩ :=
    (holds_initializeDevice device).run hops
  refine ⟨d, replies, unread, hrun, hstack, h.stack.fits, ?_⟩
  cases unread with
  | nil => exact ⟨d, emptyReport, h.read_empty, by simp, fun _ => rfl⟩
  | cons newest older =>
    obtain ⟨d', hread, -⟩ := h.read_newest
    exact ⟨d', newest, hread, by simp, nofun⟩

/-- Seven writes into five slots and a read. -/
theorem bounded_stack_overwritten :
    ∃ d replies unread, run fifoOp (initializeDevice blankDevice)
        [.write ⟨1, 1⟩, .write ⟨2, 2⟩, .write ⟨3, 3⟩, .read, .write ⟨4, 4⟩, .write ⟨5, 5⟩,
          .write ⟨6, 6⟩, .write ⟨7, 7⟩, .read] = some (d, replies) ∧
      run (fun u op => some (unreadOp u op)) []
        [.write ⟨1, 1⟩, .write ⟨2, 2⟩, .write ⟨3, 3⟩, .read, .write ⟨4, 4⟩, .write ⟨5, 5⟩,
          .write ⟨6, 6⟩, .write ⟨7, 7⟩, .read] = some (unread, replies) ∧
      unread.length ≤ 5 ∧
      ∃ d' sample, fifoRead d = some (d', sample) ∧
        (sample = emptyReport ↔ unread = [] ∨ unread.head? = some emptyReport) ∧
        (unread = [] → d' = d) :=
  bounded_stack blankDevice _ (by simp [Storable, NO_TSC])

/-- A read after the calls reports an empty buffer exactly when nothing is unread. -/
def ReportsEmptyExactly (device : Hcsr04Device) (ops : List FifoOp) : Prop :=
  ∀ d replies unread replies', run fifoOp (initializeDevice device) ops = some (d, replies) →
    run (fun u op => some (unreadOp u op)) [] ops = some (unread, replies') →
    ∃ d' sample, fifoRead d = some (d', sample) ∧ (sample = emptyReport ↔ unread = [])

/-- A written sample may look like the report of an empty buffer. -/
theorem not_reportsEmptyExactly :
    Storable [.write emptyReport] ∧ ¬ ReportsEmptyExactly blankDevice [.write emptyReport] := by
  refine ⟨by simp [Storable, emptyReport, NO_TSC], fun h => ?_⟩
  have htsc : emptyReport.tsc ≠ NO_TSC := by decide
  obtain ⟨d, hwrite, hd⟩ := (holds_initializeDevice blankDevice).write htsc
  obtain ⟨d', hread, -⟩ := Holds.read_newest (by simpa [writeUnread] using hd)
  have hop : fifoOp (initializeDevice blankDevice) (.write emptyReport) = some (d, none) := by
    rw [fifoOp, hwrite]
    rfl
  obtain ⟨_, sample, hsample, hiff⟩ :=
    h d [none] [emptyReport] [none] (run_singleton _ hop) (run_singleton _ rfl)
  obtain ⟨-, rfl⟩ : _ ∧ emptyReport = sample := by simpa [hread] using hsample
  simp at hiff

end KernelDrivers.Hcsr04
