import KernelDrivers.Lib.Ring
import KernelDrivers.Mprobe.Driver

/-!
# The order of the records read

Hits fill the slots of the buffer in turn, and reads take them in turn. As long as every read
comes while an unread record is still in its slot, the reads return what the hits stored, in
the same order.
-/

namespace KernelDrivers.Mprobe
open Lib

/-- Hits of the probe and reads of the device, each running to its end. -/
inductive RingOp where
  | hit (p : Kprobe) (hit : Hit)
  | read (buf : Slot) (copiedResult : Nat)

/-- A hit leaves contents in the slot that was the tail; a read answers its caller. -/
inductive RingReply where
  | left (slot : Slot)
  | answered (reply : Reply)

/-- The contents of the slot at an index. -/
def MprobeState.slotAt (s : MprobeState) (i : Int32) : Option Slot :=
  s.mprobeOutput.target?.bind fun b => b.data.target?.bind fun data => data.load i.toInt

/-- `copy_to_user` copies the whole record. -/
def ringOp (s : MprobeState) : RingOp → Option (MprobeState × RingReply)
  | .hit p hit =>
    s.mprobeOutput.target?.bind fun b =>
    (mprobePreHandler p hit s).bind fun (s', _) =>
    (s'.slotAt b.tail).map fun slot => (s', .left slot)
  | .read buf copiedResult =>
    ((mprobeDeviceRead buf sizeofUserOutput copiedResult).exec s).map fun (s', reply) =>
      (s', .answered reply)

/-- After `h` hits and `r` reads, every read comes when `r < h ≤ r + SIZE_OF_BUFFER`. -/
def InWindow : Nat → Nat → List RingOp → Prop
  | _, _, [] => True
  | h, r, .hit _ _ :: ops => InWindow (h + 1) r ops
  | h, r, .read _ _ :: ops => (r < h ∧ h ≤ r + SIZE_OF_BUFFER.toInt.toNat) ∧ InWindow h (r + 1) ops

def hits (ops : List RingOp) : Nat := ops.countP fun
  | .hit _ _ => true
  | .read _ _ => false

/-- The slot contents the hits left, in the order of the hits. -/
def slotsLeft (replies : List RingReply) : List Slot := replies.filterMap fun
  | .left slot => some slot
  | .answered _ => none

/-- What the reads answered, in the order of the reads. -/
def readReplies (replies : List RingReply) : List Reply := replies.filterMap fun
  | .left _ => none
  | .answered reply => some reply

/-! ## Indexes -/

theorem index_toInt (k : Nat) : (Int32.ofNat (k % 10)).toInt = ((slotOf 10 k).val : Int) := by
  have h : ∀ i : Fin 10, (Int32.ofNat i).toInt = (i.val : Int) := by decide
  exact h (slotOf 10 k)

theorem index_next (k : Nat) :
    (Int32.ofNat (k % 10) + 1) % SIZE_OF_BUFFER = Int32.ofNat ((k + 1) % 10) := by
  have h : ∀ i : Fin 10,
      (Int32.ofNat i + 1) % SIZE_OF_BUFFER = Int32.ofNat ((i.val + 1) % 10) := by decide
  rw [Nat.add_mod]
  exact h (slotOf 10 k)

/-! ## The invariant -/

/-- The buffer after hits that left `history` and after `r` reads. `count` is never decremented;
it only has to be positive once something was stored. -/
structure RingInv (history : List Slot) (r : Nat) (s : MprobeState) (b : RingBuffer)
    (ring : CArray 10 Slot) : Prop where
  output : s.mprobeOutput = .valid b
  data : b.data = .valid ring
  head : b.head = Int32.ofNat (r % 10)
  tail : b.tail = Int32.ofNat (history.length % 10)
  slots : HoldsLast ring history
  behind : r ≤ history.length
  stored : 0 < history.length → 0 < b.count.toNat
  noWrap : b.count.toNat ≤ history.length

theorem output_of_open {s₀ s : MprobeState} {outputBlock : Option RingBuffer}
    {dataBlock : Option (CArray 10 Slot)}
    (h : (mprobeDeviceOpen outputBlock dataBlock).exec s₀ = some (s, .returned 0)) :
    ∃ ring, s.mprobeOutput = .valid ⟨.valid ring, 0, 0, 0, 0⟩ := by
  cases outputBlock with
  | none => simp [mprobeDeviceOpen, Ptr.ofBlock, Ptr.isNull, ENOMEM] at h
  | some b =>
    cases dataBlock with
    | none => simp [mprobeDeviceOpen, Ptr.ofBlock, Ptr.isNull, exec_throughOutput, ENOMEM] at h
    | some ring =>
      simp [mprobeDeviceOpen, setOutput, Ptr.ofBlock, Ptr.isNull, exec_throughOutput] at h
      exact ⟨ring, by rw [← h]⟩

theorem ringInv_open {s₀ s : MprobeState} {outputBlock : Option RingBuffer}
    {dataBlock : Option (CArray 10 Slot)}
    (h : (mprobeDeviceOpen outputBlock dataBlock).exec s₀ = some (s, .returned 0)) :
    ∃ b ring, RingInv [] 0 s b ring := by
  obtain ⟨ring, hout⟩ := output_of_open h
  exact ⟨_, ring, hout, rfl, rfl, rfl, holdsLast_nil ring, le_rfl, nofun, le_rfl⟩

/-- Storing a record at a tail inside the buffer. -/
theorem storeRecord_eq {b : RingBuffer} {ring : CArray 10 Slot} (k : Nat)
    (hdata : b.data = .valid ring) (htail : b.tail = Int32.ofNat (k % 10))
    (probeData : UserOutput) :
    ∃ slot b', b.storeRecord probeData = some b' ∧
      b'.data = .valid (Function.update ring (slotOf 10 k) slot) ∧ b'.head = b.head ∧
      b'.tail = Int32.ofNat ((k + 1) % 10) ∧
      (b'.count = if Int32.ofNat ((k + 1) % 10) = b.head then b.count else b.count + 1) ∧
      (b'.loss = if Int32.ofNat ((k + 1) % 10) = b.head then b.loss + 1 else b.loss) ∧
      slot = (ring (slotOf 10 k)).memcpy probeData.bytes sizeofMprobeOutput := by
  refine ⟨(ring (slotOf 10 k)).memcpy probeData.bytes sizeofMprobeOutput, ?_⟩
  simp only [RingBuffer.storeRecord, hdata, htail, index_toInt, CArray.load_fin,
    CArray.store_fin, Option.bind_some, Option.map_some, index_next]
  by_cases h : Int32.ofNat ((k + 1) % 10) = b.head
  · simp [h]
  · simp [h]

/-- `count` after a hit: positive, since the first hit finds the tail ahead of the head. -/
theorem RingInv.count_hit {history : List Slot} {r : Nat} {s : MprobeState} {b : RingBuffer}
    {ring : CArray 10 Slot} (h : RingInv history r s b ring)
    (hbound : history.length + 1 < 2 ^ 32) {count : UInt32}
    (hcount : count = if Int32.ofNat ((history.length + 1) % 10) = b.head then b.count
      else b.count + 1) :
    0 < count.toNat ∧ count.toNat ≤ history.length + 1 := by
  have hle : b.count.toNat ≤ history.length := h.noWrap
  have hsucc : (b.count + 1).toNat = b.count.toNat + 1 := by
    rw [UInt32.toNat_add, UInt32.toNat_one]
    omega
  by_cases hfull : Int32.ofNat ((history.length + 1) % 10) = b.head
  · rw [if_pos hfull] at hcount
    have hstored : 0 < history.length := by
      by_contra hzero
      have hlen : history.length = 0 := by omega
      have hr : r = 0 := by have := h.behind; omega
      rw [hlen, h.head, hr] at hfull
      exact absurd hfull (by decide)
    have hpos := h.stored hstored
    rw [hcount]
    omega
  · rw [if_neg hfull] at hcount
    rw [hcount, hsucc]
    omega

/-- One hit: the slot at the tail receives the record. -/
theorem RingInv.hit {history : List Slot} {r : Nat} {s : MprobeState} {b : RingBuffer}
    {ring : CArray 10 Slot} (h : RingInv history r s b ring)
    (hbound : history.length + 1 < 2 ^ 32) (p : Kprobe) (hit : Hit) :
    ∃ s' slot b' ring', ringOp s (.hit p hit) = some (s', .left slot) ∧
      RingInv (history ++ [slot]) r s' b' ring' := by
  obtain ⟨slot, b', hstore, hdata, hhead, htail, hcount, -⟩ :=
    storeRecord_eq history.length h.data h.tail ⟨p.addr, hit.tsc, hit.pid, hit.value⟩
  obtain ⟨hpos, hle⟩ := h.count_hit hbound hcount
  refine ⟨{ s with mprobeOutput := .valid b' }, slot, b',
    Function.update ring (slotOf 10 history.length) slot, ?_, ?_⟩
  · simp only [ringOp, mprobePreHandler, h.output, Ptr.target?, hstore, MprobeState.slotAt, hdata,
      h.tail, index_toInt, CArray.load_fin, Option.bind_some, Option.map_some,
      Function.update_self]
  · have hlen : (history ++ [slot]).length = history.length + 1 := by simp
    refine ⟨rfl, hdata, hhead.trans h.head, ?_, h.slots.put slot, ?_, fun _ => hpos, ?_⟩
    · rw [hlen, htail]
    · have := h.behind
      omega
    · rwa [hlen]

theorem memcpy_whole (dst src : Slot) : dst.memcpy src sizeofUserOutput = src := by
  funext i
  simp [CArray.memcpy, sizeofUserOutput]

/-- A read whose test of `count` succeeds and whose slot exists. -/
theorem exec_read {s : MprobeState} {b : RingBuffer} {ring : CArray 10 Slot} {slot : Slot}
    (hout : s.mprobeOutput = .valid b) (hdata : b.data = .valid ring) (hcount : ¬ b.count < 1)
    (hslot : ring.load b.head.toInt = some slot) (buf : Slot) (copiedResult : Nat) :
    (mprobeDeviceRead buf sizeofUserOutput copiedResult).exec s =
      some ({ s with mprobeOutput := .valid { b with head := (b.head + 1) % SIZE_OF_BUFFER } },
        .readReturned 20 slot) := by
  simp only [mprobeDeviceRead, setOutput, Code.exec_test, hout, Ptr.isNull, Bool.false_eq_true,
    if_false, exec_throughOutput, id, hcount, hdata, Ptr.target?, Option.bind_some, hslot,
    memcpy_whole, lt_irrefl, Code.exec_ret]
  rfl

/-- One read in the window: it returns entry `r` of the history. -/
theorem RingInv.read {history : List Slot} {r : Nat} {s : MprobeState} {b : RingBuffer}
    {ring : CArray 10 Slot} (h : RingInv history r s b ring) (hr : r < history.length)
    (hlast : history.length ≤ r + SIZE_OF_BUFFER.toInt.toNat) (buf : Slot) (copiedResult : Nat) :
    ∃ s' b' ring', ringOp s (.read buf copiedResult) =
        some (s', .answered (.readReturned 20 history[r])) ∧
      RingInv history (r + 1) s' b' ring' := by
  have hcount : ¬ b.count < 1 := by
    have hpos := h.stored (by omega)
    rw [UInt32.lt_iff_toNat_lt, UInt32.toNat_one]
    omega
  have hslot : ring.load b.head.toInt = some history[r] := by
    rw [h.head, index_toInt, CArray.load_fin, h.slots r hr hlast]
  refine ⟨{ s with mprobeOutput := .valid { b with head := (b.head + 1) % SIZE_OF_BUFFER } },
    { b with head := (b.head + 1) % SIZE_OF_BUFFER }, ring, ?_, ?_⟩
  · rw [ringOp, exec_read h.output h.data hcount hslot buf copiedResult]
    rfl
  · refine ⟨rfl, h.data, ?_, h.tail, h.slots, hr, h.stored, h.noWrap⟩
    rw [h.head, index_next]

/-! ## Runs -/

def reads (ops : List RingOp) : Nat := ops.countP fun
  | .hit _ _ => false
  | .read _ _ => true

theorem ringOp_hit_eq {s s' : MprobeState} {p : Kprobe} {hit : Hit} {reply : RingReply}
    (h : ringOp s (.hit p hit) = some (s', reply)) : ∃ slot, reply = .left slot := by
  simp only [ringOp, Option.bind_eq_some_iff, Option.map_eq_some_iff, Prod.mk.injEq] at h
  obtain ⟨-, -, -, -, slot, -, -, rfl⟩ := h
  exact ⟨slot, rfl⟩

theorem ringOp_read_eq {s s' : MprobeState} {buf : Slot} {copiedResult : Nat}
    {reply : RingReply} (h : ringOp s (.read buf copiedResult) = some (s', reply)) :
    ∃ r, reply = .answered r := by
  simp only [ringOp, Option.map_eq_some_iff, Prod.mk.injEq] at h
  obtain ⟨⟨-, r⟩, -, -, rfl⟩ := h
  exact ⟨r, rfl⟩

/-- Every hit leaves a slot and every read gets an answer. -/
theorem run_ringOp_length {s s' : MprobeState} {ops : List RingOp} {replies : List RingReply}
    (h : run ringOp s ops = some (s', replies)) :
    (slotsLeft replies).length = hits ops ∧ (readReplies replies).length = reads ops := by
  induction ops generalizing s replies with
  | nil =>
    obtain ⟨-, rfl⟩ : s = s' ∧ [] = replies := by simpa using h
    exact ⟨rfl, rfl⟩
  | cons op ops ih =>
    obtain ⟨s₁, reply, replies', hstep, htail, rfl⟩ := run_cons_eq_some.mp h
    obtain ⟨hslots, hreads⟩ := ih htail
    cases op with
    | hit p hit =>
      obtain ⟨slot, rfl⟩ := ringOp_hit_eq hstep
      exact ⟨by simpa [slotsLeft, hits] using hslots, by simpa [readReplies, reads] using hreads⟩
    | read buf copiedResult =>
      obtain ⟨r, rfl⟩ := ringOp_read_eq hstep
      exact ⟨by simpa [slotsLeft, hits] using hslots, by simpa [readReplies, reads] using hreads⟩

/-- From the invariant, a run whose reads stay in the window answers every read with the entry
whose turn it is. -/
theorem RingInv.run {history : List Slot} {r : Nat} {s : MprobeState} {b : RingBuffer}
    {ring : CArray 10 Slot} (h : RingInv history r s b ring) {ops : List RingOp}
    (hwin : InWindow history.length r ops) (hbound : history.length + hits ops < 2 ^ 32) :
    ∃ s' replies, Lib.run ringOp s ops = some (s', replies) ∧
      readReplies replies = (((history ++ slotsLeft replies).drop r).take (reads ops)).map
        (.readReturned 20) := by
  induction ops generalizing history r s b ring with
  | nil => exact ⟨s, [], rfl, by simp [readReplies, reads]⟩
  | cons op ops ih =>
    cases op with
    | hit p hit =>
      have hhits : hits (.hit p hit :: ops) = hits ops + 1 := by simp [hits]
      obtain ⟨s₁, slot, b₁, ring₁, hstep, h₁⟩ := h.hit (by omega) p hit
      obtain ⟨s', replies, hrun, hread⟩ := ih h₁ (by simpa [InWindow] using hwin)
        (by rw [List.length_append, List.length_singleton]; omega)
      refine ⟨s', .left slot :: replies, run_cons_eq_some.mpr ⟨s₁, _, _, hstep, hrun, rfl⟩, ?_⟩
      have hreads : reads (.hit p hit :: ops) = reads ops := by simp [reads]
      have hhist : history ++ slotsLeft (.left slot :: replies) =
          history ++ [slot] ++ slotsLeft replies := by simp [slotsLeft]
      rw [hreads, hhist]
      exact hread
    | read buf copiedResult =>
      obtain ⟨⟨hr, hlast⟩, hwin'⟩ := hwin
      have hhits : hits (.read buf copiedResult :: ops) = hits ops := by simp [hits]
      obtain ⟨s₁, b₁, ring₁, hstep, h₁⟩ := h.read hr hlast buf copiedResult
      obtain ⟨s', replies, hrun, hread⟩ := ih h₁ hwin' (by omega)
      refine ⟨s', _ :: replies, run_cons_eq_some.mpr ⟨s₁, _, _, hstep, hrun, rfl⟩, ?_⟩
      have hreads : reads (.read buf copiedResult :: ops) = reads ops + 1 := by simp [reads]
      have hdrop : (history ++ slotsLeft replies).drop r =
          history[r] :: (history ++ slotsLeft replies).drop (r + 1) := by
        rw [List.drop_eq_getElem_cons (by rw [List.length_append]; omega),
          List.getElem_append_left hr]
      have hslots : slotsLeft (.answered (.readReturned 20 history[r]) :: replies) =
          slotsLeft replies := rfl
      rw [hreads, hslots, hdrop, List.take_succ_cons, List.map_cons, ← hread]
      rfl

/-- The reads return the slot contents the hits left, each read the next one in the order of
the hits. -/
theorem reads_in_order {s₀ s : MprobeState} {outputBlock : Option RingBuffer}
    {dataBlock : Option (CArray 10 Slot)}
    (hopen : (mprobeDeviceOpen outputBlock dataBlock).exec s₀ = some (s, .returned 0))
    {ops : List RingOp} (hwin : InWindow 0 0 ops) (hbound : hits ops < 2 ^ 32) :
    ∃ s' replies, run ringOp s ops = some (s', replies) ∧
      (slotsLeft replies).length = hits ops ∧ (readReplies replies).length = reads ops ∧
      readReplies replies = ((slotsLeft replies).take (reads ops)).map (.readReturned 20) := by
  obtain ⟨b, ring, h⟩ := ringInv_open hopen
  obtain ⟨s', replies, hrun, hread⟩ := h.run hwin (by simpa using hbound)
  obtain ⟨hslots, hreads⟩ := run_ringOp_length hrun
  exact ⟨s', replies, hrun, hslots, hreads, by simpa using hread⟩

/-- Two hits, each followed by the read of its record. -/
theorem reads_in_order_one : ∃ s' replies, run ringOp
      ⟨none, .valid ⟨.valid fun _ _ => 0, 0, 0, 0, 0⟩, [], 0⟩
      [.hit ⟨0, 8⟩ ⟨1, 2, 3⟩, .read (fun _ => 0) 4, .hit ⟨0, 8⟩ ⟨4, 5, 6⟩, .read (fun _ => 0) 4] =
        some (s', replies) ∧
      (slotsLeft replies).length = 2 ∧ (readReplies replies).length = 2 ∧
      readReplies replies = ((slotsLeft replies).take 2).map (.readReturned 20) :=
  reads_in_order
    (by rfl : (mprobeDeviceOpen (some ⟨.null, 7, 7, 7, 7⟩) (some fun _ _ => 0)).exec
      mprobeDriverInit = _)
    ⟨by decide, by decide, trivial⟩ (by simp [hits])

end KernelDrivers.Mprobe
