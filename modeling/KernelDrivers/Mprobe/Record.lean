import KernelDrivers.Lib.Words
import KernelDrivers.Mprobe.Count

/-!
# The fields of a record read back

The handler copies as many bytes of a record as a pointer has, and a read copies all twenty. So
a slot receives the address of the probe and keeps what it held at the place of the other three
fields.
-/

namespace KernelDrivers.Mprobe
open Lib

/-! ## Fields in bytes -/

/-- The little-endian number in `len` bytes of a slot. -/
def numberAt (slot : Slot) (first len : Nat) (h : first + len ≤ 20) : Nat :=
  ofBytes (List.ofFn fun i : Fin len => slot ⟨first + i, by omega⟩)

def UserOutput.ofSlot (slot : Slot) : UserOutput where
  kprobeAddr := UInt32.ofNat (numberAt slot 0 4 (by omega))
  tsc := UInt64.ofNat (numberAt slot 4 8 (by omega))
  pid := (UInt32.ofNat (numberAt slot 12 4 (by omega))).toInt32
  value := (UInt32.ofNat (numberAt slot 16 4 (by omega))).toInt32

theorem numberAt_eq {slot : Slot} {first len x : Nat} (h : first + len ≤ 20)
    (hslot : ∀ i, (hi : i < len) → slot ⟨first + i, by omega⟩ = byteOf x i) :
    numberAt slot first len h = x % 256 ^ len := by
  rw [← ofBytes_shifts]
  exact congrArg ofBytes (congrArg List.ofFn (funext fun i => hslot i i.isLt))

theorem numberAt_congr {slot slot' : Slot} {first len : Nat} (h : first + len ≤ 20)
    (hslot : ∀ i, (hi : i < len) → slot ⟨first + i, by omega⟩ = slot' ⟨first + i, by omega⟩) :
    numberAt slot first len h = numberAt slot' first len h :=
  congrArg ofBytes (congrArg List.ofFn (funext fun i => hslot i i.isLt))

/-- The address in a slot that begins with the bytes of a record. -/
theorem numberAt_kprobeAddr {slot : Slot} {u : UserOutput}
    (h : ∀ i : Fin 20, i.val < 4 → slot i = u.bytes i) :
    UInt32.ofNat (numberAt slot 0 4 (by omega)) = u.kprobeAddr := by
  rw [numberAt_eq (x := u.kprobeAddr.toNat) _ fun i hi => ?_]
  · have hlt : u.kprobeAddr.toNat < 256 ^ 4 := u.kprobeAddr.toNat_lt
    rw [Nat.mod_eq_of_lt hlt, UInt32.ofNat_toNat]
  · have hbyte := h ⟨0 + i, by omega⟩ (by simpa using hi)
    simpa [UserOutput.bytes, hi] using hbyte

/-- A record is read back from its own bytes. -/
theorem ofSlot_bytes (u : UserOutput) : UserOutput.ofSlot u.bytes = u := by
  have haddr := numberAt_kprobeAddr (u := u) fun i _ => rfl
  have htsc : numberAt u.bytes 4 8 (by omega) = u.tsc.toNat := by
    rw [numberAt_eq (x := u.tsc.toNat) _ fun i hi => ?_]
    · exact Nat.mod_eq_of_lt u.tsc.toNat_lt
    · simp [UserOutput.bytes, show 4 + i < 12 by omega]
  have hpid : numberAt u.bytes 12 4 (by omega) = u.pid.toUInt32.toNat := by
    rw [numberAt_eq (x := u.pid.toUInt32.toNat) _ fun i hi => ?_]
    · exact Nat.mod_eq_of_lt u.pid.toUInt32.toNat_lt
    · simp [UserOutput.bytes, show ¬ 12 + i < 4 by omega, show 12 + i < 16 by omega]
  have hvalue : numberAt u.bytes 16 4 (by omega) = u.value.toUInt32.toNat := by
    rw [numberAt_eq (x := u.value.toUInt32.toNat) _ fun i hi => ?_]
    · exact Nat.mod_eq_of_lt u.value.toUInt32.toNat_lt
    · simp [UserOutput.bytes, show ¬ 16 + i < 4 by omega, show ¬ 16 + i < 12 by omega]
  rw [UserOutput.ofSlot, haddr, htsc, hpid, hvalue, UInt64.ofNat_toNat, UInt32.ofNat_toNat,
    UInt32.ofNat_toNat]
  simp

/-- A copy of the size of a pointer changes the address only. -/
theorem ofSlot_memcpy (slot : Slot) (u : UserOutput) :
    UserOutput.ofSlot (slot.memcpy u.bytes sizeofMprobeOutput) =
      { UserOutput.ofSlot slot with kprobeAddr := u.kprobeAddr } := by
  have hkept : ∀ {first len : Nat} (h : first + len ≤ 20), 4 ≤ first →
      numberAt (slot.memcpy u.bytes sizeofMprobeOutput) first len h =
        numberAt slot first len h := by
    intro first len h hfirst
    refine numberAt_congr h fun i hi => if_neg ?_
    simp only [sizeofMprobeOutput]
    omega
  have haddr : UInt32.ofNat (numberAt (slot.memcpy u.bytes sizeofMprobeOutput) 0 4 (by omega)) =
      u.kprobeAddr := numberAt_kprobeAddr fun i hi => if_pos hi
  rw [UserOutput.ofSlot, haddr, hkept _ (by omega), hkept _ (by omega), hkept _ (by omega)]
  rfl

/-! ## From the hit to the read -/

/-- A hit does not store in the slot. -/
def Spares (slot : Int32) (s : Audited) : BufferOp → Prop
  | .hit _ _ => ∀ b ∈ s.state.mprobeOutput.target?, b.tail ≠ slot
  | .read _ _ _ => True

instance (slot : Int32) (s : Audited) : (op : BufferOp) → Decidable (Spares slot s op)
  | .hit _ _ => inferInstanceAs (Decidable (∀ b ∈ s.state.mprobeOutput.target?, _))
  | .read _ _ _ => isTrue trivial

/-- From the opened state `s` a run leads to a hit of `p`, whose slot held `prior`. Other hits and
reads follow, no hit stores in the slot again, and a read returns it as `record`. -/
inductive ReadBack (s : MprobeState) (p : Kprobe) (hit : Hit) (prior record : Slot) : Prop
  | mk {before after : List BufferOp} {u v w : Audited} {os os' : List Unit} {b c : RingBuffer}
      {buf : Slot} {copiedResult : Nat} {t : MprobeState}
      (hbefore : run auditedOp ⟨s, ⟨[], 0⟩⟩ before = some (u, os))
      (houtput : u.state.mprobeOutput = .valid b)
      (hprior : u.state.slotAt b.tail = some prior)
      (hhit : auditedOp u (.hit p hit) = some (v, ()))
      (hafter : run auditedOp v after = some (w, os'))
      (hspares : Along auditedOp (Spares b.tail) v after)
      (houtput' : w.state.mprobeOutput = .valid c)
      (hhead : c.head = b.tail)
      (hread : (mprobeDeviceRead buf sizeofUserOutput copiedResult).exec w.state =
        some (t, .readReturned 20 record))

/-- The buffer is there and its indexes are inside. -/
structure BufferOk (s : MprobeState) (b : RingBuffer) (ring : CArray 10 Slot)
    (first last : Fin 10) : Prop where
  output : s.mprobeOutput = .valid b
  data : b.data = .valid ring
  head : b.head = indexOf first
  tail : b.tail = indexOf last

section Steps

variable {s s' : Audited} {b : RingBuffer} {ring : CArray 10 Slot} {first last : Fin 10}

theorem BufferOk.slotAt {s : MprobeState} (h : BufferOk s b ring first last) (i : Fin 10) :
    s.slotAt (indexOf i) = some (ring i) := by
  rw [MprobeState.slotAt, h.output, Ptr.target?, Option.bind_some, h.data, Ptr.target?,
    Option.bind_some, indexOf_eq_mod, index_toInt, CArray.load_fin]
  simp [slotOf]

theorem BufferOk.hit (h : BufferOk s.state b ring first last) {p : Kprobe} {hit : Hit}
    (hop : auditedOp s (.hit p hit) = some (s', ())) :
    ∃ b', BufferOk s'.state b' (Function.update ring last ((ring last).memcpy
      (UserOutput.bytes ⟨p.addr, hit.tsc, hit.pid, hit.value⟩) sizeofMprobeOutput)) first
      (last + 1) := by
  obtain ⟨slot, b', hstore, hdata, hhead, htail, -, -, hslot⟩ :=
    storeRecord_eq last.val h.data (h.tail.trans (indexOf_eq_mod last))
      ⟨p.addr, hit.tsc, hit.pid, hit.value⟩
  have hlast : slotOf 10 last.val = last := by simp [slotOf]
  have hs' : s' = ⟨{ s.state with mprobeOutput := .valid b' }, s.ledger.store b.tail⟩ := by
    simpa [auditedOp, mprobePreHandler, h.output, Ptr.target?, hstore, eq_comm] using hop
  rw [hlast] at hslot hdata
  rw [hs', ← hslot]
  refine ⟨b', rfl, hdata, hhead.trans h.head, htail.trans ?_⟩
  rw [← index_next, ← indexOf_eq_mod, indexOf_succ]

theorem BufferOk.read (h : BufferOk s.state b ring first last) {buf : Slot}
    {copied copiedResult : Nat}
    (hop : auditedOp s (.read buf copied copiedResult) = some (s', ())) :
    ∃ b' first', BufferOk s'.state b' ring first' last := by
  obtain ⟨buf', hread⟩ := exec_read_eq h.output h.data h.head buf copied copiedResult
  split at hread
  · have hstep := (auditedOp_read h.output hread).symm.trans hop
    obtain ⟨rfl, -⟩ := Prod.mk.inj (Option.some.inj hstep)
    exact ⟨b, first, h⟩
  · have hstep := (auditedOp_read h.output hread).symm.trans hop
    obtain ⟨rfl, -⟩ := Prod.mk.inj (Option.some.inj hstep)
    exact ⟨{ b with head := (b.head + 1) % SIZE_OF_BUFFER }, first + 1, rfl, h.data,
      by rw [h.head, indexOf_succ], h.tail⟩

/-- A read that returns a record returns the slot at the head. -/
theorem BufferOk.record {s t : MprobeState} (h : BufferOk s b ring first last) {buf record : Slot}
    {copiedResult : Nat} (hread : (mprobeDeviceRead buf sizeofUserOutput copiedResult).exec s =
      some (t, .readReturned 20 record)) : record = ring first := by
  obtain ⟨buf', heq⟩ := exec_read_eq h.output h.data h.head buf sizeofUserOutput copiedResult
  rw [heq] at hread
  split at hread
  · have hreply := (Prod.mk.inj (Option.some.inj hread)).2
    exact absurd (Reply.readReturned.inj hreply).1 (by decide)
  · have hreply := (Prod.mk.inj (Option.some.inj hread)).2
    rw [← (Reply.readReturned.inj hreply).2, memcpy_whole]

/-- One hit or read: a slot that is spared keeps its bytes. -/
theorem BufferOk.step (h : BufferOk s.state b ring first last) {op : BufferOp}
    (hop : auditedOp s op = some (s', ())) :
    ∃ b' ring' first' last', BufferOk s'.state b' ring' first' last' ∧
      ∀ i, Spares (indexOf i) s op → ring' i = ring i := by
  cases op with
  | hit p hit =>
    obtain ⟨b', h'⟩ := h.hit hop
    refine ⟨b', _, first, last + 1, h', fun i hspares => Function.update_of_ne ?_ _ _⟩
    rintro rfl
    exact hspares b (by rw [h.output]; rfl) h.tail
  | read buf copied copiedResult =>
    obtain ⟨b', first', h'⟩ := h.read hop
    exact ⟨b', ring, first', last, h', fun _ _ => rfl⟩

theorem bufferOk_of_run (h : BufferOk s.state b ring first last) {ops : List BufferOp}
    {os : List Unit} (hrun : run auditedOp s ops = some (s', os)) :
    ∃ b' ring' first' last', BufferOk s'.state b' ring' first' last' := by
  let Inv (u : Audited) : Prop := ∃ b' ring' first' last', BufferOk u.state b' ring' first' last'
  have hstep : ∀ u op u' o, Inv u → True → auditedOp u op = some (u', o) → Inv u' := by
    rintro u op u' ⟨⟩ ⟨b', ring', first', last', hok⟩ - hop
    obtain ⟨b'', ring'', first'', last'', hok', -⟩ := hok.step hop
    exact ⟨b'', ring'', first'', last'', hok'⟩
  exact run_along auditedOp hstep ⟨b, ring, first, last, h⟩ (along_true auditedOp s ops) hrun

theorem slot_of_run_spares {i : Fin 10} (h : BufferOk s.state b ring first last)
    {ops : List BufferOp} {os : List Unit} (hspares : Along auditedOp (Spares (indexOf i)) s ops)
    (hrun : run auditedOp s ops = some (s', os)) :
    ∃ b' ring' first' last', BufferOk s'.state b' ring' first' last' ∧ ring' i = ring i := by
  let Inv (u : Audited) : Prop := ∃ b' ring' first' last',
    BufferOk u.state b' ring' first' last' ∧ ring' i = ring i
  have hstep : ∀ u op u' o, Inv u → Spares (indexOf i) u op → auditedOp u op = some (u', o) →
      Inv u' := by
    rintro u op u' ⟨⟩ ⟨b', ring', first', last', hok, hslot⟩ hspared hop
    obtain ⟨b'', ring'', first'', last'', hok', hkept⟩ := hok.step hop
    exact ⟨b'', ring'', first'', last'', hok', (hkept i hspared).trans hslot⟩
  exact run_along auditedOp hstep ⟨b, ring, first, last, h, rfl⟩ hspares hrun

end Steps

/-- What a read gets of a hit is the address over the bytes the slot held before. -/
theorem ReadBack.record_eq {s₀ s : MprobeState} {outputBlock : Option RingBuffer}
    {dataBlock : Option (CArray 10 Slot)}
    (hopen : (mprobeDeviceOpen outputBlock dataBlock).exec s₀ = some (s, .returned 0))
    {p : Kprobe} {hit : Hit} {prior record : Slot} (h : ReadBack s p hit prior record) :
    record = prior.memcpy (UserOutput.bytes ⟨p.addr, hit.tsc, hit.pid, hit.value⟩)
      sizeofMprobeOutput := by
  obtain ⟨hbefore, houtput, hprior, hhit, hafter, hspares, houtput', hhead, hread⟩ := h
  obtain ⟨ring₀, hout⟩ := output_of_open hopen
  have hok₀ : BufferOk s _ ring₀ 0 0 := ⟨hout, rfl, rfl, rfl⟩
  obtain ⟨b, ring, first, last, hok⟩ := bufferOk_of_run (s := ⟨s, ⟨[], 0⟩⟩) hok₀ hbefore
  obtain rfl := Ptr.valid.inj (houtput.symm.trans hok.output)
  obtain ⟨b', hok'⟩ := hok.hit hhit
  rw [hok.tail] at hspares hprior hhead
  obtain ⟨c, ring', first', last', hok'', hslot⟩ := slot_of_run_spares hok' hspares hafter
  obtain rfl := Ptr.valid.inj (houtput'.symm.trans hok''.output)
  obtain rfl : first' = last := indexOf_inj (hok''.head.symm.trans hhead)
  obtain rfl : ring first' = prior := Option.some.inj ((hok.slotAt first').symm.trans hprior)
  rw [hok''.record hread, hslot, Function.update_self]

/-- A hit is read back whole exactly when its slot held the captured `tsc`, `pid` and `value`
already. -/
theorem readBack_iff {s₀ s : MprobeState} {outputBlock : Option RingBuffer}
    {dataBlock : Option (CArray 10 Slot)}
    (hopen : (mprobeDeviceOpen outputBlock dataBlock).exec s₀ = some (s, .returned 0))
    {p : Kprobe} {hit : Hit} {prior record : Slot} (h : ReadBack s p hit prior record) :
    UserOutput.ofSlot record = ⟨p.addr, hit.tsc, hit.pid, hit.value⟩ ↔
      (UserOutput.ofSlot prior).tsc = hit.tsc ∧ (UserOutput.ofSlot prior).pid = hit.pid ∧
        (UserOutput.ofSlot prior).value = hit.value := by
  rw [h.record_eq hopen, ofSlot_memcpy]
  simp

/-- The first hit after an open and a read at once. -/
theorem readBack_first (ring : CArray 10 Slot) (p : Kprobe) (hit : Hit) :
    ∃ record, ReadBack ⟨none, .valid ⟨.valid ring, 0, 0, 0, 0⟩, [], 0⟩ p hit (ring 0) record := by
  let s : Audited := ⟨⟨none, .valid ⟨.valid ring, 0, 0, 0, 0⟩, [], 0⟩, ⟨[], 0⟩⟩
  obtain ⟨v, hhit⟩ : ∃ v, auditedOp s (.hit p hit) = some (v, ()) := ⟨_, rfl⟩
  have hok : BufferOk s.state ⟨.valid ring, 0, 0, 0, 0⟩ ring 0 0 := ⟨rfl, rfl, rfl, rfl⟩
  obtain ⟨c, hok'⟩ := hok.hit hhit
  have hcount : ¬ c.count < 1 := by
    have hinv : CountInv s ⟨.valid ring, 0, 0, 0, 0⟩ ring 0 :=
      ⟨rfl, rfl, rfl, rfl, by omega, rfl, rfl⟩
    obtain ⟨-, c', ring', houtput, -, hnext⟩ := hinv.hit hhit
    obtain rfl := Ptr.valid.inj (hok'.output.symm.trans houtput)
    exact fun hzero => absurd ((hnext (by omega)).count_lt_iff.mp hzero) (by omega)
  obtain ⟨buf', hread⟩ := exec_read_eq hok'.output hok'.data hok'.head (fun _ => 0)
    sizeofUserOutput 4
  have hbefore : run auditedOp s [] = some (s, []) := rfl
  have hafter : run auditedOp v [] = some (v, []) := rfl
  exact ⟨_, .mk hbefore rfl (hok.slotAt 0) hhit hafter trivial hok'.output hok'.head
    (hread.trans (if_neg (not_or.mpr ⟨hcount, lt_irrefl _⟩)))⟩

/-- A slot that held the captured `tsc`, `pid` and `value` with another address. -/
theorem readBack_iff_same_fields : ∃ record,
    ReadBack ⟨none, .valid ⟨.valid fun _ => UserOutput.bytes ⟨0, 1, 2, 3⟩, 0, 0, 0, 0⟩, [], 0⟩
      ⟨0, 8⟩ ⟨1, 2, 3⟩ (UserOutput.bytes ⟨0, 1, 2, 3⟩) record ∧
    UserOutput.ofSlot record = ⟨8, 1, 2, 3⟩ := by
  have hopen : (mprobeDeviceOpen (some ⟨.null, 7, 7, 7, 7⟩)
      (some fun _ => UserOutput.bytes ⟨0, 1, 2, 3⟩)).exec mprobeDriverInit =
      some (⟨none, .valid ⟨.valid fun _ => UserOutput.bytes ⟨0, 1, 2, 3⟩, 0, 0, 0, 0⟩, [], 0⟩,
        .returned 0) := rfl
  obtain ⟨record, hback⟩ := readBack_first (fun _ => UserOutput.bytes ⟨0, 1, 2, 3⟩) ⟨0, 8⟩
    ⟨1, 2, 3⟩
  refine ⟨record, hback, (readBack_iff hopen hback).mpr ?_⟩
  rw [ofSlot_bytes]
  exact ⟨rfl, rfl, rfl⟩

/-- Every record is read back whole. -/
def RecordsSurvive : Prop :=
  ∀ s₀ s outputBlock dataBlock, (mprobeDeviceOpen outputBlock dataBlock).exec s₀ =
    some (s, .returned 0) → ∀ p hit prior record, ReadBack s p hit prior record →
    UserOutput.ofSlot record = ⟨p.addr, hit.tsc, hit.pid, hit.value⟩

/-- The first hit after an open with zeroed slots: `tsc` is read back as 0. -/
theorem not_recordsSurvive : ¬ RecordsSurvive := by
  intro h
  obtain ⟨record, hback⟩ := readBack_first (fun _ _ => 0) ⟨0, 8⟩ ⟨1, 2, 3⟩
  have hrecord := h _ _ _ _ exec_open_openedState _ _ _ _ hback
  rw [hback.record_eq exec_open_openedState, ofSlot_memcpy] at hrecord
  exact absurd (congrArg UserOutput.tsc hrecord) (by decide)

end KernelDrivers.Mprobe
