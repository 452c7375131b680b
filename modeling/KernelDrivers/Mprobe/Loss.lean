import KernelDrivers.Mprobe.RingOrder

/-!
# The count of lost records

The handler counts a record as lost when the tail it has advanced meets the head. The head is
then the slot of the oldest unread record, if there is one, and nothing has been overwritten. So
`loss` is right exactly as long as this never happens: it is then zero, and no record that was
not read is overwritten.
-/

namespace KernelDrivers.Mprobe
open Lib

/-- What became of the records: the slots of those neither read nor overwritten, in the order
they were captured, and the number of those overwritten unread. -/
structure Ledger where
  unread : List Int32
  overwritten : Nat

def Ledger.store (l : Ledger) (slot : Int32) : Ledger where
  unread := l.unread.filter (· ≠ slot) ++ [slot]
  overwritten := if slot ∈ l.unread then l.overwritten + 1 else l.overwritten

def Ledger.take (l : Ledger) (slot : Int32) : Ledger :=
  { l with unread := l.unread.filter (· ≠ slot) }

/-- The driver with the ledger of what happened since the open. -/
structure Audited where
  state : MprobeState
  ledger : Ledger

/-- Hits of the probe and reads of the device, each running to its end. The copies of a read may
fail. -/
inductive BufferOp where
  | hit (p : Kprobe) (hit : Hit)
  | read (buf : Slot) (copied copiedResult : Nat)

/-- The answer of a read that returned a record. -/
def Reply.isRecord : Reply → Bool
  | .readReturned ret _ => ret = 20
  | _ => false

def auditedOp (s : Audited) (op : BufferOp) : Option (Audited × Unit) :=
  s.state.mprobeOutput.target?.bind fun b =>
    match op with
    | .hit p hit => (mprobePreHandler p hit s.state).map fun (t, _) =>
        (⟨t, s.ledger.store b.tail⟩, ())
    | .read buf copied copiedResult =>
      ((mprobeDeviceRead buf copied copiedResult).exec s.state).map fun (t, reply) =>
        (⟨t, if reply.isRecord then s.ledger.take b.head else s.ledger⟩, ())

/-- `loss` counts the records overwritten unread, and once there are some the next read takes the
oldest of the others. -/
def LossAccounted (s : Audited) : Prop :=
  ∃ b, s.state.mprobeOutput = .valid b ∧ b.loss.toNat = s.ledger.overwritten ∧
    (0 < s.ledger.overwritten → ∀ slot ∈ s.ledger.unread.head?, b.head = slot)

/-- A hit does not advance the tail to the head. -/
def StaysBehind (s : Audited) : BufferOp → Prop
  | .hit _ _ => ∀ b ∈ s.state.mprobeOutput.target?, (b.tail + 1) % SIZE_OF_BUFFER ≠ b.head
  | .read _ _ _ => True

instance (s : Audited) : (op : BufferOp) → Decidable (StaysBehind s op)
  | .hit _ _ => inferInstanceAs (Decidable (∀ b ∈ s.state.mprobeOutput.target?, _))
  | .read _ _ _ => isTrue trivial

/-! ## Slots -/

/-- The index of a slot. -/
def indexOf (i : Fin 10) : Int32 := Int32.ofNat i

theorem indexOf_inj : ∀ {i j : Fin 10}, indexOf i = indexOf j → i = j := by decide

theorem indexOf_succ : ∀ i : Fin 10, (indexOf i + 1) % SIZE_OF_BUFFER = indexOf (i + 1) := by
  decide

theorem indexOf_eq_mod (i : Fin 10) : indexOf i = Int32.ofNat (i.val % 10) := by
  rw [Nat.mod_eq_of_lt i.isLt]
  rfl

/-- A slot from `first` on, before `last`. -/
def Between (first last slot : Fin 10) : Prop := slot - first < last - first

theorem not_between_self : ∀ first last : Fin 10, ¬ Between first last last := by
  unfold Between
  decide

theorem between_push : ∀ {first last slot : Fin 10}, last + 1 ≠ first →
    Between first last slot ∨ slot = last → Between first (last + 1) slot := by
  unfold Between
  decide

theorem between_pop : ∀ {first last slot : Fin 10}, Between first last slot → slot ≠ first →
    Between (first + 1) last slot := by
  unfold Between
  decide

/-- Nothing was lost, and the unread records are in the slots from the head up to the tail. -/
structure LossInv (s : Audited) (b : RingBuffer) (ring : CArray 10 Slot) (first last : Fin 10) :
    Prop where
  output : s.state.mprobeOutput = .valid b
  data : b.data = .valid ring
  head : b.head = indexOf first
  tail : b.tail = indexOf last
  loss : b.loss = 0
  overwritten : s.ledger.overwritten = 0
  unread : ∀ slot ∈ s.ledger.unread, ∃ i, slot = indexOf i ∧ Between first last i

section Steps

variable {s s' : Audited} {b : RingBuffer} {ring : CArray 10 Slot} {first last : Fin 10}

theorem LossInv.lossAccounted (h : LossInv s b ring first last) : LossAccounted s :=
  ⟨b, h.output, by simp [h.loss, h.overwritten], fun hpos => by simp [h.overwritten] at hpos⟩

/-- A hit stores its record at the tail, which is the slot of no unread record. -/
theorem LossInv.hit (h : LossInv s b ring first last) {p : Kprobe} {hit : Hit}
    (hop : auditedOp s (.hit p hit) = some (s', ())) :
    s'.ledger.overwritten = 0 ∧ ∃ b' ring', s'.state.mprobeOutput = .valid b' ∧
      (last + 1 = first → b'.loss = 1) ∧
      (last + 1 ≠ first → LossInv s' b' ring' first (last + 1)) := by
  obtain ⟨slot, b', hstore, hdata, hhead, htail, -, hloss, -⟩ :=
    storeRecord_eq last.val h.data (h.tail.trans (indexOf_eq_mod last))
      ⟨p.addr, hit.tsc, hit.pid, hit.value⟩
  have hnext : Int32.ofNat ((last.val + 1) % 10) = indexOf (last + 1) := by
    rw [← index_next, ← indexOf_eq_mod, indexOf_succ]
  have hs' : s' = ⟨{ s.state with mprobeOutput := .valid b' }, s.ledger.store b.tail⟩ := by
    simpa [auditedOp, mprobePreHandler, h.output, Ptr.target?, hstore, eq_comm] using hop
  have hnew : b.tail ∉ s.ledger.unread := by
    intro hmem
    obtain ⟨i, hi, hbetween⟩ := h.unread b.tail hmem
    obtain rfl := indexOf_inj (h.tail.symm.trans hi)
    exact not_between_self first last hbetween
  have hoverwritten : (s.ledger.store b.tail).overwritten = 0 := by
    rw [Ledger.store, if_neg hnew, h.overwritten]
  rw [hs']
  refine ⟨hoverwritten, b', Function.update ring (slotOf 10 last.val) slot, rfl,
    fun hmeets => ?_, fun hapart => ?_⟩
  · rw [hloss, hnext, h.head, if_pos (congrArg indexOf hmeets), h.loss]
    rfl
  · have hne : ¬ Int32.ofNat ((last.val + 1) % 10) = b.head := by
      rw [hnext, h.head]
      exact fun heq => hapart (indexOf_inj heq)
    refine ⟨rfl, hdata, hhead.trans h.head, htail.trans hnext, ?_, hoverwritten, ?_⟩
    · rw [hloss, if_neg hne, h.loss]
    · intro slot hslot
      rcases List.mem_append.mp hslot with hslot | hslot
      · obtain ⟨i, hi, hbetween⟩ := h.unread slot (List.mem_filter.mp hslot).1
        exact ⟨i, hi, between_push hapart (.inl hbetween)⟩
      · have hslot' : slot = b.tail := List.mem_singleton.mp hslot
        exact ⟨last, hslot'.trans h.tail, between_push hapart (.inr rfl)⟩

/-- A read either fails and leaves the buffer alone or takes the slot at the head. -/
theorem exec_read_eq {t : MprobeState} (hout : t.mprobeOutput = .valid b)
    (hdata : b.data = .valid ring) (hhead : b.head = indexOf first) (buf : Slot)
    (copied copiedResult : Nat) :
    ∃ buf', (mprobeDeviceRead buf copied copiedResult).exec t =
      if b.count < 1 ∨ copied < sizeofUserOutput then some (t, .readReturned (-EINVAL) buf')
      else some
        ({ t with mprobeOutput := .valid { b with head := (b.head + 1) % SIZE_OF_BUFFER } },
          .readReturned 20 (buf.memcpy (ring first) copied)) := by
  have hsame : { t with mprobeOutput := Ptr.valid b } = t := by rw [← hout]
  have hslot : ring.load b.head.toInt = some (ring first) := by
    rw [hhead, indexOf_eq_mod, index_toInt, CArray.load_fin]
    simp [slotOf]
  simp only [mprobeDeviceRead, setOutput, Code.exec_test, hout, Ptr.isNull, Bool.false_eq_true,
    if_false, exec_throughOutput, id]
  by_cases hcount : b.count < 1
  · simp only [hcount, true_or, if_true, Code.exec_ret, hsame]
    exact ⟨_, rfl⟩
  · simp only [hcount, false_or, if_false, exec_throughOutput, id, hdata, Ptr.target?,
      Option.bind_some, hslot]
    by_cases hcopied : copied < sizeofUserOutput
    · simp only [hcopied, if_true, Code.exec_ret, hsame]
      exact ⟨_, rfl⟩
    · simp only [hcopied, if_false, exec_throughOutput, Code.exec_ret, ← hdata]
      exact ⟨buf, rfl⟩

theorem auditedOp_read {t : MprobeState} {buf : Slot} {copied copiedResult : Nat} {reply : Reply}
    (hout : s.state.mprobeOutput = .valid b)
    (hread : (mprobeDeviceRead buf copied copiedResult).exec s.state = some (t, reply)) :
    auditedOp s (.read buf copied copiedResult) =
      some (⟨t, if reply.isRecord then s.ledger.take b.head else s.ledger⟩, ()) := by
  simp [auditedOp, hout, Ptr.target?, hread]

theorem LossInv.read (h : LossInv s b ring first last) {buf : Slot} {copied copiedResult : Nat}
    (hop : auditedOp s (.read buf copied copiedResult) = some (s', ())) :
    ∃ b' first', LossInv s' b' ring first' last := by
  obtain ⟨buf', hread⟩ := exec_read_eq h.output h.data h.head buf copied copiedResult
  split at hread
  · have heq := (auditedOp_read h.output hread).symm.trans hop
    obtain ⟨rfl, -⟩ := Prod.mk.inj (Option.some.inj heq)
    exact ⟨b, first, h⟩
  · have heq := (auditedOp_read h.output hread).symm.trans hop
    obtain ⟨rfl, -⟩ := Prod.mk.inj (Option.some.inj heq)
    refine ⟨{ b with head := (b.head + 1) % SIZE_OF_BUFFER }, first + 1, rfl, h.data, ?_, h.tail,
      h.loss, h.overwritten, ?_⟩
    · rw [h.head, indexOf_succ]
    · intro slot hslot
      obtain ⟨hmem, hne⟩ := List.mem_filter.mp hslot
      obtain ⟨i, rfl, hbetween⟩ := h.unread slot hmem
      refine ⟨i, rfl, between_pop hbetween fun hi => ?_⟩
      simp [hi, h.head] at hne

theorem LossInv.staysBehind_hit_iff (h : LossInv s b ring first last) (p : Kprobe) (hit : Hit) :
    StaysBehind s (.hit p hit) ↔ last + 1 ≠ first := by
  have hmeets : indexOf (last + 1) = indexOf first ↔ last + 1 = first :=
    ⟨fun h => indexOf_inj h, congrArg indexOf⟩
  simp [StaysBehind, h.output, Ptr.target?, h.tail, h.head, indexOf_succ, hmeets]

theorem LossInv.step (h : LossInv s b ring first last) {op : BufferOp}
    (hop : auditedOp s op = some (s', ())) (hok : StaysBehind s op) :
    ∃ b' ring' first' last', LossInv s' b' ring' first' last' := by
  cases op with
  | hit p hit =>
    obtain ⟨-, b', ring', -, -, hkeeps⟩ := h.hit hop
    exact ⟨b', ring', first, last + 1, hkeeps ((h.staysBehind_hit_iff p hit).mp hok)⟩
  | read buf copied copiedResult =>
    obtain ⟨b', first', h'⟩ := h.read hop
    exact ⟨b', ring, first', last, h'⟩

/-- A hit that meets the head counts a loss that is none. -/
theorem LossInv.staysBehind (h : LossInv s b ring first last) {op : BufferOp}
    (hop : auditedOp s op = some (s', ())) (hcounted : LossAccounted s') : StaysBehind s op := by
  obtain ⟨b₁, hb₁, hloss, -⟩ := hcounted
  cases op with
  | hit p hit =>
    obtain ⟨hnone, b', ring', hb', hcounts, -⟩ := h.hit hop
    obtain rfl : b' = b₁ := Ptr.valid.inj (hb'.symm.trans hb₁)
    refine (h.staysBehind_hit_iff p hit).mpr fun hmeets => ?_
    rw [hcounts hmeets, hnone] at hloss
    exact absurd hloss (by decide)
  | read buf copied copiedResult => trivial

end Steps

/-! ## Runs -/

theorem lossInv_open {s₀ s : MprobeState} {outputBlock : Option RingBuffer}
    {dataBlock : Option (CArray 10 Slot)}
    (h : (mprobeDeviceOpen outputBlock dataBlock).exec s₀ = some (s, .returned 0)) :
    ∃ b ring, LossInv ⟨s, ⟨[], 0⟩⟩ b ring 0 0 := by
  obtain ⟨ring, hout⟩ := output_of_open h
  exact ⟨_, ring, hout, rfl, rfl, rfl, rfl, rfl, nofun⟩

/-- In every state of a run of hits and reads `loss` is the number of records overwritten unread,
and the surviving ones are next in order, exactly when no hit of the run advances the tail to
the head. -/
theorem lossAccounted_iff {s₀ s : MprobeState} {outputBlock : Option RingBuffer}
    {dataBlock : Option (CArray 10 Slot)}
    (hopen : (mprobeDeviceOpen outputBlock dataBlock).exec s₀ = some (s, .returned 0))
    {ops : List BufferOp} {t : Audited} {os : List Unit}
    (hrun : run auditedOp ⟨s, ⟨[], 0⟩⟩ ops = some (t, os)) :
    (∀ before u os', before <+: ops → run auditedOp ⟨s, ⟨[], 0⟩⟩ before = some (u, os') →
      LossAccounted u) ↔ Along auditedOp StaysBehind ⟨s, ⟨[], 0⟩⟩ ops := by
  let Inv (u : Audited) : Prop := ∃ b ring first last, LossInv u b ring first last
  have hP : ∀ u, Inv u → LossAccounted u := by
    rintro u ⟨b, ring, first, last, h⟩
    exact h.lossAccounted
  have hkeeps : ∀ u op u' o, Inv u → auditedOp u op = some (u', o) → StaysBehind u op →
      Inv u' := by
    rintro u op u' ⟨⟩ ⟨b, ring, first, last, h⟩ hop hok
    exact h.step hop hok
  have hneeds : ∀ u op u' o, Inv u → auditedOp u op = some (u', o) → LossAccounted u' →
      StaysBehind u op := by
    rintro u op u' ⟨⟩ ⟨b, ring, first, last, h⟩ hop hcounted
    exact h.staysBehind hop hcounted
  obtain ⟨b, ring, h⟩ := lossInv_open hopen
  have hinit : Inv ⟨s, ⟨[], 0⟩⟩ := ⟨b, ring, 0, 0, h⟩
  exact always_iff_along auditedOp hP hkeeps hneeds hinit hrun

/-- The state of the driver opened with fresh blocks. -/
def openedState : MprobeState := ⟨none, .valid ⟨.valid fun _ _ => 0, 0, 0, 0, 0⟩, [], 0⟩

theorem exec_open_openedState :
    (mprobeDeviceOpen (some ⟨.null, 7, 7, 7, 7⟩) (some fun _ _ => 0)).exec mprobeDriverInit =
      some (openedState, .returned 0) := rfl

def someHit : BufferOp := .hit ⟨0, 8⟩ ⟨1, 2, 3⟩

/-- Nine hits, a read and one more hit: the tail does not reach the head. -/
theorem lossAccounted_iff_ten_hits :
    ∃ t os, run auditedOp ⟨openedState, ⟨[], 0⟩⟩
        (List.replicate 9 someHit ++ [.read (fun _ => 0) 20 4, someHit]) = some (t, os) ∧
      LossAccounted t ∧ t.ledger.unread.length = 9 := by
  obtain ⟨t, os, hrun, hunread⟩ : ∃ t os, run auditedOp ⟨openedState, ⟨[], 0⟩⟩
      (List.replicate 9 someHit ++ [.read (fun _ => 0) 20 4, someHit]) = some (t, os) ∧
      t.ledger.unread.length = 9 := ⟨_, _, rfl, by decide⟩
  have hok : Along auditedOp StaysBehind ⟨openedState, ⟨[], 0⟩⟩
      (List.replicate 9 someHit ++ [.read (fun _ => 0) 20 4, someHit]) := by decide +kernel
  exact ⟨t, os, hrun, (lossAccounted_iff exec_open_openedState hrun).mpr hok _ t os
    (List.prefix_refl _) hrun, hunread⟩

/-- `loss` counts the records overwritten unread in every state from the open on. -/
def LossCounts : Prop :=
  ∀ s₀ s outputBlock dataBlock, (mprobeDeviceOpen outputBlock dataBlock).exec s₀ =
    some (s, .returned 0) → ∀ ops t os, run auditedOp ⟨s, ⟨[], 0⟩⟩ ops = some (t, os) →
    LossAccounted t

/-- Ten hits fill the ten slots and overwrite nothing; the tenth counts as a loss. -/
theorem not_lossCounts : ¬ LossCounts := by
  intro h
  obtain ⟨t, os, hrun, hbuffer, hledger⟩ : ∃ t os, run auditedOp ⟨openedState, ⟨[], 0⟩⟩
      (List.replicate 10 someHit) = some (t, os) ∧
      t.state.mprobeOutput.target?.map (·.loss) = some 1 ∧ t.ledger.overwritten = 0 :=
    ⟨_, _, rfl, rfl, by decide⟩
  obtain ⟨b, hb, hloss, -⟩ := h _ _ _ _ exec_open_openedState _ t os hrun
  obtain hone : b.loss = 1 := by simpa [hb, Ptr.target?] using hbuffer
  rw [hone, hledger] at hloss
  exact absurd hloss (by decide)

end KernelDrivers.Mprobe
