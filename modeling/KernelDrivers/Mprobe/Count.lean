import KernelDrivers.Mprobe.Loss

/-!
# The count of unread records

A hit raises `count` unless the tail it has advanced meets the head, and nothing lowers it. So
`count` is the number of unread records only while no read has taken one and no hit has filled
the tenth slot. From the first read that returns a record on, a read of an empty buffer succeeds.
-/

namespace KernelDrivers.Mprobe
open Lib

/-- A read fails, whatever its copies do, and leaves the driver as it was. -/
def ReadFails (s : MprobeState) : Prop :=
  ∀ buf copied copiedResult, ∃ buf',
    (mprobeDeviceRead buf copied copiedResult).exec s = some (s, .readReturned (-EINVAL) buf')

/-- A read whose copy succeeds returns a record. -/
def ReadSucceeds (s : MprobeState) : Prop :=
  ∀ buf copiedResult, ∃ s' record,
    (mprobeDeviceRead buf sizeofUserOutput copiedResult).exec s =
      some (s', .readReturned 20 record)

/-- `count` is the number of unread records, and there is something to read exactly when there is
one. -/
def CountAccounted (s : Audited) : Prop :=
  ∃ b, s.state.mprobeOutput = .valid b ∧ b.count.toNat = s.ledger.unread.length ∧
    (s.ledger.unread = [] → ReadFails s.state) ∧ (s.ledger.unread ≠ [] → ReadSucceeds s.state)

/-- A hit does not advance the tail to the head, and a read finds `count` 0 or its copy fails. -/
def CountKept (s : Audited) : BufferOp → Prop
  | .hit _ _ => ∀ b ∈ s.state.mprobeOutput.target?, (b.tail + 1) % SIZE_OF_BUFFER ≠ b.head
  | .read _ copied _ => ∀ b ∈ s.state.mprobeOutput.target?,
      b.count < 1 ∨ copied < sizeofUserOutput

instance (s : Audited) : (op : BufferOp) → Decidable (CountKept s op)
  | .hit _ _ => inferInstanceAs (Decidable (∀ b ∈ s.state.mprobeOutput.target?, _))
  | .read _ _ _ => inferInstanceAs (Decidable (∀ b ∈ s.state.mprobeOutput.target?, _))

/-- The first slots. -/
def firstSlots (n : Nat) : List Int32 := (List.range n).map Int32.ofNat

@[simp] theorem length_firstSlots (n : Nat) : (firstSlots n).length = n := by simp [firstSlots]

theorem firstSlots_succ (n : Nat) : firstSlots (n + 1) = firstSlots n ++ [Int32.ofNat n] := by
  simp [firstSlots, List.range_succ]

theorem ofNat_inj {j n : Nat} (hj : j < 10) (hn : n < 10) (h : Int32.ofNat j = Int32.ofNat n) :
    j = n :=
  congrArg Fin.val (indexOf_inj (i := ⟨j, hj⟩) (j := ⟨n, hn⟩) h)

theorem not_mem_firstSlots {n : Nat} (hn : n < 10) : Int32.ofNat n ∉ firstSlots n := by
  intro hmem
  obtain ⟨j, hj, heq⟩ := List.mem_map.mp hmem
  have hlt : j < n := List.mem_range.mp hj
  exact absurd (ofNat_inj (by omega) hn heq) (by omega)

/-- After `n` hits and no record returned. -/
structure CountInv (s : Audited) (b : RingBuffer) (ring : CArray 10 Slot) (n : Nat) : Prop where
  output : s.state.mprobeOutput = .valid b
  data : b.data = .valid ring
  head : b.head = indexOf 0
  tail : b.tail = Int32.ofNat (n % 10)
  bound : n < 10
  count : b.count.toNat = n
  unread : s.ledger.unread = firstSlots n

section Steps

variable {s s' : Audited} {b : RingBuffer} {ring : CArray 10 Slot} {n : Nat}

theorem CountInv.count_lt_iff (h : CountInv s b ring n) : b.count < 1 ↔ n = 0 := by
  rw [UInt32.lt_iff_toNat_lt, h.count, UInt32.toNat_one]
  omega

theorem CountInv.countAccounted (h : CountInv s b ring n) : CountAccounted s := by
  refine ⟨b, h.output, by rw [h.count, h.unread, length_firstSlots], fun hempty => ?_,
    fun hsome => ?_⟩
  · have hn : n = 0 := by rw [← length_firstSlots n, ← h.unread, hempty, List.length_nil]
    intro buf copied copiedResult
    obtain ⟨buf', hread⟩ := exec_read_eq h.output h.data h.head buf copied copiedResult
    exact ⟨buf', hread.trans (if_pos (.inl (h.count_lt_iff.mpr hn)))⟩
  · have hn : n ≠ 0 := by
      rintro rfl
      exact hsome h.unread
    intro buf copiedResult
    obtain ⟨_, hread⟩ := exec_read_eq h.output h.data h.head buf sizeofUserOutput copiedResult
    refine ⟨_, _, hread.trans (if_neg ?_)⟩
    rintro (hcount | hcopied)
    · exact hn (h.count_lt_iff.mp hcount)
    · exact absurd hcopied (lt_irrefl _)

/-- A hit always leaves one more unread record, and the tenth is not counted. -/
theorem CountInv.hit (h : CountInv s b ring n) {p : Kprobe} {hit : Hit}
    (hop : auditedOp s (.hit p hit) = some (s', ())) :
    s'.ledger.unread = firstSlots (n + 1) ∧ ∃ b' ring', s'.state.mprobeOutput = .valid b' ∧
      (n = 9 → b'.count.toNat = n) ∧ (n < 9 → CountInv s' b' ring' (n + 1)) := by
  obtain ⟨slot, b', hstore, hdata, hhead, htail, hcount, -⟩ :=
    storeRecord_eq n h.data h.tail ⟨p.addr, hit.tsc, hit.pid, hit.value⟩
  have hs' : s' = ⟨{ s.state with mprobeOutput := .valid b' }, s.ledger.store b.tail⟩ := by
    simpa [auditedOp, mprobePreHandler, h.output, Ptr.target?, hstore, eq_comm] using hop
  have hmod : n % 10 = n := Nat.mod_eq_of_lt h.bound
  have hunread : (s.ledger.store b.tail).unread = firstSlots (n + 1) := by
    have hnew : ∀ slot ∈ firstSlots n, slot ≠ Int32.ofNat n := by
      rintro slot hslot rfl
      exact not_mem_firstSlots h.bound hslot
    have hkept : (firstSlots n).filter (· ≠ Int32.ofNat n) = firstSlots n :=
      List.filter_eq_self.mpr fun slot hslot => decide_eq_true (hnew slot hslot)
    rw [Ledger.store, h.unread, h.tail, hmod, hkept, firstSlots_succ]
  rw [hs']
  refine ⟨hunread, b', Function.update ring (slotOf 10 n) slot, rfl, ?_, fun hn => ?_⟩
  · rintro rfl
    have hmeets : Int32.ofNat ((9 + 1) % 10) = b.head := h.head.symm
    rw [hcount, if_pos hmeets, h.count]
  · have hapart : ¬ Int32.ofNat ((n + 1) % 10) = b.head := by
      rw [h.head, Nat.mod_eq_of_lt (by omega)]
      exact fun heq => absurd (ofNat_inj (n := 0) (by omega) (by omega) heq) (by omega)
    refine ⟨rfl, hdata, hhead.trans h.head, htail, by omega, ?_, hunread⟩
    rw [hcount, if_neg hapart, UInt32.toNat_add, h.count, UInt32.toNat_one]
    omega

/-- A read changes nothing unless it takes the first record, and that one stays counted. -/
theorem CountInv.read (h : CountInv s b ring n) {buf : Slot} {copied copiedResult : Nat}
    (hop : auditedOp s (.read buf copied copiedResult) = some (s', ())) :
    (b.count < 1 ∨ copied < sizeofUserOutput → s' = s) ∧
    (¬ (b.count < 1 ∨ copied < sizeofUserOutput) → s'.ledger.unread.length < n ∧
      ∃ b', s'.state.mprobeOutput = .valid b' ∧ b'.count.toNat = n) := by
  obtain ⟨buf', hread⟩ := exec_read_eq h.output h.data h.head buf copied copiedResult
  constructor
  · intro hfails
    rw [if_pos hfails] at hread
    have hstep := (auditedOp_read h.output hread).symm.trans hop
    exact (Prod.mk.inj (Option.some.inj hstep)).1.symm
  · intro htakes
    rw [if_neg htakes] at hread
    have hstep := (auditedOp_read h.output hread).symm.trans hop
    obtain ⟨rfl, -⟩ := Prod.mk.inj (Option.some.inj hstep)
    refine ⟨?_, _, rfl, h.count⟩
    have hpos : n ≠ 0 := fun hn => htakes (.inl (h.count_lt_iff.mpr hn))
    have hmem : b.head ∈ s.ledger.unread := by
      rw [h.unread, h.head]
      exact List.mem_map.mpr ⟨0, List.mem_range.mpr (by omega), rfl⟩
    calc
      (s.ledger.take b.head).unread.length < s.ledger.unread.length :=
        List.length_filter_lt_length_iff_exists.mpr ⟨b.head, hmem, by simp⟩
      _ = n := by rw [h.unread, length_firstSlots]

/-- The tail meets the head after the tenth hit. -/
theorem CountInv.countKept_hit_iff (h : CountInv s b ring n) (p : Kprobe) (hit : Hit) :
    CountKept s (.hit p hit) ↔ n ≠ 9 := by
  have hlast : ∀ i : Fin 10, indexOf (i + 1) = indexOf 0 ↔ i.val = 9 := by decide
  have htail : b.tail = indexOf ⟨n, h.bound⟩ := by
    rw [h.tail, Nat.mod_eq_of_lt h.bound]
    rfl
  have hmeets : (b.tail + 1) % SIZE_OF_BUFFER = b.head ↔ n = 9 := by
    rw [htail, h.head, indexOf_succ]
    exact hlast ⟨n, h.bound⟩
  simp [CountKept, h.output, Ptr.target?, hmeets]

theorem CountInv.countKept_read_iff (h : CountInv s b ring n) (buf : Slot)
    (copied copiedResult : Nat) : CountKept s (.read buf copied copiedResult) ↔
      b.count < 1 ∨ copied < sizeofUserOutput := by
  simp [CountKept, h.output, Ptr.target?]

theorem CountInv.step (h : CountInv s b ring n) {op : BufferOp}
    (hop : auditedOp s op = some (s', ())) (hok : CountKept s op) :
    ∃ b' ring' n', CountInv s' b' ring' n' := by
  cases op with
  | hit p hit =>
    obtain ⟨-, b', ring', -, -, hnext⟩ := h.hit hop
    have hn := (h.countKept_hit_iff p hit).mp hok
    have hbound := h.bound
    exact ⟨b', ring', n + 1, hnext (by omega)⟩
  | read buf copied copiedResult =>
    obtain rfl := (h.read hop).1 ((h.countKept_read_iff buf copied copiedResult).mp hok)
    exact ⟨b, ring, n, h⟩

/-- A step that is not allowed leaves a wrong count. -/
theorem CountInv.countKept (h : CountInv s b ring n) {op : BufferOp}
    (hop : auditedOp s op = some (s', ())) (hcounted : CountAccounted s') : CountKept s op := by
  obtain ⟨c, hc, hcount, -, -⟩ := hcounted
  cases op with
  | hit p hit =>
    obtain ⟨hunread, b', ring', hb', hsame, -⟩ := h.hit hop
    obtain rfl : b' = c := Ptr.valid.inj (hb'.symm.trans hc)
    refine (h.countKept_hit_iff p hit).mpr fun hn => ?_
    rw [hsame hn, hunread, length_firstSlots] at hcount
    omega
  | read buf copied copiedResult =>
    refine (h.countKept_read_iff buf copied copiedResult).mpr ?_
    by_contra htakes
    obtain ⟨hless, b', hb', hsame⟩ := (h.read hop).2 htakes
    obtain rfl : b' = c := Ptr.valid.inj (hb'.symm.trans hc)
    omega

end Steps

/-! ## Runs -/

theorem countInv_open {s₀ s : MprobeState} {outputBlock : Option RingBuffer}
    {dataBlock : Option (CArray 10 Slot)}
    (h : (mprobeDeviceOpen outputBlock dataBlock).exec s₀ = some (s, .returned 0)) :
    ∃ b ring, CountInv ⟨s, ⟨[], 0⟩⟩ b ring 0 := by
  obtain ⟨ring, hout⟩ := output_of_open h
  exact ⟨_, ring, hout, rfl, rfl, rfl, by omega, rfl, rfl⟩

/-- In every state of a run of hits and reads `count` is the number of unread records, and a read
finds something exactly when there is one, as long as no hit of the run advances the tail to the
head and no read of it returns a record. -/
theorem countAccounted_iff {s₀ s : MprobeState} {outputBlock : Option RingBuffer}
    {dataBlock : Option (CArray 10 Slot)}
    (hopen : (mprobeDeviceOpen outputBlock dataBlock).exec s₀ = some (s, .returned 0))
    {ops : List BufferOp} {t : Audited} {os : List Unit}
    (hrun : run auditedOp ⟨s, ⟨[], 0⟩⟩ ops = some (t, os)) :
    (∀ before u os', before <+: ops → run auditedOp ⟨s, ⟨[], 0⟩⟩ before = some (u, os') →
      CountAccounted u) ↔ Along auditedOp CountKept ⟨s, ⟨[], 0⟩⟩ ops := by
  let Inv (u : Audited) : Prop := ∃ b ring n, CountInv u b ring n
  have hP : ∀ u, Inv u → CountAccounted u := by
    rintro u ⟨b, ring, n, h⟩
    exact h.countAccounted
  have hkeeps : ∀ u op u' o, Inv u → auditedOp u op = some (u', o) → CountKept u op →
      Inv u' := by
    rintro u op u' ⟨⟩ ⟨b, ring, n, h⟩ hop hok
    exact h.step hop hok
  have hneeds : ∀ u op u' o, Inv u → auditedOp u op = some (u', o) → CountAccounted u' →
      CountKept u op := by
    rintro u op u' ⟨⟩ ⟨b, ring, n, h⟩ hop hcounted
    exact h.countKept hop hcounted
  obtain ⟨b, ring, h⟩ := countInv_open hopen
  exact always_iff_along auditedOp hP hkeeps hneeds ⟨b, ring, 0, h⟩ hrun

/-- Reads that find nothing, nine hits and a read whose copy fails. -/
theorem countAccounted_iff_nine_hits :
    ∃ t os, run auditedOp ⟨openedState, ⟨[], 0⟩⟩
        (.read (fun _ => 0) 20 4 :: List.replicate 9 someHit ++ [.read (fun _ => 0) 7 4]) =
          some (t, os) ∧ CountAccounted t ∧ t.ledger.unread.length = 9 := by
  obtain ⟨t, os, hrun, hunread⟩ : ∃ t os, run auditedOp ⟨openedState, ⟨[], 0⟩⟩
      (.read (fun _ => 0) 20 4 :: List.replicate 9 someHit ++ [.read (fun _ => 0) 7 4]) =
        some (t, os) ∧ t.ledger.unread.length = 9 := ⟨_, _, rfl, by decide⟩
  have hok : Along auditedOp CountKept ⟨openedState, ⟨[], 0⟩⟩
      (.read (fun _ => 0) 20 4 :: List.replicate 9 someHit ++ [.read (fun _ => 0) 7 4]) := by
    decide +kernel
  exact ⟨t, os, hrun, (countAccounted_iff exec_open_openedState hrun).mpr hok _ t os
    (List.prefix_refl _) hrun, hunread⟩

/-- `count` is right in every state from the open on. -/
def CountsRecords : Prop :=
  ∀ s₀ s outputBlock dataBlock, (mprobeDeviceOpen outputBlock dataBlock).exec s₀ =
    some (s, .returned 0) → ∀ ops t os, run auditedOp ⟨s, ⟨[], 0⟩⟩ ops = some (t, os) →
    CountAccounted t

/-- One hit and one read leave nothing to read and a `count` of 1. -/
theorem not_countsRecords : ¬ CountsRecords := by
  intro h
  obtain ⟨t, os, hrun, hbuffer, hledger⟩ : ∃ t os, run auditedOp ⟨openedState, ⟨[], 0⟩⟩
      [someHit, .read (fun _ => 0) 20 4] = some (t, os) ∧
      t.state.mprobeOutput.target?.map (·.count) = some 1 ∧ t.ledger.unread = [] :=
    ⟨_, _, rfl, rfl, by decide⟩
  obtain ⟨b, hb, hcount, -⟩ := h _ _ _ _ exec_open_openedState _ t os hrun
  obtain hone : b.count = 1 := by simpa [hb, Ptr.target?] using hbuffer
  rw [hone, hledger] at hcount
  exact absurd hcount (by decide)

end KernelDrivers.Mprobe
