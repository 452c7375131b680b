import KernelDrivers.Hcsr04.SampleBuffer

/-!
# The order of the samples read

A write advances the index and a read takes the sample at it and goes back. So a read returns the
newest unread sample, and it is the oldest one only where the two are equal.
-/

namespace KernelDrivers.Hcsr04
open Lib

/-- The device with the slots whose samples were neither read nor overwritten, the oldest
first. -/
structure AuditedFifo where
  device : Hcsr04Device
  unread : List Int32

def Hcsr04Device.sampleAt (device : Hcsr04Device) (i : Int32) : Option FifoBuffer :=
  device.buffer.load i.toInt

/-- A write uses the slot it advances to. A read takes the sample at the index unless it finds the
slot marked. -/
def auditedFifoOp (s : AuditedFifo) : FifoOp → Option (AuditedFifo × Option FifoBuffer)
  | .write buffer => (fifoWrite s.device buffer).map fun (d, _) =>
      (⟨d, s.unread.filter (· ≠ d.bufferIndex) ++ [d.bufferIndex]⟩, none)
  | .read => (s.device.sampleAt s.device.bufferIndex).bind fun slot =>
      (fifoRead s.device).map fun (d, sample) =>
        (⟨d, if slot.tsc = NO_TSC then s.unread
          else s.unread.filter (· ≠ s.device.bufferIndex)⟩, some sample)

/-- A read returns the oldest unread sample, if there is one. -/
def ReadsOldest (s : AuditedFifo) : FifoOp → Prop
  | .write _ => True
  | .read => ∀ oldest ∈ s.unread.head?,
      (fifoRead s.device).map (·.2) = s.device.sampleAt oldest

/-- A read finds the newest unread sample equal to the oldest one. A newest sample with the mark
of an erased slot reads as the report of an empty buffer. -/
def EndsEqual (s : AuditedFifo) : FifoOp → Prop
  | .write _ => True
  | .read => ∀ oldest ∈ s.unread.head?, ∀ newest ∈ s.unread.getLast?,
      ∀ x ∈ s.device.sampleAt oldest, ∀ y ∈ s.device.sampleAt newest,
        y.tsc ≠ NO_TSC ∧ x = y ∨ y.tsc = NO_TSC ∧ x = emptyReport

/-! ## The slots in use -/

/-- The `n` slots from `top` down, the last one first. -/
def slotsBelow {m : Nat} [NeZero m] (top : Fin m) (n : Nat) : List Int32 :=
  ((List.range n).map fun k => Int32.ofNat (below top k)).reverse

theorem slotsBelow_write : ∀ (top : Fin 5) (n : Fin 6),
    (slotsBelow top n).filter (· ≠ Int32.ofNat (top + 1 : Fin 5)) ++
      [Int32.ofNat (top + 1 : Fin 5)] = slotsBelow (top + 1) (min (n + 1) 5) := by
  decide

theorem slotsBelow_read : ∀ (top n : Fin 5),
    (slotsBelow top (n + 1)).filter (· ≠ Int32.ofNat top) = slotsBelow (top - 1) n := by
  decide

theorem getLast?_slotsBelow (top : Fin 5) (n : Nat) :
    (slotsBelow top (n + 1)).getLast? = some (Int32.ofNat top) := by
  simp [slotsBelow, List.head?_range]

theorem head?_slotsBelow (top : Fin 5) (n : Nat) :
    (slotsBelow top (n + 1)).head? = some (Int32.ofNat (below top n)) := by
  simp [slotsBelow, List.range_succ]

/-- The unread samples are in the `n` slots from `top` down, and the other slots are marked. -/
structure FifoInv (s : AuditedFifo) (top : Fin 5) (n : Nat) : Prop where
  index : s.device.bufferIndex = Int32.ofNat top
  fits : n ≤ 5
  unread : s.unread = slotsBelow top n
  free : ∀ k, n ≤ k → k < 5 → Erased (s.device.buffer (below top k))

section Steps

variable {s s' : AuditedFifo} {top : Fin 5} {n : Nat}

theorem sampleAt_fin (device : Hcsr04Device) (i : Fin 5) :
    device.sampleAt (Int32.ofNat i) = some (device.buffer i) := by
  rw [Hcsr04Device.sampleAt, index_toInt, CArray.load_fin]

theorem FifoInv.write (h : FifoInv s top n) (buffer : FifoBuffer) :
    ∃ s', auditedFifoOp s (.write buffer) = some (s', none) ∧
      FifoInv s' (top + 1) (min (n + 1) 5) := by
  refine ⟨_, by rw [auditedFifoOp, fifoWrite_eq h.index, Option.map_some], rfl, by omega, ?_, ?_⟩
  · have hfits := h.fits
    simpa only [h.unread] using slotsBelow_write top ⟨n, by omega⟩
  · intro k hk hlt
    cases k with
    | zero => omega
    | succ k =>
      have hne : below (top + 1) (k + 1) ≠ top + 1 := below_ne (by omega) hlt
      dsimp only
      rw [Function.update_of_ne hne, below_succ, add_sub_cancel_right]
      exact h.free k (by omega) (by omega)

/-- A read that finds a mark changes nothing; any other takes the sample at the index. -/
theorem auditedFifoOp_read (h : s.device.bufferIndex = Int32.ofNat top) :
    auditedFifoOp s .read =
      if (s.device.buffer top).tsc = NO_TSC then some (s, some emptyReport)
      else some (⟨{ s.device with
        buffer := Function.update s.device.buffer top noSample
        bufferIndex := Int32.ofNat (top - 1 : Fin 5) },
        s.unread.filter (· ≠ Int32.ofNat top)⟩, some (s.device.buffer top)) := by
  rw [auditedFifoOp, h, sampleAt_fin, Option.bind_some, fifoRead_eq h]
  split
  · rfl
  · rfl

theorem FifoInv.read (h : FifoInv s top n) :
    ∃ s' sample top' n', auditedFifoOp s .read = some (s', some sample) ∧
      FifoInv s' top' n' := by
  by_cases hmark : (s.device.buffer top).tsc = NO_TSC
  · exact ⟨s, emptyReport, top, n, (auditedFifoOp_read h.index).trans (if_pos hmark), h⟩
  · obtain ⟨m, rfl⟩ : ∃ m, n = m + 1 := by
      refine Nat.exists_eq_succ_of_ne_zero fun hn => hmark ?_
      have hfree := h.free 0 hn.le (by omega)
      rwa [below_zero] at hfree
    have hfits := h.fits
    refine ⟨_, s.device.buffer top, top - 1, m,
      (auditedFifoOp_read h.index).trans (if_neg hmark), rfl, by omega, ?_, fun k hk hlt => ?_⟩
    · simpa only [h.unread] using slotsBelow_read top ⟨m, by omega⟩
    · rw [← below_succ]
      dsimp only
      by_cases hlast : k + 1 = 5
      · rw [hlast, below_self, Function.update_self]
        rfl
      · rw [Function.update_of_ne (below_ne (by omega) (by omega))]
        exact h.free (k + 1) (by omega) (by omega)

theorem FifoInv.step (h : FifoInv s top n) (op : FifoOp) :
    ∃ s' reply top' n', auditedFifoOp s op = some (s', reply) ∧ FifoInv s' top' n' := by
  cases op with
  | write buffer =>
    obtain ⟨s', hop, h'⟩ := h.write buffer
    exact ⟨s', none, _, _, hop, h'⟩
  | read =>
    obtain ⟨s', sample, top', n', hop, h'⟩ := h.read
    exact ⟨s', some sample, top', n', hop, h'⟩

/-- The read returns what is at the top. -/
theorem FifoInv.read_iff (h : FifoInv s top n) (op : FifoOp) :
    ReadsOldest s op ↔ EndsEqual s op := by
  cases op with
  | write buffer => exact Iff.rfl
  | read =>
    cases n with
    | zero => simp [ReadsOldest, EndsEqual, h.unread, slotsBelow]
    | succ n =>
      have hread : (fifoRead s.device).map (·.2) =
          some (if (s.device.buffer top).tsc = NO_TSC then emptyReport
            else s.device.buffer top) := by
        rw [fifoRead_eq h.index]
        split
        · rfl
        · rfl
      simp only [ReadsOldest, EndsEqual, h.unread, head?_slotsBelow, getLast?_slotsBelow, hread,
        sampleAt_fin, Option.mem_def, Option.some_inj, forall_eq']
      by_cases hmark : (s.device.buffer top).tsc = NO_TSC
      · simp [hmark, eq_comm]
      · simp [hmark, eq_comm]

end Steps

/-! ## Runs -/

theorem fifoInv_initializeDevice (device : Hcsr04Device) :
    FifoInv ⟨initializeDevice device, []⟩ 0 0 :=
  ⟨rfl, by omega, rfl, fun _ _ _ => rfl⟩

/-- From initialisation every run of calls has a result, and each of its reads returns the oldest
unread sample exactly when each finds the newest one equal to it. -/
theorem readsOldest_iff (device : Hcsr04Device) (ops : List FifoOp) :
    (∃ t replies, run auditedFifoOp ⟨initializeDevice device, []⟩ ops = some (t, replies)) ∧
      (Along auditedFifoOp ReadsOldest ⟨initializeDevice device, []⟩ ops ↔
        Along auditedFifoOp EndsEqual ⟨initializeDevice device, []⟩ ops) := by
  let Inv (s : AuditedFifo) : Prop := ∃ top n, FifoInv s top n
  have hinit : Inv ⟨initializeDevice device, []⟩ := ⟨0, 0, fifoInv_initializeDevice device⟩
  have htotal : ∀ s op, Inv s → ∃ s' reply, auditedFifoOp s op = some (s', reply) ∧ Inv s' := by
    rintro s op ⟨top, n, h⟩
    obtain ⟨s', reply, top', n', hop, h'⟩ := h.step op
    exact ⟨s', reply, hop, top', n', h'⟩
  have hstep : ∀ s op s' reply, Inv s → EndsEqual s op →
      auditedFifoOp s op = some (s', reply) → Inv s' := by
    rintro s op s' reply hs - hop
    obtain ⟨s₁, reply₁, hop₁, h₁⟩ := htotal s op hs
    obtain ⟨rfl, -⟩ : s₁ = s' ∧ reply₁ = reply := by simpa [hop₁] using hop
    exact h₁
  constructor
  · obtain ⟨t, replies, hrun, -⟩ := run_total auditedFifoOp htotal hinit ops
    exact ⟨t, replies, hrun⟩
  · exact along_congr auditedFifoOp (fun s op ⟨_, _, h⟩ => h.read_iff op) hstep hinit ops

/-- Two samples and a read: it returns the second. -/
theorem not_readsOldest :
    ¬ ∀ device ops, Along auditedFifoOp ReadsOldest ⟨initializeDevice device, []⟩ ops := by
  intro h
  have hread := (Along.of_append auditedFifoOp
    (h blankDevice ([.write ⟨1, 1⟩, .write ⟨2, 2⟩] ++ [.read])) rfl).1 1 rfl
  exact absurd hread (by decide)

end KernelDrivers.Hcsr04
