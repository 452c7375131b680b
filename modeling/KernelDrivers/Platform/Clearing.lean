import KernelDrivers.Platform.Measurement
import KernelDrivers.Hcsr04.SampleBuffer

/-!
# Clearing the sample buffer

A write with a nonzero operand clears the buffer. The misc driver erases every slot and resets
the index; the platform driver resets the index only. So what the platform driver's device
answers from then on depends on the samples that can still be read from slot 0 down.
-/

namespace KernelDrivers.Platform
open Lib Hcsr04

/-! ## The buffer under any samples -/

/-- A call on the samples that can be read, newest first. A sample written with the time stamp
of an erased slot hides those below it. -/
def readableOp (samples : List FifoBuffer) : FifoOp → List FifoBuffer × Option FifoBuffer
  | .write buffer => (if buffer.tsc = NO_TSC then [] else (buffer :: samples).take 5, none)
  | .read =>
    match samples with
    | [] => ([], some emptyReport)
    | newest :: older => (older, some newest)

theorem readableOp_write_erased (samples : List FifoBuffer) {buffer : FifoBuffer}
    (h : buffer.tsc = NO_TSC) : readableOp samples (.write buffer) = ([], none) := by
  rw [readableOp, if_pos h]

theorem readableOp_write (samples : List FifoBuffer) {buffer : FifoBuffer}
    (h : buffer.tsc ≠ NO_TSC) :
    readableOp samples (.write buffer) = ((buffer :: samples).take 5, none) := by
  rw [readableOp, if_neg h]

def answers : List FifoBuffer → List FifoOp → List (Option FifoBuffer)
  | _, [] => []
  | samples, op :: ops => (readableOp samples op).2 :: answers (readableOp samples op).1 ops

/-- The samples can be read from the buffer. -/
structure Reads (device : Hcsr04Device) (top : Fin 5) (samples : List FifoBuffer) : Prop where
  index : device.bufferIndex = Int32.ofNat top
  stack : ReadableIn Erased device.buffer top samples

theorem Reads.step {device : Hcsr04Device} {top : Fin 5} {samples : List FifoBuffer}
    (h : Reads device top samples) (op : FifoOp) :
    ∃ device' top', fifoOp device op = some (device', (readableOp samples op).2) ∧
      Reads device' top' (readableOp samples op).1 := by
  cases op with
  | write buffer =>
    refine ⟨{ device with
      buffer := Function.update device.buffer (top + 1) buffer
      bufferIndex := Int32.ofNat (top + 1 : Fin 5) }, top + 1, ?_, rfl, ?_⟩
    · simp only [fifoOp, fifoWrite, h.index, index_next, index_toInt, CArray.store_fin,
        Option.map_some]
      rfl
    · by_cases hbuffer : buffer.tsc = NO_TSC
      · have hmark : Erased (Function.update device.buffer (top + 1) buffer (top + 1)) := by
          rwa [Function.update_self]
        rw [readableOp_write_erased samples hbuffer]
        exact .of_marked hmark
      · rw [readableOp_write samples hbuffer]
        exact h.stack.push hbuffer
  | read =>
    cases samples with
    | nil =>
      have hslot : (device.buffer top).tsc = NO_TSC := h.stack.top_marked
      refine ⟨device, top, ?_, h⟩
      simp only [fifoOp, fifoRead, h.index, index_toInt, CArray.load_fin, Option.bind_some, hslot,
        if_true]
      rfl
    | cons newest older =>
      have hslot : device.buffer top = newest := h.stack.top_eq
      have htsc : ¬ newest.tsc = NO_TSC := h.stack.unmarked newest List.mem_cons_self
      refine ⟨{ device with
        buffer := Function.update device.buffer top noSample
        bufferIndex := Int32.ofNat (top - 1 : Fin 5) }, top - 1, ?_, rfl, h.stack.pop rfl⟩
      simp only [fifoOp, fifoRead, h.index, index_toInt, CArray.load_fin, CArray.store_fin, hslot,
        htsc, if_false, index_back, Option.bind_some, Option.map_some]
      rfl

theorem Reads.run {device : Hcsr04Device} {top : Fin 5} {samples : List FifoBuffer}
    (h : Reads device top samples) (ops : List FifoOp) :
    ∃ device' top' samples', Lib.run fifoOp device ops = some (device', answers samples ops) ∧
      Reads device' top' samples' := by
  induction ops generalizing device top samples with
  | nil => exact ⟨device, top, samples, rfl, h⟩
  | cons op ops ih =>
    obtain ⟨d₁, top₁, hstep, h₁⟩ := h.step op
    obtain ⟨device', top', samples', hrun, h'⟩ := ih h₁
    exact ⟨device', top', samples', run_cons_eq_some.mpr ⟨d₁, _, _, hstep, hrun, rfl⟩, h'⟩

/-! ## Buffers that answer as an empty one -/

/-- Samples that look like the empty report at the end of the stack make no difference. -/
theorem answers_append_reports (samples : List FifoBuffer) (j : Nat) (ops : List FifoOp) :
    answers (samples ++ List.replicate j emptyReport) ops = answers samples ops := by
  induction ops generalizing samples j with
  | nil => rfl
  | cons op ops ih =>
    cases op with
    | write buffer =>
      by_cases hbuffer : buffer.tsc = NO_TSC
      · simp only [answers, readableOp_write_erased _ hbuffer]
      · have hstack : (buffer :: (samples ++ List.replicate j emptyReport)).take 5 =
            (buffer :: samples).take 5 ++
              List.replicate (min (5 - (samples.length + 1)) j) emptyReport := by
          rw [← List.cons_append, List.take_append, List.take_replicate, List.length_cons]
        simp only [answers, readableOp_write _ hbuffer]
        rw [hstack, ih]
    | read =>
      match samples, j with
      | [], 0 => rfl
      | [], j + 1 => exact congrArg (some emptyReport :: ·) (ih [] j)
      | newest :: older, j => exact congrArg (some newest :: ·) (ih older j)

theorem eq_reports_of_answers {samples : List FifoBuffer}
    (h : ∀ ops, answers [] ops = answers samples ops) :
    ∀ sample ∈ samples, sample = emptyReport := by
  induction samples with
  | nil => nofun
  | cons newest older ih =>
    have hfirst : emptyReport = newest := by
      simpa [answers, readableOp] using h [.read]
    have hrest : ∀ ops, answers [] ops = answers older ops := by
      intro ops
      simpa [answers, readableOp, hfirst] using h (.read :: ops)
    intro sample hsample
    rcases List.mem_cons.mp hsample with rfl | hsample
    · exact hfirst.symm
    · exact ih hrest sample hsample

/-- The samples are answered as an empty buffer's exactly when each looks like the empty
report. -/
theorem answers_eq_iff {samples : List FifoBuffer} :
    (∀ ops, answers [] ops = answers samples ops) ↔ ∀ sample ∈ samples, sample = emptyReport := by
  refine ⟨eq_reports_of_answers, fun h ops => ?_⟩
  rw [List.eq_replicate_of_mem h]
  exact (answers_append_reports [] _ ops).symm

/-! ## The two ways to clear -/

/-- The device with the first `k` slots erased. -/
def erased (device : Hcsr04Device) (k : Nat) : Hcsr04Device :=
  { device with buffer := fun i => if i.val < k then noSample else device.buffer i }

section Misc

variable (env : KernelEnv) (s : Shared) (operand : Int32) (created : Bool)

/-- A write of the misc driver at one of its statements. -/
abbrev miscWrite (pc : Hcsr04.WritePc) : Hcsr04.Thread := .write ⟨operand, created, pc⟩

theorem erase_slot (i : Fin 5) : ∃ os, run (Hcsr04.deviceMove env)
    ⟨s.setDevice (erased s.device i), [miscWrite operand created (.eraseDistance (Int32.ofNat i))]⟩
      (Hcsr04.stepsOf 0 2) =
    some (⟨s.setDevice (erased s.device (i + 1)),
      [miscWrite operand created (.eraseDistance (Int32.ofNat i + 1))]⟩, os) := by
  have hlt : Int32.ofNat i < FIFO_SIZE := by
    revert i
    decide
  let device := erased s.device i
  let half : Hcsr04Device := { device with
    buffer := Function.update device.buffer i { device.buffer i with distance := NO_VALUE } }
  have hdistance : Hcsr04.threadStep env
      (miscWrite operand created (.eraseDistance (Int32.ofNat i))) (s.setDevice device) =
      some (s.setDevice half, miscWrite operand created (.eraseTsc (Int32.ofNat i))) := by
    simp only [Hcsr04.threadStep, Hcsr04.hcsr04Write, hlt, if_true, assignSlot, Shared.setDevice,
      index_toInt, CArray.load_fin, CArray.store_fin, Option.bind_some, Option.map_some]
    rfl
  let whole : Hcsr04Device := { half with
    buffer := Function.update half.buffer i { half.buffer i with tsc := NO_TSC } }
  have hwhole : whole = erased s.device (i + 1) := by
    simp only [whole, half, device, erased, Function.update_idem, Function.update_self]
    congr 1
    funext j
    by_cases hj : j = i
    · subst hj
      simp [noSample]
    · have hiff : j.val < i.val + 1 ↔ j.val < i.val := by omega
      simp only [Function.update_of_ne hj, hiff]
  have htsc : Hcsr04.threadStep env (miscWrite operand created (.eraseTsc (Int32.ofNat i)))
      (s.setDevice half) = some (s.setDevice (erased s.device (i + 1)),
        miscWrite operand created (.eraseDistance (Int32.ofNat i + 1))) := by
    rw [← hwhole]
    simp only [Hcsr04.threadStep, Hcsr04.hcsr04Write, assignSlot, Shared.setDevice,
      index_toInt, CArray.load_fin, CArray.store_fin, Option.bind_some, Option.map_some]
    rfl
  exact ⟨_, run_trans _ (run_only_thread hdistance) (run_only_thread htsc)⟩

theorem erase_slots {k : Nat} (hk : k ≤ 5) : ∃ os, run (Hcsr04.deviceMove env)
    ⟨s, [miscWrite operand created (.eraseDistance 0)]⟩ (Hcsr04.stepsOf 0 (2 * k)) =
    some (⟨s.setDevice (erased s.device k),
      [miscWrite operand created (.eraseDistance (Int32.ofNat k))]⟩, os) := by
  induction k with
  | zero => exact ⟨[], by simp [Hcsr04.stepsOf, erased, Shared.setDevice]⟩
  | succ k ih =>
    obtain ⟨os, hrun⟩ := ih (by omega)
    obtain ⟨os', hslot⟩ := erase_slot env s operand created ⟨k, by omega⟩
    have hmoves : Hcsr04.stepsOf 0 (2 * (k + 1)) =
        Hcsr04.stepsOf 0 (2 * k) ++ Hcsr04.stepsOf 0 2 := List.replicate_add _ _ _
    have hindex : Int32.ofNat k + 1 = Int32.ofNat (k + 1) := (Int32.ofNat_add k 1).symm
    rw [hindex] at hslot
    exact ⟨_, by rw [hmoves]; exact run_trans _ hrun hslot⟩

end Misc

/-- The calls before the measurement: the call has handled its operand and is about to test
whether a measurement is in progress. -/
def miscClears (operand : Int32) (created : Bool) : List (PoolMove Hcsr04.Thread) :=
  .start (miscWrite operand created .testConfigured) :: Hcsr04.stepsOf 0 13

def platformClears (operand : Int32) (created : Bool) : List (PoolMove Thread) :=
  .start (.write ⟨operand, created, .testConfigured⟩) :: List.replicate 3 (.step 0)

def Configured (device : Hcsr04Device) : Prop :=
  device.arePinsConfigured ≠ 0 ∧ device.areMDeltaConfigured ≠ 0

/-- The misc driver erases every slot. -/
theorem run_miscClears (env : KernelEnv) {s : Shared} (h : Configured s.device) {operand : Int32}
    (hoperand : operand ≠ 0) (created : Bool) :
    ∃ os, run (Hcsr04.deviceMove env) ⟨s, []⟩ (miscClears operand created) =
      some (⟨s.setDevice { s.device with buffer := fun _ => noSample, bufferIndex := 0 },
        [miscWrite operand created .testInProgress]⟩, os) := by
  have hstart : run (Hcsr04.deviceMove env) ⟨s, []⟩
      [.start (miscWrite operand created .testConfigured)] =
      some (⟨s, [miscWrite operand created .testConfigured]⟩, [()]) := rfl
  have htestConfigured : Hcsr04.threadStep env (miscWrite operand created .testConfigured) s =
      some (s, miscWrite operand created .copyFromUser) := by
    simp [Hcsr04.threadStep, Hcsr04.hcsr04Write, h.1, h.2]
  have hcopyFromUser : Hcsr04.threadStep env (miscWrite operand created .copyFromUser) s =
      some (s, miscWrite operand created (.eraseDistance 0)) := by
    simp [Hcsr04.threadStep, Hcsr04.hcsr04Write, hoperand]
  obtain ⟨os, herase⟩ := erase_slots env s operand created (Nat.le_refl 5)
  have hall : erased s.device 5 = { s.device with buffer := fun _ => noSample } := by
    simp [erased]
  have hreset : Hcsr04.threadStep env (miscWrite operand created (.eraseDistance (Int32.ofNat 5)))
      (s.setDevice (erased s.device 5)) =
      some (s.setDevice { s.device with buffer := fun _ => noSample, bufferIndex := 0 },
        miscWrite operand created .testInProgress) := by
    rw [hall]
    rfl
  exact ⟨_, run_trans _ hstart (run_trans _ (run_only_thread htestConfigured)
    (run_trans _ (run_only_thread hcopyFromUser) (run_trans _ herase (run_only_thread hreset))))⟩

/-- The platform driver resets the index. -/
theorem run_platformClears (env : KernelEnv) {s : Shared} (h : Configured s.device)
    {operand : Int32} (hoperand : operand ≠ 0) (created : Bool) :
    ∃ os, run (deviceMove env) ⟨s, []⟩ (platformClears operand created) =
      some (⟨s.setDevice { s.device with bufferIndex := 0 },
        [.write ⟨operand, created, .testInProgress⟩]⟩, os) := by
  have hstart : run (deviceMove env) ⟨s, []⟩
      [.start (.write ⟨operand, created, .testConfigured⟩)] =
      some (⟨s, [.write ⟨operand, created, .testConfigured⟩]⟩, [()]) := rfl
  have htestConfigured : threadStep env (.write ⟨operand, created, .testConfigured⟩) s =
      some (s, .write ⟨operand, created, .copyFromUser⟩) := by
    simp [threadStep, hcsr04Write, h.1, h.2]
  have hcopyFromUser : threadStep env (.write ⟨operand, created, .copyFromUser⟩) s =
      some (s, .write ⟨operand, created, .resetIndex⟩) := by
    simp [threadStep, hcsr04Write, hoperand]
  have hreset : threadStep env (.write ⟨operand, created, .resetIndex⟩) s =
      some (s.setDevice { s.device with bufferIndex := 0 },
        .write ⟨operand, created, .testInProgress⟩) := rfl
  exact ⟨_, run_trans _ hstart (run_trans _ (run_only_thread htestConfigured)
    (run_trans _ (run_only_thread hcopyFromUser) (run_only_thread hreset)))⟩

/-! ## The two devices after clearing -/

/-- Until the next write every read of either device reports an empty buffer, and from then on
both answer alike. -/
structure ClearedAlike (misc platform : Hcsr04Device) : Prop where
  miscEmpty : ∀ n, ∃ d, run fifoOp misc (List.replicate n .read) =
    some (d, List.replicate n (some emptyReport))
  platformEmpty : ∀ n, ∃ d, run fifoOp platform (List.replicate n .read) =
    some (d, List.replicate n (some emptyReport))
  alike : ∀ ops, ∃ d d' replies, run fifoOp misc ops = some (d, replies) ∧
    run fifoOp platform ops = some (d', replies)

theorem answers_reads (n : Nat) :
    answers [] (List.replicate n .read) = List.replicate n (some emptyReport) := by
  induction n with
  | zero => rfl
  | succ n ih => exact congrArg (some emptyReport :: ·) ih

theorem clearedAlike_iff {misc platform : Hcsr04Device} {top top' : Fin 5}
    {samples : List FifoBuffer} (hmisc : Reads misc top [])
    (hplatform : Reads platform top' samples) :
    ClearedAlike misc platform ↔ ∀ sample ∈ samples, sample = emptyReport := by
  rw [← answers_eq_iff]
  constructor
  · intro h ops
    obtain ⟨d, d', replies, hd, hd'⟩ := h.alike ops
    obtain ⟨_, _, _, hrun, -⟩ := hmisc.run ops
    obtain ⟨_, _, _, hrun', -⟩ := hplatform.run ops
    rw [hrun] at hd
    rw [hrun'] at hd'
    rw [(Prod.mk.inj (Option.some.inj hd)).2, (Prod.mk.inj (Option.some.inj hd')).2]
  · intro h
    refine ⟨fun n => ?_, fun n => ?_, fun ops => ?_⟩
    · obtain ⟨d, _, _, hrun, -⟩ := hmisc.run (List.replicate n .read)
      exact ⟨d, by rw [hrun, answers_reads]⟩
    · obtain ⟨d, _, _, hrun, -⟩ := hplatform.run (List.replicate n .read)
      exact ⟨d, by rw [hrun, ← h, answers_reads]⟩
    · obtain ⟨d, _, _, hrun, -⟩ := hmisc.run ops
      obtain ⟨d', _, _, hrun', -⟩ := hplatform.run ops
      exact ⟨d, d', _, hrun, by rw [hrun', h]⟩

/-- Each driver's write with a nonzero operand clears a configured device. The two devices then
are empty and answer alike exactly when every sample that can be read from the platform device's
slot 0 down looks like the report of an empty buffer. -/
theorem clearedAlike_iff_readable (env : KernelEnv) {s t : Shared} (hs : Configured s.device)
    (ht : Configured t.device) {operand : Int32} (hoperand : operand ≠ 0) (created : Bool) :
    ∃ p q os os', run (Hcsr04.deviceMove env) ⟨s, []⟩ (miscClears operand created) = some (p, os) ∧
      p.threads = [.write ⟨operand, created, .testInProgress⟩] ∧
      run (deviceMove env) ⟨t, []⟩ (platformClears operand created) = some (q, os') ∧
      q.threads = [.write ⟨operand, created, .testInProgress⟩] ∧
      (ClearedAlike p.shared.device q.shared.device ↔
        ∀ sample ∈ readable Erased t.device.buffer 0, sample = emptyReport) := by
  obtain ⟨os, hmisc⟩ := run_miscClears env hs hoperand created
  obtain ⟨os', hplatform⟩ := run_platformClears env ht hoperand created
  refine ⟨_, _, os, os', hmisc, rfl, hplatform, rfl, ?_⟩
  have hempty : Reads { s.device with buffer := fun _ => noSample, bufferIndex := 0 } 0 [] :=
    ⟨rfl, .of_marked rfl⟩
  have hreads : Reads { t.device with bufferIndex := 0 } 0
      (readable Erased t.device.buffer 0) := ⟨rfl, readableIn_readable _ _ _⟩
  exact clearedAlike_iff hempty hreads

/-- One sample was written, to slot 1, so slot 0 is empty when the index is reset. -/
theorem clearedAlike_iff_readable_one_sample :
    ∃ d replies, run fifoOp configuredDevice [.write ⟨7, 3⟩] = some (d, replies) ∧
      ∃ p q os os',
        run (Hcsr04.deviceMove grantAll) ⟨⟨d, 0, []⟩, []⟩ (miscClears 1 true) = some (p, os) ∧
        run (deviceMove grantAll) ⟨⟨d, 0, []⟩, []⟩ (platformClears 1 true) = some (q, os') ∧
        ClearedAlike p.shared.device q.shared.device := by
  obtain ⟨d, replies, hrun, hconfigured, hslot⟩ :
      ∃ d replies, run fifoOp configuredDevice [.write ⟨7, 3⟩] = some (d, replies) ∧
        Configured d ∧ readable Erased d.buffer 0 = [] :=
    ⟨_, _, rfl, ⟨by decide, by decide⟩, by decide⟩
  obtain ⟨p, q, os, os', hp, -, hq, -, hiff⟩ := clearedAlike_iff_readable grantAll
    (s := ⟨d, 0, []⟩) (t := ⟨d, 0, []⟩) hconfigured hconfigured (by decide : (1 : Int32) ≠ 0) true
  exact ⟨d, replies, hrun, p, q, os, os', hp, hq, hiff.mpr (by simp [hslot])⟩

/-- Clearing clears, in both drivers alike, whatever the buffer went through. -/
def ClearingClears : Prop :=
  ∀ (env : KernelEnv) (history : List FifoOp) (d : Hcsr04Device)
    (replies : List (Option FifoBuffer)),
    run fifoOp configuredDevice history = some (d, replies) →
    ∀ p q os os',
      run (Hcsr04.deviceMove env) ⟨⟨d, 0, []⟩, []⟩ (miscClears 1 true) = some (p, os) →
      run (deviceMove env) ⟨⟨d, 0, []⟩, []⟩ (platformClears 1 true) = some (q, os') →
      ClearedAlike p.shared.device q.shared.device

/-- After five writes slot 0 holds the newest sample, and the reset index points at it. -/
theorem not_clearingClears : ¬ ClearingClears := by
  intro h
  obtain ⟨d, replies, hrun, hconfigured, hslots⟩ :
      ∃ d replies, run fifoOp configuredDevice
        [.write ⟨1, 1⟩, .write ⟨2, 2⟩, .write ⟨3, 3⟩, .write ⟨4, 4⟩, .write ⟨5, 5⟩] =
          some (d, replies) ∧
        Configured d ∧ ⟨5, 5⟩ ∈ readable Erased d.buffer 0 :=
    ⟨_, _, rfl, ⟨by decide, by decide⟩, by decide⟩
  have hconfigured' : Configured (⟨d, 0, []⟩ : Shared).device := hconfigured
  obtain ⟨os, hmisc⟩ := run_miscClears grantAll hconfigured' (by decide : (1 : Int32) ≠ 0) true
  obtain ⟨os', hplatform⟩ :=
    run_platformClears grantAll hconfigured' (by decide : (1 : Int32) ≠ 0) true
  have hempty : Reads { d with buffer := fun _ => noSample, bufferIndex := 0 } 0 [] :=
    ⟨rfl, .of_marked rfl⟩
  have hreads : Reads { d with bufferIndex := 0 } 0 (readable Erased d.buffer 0) :=
    ⟨rfl, readableIn_readable _ _ _⟩
  have hreport := (clearedAlike_iff hempty hreads).mp
    (h grantAll _ d replies hrun _ _ os os' hmisc hplatform) ⟨5, 5⟩ hslots
  exact absurd hreport (by decide)

end KernelDrivers.Platform
