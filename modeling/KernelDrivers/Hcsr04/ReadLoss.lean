import KernelDrivers.Hcsr04.Locking

/-!
# Samples lost by a read

A read that waits for a measurement in progress removes the sample it waited for and then copies
its first, empty report over it. Along the runs in which no read comes to wait, no read mistakes
a sample for an empty report and no write clears the buffer under a read, every read hands over
exactly what it removed, as far as its copies to the user are whole.
-/

namespace KernelDrivers.Hcsr04
open Lib

/-- A call that returned `ret`: on success the user's buffer holds a sample it removed, and it
removed nothing else. -/
def NothingLost (call : ReadCall) (ret : Int32) : Prop :=
  (ret = SUCCESS → call.userBuf ∈ call.removed) ∧
    ∀ sample ∈ call.removed, call.userBuf = sample

/-- No read that has returned lost a sample. -/
def LosesNothing (p : Pool Shared Thread) : Prop :=
  ∀ call ret, .read call ∈ p.threads → call.pc = .returned ret → NothingLost call ret

/-! ## The condition -/

def Thread.InFifoRead : Thread → Bool
  | .read ⟨_, _, _, _, .fifoRead _⟩ => true
  | _ => false

/-- What a thread may meet at its next statement: a read's first `fifo_read` meets no sample whose
distance is `BUFFER_EMPTY`, a read that found the buffer empty meets no measurement in progress,
a read that copies meets a buffer that takes the whole sample, and a write that clears meets no
read in `fifo_read`. -/
def Meets (p : Pool Shared Thread) : Thread → Prop
  | .read ⟨_, _, _, _, .fifoRead .testEmpty⟩ =>
    ∀ slot ∈ currentSlot p.shared.device, slot.tsc ≠ NO_TSC → slot.distance ≠ BUFFER_EMPTY
  | .read ⟨_, _, _, _, .testInProgress _⟩ => p.shared.device.measurementInProgress = 0
  | .read ⟨_, copied, _, _, .copyToUser _⟩ => sizeofFifoBuffer ≤ copied.last
  | .write ⟨_, _, .eraseDistance _⟩ => ∀ t ∈ p.threads, t.InFifoRead = false
  | .write ⟨_, _, .eraseTsc _⟩ => ∀ t ∈ p.threads, t.InFifoRead = false
  | _ => True

instance (p : Pool Shared Thread) : ∀ t, Decidable (Meets p t)
  | .read ⟨_, _, _, _, pc⟩ => by
    cases pc with
    | fifoRead pc => cases pc <;> (dsimp only [Meets]; infer_instance)
    | _ => dsimp only [Meets]; infer_instance
  | .write ⟨_, _, pc⟩ => by cases pc <;> (dsimp only [Meets]; infer_instance)
  | .measure _ => isTrue trivial
  | .irq _ => isTrue trivial

def StepMeets (p : Pool Shared Thread) : PoolMove Thread → Prop
  | .start _ => True
  | .step i => ∀ t ∈ p.threads[i]?, Meets p t

instance (p : Pool Shared Thread) : ∀ move, Decidable (StepMeets p move)
  | .start _ => isTrue trivial
  | .step i => inferInstanceAs (Decidable (∀ t ∈ p.threads[i]?, Meets p t))

/-! ## What a read knows -/

/-- A sample that is not mistaken for an empty report. -/
def Sample (buffer : FifoBuffer) : Prop := buffer.tsc ≠ NO_TSC ∧ buffer.distance ≠ BUFFER_EMPTY

/-- What `fifo_read` returned against what it removed. -/
def Popped (removed : List FifoBuffer) (buffer : FifoBuffer) : Prop :=
  removed = [] ∧ buffer.distance = BUFFER_EMPTY ∨
    removed = [buffer] ∧ buffer.distance ≠ BUFFER_EMPTY

/-- The state of `fifo_read` against the slot at the buffer index. -/
def FifoReadPc.Knows (slot : Option FifoBuffer) (removed : List FifoBuffer) : FifoReadPc → Prop
  | .testEmpty => removed = []
  | .copyDistance => removed = [] ∧ ∃ sample, slot = some sample ∧ Sample sample
  | .copyTsc distance =>
    removed = [] ∧ ∃ sample, slot = some sample ∧ Sample sample ∧ sample.distance = distance
  | .eraseDistance buffer => removed = [] ∧ slot = some buffer ∧ Sample buffer
  | .eraseTsc buffer => removed = [buffer] ∧ buffer.distance ≠ BUFFER_EMPTY
  | .stepBack buffer => removed = [buffer] ∧ buffer.distance ≠ BUFFER_EMPTY
  | .wrap buffer => removed = [buffer] ∧ buffer.distance ≠ BUFFER_EMPTY
  | .returned buffer => Popped removed buffer

def ReadCall.Knows (call : ReadCall) (slot : Option FifoBuffer) : Prop :=
  match call.pc with
  | .lock => call.removed = []
  | .fifoRead pc => pc.Knows slot call.removed
  | .testEmpty buffer => Popped call.removed buffer
  | .testConfigured _ => call.removed = []
  | .testInProgress _ => call.removed = []
  | .initiating _ _ => call.removed = []
  -- the paths to the second `fifo_read` are not taken
  | .lockAgain _ => False
  | .fifoReadAgain _ _ => False
  | .unlockAgain _ => False
  | .copyToUser buffer => call.removed = [buffer]
  | .returned ret => NothingLost call ret

/-- Only a read in its first `fifo_read` knows something of the slot. -/
theorem ReadCall.Knows.congr {call : ReadCall} {slot slot' : Option FifoBuffer}
    (h : call.Knows slot) (hslot : ∀ pc, call.pc = .fifoRead pc → slot' = slot) :
    call.Knows slot' := by
  obtain ⟨created, copied, userBuf, removed, pc⟩ := call
  cases pc with
  | fifoRead pc =>
    rw [hslot pc rfl]
    exact h
  | _ => exact h

def Thread.Knows (t : Thread) (s : Shared) : Prop :=
  ∀ call, t = .read call → call.Knows (currentSlot s.device)

theorem FifoReadPc.Knows.step {device device' : Hcsr04Device} {pc pc' : FifoReadPc}
    {removed removed' : List FifoBuffer} (h : pc.Knows (currentSlot device) removed)
    (hmeets : pc = .testEmpty →
      ∀ slot ∈ currentSlot device, slot.tsc ≠ NO_TSC → slot.distance ≠ BUFFER_EMPTY)
    (hstep : fifoReadStep device pc = some (device', pc', removed')) :
    pc'.Knows (currentSlot device') (removed ++ removed') := by
  cases pc with
  | testEmpty =>
    obtain ⟨slot, hslot, hstep⟩ := Option.map_eq_some_iff.mp hstep
    cases hstep
    obtain rfl : removed = [] := h
    by_cases hempty : slot.tsc = NO_TSC
    · rw [if_pos hempty]
      exact .inl ⟨rfl, rfl⟩
    · rw [if_neg hempty]
      exact ⟨rfl, slot, hslot, hempty, hmeets rfl slot hslot hempty⟩
  | copyDistance =>
    obtain ⟨slot, hslot, hstep⟩ := Option.map_eq_some_iff.mp hstep
    cases hstep
    obtain ⟨rfl, sample, hsample, hgood⟩ := h
    obtain rfl : slot = sample := Option.some.inj (hslot.symm.trans hsample)
    exact ⟨rfl, slot, hslot, hgood, rfl⟩
  | copyTsc distance =>
    obtain ⟨slot, hslot, hstep⟩ := Option.map_eq_some_iff.mp hstep
    cases hstep
    obtain ⟨rfl, sample, hsample, hgood, rfl⟩ := h
    obtain rfl : slot = sample := Option.some.inj (hslot.symm.trans hsample)
    exact ⟨rfl, hslot, hgood⟩
  | eraseDistance buffer =>
    obtain ⟨slot, hslot, hstep⟩ := Option.bind_eq_some_iff.mp hstep
    obtain ⟨device₁, -, hstep⟩ := Option.map_eq_some_iff.mp hstep
    cases hstep
    obtain ⟨rfl, hbuffer, htsc, hdistance⟩ := h
    obtain rfl : slot = buffer := Option.some.inj (hslot.symm.trans hbuffer)
    rw [if_neg htsc]
    exact ⟨rfl, hdistance⟩
  | eraseTsc buffer =>
    obtain ⟨device₁, -, hstep⟩ := Option.map_eq_some_iff.mp hstep
    cases hstep
    simpa [FifoReadPc.Knows] using h
  | stepBack buffer =>
    cases Option.some.inj hstep
    simpa [FifoReadPc.Knows] using h
  | wrap buffer =>
    cases Option.some.inj hstep
    right
    simpa [FifoReadPc.Knows] using h
  | returned => cases hstep

theorem nothingLost_EINVAL {call : ReadCall} (h : call.removed = []) : NothingLost call EINVAL :=
  ⟨fun hret => absurd hret (by decide), by simp [h]⟩

theorem ReadCall.Knows.step {p : Pool Shared Thread} {s' : Shared} {call call' : ReadCall}
    (h : call.Knows (currentSlot p.shared.device)) (hmeets : Meets p (.read call))
    (hlocked : Thread.Holds (.read call) → Locked p.shared)
    (hstep : hcsr04Read call p.shared = some (s', call')) :
    call'.Knows (currentSlot s'.device) := by
  cases hcsr04Read_cases hstep with
  | @lock created copied userBuf removed _ _ =>
    have hnone : removed = [] := h
    exact hnone
  | fifoRead hpc =>
    refine FifoReadPc.Knows.step h ?_ hpc
    rintro rfl
    exact hmeets
  | @unlock created copied userBuf removed buffer =>
    have hpopped : Popped removed buffer := h
    exact hpopped
  | testEmpty =>
    rcases h with ⟨hnone, hdistance⟩ | ⟨hone, hdistance⟩
    · simpa [ReadCall.Knows, hdistance] using hnone
    · simpa [ReadCall.Knows, hdistance] using hone
  | testConfigured =>
    split
    · exact nothingLost_EINVAL h
    · exact h
  | testInProgress =>
    have hidle : p.shared.device.measurementInProgress = 0 := hmeets
    simpa [ReadCall.Knows, hidle] using h
  | @initiating created copied userBuf removed buffer pc _ _ _ =>
    have hnone : removed = [] := by cases pc <;> exact h
    cases pc <;> exact hnone
  | initiated => exact nothingLost_EINVAL h
  | refused hfailed hlock =>
    -- the failed call has left the lock taken, so the read waits for itself
    exact absurd (hlocked hfailed) (Shared.lock_eq_some hlock).1
  | lockAgain | fifoReadAgain | copySecond | unlockAgain => exact h.elim
  | @copyToUser created copied userBuf removed buffer =>
    have hone : removed = [buffer] := h
    have hcopy := FifoBuffer.copyTo_eq hmeets buffer userBuf
    exact ⟨fun _ => by simp [hone, hcopy], by simp [hone, hcopy]⟩

/-! ## Runs -/

theorem Thread.Knows.step {env : KernelEnv} {p : Pool Shared Thread} {t t' : Thread} {s' : Shared}
    (h : t.Knows p.shared) (hmeets : Meets p t) (hlocked : t.Holds → Locked p.shared)
    (hstep : threadStep env t p.shared = some (s', t')) : t'.Knows s' := by
  rintro call' rfl
  cases threadStep_cases hstep with
  | read hread => exact (h _ rfl).step hmeets hlocked hread

/-- What a read knows of the slot is protected by the lock. -/
theorem Thread.Knows.other {p : Pool Shared Thread} {t u t' : Thread} {s' : Shared}
    (h : u.Knows p.shared) (hu : u ∈ p.threads) (hmeets : Meets p t)
    (heffect : Effect p.shared t s' t') (hexclusive : ¬ (t.Holds ∧ u.Holds)) : u.Knows s' := by
  rintro call rfl
  refine (h call rfl).congr ?_
  obtain ⟨created, copied, userBuf, removed, pc⟩ := call
  rintro pc rfl
  have hclears : ¬ t.Clears := by
    intro hclears
    unfold Thread.Clears at hclears
    split at hclears
    · exact absurd (hmeets _ hu) (by simp [Thread.InFifoRead])
    · exact absurd (hmeets _ hu) (by simp [Thread.InFifoRead])
    · exact hclears
  exact heffect.buffer (fun ht => hexclusive ⟨ht, trivial⟩) hclears

theorem Thread.Knows.congr {t : Thread} {s s' : Shared} (h : t.Knows s)
    (hdevice : s'.device = s.device) : t.Knows s' := by
  intro call hcall
  exact (h call hcall).congr fun _ _ => by rw [hdevice]

theorem knows_of_threadStart {t : Thread} {s s' : Shared} (h : threadStart t s = some s') :
    t.Knows s' := by
  rintro call rfl
  cases threadStart_cases h with
  | read => exact rfl

/-- Along every run whose steps meet the condition, no read loses a sample. -/
theorem reads_lose_nothing (env : KernelEnv) (device : Hcsr04Device) {p : Pool Shared Thread}
    {moves : List (PoolMove Thread)} {os : List Unit}
    (hmeets : Along (deviceMove env) StepMeets (idle device) moves)
    (hrun : run (deviceMove env) (idle device) moves = some (p, os)) : LosesNothing p := by
  have hinv : PoolInv Locked Thread.Holds Thread.Knows p := by
    refine run_pool ?_ ?_ ?_ ?_ (poolInv_nil _ _) hmeets hrun
    · exact fun t s s' t' hstep hlocked => (threadStep_effect hstep).lock hlocked
    · exact fun q i t s' t' ht hok hstep hlocked hknows => hknows.step (hok t ht) hlocked hstep
    · exact fun q i j t u s' t' ht hu hok hstep hexclusive hknows =>
        hknows.other (List.mem_of_getElem? hu) (hok t ht) (threadStep_effect hstep) hexclusive
    · intro t s s' hstart
      obtain ⟨hnot, hdevice⟩ := threadStart_effect hstart
      refine ⟨hnot, ?_, knows_of_threadStart hstart, fun u hu => hu.congr hdevice⟩
      simp [Locked, hdevice]
  intro call ret hmem hreturned
  obtain ⟨i, hi⟩ := List.mem_iff_getElem?.mp hmem
  have hknows := hinv.knows i _ hi call rfl
  simpa only [ReadCall.Knows, hreturned] using hknows

/-! ## A read that waits -/

theorem reads_lose_nothing_prompt :
    ∃ p os, run (deviceMove grantAll) (idle configuredDevice)
        (startMeasurement 0 ++ measureOnce 1 ++ startRead 4 11) = some (p, os) ∧
      .read ⟨true, wholeCopies, ⟨100, 7⟩, [⟨100, 7⟩], .returned SUCCESS⟩ ∈ p.threads ∧
      LosesNothing p := by
  have hread : ((run (deviceMove grantAll) (idle configuredDevice)
      (startMeasurement 0 ++ measureOnce 1 ++ startRead 4 11)).bind fun r => r.1.threads[4]?) =
      some (.read ⟨true, wholeCopies, ⟨100, 7⟩, [⟨100, 7⟩], .returned SUCCESS⟩) := by decide
  obtain ⟨⟨p, os⟩, hrun, hcall⟩ := Option.bind_eq_some_iff.mp hread
  exact ⟨p, os, hrun, List.mem_of_getElem? hcall,
    reads_lose_nothing grantAll configuredDevice (by decide) hrun⟩

/-- The read finds the buffer empty while the measurement is in progress. It waits, removes the
sample and copies the empty report over it. -/
theorem not_reads_lose_nothing :
    ¬ ∀ (env : KernelEnv) (blank : Int32 → Hcsr04Device) (minorLeft : Int32 → Int32)
      (ops : List MiscOp) (minor : Int32) (moves : List (PoolMove Thread))
      (p : Pool Shared Thread) (os : List Unit),
      run (deviceMove env) (idle ((afterOps (hcsr04Init blank minorLeft) ops).device minor)) moves =
        some (p, os) → LosesNothing p := by
  intro hall
  have hread : ((run (deviceMove grantAll) (idle configuredDevice)
      (startMeasurement 0 ++ startRead 1 6 ++ measureOnce 2 ++ stepsOf 1 11)).bind fun r =>
        r.1.threads[1]?) =
      some (.read ⟨true, wholeCopies, ⟨BUFFER_EMPTY, 0⟩, [⟨100, 7⟩], .returned SUCCESS⟩) := by
    decide
  obtain ⟨⟨p, os⟩, hrun, hcall⟩ := Option.bind_eq_some_iff.mp hread
  have hlost := hall _ _ _ _ _ _ p os hrun _ SUCCESS (List.mem_of_getElem? hcall) rfl
  exact absurd (hlost.1 rfl) (by decide)

end KernelDrivers.Hcsr04
