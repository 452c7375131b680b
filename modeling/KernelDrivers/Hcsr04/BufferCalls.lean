import KernelDrivers.Hcsr04.Locking
import KernelDrivers.Hcsr04.SampleBuffer
import KernelDrivers.Lib.Linearize

/-!
# The sample buffer under interleavings

Reads and measurements call `fifo_read` and `fifo_write` while they hold the lock, and a write
clears the buffer without it, one assignment at a time. In every interleaving in which no clearing
assignment falls into somebody's call, the calls act on the buffer one after the other.
-/

namespace KernelDrivers.Hcsr04
open Lib

/-! ## The buffer by itself -/

/-- A call of the buffer's two functions, or an assignment of a write that clears the buffer. -/
inductive BufferCall where
  | fifo (op : FifoOp)
  | eraseDistance (bufferIndex : Int32)
  | eraseTsc (bufferIndex : Int32)
  | resetIndex

def bufferCall (device : Hcsr04Device) : BufferCall → Option (Hcsr04Device × Option FifoBuffer)
  | .fifo op => fifoOp device op
  | .eraseDistance bufferIndex =>
    (assignSlot device bufferIndex fun slot => { slot with distance := NO_VALUE }).map (·, none)
  | .eraseTsc bufferIndex =>
    (assignSlot device bufferIndex fun slot => { slot with tsc := NO_TSC }).map (·, none)
  | .resetIndex => some ({ device with bufferIndex := 0 }, none)

/-- The device with nothing but its sample buffer. -/
def Hcsr04Device.samples (device : Hcsr04Device) : Hcsr04Device :=
  { blankDevice with buffer := device.buffer, bufferIndex := device.bufferIndex }

theorem assignSlot_samples {device device' : Hcsr04Device} {index : Int32}
    {f : FifoBuffer → FifoBuffer} (h : assignSlot device index f = some device') :
    assignSlot device.samples index f = some device'.samples := by
  obtain ⟨slot, hslot, h⟩ := Option.bind_eq_some_iff.mp h
  obtain ⟨buffer, hbuffer, rfl⟩ := Option.map_eq_some_iff.mp h
  simp [assignSlot, Hcsr04Device.samples, hslot, hbuffer]

theorem fifoReadStep_samples {device device' : Hcsr04Device} {pc pc' : FifoReadPc}
    {removed : List FifoBuffer} (h : fifoReadStep device pc = some (device', pc', removed)) :
    fifoReadStep device.samples pc = some (device'.samples, pc', removed) := by
  cases pc with
  | testEmpty | copyDistance | copyTsc =>
    obtain ⟨slot, hslot, h⟩ := Option.map_eq_some_iff.mp h
    cases h
    have hslot' : currentSlot device.samples = some slot := hslot
    simp [fifoReadStep, hslot']
  | eraseDistance =>
    obtain ⟨slot, hslot, h⟩ := Option.bind_eq_some_iff.mp h
    obtain ⟨device₁, hassign, h⟩ := Option.map_eq_some_iff.mp h
    cases h
    have hslot' : currentSlot device.samples = some slot := hslot
    have hassign' := assignSlot_samples hassign
    have hindex : device.samples.bufferIndex = device.bufferIndex := rfl
    simp [fifoReadStep, hslot', hassign', hindex]
  | eraseTsc =>
    obtain ⟨device₁, hassign, h⟩ := Option.map_eq_some_iff.mp h
    cases h
    have hassign' := assignSlot_samples hassign
    have hindex : device.samples.bufferIndex = device.bufferIndex := rfl
    simp [fifoReadStep, hassign', hindex]
  | stepBack | wrap =>
    cases Option.some.inj h
    rfl
  | returned => cases h

theorem fifoWriteStep_samples {device device' : Hcsr04Device} {buffer : FifoBuffer}
    {pc pc' : FifoWritePc} (h : fifoWriteStep device buffer pc = some (device', pc')) :
    fifoWriteStep device.samples buffer pc = some (device'.samples, pc') := by
  cases pc with
  | stepForward =>
    cases Option.some.inj h
    rfl
  | writeDistance | writeTsc =>
    obtain ⟨device₁, hassign, h⟩ := Option.map_eq_some_iff.mp h
    cases h
    have hassign' := assignSlot_samples hassign
    have hindex : device.samples.bufferIndex = device.bufferIndex := rfl
    simp [fifoWriteStep, hassign', hindex]
  | returned => cases h

/-! ## The rest of a call -/

/-- The statements that `fifo_read` takes at most. -/
def FifoReadPc.remaining : FifoReadPc → Nat
  | .testEmpty => 7
  | .copyDistance => 6
  | .copyTsc _ => 5
  | .eraseDistance _ => 4
  | .eraseTsc _ => 3
  | .stepBack _ => 2
  | .wrap _ => 1
  | .returned _ => 0

def FifoWritePc.remaining : FifoWritePc → Nat
  | .stepForward => 3
  | .writeDistance => 2
  | .writeTsc => 1
  | .returned => 0

theorem finishFifoRead_step {device device' : Hcsr04Device} {pc pc' : FifoReadPc}
    {removed : List FifoBuffer} (h : fifoReadStep device pc = some (device', pc', removed)) :
    finishFifoRead pc'.remaining device' pc' = finishFifoRead pc.remaining device pc := by
  cases pc with
  | testEmpty =>
    obtain ⟨slot, hslot, h'⟩ := Option.map_eq_some_iff.mp h
    cases h'
    rw [FifoReadPc.remaining, finishFifoRead, h]
    · split <;> rfl
    · simp
  | copyDistance | copyTsc =>
    obtain ⟨slot, hslot, h'⟩ := Option.map_eq_some_iff.mp h
    cases h'
    simp [FifoReadPc.remaining, finishFifoRead, h]
  | eraseDistance =>
    obtain ⟨slot, hslot, h'⟩ := Option.bind_eq_some_iff.mp h
    obtain ⟨device₁, hassign, h'⟩ := Option.map_eq_some_iff.mp h'
    cases h'
    simp [FifoReadPc.remaining, finishFifoRead, h]
  | eraseTsc =>
    obtain ⟨device₁, hassign, h'⟩ := Option.map_eq_some_iff.mp h
    cases h'
    simp [FifoReadPc.remaining, finishFifoRead, h]
  | stepBack | wrap =>
    cases Option.some.inj h
    simp [FifoReadPc.remaining, finishFifoRead, h]
  | returned => cases h

theorem finishFifoWrite_step {device device' : Hcsr04Device} {buffer : FifoBuffer}
    {pc pc' : FifoWritePc} (h : fifoWriteStep device buffer pc = some (device', pc')) :
    finishFifoWrite pc'.remaining device' buffer pc' =
      finishFifoWrite pc.remaining device buffer pc := by
  cases pc with
  | stepForward =>
    cases Option.some.inj h
    simp [FifoWritePc.remaining, finishFifoWrite, h]
  | writeDistance | writeTsc =>
    obtain ⟨device₁, hassign, h'⟩ := Option.map_eq_some_iff.mp h
    cases h'
    simp [FifoWritePc.remaining, finishFifoWrite, h]
  | returned => cases h

/-- The remaining statements of `fifo_read`, without interruption. -/
def FifoReadPc.rest (pc : FifoReadPc) (device : Hcsr04Device) :
    Option (Hcsr04Device × Option FifoBuffer) :=
  (finishFifoRead pc.remaining device pc).map fun (device, buffer) => (device, some buffer)

def FifoWritePc.rest (pc : FifoWritePc) (buffer : FifoBuffer) (device : Hcsr04Device) :
    Option (Hcsr04Device × Option FifoBuffer) :=
  (finishFifoWrite pc.remaining device buffer pc).map (·, none)

theorem rest_testEmpty (device : Hcsr04Device) :
    FifoReadPc.testEmpty.rest device = bufferCall device (.fifo .read) :=
  congrArg (Option.map _) (finishFifoRead_eq device)

theorem rest_stepForward (device : Hcsr04Device) (buffer : FifoBuffer) :
    FifoWritePc.stepForward.rest buffer device = bufferCall device (.fifo (.write buffer)) := by
  have hfinish : finishFifoWrite FifoWritePc.stepForward.remaining device buffer .stepForward =
      (fifoWrite device buffer).map (·.1) := finishFifoWrite_eq device buffer
  rw [FifoWritePc.rest, hfinish, bufferCall, fifoOp, Option.map_map]
  rfl

theorem FifoReadPc.rest_step {device device' : Hcsr04Device} {pc pc' : FifoReadPc}
    {removed : List FifoBuffer} (h : fifoReadStep device pc = some (device', pc', removed)) :
    pc'.rest device'.samples = pc.rest device.samples :=
  congrArg (Option.map _) (finishFifoRead_step (fifoReadStep_samples h))

theorem FifoWritePc.rest_step {device device' : Hcsr04Device} {buffer : FifoBuffer}
    {pc pc' : FifoWritePc} (h : fifoWriteStep device buffer pc = some (device', pc')) :
    pc'.rest buffer device'.samples = pc.rest buffer device.samples :=
  congrArg (Option.map _) (finishFifoWrite_step (fifoWriteStep_samples h))

/-! ## The calls of the threads -/

def Thread.inside : Thread → Option BufferCall
  | .read ⟨_, _, _, _, .fifoRead _⟩ => some (.fifo .read)
  | .read ⟨_, _, _, _, .fifoReadAgain _ _⟩ => some (.fifo .read)
  | .measure ⟨_, .fifoWrite buffer _⟩ => some (.fifo (.write buffer))
  | _ => none

/-- The remaining statements of the call a thread is in. -/
def Thread.rest : Thread → Hcsr04Device → Option (Hcsr04Device × Option FifoBuffer)
  | .read ⟨_, _, _, _, .fifoRead pc⟩ => pc.rest
  | .read ⟨_, _, _, _, .fifoReadAgain _ pc⟩ => pc.rest
  | .measure ⟨_, .fifoWrite buffer pc⟩ => pc.rest buffer
  | _ => fun _ => none

/-- The call that the next step of a thread returns from, with what it returns. -/
def returns (_ : Shared) : Thread → Option (BufferCall × Option FifoBuffer)
  | .read ⟨_, _, _, _, .fifoRead (.returned buffer)⟩ => some (.fifo .read, some buffer)
  | .read ⟨_, _, _, _, .fifoReadAgain _ (.returned second)⟩ => some (.fifo .read, some second)
  | .measure ⟨_, .fifoWrite buffer .returned⟩ => some (.fifo (.write buffer), none)
  | .write ⟨_, _, .eraseDistance bufferIndex⟩ =>
    if bufferIndex < FIFO_SIZE then some (.eraseDistance bufferIndex, none)
    else some (.resetIndex, none)
  | .write ⟨_, _, .eraseTsc bufferIndex⟩ => some (.eraseTsc bufferIndex, none)
  | _ => none

abbrev Shared.samples (s : Shared) : Hcsr04Device := s.device.samples

theorem Thread.holds_of_inside {t : Thread} {k : BufferCall} (h : t.inside = some k) :
    t.Holds := by
  unfold Thread.inside at h
  split at h
  · trivial
  · trivial
  · trivial
  · cases h

abbrev ThreadCall := CallStep Shared.samples bufferCall Thread.inside Thread.rest

theorem Shared.lock_samples {s s' : Shared} (h : s.lock = some s') : s'.samples = s.samples := by
  obtain ⟨-, rfl⟩ := Shared.lock_eq_some h
  rfl

theorem InitiateStatement.samples {s s' : Shared} {pc pc' : InitiatePc} {created : Bool}
    (h : InitiateStatement created s pc s' pc') : s'.samples = s.samples := by
  cases h with
  | lock hlock => exact Shared.lock_samples hlock
  | create | refuse | unlock => rfl

theorem hcsr04Write_call {s s' : Shared} {call call' : WriteCall}
    (h : hcsr04Write call s = some (s', call')) :
    ThreadCall s (.write call) s' (.write call') (returns s (.write call)) := by
  cases hcsr04Write_cases h with
  | testConfigured | copyFromUser | testInProgress | setInProgress | initiated =>
    exact .quiet rfl rfl rfl
  | initiating hinitiate => exact .quiet rfl rfl hinitiate.samples
  | eraseDistance hmore hassign =>
    simp only [returns, if_pos hmore]
    refine .atomic rfl rfl ?_
    rw [bufferCall, assignSlot_samples hassign]
    rfl
  | resetIndex hdone =>
    simp only [returns, if_neg hdone]
    exact .atomic rfl rfl rfl
  | eraseTsc hassign =>
    refine .atomic rfl rfl ?_
    rw [bufferCall, assignSlot_samples hassign]
    rfl

theorem hcsr04Read_call {s s' : Shared} {call call' : ReadCall}
    (h : hcsr04Read call s = some (s', call')) :
    ThreadCall s (.read call) s' (.read call') (returns s (.read call)) := by
  cases hcsr04Read_cases h with
  | lock hlock | lockAgain hlock | refused _ hlock =>
    exact .enter rfl rfl (Shared.lock_samples hlock) (rest_testEmpty s.samples)
  | @fifoRead created copied userBuf removed _ pc _ _ hstep =>
    have hnone : returns s (.read ⟨created, copied, userBuf, removed, .fifoRead pc⟩) = none := by
      cases pc <;> first | rfl | cases hstep
    rw [hnone]
    exact .within rfl rfl (FifoReadPc.rest_step hstep)
  | @fifoReadAgain created copied userBuf removed _ buffer pc _ _ hstep =>
    have hnone : returns s (.read ⟨created, copied, userBuf, removed, .fifoReadAgain buffer pc⟩) =
        none := by
      cases pc <;> first | rfl | cases hstep
    rw [hnone]
    exact .within rfl rfl (FifoReadPc.rest_step hstep)
  | unlock => exact .leave rfl rfl rfl
  | copySecond => exact .leave rfl rfl rfl
  | testEmpty | testConfigured | testInProgress => split <;> exact .quiet rfl rfl rfl
  | initiating hinitiate => exact .quiet rfl rfl hinitiate.samples
  | initiated | unlockAgain | copyToUser => exact .quiet rfl rfl rfl

theorem hcsr04ThreadWrite_call {env : KernelEnv} {s s' : Shared} {thread thread' : Measurement}
    (h : hcsr04ThreadWrite env thread s = some (s', thread')) :
    ThreadCall s (.measure thread) s' (.measure thread') (returns s (.measure thread)) := by
  cases hcsr04ThreadWrite_cases h with
  | lock hlock => exact .quiet rfl rfl (Shared.lock_samples hlock)
  | start | up | done | triggerHigh | triggerLow | trap | unlock => exact .quiet rfl rfl rfl
  | average => exact .enter rfl rfl rfl (rest_stepForward s.samples _)
  | @fifoWrite tsc buffer pc _ _ hstep =>
    have hnone : returns s (.measure ⟨tsc, .fifoWrite buffer pc⟩) = none := by
      cases pc <;> first | rfl | cases hstep
    rw [hnone]
    exact .within rfl rfl (FifoWritePc.rest_step hstep)
  | clearInProgress => exact .leave rfl rfl rfl

theorem irqHandler_call {s s' : Shared} {irq irq' : Irq}
    (h : irqHandler irq s = some (s', irq')) :
    ThreadCall s (.irq irq) s' (.irq irq') (returns s (.irq irq)) := by
  cases irqHandler_cases h with
  | _ => exact .quiet rfl rfl rfl

theorem threadStep_call {env : KernelEnv} {s s' : Shared} {t t' : Thread}
    (h : threadStep env t s = some (s', t')) : ThreadCall s t s' t' (returns s t) := by
  cases threadStep_cases h with
  | read hstep => exact hcsr04Read_call hstep
  | write hstep => exact hcsr04Write_call hstep
  | measure hstep => exact hcsr04ThreadWrite_call hstep
  | irq hstep => exact irqHandler_call hstep

/-! ## Interleavings -/

/-- The calls that returned in a run and the clearing assignments made in it, in order. -/
abbrev bufferLog (env : KernelEnv) (device : Hcsr04Device) (moves : List (PoolMove Thread)) :
    List (BufferCall × Option FifoBuffer) :=
  poolEvents (threadStep env) threadStart returns (idle device) moves

theorem idle_linear (env : KernelEnv) (device : Hcsr04Device) {p : Pool Shared Thread}
    {moves : List (PoolMove Thread)} {os : List Unit}
    (halone : Along (deviceMove env) (MadeAlone Thread.inside returns) (idle device) moves)
    (hrun : run (deviceMove env) (idle device) moves = some (p, os)) :
    Linear Shared.samples bufferCall Thread.inside Thread.rest device.samples p
      (bufferLog env device moves) := by
  have hlock : LockInv Locked Thread.Holds (idle device) :=
    (poolInv_nil (fun _ _ => True) _).lock
  refine run_linear (fun _ _ => Thread.holds_of_inside) ?_ ?_ ?_ hlock (by simp [AllOutside, idle])
    halone hrun
  · exact fun t s s' t' hstep hlocked => (threadStep_effect hstep).lock hlocked
  · exact fun t s s' t' hstep _ => threadStep_call hstep
  · intro t s s' hstart
    obtain ⟨hnot, hdevice⟩ := threadStart_effect hstart
    exact ⟨hnot, by simp [Locked, hdevice], by rw [Shared.samples, hdevice]⟩

/-- The calls act on the buffer one after the other, in the order in which they return, and each
returns what it returns there, in every interleaving that makes the clearing assignments while no
call is under way. -/
theorem calls_in_order (env : KernelEnv) (device : Hcsr04Device) {p : Pool Shared Thread}
    {moves : List (PoolMove Thread)} {os : List Unit}
    (halone : Along (deviceMove env) (MadeAlone Thread.inside returns) (idle device) moves)
    (hrun : run (deviceMove env) (idle device) moves = some (p, os)) :
    ∃ d, run bufferCall device.samples ((bufferLog env device moves).map Prod.fst) =
        some (d, (bufferLog env device moves).map Prod.snd) ∧
      (AllOutside Thread.inside p → p.shared.samples = d) := by
  obtain ⟨d, hlog, hidle, -⟩ := idle_linear env device halone hrun
  exact ⟨d, hlog, hidle⟩

/-- A write that clears the buffer, a measurement and a read. -/
theorem calls_in_order_cleared :
    ∃ p os d, run (deviceMove grantAll) (idle configuredDevice)
        (.start (.write ⟨1, true, .testConfigured⟩) :: stepsOf 0 19 ++ measureOnce 1 ++
          startRead 4 11) = some (p, os) ∧
      run bufferCall configuredDevice.samples ((bufferLog grantAll configuredDevice
        (.start (.write ⟨1, true, .testConfigured⟩) :: stepsOf 0 19 ++ measureOnce 1 ++
          startRead 4 11)).map Prod.fst) = some (d, (bufferLog grantAll configuredDevice
        (.start (.write ⟨1, true, .testConfigured⟩) :: stepsOf 0 19 ++ measureOnce 1 ++
          startRead 4 11)).map Prod.snd) := by
  have hsome : (run (deviceMove grantAll) (idle configuredDevice)
      (.start (.write ⟨1, true, .testConfigured⟩) :: stepsOf 0 19 ++ measureOnce 1 ++
        startRead 4 11)).isSome := by decide
  obtain ⟨⟨p, os⟩, hrun⟩ := Option.isSome_iff_exists.mp hsome
  obtain ⟨d, hlog, -⟩ := calls_in_order grantAll configuredDevice (by decide) hrun
  exact ⟨p, os, d, hrun, hlog⟩

/-! ## A stack for all threads -/

/-- The abstract stack has no clearing assignments. -/
def unreadCall (unread : List FifoBuffer) :
    BufferCall → Option (List FifoBuffer × Option FifoBuffer)
  | .fifo op => some (unreadOp unread op)
  | _ => none

/-- Neither does a thread clear the buffer, nor does it store the mark of an erased slot. -/
def Thread.Plain : Thread → Prop
  | .write call => call.bufferOperation = 0 ∧ ¬ (Thread.write call).Clears
  | .measure thread =>
    thread.tsc ≠ NO_TSC ∧ ∀ buffer pc, thread.pc = .fifoWrite buffer pc → buffer.tsc ≠ NO_TSC
  | _ => True

/-- What the caller of a thread sees to: a write has the operand 0, and the time stamp counter of
a measurement is not at its last value. -/
def Thread.PlainInput : Thread → Prop
  | .write call => call.bufferOperation = 0
  | .measure thread => thread.tsc ≠ NO_TSC
  | _ => True

def PlainStart (_ : Pool Shared Thread) : PoolMove Thread → Prop
  | .start t => t.PlainInput
  | .step _ => True

theorem Thread.Plain.of_start {s s' : Shared} {t : Thread} (hinput : t.PlainInput)
    (h : threadStart t s = some s') : t.Plain := by
  cases threadStart_cases h with
  | read | irq => trivial
  | write => exact ⟨hinput, id⟩
  | measure => exact ⟨hinput, nofun⟩

theorem Thread.Plain.step {env : KernelEnv} {s s' : Shared} {t t' : Thread} (h : t.Plain)
    (hstep : threadStep env t s = some (s', t')) : t'.Plain := by
  cases threadStep_cases hstep with
  | read | irq => trivial
  | write hwrite =>
    obtain ⟨hoperand, hclears⟩ := h
    cases hcsr04Write_cases hwrite with
    | testConfigured | testInProgress =>
      refine ⟨hoperand, ?_⟩
      split <;> exact id
    | @copyFromUser operand created =>
      have hzero : operand = 0 := hoperand
      subst hzero
      exact ⟨rfl, id⟩
    | eraseDistance | resetIndex | eraseTsc => exact absurd trivial hclears
    | setInProgress | initiating | initiated => exact ⟨hoperand, id⟩
  | measure hmeasure =>
    obtain ⟨htsc, hbuffer⟩ := h
    cases hcsr04ThreadWrite_cases hmeasure with
    | average =>
      refine ⟨htsc, fun buffer pc hpc => ?_⟩
      cases hpc
      exact htsc
    | fifoWrite =>
      refine ⟨htsc, fun buffer pc hpc => ?_⟩
      cases hpc
      exact hbuffer _ _ rfl
    | _ => exact ⟨htsc, nofun⟩

/-- What a plain thread returns from is a call of the buffer's functions that it was inside. -/
theorem Thread.Plain.returns {s : Shared} {t : Thread} (h : t.Plain)
    {e : BufferCall × Option FifoBuffer} (he : returns s t = some e) :
    t.inside ≠ none ∧
      ∃ op, e.1 = .fifo op ∧ ∀ buffer, op = .write buffer → buffer.tsc ≠ NO_TSC := by
  unfold Hcsr04.returns at he
  split at he
  · cases he
    exact ⟨by simp [inside], .read, rfl, nofun⟩
  · cases he
    exact ⟨by simp [inside], .read, rfl, nofun⟩
  · cases he
    refine ⟨by simp [inside], _, rfl, fun buffer hop => ?_⟩
    cases hop
    exact h.2 _ _ rfl
  · exact absurd trivial h.2
  · exact absurd trivial h.2
  · cases he

theorem starts_plain {env : KernelEnv} {p q : Pool Shared Thread} {move : PoolMove Thread}
    {o : Unit} (hp : ∀ t ∈ p.threads, t.Plain) (hok : PlainStart p move)
    (hmove : deviceMove env p move = some (q, o)) : ∀ t ∈ q.threads, t.Plain := by
  cases move with
  | start t =>
    obtain ⟨s, hs, rfl⟩ := poolMove_start_eq_some.mp hmove
    intro u hu
    rcases List.mem_append.mp hu with hu | hu
    · exact hp u hu
    · rw [List.mem_singleton.mp hu]
      exact .of_start hok hs
  | step i =>
    obtain ⟨t, s, t', ht, hs, rfl⟩ := poolMove_step_eq_some.mp hmove
    intro u hu
    rcases List.mem_or_eq_of_mem_set hu with hu | rfl
    · exact hp u hu
    · exact (hp t (List.mem_of_getElem? ht)).step hs

/-- The device with the stack in its buffer answers calls as the stack does. -/
theorem Holds.calls {device : Hcsr04Device} {top : Fin 5} {unread : List FifoBuffer}
    (h : Holds device top unread) {log : List (BufferCall × Option FifoBuffer)}
    {d : Hcsr04Device}
    (hops : ∀ e ∈ log, ∃ op, e.1 = .fifo op ∧ ∀ buffer, op = .write buffer → buffer.tsc ≠ NO_TSC)
    (hrun : Lib.run bufferCall device (log.map Prod.fst) = some (d, log.map Prod.snd)) :
    ∃ top' unread', Lib.run unreadCall unread (log.map Prod.fst) =
        some (unread', log.map Prod.snd) ∧ Holds d top' unread' := by
  induction log generalizing device top unread with
  | nil =>
    obtain ⟨rfl, -⟩ := Prod.mk.inj (Option.some.inj hrun)
    exact ⟨top, unread, rfl, h⟩
  | cons e log ih =>
    obtain ⟨d₁, r, rs, hcall, htail, heq⟩ := run_cons_eq_some.mp hrun
    obtain ⟨rfl, rfl⟩ := List.cons.inj heq
    obtain ⟨op, hop, htsc⟩ := hops e List.mem_cons_self
    obtain ⟨device', top₁, hstep, h₁⟩ := h.step op htsc
    have hcall' : bufferCall device e.1 = some (device', (unreadOp unread op).2) := by
      rw [hop]
      exact hstep
    obtain ⟨rfl, hreply⟩ := Prod.mk.inj (Option.some.inj (hcall'.symm.trans hcall))
    obtain ⟨top', unread', hstack, h'⟩ :=
      ih h₁ (fun e he => hops e (List.mem_cons_of_mem _ he)) htail
    refine ⟨top', unread', run_cons_eq_some.mpr ⟨_, _, _, ?_, hstack, rfl⟩, h'⟩
    rw [hop, ← hreply]
    rfl

theorem plain_of_starts {env : KernelEnv} {device : Hcsr04Device} {p : Pool Shared Thread}
    {moves : List (PoolMove Thread)} {os : List Unit}
    (hstarts : Along (deviceMove env) PlainStart (idle device) moves)
    (hrun : run (deviceMove env) (idle device) moves = some (p, os)) :
    ∀ e ∈ bufferLog env device moves,
      ∃ op, e.1 = .fifo op ∧ ∀ buffer, op = .write buffer → buffer.tsc ≠ NO_TSC := by
  let Inv : Pool Shared Thread → List (BufferCall × Option FifoBuffer) → Prop := fun q log =>
    (∀ t ∈ q.threads, t.Plain) ∧ ∀ e ∈ log,
      ∃ op, e.1 = .fifo op ∧ ∀ buffer, op = .write buffer → buffer.tsc ≠ NO_TSC
  have hinit : Inv (idle device) [] := by simp [Inv, idle]
  suffices hstep : ∀ q move q' o log, Inv q log → PlainStart q move →
      deviceMove env q move = some (q', o) → Inv q' (log ++ (moveEvent returns q move).toList) by
    have hkept := run_along_events (deviceMove env) (moveEvent returns) hstep hinit hstarts hrun
    rw [List.nil_append, ← poolEvents_eq] at hkept
    exact hkept.2
  rintro q move q' o log ⟨hq, hlog⟩ hok hmove
  refine ⟨starts_plain hq hok hmove, fun e he => ?_⟩
  rcases List.mem_append.mp he with he | he
  · exact hlog e he
  · cases move with
    | start t => simp [moveEvent] at he
    | step i =>
      obtain ⟨t, ht, hreturns⟩ := Option.bind_eq_some_iff.mp (Option.mem_toList.mp he)
      exact ((hq t (List.mem_of_getElem? ht)).returns hreturns).2

theorem starts_of_inputs (env : KernelEnv) (device : Hcsr04Device) {moves : List (PoolMove Thread)}
    (hinput : ∀ t, .start t ∈ moves → t.PlainInput) :
    Along (deviceMove env) PlainStart (idle device) moves := by
  refine along_of_forall _ _ fun move hmove q => ?_
  cases move with
  | start t => exact hinput t hmove
  | step i => trivial

/-- Nothing that plain threads do falls into somebody's call. -/
theorem alone_of_starts {env : KernelEnv} {device : Hcsr04Device} {moves : List (PoolMove Thread)}
    (hstarts : Along (deviceMove env) PlainStart (idle device) moves) :
    Along (deviceMove env) (MadeAlone Thread.inside returns) (idle device) moves := by
  suffices himp : ∀ (q : Pool Shared Thread) move, (∀ t ∈ q.threads, t.Plain) →
      PlainStart q move → MadeAlone Thread.inside returns q move from
    Along.imp _ himp (fun q move q' o hq hok hmove => starts_plain hq hok hmove) (by simp [idle])
      hstarts
  rintro q (t | i) hq -
  · trivial
  · intro t ht hout hreturns
    obtain ⟨e, he⟩ := Option.isSome_iff_exists.mp hreturns
    exact absurd hout ((hq t (List.mem_of_getElem? ht)).returns he).1

/-- Without clearing, reads and measurements of any interleaving use one bounded stack: a read
returns the newest sample that was stored and not read or dropped, each sample to one read. -/
theorem served_as_stack (env : KernelEnv) {device : Hcsr04Device} {top : Fin 5}
    {stored : List FifoBuffer} (hdevice : Holds device top stored) {p : Pool Shared Thread}
    {moves : List (PoolMove Thread)} {os : List Unit}
    (hinput : ∀ t, .start t ∈ moves → t.PlainInput)
    (hrun : run (deviceMove env) (idle device) moves = some (p, os)) :
    ∃ unread, run unreadCall stored ((bufferLog env device moves).map Prod.fst) =
        some (unread, (bufferLog env device moves).map Prod.snd) ∧
      unread.length ≤ 5 ∧
      (AllOutside Thread.inside p → ∃ top', Holds p.shared.device top' unread) := by
  have hstarts := starts_of_inputs env device hinput
  have halone := alone_of_starts hstarts
  obtain ⟨d, hlog, hidle, -⟩ := idle_linear env device halone hrun
  have hsamples : Holds device.samples top stored := ⟨hdevice.index, hdevice.stack⟩
  obtain ⟨top', unread, hstack, h'⟩ := hsamples.calls (plain_of_starts hstarts hrun) hlog
  refine ⟨unread, hstack, h'.stack.fits, fun hout => ⟨top', ?_⟩⟩
  rw [← hidle hout] at h'
  exact ⟨h'.index, h'.stack⟩

theorem served_as_stack_measured :
    ∃ p os unread, run (deviceMove grantAll) (idle configuredDevice)
        (startMeasurement 0 ++ measureOnce 1 ++ startRead 4 11) = some (p, os) ∧
      run unreadCall [] ((bufferLog grantAll configuredDevice
        (startMeasurement 0 ++ measureOnce 1 ++ startRead 4 11)).map Prod.fst) =
        some (unread, (bufferLog grantAll configuredDevice
          (startMeasurement 0 ++ measureOnce 1 ++ startRead 4 11)).map Prod.snd) := by
  have hsome : (run (deviceMove grantAll) (idle configuredDevice)
      (startMeasurement 0 ++ measureOnce 1 ++ startRead 4 11)).isSome := by decide
  obtain ⟨⟨p, os⟩, hrun⟩ := Option.isSome_iff_exists.mp hsome
  have hempty : Holds configuredDevice 0 [] := ⟨rfl, .empty fun _ => rfl⟩
  obtain ⟨unread, hstack, -⟩ := served_as_stack grantAll hempty
    (by simp [startMeasurement, measureOnce, startRead, stepsOf, Thread.PlainInput, NO_TSC]) hrun
  exact ⟨p, os, unread, hrun, hstack⟩

end KernelDrivers.Hcsr04
