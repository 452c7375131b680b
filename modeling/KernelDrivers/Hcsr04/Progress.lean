import KernelDrivers.Hcsr04.Locking
import KernelDrivers.Hcsr04.SampleBuffer

/-!
# Threads that cannot go on

In every interleaving each access to the sample buffer is inside it, so a thread that has not
ended can be stopped by the lock and by the semaphore only. The lock is taken while some thread
holds it and can go on, or after a thread has left it taken: a call whose kernel thread was
refused, or a measurement that divided by 0.
-/

namespace KernelDrivers.Hcsr04
open Lib

/-! ## What a thread can wait for -/

def Thread.Ended : Thread → Prop
  | .read ⟨_, _, _, _, .returned _⟩ => True
  | .write ⟨_, _, .returned _⟩ => True
  | .measure ⟨_, .exited⟩ => True
  | .measure ⟨_, .died⟩ => True
  | .irq ⟨_, .handled⟩ => True
  | _ => False

/-- The next statement takes the lock. -/
def Thread.AtLock : Thread → Prop
  | .read ⟨_, _, _, _, .lock⟩ => True
  | .read ⟨_, _, _, _, .initiating _ .lock⟩ => True
  | .read ⟨_, _, _, _, .initiating _ (.returned ret)⟩ => ret ≠ 0
  | .read ⟨_, _, _, _, .lockAgain _⟩ => True
  | .write ⟨_, _, .initiating .lock⟩ => True
  | .measure ⟨_, .lock⟩ => True
  | _ => False

/-- The next statement takes the semaphore. -/
def Thread.AtDown : Thread → Prop
  | .irq ⟨_, .down⟩ => True
  | _ => False

def Thread.Waits (t : Thread) (s : Shared) : Prop :=
  t.AtLock ∧ Locked s ∨ t.AtDown ∧ s.device.readLock = 0

/-- The lock stays taken: the kernel thread of a call was refused, or the division of a
measurement trapped. A refused write returns `SUCCESS`, and a refused read waits for itself. -/
def Thread.LeftLocked : Thread → Prop
  | .read ⟨_, _, _, _, .initiating _ (.returned ret)⟩ => ret ≠ 0
  | .write ⟨_, _, .returned ret⟩ => ret = SUCCESS
  | .measure ⟨_, .died⟩ => True
  | _ => False

/-! ## The index of the buffer -/

def Inside (device : Hcsr04Device) : Prop := ∃ top : Fin 5, device.bufferIndex = Int32.ofNat top

/-- The index was stepped back and is not wrapped yet. -/
def FifoReadPc.Wraps : FifoReadPc → Prop
  | .wrap _ => True
  | _ => False

def Thread.Wraps : Thread → Prop
  | .read ⟨_, _, _, _, .fifoRead pc⟩ => pc.Wraps
  | .read ⟨_, _, _, _, .fifoReadAgain _ pc⟩ => pc.Wraps
  | _ => False

theorem Thread.Wraps.holds {t : Thread} (h : t.Wraps) : t.Holds := by
  unfold Thread.Wraps at h
  split at h
  · trivial
  · trivial
  · exact h.elim

/-- What a step of a thread does to the index. -/
inductive IndexStep (s : Shared) (t : Thread) (s' : Shared) (t' : Thread) : Prop
  | same (hindex : s'.device.bufferIndex = s.device.bufferIndex) (hwraps : ¬ t.Wraps)
      (hwraps' : ¬ t'.Wraps)
  | reset (hindex : s'.device.bufferIndex = 0) (hnot : ¬ t.Holds) (hnot' : ¬ t'.Holds)
  | back (hindex : s'.device.bufferIndex = s.device.bufferIndex - 1) (hholds : t.Holds)
      (hwraps : ¬ t.Wraps) (hwraps' : t'.Wraps)
  | wrap (hindex : s'.device.bufferIndex =
        if s.device.bufferIndex < 0 then FIFO_SIZE - 1 else s.device.bufferIndex)
      (hwraps : t.Wraps) (hholds' : t'.Holds) (hwraps' : ¬ t'.Wraps)
  | forward (hindex : s'.device.bufferIndex = (s.device.bufferIndex + 1) % FIFO_SIZE)
      (hholds : t.Holds) (hwraps : ¬ t.Wraps) (hholds' : t'.Holds) (hwraps' : ¬ t'.Wraps)

theorem assignSlot_bufferIndex {device device' : Hcsr04Device} {index : Int32}
    {f : FifoBuffer → FifoBuffer} (h : assignSlot device index f = some device') :
    device'.bufferIndex = device.bufferIndex := by
  obtain ⟨buffer, rfl⟩ := assignSlot_device h
  rfl

theorem fifoReadStep_index {device device' : Hcsr04Device} {pc pc' : FifoReadPc}
    {removed : List FifoBuffer} (h : fifoReadStep device pc = some (device', pc', removed)) :
    (device'.bufferIndex = device.bufferIndex ∧ ¬ pc.Wraps ∧ ¬ pc'.Wraps) ∨
      (device'.bufferIndex = device.bufferIndex - 1 ∧ ¬ pc.Wraps ∧ pc'.Wraps) ∨
      (device'.bufferIndex =
        (if device.bufferIndex < 0 then FIFO_SIZE - 1 else device.bufferIndex) ∧
        pc.Wraps ∧ ¬ pc'.Wraps) := by
  cases pc with
  | testEmpty =>
    obtain ⟨slot, -, h⟩ := Option.map_eq_some_iff.mp h
    cases h
    left
    split <;> exact ⟨rfl, id, id⟩
  | copyDistance | copyTsc =>
    obtain ⟨slot, -, h⟩ := Option.map_eq_some_iff.mp h
    cases h
    exact .inl ⟨rfl, id, id⟩
  | eraseDistance =>
    obtain ⟨slot, -, h⟩ := Option.bind_eq_some_iff.mp h
    obtain ⟨device₁, hassign, h⟩ := Option.map_eq_some_iff.mp h
    cases h
    exact .inl ⟨assignSlot_bufferIndex hassign, id, id⟩
  | eraseTsc =>
    obtain ⟨device₁, hassign, h⟩ := Option.map_eq_some_iff.mp h
    cases h
    exact .inl ⟨assignSlot_bufferIndex hassign, id, id⟩
  | stepBack =>
    cases Option.some.inj h
    exact .inr (.inl ⟨rfl, id, trivial⟩)
  | wrap =>
    cases Option.some.inj h
    exact .inr (.inr ⟨rfl, trivial, id⟩)
  | returned => cases h

theorem fifoWriteStep_index {device device' : Hcsr04Device} {buffer : FifoBuffer}
    {pc pc' : FifoWritePc} (h : fifoWriteStep device buffer pc = some (device', pc')) :
    device'.bufferIndex = device.bufferIndex ∨
      device'.bufferIndex = (device.bufferIndex + 1) % FIFO_SIZE := by
  cases pc with
  | stepForward =>
    cases Option.some.inj h
    exact .inr rfl
  | writeDistance | writeTsc =>
    obtain ⟨device₁, hassign, h⟩ := Option.map_eq_some_iff.mp h
    cases h
    exact .inl (assignSlot_bufferIndex hassign)
  | returned => cases h

theorem Shared.lock_index {s s' : Shared} (h : s.lock = some s') :
    s'.device.bufferIndex = s.device.bufferIndex := by
  obtain ⟨-, rfl⟩ := Shared.lock_eq_some h
  rfl

theorem InitiateStatement.index {s s' : Shared} {pc pc' : InitiatePc} {created : Bool}
    (h : InitiateStatement created s pc s' pc') :
    s'.device.bufferIndex = s.device.bufferIndex := by
  cases h with
  | lock hlock => exact Shared.lock_index hlock
  | create | refuse | unlock => rfl

theorem hcsr04Write_index {s s' : Shared} {call call' : WriteCall}
    (h : hcsr04Write call s = some (s', call')) :
    IndexStep s (.write call) s' (.write call') := by
  cases hcsr04Write_cases h with
  | eraseDistance _ hassign | eraseTsc hassign =>
    exact .same (assignSlot_bufferIndex hassign) id id
  | resetIndex => exact .reset rfl id id
  | initiating hinitiate => exact .same hinitiate.index id id
  | _ => exact .same rfl id id

theorem hcsr04Read_index {s s' : Shared} {call call' : ReadCall}
    (h : hcsr04Read call s = some (s', call')) : IndexStep s (.read call) s' (.read call') := by
  cases hcsr04Read_cases h with
  | lock hlock | lockAgain hlock | refused _ hlock => exact .same (Shared.lock_index hlock) id id
  | fifoRead hstep | fifoReadAgain hstep =>
    rcases fifoReadStep_index hstep with ⟨h, hwraps, hwraps'⟩ | ⟨h, hwraps, hwraps'⟩ |
      ⟨h, hwraps, hwraps'⟩
    · exact .same h hwraps hwraps'
    · exact .back h trivial hwraps hwraps'
    · exact .wrap h hwraps trivial hwraps'
  | testEmpty | testConfigured | testInProgress =>
    refine .same rfl id ?_
    split <;> exact id
  | initiating hinitiate => exact .same hinitiate.index id id
  | _ => exact .same rfl id id

theorem threadStep_index {env : KernelEnv} {s s' : Shared} {t t' : Thread}
    (h : threadStep env t s = some (s', t')) : IndexStep s t s' t' := by
  cases threadStep_cases h with
  | read hstep => exact hcsr04Read_index hstep
  | write hstep => exact hcsr04Write_index hstep
  | measure hstep =>
    cases hcsr04ThreadWrite_cases hstep with
    | lock hlock => exact .same (Shared.lock_index hlock) id id
    | fifoWrite hwrite =>
      rcases fifoWriteStep_index hwrite with h | h
      · exact .same h id id
      · exact .forward h trivial id trivial id
    | _ => exact .same rfl id id
  | irq hstep =>
    cases irqHandler_cases hstep with
    | _ => exact .same rfl id id

/-! ## What the threads know -/

/-- The loop of a write that clears the buffer stays inside it. -/
def WritePc.InLoop : WritePc → Prop
  | .eraseDistance bufferIndex => ∃ k ≤ 5, bufferIndex = Int32.ofNat k
  | .eraseTsc bufferIndex => ∃ k < 5, bufferIndex = Int32.ofNat k
  | _ => True

structure Thread.Indexes (t : Thread) (s : Shared) : Prop where
  inside : t.Holds → ¬ t.Wraps → Inside s.device
  wraps : t.Wraps → ∃ top : Fin 5, s.device.bufferIndex = Int32.ofNat top - 1
  loop : ∀ call, t = .write call → call.pc.InLoop

theorem erase_index {k : Nat} (hk : k ≤ 5) (hmore : Int32.ofNat k < FIFO_SIZE) : k < 5 := by
  by_contra hge
  obtain rfl : k = 5 := by omega
  exact absurd hmore (by decide)

theorem next_index (k : Nat) : Int32.ofNat k + 1 = Int32.ofNat (k + 1) :=
  (Int32.ofNat_add k 1).symm

theorem WriteStatement.inLoop {s s' : Shared} {call call' : WriteCall}
    (h : WriteStatement s call s' call') (hcall : call.pc.InLoop) : call'.pc.InLoop := by
  cases h with
  | testConfigured | testInProgress =>
    dsimp only
    split <;> trivial
  | copyFromUser =>
    dsimp only
    split
    · exact ⟨0, by omega, rfl⟩
    · trivial
  | eraseDistance hmore =>
    obtain ⟨k, hk, rfl⟩ := hcall
    exact ⟨k, erase_index hk hmore, rfl⟩
  | eraseTsc =>
    obtain ⟨k, hk, rfl⟩ := hcall
    exact ⟨k + 1, hk, next_index k⟩
  | resetIndex | setInProgress | initiating | initiated => trivial

/-- The index 0 is inside, and one below an index that is inside. -/
theorem inside_of_zero {device : Hcsr04Device} (h : device.bufferIndex = 0) :
    Inside device ∧ ∃ top : Fin 5, device.bufferIndex = Int32.ofNat top - 1 :=
  ⟨⟨0, h⟩, 1, h⟩

/-- Whenever the lock is free the index is inside the buffer. -/
def FreeInside (s : Shared) : Prop := ¬ Locked s → Inside s.device

theorem IndexStep.shared {s s' : Shared} {t t' : Thread} (h : IndexStep s t s' t')
    (hlock : LockStep Locked Thread.Holds s t s' t') (hfree : FreeInside s)
    (ht : t.Indexes s) : FreeInside s' := by
  intro hs'
  cases h with
  | same hindex hwraps =>
    have hinside : Inside s.device := by
      by_cases hs : Locked s
      · exact ht.inside (hlock.unlock hs hs') hwraps
      · exact hfree hs
    rwa [Inside, hindex]
  | reset hindex => exact (inside_of_zero hindex).1
  | back _ _ _ hwraps' => exact absurd (hlock.holds hwraps'.holds).1 hs'
  | wrap _ _ hholds' => exact absurd (hlock.holds hholds').1 hs'
  | forward _ _ _ hholds' => exact absurd (hlock.holds hholds').1 hs'

theorem IndexStep.own {env : KernelEnv} {s s' : Shared} {t t' : Thread} (h : IndexStep s t s' t')
    (hstep : threadStep env t s = some (s', t'))
    (hlock : LockStep Locked Thread.Holds s t s' t') (hfree : FreeInside s)
    (ht : t.Indexes s) : t'.Indexes s' := by
  have hloop : ∀ call, t' = .write call → call.pc.InLoop := by
    rintro call rfl
    cases threadStep_cases hstep with
    | write hwrite => exact (hcsr04Write_cases hwrite).inLoop (ht.loop _ rfl)
  cases h with
  | same hindex hwraps hwraps' =>
    refine ⟨fun hholds' _ => ?_, fun hw => absurd hw hwraps', hloop⟩
    rw [Inside, hindex]
    rcases (hlock.holds hholds').2 with hholds | hs
    · exact ht.inside hholds hwraps
    · exact hfree hs
  | reset hindex _ hnot' =>
    exact ⟨fun hholds' => absurd hholds' hnot', fun hw => absurd hw.holds hnot', hloop⟩
  | back hindex hholds hwraps hwraps' =>
    refine ⟨fun _ hw => absurd hwraps' hw, fun _ => ?_, hloop⟩
    obtain ⟨top, htop⟩ := ht.inside hholds hwraps
    exact ⟨top, by rw [hindex, htop]⟩
  | wrap hindex hwraps _ hwraps' =>
    refine ⟨fun _ _ => ?_, fun hw => absurd hw hwraps', hloop⟩
    obtain ⟨top, htop⟩ := ht.wraps hwraps
    exact ⟨top - 1, by rw [hindex, htop, index_back]⟩
  | forward hindex hholds hwraps _ hwraps' =>
    refine ⟨fun _ _ => ?_, fun hw => absurd hw hwraps', hloop⟩
    obtain ⟨top, htop⟩ := ht.inside hholds hwraps
    exact ⟨top + 1, by rw [hindex, htop, index_next]⟩

/-- Only the holder of the lock moves the index, but for a write that resets it. -/
theorem IndexStep.other {s s' : Shared} {t t' u : Thread} (h : IndexStep s t s' t')
    (hexclusive : ¬ (t.Holds ∧ u.Holds)) (hu : u.Indexes s) : u.Indexes s' := by
  have hholder : t.Holds → u.Indexes s' := by
    intro ht
    have hnot : ¬ u.Holds := fun hholds => hexclusive ⟨ht, hholds⟩
    exact ⟨fun hholds => absurd hholds hnot, fun hw => absurd hw.holds hnot, hu.loop⟩
  cases h with
  | same hindex =>
    refine ⟨fun hholds hw => ?_, fun hw => ?_, hu.loop⟩
    · rw [Inside, hindex]
      exact hu.inside hholds hw
    · rw [hindex]
      exact hu.wraps hw
  | reset hindex =>
    exact ⟨fun _ _ => (inside_of_zero hindex).1, fun _ => (inside_of_zero hindex).2, hu.loop⟩
  | back _ hholds => exact hholder hholds
  | wrap _ hwraps => exact hholder hwraps.holds
  | forward _ hholds => exact hholder hholds

theorem Thread.Indexes.of_start {s s' : Shared} {t : Thread} (h : threadStart t s = some s') :
    t.Indexes s' := by
  obtain ⟨hnot, -⟩ := threadStart_effect h
  refine ⟨fun hholds => absurd hholds hnot, fun hw => absurd hw.holds hnot, ?_⟩
  rintro call rfl
  cases threadStart_cases h with
  | write => trivial

/-- In every interleaving the index is where the threads rely on it to be. -/
theorem indexes_of_run (env : KernelEnv) {device : Hcsr04Device} (hdevice : Inside device)
    {p : Pool Shared Thread} {moves : List (PoolMove Thread)} {os : List Unit}
    (hrun : run (deviceMove env) (idle device) moves = some (p, os)) :
    PoolInv Locked Thread.Holds Thread.Indexes p ∧ FreeInside p.shared := by
  have hlock : ∀ t s s' t', threadStep env t s = some (s', t') → (t.Holds → Locked s) →
      LockStep Locked Thread.Holds s t s' t' :=
    fun t s s' t' hstep hlocked => (threadStep_effect hstep).lock hlocked
  have halong : Along (deviceMove env) (fun q _ => LockInv Locked Thread.Holds q) (idle device)
      moves := by
    refine along_lockInv hlock (fun t s s' hstart => ?_) (poolInv_nil (fun _ _ => True) _).lock _
    obtain ⟨hnot, hdevice⟩ := threadStart_effect hstart
    exact ⟨hnot, by simp [Locked, hdevice]⟩
  refine run_pool_with hlock ?_ ?_ ?_ ?_ (poolInv_nil _ _) (fun _ => hdevice) halong hrun
  · intro q i t s' t' hmem hq hstep hfree ht
    exact (threadStep_index hstep).shared (hlock t _ s' t' hstep (hq.locked i t hmem)) hfree ht
  · intro q i t s' t' _ _ hstep hlocked hfree ht
    exact (threadStep_index hstep).own hstep (hlock t _ s' t' hstep hlocked) hfree ht
  · intro q i j t u s' t' _ _ _ hstep hexclusive hu
    exact (threadStep_index hstep).other hexclusive hu
  · intro t s s' hstart
    obtain ⟨hnot, hdevice⟩ := threadStart_effect hstart
    refine ⟨hnot, by simp [Locked, hdevice], .of_start hstart, ?_, ?_⟩
    · simp [FreeInside, Locked, Inside, hdevice]
    · intro u hu
      exact ⟨by simpa [Inside, hdevice] using hu.inside, by simpa [hdevice] using hu.wraps, hu.loop⟩

/-! ## Threads that cannot step -/

theorem Inside.slot {device : Hcsr04Device} (h : Inside device) :
    ∃ slot, currentSlot device = some slot := by
  obtain ⟨top, htop⟩ := h
  exact ⟨_, by rw [currentSlot, htop, index_toInt, CArray.load_fin]⟩

theorem assignSlot_inside (device : Hcsr04Device) {index : Int32} {top : Fin 5}
    (h : index = Int32.ofNat top) (f : FifoBuffer → FifoBuffer) :
    ∃ device', assignSlot device index f = some device' := by
  subst h
  exact ⟨_, by rw [assignSlot, index_toInt, CArray.load_fin, Option.bind_some, CArray.store_fin,
    Option.map_some]⟩

theorem fifoReadStep_defined {device : Hcsr04Device} {pc : FifoReadPc}
    (h : ¬ pc.Wraps → Inside device) (hpc : ∀ buffer, pc ≠ .returned buffer) :
    ∃ r, fifoReadStep device pc = some r := by
  cases pc with
  | testEmpty | copyDistance | copyTsc =>
    obtain ⟨slot, hslot⟩ := (h id).slot
    exact ⟨_, by rw [fifoReadStep, hslot, Option.map_some]⟩
  | eraseDistance =>
    obtain ⟨slot, hslot⟩ := (h id).slot
    obtain ⟨top, htop⟩ := h id
    obtain ⟨device', hassign⟩ := assignSlot_inside device htop fun slot =>
      { slot with distance := NO_VALUE }
    exact ⟨_, by rw [fifoReadStep, hslot, Option.bind_some, hassign, Option.map_some]⟩
  | eraseTsc =>
    obtain ⟨top, htop⟩ := h id
    obtain ⟨device', hassign⟩ := assignSlot_inside device htop fun slot =>
      { slot with tsc := NO_TSC }
    exact ⟨_, by rw [fifoReadStep, hassign, Option.map_some]⟩
  | stepBack | wrap => exact ⟨_, rfl⟩
  | returned buffer => exact absurd rfl (hpc buffer)

theorem fifoWriteStep_defined {device : Hcsr04Device} (buffer : FifoBuffer) {pc : FifoWritePc}
    (h : Inside device) (hpc : pc ≠ .returned) :
    ∃ r, fifoWriteStep device buffer pc = some r := by
  obtain ⟨top, htop⟩ := h
  cases pc with
  | stepForward => exact ⟨_, rfl⟩
  | writeDistance =>
    obtain ⟨device', hassign⟩ := assignSlot_inside device htop fun slot =>
      { slot with distance := buffer.distance }
    exact ⟨_, by rw [fifoWriteStep, hassign, Option.map_some]⟩
  | writeTsc =>
    obtain ⟨device', hassign⟩ := assignSlot_inside device htop fun slot =>
      { slot with tsc := buffer.tsc }
    exact ⟨_, by rw [fifoWriteStep, hassign, Option.map_some]⟩
  | returned => exact absurd rfl hpc

theorem Shared.lock_eq_none {s : Shared} (h : s.lock = none) : Locked s := by
  unfold Shared.lock at h
  split at h
  next hlocked => exact hlocked
  next => cases h

theorem hcsr04Read_stuck {s : Shared} {call : ReadCall} (h : Thread.Indexes (.read call) s)
    (hstuck : hcsr04Read call s = none) :
    (Thread.read call).Ended ∨ (Thread.read call).Waits s := by
  obtain ⟨created, copied, userBuf, removed, pc⟩ := call
  cases pc with
  | lock | lockAgain =>
    exact .inr (.inl ⟨trivial, Shared.lock_eq_none (Option.map_eq_none_iff.mp hstuck)⟩)
  | fifoRead pc =>
    by_cases hpc : ∃ buffer, pc = .returned buffer
    · obtain ⟨buffer, rfl⟩ := hpc
      cases hstuck
    · obtain ⟨r, hr⟩ := fifoReadStep_defined (h.inside trivial) fun buffer he => hpc ⟨buffer, he⟩
      cases pc <;> simp [hcsr04Read, hr] at hstuck
  | fifoReadAgain buffer pc =>
    by_cases hpc : ∃ buffer, pc = .returned buffer
    · obtain ⟨buffer, rfl⟩ := hpc
      cases hstuck
    · obtain ⟨r, hr⟩ := fifoReadStep_defined (h.inside trivial) fun buffer he => hpc ⟨buffer, he⟩
      cases pc <;> simp [hcsr04Read, hr] at hstuck
  | initiating buffer pc =>
    cases pc with
    | lock =>
      have hlock : s.lock = none := by simpa [hcsr04Read, initiateMeasurement] using hstuck
      exact .inr (.inl ⟨trivial, Shared.lock_eq_none hlock⟩)
    | kthreadRun => cases created <;> cases hstuck
    | unlock => cases hstuck
    | returned ret =>
      simp only [hcsr04Read] at hstuck
      split at hstuck
      next => cases hstuck
      next hret =>
        exact .inr (.inl ⟨hret, Shared.lock_eq_none (Option.map_eq_none_iff.mp hstuck)⟩)
  | returned => exact .inl trivial
  | _ => cases hstuck

theorem hcsr04Write_stuck {s : Shared} {call : WriteCall} (h : Thread.Indexes (.write call) s)
    (hstuck : hcsr04Write call s = none) :
    (Thread.write call).Ended ∨ (Thread.write call).Waits s := by
  obtain ⟨operand, created, pc⟩ := call
  cases pc with
  | eraseDistance bufferIndex =>
    simp only [hcsr04Write] at hstuck
    split at hstuck
    next hmore =>
      obtain ⟨k, hk, rfl⟩ := h.loop _ rfl
      obtain ⟨device', hassign⟩ := @assignSlot_inside s.device _ ⟨k, erase_index hk hmore⟩ rfl
        fun slot => { slot with distance := NO_VALUE }
      rw [hassign] at hstuck
      cases hstuck
    next => cases hstuck
  | eraseTsc bufferIndex =>
    obtain ⟨k, hk, rfl⟩ := h.loop _ rfl
    obtain ⟨device', hassign⟩ := @assignSlot_inside s.device _ ⟨k, hk⟩ rfl
      fun slot => { slot with tsc := NO_TSC }
    simp only [hcsr04Write] at hstuck
    rw [hassign] at hstuck
    cases hstuck
  | initiating pc =>
    cases pc with
    | lock =>
      have hlock : s.lock = none := by simpa [hcsr04Write, initiateMeasurement] using hstuck
      exact .inr (.inl ⟨trivial, Shared.lock_eq_none hlock⟩)
    | kthreadRun => cases created <;> cases hstuck
    | unlock | returned => cases hstuck
  | returned => exact .inl trivial
  | _ => cases hstuck

theorem hcsr04ThreadWrite_stuck {env : KernelEnv} {s : Shared} {thread : Measurement}
    (h : Thread.Indexes (.measure thread) s) (hstuck : hcsr04ThreadWrite env thread s = none) :
    (Thread.measure thread).Ended ∨ (Thread.measure thread).Waits s := by
  obtain ⟨tsc, pc⟩ := thread
  cases pc with
  | lock => exact .inr (.inl ⟨trivial, Shared.lock_eq_none (Option.map_eq_none_iff.mp hstuck)⟩)
  | loop =>
    simp only [hcsr04ThreadWrite] at hstuck
    split at hstuck <;> cases hstuck
  | average =>
    simp only [hcsr04ThreadWrite] at hstuck
    split at hstuck <;> cases hstuck
  | fifoWrite buffer pc =>
    by_cases hpc : pc = .returned
    · subst hpc
      cases hstuck
    · obtain ⟨r, hr⟩ := fifoWriteStep_defined buffer (h.inside trivial id) hpc
      cases pc <;> simp [hcsr04ThreadWrite, hr] at hstuck
  | exited | died => exact .inl trivial
  | _ => cases hstuck

/-- A thread that cannot step has ended or waits. -/
theorem threadStep_stuck {env : KernelEnv} {s : Shared} {t : Thread} (h : t.Indexes s)
    (hstuck : threadStep env t s = none) : t.Ended ∨ t.Waits s := by
  cases t with
  | read call => exact hcsr04Read_stuck h (Option.map_eq_none_iff.mp hstuck)
  | write call => exact hcsr04Write_stuck h (Option.map_eq_none_iff.mp hstuck)
  | measure thread => exact hcsr04ThreadWrite_stuck h (Option.map_eq_none_iff.mp hstuck)
  | irq irq =>
    obtain ⟨irqTime, pc⟩ := irq
    have hnone : irqHandler ⟨irqTime, pc⟩ s = none := Option.map_eq_none_iff.mp hstuck
    cases pc with
    | edge =>
      simp only [irqHandler] at hnone
      split at hnone
      · cases hnone
      · split at hnone <;> cases hnone
    | down =>
      simp only [irqHandler] at hnone
      split at hnone
      next hzero => exact .inr (.inr ⟨trivial, hzero⟩)
      next => cases hnone
    | handled => exact .inl trivial

/-! ## Who has the lock -/

/-- A thread keeps the lock taken: it holds it, or it has left it taken. -/
def Thread.Keeps (t : Thread) : Prop := t.Holds ∨ t.LeftLocked

/-- A step of the thread that keeps the lock taken gives it back or goes on keeping it, and
whoever takes the lock holds it. -/
structure KeepStep (s : Shared) (t : Thread) (s' : Shared) (t' : Thread) : Prop where
  keeps : t.Keeps → t'.Keeps ∨ ¬ Locked s'
  takes : ¬ Locked s → Locked s' → t'.Keeps

theorem KeepStep.of_keeps {s s' : Shared} {t t' : Thread} (h : t'.Keeps) : KeepStep s t s' t' :=
  ⟨fun _ => .inl h, fun _ _ => h⟩

theorem KeepStep.of_unlocked {s s' : Shared} {t t' : Thread} (h : ¬ Locked s') :
    KeepStep s t s' t' :=
  ⟨fun _ => .inr h, fun _ hs' => absurd hs' h⟩

theorem KeepStep.of_same {s s' : Shared} {t t' : Thread} (ht : ¬ t.Keeps)
    (hs : s'.device.bufferLock = s.device.bufferLock) : KeepStep s t s' t' := by
  refine ⟨fun h => absurd h ht, fun hfree hlocked => absurd ?_ hfree⟩
  rwa [Locked, hs] at hlocked

theorem not_locked_unlock (s : Shared) : ¬ Locked s.unlock := by
  simp [Locked, Shared.unlock, Shared.setDevice]

theorem InitiateStatement.keeps {s s' : Shared} {pc pc' : InitiatePc} {created : Bool}
    (h : InitiateStatement created s pc s' pc') {t t' : Thread} (ht' : pc'.Holds → t'.Holds) :
    KeepStep s t s' t' := by
  cases h with
  | lock | create => exact .of_keeps (.inl (ht' trivial))
  | refuse =>
    have hfailed : InitiatePc.Holds (.returned 1) := by simp [InitiatePc.Holds]
    exact .of_keeps (.inl (ht' hfailed))
  | unlock => exact .of_unlocked (not_locked_unlock s)

theorem hcsr04Write_keeps {s s' : Shared} {call call' : WriteCall}
    (h : hcsr04Write call s = some (s', call')) : KeepStep s (.write call) s' (.write call') := by
  cases hcsr04Write_cases h with
  | eraseDistance _ hassign | eraseTsc hassign =>
    exact .of_same (fun h => h.elim id id) (assignSlot_bufferLock hassign)
  | initiating hinitiate => exact hinitiate.keeps id
  | @initiated operand created ret =>
    by_cases hret : ret = 0
    · exact .of_same (fun h => h.elim (fun hholds => hholds hret) id) rfl
    · rw [if_neg hret]
      exact .of_keeps (.inr rfl)
  | _ => exact .of_same (fun h => h.elim id id) rfl

theorem hcsr04Read_keeps {s s' : Shared} {call call' : ReadCall}
    (h : hcsr04Read call s = some (s', call')) : KeepStep s (.read call) s' (.read call') := by
  cases hcsr04Read_cases h with
  | unlock | unlockAgain => exact .of_unlocked (not_locked_unlock s)
  | initiating hinitiate => exact hinitiate.keeps id
  | initiated =>
    exact .of_same (fun h => h.elim (fun hret => hret rfl) fun hret => hret rfl) rfl
  | testEmpty | testConfigured | testInProgress | copyToUser =>
    exact .of_same (fun h => h.elim id id) rfl
  | _ => exact .of_keeps (.inl trivial)

theorem threadStep_keeps {env : KernelEnv} {s s' : Shared} {t t' : Thread}
    (h : threadStep env t s = some (s', t')) : KeepStep s t s' t' := by
  cases threadStep_cases h with
  | read hstep => exact hcsr04Read_keeps hstep
  | write hstep => exact hcsr04Write_keeps hstep
  | measure hstep =>
    cases hcsr04ThreadWrite_cases hstep with
    | trap => exact .of_keeps (.inr trivial)
    | unlock => exact .of_unlocked (not_locked_unlock s)
    | _ => exact .of_keeps (.inl trivial)
  | irq hstep =>
    cases irqHandler_cases hstep with
    | _ => exact .of_same (fun h => h.elim id id) rfl

/-- While the lock is taken, some thread keeps it taken. -/
def LockKept (p : Pool Shared Thread) : Prop := Locked p.shared → ∃ t ∈ p.threads, t.Keeps

theorem lockKept_of_run (env : KernelEnv) {device : Hcsr04Device}
    (hfree : device.bufferLock = false) {p : Pool Shared Thread} {moves : List (PoolMove Thread)}
    {os : List Unit} (hrun : run (deviceMove env) (idle device) moves = some (p, os)) :
    LockKept p := by
  have hinit : LockKept (idle device) := fun h => by simp [Locked, idle, hfree] at h
  refine run_pool_inv LockKept ?_ ?_ hinit (along_true _ _ _) hrun
  · intro q i t s' t' hq _ ht hstep hlocked
    have hlt : i < q.threads.length := (List.getElem?_eq_some_iff.mp ht).1
    have ht' : t' ∈ q.threads.set i t' := List.mem_of_getElem? (i := i) (by simp [hlt])
    have hkeep := threadStep_keeps hstep
    by_cases hs : Locked q.shared
    · obtain ⟨u, hu, hkeeps⟩ := hq hs
      obtain ⟨j, hj⟩ := List.mem_iff_getElem?.mp hu
      rcases eq_or_ne i j with rfl | hne
      · obtain rfl := Option.some.inj (ht.symm.trans hj)
        exact ⟨t', ht', (hkeep.keeps hkeeps).resolve_right fun h => h hlocked⟩
      · refine ⟨u, List.mem_of_getElem? (i := j) ?_, hkeeps⟩
        rwa [List.getElem?_set_ne hne]
    · exact ⟨t', ht', hkeep.takes hs hlocked⟩
  · intro q t s' hq hstart hlocked
    obtain ⟨-, hdevice⟩ := threadStart_effect hstart
    obtain ⟨u, hu, hkeeps⟩ := hq (by simpa [Locked, hdevice] using hlocked)
    exact ⟨u, List.mem_append_left _ hu, hkeeps⟩

/-- A thread that holds the lock waits for nothing, but for a read that was refused its kernel
thread. -/
theorem Thread.Holds.leftLocked {s : Shared} {t : Thread} (h : t.Holds)
    (hwaits : t.Ended ∨ t.Waits s) : t.LeftLocked := by
  have hnone : ¬ t.Ended → ¬ t.AtLock → ¬ t.AtDown → t.LeftLocked := by
    intro hended hlock hdown
    rcases hwaits with hwaits | ⟨hwaits, -⟩ | ⟨hwaits, -⟩
    · exact absurd hwaits hended
    · exact absurd hwaits hlock
    · exact absurd hwaits hdown
  cases t with
  | read call =>
    obtain ⟨created, copied, userBuf, removed, pc⟩ := call
    cases pc with
    | initiating buffer pc =>
      cases pc with
      | returned ret => exact h
      | kthreadRun | unlock => exact hnone id id id
      | lock => exact h.elim
    | fifoRead | fifoReadAgain | unlockAgain => exact hnone id id id
    | _ => exact h.elim
  | write call =>
    obtain ⟨operand, created, pc⟩ := call
    cases pc with
    | initiating pc =>
      cases pc with
      | lock => exact h.elim
      | kthreadRun | unlock | returned => exact hnone id id id
    | _ => exact h.elim
  | measure thread =>
    obtain ⟨tsc, pc⟩ := thread
    cases pc with
    | lock | exited | died => exact h.elim
    | _ => exact hnone id id id
  | irq => exact h.elim

/-- In every interleaving a thread that cannot step has ended, waits for the lock while it is
taken or for the semaphore while its count is 0. While the lock is taken, a thread that holds it
can step, or one has left it taken. -/
theorem stuck_by_lock_left (env : KernelEnv) {device : Hcsr04Device} (hinside : Inside device)
    (hfree : device.bufferLock = false) {p : Pool Shared Thread} {moves : List (PoolMove Thread)}
    {os : List Unit} (hrun : run (deviceMove env) (idle device) moves = some (p, os)) :
    (∀ t ∈ p.threads, threadStep env t p.shared = none → t.Ended ∨ t.Waits p.shared) ∧
      (Locked p.shared → (∃ t ∈ p.threads, t.Holds ∧ threadStep env t p.shared ≠ none) ∨
        ∃ t ∈ p.threads, t.LeftLocked) := by
  obtain ⟨hinv, -⟩ := indexes_of_run env hinside hrun
  have hknows : ∀ t ∈ p.threads, t.Indexes p.shared := by
    intro t ht
    obtain ⟨i, hi⟩ := List.mem_iff_getElem?.mp ht
    exact hinv.knows i t hi
  refine ⟨fun t ht => threadStep_stuck (hknows t ht), fun hlocked => ?_⟩
  obtain ⟨t, ht, hholds | hleft⟩ := lockKept_of_run env hfree hrun hlocked
  · by_cases hstuck : threadStep env t p.shared = none
    · exact .inr ⟨t, ht, hholds.leftLocked (threadStep_stuck (hknows t ht) hstuck)⟩
    · exact .inl ⟨t, ht, hholds, hstuck⟩
  · exact .inr ⟨t, ht, hleft⟩

/-- A write whose kernel thread was refused, and a read. -/
def refusedThenRead : List (PoolMove Thread) :=
  .start (.write ⟨0, false, .testConfigured⟩) :: stepsOf 0 7 ++ startRead 1 0

/-- The write has returned with the lock taken, and the read waits for it. -/
theorem stuck_by_lock_left_read :
    ∃ p os, run (deviceMove grantAll) (idle configuredDevice) refusedThenRead = some (p, os) ∧
      Locked p.shared ∧ (∀ t ∈ p.threads, t.Ended ∨ t.Waits p.shared) ∧
      ∃ t ∈ p.threads, t.LeftLocked := by
  have hview : (run (deviceMove grantAll) (idle configuredDevice) refusedThenRead).map (fun r =>
      (r.1.shared.device.bufferLock,
        r.1.threads.all fun t => (threadStep grantAll t r.1.shared).isNone)) =
          some (true, true) := by decide
  obtain ⟨⟨p, os⟩, hrun, hp⟩ := Option.map_eq_some_iff.mp hview
  obtain ⟨hlocked, hall⟩ := Prod.mk.inj hp
  have hnone : ∀ t ∈ p.threads, threadStep grantAll t p.shared = none := fun t ht =>
    Option.isNone_iff_eq_none.mp (List.all_eq_true.mp hall t ht)
  have hinside : Inside configuredDevice := ⟨0, rfl⟩
  obtain ⟨hstuck, hleft⟩ := stuck_by_lock_left grantAll hinside rfl hrun
  refine ⟨p, os, hrun, hlocked, fun t ht => hstuck t ht (hnone t ht), ?_⟩
  refine (hleft hlocked).resolve_left ?_
  rintro ⟨t, ht, -, hne⟩
  exact hne (hnone t ht)

end KernelDrivers.Hcsr04
