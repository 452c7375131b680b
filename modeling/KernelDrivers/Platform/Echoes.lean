import KernelDrivers.Hcsr04.Echoes
import KernelDrivers.Platform.Measurement

/-!
# The echoes of a platform device

Two parties write to the interrupt data: the interrupt handler at an edge, and a measurement,
which sets the number of samples after each trigger. So the data after a run is that before it,
folded over the edges and the triggers in the order they happened. Only the holder of the lock
triggers.
-/

namespace KernelDrivers.Platform
open Lib Hcsr04

/-! ## Edges and triggers -/

inductive EchoEvent where
  | edge (irqTime : UInt64)
  /-- a measurement sets the number of samples -/
  | trigger (samplesCollected : Int32)
  deriving DecidableEq

def echoEvent (_ : Shared) : Thread → Option EchoEvent
  | .irq ⟨irqTime, .edge⟩ => some (.edge irqTime)
  | .measure ⟨_, .collect samplesCollected _⟩ => some (.trigger (samplesCollected + 1))
  | _ => none

/-- The edges and triggers of a run, in order. -/
def echoEvents (env : KernelEnv) : Pool Shared Thread → List (PoolMove Thread) → List EchoEvent :=
  poolEvents (threadStep env) threadStart echoEvent

def takeEvent (irqData : Hcsr04IrqData) : EchoEvent → Hcsr04IrqData
  | .edge irqTime => takeEdge irqData irqTime
  | .trigger samplesCollected => { irqData with totalSamples := samplesCollected }

/-! ## What a step does -/

/-- What a step of a thread does to the lock, the interrupt data and `m`. -/
structure Effect (s : Shared) (t : Thread) (s' : Shared) (t' : Thread) : Prop where
  lock : (t.Holds → Locked s) → LockStep Locked Thread.Holds s t s' t'
  irqData : s'.device.irqData = (echoEvent s t).toList.foldl takeEvent s.device.irqData
  m : s'.device.m = s.device.m

/-- A holder that stays one. -/
theorem Effect.of_holds {s s' : Shared} {t t' : Thread} (ht : t.Holds)
    (hs : s'.device.bufferLock = s.device.bufferLock)
    (hirq : s'.device.irqData = (echoEvent s t).toList.foldl takeEvent s.device.irqData)
    (hm : s'.device.m = s.device.m) : Effect s t s' t' :=
  ⟨fun h => LockStep.keep h (by simp [Locked, hs]) fun _ => ht, hirq, hm⟩

/-- A thread that works without the lock. -/
theorem Effect.of_not_holds {s s' : Shared} {t t' : Thread} (ht' : ¬ t'.Holds)
    (hs : s'.device.bufferLock = s.device.bufferLock)
    (hirq : s'.device.irqData = (echoEvent s t).toList.foldl takeEvent s.device.irqData)
    (hm : s'.device.m = s.device.m) : Effect s t s' t' :=
  ⟨fun h => LockStep.keep h (by simp [Locked, hs]) fun h' => absurd h' ht', hirq, hm⟩

/-- A thread of the misc driver's code. -/
theorem Effect.of_misc {s s' : Shared} {t t' : Thread} {u u' : Hcsr04.Thread}
    (hlock : (u.Holds → Locked s) → LockStep Locked Hcsr04.Thread.Holds s u s' u')
    (hsame : SameEcho s s') (hnone : echoEvent s t = none) (ht : t.Holds ↔ u.Holds)
    (ht' : t'.Holds ↔ u'.Holds) : Effect s t s' t' := by
  refine ⟨fun h => (hlock fun hu => h (ht.mpr hu)).congr ht ht', ?_, hsame.m⟩
  rw [hnone, hsame.irqData]
  rfl

theorem initiateMeasurement_effect {s s' : Shared} {pc pc' : InitiatePc} {created : Bool}
    {t t' : Thread} (h : initiateMeasurement created s pc = some (s', pc'))
    (hnone : echoEvent s t = none) (ht : t.Holds ↔ pc.Holds) (ht' : t'.Holds ↔ pc'.Holds) :
    Effect s t s' t' := by
  have hlock : (Hcsr04.Thread.Holds (.write ⟨0, created, .initiating pc⟩) → Locked s) →
      LockStep Locked Hcsr04.Thread.Holds s (.write ⟨0, created, .initiating pc⟩) s'
        (.write ⟨0, created, .initiating pc'⟩) :=
    ((initiateMeasurement_cases h).effect Iff.rfl Iff.rfl).lock
  exact .of_misc hlock (initiateMeasurement_echo h) hnone ht ht'

/-- A step of a call that starts measurements: it sets the index or the busy flag at most, or it
is one of `initiate_measurement`. -/
inductive EntryStep (s s' : Shared) (t t' : Thread) : Prop
  | call (index flag : Int32)
      (hs : s' = s.setDevice
        { s.device with bufferIndex := index, measurementInProgress := flag })
      (ht' : ¬ t'.Holds) : EntryStep s s' t t'
  | initiate {created : Bool} {pc pc' : InitiatePc}
      (hinitiate : initiateMeasurement created s pc = some (s', pc'))
      (ht : t.Holds ↔ pc.Holds) (ht' : t'.Holds ↔ pc'.Holds) : EntryStep s s' t t'

theorem hcsr04Write_entryStep {s s' : Shared} {call call' : WriteCall}
    (h : hcsr04Write call s = some (s', call')) :
    EntryStep s s' (.write call) (.write call') := by
  obtain ⟨bufferOperation, created, pc⟩ := call
  cases pc with
  | testConfigured | copyFromUser | testInProgress =>
    obtain ⟨rfl, rfl⟩ := Prod.mk.inj (Option.some.inj h)
    refine .call _ _ rfl ?_
    dsimp only
    split <;> exact id
  | resetIndex | setInProgress =>
    obtain ⟨rfl, rfl⟩ := Prod.mk.inj (Option.some.inj h)
    exact .call _ _ rfl id
  | initiating pc =>
    cases pc with
    | returned ret =>
      obtain ⟨rfl, rfl⟩ := Prod.mk.inj (Option.some.inj h)
      exact .call _ _ rfl id
    | lock | kthreadRun | unlock =>
      simp only [hcsr04Write] at h
      obtain ⟨⟨s₁, pc₁⟩, hinitiate, h⟩ := Option.map_eq_some_iff.mp h
      obtain ⟨rfl, rfl⟩ := Prod.mk.inj h
      exact .initiate hinitiate Iff.rfl Iff.rfl
  | returned => cases h

theorem enableStore_entryStep {s s' : Shared} {call call' : EnableCall}
    (h : enableStore call s = some (s', call')) :
    EntryStep s s' (.enable call) (.enable call') := by
  obtain ⟨text, count, created, pc⟩ := call
  cases pc with
  | testEnable | testInProgress =>
    obtain ⟨rfl, rfl⟩ := Prod.mk.inj (Option.some.inj h)
    refine .call _ _ rfl ?_
    dsimp only
    split <;> exact id
  | setInProgress =>
    obtain ⟨rfl, rfl⟩ := Prod.mk.inj (Option.some.inj h)
    exact .call _ _ rfl id
  | initiating pc =>
    cases pc with
    | returned ret =>
      obtain ⟨rfl, rfl⟩ := Prod.mk.inj (Option.some.inj h)
      exact .call _ _ rfl id
    | lock | kthreadRun | unlock =>
      simp only [enableStore] at h
      obtain ⟨⟨s₁, pc₁⟩, hinitiate, h⟩ := Option.map_eq_some_iff.mp h
      obtain ⟨rfl, rfl⟩ := Prod.mk.inj h
      exact .initiate hinitiate Iff.rfl Iff.rfl
  | returned => cases h

theorem EntryStep.effect {s s' : Shared} {t t' : Thread} (h : EntryStep s s' t t')
    (hnone : echoEvent s t = none) : Effect s t s' t' := by
  cases h with
  | call index flag hs ht' =>
    subst hs
    exact .of_not_holds ht' rfl (by rw [hnone]; rfl) rfl
  | initiate hinitiate ht ht' => exact initiateMeasurement_effect hinitiate hnone ht ht'

/-- The writes change the buffer, its lock and the busy flag at most, as those of the misc
driver. -/
theorem EntryStep.buffer {s s' : Shared} {t t' : Thread} (h : EntryStep s s' t t') :
    BufferStep s s' := by
  cases h with
  | call index flag hs ht' =>
    subst hs
    exact .of_device _ ⟨_, _, _, _, rfl⟩
  | initiate hinitiate ht ht' => exact (initiateMeasurement_cases hinitiate).buffer

theorem hcsr04ThreadWrite_effect {env : KernelEnv} {s s' : Shared} {thread thread' : Measurement}
    (h : hcsr04ThreadWrite env thread s = some (s', thread')) :
    Effect s (.measure thread) s' (.measure thread') := by
  cases hcsr04ThreadWrite_cases h with
  | lock hlock =>
    obtain ⟨hfree, rfl⟩ := Shared.lock_eq_some hlock
    exact ⟨fun _ => LockStep.take hfree rfl, rfl, rfl⟩
  | start | more | done | triggerHigh | triggerLow | collect | trap | average
  | clearInProgress => exact .of_holds trivial rfl rfl rfl
  | fifoWrite hstep =>
    obtain ⟨buffer, bufferIndex, rfl⟩ := fifoWriteStep_device hstep
    exact .of_holds trivial rfl rfl rfl
  | unlock => exact ⟨fun _ => LockStep.give trivial id, rfl, rfl⟩
  | up => exact .of_not_holds id rfl rfl rfl

theorem threadStep_effect {env : KernelEnv} {s s' : Shared} {t t' : Thread}
    (h : threadStep env t s = some (s', t')) : Effect s t s' t' := by
  cases threadStep_cases h with
  | read hstep =>
    exact .of_misc (hcsr04Read_effect hstep).lock (hcsr04Read_echo hstep) rfl Iff.rfl Iff.rfl
  | write hstep => exact (hcsr04Write_entryStep hstep).effect rfl
  | enable hstep => exact (enableStore_entryStep hstep).effect rfl
  | measure hstep => exact hcsr04ThreadWrite_effect hstep
  | @irq irq irq' hstep =>
    obtain ⟨irqTime, pc⟩ := irq
    cases pc with
    | edge =>
      obtain ⟨rfl, rfl⟩ := Prod.mk.inj (Option.some.inj hstep)
      exact .of_not_holds id rfl rfl rfl
    | down | handled => cases hstep

/-- A thread starts without the lock and leaves the device as it is. -/
theorem threadStart_effect {s s' : Shared} {t : Thread} (h : threadStart t s = some s') :
    ¬ t.Holds ∧ s'.device = s.device := by
  unfold threadStart at h
  split at h
  · obtain rfl := Option.some.inj h
    exact ⟨id, rfl⟩
  · obtain rfl := Option.some.inj h
    exact ⟨id, rfl⟩
  · obtain rfl := Option.some.inj h
    exact ⟨id, rfl⟩
  · split at h
    · cases h
    · obtain rfl := Option.some.inj h
      exact ⟨id, rfl⟩
  · split at h
    · cases h
    · obtain rfl := Option.some.inj h
      exact ⟨id, rfl⟩
  · cases h

/-- The interrupt data after a run is the fold of its edges and triggers. -/
theorem irqData_of_run {env : KernelEnv} {p q : Pool Shared Thread}
    {moves : List (PoolMove Thread)} {os : List Unit}
    (hrun : run (deviceMove env) p moves = some (q, os)) :
    q.shared.device.irqData = (echoEvents env p moves).foldl takeEvent p.shared.device.irqData := by
  refine run_pool_events echoEvent
    (fun q es => q.shared.device.irqData = es.foldl takeEvent p.shared.device.irqData) ?_ ?_ rfl
    hrun
  · intro q es i t s' t' h _ hstep
    rw [List.foldl_append, ← h]
    exact (threadStep_effect hstep).irqData
  · intro q es t s' h hstart
    rw [← h, (threadStart_effect hstart).2]

end KernelDrivers.Platform
