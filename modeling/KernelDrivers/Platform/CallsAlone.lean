import KernelDrivers.Lib.Alone
import KernelDrivers.Platform.Clearing

/-!
# The calls that start a measurement, on their own

Where a write, a read or a write to `enable` ends when no other thread takes a step. The calls
share the start of a measurement, which keeps the lock when no thread can be created.
-/

namespace KernelDrivers.Platform
open Lib Hcsr04

/-! ## The start of a measurement -/

/-- What `initiate_measurement` leaves when the lock is free. -/
def afterInitiate (created : Bool) (s : Shared) : Shared :=
  if created then { s with created := s.created + 1 }
  else s.setDevice { s.device with bufferLock := true }

def initiateResult (created : Bool) : Int32 := if created then 0 else 1

/-- What the calls that set the flag first leave. -/
def afterStart (created : Bool) (s : Shared) : Shared :=
  afterInitiate created (s.setDevice { s.device with measurementInProgress := 1 })

theorem created_afterInitiate (created : Bool) (s : Shared) :
    (afterInitiate created s).created = if created then s.created + 1 else s.created := by
  cases created <;> rfl

theorem created_afterStart (created : Bool) (s : Shared) :
    (afterStart created s).created = if created then s.created + 1 else s.created :=
  created_afterInitiate created _

theorem measurementInProgress_afterStart (created : Bool) (s : Shared) :
    (afterStart created s).device.measurementInProgress = 1 := by
  cases created <;> rfl

theorem lock_of_free {s : Shared} (h : s.device.bufferLock = false) :
    s.lock = some (s.setDevice { s.device with bufferLock := true }) := by
  rw [Shared.lock, h]
  rfl

theorem lock_of_taken {s : Shared} (h : s.device.bufferLock = true) : s.lock = none := by
  rw [Shared.lock, h]
  rfl

theorem unlock_setDevice_locked {s : Shared} (h : s.device.bufferLock = false) :
    (s.setDevice { s.device with bufferLock := true }).unlock = s := by
  rw [Shared.unlock, Shared.setDevice, Shared.setDevice, ← h]

/-- The start of a measurement, wherever it is called. -/
theorem alone_initiate {κ : Type} {step : κ → Shared → Option (Shared × κ)} {created : Bool}
    {initiating : InitiatePc → κ}
    (hinitiating : ∀ {s s' : Shared} {pc pc' : InitiatePc},
      initiateMeasurement created s pc = some (s', pc') →
        step (initiating pc) s = some (s', initiating pc'))
    {s : Shared} (hfree : s.device.bufferLock = false) :
    Alone step (s, initiating .lock)
      (afterInitiate created s, initiating (.returned (initiateResult created))) := by
  have hlock : initiateMeasurement created s .lock =
      some (s.setDevice { s.device with bufferLock := true }, .kthreadRun) := by
    rw [initiateMeasurement, lock_of_free hfree]
    rfl
  have htaken := Alone.of_step (x := (s, initiating .lock)) (hinitiating hlock)
  cases created with
  | false => exact htaken.next (hinitiating rfl)
  | true =>
    have hcreate := htaken.next (hinitiating rfl)
    have hunlock : afterInitiate true s = Shared.unlock
        { s.setDevice { s.device with bufferLock := true } with created := s.created + 1 } := by
      rw [afterInitiate, if_pos rfl, Shared.unlock, Shared.setDevice, Shared.setDevice, ← hfree]
    rw [hunlock]
    exact hcreate.next (hinitiating rfl)

/-- A call that has set the flag and starts a measurement. -/
theorem alone_start {κ : Type} {step : κ → Shared → Option (Shared × κ)} {created : Bool}
    {initiating : InitiatePc → κ}
    (hinitiating : ∀ {s s' : Shared} {pc pc' : InitiatePc},
      initiateMeasurement created s pc = some (s', pc') →
        step (initiating pc) s = some (s', initiating pc'))
    {x : Shared × κ} {s : Shared} (hfree : s.device.bufferLock = false)
    (hset : Alone step x
      (s.setDevice { s.device with measurementInProgress := 1 }, initiating .lock)) :
    Alone step x (afterStart created s, initiating (.returned (initiateResult created))) := by
  have hfree' : (s.setDevice { s.device with
      measurementInProgress := 1 }).device.bufferLock = false := hfree
  exact hset.trans (alone_initiate hinitiating hfree')

/-! ## Writes of the misc driver -/

/-- The device with the buffer cleared, if the operand asks for it. -/
def miscCleared (operand : Int32) (s : Shared) : Shared :=
  if operand = 0 then s
  else s.setDevice { s.device with buffer := fun _ => noSample, bufferIndex := 0 }

@[simp] theorem created_miscCleared (operand : Int32) (s : Shared) :
    (miscCleared operand s).created = s.created := by
  unfold miscCleared
  split
  · rfl
  · rfl

@[simp] theorem bufferLock_miscCleared (operand : Int32) (s : Shared) :
    (miscCleared operand s).device.bufferLock = s.device.bufferLock := by
  unfold miscCleared
  split
  · rfl
  · rfl

@[simp] theorem measurementInProgress_miscCleared (operand : Int32) (s : Shared) :
    (miscCleared operand s).device.measurementInProgress = s.device.measurementInProgress := by
  unfold miscCleared
  split
  · rfl
  · rfl

theorem miscInitiating {operand : Int32} {created : Bool} {s s' : Shared} {pc pc' : InitiatePc}
    (h : initiateMeasurement created s pc = some (s', pc')) :
    Hcsr04.hcsr04Write ⟨operand, created, .initiating pc⟩ s =
      some (s', ⟨operand, created, .initiating pc'⟩) := by
  cases pc with
  | returned => cases h
  | lock | kthreadRun | unlock =>
    simp only [Hcsr04.hcsr04Write, h, Option.map_some]

/-- A write that refuses or reaches the test of the flag. -/
theorem miscWrite_unconfigured {operand : Int32} {created : Bool} {s : Shared}
    (h : ¬ Configured s.device) : Alone Hcsr04.hcsr04Write (s, ⟨operand, created, .testConfigured⟩)
      (s, ⟨operand, created, .returned EINVAL⟩) := by
  refine Alone.of_step ?_
  have hzero : s.device.arePinsConfigured = 0 ∨ s.device.areMDeltaConfigured = 0 := by
    by_contra hne
    exact h (not_or.mp hne)
  simp [Hcsr04.hcsr04Write, hzero]

theorem miscWrite_configured (operand : Int32) (created : Bool) {s : Shared}
    (h : Configured s.device) : Alone Hcsr04.hcsr04Write (s, ⟨operand, created, .testConfigured⟩)
      (miscCleared operand s, ⟨operand, created, .testInProgress⟩) := by
  by_cases hoperand : operand = 0
  · have htest : Hcsr04.hcsr04Write ⟨operand, created, .testConfigured⟩ s =
        some (s, ⟨operand, created, .copyFromUser⟩) := by
      simp [Hcsr04.hcsr04Write, h.1, h.2]
    have hcopy : Hcsr04.hcsr04Write ⟨operand, created, .copyFromUser⟩ s =
        some (s, ⟨operand, created, .testInProgress⟩) := by
      simp [Hcsr04.hcsr04Write, hoperand]
    rw [miscCleared, if_pos hoperand]
    exact (Alone.of_step htest).next hcopy
  · obtain ⟨os, hrun⟩ := run_miscClears grantAll h hoperand created
    have hstart : Hcsr04.deviceMove grantAll ⟨s, []⟩
        (.start (miscWrite operand created .testConfigured)) =
        some (⟨s, [miscWrite operand created .testConfigured]⟩, ()) := rfl
    rw [miscClears, run_cons_of_some _ hstart] at hrun
    obtain ⟨⟨q, os'⟩, hsteps, heq⟩ := Option.map_eq_some_iff.mp hrun
    obtain ⟨call', hq, halone⟩ : ∃ call', q = ⟨q.shared, [.write call']⟩ ∧
        Alone Hcsr04.hcsr04Write (s, ⟨operand, created, .testConfigured⟩) (q.shared, call') :=
      alone_of_run (fun _ _ => rfl) [] hsteps
    obtain ⟨rfl, -⟩ := Prod.mk.inj heq
    have hsame := List.singleton_inj.mp (congrArg Pool.threads hq)
    rw [miscCleared, if_neg hoperand]
    rwa [← Hcsr04.Thread.write.inj hsame] at halone

theorem miscWrite_busy (operand : Int32) (created : Bool) {s : Shared} (h : Configured s.device)
    (hbusy : s.device.measurementInProgress ≠ 0) :
    Alone Hcsr04.hcsr04Write (s, ⟨operand, created, .testConfigured⟩)
      (miscCleared operand s, ⟨operand, created, .returned EINVAL⟩) := by
  refine (miscWrite_configured operand created h).next ?_
  simp [Hcsr04.hcsr04Write, hbusy]

theorem miscWrite_setting (operand : Int32) (created : Bool) {s : Shared} (h : Configured s.device)
    (hidle : s.device.measurementInProgress = 0) :
    Alone Hcsr04.hcsr04Write (s, ⟨operand, created, .testConfigured⟩)
      ((miscCleared operand s).setDevice
        { (miscCleared operand s).device with measurementInProgress := 1 },
        ⟨operand, created, .initiating .lock⟩) := by
  have htest : Hcsr04.hcsr04Write ⟨operand, created, .testInProgress⟩ (miscCleared operand s) =
      some (miscCleared operand s, ⟨operand, created, .setInProgress⟩) := by
    simp [Hcsr04.hcsr04Write, hidle]
  exact ((miscWrite_configured operand created h).next htest).next rfl

theorem miscWrite_waits {operand : Int32} {created : Bool} {s : Shared}
    (h : s.device.bufferLock = true) :
    Hcsr04.hcsr04Write ⟨operand, created, .initiating .lock⟩ s = none := by
  simp [Hcsr04.hcsr04Write, initiateMeasurement, lock_of_taken h]

theorem miscWrite_idle (operand : Int32) (created : Bool) {s : Shared} (h : Configured s.device)
    (hidle : s.device.measurementInProgress = 0) (hfree : s.device.bufferLock = false) :
    Alone Hcsr04.hcsr04Write (s, ⟨operand, created, .testConfigured⟩)
      (afterStart created (miscCleared operand s),
        ⟨operand, created, .returned (if created then EINVAL else SUCCESS)⟩) := by
  have hfree' := (bufferLock_miscCleared operand s).trans hfree
  refine (alone_start miscInitiating hfree' (miscWrite_setting operand created h hidle)).next ?_
  cases created with
  | false => rfl
  | true => rfl

/-! ## Writes of the platform driver -/

/-- The device with the index reset, if the operand asks for it. -/
def platformCleared (operand : Int32) (s : Shared) : Shared :=
  if operand = 0 then s else s.setDevice { s.device with bufferIndex := 0 }

@[simp] theorem created_platformCleared (operand : Int32) (s : Shared) :
    (platformCleared operand s).created = s.created := by
  unfold platformCleared
  split
  · rfl
  · rfl

@[simp] theorem bufferLock_platformCleared (operand : Int32) (s : Shared) :
    (platformCleared operand s).device.bufferLock = s.device.bufferLock := by
  unfold platformCleared
  split
  · rfl
  · rfl

@[simp] theorem measurementInProgress_platformCleared (operand : Int32) (s : Shared) :
    (platformCleared operand s).device.measurementInProgress =
      s.device.measurementInProgress := by
  unfold platformCleared
  split
  · rfl
  · rfl

theorem platformInitiating {operand : Int32} {created : Bool} {s s' : Shared}
    {pc pc' : InitiatePc} (h : initiateMeasurement created s pc = some (s', pc')) :
    hcsr04Write ⟨operand, created, .initiating pc⟩ s =
      some (s', ⟨operand, created, .initiating pc'⟩) := by
  cases pc with
  | returned => cases h
  | lock | kthreadRun | unlock => simp only [hcsr04Write, h, Option.map_some]

theorem platformWrite_configured (operand : Int32) (created : Bool) {s : Shared}
    (h : Configured s.device) : Alone hcsr04Write (s, ⟨operand, created, .testConfigured⟩)
      (platformCleared operand s, ⟨operand, created, .testInProgress⟩) := by
  have htest : hcsr04Write ⟨operand, created, .testConfigured⟩ s =
      some (s, ⟨operand, created, .copyFromUser⟩) := by
    simp [hcsr04Write, h.1, h.2]
  by_cases hoperand : operand = 0
  · have hcopy : hcsr04Write ⟨operand, created, .copyFromUser⟩ s =
        some (s, ⟨operand, created, .testInProgress⟩) := by
      simp [hcsr04Write, hoperand]
    rw [platformCleared, if_pos hoperand]
    exact (Alone.of_step htest).next hcopy
  · have hcopy : hcsr04Write ⟨operand, created, .copyFromUser⟩ s =
        some (s, ⟨operand, created, .resetIndex⟩) := by
      simp [hcsr04Write, hoperand]
    rw [platformCleared, if_neg hoperand]
    exact ((Alone.of_step htest).next hcopy).next rfl

theorem platformWrite_idle (operand : Int32) (created : Bool) {s : Shared}
    (h : Configured s.device) (hidle : s.device.measurementInProgress = 0)
    (hfree : s.device.bufferLock = false) :
    Alone hcsr04Write (s, ⟨operand, created, .testConfigured⟩)
      (afterStart created (platformCleared operand s),
        ⟨operand, created, .returned (if created then EINVAL else SUCCESS)⟩) := by
  have htest : hcsr04Write ⟨operand, created, .testInProgress⟩ (platformCleared operand s) =
      some (platformCleared operand s, ⟨operand, created, .setInProgress⟩) := by
    simp [hcsr04Write, hidle]
  have hfree' := (bufferLock_platformCleared operand s).trans hfree
  have hset := ((platformWrite_configured operand created h).next htest).next rfl
  refine (alone_start platformInitiating hfree' hset).next ?_
  cases created with
  | false => rfl
  | true => rfl

/-! ## The attribute -/

theorem enableInitiating {text : Option Int32} {count : Int32} {created : Bool} {s s' : Shared}
    {pc pc' : InitiatePc} (h : initiateMeasurement created s pc = some (s', pc')) :
    enableStore ⟨text, count, created, .initiating pc⟩ s =
      some (s', ⟨text, count, created, .initiating pc'⟩) := by
  cases pc with
  | returned => cases h
  | lock | kthreadRun | unlock => simp only [enableStore, h, Option.map_some]

theorem enable_idle (count : Int32) (created : Bool) {s : Shared}
    (hidle : s.device.measurementInProgress = 0) (hfree : s.device.bufferLock = false) :
    Alone enableStore (s, ⟨some 1, count, created, .testEnable⟩)
      (afterStart created s,
        ⟨some 1, count, created, .returned (if created then EINVAL else count)⟩) := by
  have hone : enableStore ⟨some 1, count, created, .testEnable⟩ s =
      some (s, ⟨some 1, count, created, .testInProgress⟩) := rfl
  have htest : enableStore ⟨some 1, count, created, .testInProgress⟩ s =
      some (s, ⟨some 1, count, created, .setInProgress⟩) := by
    simp [enableStore, hidle]
  have hfirst : Alone enableStore (s, ⟨some 1, count, created, .testEnable⟩)
      (s, ⟨some 1, count, created, .setInProgress⟩) := (Alone.of_step hone).next htest
  refine (alone_start enableInitiating hfree (hfirst.next rfl)).next ?_
  cases created with
  | false => rfl
  | true => rfl

/-! ## Reads of an empty buffer -/

def EmptyBuffer (device : Hcsr04Device) : Prop :=
  ∃ slot, currentSlot device = some slot ∧ slot.tsc = NO_TSC

theorem readInitiating {created : Bool} {copied : CopiedBytes} {userBuf buffer : FifoBuffer}
    {removed : List FifoBuffer} {s s' : Shared} {pc pc' : InitiatePc}
    (h : initiateMeasurement created s pc = some (s', pc')) :
    hcsr04Read ⟨created, copied, userBuf, removed, .initiating buffer pc⟩ s =
      some (s', ⟨created, copied, userBuf, removed, .initiating buffer pc'⟩) := by
  cases pc with
  | returned => cases h
  | lock | kthreadRun | unlock => simp only [hcsr04Read, h, Option.map_some]

/-- A read that finds nothing gives the lock back and starts a measurement. -/
theorem read_initiating (created : Bool) (copied : CopiedBytes) (userBuf : FifoBuffer)
    {s : Shared} (h : Configured s.device) (hidle : s.device.measurementInProgress = 0)
    (hfree : s.device.bufferLock = false) (hempty : EmptyBuffer s.device) :
    Alone hcsr04Read (s, ⟨created, copied, userBuf, [], .lock⟩)
      (s, ⟨created, copied, userBuf, [], .initiating emptyReport .lock⟩) := by
  let locked : Shared := s.setDevice { s.device with bufferLock := true }
  have hlock : hcsr04Read ⟨created, copied, userBuf, [], .lock⟩ s =
      some (locked, ⟨created, copied, userBuf, [], .fifoRead .testEmpty⟩) := by
    rw [hcsr04Read, lock_of_free hfree]
    rfl
  have hreport : hcsr04Read ⟨created, copied, userBuf, [], .fifoRead .testEmpty⟩ locked =
      some (locked, ⟨created, copied, userBuf, [], .fifoRead (.returned emptyReport)⟩) := by
    obtain ⟨slot, hslot, htsc⟩ := hempty
    have hslot' : currentSlot locked.device = some slot := hslot
    simp only [hcsr04Read, fifoReadStep, hslot', htsc, if_true, Option.map_some]
    rfl
  have hunlock : hcsr04Read ⟨created, copied, userBuf, [], .fifoRead (.returned emptyReport)⟩
      locked = some (s, ⟨created, copied, userBuf, [], .testEmpty emptyReport⟩) := by
    rw [hcsr04Read, unlock_setDevice_locked hfree]
  have hempty' : hcsr04Read ⟨created, copied, userBuf, [], .testEmpty emptyReport⟩ s =
      some (s, ⟨created, copied, userBuf, [], .testConfigured emptyReport⟩) := rfl
  have hconfigured : hcsr04Read ⟨created, copied, userBuf, [], .testConfigured emptyReport⟩ s =
      some (s, ⟨created, copied, userBuf, [], .testInProgress emptyReport⟩) := by
    simp [hcsr04Read, h.1, h.2]
  have hinProgress : hcsr04Read ⟨created, copied, userBuf, [], .testInProgress emptyReport⟩ s =
      some (s, ⟨created, copied, userBuf, [], .initiating emptyReport .lock⟩) := by
    simp [hcsr04Read, hidle]
  exact ((((((Alone.of_step hlock).next hreport).next hunlock).next hempty').next
    hconfigured).next hinProgress)

theorem read_created (copied : CopiedBytes) (userBuf : FifoBuffer) {s : Shared}
    (h : Configured s.device) (hidle : s.device.measurementInProgress = 0)
    (hfree : s.device.bufferLock = false) (hempty : EmptyBuffer s.device) :
    Alone hcsr04Read (s, ⟨true, copied, userBuf, [], .lock⟩)
      (afterInitiate true s, ⟨true, copied, userBuf, [], .returned EINVAL⟩) :=
  ((read_initiating true copied userBuf h hidle hfree hempty).trans
    (alone_initiate readInitiating hfree)).next rfl

/-- Without a thread the read goes on to take the lock that it holds. -/
theorem read_refused (copied : CopiedBytes) (userBuf : FifoBuffer) {s : Shared}
    (h : Configured s.device) (hidle : s.device.measurementInProgress = 0)
    (hfree : s.device.bufferLock = false) (hempty : EmptyBuffer s.device) :
    Alone hcsr04Read (s, ⟨false, copied, userBuf, [], .lock⟩)
      (afterInitiate false s, ⟨false, copied, userBuf, [], .initiating emptyReport (.returned 1)⟩) ∧
    hcsr04Read ⟨false, copied, userBuf, [], .initiating emptyReport (.returned 1)⟩
      (afterInitiate false s) = none :=
  ⟨(read_initiating false copied userBuf h hidle hfree hempty).trans
    (alone_initiate readInitiating hfree), rfl⟩

end KernelDrivers.Platform
