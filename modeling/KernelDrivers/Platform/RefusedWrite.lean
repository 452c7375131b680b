import KernelDrivers.Platform.CallsAlone

/-!
# What a refused write leaves

A write of the misc driver clears the buffer before it tests whether a measurement is in progress,
and sets the flag before it knows whether a thread can be created. So a write that starts nothing
leaves the device as it was only where it had nothing to clear and did not get to the start.
-/

namespace KernelDrivers.Platform
open Lib Hcsr04

/-- The sample buffer, its index and the flag are what they were. -/
structure SameBuffer (device device' : Hcsr04Device) : Prop where
  buffer : device'.buffer = device.buffer
  bufferIndex : device'.bufferIndex = device.bufferIndex
  measurementInProgress : device'.measurementInProgress = device.measurementInProgress

/-- A write that starts no measurement has changed nothing. -/
def RefusedUnchanged (s s' : Shared) : Prop :=
  s'.created = s.created → SameBuffer s.device s'.device

/-- The device refuses the write before it clears; or a measurement is in progress and there is
nothing to clear; or the write starts one. -/
def NothingToUndo (device : Hcsr04Device) (operand : Int32) (created : Bool) : Prop :=
  ¬ Configured device ∨
  device.measurementInProgress ≠ 0 ∧
    (operand = 0 ∨ (∀ i, device.buffer i = noSample) ∧ device.bufferIndex = 0) ∨
  device.measurementInProgress = 0 ∧ created = true

theorem sameBuffer_miscCleared_iff (operand : Int32) (s : Shared) :
    SameBuffer s.device (miscCleared operand s).device ↔
      operand = 0 ∨ (∀ i, s.device.buffer i = noSample) ∧ s.device.bufferIndex = 0 := by
  by_cases hoperand : operand = 0
  · rw [miscCleared, if_pos hoperand]
    exact iff_of_true ⟨rfl, rfl, rfl⟩ (.inl hoperand)
  · rw [miscCleared, if_neg hoperand]
    constructor
    · intro h
      exact .inr ⟨fun i => (congrFun h.buffer i).symm, h.bufferIndex.symm⟩
    · rintro (hzero | ⟨hbuffer, hindex⟩)
      · exact absurd hzero hoperand
      · exact ⟨(funext hbuffer).symm, hindex.symm, rfl⟩

/-- The cases of a write that returns. -/
theorem refusedUnchanged_iff_of_alone {operand : Int32} {created : Bool} {s s' : Shared}
    {ret : Int32} (h : Alone Hcsr04.hcsr04Write (s, ⟨operand, created, .testConfigured⟩)
      (s', ⟨operand, created, .returned ret⟩)) :
    RefusedUnchanged s s' ↔ NothingToUndo s.device operand created := by
  have hends : ∀ {t : Shared} {call : Hcsr04.WriteCall},
      Alone Hcsr04.hcsr04Write (s, ⟨operand, created, .testConfigured⟩) (t, call) →
      Hcsr04.hcsr04Write call t = none → s' = t ∧ ⟨operand, created, .returned ret⟩ = call :=
    fun h' hend => Prod.mk.inj (h.end_unique rfl h' hend)
  by_cases hconfigured : Configured s.device
  · by_cases hflag : s.device.measurementInProgress = 0
    · cases hlock : s.device.bufferLock with
      | true =>
        -- the write waits for the lock and does not return
        have hwaits := hends (miscWrite_setting operand created hconfigured hflag)
          (miscWrite_waits ((bufferLock_miscCleared operand s).trans hlock))
        cases hwaits.2
      | false =>
        obtain ⟨rfl, -⟩ := hends (miscWrite_idle operand created hconfigured hflag hlock) rfl
        cases created with
        | true =>
          refine iff_of_true (fun hsame => ?_) (.inr (.inr ⟨hflag, rfl⟩))
          rw [created_afterStart, if_pos rfl, created_miscCleared] at hsame
          omega
        | false =>
          refine iff_of_false (fun hsame => ?_) ?_
          · have hcount : (afterStart false (miscCleared operand s)).created = s.created := by
              rw [created_afterStart, created_miscCleared]
              rfl
            have hflag' := (hsame hcount).measurementInProgress
            rw [measurementInProgress_afterStart, hflag] at hflag'
            exact absurd hflag' (by decide)
          · rintro (hnot | ⟨hbusy, -⟩ | ⟨-, hcreated⟩)
            · exact hnot hconfigured
            · exact hbusy hflag
            · cases hcreated
    · obtain ⟨rfl, -⟩ := hends (miscWrite_busy operand created hconfigured hflag) rfl
      rw [RefusedUnchanged, NothingToUndo, sameBuffer_miscCleared_iff]
      simp [hconfigured, hflag]
  · obtain ⟨rfl, -⟩ := hends (miscWrite_unconfigured hconfigured) rfl
    exact iff_of_true (fun _ => ⟨rfl, rfl, rfl⟩) (.inl hconfigured)

/-- A write that returns and starts no measurement has changed nothing exactly when it had nothing
to clear and did not try to start one. -/
theorem refusedUnchanged_iff {env : KernelEnv} {p : Pool Shared Hcsr04.Thread} {operand : Int32}
    {created : Bool} {s' : Shared} {ret : Int32}
    (h : Completes (Hcsr04.threadStep env) Hcsr04.threadStart p
      (.write ⟨operand, created, .testConfigured⟩) s'
      (.write ⟨operand, created, .returned ret⟩)) :
    RefusedUnchanged p.shared s' ↔ NothingToUndo p.shared.device operand created :=
  refusedUnchanged_iff_of_alone ((completes_iff (fun _ _ => rfl)
    (fun _ _ heq => Hcsr04.Thread.write.inj heq) rfl).mp h)

/-- A pool in which a measurement was made and a second one is due. -/
def secondMeasurementDue : List (PoolMove Hcsr04.Thread) :=
  startMeasurement 0 ++ measureOnce 1 ++ startMeasurement 4

/-- The state of the pool, as far as a write sees it. -/
theorem run_secondMeasurementDue : ∃ p os,
    run (Hcsr04.deviceMove grantAll) (Hcsr04.idle configuredDevice) secondMeasurementDue =
      some (p, os) ∧
    Configured p.shared.device ∧ p.shared.device.measurementInProgress = 1 ∧
    p.shared.device.buffer 1 = ⟨100, 7⟩ :=
  ⟨_, _, rfl, ⟨by decide, by decide⟩, by decide, by decide⟩

/-- While the second measurement is due, a write that does not ask to clear is refused. -/
theorem refusedUnchanged_iff_busy : ∃ p os s',
    run (Hcsr04.deviceMove grantAll) (Hcsr04.idle configuredDevice) secondMeasurementDue =
      some (p, os) ∧
    Completes (Hcsr04.threadStep grantAll) Hcsr04.threadStart p
      (.write ⟨0, true, .testConfigured⟩) s' (.write ⟨0, true, .returned EINVAL⟩) ∧
    RefusedUnchanged p.shared s' := by
  obtain ⟨p, os, hrun, hconfigured, hflag, -⟩ := run_secondMeasurementDue
  have hbusy : p.shared.device.measurementInProgress ≠ 0 := by
    rw [hflag]
    decide
  have hcompletes : Completes (Hcsr04.threadStep grantAll) Hcsr04.threadStart p
      (.write ⟨0, true, .testConfigured⟩) (miscCleared 0 p.shared)
      (.write ⟨0, true, .returned EINVAL⟩) :=
    (completes_iff (fun _ _ => rfl) (fun _ _ heq => Hcsr04.Thread.write.inj heq) rfl).mpr
      (miscWrite_busy 0 true hconfigured hbusy)
  exact ⟨p, os, _, hrun, hcompletes,
    (refusedUnchanged_iff hcompletes).mpr (.inr (.inl ⟨hbusy, .inl rfl⟩))⟩

/-- A refused write changes nothing, in every state a configured device gets to. -/
def RefusedWritesChangeNothing : Prop :=
  ∀ env moves p os, run (Hcsr04.deviceMove env) (Hcsr04.idle configuredDevice) moves =
    some (p, os) → ∀ operand created s' ret,
    Completes (Hcsr04.threadStep env) Hcsr04.threadStart p
      (.write ⟨operand, created, .testConfigured⟩) s'
      (.write ⟨operand, created, .returned ret⟩) → RefusedUnchanged p.shared s'

/-- The write asks to clear while a measurement is due: it clears the sample and is refused. -/
theorem not_refusedWritesChangeNothing : ¬ RefusedWritesChangeNothing := by
  intro h
  obtain ⟨p, os, hrun, hconfigured, hflag, hslot⟩ := run_secondMeasurementDue
  have hbusy : p.shared.device.measurementInProgress ≠ 0 := by
    rw [hflag]
    decide
  have hsame := h grantAll _ p os hrun 1 true _ _ ((completes_iff (fun _ _ => rfl)
    (fun _ _ heq => Hcsr04.Thread.write.inj heq) rfl).mpr
      (miscWrite_busy 1 true hconfigured hbusy)) (created_miscCleared 1 p.shared)
  have hcleared : noSample = ⟨100, 7⟩ := (congrFun hsame.buffer 1).trans hslot
  exact absurd hcleared (by decide)

end KernelDrivers.Platform
