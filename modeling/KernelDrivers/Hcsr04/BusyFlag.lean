import KernelDrivers.Hcsr04.Locking

/-!
# The busy flag

`measurement_in_progress` against the measurement threads. A write tests the flag, sets it and
creates a thread, in three statements; the thread stores its sample and then clears the flag. As
long as no read starts a measurement, no two writes test the flag at once and every thread asked
for is created, the flag counts the threads that have not cleared it. That is the threads that have
not stored their sample, up to one that has just done so.
-/

namespace KernelDrivers.Hcsr04
open Lib

/-! ## The property -/

/-- 1 for a measurement thread that has not stored its sample. -/
def Thread.pending : Thread → Nat
  | .measure ⟨_, .fifoWrite _ .returned⟩ => 0
  | .measure ⟨_, .unlock⟩ => 0
  | .measure ⟨_, .exited⟩ => 0
  | .measure _ => 1
  | _ => 0

/-- The measurements started and not stored: threads created, and threads at work. -/
def outstanding (p : Pool Shared Thread) : Nat := p.shared.created + total Thread.pending p.threads

/-- A call that has not taken its first statement, or has returned. -/
def Thread.BetweenCalls : Thread → Prop
  | .read ⟨_, _, _, _, .lock⟩ => True
  | .read ⟨_, _, _, _, .returned _⟩ => True
  | .read _ => False
  | .write ⟨_, _, .testConfigured⟩ => True
  | .write ⟨_, _, .returned _⟩ => True
  | .write _ => False
  | _ => True

/-- No call is in the middle of its own steps. -/
def CallsAtRest (p : Pool Shared Thread) : Prop := ∀ t ∈ p.threads, t.BetweenCalls

/-- With no call in the middle of its steps, the flag is 1 exactly when a measurement is
outstanding, and at most one is. -/
def BusyFlagTrue (p : Pool Shared Thread) : Prop :=
  CallsAtRest p →
    (p.shared.device.measurementInProgress = 1 ↔ 0 < outstanding p) ∧ outstanding p ≤ 1

/-! ## The condition -/

/-- A write that found the flag clear and is about to set it. -/
def Thread.Sets : Thread → Bool
  | .write ⟨_, _, .setInProgress⟩ => true
  | _ => false

/-- What a thread may meet at its next statement: a read that tests the flag finds it set, a
write that tests it and finds it clear is the only one to do so, and a thread that a write asks
for is created. -/
def StartsTruly (p : Pool Shared Thread) : Thread → Prop
  | .read ⟨_, _, _, _, .testInProgress _⟩ => p.shared.device.measurementInProgress ≠ 0
  | .write ⟨_, _, .testInProgress⟩ =>
    p.shared.device.measurementInProgress = 0 → ∀ t ∈ p.threads, t.Sets = false
  | .write ⟨_, created, .initiating .kthreadRun⟩ => created = true
  | _ => True

instance (p : Pool Shared Thread) : ∀ t, Decidable (StartsTruly p t) := by
  intro t
  unfold StartsTruly
  split <;> infer_instance

def StepStartsTruly (p : Pool Shared Thread) : PoolMove Thread → Prop
  | .start _ => True
  | .step i => ∀ t ∈ p.threads[i]?, StartsTruly p t

instance (p : Pool Shared Thread) : ∀ move, Decidable (StepStartsTruly p move)
  | .start _ => isTrue trivial
  | .step i => inferInstanceAs (Decidable (∀ t ∈ p.threads[i]?, StartsTruly p t))

/-- A measurement thread that stored its sample and clears the flag next. -/
def Thread.Stored : Thread → Bool
  | .measure ⟨_, .fifoWrite _ .returned⟩ => true
  | _ => false

/-! ## The invariant -/

/-- 1 from the setting of the flag to its clearing, but while the thread is created and did not
start. -/
def Thread.raised : Thread → Nat
  | .write ⟨_, _, .initiating .lock⟩ => 1
  | .write ⟨_, _, .initiating .kthreadRun⟩ => 1
  | .measure ⟨_, .fifoWrite _ .returned⟩ => 1
  | t => t.pending

/-- The same from the test of the flag on. -/
def Thread.tested (t : Thread) : Nat := if t.Sets then 1 else t.raised

/-- A read that starts a measurement. -/
def Thread.Initiates : Thread → Prop
  | .read ⟨_, _, _, _, .initiating _ _⟩ => True
  | _ => False

structure FlagInv (p : Pool Shared Thread) : Prop where
  one : p.shared.created + total Thread.tested p.threads ≤ 1
  flag : p.shared.device.measurementInProgress =
    if p.shared.created + total Thread.raised p.threads = 0 then 0 else 1
  reads : ∀ t ∈ p.threads, ¬ t.Initiates

/-- What one step does to the flag and to what the thread counts for. -/
inductive FlagStep (s : Shared) (t : Thread) (s' : Shared) (t' : Thread) : Prop
  | same (hflag : s'.device.measurementInProgress = s.device.measurementInProgress)
      (hcreated : s'.created = s.created) (hsets : t'.Sets = t.Sets)
      (hraised : t'.raised = t.raised)
  | test (hwrite : ∃ bufferOperation created,
        t = .write ⟨bufferOperation, created, .testInProgress⟩)
      (hclear : s.device.measurementInProgress = 0) (hs : s' = s) (hsets : t'.Sets = true)
      (hraised : t'.raised = 0)
  | set (hflag : s'.device.measurementInProgress = 1) (hcreated : s'.created = s.created)
      (hsets : t.Sets = true) (hsets' : t'.Sets = false) (hraised : t.raised = 0)
      (hraised' : t'.raised = 1)
  | create (hflag : s'.device.measurementInProgress = s.device.measurementInProgress)
      (hcreated : s'.created = s.created + 1) (hsets : t.Sets = false) (hsets' : t'.Sets = false)
      (hraised : t.raised = 1) (hraised' : t'.raised = 0)
  | clear (hflag : s'.device.measurementInProgress = 0) (hcreated : s'.created = s.created)
      (hsets : t.Sets = false) (hsets' : t'.Sets = false) (hraised : t.raised = 1)
      (hraised' : t'.raised = 0)

theorem FlagStep.of_lock {s s' : Shared} {t t' : Thread} (h : s.lock = some s')
    (hsets : t'.Sets = t.Sets) (hraised : t'.raised = t.raised) : FlagStep s t s' t' := by
  obtain ⟨-, rfl⟩ := Shared.lock_eq_some h
  exact .same rfl rfl hsets hraised

theorem hcsr04Write_flag {p : Pool Shared Thread} {s' : Shared} {call call' : WriteCall}
    (hmeets : StartsTruly p (.write call)) (h : hcsr04Write call p.shared = some (s', call')) :
    FlagStep p.shared (.write call) s' (.write call') := by
  cases hcsr04Write_cases h with
  | testConfigured | copyFromUser => refine .same rfl rfl ?_ ?_ <;> split <;> rfl
  | eraseDistance _ hassign | eraseTsc hassign =>
    obtain ⟨buffer, rfl⟩ := assignSlot_device hassign
    exact .same rfl rfl rfl rfl
  | resetIndex | initiated => exact .same rfl rfl rfl rfl
  | testInProgress =>
    by_cases hclear : p.shared.device.measurementInProgress = 0
    · simp only [hclear, ne_eq, not_true_eq_false, if_false]
      exact .test ⟨_, _, rfl⟩ hclear rfl rfl rfl
    · simp only [ne_eq, hclear, not_false_eq_true, if_true]
      exact .same rfl rfl rfl rfl
  | setInProgress => exact .set rfl rfl rfl rfl rfl rfl
  | initiating hinitiate =>
    cases hinitiate with
    | lock hlock => exact .of_lock hlock rfl rfl
    | create => exact .create rfl rfl rfl rfl rfl rfl
    | refuse hrefused =>
      have hcreated : _ = true := hmeets
      rw [hrefused] at hcreated
      cases hcreated
    | unlock => exact .same rfl rfl rfl rfl

/-- The store of a sample lowers nothing. -/
theorem raised_fifoWrite (tsc : UInt64) (buffer : FifoBuffer) (pc : FifoWritePc) :
    Thread.raised (.measure ⟨tsc, .fifoWrite buffer pc⟩) = 1 := by
  cases pc <;> rfl

theorem hcsr04ThreadWrite_flag {env : KernelEnv} {s s' : Shared} {thread thread' : Measurement}
    (h : hcsr04ThreadWrite env thread s = some (s', thread')) :
    FlagStep s (.measure thread) s' (.measure thread') := by
  cases hcsr04ThreadWrite_cases h with
  | lock hlock => exact .of_lock hlock rfl rfl
  | fifoWrite hstep =>
    obtain ⟨buffer, bufferIndex, rfl⟩ := fifoWriteStep_device hstep
    exact .same rfl rfl rfl (by rw [raised_fifoWrite, raised_fifoWrite])
  | clearInProgress => exact .clear rfl rfl rfl rfl rfl rfl
  | _ => exact .same rfl rfl rfl rfl

/-- A read that finds the flag set starts no measurement, and does nothing to the flag. -/
theorem hcsr04Read_flag {p : Pool Shared Thread} {s' : Shared} {call call' : ReadCall}
    (hmeets : StartsTruly p (.read call)) (hreads : ¬ Thread.Initiates (.read call))
    (h : hcsr04Read call p.shared = some (s', call')) :
    FlagStep p.shared (.read call) s' (.read call') ∧ ¬ Thread.Initiates (.read call') := by
  cases hcsr04Read_cases h with
  | lock hlock | lockAgain hlock => exact ⟨.of_lock hlock rfl rfl, id⟩
  | fifoRead hstep | fifoReadAgain hstep =>
    obtain ⟨buffer, bufferIndex, rfl⟩ := fifoReadStep_device hstep
    exact ⟨.same rfl rfl rfl rfl, id⟩
  | testEmpty | testConfigured =>
    refine ⟨.same rfl rfl rfl rfl, ?_⟩
    split <;> exact id
  | testInProgress =>
    have hbusy : p.shared.device.measurementInProgress ≠ 0 := hmeets
    refine ⟨.same rfl rfl rfl rfl, ?_⟩
    rw [if_pos hbusy]
    exact id
  | initiating | initiated | refused => exact absurd trivial hreads
  | unlock | copySecond | unlockAgain | copyToUser => exact ⟨.same rfl rfl rfl rfl, id⟩

theorem irqHandler_flag {s s' : Shared} {irq irq' : Irq} (h : irqHandler irq s = some (s', irq')) :
    FlagStep s (.irq irq) s' (.irq irq') := by
  cases irqHandler_cases h with
  | _ => exact .same rfl rfl rfl rfl

theorem threadStep_flag {env : KernelEnv} {p : Pool Shared Thread} {s' : Shared} {t t' : Thread}
    (hmeets : StartsTruly p t) (hreads : ¬ t.Initiates)
    (h : threadStep env t p.shared = some (s', t')) :
    FlagStep p.shared t s' t' ∧ ¬ t'.Initiates := by
  cases threadStep_cases h with
  | read hstep => exact hcsr04Read_flag hmeets hreads hstep
  | write hstep => exact ⟨hcsr04Write_flag hmeets hstep, id⟩
  | measure hstep => exact ⟨hcsr04ThreadWrite_flag hstep, id⟩
  | irq hstep => exact ⟨irqHandler_flag hstep, id⟩

/-! ## Runs -/

theorem Thread.raised_eq_zero {t : Thread} (h : t.Sets = true) : t.raised = 0 := by
  unfold Thread.Sets at h
  split at h
  · rfl
  · cases h

theorem Thread.raised_le_tested (t : Thread) : t.raised ≤ t.tested := by
  unfold Thread.tested
  split
  next hsets => simp [Thread.raised_eq_zero hsets]
  next => exact Nat.le_refl _

theorem FlagInv.step {p : Pool Shared Thread} (h : FlagInv p) {i : Nat} {t t' : Thread}
    {s' : Shared} (ht : p.threads[i]? = some t) (hmeets : StartsTruly p t)
    (hstep : FlagStep p.shared t s' t') (hreads : ¬ t'.Initiates) :
    FlagInv ⟨s', p.threads.set i t'⟩ := by
  have htested := total_set Thread.tested ht t'
  have hraised := total_set Thread.raised ht t'
  have hle : total Thread.raised (p.threads.set i t') ≤ total Thread.tested (p.threads.set i t') :=
    total_le_total fun u _ => u.raised_le_tested
  have hone := h.one
  have hflag := h.flag
  have hmem : ∀ u ∈ p.threads.set i t', ¬ u.Initiates := by
    intro u hu
    rcases List.mem_or_eq_of_mem_set hu with hu | rfl
    · exact h.reads u hu
    · exact hreads
  cases hstep with
  | same hflag' hcreated hsets hsame =>
    have hsame' : t'.tested = t.tested := by rw [Thread.tested, Thread.tested, hsets, hsame]
    refine ⟨?_, ?_, hmem⟩
    · dsimp only
      omega
    · dsimp only
      rw [hflag', hflag, hcreated, show total Thread.raised (p.threads.set i t') =
        total Thread.raised p.threads by omega]
  | test hwrite hclear hs hsets hzero =>
    subst hs
    obtain ⟨bufferOperation, created, rfl⟩ := hwrite
    -- no measurement is started, and no other write has found the flag clear
    have hnone : p.shared.created + total Thread.raised p.threads = 0 := by
      by_contra hsome
      rw [if_neg hsome, hclear] at hflag
      cases hflag
    have hsame : total Thread.tested p.threads = total Thread.raised p.threads := by
      apply total_congr
      intro u hu
      rw [Thread.tested, hmeets hclear u hu]
      rfl
    have hold : Thread.raised (.write ⟨bufferOperation, created, .testInProgress⟩) = 0 := rfl
    have hnew : t'.tested = 1 := by rw [Thread.tested, if_pos hsets]
    refine ⟨?_, ?_, hmem⟩
    · dsimp only
      omega
    · dsimp only
      rw [hclear, if_pos (by omega)]
  | set hflag' hcreated hsets hsets' hzero hone' =>
    have hold : t.tested = 1 := by rw [Thread.tested, if_pos hsets]
    have hnew : t'.tested = 1 := by rw [Thread.tested, hsets', hone']; rfl
    refine ⟨?_, ?_, hmem⟩
    · dsimp only
      omega
    · dsimp only
      rw [hflag', if_neg (by omega)]
  | create hflag' hcreated hsets hsets' hone' hzero =>
    have hold : t.tested = 1 := by rw [Thread.tested, hsets, hone']; rfl
    have hnew : t'.tested = 0 := by rw [Thread.tested, hsets', hzero]; rfl
    refine ⟨?_, ?_, hmem⟩
    · dsimp only
      omega
    · dsimp only
      have hcount := weight_le_total Thread.raised (List.mem_of_getElem? ht)
      rw [hflag', hflag, if_neg (by omega), if_neg (by omega)]
  | clear hflag' hcreated hsets hsets' hone' hzero =>
    have hold : t.tested = 1 := by rw [Thread.tested, hsets, hone']; rfl
    have hnew : t'.tested = 0 := by rw [Thread.tested, hsets', hzero]; rfl
    have hcount := weight_le_total Thread.tested (List.mem_of_getElem? ht)
    refine ⟨?_, ?_, hmem⟩
    · dsimp only
      omega
    · dsimp only
      rw [hflag', if_pos (by omega)]

/-- A thread that starts counts for a thread created, or for none. -/
theorem threadStart_flag {s s' : Shared} {t : Thread} (h : threadStart t s = some s') :
    s'.device = s.device ∧ t.Sets = false ∧ ¬ t.Initiates ∧
      s'.created + t.raised = s.created := by
  cases threadStart_cases h with
  | measure hcreated =>
    exact ⟨rfl, rfl, id, Nat.sub_add_cancel (Nat.pos_of_ne_zero hcreated)⟩
  | _ => exact ⟨rfl, rfl, id, rfl⟩

theorem FlagInv.start {p : Pool Shared Thread} (h : FlagInv p) {t : Thread} {s' : Shared}
    (hstart : threadStart t p.shared = some s') : FlagInv ⟨s', p.threads ++ [t]⟩ := by
  obtain ⟨hdevice, hsets, hreads, hcreated⟩ := threadStart_flag hstart
  have htested : t.tested = t.raised := by rw [Thread.tested, hsets]; rfl
  have hone := h.one
  have hflag := h.flag
  refine ⟨?_, ?_, ?_⟩
  · simp only [total_append, total_cons, total_nil]
    omega
  · simp only [total_append, total_cons, total_nil, hdevice, hflag]
    rw [show s'.created + (total Thread.raised p.threads + (t.raised + 0)) =
      p.shared.created + total Thread.raised p.threads by omega]
  · intro u hu
    rcases List.mem_append.mp hu with hu | hu
    · exact h.reads u hu
    · obtain rfl := List.mem_singleton.mp hu
      exact hreads

theorem Thread.raised_eq {t : Thread} (h : t.BetweenCalls) :
    t.raised = t.pending + t.Stored.toNat := by
  unfold Thread.raised
  split
  · exact h.elim
  · exact h.elim
  · rfl
  next hstored =>
    have hnot : t.Stored = false := by
      unfold Thread.Stored
      split
      · exact (hstored _ _ rfl).elim
      · rfl
    rw [hnot]
    rfl

/-- With no call in the middle, the threads the flag counts are the measurements and those that
have stored their sample and not cleared it. -/
theorem raised_eq_of_atRest {p : Pool Shared Thread} (hrest : CallsAtRest p) :
    total Thread.raised p.threads =
      total Thread.pending p.threads + total (fun t => t.Stored.toNat) p.threads := by
  rw [← total_add]
  exact total_congr fun t ht => Thread.raised_eq (hrest t ht)

theorem FlagInv.busyFlagTrue_iff {p : Pool Shared Thread} (h : FlagInv p) :
    (BusyFlagTrue p ↔ (CallsAtRest p → ∀ t ∈ p.threads, t.Stored = false)) ∧
      (CallsAtRest p → outstanding p ≤ 1) := by
  have hle : total Thread.raised p.threads ≤ total Thread.tested p.threads :=
    total_le_total fun t _ => t.raised_le_tested
  have hone := h.one
  have hflag := h.flag
  have hstored : (∀ t ∈ p.threads, t.Stored = false) ↔
      total (fun t => t.Stored.toNat) p.threads = 0 := by
    simp [total_eq_zero_iff]
  refine ⟨forall_congr' fun hrest => ?_, fun hrest => ?_⟩
  · have hraised := raised_eq_of_atRest hrest
    have hset : p.shared.device.measurementInProgress = 1 ↔
        0 < p.shared.created + total Thread.raised p.threads := by
      rw [hflag]
      split <;> simp <;> omega
    rw [hset, hstored, outstanding]
    omega
  · have hraised := raised_eq_of_atRest hrest
    rw [outstanding]
    omega

/-- Along every run whose steps meet the condition, the flag tells whether a measurement is
outstanding in every state but those in which a thread has stored its sample and not cleared the
flag. At most one measurement is outstanding in any case. -/
theorem busyFlag_true (env : KernelEnv) {device : Hcsr04Device}
    (hclear : device.measurementInProgress = 0) {p : Pool Shared Thread}
    {moves : List (PoolMove Thread)} {os : List Unit}
    (hmeets : Along (deviceMove env) StepStartsTruly (idle device) moves)
    (hrun : run (deviceMove env) (idle device) moves = some (p, os)) :
    (BusyFlagTrue p ↔ (CallsAtRest p → ∀ t ∈ p.threads, t.Stored = false)) ∧
      (CallsAtRest p → outstanding p ≤ 1) := by
  have hidle : FlagInv (idle device) := ⟨Nat.zero_le 1, hclear, by simp [idle]⟩
  refine FlagInv.busyFlagTrue_iff (run_pool_inv FlagInv ?_ ?_ hidle hmeets hrun)
  · intro p i t s' t' h hok ht hstep
    have hmeets := hok t ht
    obtain ⟨hflag, hreads⟩ :=
      threadStep_flag hmeets (h.reads t (List.mem_of_getElem? ht)) hstep
    exact h.step ht hmeets hflag hreads
  · exact fun p t s' h hstart => h.start hstart

/-- A write, its measurement and another write while the measurement is at work. -/
theorem busyFlag_true_two_writes :
    ∃ p os, run (deviceMove grantAll) (idle configuredDevice)
        (startMeasurement 0 ++ .start (.measure ⟨7, .lock⟩) :: stepsOf 1 3 ++
          .start (.write ⟨0, true, .testConfigured⟩) :: stepsOf 2 3) = some (p, os) ∧
      outstanding p = 1 ∧ BusyFlagTrue p := by
  have hone : ((run (deviceMove grantAll) (idle configuredDevice)
      (startMeasurement 0 ++ .start (.measure ⟨7, .lock⟩) :: stepsOf 1 3 ++
        .start (.write ⟨0, true, .testConfigured⟩) :: stepsOf 2 3)).map fun r =>
          (outstanding r.1, r.1.threads.any Thread.Stored)) = some (1, false) := by decide
  obtain ⟨⟨p, os⟩, hrun, hp⟩ := Option.map_eq_some_iff.mp hone
  obtain ⟨houtstanding, hstored⟩ := Prod.mk.inj hp
  refine ⟨p, os, hrun, houtstanding, ?_⟩
  exact (busyFlag_true grantAll (by decide) (by decide) hrun).1.mpr fun _ t ht =>
    by simpa using List.any_eq_false.mp hstored t ht

/-- A read of an empty buffer starts a measurement and leaves the flag clear. -/
theorem not_busyFlag_true :
    ¬ ∀ (env : KernelEnv) (blank : Int32 → Hcsr04Device) (minorLeft : Int32 → Int32)
      (ops : List MiscOp) (minor : Int32) (moves : List (PoolMove Thread))
      (p : Pool Shared Thread) (os : List Unit),
      run (deviceMove env) (idle ((afterOps (hcsr04Init blank minorLeft) ops).device minor)) moves =
        some (p, os) → BusyFlagTrue p := by
  intro hall
  have hread : ((run (deviceMove grantAll) (idle configuredDevice) (startRead 0 10)).map fun r =>
      (r.1.threads, r.1.shared.device.measurementInProgress, outstanding r.1)) =
      some ([.read ⟨true, wholeCopies, noSample, [], .returned EINVAL⟩], 0, 1) := by decide
  obtain ⟨⟨p, os⟩, hrun, hp⟩ := Option.map_eq_some_iff.mp hread
  obtain ⟨hthreads, hflag, hone⟩ : p.threads = _ ∧ _ ∧ _ := by simpa using hp
  have htrue := hall _ _ _ _ _ _ p os hrun (by simp [CallsAtRest, hthreads, Thread.BetweenCalls])
  rw [hflag, hone] at htrue
  exact absurd (htrue.1.mpr Nat.one_pos) (by decide)

end KernelDrivers.Hcsr04
