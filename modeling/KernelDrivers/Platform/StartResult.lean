import KernelDrivers.Platform.CallsAlone

/-!
# What a call tells of the measurement it starts

`initiate_measurement` returns 0 when it has created the thread, and its callers read 0 as a
failure. So a started measurement is reported as an error, and a failed creation as a success.
The failure also keeps the lock, the flag stays set where the caller has set it, and a read waits
for its own lock.
-/

namespace KernelDrivers.Platform
open Lib Hcsr04

/-- Configured, no measurement in progress and the lock free. -/
structure Idle (s : Shared) : Prop where
  configured : Configured s.device
  inProgress : s.device.measurementInProgress = 0
  free : s.device.bufferLock = false

/-- The calls of the two drivers that start a measurement. -/
inductive Entry where
  | miscWrite (operand : Int32)
  | miscRead (copied : CopiedBytes) (userBuf : FifoBuffer)
  | platformWrite (operand : Int32)
  | platformRead (copied : CopiedBytes) (userBuf : FifoBuffer)
  /-- `count` characters that read as 1, written to the attribute -/
  | enable (count : Int32)

namespace Entry

/-- A read starts a measurement when the buffer is empty. -/
def Meets (s : Shared) : Entry → Prop
  | .miscRead _ _ | .platformRead _ _ => EmptyBuffer s.device
  | _ => True

theorem meets_miscWrite (s : Shared) (operand : Int32) : Meets s (.miscWrite operand) := trivial

theorem meets_enable (s : Shared) (count : Int32) : Meets s (.enable count) := trivial

/-- The call, made in `s`, returns `ret` and leaves `s'`. -/
def Returns (env : KernelEnv) (created : Bool) (s s' : Shared) (ret : Int32) : Entry → Prop
  | .miscWrite operand =>
    Completes (Hcsr04.threadStep env) Hcsr04.threadStart ⟨s, []⟩
      (.write ⟨operand, created, .testConfigured⟩) s' (.write ⟨operand, created, .returned ret⟩)
  | .miscRead copied userBuf =>
    ∃ userBuf' removed, Completes (Hcsr04.threadStep env) Hcsr04.threadStart ⟨s, []⟩
      (.read ⟨created, copied, userBuf, [], .lock⟩) s'
      (.read ⟨created, copied, userBuf', removed, .returned ret⟩)
  | .platformWrite operand =>
    Completes (threadStep env) threadStart ⟨s, []⟩
      (.write ⟨operand, created, .testConfigured⟩) s' (.write ⟨operand, created, .returned ret⟩)
  | .platformRead copied userBuf =>
    ∃ userBuf' removed, Completes (threadStep env) threadStart ⟨s, []⟩
      (.read ⟨created, copied, userBuf, [], .lock⟩) s'
      (.read ⟨created, copied, userBuf', removed, .returned ret⟩)
  | .enable count =>
    Completes (threadStep env) threadStart ⟨s, []⟩
      (.enable ⟨some 1, count, created, .testEnable⟩) s'
      (.enable ⟨some 1, count, created, .returned ret⟩)

/-! ## Where the calls end -/

/-- What an idle device is left in. -/
def after (created : Bool) (s : Shared) : Entry → Shared
  | .miscWrite operand => afterStart created (miscCleared operand s)
  | .platformWrite operand => afterStart created (platformCleared operand s)
  | .enable _ => afterStart created s
  | .miscRead _ _ | .platformRead _ _ => afterInitiate created s

/-- What is returned, unless the call waits without an end. -/
def result (created : Bool) : Entry → Option Int32
  | .miscWrite _ | .platformWrite _ => some (if created then EINVAL else SUCCESS)
  | .enable count => some (if created then EINVAL else count)
  | .miscRead _ _ | .platformRead _ _ => if created then some EINVAL else none

end Entry

section Returns

variable {env : KernelEnv} {created : Bool} {s s' : Shared} {ret : Int32}

/-- A call whose end is known. -/
theorem completes_iff_of_end {κ τ : Type} {step : κ → Shared → Option (Shared × κ)}
    {poolStep : τ → Shared → Option (Shared × τ)} {start : τ → Shared → Option Shared}
    (thread : κ → τ)
    (hthread : ∀ call s, poolStep (thread call) s =
      (step call s).map fun (s', call') => (s', thread call'))
    (hinj : Function.Injective thread) {call call' last : κ} {t : Shared}
    (hstart : start (thread call) s = some s) (halone : Alone step (s, call) (t, last))
    (hlast : step last t = none) (hend : step call' s' = none) :
    Completes poolStep start ⟨s, []⟩ (thread call) s' (thread call') ↔ s' = t ∧ call' = last := by
  rw [completes_iff hthread hinj hstart]
  constructor
  · exact fun h => Prod.mk.inj (h.end_unique hend halone hlast)
  · rintro ⟨rfl, rfl⟩
    exact halone

/-- A read of either driver. -/
theorem read_returns_iff {τ : Type} {poolStep : τ → Shared → Option (Shared × τ)}
    {start : τ → Shared → Option Shared} (thread : ReadCall → τ)
    (hthread : ∀ call s, poolStep (thread call) s =
      (hcsr04Read call s).map fun (s', call') => (s', thread call'))
    (hinj : Function.Injective thread) {copied : CopiedBytes} {userBuf : FifoBuffer}
    (hstart : start (thread ⟨created, copied, userBuf, [], .lock⟩) s = some s) (hidle : Idle s)
    (hempty : EmptyBuffer s.device) :
    (∃ userBuf' removed, Completes poolStep start ⟨s, []⟩
      (thread ⟨created, copied, userBuf, [], .lock⟩) s'
      (thread ⟨created, copied, userBuf', removed, .returned ret⟩)) ↔
      s' = afterInitiate created s ∧ (if created then some EINVAL else none) = some ret := by
  cases created with
  | true =>
    have hend := read_created copied userBuf hidle.configured hidle.inProgress hidle.free hempty
    have hiff : ∀ userBuf' removed, Completes poolStep start ⟨s, []⟩
        (thread ⟨true, copied, userBuf, [], .lock⟩) s'
        (thread ⟨true, copied, userBuf', removed, .returned ret⟩) ↔
        s' = afterInitiate true s ∧
          (⟨true, copied, userBuf', removed, .returned ret⟩ : ReadCall) =
            ⟨true, copied, userBuf, [], .returned EINVAL⟩ :=
      fun _ _ => completes_iff_of_end thread hthread hinj hstart hend rfl rfl
    simp only [hiff, ReadCall.mk.injEq, true_and, ReadPc.returned.injEq, if_true,
      Option.some.injEq]
    constructor
    · rintro ⟨_, _, hs', -, -, hret⟩
      exact ⟨hs', hret.symm⟩
    · rintro ⟨hs', hret⟩
      exact ⟨userBuf, [], hs', rfl, rfl, hret.symm⟩
  | false =>
    obtain ⟨hend, hwaits⟩ :=
      read_refused copied userBuf hidle.configured hidle.inProgress hidle.free hempty
    refine iff_of_false ?_ (by simp)
    rintro ⟨userBuf', removed, h⟩
    have hsame := ((completes_iff_of_end thread hthread hinj hstart hend hwaits rfl).mp h).2
    simp at hsame

/-- Every call made on an idle device, in one statement. -/
theorem returns_iff (hidle : Idle s) {entry : Entry} (hmeets : entry.Meets s) :
    entry.Returns env created s s' ret ↔
      s' = entry.after created s ∧ entry.result created = some ret := by
  cases entry with
  | miscWrite operand =>
    have hend := miscWrite_idle operand created hidle.configured hidle.inProgress hidle.free
    refine (completes_iff_of_end Hcsr04.Thread.write (fun _ _ => rfl)
      (fun _ _ heq => Hcsr04.Thread.write.inj heq) rfl hend rfl rfl).trans (and_congr_right' ?_)
    simp [Entry.result, eq_comm]
  | platformWrite operand =>
    have hend := platformWrite_idle operand created hidle.configured hidle.inProgress hidle.free
    refine (completes_iff_of_end Thread.write (fun _ _ => rfl)
      (fun _ _ heq => Thread.write.inj heq) rfl hend rfl rfl).trans (and_congr_right' ?_)
    simp [Entry.result, eq_comm]
  | enable count =>
    have hend := enable_idle count created hidle.inProgress hidle.free
    refine (completes_iff_of_end Thread.enable (fun _ _ => rfl)
      (fun _ _ heq => Thread.enable.inj heq) rfl hend rfl rfl).trans (and_congr_right' ?_)
    simp [Entry.result, eq_comm]
  | miscRead copied userBuf =>
    exact read_returns_iff Hcsr04.Thread.read (fun _ _ => rfl)
      (fun _ _ heq => Hcsr04.Thread.read.inj heq) rfl hidle hmeets
  | platformRead copied userBuf =>
    exact read_returns_iff Thread.read (fun _ _ => rfl)
      (fun _ _ heq => Thread.read.inj heq) rfl hidle hmeets

theorem created_after (entry : Entry) (created : Bool) (s : Shared) :
    (entry.after created s).created = if created then s.created + 1 else s.created := by
  cases entry with
  | miscWrite operand => simp [Entry.after, created_afterStart]
  | platformWrite operand => simp [Entry.after, created_afterStart]
  | enable count => exact created_afterStart created s
  | miscRead copied userBuf | platformRead copied userBuf => exact created_afterInitiate created s

theorem bufferLock_after (entry : Entry) (s : Shared) :
    (entry.after false s).device.bufferLock = true := by
  cases entry <;> rfl

/-! ## Whether a measurement began -/

/-- The call returns, with an error exactly when it has created no thread. -/
def TellsStart (env : KernelEnv) (entry : Entry) (created : Bool) (s : Shared) : Prop :=
  ∃ s' ret, entry.Returns env created s s' ret ∧ (ret = EINVAL ↔ s'.created = s.created)

/-- The result of a call says the opposite, unless the number of characters is itself the error. -/
theorem tellsStart_iff (hidle : Idle s) {entry : Entry} (hmeets : entry.Meets s) :
    TellsStart env entry created s ↔ created = false ∧ entry = .enable EINVAL := by
  have hsettled : TellsStart env entry created s ↔
      ∃ ret, entry.result created = some ret ∧ (ret = EINVAL ↔ created = false) := by
    have hcreated : (entry.after created s).created = s.created ↔ created = false := by
      rw [created_after]
      cases created with
      | false => simp
      | true => simp
    simp only [TellsStart, returns_iff hidle hmeets]
    constructor
    · rintro ⟨s', ret, ⟨rfl, hret⟩, htells⟩
      exact ⟨ret, hret, htells.trans hcreated⟩
    · rintro ⟨ret, hret, htells⟩
      exact ⟨_, ret, ⟨rfl, hret⟩, htells.trans hcreated.symm⟩
  rw [hsettled]
  cases created with
  | true => cases entry <;> simp [Entry.result]
  | false =>
    have hne : SUCCESS ≠ EINVAL := by decide
    cases entry with
    | miscWrite operand | platformWrite operand => simp [Entry.result, hne]
    | miscRead copied userBuf | platformRead copied userBuf => simp [Entry.result]
    | enable count => simp [Entry.result]

theorem idle_configuredDevice : Idle (Hcsr04.idle configuredDevice).shared :=
  ⟨⟨by decide, by decide⟩, by decide, by decide⟩

/-- A write of 22 characters to the attribute of an idle device, when no thread can be created. -/
theorem tellsStart_iff_twenty_two :
    TellsStart grantAll (.enable EINVAL) false (Hcsr04.idle configuredDevice).shared :=
  (tellsStart_iff idle_configuredDevice (Entry.meets_enable _ _)).mpr ⟨rfl, rfl⟩

/-- A write to an idle device says whether a measurement began, in every state a configured device
gets to. -/
def WritesTellStart : Prop :=
  ∀ env moves p os, run (Hcsr04.deviceMove env) (Hcsr04.idle configuredDevice) moves =
    some (p, os) → Idle p.shared → ∀ operand created,
    TellsStart env (.miscWrite operand) created p.shared

/-- The first write creates the thread and returns the error. -/
theorem not_writesTellStart : ¬ WritesTellStart := by
  intro h
  obtain ⟨s', ret, hreturns, htells⟩ :=
    h grantAll [] _ _ rfl idle_configuredDevice 0 true
  obtain ⟨rfl, hret⟩ := (returns_iff idle_configuredDevice (Entry.meets_miscWrite _ _)).mp hreturns
  have hstarted : (Hcsr04.idle configuredDevice).shared.created + 1 =
      (Hcsr04.idle configuredDevice).shared.created :=
    htells.mp (Option.some.inj hret).symm
  omega

/-! ## After a failed creation -/

/-- The call returns although no thread is created, and leaves the lock free and the flag 0. -/
def LeavesUsable (env : KernelEnv) (entry : Entry) (s : Shared) : Prop :=
  ∃ s' ret, entry.Returns env false s s' ret ∧ s'.device.bufferLock = false ∧
    s'.device.measurementInProgress = 0

/-- Every call that creates no thread keeps the lock. -/
theorem not_leavesUsable (hidle : Idle s) {entry : Entry} (hmeets : entry.Meets s) :
    ¬ LeavesUsable env entry s := by
  rintro ⟨s', ret, hreturns, hfree, -⟩
  obtain ⟨rfl, -⟩ := (returns_iff hidle hmeets).mp hreturns
  exact absurd (hfree.symm.trans (bufferLock_after entry s)) (by decide)

/-- A write to an idle device. -/
theorem not_leavesUsable_write : ∃ s',
    Entry.Returns grantAll false (Hcsr04.idle configuredDevice).shared s' SUCCESS (.miscWrite 0) ∧
    s'.device.measurementInProgress = 1 ∧
    ¬ LeavesUsable grantAll (.miscWrite 0) (Hcsr04.idle configuredDevice).shared :=
  ⟨_, (returns_iff idle_configuredDevice (Entry.meets_miscWrite _ _)).mpr ⟨rfl, rfl⟩,
    measurementInProgress_afterStart false _,
    not_leavesUsable idle_configuredDevice (Entry.meets_miscWrite _ _)⟩

/-- A write to an idle device whose thread cannot be created leaves it usable, in every state a
configured device gets to. -/
def FailedWritesLeaveUsable : Prop :=
  ∀ env moves p os, run (Hcsr04.deviceMove env) (Hcsr04.idle configuredDevice) moves =
    some (p, os) → Idle p.shared → ∀ operand, LeavesUsable env (.miscWrite operand) p.shared

/-- The lock stays taken after the first write. -/
theorem not_failedWritesLeaveUsable : ¬ FailedWritesLeaveUsable := by
  intro h
  obtain ⟨s', ret, hreturns, hfree, -⟩ := h grantAll [] _ _ rfl idle_configuredDevice 0
  obtain ⟨rfl, -⟩ := (returns_iff idle_configuredDevice (Entry.meets_miscWrite _ _)).mp hreturns
  exact absurd hfree (by decide)

end Returns

end KernelDrivers.Platform
