import KernelDrivers.Mprobe.Driver

/-!
# What the handler finds in `mprobe_output`

A write clears the buffer and then registers a probe, and no other call registers one. So the
handler finds the buffer missing in every run in which a registration succeeds.
-/

namespace KernelDrivers.Mprobe
open Lib

/-- What the handler finds in `mprobe_output` when it dereferences it. -/
inductive Found where
  | null
  | wild
  | buffer
  deriving DecidableEq, Repr

def Ptr.found : Ptr RingBuffer → Found
  | .null => .null
  | .wild => .wild
  | .valid _ => .buffer

/-- A hit of a registered probe. Nothing is promised after an undefined access; the state is
left as it was. -/
def onHit (h : Kprobe × Hit) (s : MprobeState) : Option (MprobeState × Found) :=
  if h.1 ∈ s.registered then
    some (((mprobePreHandler h.1 h.2 s).map (·.1)).getD s, s.mprobeOutput.found)
  else none

abbrev mprobeMove := move Call.body onHit

/-- No hit finds `mprobe_output` null in any run that makes these calls. -/
def HandlerSafe (calls : List Call) : Prop :=
  ∀ moves cfg found, callsOf moves <+: calls →
    run mprobeMove ⟨mprobeDriverInit, none⟩ moves = some (cfg, found) → some .null ∉ found

/-- The write whose allocation and whose `register_kprobe` succeed. -/
def Call.Registers : Call → Prop
  | .writeFile _ _ kpBlock res => kpBlock = true ∧ 0 ≤ res
  | _ => False

/-! ## Calls that register nothing -/

def NothingRegistered (s : MprobeState) : Prop := s.registered = []

/-- A property of the other globals. -/
def IgnoresOutput (I : MprobeState → Prop) : Prop :=
  ∀ s out, I s → I { s with mprobeOutput := out }

theorem keeps_throughOutput {I : MprobeState → Prop} (hI : IgnoresOutput I)
    {f : RingBuffer → RingBuffer} {k : RingBuffer → Body} (hk : ∀ b, (k b).Keeps I) :
    (throughOutput f k).Keeps I := by
  rintro ⟨kp, _ | _ | b, registered, fresh⟩ hs
  · exact ⟨by rintro s' ⟨⟩; exact hs, Code.keeps_ret _ _⟩
  · exact ⟨by rintro s' ⟨⟩; exact hs, Code.keeps_ret _ _⟩
  · exact ⟨by rintro s' ⟨⟩; exact hI _ _ hs, hk b⟩

theorem keeps_read {I : MprobeState → Prop} (hI : IgnoresOutput I) (buf : Slot)
    (copied copiedResult : Nat) : (mprobeDeviceRead buf copied copiedResult).Keeps I := by
  refine Code.keeps_test (Code.keeps_ret _ _) (keeps_throughOutput hI fun b => ?_)
  by_cases hcount : b.count < 1
  · simp [hcount]
  simp only [hcount, if_false]
  refine keeps_throughOutput hI fun b => keeps_throughOutput hI fun b' => ?_
  cases b'.data.target?.bind fun data => data.load b.head.toInt with
  | none => exact Code.keeps_ret _ _
  | some slot =>
    by_cases hcopied : copied < sizeofUserOutput
    · simp [hcopied]
    · simp only [hcopied, if_false]
      exact keeps_throughOutput hI fun _ => Code.keeps_ret _ _

theorem nothingRegistered_ignores : IgnoresOutput NothingRegistered := fun _ _ hs => hs

theorem keeps_clearKp {k : Body} (hk : k.Keeps NothingRegistered) :
    (clearKp k).Keeps NothingRegistered := by
  refine Code.keeps_test (Code.keeps_assign ?_ (Code.keeps_assign (fun s hs => hs) hk)) hk
  intro s hs
  simpa [NothingRegistered] using fun p hp => absurd (hs ▸ hp) List.not_mem_nil

theorem keeps_clearOutputAndKp {k : Body} (hk : k.Keeps NothingRegistered) :
    (clearOutputAndKp k).Keeps NothingRegistered := by
  refine Code.keeps_test ?_ (keeps_clearKp hk)
  refine keeps_throughOutput nothingRegistered_ignores fun _ => ?_
  refine Code.keeps_assign (fun s hs => hs) ?_
  exact Code.keeps_assign (fun s hs => hs) (keeps_clearKp hk)

theorem keeps_open (outputBlock : Option RingBuffer) (dataBlock : Option (CArray 10 Slot)) :
    (mprobeDeviceOpen outputBlock dataBlock).Keeps NothingRegistered := by
  refine Code.keeps_assign (fun s hs => hs) ?_
  refine Code.keeps_assign (fun s hs => hs) ?_
  refine Code.keeps_assign (fun s hs => hs) ?_
  refine Code.keeps_test (Code.keeps_ret _ _) ?_
  have hI := nothingRegistered_ignores
  refine keeps_throughOutput hI fun _ => keeps_throughOutput hI fun b => ?_
  by_cases h : b.data.isNull = true
  · simp [h]
  · rw [if_neg h]
    iterate 4 refine keeps_throughOutput hI fun _ => ?_
    exact Code.keeps_ret _ _

theorem keeps_write {lookup funcOffset : UInt32} {kpBlock : Bool} {res : Int32}
    (h : ¬ (Call.writeFile lookup funcOffset kpBlock res).Registers) :
    (mprobeDeviceWrite lookup funcOffset kpBlock res).Keeps NothingRegistered := by
  refine keeps_clearOutputAndKp (Code.keeps_assign ?_ ?_)
  · intro s hs
    cases kpBlock <;> exact hs
  · cases kpBlock with
    | false => exact Code.keeps_ret _ _
    | true =>
      have hres : res < 0 := by simpa [Call.Registers] using h
      refine Code.keeps_assign (fun s hs => hs) (Code.keeps_assign ?_ (Code.keeps_ret _ _))
      intro s hs
      simpa [hres] using hs

/-- A call that registers no probe leaves none registered. -/
theorem Call.keeps_of_not_registers {c : Call} (h : ¬ c.Registers) :
    c.body.Keeps NothingRegistered := by
  cases c with
  | openFile outputBlock dataBlock => exact keeps_open outputBlock dataBlock
  | readFile buf copied copiedResult =>
    exact keeps_read nothingRegistered_ignores buf copied copiedResult
  | writeFile lookup funcOffset kpBlock res => exact keeps_write h
  | ioctl => exact keeps_clearOutputAndKp (Code.keeps_ret _ _)
  | releaseFile => exact keeps_clearOutputAndKp (Code.keeps_ret _ _)

/-! ## The write that registers -/

/-- Between two calls the pointer is null or valid. -/
def NotWild (s : MprobeState) : Prop := s.mprobeOutput.found ≠ .wild

/-- What the clearing blocks leave. -/
def cleared (s : MprobeState) : MprobeState :=
  { s with
    kp := none
    mprobeOutput := .null
    registered := s.registered.filter fun p => s.kp ≠ some p }

theorem exec_clearKp (k : Body) (s : MprobeState) :
    (clearKp k).exec s = k.exec { s with
      kp := none, registered := s.registered.filter fun p => s.kp ≠ some p } := by
  obtain ⟨_ | p, output, registered, fresh⟩ := s
  · simp [clearKp]
  · simp [clearKp]

theorem exec_clearOutputAndKp (k : Body) {s : MprobeState} (hs : NotWild s) :
    (clearOutputAndKp k).exec s = k.exec (cleared s) := by
  obtain ⟨kp, _ | _ | b, registered, fresh⟩ := s
  · simp [clearOutputAndKp, Ptr.isNull, exec_clearKp, cleared]
  · exact absurd rfl hs
  · simp [clearOutputAndKp, Ptr.isNull, setOutput, exec_throughOutput, exec_clearKp, cleared]

/-- What a write leaves that gets its probe registered. -/
def afterWrite (addr : UInt32) (s : MprobeState) : MprobeState :=
  { cleared s with
    kp := some ⟨s.fresh, addr⟩
    registered := ⟨s.fresh, addr⟩ :: (cleared s).registered
    fresh := s.fresh + 1 }

theorem exec_write (lookup funcOffset : UInt32) {res : Int32} (hres : 0 ≤ res)
    {s : MprobeState} (hs : NotWild s) : (mprobeDeviceWrite lookup funcOffset true res).exec s =
      some (afterWrite (lookup + funcOffset) s, .returned 0) := by
  have hneg : ¬ res < 0 := Int32.not_lt.mpr hres
  simp [mprobeDeviceWrite, exec_clearOutputAndKp _ hs, hneg, cleared, afterWrite]

theorem ends_throughOutput {f : RingBuffer → RingBuffer} {k : RingBuffer → Body}
    (hk : ∀ b, (k b).Ends NotWild) : (throughOutput f k).Ends NotWild := by
  intro s hs
  rw [exec_throughOutput]
  cases hout : s.mprobeOutput with
  | null => exact ⟨s, _, rfl, hs⟩
  | wild => exact ⟨s, _, rfl, hs⟩
  | valid b => exact hk b _ nofun

theorem ends_clearOutputAndKp {k : Body} (hk : k.Ends NotWild) :
    (clearOutputAndKp k).Ends NotWild := by
  intro s hs
  rw [exec_clearOutputAndKp k hs]
  exact hk _ nofun

theorem ends_open (outputBlock : Option RingBuffer) (dataBlock : Option (CArray 10 Slot)) :
    (mprobeDeviceOpen outputBlock dataBlock).Ends NotWild := by
  refine Code.ends_assign (fun s hs => hs) ?_
  refine Code.ends_assign (fun s _ => nofun) ?_
  refine Code.ends_assign (fun s _ => by cases outputBlock <;> nofun) ?_
  refine Code.ends_test (Code.ends_ret _ _) ?_
  refine ends_throughOutput fun _ => ends_throughOutput fun b => ?_
  by_cases h : b.data.isNull = true
  · rw [if_pos h]
    exact Code.ends_ret _ _
  · rw [if_neg h]
    iterate 4 refine ends_throughOutput fun _ => ?_
    exact Code.ends_ret _ _

theorem ends_read (buf : Slot) (copied copiedResult : Nat) :
    (mprobeDeviceRead buf copied copiedResult).Ends NotWild := by
  refine Code.ends_test (Code.ends_ret _ _) (ends_throughOutput fun b => ?_)
  by_cases hcount : b.count < 1
  · rw [if_pos hcount]
    exact Code.ends_ret _ _
  rw [if_neg hcount]
  refine ends_throughOutput fun b => ends_throughOutput fun b' => ?_
  cases b'.data.target?.bind fun data => data.load b.head.toInt with
  | none => exact Code.ends_ret _ _
  | some slot =>
    by_cases hcopied : copied < sizeofUserOutput
    · simpa [hcopied] using Code.ends_ret _ _
    · simp only [hcopied, if_false]
      exact ends_throughOutput fun _ => Code.ends_ret _ _

theorem ends_write (lookup funcOffset : UInt32) (kpBlock : Bool) (res : Int32) :
    (mprobeDeviceWrite lookup funcOffset kpBlock res).Ends NotWild := by
  refine ends_clearOutputAndKp (Code.ends_assign (fun s hs => by cases kpBlock <;> exact hs) ?_)
  cases kpBlock with
  | false => exact Code.ends_ret _ _
  | true =>
    refine Code.ends_assign (fun s hs => hs) (Code.ends_assign ?_ (Code.ends_ret _ _))
    intro s hs
    by_cases hres : res < 0 <;> simpa [hres, NotWild] using hs

/-- Every call ends, and leaves the pointer null or valid. -/
theorem Call.ends (c : Call) : c.body.Ends NotWild := by
  cases c with
  | openFile outputBlock dataBlock => exact ends_open outputBlock dataBlock
  | readFile buf copied copiedResult => exact ends_read buf copied copiedResult
  | writeFile lookup funcOffset kpBlock res => exact ends_write lookup funcOffset kpBlock res
  | ioctl => exact ends_clearOutputAndKp (Code.ends_ret _ _)
  | releaseFile => exact ends_clearOutputAndKp (Code.ends_ret _ _)

/-- A hit that finds no buffer. -/
theorem hit_finds_null {s : MprobeState} {p : Kprobe} (hp : p ∈ s.registered)
    (hout : s.mprobeOutput = .null) (hit : Hit) (current : Option Body) :
    mprobeMove ⟨s, current⟩ (.interrupt (p, hit)) = some (⟨s, current⟩, some .null) := by
  refine (move_interrupt Call.body onHit _ _).trans ?_
  simp [onHit, hp, mprobePreHandler, hout, Ptr.target?, Ptr.found]

/-- After any calls, a write that registers lets a hit find no buffer before it returns. -/
theorem not_handlerSafe_of_registers (before : List Call) {c : Call} (after : List Call)
    (h : c.Registers) : ¬ HandlerSafe (before ++ c :: after) := by
  cases c with
  | writeFile lookup funcOffset kpBlock res =>
    obtain ⟨rfl, hres⟩ := h
    intro hsafe
    obtain ⟨moves, s, os, hcalls, hs, hrun⟩ :=
      run_calls Call.body onHit before (fun c _ => c.ends) (s := mprobeDriverInit) nofun
    obtain ⟨steps, os', hsteps, hwrite⟩ :=
      (Code.Steps.of_exec (exec_write lookup funcOffset hres hs)).run Call.body onHit
    have hhit := hit_finds_null (s := afterWrite (lookup + funcOffset) s) List.mem_cons_self rfl
      ⟨0, 0, 0⟩ (some (.ret (.returned 0)))
    -- the calls before, the write up to its return, and a hit
    have hall := run_trans _ hrun (run_trans _
      (run_singleton _ (i := .call (.writeFile lookup funcOffset true res)) rfl)
      (run_trans _ hwrite (run_singleton _ hhit)))
    refine hsafe _ _ _ ?_ hall (by simp)
    simp [hcalls, hsteps]
  | _ => exact h.elim

/-- The handler always finds the buffer exactly when no write gets a probe registered. -/
theorem handlerSafe_iff (calls : List Call) :
    HandlerSafe calls ↔ ∀ c ∈ calls, ¬ c.Registers := by
  constructor
  · rintro hsafe c hc hreg
    obtain ⟨before, after, rfl⟩ := List.append_of_mem hc
    exact not_handlerSafe_of_registers before after hreg hsafe
  · intro hnone moves cfg found hcalls hrun hnull
    have hhandler : ∀ h s s' o, NothingRegistered s → onHit h s = some (s', o) →
        NothingRegistered s' ∧ o ≠ .null := by
      intro h s s' o hs hhit
      simp [onHit, NothingRegistered.eq_1 s ▸ hs] at hhit
    have hkept := run_move_keeps hhandler
      (fun c hc => Call.keeps_of_not_registers (hnone c (hcalls.subset hc)))
      (⟨rfl, nofun⟩ : Config.Keeps NothingRegistered ⟨mprobeDriverInit, none⟩) hrun
    exact hkept.2 .null hnull rfl

/-- The device is opened, a probe is registered, and it is hit before the write returns. -/
theorem not_handlerSafe_open_write : ¬ HandlerSafe
    [.openFile (some ⟨.null, 0, 0, 0, 0⟩) (some fun _ _ => 0), .writeFile 0xc1000000 4 true 0] :=
  not_handlerSafe_of_registers [_] [] ⟨rfl, by decide⟩

end KernelDrivers.Mprobe
