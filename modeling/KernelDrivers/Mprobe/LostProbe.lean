import KernelDrivers.Lib.Rely
import KernelDrivers.Mprobe.HandlerSafety

/-!
# The probes that record

A write frees the ring buffer before it registers its probe, and only an open makes a new one,
which forgets the probe. So a hit finds a buffer only when `kp` points to no probe, and the probes
registered then, whose hits are recorded and read, are never unregistered.
-/

namespace KernelDrivers.Mprobe
open Lib

/-! ## What a hit leaves alone -/

/-- A hit changes the contents of the buffer and nothing else. -/
structure HitStep (s s' : MprobeState) : Prop where
  kp : s'.kp = s.kp
  found : s'.mprobeOutput.found = s.mprobeOutput.found
  registered : s'.registered = s.registered
  fresh : s'.fresh = s.fresh

theorem hitStep_refl (s : MprobeState) : HitStep s s := ⟨rfl, rfl, rfl, rfl⟩

theorem hitStep_trans (s t u : MprobeState) (h : HitStep s t) (h' : HitStep t u) : HitStep s u :=
  ⟨h'.kp.trans h.kp, h'.found.trans h.found, h'.registered.trans h.registered,
    h'.fresh.trans h.fresh⟩

theorem hitStep_onHit (h : Kprobe × Hit) (s s' : MprobeState) (o : Found)
    (hhit : onHit h s = some (s', o)) : HitStep s s' := by
  unfold onHit at hhit
  split at hhit
  next =>
    obtain ⟨rfl, -⟩ := Prod.mk.inj (Option.some.inj hhit)
    cases hhandler : mprobePreHandler h.1 h.2 s with
    | none => exact hitStep_refl s
    | some r =>
      obtain ⟨b, hb, hstore⟩ := Option.bind_eq_some_iff.mp hhandler
      obtain ⟨b', -, rfl⟩ := Option.map_eq_some_iff.mp hstore
      have hvalid : s.mprobeOutput = .valid b := by
        cases hout : s.mprobeOutput with
        | null | wild => rw [hout] at hb; cases hb
        | valid b' => rw [hout] at hb; cases hb; rfl
      exact ⟨rfl, by rw [hvalid]; rfl, rfl, rfl⟩
  next => cases hhit

/-! ## What the statements keep -/

/-- A property that does not look into the buffer. -/
def IgnoresContents (I : MprobeState → Prop) : Prop :=
  ∀ s b b', s.mprobeOutput = .valid b → I s → I { s with mprobeOutput := .valid b' }

theorem always_throughOutput {I : MprobeState → Prop} (hI : IgnoresContents I)
    {f : RingBuffer → RingBuffer} {k : RingBuffer → Body} (hk : ∀ b, (k b).AlwaysKeeps I) :
    (throughOutput f k).AlwaysKeeps I := by
  refine ⟨?_, ?_⟩
  · rintro ⟨kp, _ | _ | b, registered, fresh⟩ s' hs ⟨⟩
    · exact hs
    · exact hs
    · exact hI _ b (f b) rfl hs
  · rintro ⟨kp, _ | _ | b, registered, fresh⟩
    · exact Code.alwaysKeeps_ret _ _
    · exact Code.alwaysKeeps_ret _ _
    · exact hk b

theorem always_read {I : MprobeState → Prop} (hI : IgnoresContents I) (buf : Slot)
    (copied copiedResult : Nat) : (mprobeDeviceRead buf copied copiedResult).AlwaysKeeps I := by
  refine Code.alwaysKeeps_test (Code.alwaysKeeps_ret _ _) (always_throughOutput hI fun b => ?_)
  by_cases hcount : b.count < 1
  · rw [if_pos hcount]
    exact Code.alwaysKeeps_ret _ _
  rw [if_neg hcount]
  refine always_throughOutput hI fun b => always_throughOutput hI fun b' => ?_
  cases b'.data.target?.bind fun data => data.load b.head.toInt with
  | none => exact Code.alwaysKeeps_ret _ _
  | some slot =>
    by_cases hcopied : copied < sizeofUserOutput
    · simpa only [hcopied, if_true] using Code.alwaysKeeps_ret _ _
    · simp only [hcopied, if_false]
      exact always_throughOutput hI fun _ => Code.alwaysKeeps_ret _ _

theorem ignoresContents_of_output {I : MprobeState → Prop}
    (houtput : ∀ s output, I s → I { s with mprobeOutput := output }) : IgnoresContents I :=
  fun s _ b' _ hs => houtput s (.valid b') hs

theorem always_open {I : MprobeState → Prop} (hforget : ∀ s, I s → I { s with kp := none })
    (houtput : ∀ s output, I s → I { s with mprobeOutput := output })
    (outputBlock : Option RingBuffer) (dataBlock : Option (CArray 10 Slot)) :
    (mprobeDeviceOpen outputBlock dataBlock).AlwaysKeeps I := by
  have hI := ignoresContents_of_output houtput
  refine Code.alwaysKeeps_assign hforget ?_
  refine Code.alwaysKeeps_assign (fun s hs => houtput s _ hs) ?_
  refine Code.alwaysKeeps_assign (fun s hs => houtput s _ hs) ?_
  refine Code.alwaysKeeps_test (Code.alwaysKeeps_ret _ _) ?_
  refine always_throughOutput hI fun _ => always_throughOutput hI fun b => ?_
  by_cases h : b.data.isNull = true
  · rw [if_pos h]
    exact Code.alwaysKeeps_ret _ _
  · rw [if_neg h]
    iterate 4 refine always_throughOutput hI fun _ => ?_
    exact Code.alwaysKeeps_ret _ _

/-- The kprobe that `kp` points to is taken out of the registered ones. -/
def unregisterKp (s : MprobeState) : MprobeState :=
  { s with registered := s.registered.filter fun p => s.kp ≠ some p }

/-- The kprobe that `kp` points to is registered. -/
def registerKp (s : MprobeState) : MprobeState :=
  { s with registered := s.kp.toList ++ s.registered }

/-- The statements of the calls, but for those that look into the buffer. -/
structure KeptByStatements (I : MprobeState → Prop) : Prop where
  forget : ∀ s, I s → I { s with kp := none }
  unregister : ∀ s, I s → I (unregisterKp s)
  allocate : ∀ s, I s → I { s with kp := some ⟨s.fresh, 0⟩, fresh := s.fresh + 1 }
  address : ∀ s addr, I s → I { s with kp := s.kp.map fun p => { p with addr } }
  register : ∀ s, I s → I (registerKp s)

theorem always_clearKp {I : MprobeState → Prop} (h : KeptByStatements I) {k : Body}
    (hk : k.AlwaysKeeps I) : (clearKp k).AlwaysKeeps I :=
  Code.alwaysKeeps_test
    (Code.alwaysKeeps_assign h.unregister (Code.alwaysKeeps_assign h.forget hk)) hk

theorem always_clearOutputAndKp {I : MprobeState → Prop} (h : KeptByStatements I)
    (houtput : ∀ s output, I s → I { s with mprobeOutput := output }) {k : Body}
    (hk : k.AlwaysKeeps I) : (clearOutputAndKp k).AlwaysKeeps I := by
  refine Code.alwaysKeeps_test ?_ (always_clearKp h hk)
  refine always_throughOutput (ignoresContents_of_output houtput) fun _ => ?_
  refine Code.alwaysKeeps_assign (fun s hs => houtput s _ hs) ?_
  exact Code.alwaysKeeps_assign (fun s hs => houtput s _ hs) (always_clearKp h hk)

/-- The part of a write after the clearing. -/
def registerProbe (lookup funcOffset : UInt32) (kpBlock : Bool) (res : Int32) : Body :=
  .assign (fun s =>
    if kpBlock then { s with kp := some ⟨s.fresh, 0⟩, fresh := s.fresh + 1 }
    else { s with kp := none }) <|
  if !kpBlock then .ret .oops else
  .assign (fun s => { s with kp := s.kp.map fun p => { p with addr := lookup + funcOffset } }) <|
  .assign (fun s => if res < 0 then s else registerKp s) <|
  .ret (.returned 0)

theorem mprobeDeviceWrite_eq (lookup funcOffset : UInt32) (kpBlock : Bool) (res : Int32) :
    mprobeDeviceWrite lookup funcOffset kpBlock res =
      clearOutputAndKp (registerProbe lookup funcOffset kpBlock res) := rfl

theorem always_registerProbe {I : MprobeState → Prop} (h : KeptByStatements I)
    (lookup funcOffset : UInt32) (kpBlock : Bool) (res : Int32) :
    (registerProbe lookup funcOffset kpBlock res).AlwaysKeeps I := by
  refine Code.alwaysKeeps_assign ?_ ?_
  · intro s hs
    cases kpBlock with
    | false => exact h.forget s hs
    | true => exact h.allocate s hs
  · cases kpBlock with
    | false => exact Code.alwaysKeeps_ret _ _
    | true =>
      refine Code.alwaysKeeps_assign (fun s hs => h.address s _ hs)
        (Code.alwaysKeeps_assign ?_ (Code.alwaysKeeps_ret _ _))
      intro s hs
      split
      · exact hs
      · exact h.register s hs

/-- A property of the other globals that every statement keeps is kept by every call. -/
theorem KeptByStatements.call {I : MprobeState → Prop} (h : KeptByStatements I)
    (houtput : ∀ s output, I s → I { s with mprobeOutput := output }) (c : Call) :
    c.body.AlwaysKeeps I := by
  cases c with
  | openFile outputBlock dataBlock => exact always_open h.forget houtput outputBlock dataBlock
  | readFile buf copied copiedResult =>
    exact always_read (ignoresContents_of_output houtput) buf copied copiedResult
  | writeFile lookup funcOffset kpBlock res =>
    rw [Call.body, mprobeDeviceWrite_eq]
    exact always_clearOutputAndKp h houtput (always_registerProbe h lookup funcOffset kpBlock res)
  | ioctl | releaseFile =>
    exact always_clearOutputAndKp h houtput (Code.alwaysKeeps_ret _ _)

/-! ## The addresses of the probes -/

/-- Every kprobe in use was handed out before. -/
structure Numbered (s : MprobeState) : Prop where
  registered : ∀ p ∈ s.registered, p.ptr < s.fresh
  kp : ∀ p, s.kp = some p → p.ptr < s.fresh

theorem numbered_kept : KeptByStatements Numbered where
  forget s hs := ⟨hs.registered, nofun⟩
  unregister s hs := ⟨fun p hp => hs.registered p (List.mem_of_mem_filter hp), hs.kp⟩
  allocate s hs := by
    refine ⟨fun p hp => Nat.lt_succ_of_lt (hs.registered p hp), ?_⟩
    rintro p ⟨⟩
    exact Nat.lt_succ_self s.fresh
  address s addr hs := by
    refine ⟨hs.registered, fun p hp => ?_⟩
    obtain ⟨q, hq, rfl⟩ := Option.map_eq_some_iff.mp hp
    exact hs.kp q hq
  register s hs := by
    refine ⟨fun p hp => ?_, hs.kp⟩
    rcases List.mem_append.mp hp with hp | hp
    · exact hs.kp p (Option.mem_toList.mp hp)
    · exact hs.registered p hp

/-- The probe is registered and `kp` does not point to it, now or later. -/
structure Lost (p : Kprobe) (s : MprobeState) : Prop where
  registered : p ∈ s.registered
  old : p.ptr < s.fresh
  other : ∀ q, s.kp = some q → q.ptr ≠ p.ptr

theorem lost_kept (p : Kprobe) : KeptByStatements (Lost p) where
  forget s hs := ⟨hs.registered, hs.old, nofun⟩
  unregister s hs := by
    refine ⟨List.mem_filter.mpr ⟨hs.registered, decide_eq_true fun hkp => ?_⟩, hs.old, hs.other⟩
    exact hs.other p hkp rfl
  allocate s hs := by
    refine ⟨hs.registered, Nat.lt_succ_of_lt hs.old, ?_⟩
    rintro q ⟨⟩
    exact Nat.ne_of_gt hs.old
  address s addr hs := by
    refine ⟨hs.registered, hs.old, fun q hq => ?_⟩
    obtain ⟨q', hq', rfl⟩ := Option.map_eq_some_iff.mp hq
    exact hs.other q' hq'
  register s hs := ⟨List.mem_append_right _ hs.registered, hs.old, hs.other⟩

/-! ## The buffer and the probe -/

/-- There is a buffer only when `kp` points to no probe. -/
def Apart (s : MprobeState) : Prop := s.kp = none ∨ s.mprobeOutput.found ≠ .buffer

theorem apart_hit (s s' : MprobeState) (hs : Apart s) (hhit : HitStep s s') : Apart s' := by
  unfold Apart
  rwa [hhit.kp, hhit.found]

theorem apart_ignores : IgnoresContents Apart := by
  rintro s b b' hout hs
  refine hs.imp_right fun hfound => ?_
  rw [hout] at hfound
  exact absurd rfl hfound

def NoBuffer (s : MprobeState) : Prop := s.mprobeOutput.found ≠ .buffer

theorem noBuffer_hit (s s' : MprobeState) (hs : NoBuffer s) (hhit : HitStep s s') :
    NoBuffer s' := by
  unfold NoBuffer
  rwa [hhit.found]

theorem noBuffer_null (s : MprobeState) : NoBuffer { s with mprobeOutput := .null } := by
  intro h
  cases h

theorem noBuffer_kept : KeptByStatements NoBuffer :=
  ⟨fun _ hs => hs, fun _ hs => hs, fun _ hs => hs, fun _ _ hs => hs, fun _ hs => hs⟩

theorem safe_of_noBuffer {c : Body} (hc : c.AlwaysKeeps NoBuffer) {s : MprobeState}
    (hs : NoBuffer s) : c.Safe HitStep Apart s :=
  hc.safe (fun _ => Or.inr) noBuffer_hit hs

theorem safe_throughOutput {f : RingBuffer → RingBuffer} {k : RingBuffer → Body}
    (hk : ∀ b s, Apart s → (k b).Safe HitStep Apart s) {s : MprobeState} (hs : Apart s) :
    (throughOutput f k).Safe HitStep Apart s := by
  refine ⟨hs, fun s' s'' hhit hstep => ?_⟩
  have hs' := apart_hit s s' hs hhit
  obtain ⟨kp, _ | _ | b, registered, fresh⟩ := s'
  · obtain rfl := Option.some.inj hstep
    exact hs'
  · obtain rfl := Option.some.inj hstep
    exact hs'
  · obtain rfl := Option.some.inj hstep
    exact hk b _ (apart_ignores _ b (f b) rfl hs')

/-- The clearing frees the buffer, and what follows it makes none. -/
theorem safe_clearOutputAndKp {k : Body} (hk : k.AlwaysKeeps NoBuffer) {s : MprobeState}
    (hs : Apart s) : (clearOutputAndKp k).Safe HitStep Apart s := by
  have hclear := always_clearKp noBuffer_kept hk
  refine Code.safe_test hs (fun s₁ h₁ _ => ?_) fun s₁ h₁ hnull => ?_
  · refine safe_throughOutput (fun _ s₂ hs₂ => ?_) (apart_hit s s₁ hs h₁)
    refine Code.safe_assign hs₂ fun s₃ _ => ?_
    refine safe_of_noBuffer (Code.alwaysKeeps_assign (fun s _ => noBuffer_null s) hclear) ?_
    unfold NoBuffer
    cases s₃.mprobeOutput <;> nofun
  · refine safe_of_noBuffer hclear ?_
    unfold NoBuffer
    cases hout : s₁.mprobeOutput with
    | null | wild => nofun
    | valid b => simp [hout, Ptr.isNull] at hnull

theorem safe_open (outputBlock : Option RingBuffer) (dataBlock : Option (CArray 10 Slot))
    {s : MprobeState} (hs : Apart s) :
    (mprobeDeviceOpen outputBlock dataBlock).Safe HitStep Apart s := by
  have hopen := @always_open (fun s => s.kp = none) (fun _ _ => rfl) (fun _ _ hkp => hkp)
    outputBlock dataBlock
  refine Code.safe_assign hs fun s' _ => ?_
  have hkept : ∀ s s' : MprobeState, s.kp = none → HitStep s s' → s'.kp = none :=
    fun s s' hkp hhit => hhit.kp.trans hkp
  exact (hopen.2 s').safe (fun _ => Or.inl) hkept rfl

/-- Every call is made apart from the probe, whatever hits fall into it. -/
theorem Call.safe (c : Call) (s : MprobeState) (hs : Apart s) :
    c.body.Safe HitStep Apart s := by
  cases c with
  | openFile outputBlock dataBlock => exact safe_open outputBlock dataBlock hs
  | readFile buf copied copiedResult =>
    exact (always_read apart_ignores buf copied copiedResult).safe (fun _ h => h) apart_hit hs
  | writeFile lookup funcOffset kpBlock res =>
    rw [Call.body, mprobeDeviceWrite_eq]
    exact safe_clearOutputAndKp
      (always_registerProbe noBuffer_kept lookup funcOffset kpBlock res) hs
  | ioctl | releaseFile => exact safe_clearOutputAndKp (Code.alwaysKeeps_ret _ _) hs

/-! ## Whole runs -/

/-- At every point of every run of the calls, with hits of the registered probes anywhere in
between: while `kp` points to a probe no hit finds a buffer, and when a hit would find one, every
probe registered then, whose hits it records, stays registered through all that follows. -/
theorem recorders_stay {moves : List (Move Call (Kprobe × Hit))} {cfg : Config MprobeState Reply}
    {found : List (Option Found)}
    (hrun : run mprobeMove ⟨mprobeDriverInit, none⟩ moves = some (cfg, found)) :
    (cfg.state.kp ≠ none → cfg.state.mprobeOutput.found ≠ .buffer) ∧
      (cfg.state.mprobeOutput.found = .buffer → ∀ p ∈ cfg.state.registered,
        ∀ moves' cfg' found', run mprobeMove cfg moves' = some (cfg', found') →
          p ∈ cfg'.state.registered) := by
  have hnumbered := (run_move_keeps (P := fun _ => True)
    (fun h s s' o hs hhit => by
      have hstep := hitStep_onHit h s s' o hhit
      exact ⟨⟨hstep.registered ▸ hstep.fresh ▸ hs.registered,
        hstep.kp ▸ hstep.fresh ▸ hs.kp⟩, trivial⟩)
    (fun c _ => (numbered_kept.call (fun _ _ hs => ⟨hs.registered, hs.kp⟩) c).keeps)
    (⟨⟨nofun, nofun⟩, nofun⟩ : Config.Keeps Numbered ⟨mprobeDriverInit, none⟩) hrun).1.1
  have hapart := (run_move_safe hitStep_refl hitStep_trans apart_hit Call.safe hitStep_onHit
    (⟨.inl rfl, nofun⟩ : Config.Safe HitStep Apart ⟨mprobeDriverInit, none⟩) hrun).1
  refine ⟨fun hkp => hapart.resolve_left hkp, ?_⟩
  intro hbuffer p hp moves' cfg' found' hrun'
  have hkp : cfg.state.kp = none := hapart.resolve_right fun hfound => hfound hbuffer
  have hlost : Lost p cfg.state := by
    refine ⟨hp, hnumbered.registered p hp, ?_⟩
    rw [hkp]
    nofun
  have hkept := (lost_kept p).call fun _ _ hs => ⟨hs.registered, hs.old, hs.other⟩
  have hcurrent := run_move_alwaysKeeps hkept (fun c hc => by cases hc) hrun
  exact (run_move_keeps (P := fun _ => True)
    (fun h s s' o hs hhit => by
      have hstep := hitStep_onHit h s s' o hhit
      exact ⟨⟨hstep.registered ▸ hs.registered, hstep.fresh ▸ hs.old, hstep.kp ▸ hs.other⟩,
        trivial⟩)
    (fun c _ => (hkept c).keeps) ⟨hlost, fun c hc => (hcurrent c hc).keeps⟩ hrun').1.1.registered

/-- The device is opened, a probe is registered, and the device is opened by somebody else. -/
def openWriteOpen : List (Move Call (Kprobe × Hit)) :=
  .call (.openFile (some ⟨.null, 0, 0, 0, 0⟩) (some fun _ _ => 0)) :: .replicate 11 .step ++
    (.call (.writeFile 0xc1000000 4 true 0) :: .replicate 9 .step) ++
    (.call (.openFile (some ⟨.null, 0, 0, 0, 0⟩) (some fun _ _ => 0)) :: .replicate 11 .step)

/-- From then on the probe records, and stays registered. -/
theorem recorders_stay_second_open :
    ∃ cfg found, run mprobeMove ⟨mprobeDriverInit, none⟩ openWriteOpen = some (cfg, found) ∧
      cfg.state.mprobeOutput.found = .buffer ∧ cfg.state.registered = [⟨0, 0xc1000004⟩] ∧
      ∀ moves' cfg' found', run mprobeMove cfg moves' = some (cfg', found') →
        ⟨0, 0xc1000004⟩ ∈ cfg'.state.registered := by
  obtain ⟨cfg, found, hrun, hbuffer, hregistered⟩ : ∃ cfg found,
      run mprobeMove ⟨mprobeDriverInit, none⟩ openWriteOpen = some (cfg, found) ∧
        cfg.state.mprobeOutput.found = .buffer ∧ cfg.state.registered = [⟨0, 0xc1000004⟩] :=
    ⟨_, _, rfl, rfl, rfl⟩
  refine ⟨cfg, found, hrun, hbuffer, hregistered, ?_⟩
  exact (recorders_stay hrun).2 hbuffer _ (hregistered ▸ List.mem_singleton_self _)

end KernelDrivers.Mprobe
