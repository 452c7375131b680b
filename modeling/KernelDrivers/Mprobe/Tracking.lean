import KernelDrivers.Mprobe.HandlerSafety

/-!
# The pointer to the registered kprobe

One global points to the kprobe of all open files. An open resets it without unregistering what
it points to, and a write leaves it set when the registration fails. In a run without these two
it always tells what is registered.
-/

namespace KernelDrivers.Mprobe
open Lib

/-! ## Calls one after the other -/

/-- The driver between two calls. -/
structure Session where
  state : MprobeState
  /-- the files open on the device -/
  files : Nat

def loaded : Session := ⟨mprobeDriverInit, 0⟩

def Call.needsFile : Call → Bool
  | .openFile _ _ => false
  | _ => true

/-- The kprobe that a call passes to `unregister_kprobe`, in the block with which the write, the
ioctl and the release clear `kp`. -/
def Call.unregisters : Call → MprobeState → Option Kprobe
  | .writeFile _ _ _ _, s | .ioctl, s | .releaseFile, s => s.kp
  | .openFile _ _, _ | .readFile _ _ _, _ => none

/-- An open that fails leaves no file. -/
def filesAfter (files : Nat) : Call → Reply → Nat
  | .openFile _ _, .returned ret => if ret = 0 then files + 1 else files
  | .releaseFile, _ => files - 1
  | _, _ => files

/-- A call other than the open is made on a file that is open. -/
def sessionCall (s : Session) (c : Call) : Option (Session × Option Kprobe) :=
  if c.needsFile && s.files == 0 then none else
    (c.body.exec s.state).map fun (t, reply) =>
      (⟨t, filesAfter s.files c reply⟩, c.unregisters s.state)

/-! ## The invariant -/

/-- `kp` points to the one kprobe that is registered, or is null and none is. -/
def Tracks (s : MprobeState) : Prop := s.registered = s.kp.toList

/-- In every state between two calls `kp` tracks the kprobe, and none is registered when no file
is open; a kprobe is unregistered only when it is registered. -/
structure TracksKprobe (calls : List Call) : Prop where
  tracks : ∀ before s os, before <+: calls → run sessionCall loaded before = some (s, os) →
    Tracks s.state ∧ (s.files = 0 → s.state.registered = [])
  unregisters : ∀ before c s os p, before ++ [c] <+: calls →
    run sessionCall loaded before = some (s, os) →
    c.unregisters s.state = some p → p ∈ s.state.registered

/-- No open comes while `kp` is set, and no allocated kprobe fails to register. -/
def KeepsTrack (s : Session) : Call → Prop
  | .openFile _ _ => s.state.kp = none
  | .writeFile _ _ kpBlock res => kpBlock = true → 0 ≤ res
  | _ => True

instance (s : Session) (c : Call) : Decidable (KeepsTrack s c) :=
  match c with
  | .openFile _ _ => inferInstanceAs (Decidable (s.state.kp = none))
  | .writeFile _ _ kpBlock res => inferInstanceAs (Decidable (kpBlock = true → 0 ≤ res))
  | .readFile _ _ _ | .ioctl | .releaseFile => isTrue trivial

structure TrackInv (s : Session) : Prop where
  notWild : NotWild s.state
  tracks : Tracks s.state
  closed : s.files = 0 → s.state.registered = []

theorem TrackInv.between {s : Session} (h : TrackInv s) :
    Tracks s.state ∧ (s.files = 0 → s.state.registered = []) := ⟨h.tracks, h.closed⟩

theorem trackInv_loaded : TrackInv loaded := ⟨nofun, rfl, fun _ => rfl⟩

theorem Tracks.cleared {s : MprobeState} (h : Tracks s) : (cleared s).registered = [] := by
  obtain ⟨_ | p, output, registered, fresh⟩ := s
  · obtain rfl : registered = [] := h
    rfl
  · obtain rfl : registered = [p] := h
    simp [Mprobe.cleared]

theorem exec_open_kp (outputBlock : Option RingBuffer) (dataBlock : Option (CArray 10 Slot))
    (s : MprobeState) : ∃ out ret, (mprobeDeviceOpen outputBlock dataBlock).exec s =
      some ({ s with kp := none, mprobeOutput := out }, .returned ret) := by
  cases outputBlock with
  | none => exact ⟨.null, -ENOMEM, rfl⟩
  | some b =>
    cases dataBlock with
    | none => exact ⟨.valid { b with data := .null }, -ENOMEM, rfl⟩
    | some data => exact ⟨.valid ⟨.valid data, 0, 0, 0, 0⟩, 0, rfl⟩

theorem sessionCall_eq_some {s s' : Session} {c : Call} {o : Option Kprobe}
    (h : sessionCall s c = some (s', o)) : (c.needsFile = true → s.files ≠ 0) ∧
      ∃ t reply, c.body.exec s.state = some (t, reply) ∧
        s' = ⟨t, filesAfter s.files c reply⟩ := by
  unfold sessionCall at h
  split at h
  next => cases h
  next hfiles =>
    obtain ⟨⟨t, reply⟩, hexec, heq⟩ := Option.map_eq_some_iff.mp h
    obtain ⟨rfl, -⟩ := Prod.mk.inj heq
    exact ⟨fun hneeds => by simpa [hneeds] using hfiles, t, reply, hexec, rfl⟩

/-! ## One call -/

theorem exec_cleared {reply : Reply} {s t : MprobeState} {r : Reply} (hs : NotWild s)
    (h : (clearOutputAndKp (.ret reply)).exec s = some (t, r)) : t = cleared s := by
  rw [exec_clearOutputAndKp _ hs] at h
  exact (Prod.mk.inj (Option.some.inj h)).1.symm

theorem TrackInv.of_cleared {s : Session} (h : TrackInv s) (files : Nat) :
    TrackInv ⟨cleared s.state, files⟩ where
  notWild := nofun
  tracks := h.tracks.cleared
  closed _ := h.tracks.cleared

theorem TrackInv.open_iff {s : Session} (h : TrackInv s) {outputBlock : Option RingBuffer}
    {dataBlock : Option (CArray 10 Slot)} {t : MprobeState} {reply : Reply}
    (hexec : (mprobeDeviceOpen outputBlock dataBlock).exec s.state = some (t, reply))
    (files : Nat) : TrackInv ⟨t, files⟩ ↔ s.state.kp = none := by
  obtain ⟨out, ret, hopen⟩ := exec_open_kp outputBlock dataBlock s.state
  obtain ⟨rfl, rfl⟩ : _ = t ∧ _ = reply := by simpa [hopen] using hexec
  have hwild : NotWild { s.state with kp := none, mprobeOutput := out } := by
    obtain ⟨u, r, hu, hw⟩ := ends_open outputBlock dataBlock s.state h.notWild
    obtain ⟨rfl, -⟩ : _ = u ∧ _ = r := by simpa [hopen] using hu
    exact hw
  have hkp : s.state.registered = [] ↔ s.state.kp = none := by
    rw [h.tracks]
    cases s.state.kp <;> simp
  exact ⟨fun h' => hkp.mp h'.tracks, fun hnone => ⟨hwild, hkp.mpr hnone, fun _ => hkp.mpr hnone⟩⟩

theorem TrackInv.read {s : Session} (h : TrackInv s) {buf : Slot} {copied copiedResult : Nat}
    {t : MprobeState} {reply : Reply}
    (hexec : (mprobeDeviceRead buf copied copiedResult).exec s.state = some (t, reply)) :
    TrackInv ⟨t, s.files⟩ := by
  let I (u : MprobeState) : Prop := u.kp = s.state.kp ∧ u.registered = s.state.registered
  have hsame : I t := (keeps_read (fun _ _ hu => hu) buf copied copiedResult).exec ⟨rfl, rfl⟩ hexec
  obtain ⟨u, r, hu, hw⟩ := ends_read buf copied copiedResult s.state h.notWild
  obtain ⟨rfl, -⟩ : t = u ∧ reply = r := by simpa [hexec] using hu
  refine ⟨hw, ?_, fun hfiles => hsame.2.trans (h.closed hfiles)⟩
  have htracks := h.tracks
  rwa [Tracks, ← hsame.1, ← hsame.2] at htracks

theorem TrackInv.write_iff {s : Session} (h : TrackInv s) (hfiles : s.files ≠ 0)
    {lookup funcOffset : UInt32} {kpBlock : Bool} {res : Int32} {t : MprobeState} {reply : Reply}
    (hexec : (mprobeDeviceWrite lookup funcOffset kpBlock res).exec s.state = some (t, reply)) :
    TrackInv ⟨t, s.files⟩ ↔ (kpBlock = true → 0 ≤ res) := by
  rw [mprobeDeviceWrite, exec_clearOutputAndKp _ h.notWild] at hexec
  have hnone := h.tracks.cleared
  cases kpBlock with
  | false =>
    obtain ⟨rfl, -⟩ : cleared s.state = t ∧ Reply.oops = reply := by
      simpa [cleared] using hexec
    exact iff_of_true (h.of_cleared s.files) fun hno => absurd hno Bool.false_ne_true
  | true =>
    by_cases hres : res < 0
    · obtain ⟨rfl, -⟩ := by simpa [hres] using hexec
      refine iff_of_false (fun h' => ?_) (fun hle => absurd (hle rfl) (Int32.not_le.mpr hres))
      have htracks : (cleared s.state).registered = [_] := h'.tracks
      exact absurd (hnone.symm.trans htracks) (List.cons_ne_nil _ _).symm
    · obtain ⟨rfl, -⟩ := by simpa [hres] using hexec
      refine iff_of_true ⟨(h.of_cleared s.files).notWild, ?_, fun hzero => absurd hzero hfiles⟩
        (fun _ => Int32.not_lt.mp hres)
      simp [Tracks, hnone]

/-- From a state of the invariant, exactly the calls that meet the condition keep it. -/
theorem TrackInv.step {s s' : Session} (h : TrackInv s) {c : Call} {o : Option Kprobe}
    (hcall : sessionCall s c = some (s', o)) : TrackInv s' ↔ KeepsTrack s c := by
  obtain ⟨hneeds, t, reply, hexec, rfl⟩ := sessionCall_eq_some hcall
  cases c with
  | openFile outputBlock dataBlock => exact h.open_iff hexec _
  | readFile buf copied copiedResult => exact iff_of_true (h.read hexec) trivial
  | writeFile lookup funcOffset kpBlock res => exact h.write_iff (hneeds rfl) hexec
  | ioctl =>
    obtain rfl := exec_cleared h.notWild hexec
    exact iff_of_true (h.of_cleared _) trivial
  | releaseFile =>
    obtain rfl := exec_cleared h.notWild hexec
    exact iff_of_true (h.of_cleared _) trivial

theorem TrackInv.notWild_step {s s' : Session} (h : TrackInv s) {c : Call} {o : Option Kprobe}
    (hcall : sessionCall s c = some (s', o)) : NotWild s'.state := by
  obtain ⟨-, t, reply, hexec, rfl⟩ := sessionCall_eq_some hcall
  obtain ⟨u, r, hu, hw⟩ := c.ends s.state h.notWild
  obtain ⟨rfl, -⟩ : t = u ∧ reply = r := by simpa [hexec] using hu
  exact hw

theorem Tracks.mem_registered {s : MprobeState} (h : Tracks s) {c : Call} {p : Kprobe}
    (hp : c.unregisters s = some p) : p ∈ s.registered := by
  have hkp : s.kp = some p := by
    cases c <;> first | exact hp | cases hp
  rw [h, hkp]
  exact List.mem_singleton_self p

/-! ## Sequences of calls -/

/-- Every sequence of calls keeps the pointer on the kprobe exactly when each of its calls meets
the condition. -/
theorem tracksKprobe_iff {calls : List Call} {s : Session} {os : List (Option Kprobe)}
    (hcalls : run sessionCall loaded calls = some (s, os)) :
    TracksKprobe calls ↔ Along sessionCall KeepsTrack loaded calls := by
  have hiff := always_iff_along sessionCall (fun s hs => hs.between)
    (fun s c s' o hs hcall => (hs.step hcall).mpr) (fun s c s' o hs hcall hbetween =>
      (hs.step hcall).mp ⟨hs.notWild_step hcall, hbetween.1, hbetween.2⟩) trackInv_loaded hcalls
  rw [← hiff]
  constructor
  · intro h before u os' hpre hu
    exact h.tracks before u os' hpre hu
  · intro h
    refine ⟨h, fun before c u os' p hpre hu hp => ?_⟩
    have hbetween := h before u os' ((List.prefix_append _ _).trans hpre) hu
    exact hbetween.1.mem_registered hp

/-- Two files, opened before any probe is registered. -/
theorem tracksKprobe_iff_two_files :
    TracksKprobe [.openFile (some ⟨.null, 0, 0, 0, 0⟩) (some fun _ _ => 0),
      .openFile (some ⟨.null, 0, 0, 0, 0⟩) (some fun _ _ => 0), .writeFile 0xc1000000 4 true 0,
      .releaseFile, .releaseFile] :=
  (tracksKprobe_iff rfl).mpr (by decide)

/-- A second process opens the device while a kprobe is registered, and the release of both files
leaves it registered. -/
theorem not_tracksKprobe : ¬ ∀ (calls : List Call) (s : Session) (os : List (Option Kprobe)),
    run sessionCall loaded calls = some (s, os) → TracksKprobe calls := by
  intro hall
  let calls : List Call := [.openFile (some ⟨.null, 0, 0, 0, 0⟩) (some fun _ _ => 0),
    .writeFile 0xc1000000 4 true 0, .openFile (some ⟨.null, 0, 0, 0, 0⟩) (some fun _ _ => 0),
    .releaseFile, .releaseFile]
  have hrun : ∃ s os, run sessionCall loaded calls = some (s, os) ∧ s.files = 0 ∧
    s.state.registered = [⟨0, 0xc1000004⟩] := ⟨_, _, rfl, rfl, rfl⟩
  obtain ⟨s, os, hrun, hfiles, hregistered⟩ := hrun
  have hempty := ((hall calls s os hrun).tracks calls s os List.prefix_rfl hrun).2 hfiles
  exact absurd (hregistered.symm.trans hempty) nofun

end KernelDrivers.Mprobe
