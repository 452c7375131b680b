import KernelDrivers.Hcsr04.Ownership
import KernelDrivers.Hcsr04.Echoes
import KernelDrivers.Hcsr04.SampleBuffer

/-!
# Opening an open device

Every open initialises the device again, and every release tears it down, whoever else has it
open. So the other process keeps what it has exactly when it has nothing yet, and an interrupt
that is claimed when the device is opened again is no longer recorded.
-/

namespace KernelDrivers.Hcsr04
open Lib

/-! ## The driver with its open files and its threads -/

structure MiscSystem where
  driver : MiscDriver
  /-- A process and the minor number of the device, for each open file. -/
  files : List (Nat × Int32)
  created : Int32 → Nat
  threads : Int32 → List Thread

def systemInit (blank : Int32 → Hcsr04Device) (minorLeft : Int32 → Int32) : MiscSystem :=
  ⟨hcsr04Init blank minorLeft, [], fun _ => 0, fun _ => []⟩

/-- A device with the threads at work on it. -/
def MiscSystem.pool (s : MiscSystem) (minor : Int32) : Pool Shared Thread :=
  ⟨⟨s.driver.device minor, s.created minor, s.driver.calls⟩, s.threads minor⟩

def MiscSystem.setPool (s : MiscSystem) (minor : Int32) (p : Pool Shared Thread) : MiscSystem where
  driver := { s.driver with calls := p.shared.calls }.setDevice minor p.shared.device
  files := s.files
  created := Function.update s.created minor p.shared.created
  threads := Function.update s.threads minor p.threads

/-- The open files after a call. -/
def filesAfter (files : List (Nat × Int32)) (process : Nat) (op : MiscOp) : List (Nat × Int32) :=
  match op.2 with
  | .openFile => (process, op.1) :: files
  | .releaseFile => files.erase (process, op.1)
  | _ => files

def MiscCall.isOpen : MiscCall → Bool
  | .openFile => true
  | _ => false

inductive SystemMove where
  | call (process : Nat) (op : MiscOp)
  | thread (env : KernelEnv) (minor : Int32) (move : PoolMove Thread)

/-- A call needs an open file of its process, unless it opens one. Threads take their statements
in any order, between any calls. -/
def systemMove (s : MiscSystem) : SystemMove → Option (MiscSystem × Option Int32)
  | .call process op =>
    if op.2.isOpen ∨ (process, op.1) ∈ s.files then
      some ({ s with
        driver := (miscOp s.driver op).1
        files := filesAfter s.files process op }, some (miscOp s.driver op).2)
    else none
  | .thread env minor move =>
    (deviceMove env (s.pool minor) move).map fun (p, _) => (s.setPool minor p, none)

/-! ## The property and its condition -/

/-- The samples a user can still read. -/
def unreadSamples (device : Hcsr04Device) : List FifoBuffer :=
  readable Erased device.buffer (Fin.ofNat 5 (device.bufferIndex.toInt % 5).toNat)

/-- What a process that uses a device finds the same. -/
structure SameView (device device' : Hcsr04Device) : Prop where
  triggerPin : device'.triggerPin = device.triggerPin
  echoPin : device'.echoPin = device.echoPin
  m : device'.m = device.m
  delta : device'.delta = device.delta
  arePinsConfigured : device'.arePinsConfigured = device.arePinsConfigured
  areMDeltaConfigured : device'.areMDeltaConfigured = device.areMDeltaConfigured
  unread : unreadSamples device' = unreadSamples device
  irqNo : device'.irqData.irqNo = device.irqData.irqNo

/-- Every claimed interrupt is the one its device records, and the device is open, so that a
release is still to come. -/
def IrqsRecorded (s : MiscSystem) : Prop :=
  ∀ minor irq, (minor, irq) ∈ heldIrqs s.driver.calls →
    (s.driver.device minor).irqData.irqNo = irq ∧ irq ≠ NO_VALUE ∧
      ∃ process, (process, minor) ∈ s.files

/-- Another process has the device open. -/
def OpenElsewhere (s : MiscSystem) (process : Nat) (minor : Int32) : Prop :=
  ∃ other, other ≠ process ∧ (other, minor) ∈ s.files

def MiscCall.initializes : MiscCall → Bool
  | .openFile | .releaseFile => true
  | _ => false

/-- An open or a release by a second process leaves the first one's view of the device as it is,
and every interrupt is recorded after the move. -/
structure Harmless (s : MiscSystem) (move : SystemMove) : Prop where
  view : ∀ process op s' o, move = .call process op → op.2.initializes →
    OpenElsewhere s process op.1 → systemMove s move = some (s', o) →
    SameView (s.driver.device op.1) (s'.driver.device op.1)
  recorded : ∀ s' o, systemMove s move = some (s', o) → IrqsRecorded s'

/-- A device without configuration and samples. -/
structure Untouched (device : Hcsr04Device) : Prop where
  triggerPin : device.triggerPin = NO_PIN
  m : device.m = NO_VALUE
  unread : unreadSamples device = []

/-- An open finds no interrupt recorded, and an open or a release by a second process finds the
device untouched. -/
def FindsUntouched (s : MiscSystem) : SystemMove → Prop
  | .call process (minor, .openFile) =>
    (s.driver.device minor).irqData.irqNo = NO_VALUE ∧
      (OpenElsewhere s process minor → Untouched (s.driver.device minor))
  | .call process (minor, .releaseFile) =>
    (process, minor) ∈ s.files → OpenElsewhere s process minor →
      Untouched (s.driver.device minor)
  | _ => True

/-! ## What the threads leave alone -/

/-- No thread claims or frees an interrupt. -/
theorem ThreadFrame.irqs {env : KernelEnv} {s s' : Shared} (h : ThreadFrame env s s') :
    irqEvents s'.calls = irqEvents s.calls := by
  rcases h.calls with hcalls | ⟨val, hcalls⟩
  · rw [hcalls]
  · rw [hcalls, irqEvents_pinConfig]

/-! ## The invariant -/

/-- The fields of one configuration are set together. -/
structure SetTogether (device : Hcsr04Device) : Prop where
  pins : device.triggerPin = NO_PIN → device.echoPin = NO_PIN ∧ device.arePinsConfigured = 0
  parameters : device.m = NO_VALUE → device.delta = NO_VALUE ∧ device.areMDeltaConfigured = 0

theorem setTogether_initializeDevice (device : Hcsr04Device) :
    SetTogether (initializeDevice device) :=
  ⟨fun _ => ⟨rfl, rfl⟩, fun _ => ⟨rfl, rfl⟩⟩

theorem SetTogether.frame {env : KernelEnv} {s s' : Shared} (h : SetTogether s.device)
    (hframe : ThreadFrame env s s') :
    SetTogether s'.device := by
  obtain ⟨irqData, buffer, bufferIndex, bufferLock, measurementInProgress, readLock, hdevice⟩ :=
    hframe.device
  rw [hdevice]
  exact ⟨h.pins, h.parameters⟩

/-- `CONFIG_PINS` sets the two pins and writes to the interrupt data and the mark besides. -/
theorem configPinsIoctl_device (env : KernelEnv) (minor param1 param2 : Int32) (s : MiscDriver) :
    configPinsIoctl env minor param1 param2 s = (s, EINVAL) ∨
      0 ≤ param1 ∧ ∃ irqData arePinsConfigured calls pins,
        (configPinsIoctl env minor param1 param2 s).1 = { s with calls, pins }.setDevice minor
          { s.device minor with
            triggerPin := param1, echoPin := param2, irqData, arePinsConfigured } := by
  by_cases hwrong : param1 < 0 ∨ param1 > 12 ∨ param2 < 0 ∨ param2 > 12 ∨
      !isEdgeInterruptible param2
  · left
    rw [configPinsIoctl, if_pos hwrong]
  · right
    refine ⟨Int32.not_lt.mp fun hlt => hwrong (.inl hlt), ?_⟩
    simp only [configPinsIoctl, if_neg hwrong]
    obtain ⟨echoPin, irqData₀, hreleased⟩ : ∃ echoPin irqData,
        (releaseInterrupt (s.device minor) s.calls).2 =
          { s.device minor with echoPin, irqData } := by
      unfold releaseInterrupt
      split
      · exact ⟨_, _, rfl⟩
      · exact ⟨_, _, rfl⟩
    generalize releaseInterrupt (s.device minor) s.calls = released at hreleased ⊢
    obtain ⟨calls₀, device₀⟩ := released
    obtain rfl : device₀ = _ := hreleased
    obtain ⟨irqData, hdevice⟩ := configurePins_device env s.pins
      { s.device minor with triggerPin := param1, echoPin := param2, irqData := irqData₀ } calls₀
    simp only [hdevice]
    split
    · exact ⟨_, _, _, _, rfl⟩
    · exact ⟨_, _, _, _, rfl⟩

theorem SetTogether.miscOp {s : MiscDriver} (h : ∀ minor, SetTogether (s.device minor))
    (op : MiscOp) : ∀ minor, SetTogether ((miscOp s op).1.device minor) := by
  refine forall_miscOp h setTogether_initializeDevice ?_ ?_ op
  · intro env minor param1 param2
    rcases configPinsIoctl_device env minor param1 param2 s with
      hrefused | ⟨hparam1, irqData, arePinsConfigured, calls, pins, hdriver⟩
    · rw [hrefused]
      exact h
    · rw [hdriver]
      have hpin : param1 ≠ NO_PIN := by
        rintro rfl
        exact absurd hparam1 (by decide)
      exact forall_setDevice (s := { s with calls, pins }) h minor
        ⟨fun htrigger => absurd htrigger hpin, (h minor).parameters⟩
  · intro minor param1 param2 hgood
    have hparam1 : param1 ≠ NO_VALUE := by
      rintro rfl
      exact hgood (.inl (by decide))
    exact ⟨(h minor).pins, fun hm => absurd hm hparam1⟩

/-- The minor numbers of the open files. -/
def openMinors (files : List (Nat × Int32)) : Finset Int32 := (files.map Prod.snd).toFinset

theorem mem_openMinors {files : List (Nat × Int32)} {minor : Int32} :
    minor ∈ openMinors files ↔ ∃ process, (process, minor) ∈ files := by
  simp [openMinors]

structure SystemInv (s : MiscSystem) : Prop where
  owned : Owned (openMinors s.files) s.driver
  settled : ∀ minor, SetTogether (s.driver.device minor)

theorem systemInv_init (blank : Int32 → Hcsr04Device) (minorLeft : Int32 → Int32) :
    SystemInv (systemInit blank minorLeft) where
  owned := owned_init blank minorLeft
  settled := fun _ => setTogether_initializeDevice _

theorem SystemInv.irqsRecorded {s : MiscSystem} (h : SystemInv s) : IrqsRecorded s := by
  intro minor irq hheld
  obtain ⟨hirq, hvalue⟩ := (h.owned.irqs minor irq).mp hheld
  refine ⟨hirq, hvalue, mem_openMinors.mp ?_⟩
  by_contra hclosed
  exact hvalue (hirq.symm.trans (h.owned.closed minor hclosed))

/-- The calls, apart from an open that finds an interrupt recorded. -/
theorem SystemInv.call {s s' : MiscSystem} (h : SystemInv s) {process : Nat} {op : MiscOp}
    {o : Option Int32} (hopen : op.2 = .openFile → (s.driver.device op.1).irqData.irqNo = NO_VALUE)
    (hmove : systemMove s (.call process op) = some (s', o)) : SystemInv s' := by
  simp only [systemMove] at hmove
  split at hmove
  next hallowed =>
    obtain ⟨rfl, -⟩ := Prod.mk.inj (Option.some.inj hmove)
    refine ⟨?_, SetTogether.miscOp h.settled op⟩
    obtain ⟨minor, call⟩ := op
    have hmem : call ≠ .openFile → minor ∈ openMinors s.files := by
      intro hne
      refine mem_openMinors.mpr ⟨process, hallowed.resolve_left fun hopens => hne ?_⟩
      revert hopens
      cases call <;> simp [MiscCall.isOpen]
    cases call with
    | openFile =>
      have hfiles : openMinors (filesAfter s.files process (minor, .openFile)) =
          insert minor (openMinors s.files) := by
        simp [openMinors, filesAfter]
      rw [hfiles]
      exact h.owned.openFile (hopen rfl)
    | configPins env param1 param2 => exact h.owned.configPins env (hmem nofun) param1 param2
    | setParameters param1 param2 =>
      exact @Owned.step _ _ h.owned (minor, .setParameters param1 param2) (hmem nofun)
    | releaseFile =>
      refine (h.owned.release (hmem nofun)).mono fun other hother => ?_
      obtain ⟨hne, hother⟩ := Finset.mem_erase.mp hother
      obtain ⟨holder, hfile⟩ := mem_openMinors.mp hother
      refine mem_openMinors.mpr ⟨holder, (List.mem_erase_of_ne ?_).mpr hfile⟩
      exact fun he => hne (Prod.mk.inj he).2
  next => cases hmove

theorem SystemInv.thread {s s' : MiscSystem} (h : SystemInv s) {env : KernelEnv} {minor : Int32}
    {move : PoolMove Thread} {o : Option Int32}
    (hmove : systemMove s (.thread env minor move) = some (s', o)) : SystemInv s' := by
  obtain ⟨⟨p, ⟨⟩⟩, hp, hs'⟩ := Option.map_eq_some_iff.mp hmove
  obtain ⟨rfl, -⟩ := Prod.mk.inj hs'
  have hframe := deviceMove_frame hp
  have hminor : p.shared.device.miscMinor = (s.driver.device minor).miscMinor := hframe.miscMinor
  have hechoPin : p.shared.device.echoPin = (s.driver.device minor).echoPin := hframe.echoPin
  have hirqNo : p.shared.device.irqData.irqNo = (s.driver.device minor).irqData.irqNo :=
    hframe.irqNo
  refine ⟨?_, forall_setDevice (s := { s.driver with calls := p.shared.calls }) h.settled minor
    ((h.settled minor).frame (s := (s.pool minor).shared) hframe)⟩
  refine h.owned.update (hminor.trans (h.owned.minors minor))
    ((h.owned.claims minor).congr hminor hirqNo hframe.irqs) ?_ ?_ (fun _ _ hm => hm)
    h.owned.owners rfl
  · rw [hirqNo, hechoPin]
    exact h.owned.echo minor
  · rw [hirqNo]
    exact h.owned.closed minor

theorem SystemInv.step {s s' : MiscSystem} (h : SystemInv s) {move : SystemMove}
    {o : Option Int32} (hfinds : FindsUntouched s move) (hmove : systemMove s move = some (s', o)) :
    SystemInv s' := by
  cases move with
  | call process op =>
    refine h.call (fun hopen => ?_) hmove
    obtain ⟨minor, call⟩ := op
    obtain rfl : call = .openFile := hopen
    exact hfinds.1
  | thread env minor move => exact h.thread hmove

/-! ## The view of a device that is initialised -/

theorem unreadSamples_initializeDevice (device : Hcsr04Device) :
    unreadSamples (initializeDevice device) = [] := rfl

theorem SystemInv.sameView_iff {s : MiscSystem} (h : SystemInv s) (minor : Int32) :
    SameView (s.driver.device minor) (initializeDevice (s.driver.device minor)) ↔
      Untouched (s.driver.device minor) := by
  constructor
  · exact fun hview => ⟨hview.triggerPin.symm, hview.m.symm,
      hview.unread.symm.trans (unreadSamples_initializeDevice _)⟩
  · intro hfresh
    obtain ⟨hechoPin, hconfigured⟩ := (h.settled minor).pins hfresh.triggerPin
    obtain ⟨hdelta, hparameters⟩ := (h.settled minor).parameters hfresh.m
    refine ⟨hfresh.triggerPin.symm, hechoPin.symm, hfresh.m.symm, hdelta.symm, hconfigured.symm,
      hparameters.symm, hfresh.unread.symm, ?_⟩
    by_contra hirq
    exact h.owned.echo minor (Ne.symm hirq) hechoPin

theorem systemMove_initializes {s s' : MiscSystem} {process : Nat} {op : MiscOp}
    {o : Option Int32} (hop : op.2.initializes)
    (hmove : systemMove s (.call process op) = some (s', o)) :
    s'.driver.device op.1 = initializeDevice (s.driver.device op.1) := by
  simp only [systemMove] at hmove
  split at hmove
  next =>
    obtain ⟨rfl, -⟩ := Prod.mk.inj (Option.some.inj hmove)
    obtain ⟨minor, call⟩ := op
    cases call with
    | openFile | releaseFile => exact setDevice_device ..
    | configPins | setParameters => cases hop
  next => cases hmove

/-! ## The main result -/

/-- A first open of the device keeps nothing, a second one forgets the interrupt. -/
theorem SystemInv.irqNo_of_harmless {s : MiscSystem} (h : SystemInv s) {process : Nat}
    {minor : Int32} (hharmless : Harmless s (.call process (minor, .openFile))) :
    (s.driver.device minor).irqData.irqNo = NO_VALUE := by
  by_contra hirq
  have hheld := (h.owned.irqs minor _).mpr ⟨rfl, hirq⟩
  obtain ⟨s', o, hmove⟩ : ∃ s' o, systemMove s (.call process (minor, .openFile)) =
    some (s', o) := ⟨_, _, rfl⟩
  have hcalls : s'.driver.calls = s.driver.calls := by
    obtain ⟨rfl, -⟩ := Prod.mk.inj (Option.some.inj hmove)
    rfl
  obtain ⟨hrecorded, -⟩ := hharmless.recorded s' o hmove minor _ (by rwa [hcalls])
  rw [systemMove_initializes rfl hmove] at hrecorded
  exact hirq hrecorded.symm

theorem SystemInv.harmless_iff {s : MiscSystem} (h : SystemInv s) (move : SystemMove) :
    Harmless s move ↔ FindsUntouched s move := by
  constructor
  · intro hharmless
    cases move with
    | thread => trivial
    | call process op =>
      have huntouched : op.2.initializes → op.2.isOpen ∨ (process, op.1) ∈ s.files →
          OpenElsewhere s process op.1 → Untouched (s.driver.device op.1) := by
        intro hop hallowed hother
        have hmove : systemMove s (.call process op) = some _ := if_pos hallowed
        rw [← h.sameView_iff, ← systemMove_initializes hop hmove]
        exact hharmless.view process op _ _ rfl hop hother hmove
      obtain ⟨minor, call⟩ := op
      cases call with
      | openFile => exact ⟨h.irqNo_of_harmless hharmless, huntouched rfl (.inl rfl)⟩
      | releaseFile => exact fun hfile => huntouched rfl (.inr hfile)
      | configPins | setParameters => trivial
  · intro hfinds
    refine ⟨?_, fun s' o hmove => (h.step hfinds hmove).irqsRecorded⟩
    rintro process op s' o rfl hop hother hmove
    rw [systemMove_initializes hop hmove, h.sameView_iff]
    obtain ⟨minor, call⟩ := op
    cases call with
    | openFile => exact hfinds.2 hother
    | releaseFile =>
      refine hfinds ?_ hother
      by_contra hfile
      simp [systemMove, MiscCall.isOpen, hfile] at hmove
    | configPins | setParameters => cases hop

/-- In a run of any processes, every open and release by a second process of a device is harmless
and every claimed interrupt stays recorded exactly when each of them finds the device untouched,
and no open finds an interrupt recorded. -/
theorem second_open_harmless_iff (blank : Int32 → Hcsr04Device) (minorLeft : Int32 → Int32)
    (moves : List SystemMove) :
    Along systemMove Harmless (systemInit blank minorLeft) moves ↔
      Along systemMove FindsUntouched (systemInit blank minorLeft) moves :=
  along_congr systemMove (fun _ move hinv => hinv.harmless_iff move)
    (fun _ _ _ _ hinv hfinds hmove => hinv.step hfinds hmove) (systemInv_init blank minorLeft) moves

/-- Every open and release by a second process is harmless in every run. -/
def SecondOpenHarmless : Prop :=
  ∀ (blank : Int32 → Hcsr04Device) (minorLeft : Int32 → Int32) (moves : List SystemMove),
    Along systemMove Harmless (systemInit blank minorLeft) moves

/-- A second process opens a device whose echo pin is configured: the interrupt stays claimed and
its record is gone. -/
theorem not_secondOpenHarmless : ¬ SecondOpenHarmless := by
  intro hall
  let moves : List SystemMove := [.call 1 (5, .openFile), .call 1 (5, .configPins grantAll 3 2)]
  obtain ⟨s, os, hrun, hheld⟩ : ∃ s os,
      run systemMove (systemInit (fun _ => blankDevice) fun _ => 0) moves = some (s, os) ∧
        (5, 61) ∈ heldIrqs s.driver.calls := ⟨_, _, rfl, by decide⟩
  have hlast := (hall (fun _ => blankDevice) (fun _ => 0)
    (moves ++ [.call 2 (5, .openFile)])).of_append _ hrun
  obtain ⟨hirq, -⟩ := hlast.1.recorded _ _ rfl 5 61 hheld
  have hforgotten : NO_VALUE = 61 := hirq
  exact absurd hforgotten (by decide)

end KernelDrivers.Hcsr04
