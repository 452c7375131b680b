import KernelDrivers.Hcsr04.ModuleLoad
import KernelDrivers.Hcsr04.Ownership
import Mathlib.Data.List.Flatten

/-!
# The life of the module

Between its load and its unload the module serves the calls of the device files. The exit frees
the lines of every record that is still configured, gives the record back to the allocator and
walks on from it. It finds no such record when the last call of every device was a release.
-/

namespace KernelDrivers.Hcsr04.ModuleLoad
open Lib

/-! ## From the load to the calls -/

/-- The driver that the calls find. `blank` stands for the minor numbers that no device has. -/
def Module.driver (s : Module) (blank : Int32 → Hcsr04Device) : MiscDriver where
  device := fun minor =>
    ((s.deviceList.find? fun d => d.device.miscMinor = minor).map LinkedDevice.device).getD
      (initializeDevice { blank minor with miscMinor := minor })
  pins := s.pinList
  calls := s.calls

/-- The module that the calls leave to the exit. -/
def Module.after (s : Module) (driver : MiscDriver) : Module where
  deviceList := s.deviceList.map fun d => { d with device := driver.device d.device.miscMinor }
  pinList := driver.pins
  registrations := s.registrations
  calls := driver.calls

/-- The devices that were called since they were last released. -/
def unreleased (called : Finset Int32) (op : MiscOp) : Finset Int32 :=
  match op.2 with
  | .releaseFile => called.erase op.1
  | _ => insert op.1 called

/-- The last call of every device is a release. -/
def AllReleased (ops : List MiscOp) : Prop := ops.foldl unreleased ∅ = ∅

instance (ops : List MiscOp) : Decidable (AllReleased ops) :=
  inferInstanceAs (Decidable (_ = _))

/-! ## Who owns the records -/

theorem minors_setDevice {s : MiscDriver} (h : ∀ minor, (s.device minor).miscMinor = minor)
    {minor : Int32} {device : Hcsr04Device} (hdevice : device.miscMinor = minor) :
    ∀ other, ((s.setDevice minor device).device other).miscMinor = other := by
  intro other
  by_cases hother : other = minor
  · rw [hother, setDevice_device, hdevice]
  · exact (congrArg Hcsr04Device.miscMinor (Function.update_of_ne hother ..)).trans (h other)

/-- No call changes a minor number. -/
theorem minors_miscOp {s : MiscDriver} (h : ∀ minor, (s.device minor).miscMinor = minor)
    (op : MiscOp) : ∀ minor, ((miscOp s op).1.device minor).miscMinor = minor := by
  obtain ⟨minor, call⟩ := op
  cases call with
  | openFile => exact minors_setDevice h (h minor)
  | configPins env param1 param2 =>
    simp only [miscOp, configPinsIoctl]
    split
    · exact h
    · have hreleased := (releaseInterrupt_miscMinor (s.device minor) s.calls).trans (h minor)
      obtain ⟨irqData, hdevice⟩ := configurePins_device env s.pins
        { (releaseInterrupt (s.device minor) s.calls).2 with
          triggerPin := param1, echoPin := param2 } (releaseInterrupt (s.device minor) s.calls).1
      refine minors_setDevice h ?_
      split <;> simpa [hdevice] using hreleased
  | setParameters param1 param2 =>
    simp only [miscOp, setParametersIoctl]
    split
    · exact h
    · exact minors_setDevice h (h minor)
  | releaseFile => exact minors_setDevice h (h minor)

/-- A configured record belongs to a device that was called since it was last released. -/
structure OwnedByCalled (called : Finset Int32) (s : MiscDriver) : Prop where
  minors : ∀ minor, (s.device minor).miscMinor = minor
  owners : ∀ pin ∈ s.pins, pin.isPinConfigured ≠ 0 → pin.deviceMinorNumber ∈ called

theorem ownedByCalled_init (blank : Int32 → Hcsr04Device) (minorLeft : Int32 → Int32) :
    OwnedByCalled ∅ (Hcsr04.hcsr04Init blank minorLeft) where
  minors := fun _ => rfl
  owners := fun pin hpin hset => absurd (populateGen2PinsData_unset minorLeft pin hpin) hset

theorem OwnedByCalled.step {called : Finset Int32} {s : MiscDriver} (h : OwnedByCalled called s)
    (op : MiscOp) : OwnedByCalled (unreleased called op) (miscOp s op).1 where
  minors := minors_miscOp h.minors op
  owners := by
    obtain ⟨calls, -, hpass⟩ := miscOp_pass s op
    rw [h.minors] at hpass
    have howners : ∀ pin ∈ (miscOp s op).1.pins, pin.isPinConfigured ≠ 0 →
        pin.deviceMinorNumber ∈ insert op.1 called :=
      hpass.forall_mem (fun _ _ _ _ hstep => hstep.owner (Finset.mem_insert_self _ _))
        fun pin hpin hset => Finset.mem_insert_of_mem (h.owners pin hpin hset)
    obtain ⟨minor, call⟩ := op
    cases call with
    | openFile | configPins | setParameters => exact howners
    | releaseFile =>
      intro pin hpin hset
      have hnot := releaseGpioPins_owner _ _ _ pin hpin hset
      rw [h.minors] at hnot
      have hmem := howners pin hpin hset
      exact Finset.mem_erase.mpr ⟨hnot, Finset.mem_of_mem_insert_of_ne hmem hnot⟩

theorem OwnedByCalled.run {called : Finset Int32} {s : MiscDriver} (h : OwnedByCalled called s)
    (ops : List MiscOp) : OwnedByCalled (ops.foldl unreleased called) (afterOps s ops) := by
  induction ops generalizing called s with
  | nil => exact h
  | cons op ops ih => exact ih (h.step op)

/-! ## The exit -/

/-- The walk is lost at the first record that is given back and does not keep its link. -/
theorem isSome_releaseAllGpioPins {keeps : Int32 → Bool} {pins : List Gen2PinConfig}
    {calls : List KernelCall} : (releaseAllGpioPins keeps pins calls).isSome ↔
      ∀ pin ∈ pins, pin.isPinConfigured ≠ 0 → keeps pin.galileoPin = true := by
  induction pins generalizing calls with
  | nil => simp [releaseAllGpioPins]
  | cons pin rest ih =>
    have hsame : (releaseGpioPin pin calls).2.galileoPin = pin.galileoPin := rfl
    by_cases hset : pin.isPinConfigured = 0
    · simp [releaseAllGpioPins, hset, ih]
    · by_cases hkeeps : keeps pin.galileoPin = true
      · simp [releaseAllGpioPins, hset, hsame, hkeeps, ih]
      · simp [releaseAllGpioPins, hset, hsame, hkeeps]

/-- A walk that comes to the end of the list has freed the lines of the records that were
configured. -/
theorem gpioEvents_releaseAllGpioPins {keeps : Int32 → Bool} {pins pins' : List Gen2PinConfig}
    {calls calls' : List KernelCall}
    (h : releaseAllGpioPins keeps pins calls = some (calls', pins')) :
    gpioEvents calls' =
      releaseAll ((pins.filter fun pin => pin.isPinConfigured ≠ 0).flatMap Gen2PinConfig.lines)
        (gpioEvents calls) := by
  induction pins generalizing calls calls' pins' with
  | nil =>
    obtain ⟨rfl, rfl⟩ := Prod.mk.inj (Option.some.inj h)
    rfl
  | cons pin rest ih =>
    by_cases hset : pin.isPinConfigured = 0
    · simp only [releaseAllGpioPins, hset, ne_eq, not_true_eq_false, if_false] at h
      obtain ⟨⟨calls₁, rest'⟩, hrest, h⟩ := Option.map_eq_some_iff.mp h
      obtain ⟨rfl, rfl⟩ := Prod.mk.inj h
      simpa [hset] using ih hrest
    · simp only [releaseAllGpioPins, hset, ne_eq, not_false_eq_true, if_true] at h
      split at h
      · obtain ⟨⟨calls₁, rest'⟩, hrest, h⟩ := Option.map_eq_some_iff.mp h
        obtain ⟨rfl, rfl⟩ := Prod.mk.inj h
        simp [hset, ih hrest, releaseGpioPin_events, releaseAll_append]
      · cases h

theorem releaseAllGpioPins_accounted {keeps : Int32 → Bool} {pins pins' : List Gen2PinConfig}
    {calls calls' : List KernelCall} (hnodup : (pins.flatMap Gen2PinConfig.lines).Nodup)
    (h : LinesHeld ∅ pins calls)
    (hwalk : releaseAllGpioPins keeps pins calls = some (calls', pins')) :
    heldLines calls' = ∅ ∧ Legal (gpioEvents calls') := by
  have hheld : held (gpioEvents calls) = configuredLines pins := by
    have hlines := h.held
    rwa [Finset.empty_union] at hlines
  have hsub : ((pins.filter fun pin => pin.isPinConfigured ≠ 0).flatMap
      Gen2PinConfig.lines).Nodup :=
    hnodup.sublist (List.filter_sublist.flatMap _)
  have hmem : ∀ line ∈ (pins.filter fun pin => pin.isPinConfigured ≠ 0).flatMap
      Gen2PinConfig.lines, line ∈ held (gpioEvents calls) := by
    intro line hline
    rw [hheld]
    exact List.mem_toFinset.mpr hline
  obtain ⟨hlegal, hleft⟩ := releaseAll_spec hsub hmem h.legal
  rw [heldLines, gpioEvents_releaseAllGpioPins hwalk]
  refine ⟨?_, hlegal⟩
  rw [hleft, hheld]
  exact Finset.sdiff_self _

/-! ## The log of a load -/

/-- No device was registered twice, and no line was requested. -/
structure CleanLog (s : Module) : Prop where
  legal : Legal s.registrations
  calls : s.calls = []

theorem cleanLog_initIteration {env : LoadEnv} {index : Nat} {s : Module} (h : CleanLog s)
    (hfree : index ∉ held s.registrations) : CleanLog (initIteration env index s).1 := by
  by_cases hindex : env.miscRegister index = 0
  · have hlog : (initIteration env index s).1.registrations =
        .request index true :: s.registrations := by simp [initIteration, hindex]
    refine ⟨hlog ▸ ⟨hfree, h.legal⟩, ?_⟩
    simp [initIteration, hindex, h.calls]
  · have hlog : (initIteration env index s).1.registrations =
        .request index false :: s.registrations := by simp [initIteration, hindex]
    refine ⟨hlog ▸ ⟨hfree, h.legal⟩, ?_⟩
    simp [initIteration, hindex, h.calls]

theorem cleanLog_initLoop {env : LoadEnv} {n index : Nat} {s : Module} (h : Loaded env index s)
    (hlog : CleanLog s) : CleanLog (initLoop env n index s).1 := by
  induction n generalizing index s with
  | zero => exact hlog
  | succ n ih =>
    have hfree : index ∉ held s.registrations := by
      rw [h.held]
      exact Finset.notMem_range_self
    have hafter := @cleanLog_initIteration env index s hlog hfree
    by_cases hindex : env.miscRegister index = 0
    · obtain ⟨s', hs', h'⟩ := initIteration_registered h hindex
      rw [hs'] at hafter
      simpa [initLoop, hs'] using ih h' hafter
    · obtain ⟨s', hs', -⟩ := initIteration_refused h hindex
      rw [hs'] at hafter
      simpa [initLoop, hs', hindex] using hafter

section Life

variable {env : LoadEnv} {minorLeft : Int32 → Int32} {devices : Int32} {s : Module}

theorem cleanLog_of_init (hinit : hcsr04Init env minorLeft devices = (s, SUCCESS)) :
    CleanLog s := by
  have hlog := @cleanLog_initLoop env devices.toInt.toNat 0 emptyModule loaded_empty ⟨trivial, rfl⟩
  unfold hcsr04Init at hinit
  generalize initLoop env devices.toInt.toNat 0 emptyModule = out at hlog hinit
  obtain ⟨s₁, error⟩ := out
  by_cases herror : error = 0
  · simp only [herror, ne_eq, not_true_eq_false, if_false] at hinit
    obtain ⟨rfl, -⟩ := Prod.mk.inj hinit
    exact ⟨hlog.legal, hlog.calls⟩
  · simp only [herror, ne_eq, not_false_eq_true, if_true] at hinit
    obtain ⟨rfl, -⟩ := Prod.mk.inj hinit
    exact hlog

/-! ## The whole life -/

/-- The calls after a load that succeeded begin with the driver that `Hcsr04.hcsr04Init` gives. -/
theorem driver_eq_init (hinit : hcsr04Init env minorLeft devices = (s, SUCCESS))
    (blank : Int32 → Hcsr04Device) :
    ∃ blank', s.driver blank = Hcsr04.hcsr04Init blank' minorLeft := by
  obtain ⟨hloaded, hpins⟩ := loaded_of_success hinit
  refine ⟨fun minor => ((s.deviceList.find? fun d => d.device.miscMinor = minor).map fun d =>
    env.kmalloc d.index).getD (blank minor), ?_⟩
  simp only [Module.driver, Hcsr04.hcsr04Init, MiscDriver.mk.injEq]
  refine ⟨funext fun minor => ?_, hpins, (cleanLog_of_init hinit).calls⟩
  cases hfind : s.deviceList.find? fun d => d.device.miscMinor = minor with
  | none => rfl
  | some d =>
    have hdevice := (hloaded.linkedOnePerIndex.initialised d (List.mem_of_find?_eq_some hfind)).2
    have hminor : d.device.miscMinor = minor := by simpa using List.find?_some hfind
    have hsame : env.minor d.index = minor := by
      rw [← hminor, hdevice]
      rfl
    rw [Option.map_some, Option.map_some, Option.getD_some, Option.getD_some, hdevice, hsame]

theorem registrations_deregisterDevices (s : Module) (driver : MiscDriver) :
    (deregisterDevices (s.after driver)).registrations =
      releaseAll (s.deviceList.map LinkedDevice.index) s.registrations := by
  simp only [deregisterDevices, Module.after, List.map_map]
  rfl

/-- Each device that is linked was registered once. -/
theorem deregister_all {n : Nat} (h : LinkedOnePerIndex env n s) (hlegal : Legal s.registrations) :
    held (releaseAll (s.deviceList.map LinkedDevice.index) s.registrations) = ∅ ∧
      Legal (releaseAll (s.deviceList.map LinkedDevice.index) s.registrations) := by
  have hnodup : (s.deviceList.map LinkedDevice.index).Nodup := by
    rw [h.indexes, List.nodup_reverse]
    exact List.nodup_range
  have hmem : ∀ index ∈ s.deviceList.map LinkedDevice.index, index ∈ held s.registrations := by
    intro index hindex
    rw [h.registered]
    exact List.mem_toFinset.mpr hindex
  obtain ⟨hlegal', hheld⟩ := releaseAll_spec hnodup hmem hlegal
  refine ⟨?_, hlegal'⟩
  rw [hheld, h.registered]
  exact Finset.sdiff_self _

/-- After a load that succeeded and any calls of the device files, the exit deregisters every
device once. It comes to its end exactly when the allocator leaves the link of every record that is
still configured, and has then freed every line once that was held. No record is configured any
more when the last call of every device was a release. -/
theorem unload_leaves_nothing (hinit : hcsr04Init env minorLeft devices = (s, SUCCESS))
    (blank : Int32 → Hcsr04Device) (ops : List MiscOp) (keeps : Int32 → Bool) :
    let t := s.after (afterOps (s.driver blank) ops)
    (held (deregisterDevices t).registrations = ∅ ∧ Legal (deregisterDevices t).registrations) ∧
      ((hcsr04Exit keeps t).isSome ↔
        ∀ pin ∈ t.pinList, pin.isPinConfigured ≠ 0 → keeps pin.galileoPin = true) ∧
      (∀ u, hcsr04Exit keeps t = some u →
        u.registrations = (deregisterDevices t).registrations ∧ heldLines u.calls = ∅ ∧
          Legal (gpioEvents u.calls)) ∧
      (AllReleased ops → ∀ pin ∈ t.pinList, pin.isPinConfigured = 0) := by
  have hderegistered := deregister_all (loaded_of_success hinit).1.linkedOnePerIndex
    (cleanLog_of_init hinit).legal
  rw [← registrations_deregisterDevices s (afterOps (s.driver blank) ops)] at hderegistered
  obtain ⟨blank', hdriver⟩ := driver_eq_init hinit blank
  rw [hdriver] at hderegistered ⊢
  have haccounted := (accounted_init blank' minorLeft).run ops
  have hnodup : ((afterOps (Hcsr04.hcsr04Init blank' minorLeft) ops).pins.flatMap
      Gen2PinConfig.lines).Nodup := by
    rw [allLines_eq haccounted.lines]
    exact populateGen2PinsData_nodup minorLeft
  refine ⟨hderegistered, ?_, fun u hexit => ?_, fun hreleased pin hpin => ?_⟩
  · rw [hcsr04Exit, Option.isSome_map]
    exact isSome_releaseAllGpioPins
  · obtain ⟨⟨calls, pins⟩, hwalk, rfl⟩ := Option.map_eq_some_iff.mp hexit
    exact ⟨rfl, releaseAllGpioPins_accounted hnodup haccounted.held hwalk⟩
  · have hrun := (ownedByCalled_init blank' minorLeft).run ops
    rw [hreleased] at hrun
    by_contra hset
    exact absurd (hrun.owners pin hpin hset) (Finset.notMem_empty _)

/-- One device, configured and not released before the unload, with an allocator that leaves the
links as they were and with one that overwrites them. -/
theorem unload_leaves_nothing_configured :
    let s := (hcsr04Init ⟨fun _ => blankDevice, fun _ => 0, fun _ => 60⟩ (fun _ => 0) 1).1
    let t := s.after (afterOps (s.driver fun _ => blankDevice)
      [(60, .openFile), (60, .configPins grantAll 3 2)])
    (∃ u, hcsr04Exit (fun _ => true) t = some u ∧ heldLines u.calls = ∅) ∧
      hcsr04Exit (fun _ => false) t = none := by
  have hlife := @unload_leaves_nothing ⟨fun _ => blankDevice, fun _ => 0, fun _ => 60⟩
    (fun _ => 0) 1 _ rfl (fun _ => blankDevice) [(60, .openFile), (60, .configPins grantAll 3 2)]
  constructor
  · obtain ⟨u, hu⟩ := Option.isSome_iff_exists.mp ((hlife fun _ => true).2.1.mpr fun _ _ _ => rfl)
    exact ⟨u, hu, ((hlife fun _ => true).2.2.1 u hu).2.1⟩
  · refine Option.not_isSome_iff_eq_none.mp fun hsome => ?_
    have hkept := (hlife fun _ => false).2.1.mp hsome
    obtain ⟨pin, hmem, hset⟩ : ∃ pin ∈ (afterOps
        (Hcsr04.hcsr04Init (fun _ => blankDevice) fun _ => 0)
        [(60, .openFile), (60, .configPins grantAll 3 2)]).pins,
          pin.isPinConfigured ≠ 0 := by decide
    exact absurd (hkept pin hmem hset) (by decide)

end Life

end KernelDrivers.Hcsr04.ModuleLoad
