import KernelDrivers.Hcsr04.ConfigurePins

/-!
# Configurations that succeed

The release of the pins of the previous configuration is commented out in `CONFIG_PINS`, and a
record that is configured already keeps its owner. So after a success the device owns its two pins
and no others only when it owned no others before, and no other device owned one of the two.
Both roles are wired when they are given to different pins: one pin for both is taken as an echo.
-/

namespace KernelDrivers.Hcsr04
open Lib

/-! ## The old pins -/

/-- The record is configured, by the device of this minor. -/
def Gen2PinConfig.OwnedBy (pin : Gen2PinConfig) (minor : Int32) : Prop :=
  pin.isPinConfigured ≠ 0 ∧ pin.deviceMinorNumber = minor

/-- After a configuration the device owns its two pins and no others, and the lines of a pin it no
longer uses can be claimed by another part of the system. -/
structure OldPinsFree (minor param1 param2 : Int32) (s s' : MiscDriver) : Prop where
  owned : ∀ pin ∈ s'.pins,
    pin.OwnedBy minor ↔ param1 = pin.galileoPin ∨ param2 = pin.galileoPin
  free : ∀ pin ∈ s.pins, pin.OwnedBy minor → param1 ≠ pin.galileoPin → param2 ≠ pin.galileoPin →
    ∀ line ∈ pin.lines, line ∉ heldLines s'.calls

/-- The move is no successful `CONFIG_PINS`, or the old pins are free after it. -/
def GivesBack (s : MiscSystem) : SystemMove → Prop
  | .call process (minor, .configPins env param1 param2) =>
    ∀ s', systemMove s (.call process (minor, .configPins env param1 param2)) =
      some (s', some SUCCESS) → OldPinsFree minor param1 param2 s.driver s'.driver
  | _ => True

/-- The file is open, the pins are accepted and the kernel grants all. -/
structure Succeeds (s : MiscSystem) (process : Nat) (minor : Int32) (env : KernelEnv)
    (param1 param2 : Int32) : Prop where
  opened : (process, minor) ∈ s.files
  accepted : ¬ Refused param1 param2
  grants : Grants env (requested (s.driver.device minor) param1 param2) s.driver.pins

/-- The device of a `CONFIG_PINS` that succeeds owns no other pins, and no other device owns one
of the two. -/
def OwnsNoOther (s : MiscSystem) : SystemMove → Prop
  | .call process (minor, .configPins env param1 param2) =>
    Succeeds s process minor env param1 param2 → ∀ pin ∈ s.driver.pins,
      (pin.OwnedBy minor → param1 = pin.galileoPin ∨ param2 = pin.galileoPin) ∧
      (param1 = pin.galileoPin ∨ param2 = pin.galileoPin → pin.isPinConfigured ≠ 0 →
        pin.deviceMinorNumber = minor)
  | _ => True

/-- The file must be open. -/
theorem systemMove_configPins (s : MiscSystem) (process : Nat) (minor : Int32) (env : KernelEnv)
    (param1 param2 : Int32) :
    systemMove s (.call process (minor, .configPins env param1 param2)) =
      if (process, minor) ∈ s.files then
        some ({ s with driver := (configPinsIoctl env minor param1 param2 s.driver).1 },
          some (configPinsIoctl env minor param1 param2 s.driver).2)
      else none := by
  simp only [systemMove, MiscCall.isOpen, Bool.false_eq_true, false_or]
  rfl

/-- The state after a `CONFIG_PINS` that succeeds. -/
theorem systemMove_success_iff {s s' : MiscSystem} (hinv : ConfigInv s.driver) {process : Nat}
    {minor param1 param2 : Int32} {env : KernelEnv} :
    systemMove s (.call process (minor, .configPins env param1 param2)) =
        some (s', some SUCCESS) ↔
      Succeeds s process minor env param1 param2 ∧
        s' = { s with driver := (configPinsIoctl env minor param1 param2 s.driver).1 } := by
  have hsuccess := @configPinsIoctl_success_iff env minor param1 param2 s.driver (hinv.echo minor)
  rw [systemMove_configPins]
  split
  next hfile =>
    rw [Option.some_inj, Prod.mk.injEq, Option.some_inj, hsuccess]
    constructor
    · rintro ⟨rfl, haccepted, hgrants⟩
      exact ⟨⟨hfile, haccepted, hgrants⟩, rfl⟩
    · rintro ⟨h, rfl⟩
      exact ⟨rfl, h.accepted, h.grants⟩
  next hfile => exact iff_of_false (Option.some_ne_none _).symm fun h => hfile h.1.opened

theorem oldPinsFree_iff {s : MiscDriver} (hinv : ConfigInv s) {env : KernelEnv}
    {minor param1 param2 : Int32} (haccepted : ¬ Refused param1 param2)
    (hgrants : Grants env (requested (s.device minor) param1 param2) s.pins) :
    OldPinsFree minor param1 param2 s (configPinsIoctl env minor param1 param2 s).1 ↔
      ∀ pin ∈ s.pins, (pin.OwnedBy minor → param1 = pin.galileoPin ∨ param2 = pin.galileoPin) ∧
        (param1 = pin.galileoPin ∨ param2 = pin.galileoPin → pin.isPinConfigured ≠ 0 →
          pin.deviceMinorNumber = minor) := by
  have hpins := (configPinsIoctl_spec env (hinv.echo minor) haccepted).pins
  rw [recordsAfter_of_grants hgrants] at hpins
  have hminor : (requested (s.device minor) param1 param2).miscMinor = minor := hinv.minors minor
  have hrole : ∀ pin, HasRole (requested (s.device minor) param1 param2) pin ↔
      param1 = pin.galileoPin ∨ param2 = pin.galileoPin := fun pin => Iff.rfl
  rw [hminor] at hpins
  simp only [hrole] at hpins
  constructor
  · rintro ⟨howned, -⟩ pin hmem
    rw [hpins, List.forall_mem_map] at howned
    have hpin := howned pin hmem
    unfold configuredBy at hpin
    unfold Gen2PinConfig.OwnedBy at hpin ⊢
    grind
  · intro hall
    refine ⟨?_, fun pin hmem howned h1 h2 => ?_⟩
    · rw [hpins, List.forall_mem_map]
      intro pin hmem
      have hpin := hall pin hmem
      unfold configuredBy
      unfold Gen2PinConfig.OwnedBy at hpin ⊢
      grind
    · rcases (hall pin hmem).1 howned with h | h
      · exact absurd h h1
      · exact absurd h h2

/-- From every reachable state, the successful configurations of a run give back the old pins
exactly when each of them comes to a device that owns no other pins, and to no pin that another
device owns. -/
theorem gives_back_iff {blank : Int32 → Hcsr04Device} {minorLeft : Int32 → Int32}
    {before : List SystemMove} {s : MiscSystem} {os : List (Option Int32)}
    (hrun : run systemMove (systemInit blank minorLeft) before = some (s, os))
    (moves : List SystemMove) :
    Along systemMove GivesBack s moves ↔ Along systemMove OwnsNoOther s moves := by
  refine along_reachable_congr ?_ hrun moves
  intro s move hinv
  unfold GivesBack OwnsNoOther
  split
  next process minor env param1 param2 =>
    simp only [systemMove_success_iff hinv]
    constructor
    · intro h hsucceeds
      exact (oldPinsFree_iff hinv hsucceeds.accepted hsucceeds.grants).mp (h _ ⟨hsucceeds, rfl⟩)
    · rintro h s' ⟨hsucceeds, rfl⟩
      exact (oldPinsFree_iff hinv hsucceeds.accepted hsucceeds.grants).mpr (h hsucceeds)
  next => exact Iff.rfl

/-- A process that configures pins 3 and 2 of an open device. -/
def configureTwice (param1 param2 : Int32) : List SystemMove :=
  [.call 1 (5, .openFile), .call 1 (5, .configPins grantAll 3 2),
    .call 1 (5, .configPins grantAll param1 param2)]

instance (pin : Gen2PinConfig) (minor : Int32) : Decidable (pin.OwnedBy minor) :=
  inferInstanceAs (Decidable (_ ∧ _))

/-- The same two pins again, with their roles. -/
theorem gives_back_iff_same : ∃ s os,
    run systemMove (systemInit (fun _ => blankDevice) fun _ => 0) ((configureTwice 3 2).take 2) =
      some (s, os) ∧
    Along systemMove GivesBack s [.call 1 (5, .configPins grantAll 3 2)] := by
  obtain ⟨s, os, hrun, hown⟩ : ∃ s os,
      run systemMove (systemInit (fun _ => blankDevice) fun _ => 0)
        ((configureTwice 3 2).take 2) = some (s, os) ∧
      ∀ pin ∈ s.driver.pins,
        (pin.OwnedBy 5 → 3 = pin.galileoPin ∨ 2 = pin.galileoPin) ∧
        (3 = pin.galileoPin ∨ 2 = pin.galileoPin → pin.isPinConfigured ≠ 0 →
          pin.deviceMinorNumber = 5) := ⟨_, _, rfl, by decide⟩
  exact ⟨s, os, hrun, (gives_back_iff hrun _).mpr ⟨fun _ => hown, fun _ _ _ => trivial⟩⟩

/-- After pins 5 and 4 the device still owns pins 3 and 2. -/
theorem not_gives_back : ¬ ∀ (blank : Int32 → Hcsr04Device) (minorLeft : Int32 → Int32)
    (moves : List SystemMove), Along systemMove GivesBack (systemInit blank minorLeft) moves := by
  intro hall
  obtain ⟨s, os, hrun, howned⟩ : ∃ s os,
      run systemMove (systemInit (fun _ => blankDevice) fun _ => 0) ((configureTwice 5 4).take 2) =
        some (s, os) ∧
      ∃ s', systemMove s (.call 1 (5, .configPins grantAll 5 4)) = some (s', some SUCCESS) ∧
        ∃ pin ∈ s'.driver.pins, pin.OwnedBy 5 ∧
          ¬ (5 = pin.galileoPin ∨ 4 = pin.galileoPin) := ⟨_, _, rfl, _, rfl, by decide⟩
  obtain ⟨s', hmove, pin, hmem, hown, hother⟩ := howned
  have hlast := (hall (fun _ => blankDevice) (fun _ => 0) ((configureTwice 5 4).take 2 ++
    [.call 1 (5, .configPins grantAll 5 4)])).of_append _ hrun
  exact hother (((hlast.1 s' hmove).owned pin hmem).mp hown)

/-! ## The roles -/

/-- The direction the driver set a line to last: `true` is output. -/
def directionOf (line : Int32) : List KernelCall → Option Bool
  | [] => none
  | .gpioDirectionOutput pin _ :: calls =>
    if pin = line then some true else directionOf line calls
  | .gpioDirectionInput pin :: calls =>
    if pin = line then some false else directionOf line calls
  | _ :: calls => directionOf line calls

/-- After a configuration the trigger line is that of the first pin and an output, the echo line
is that of the second pin and an input, and the interrupt is claimed for the echo line. -/
structure RolesWired (env : KernelEnv) (minor param1 param2 : Int32) (s : MiscDriver) : Prop where
  trigger : ∃ pin ∈ s.pins, pin.galileoPin = param1 ∧
    (s.device minor).irqData.irqTriggerPin = pin.linuxGpioPin ∧
    directionOf pin.linuxGpioPin s.calls = some true
  echo : ∃ pin ∈ s.pins, pin.galileoPin = param2 ∧
    (s.device minor).irqData.irqEchoPin = pin.linuxGpioPin ∧
    directionOf pin.linuxGpioPin s.calls = some false ∧
    (s.device minor).irqData.irqNo = env.gpioToIrq pin.linuxGpioPin ∧
    (minor, (s.device minor).irqData.irqNo) ∈ heldIrqs s.calls

/-- The move is no successful `CONFIG_PINS`, or both roles are wired after it. -/
def WiresRoles (s : MiscSystem) : SystemMove → Prop
  | .call process (minor, .configPins env param1 param2) =>
    ∀ s', systemMove s (.call process (minor, .configPins env param1 param2)) =
      some (s', some SUCCESS) → RolesWired env minor param1 param2 s'.driver
  | _ => True

/-- A `CONFIG_PINS` that succeeds asks for two different pins. -/
def TwoPins (s : MiscSystem) : SystemMove → Prop
  | .call process (minor, .configPins env param1 param2) =>
    Succeeds s process minor env param1 param2 → param1 ≠ param2
  | _ => True

@[simp] theorem directionOf_gpioFree (line pin : Int32) (calls : List KernelCall) :
    directionOf line (.gpioFree pin :: calls) = directionOf line calls := rfl

@[simp] theorem directionOf_gpioFreeUnlessNone (line pin : Int32) (calls : List KernelCall) :
    directionOf line (gpioFreeUnlessNone pin calls) = directionOf line calls := by
  unfold gpioFreeUnlessNone
  split <;> rfl

theorem directionOf_pinConfig_other {line pin : Int32} (hne : pin ≠ line) (env : KernelEnv)
    (ioFlag : Int32) (val configure : Bool) (calls : List KernelCall) :
    directionOf line (pinConfig env pin ioFlag val configure calls).1 = directionOf line calls := by
  have hrequest : directionOf line
      (if configure then .gpioRequest pin (env.gpioRequest pin) :: calls else calls) =
      directionOf line calls := by
    split <;> rfl
  unfold pinConfig
  dsimp only
  split_ifs <;> simp_all [directionOf]

theorem directionOf_pinConfigUnlessNone_other {line pin : Int32} (hne : line ∉ optLine pin)
    (env : KernelEnv) (ioFlag : Int32) (val configure : Bool) (calls : List KernelCall) :
    directionOf line (pinConfigUnlessNone env pin ioFlag val configure calls).1 =
      directionOf line calls := by
  unfold pinConfigUnlessNone
  split
  next hpin =>
    have hpin' : pin ≠ line := by
      rintro rfl
      exact hne (by simp [optLine, hpin])
    exact directionOf_pinConfig_other hpin' ..
  next => rfl

theorem directionOf_pinConfig_self {line : Int32} (hlow : line < 64) (env : KernelEnv)
    (ioFlag : Int32) (val configure : Bool) (calls : List KernelCall)
    (hret : (pinConfig env line ioFlag val configure calls).2 = 0) :
    directionOf line (pinConfig env line ioFlag val configure calls).1 =
      some (decide (ioFlag ≠ 0)) := by
  unfold pinConfig at hret ⊢
  dsimp only at hret ⊢
  split_ifs at hret ⊢ <;> simp_all [directionOf]

theorem nodup_lines {pin : Gen2PinConfig} (h : pin.lines.Nodup) :
    pin.linuxGpioPin ∉ optLine pin.levelShifterPin ∧ pin.linuxGpioPin ∉ optLine pin.pinmux1 ∧
      pin.linuxGpioPin ∉ optLine pin.pinmux2 := by
  have hlinux := (List.nodup_cons.mp h).1
  simpa only [List.mem_append, not_or, and_assoc] using hlinux

/-- A record that is granted its lines sets the direction of its linux line. -/
theorem directionOf_configureRecord {pin : Gen2PinConfig} (hnodup : pin.lines.Nodup)
    (hlow : pin.linuxGpioPin < 64) (env : KernelEnv) (minor ioFlag : Int32)
    (calls : List KernelCall) (hsome : (configureRecord env minor ioFlag pin calls).2.isSome) :
    directionOf pin.linuxGpioPin (configureRecord env minor ioFlag pin calls).1 =
      some (decide (ioFlag ≠ 0)) := by
  obtain ⟨hlevel, hmux1, hmux2⟩ := nodup_lines hnodup
  have hlevel' := directionOf_pinConfigUnlessNone_other hlevel
  have hmux1' := directionOf_pinConfigUnlessNone_other hmux1
  have hmux2' := directionOf_pinConfigUnlessNone_other hmux2
  have hself := fun configure => directionOf_pinConfig_self hlow env ioFlag false configure calls
  simp only [configureRecord, updatePin, configureNewPin] at hsome ⊢
  split_ifs at hsome ⊢
  all_goals first
    | exact absurd hsome Bool.false_ne_true
    | simp only [hlevel', hmux1', hmux2']
      exact hself _ (not_not.mp ‹_›)

/-- The other lines keep their direction. -/
theorem directionOf_configureRecord_other {line : Int32} {pin : Gen2PinConfig}
    (hline : line ∉ pin.lines) (env : KernelEnv) (minor ioFlag : Int32) (calls : List KernelCall) :
    directionOf line (configureRecord env minor ioFlag pin calls).1 = directionOf line calls := by
  simp only [Gen2PinConfig.lines, List.mem_cons, List.mem_append, not_or, and_assoc] at hline
  obtain ⟨hlinux, hlevel, hmux1, hmux2⟩ := hline
  have hlinux' := directionOf_pinConfig_other (Ne.symm hlinux)
  have hlevel' := directionOf_pinConfigUnlessNone_other hlevel
  have hmux1' := directionOf_pinConfigUnlessNone_other hmux1
  have hmux2' := directionOf_pinConfigUnlessNone_other hmux2
  simp only [configureRecord, updatePin, configureNewPin]
  split_ifs <;> simp [hlinux', hlevel', hmux1', hmux2']

theorem directionOf_wirePin (line : Int32) (env : KernelEnv) (device : Hcsr04Device)
    (ioFlag : Int32) (pin : Gen2PinConfig) (calls : List KernelCall) :
    directionOf line (wirePin env device ioFlag pin calls).1 = directionOf line calls := by
  simp only [wirePin, configureInterrupt]
  split_ifs <;> rfl

theorem configurePin_calls (env : KernelEnv) (device : Hcsr04Device) (pin : Gen2PinConfig)
    (calls : List KernelCall) (line : Int32) :
    directionOf line (configurePin env device pin calls).1 = directionOf line
      (configureRecord env device.miscMinor (ioFlagOf device pin) pin calls).1 := by
  rcases hr : configureRecord env device.miscMinor (ioFlagOf device pin) pin calls with
    ⟨calls₁, _ | pin₁⟩
  · rw [configurePin_none hr]
  · rw [configurePin_some hr]
    exact directionOf_wirePin ..

theorem directionOf_configurePins_other {line : Int32} {pins : List Gen2PinConfig}
    (hline : ∀ pin ∈ pins, line ∉ pin.lines) (env : KernelEnv) (device : Hcsr04Device)
    (calls : List KernelCall) :
    directionOf line (configurePins env pins device calls).1 = directionOf line calls := by
  induction pins generalizing device calls with
  | nil => rfl
  | cons pin rest ih =>
    obtain ⟨hpin, hrest⟩ := List.forall_mem_cons.mp hline
    have hhead : directionOf line (configurePin env device pin calls).1 =
        directionOf line calls := by
      rw [configurePin_calls, directionOf_configureRecord_other hpin]
    simp only [configurePins]
    split
    · split
      · exact hhead
      · exact (ih hrest _ _).trans hhead
    · exact ih hrest device calls

/-- A successful `configure_pins` leaves an echo pin as an input and a trigger pin as an output. -/
theorem directionOf_configurePins {env : KernelEnv} {pins : List Gen2PinConfig}
    {device : Hcsr04Device} (hnodup : (pins.flatMap Gen2PinConfig.lines).Nodup)
    (hlow : ∀ pin ∈ pins, pin.linuxGpioPin < 64) (hgrants : Grants env device pins)
    (calls : List KernelCall) {pin : Gen2PinConfig} (hmem : pin ∈ pins)
    (hrole : HasRole device pin) :
    directionOf pin.linuxGpioPin (configurePins env pins device calls).1 =
      some (decide (ioFlagOf device pin ≠ 0)) := by
  induction pins generalizing device calls with
  | nil => cases hmem
  | cons head rest ih =>
    rw [List.flatMap_cons, List.nodup_append] at hnodup
    obtain ⟨hhead, hrest, hdistinct⟩ := hnodup
    obtain ⟨hgrantsHead, hgrantsRest⟩ := List.forall_mem_cons.mp hgrants
    obtain ⟨hlowHead, hlowRest⟩ := List.forall_mem_cons.mp hlow
    rcases List.mem_cons.mp hmem with rfl | hmem
    · have hgranted := hgrantsHead hrole
      have hret := (configurePin_granted env device pin calls).1.mpr hgranted
      have hother : ∀ pin' ∈ rest, pin.linuxGpioPin ∉ pin'.lines := fun pin' hmem' hline =>
        hdistinct _ List.mem_cons_self _ (List.mem_flatMap.mpr ⟨pin', hmem', hline⟩) rfl
      have hsome :
          (configureRecord env device.miscMinor (ioFlagOf device pin) pin calls).2.isSome := by
        rw [configureRecord_granted]
        have hlines := hgranted.1
        grind
      simp only [configurePins, if_pos (show _ ∨ _ from hrole), if_neg hret]
      rw [directionOf_configurePins_other hother, configurePin_calls,
        directionOf_configureRecord hhead hlowHead _ _ _ _ hsome]
    · simp only [configurePins]
      split
      next hroleHead =>
        have hret := (configurePin_granted env device head calls).1.mpr (hgrantsHead hroleHead)
        obtain ⟨irqData, hdevice⟩ := configurePin_device env device head calls
        rw [if_neg hret]
        have hgrants' : Grants env { device with irqData } rest := hgrantsRest
        change directionOf _
          (configurePins env rest (configurePin env device head calls).2.1 _).1 = _
        rw [hdevice]
        exact ih hrest hlowRest hgrants' _ hmem hrole
      next => exact ih hrest hlowRest hgrantsRest calls hmem hrole

/-! ## The second result -/

/-- After a success the lines of the two pins have the directions of their roles. -/
theorem directionOf_configPinsIoctl {s : MiscDriver} (hinv : ConfigInv s) {env : KernelEnv}
    {minor param1 param2 : Int32} (haccepted : ¬ Refused param1 param2)
    (hgrants : Grants env (requested (s.device minor) param1 param2) s.pins) {pin : Gen2PinConfig}
    (hmem : pin ∈ s.pins) (hrole : HasRole (requested (s.device minor) param1 param2) pin) :
    directionOf pin.linuxGpioPin (configPinsIoctl env minor param1 param2 s).1.calls =
      some (decide (param2 ≠ pin.galileoPin)) := by
  have hgrants' : Grants env
      (requested (releaseInterrupt (s.device minor) s.calls).2 param1 param2) s.pins := hgrants
  have hdirection := directionOf_configurePins hinv.lines hinv.low hgrants'
    (releaseInterrupt (s.device minor) s.calls).1 hmem hrole
  rw [configPinsIoctl, if_neg (show ¬ (_ ∨ _) from haccepted)]
  refine hdirection.trans ?_
  by_cases hecho : param2 = pin.galileoPin
  · simp [ioFlagOf, requested, hecho]
  · simp [ioFlagOf, requested, hecho]

theorem ConfigInv.exists_record {s : MiscDriver} (hinv : ConfigInv s) {param : Int32}
    (hmin : ¬ param < 0) (hmax : ¬ param > 12) : ∃ pin ∈ s.pins, pin.galileoPin = param := by
  have hmem := mem_boardPins hmin hmax
  rw [← hinv.records] at hmem
  exact List.mem_map.mp hmem

/-- A successful configuration of two different pins wires both roles. -/
theorem rolesWired_of_ne {s : MiscDriver} (hinv : ConfigInv s) {env : KernelEnv}
    {minor param1 param2 : Int32} (haccepted : ¬ Refused param1 param2)
    (hgrants : Grants env (requested (s.device minor) param1 param2) s.pins)
    (hne : param1 ≠ param2) :
    RolesWired env minor param1 param2 (configPinsIoctl env minor param1 param2 s).1 := by
  obtain ⟨hpins, hdevice, -, hheld⟩ := configPinsIoctl_spec env (hinv.echo minor) haccepted
  have hdirection := fun {pin : Gen2PinConfig} => @directionOf_configPinsIoctl s hinv env minor
    param1 param2 haccepted hgrants pin
  rw [recordsAfter_of_grants hgrants] at hpins
  rw [grantedRecords_of_grants hgrants] at hdevice hheld
  simp only [Refused, not_or] at haccepted
  obtain ⟨hmin1, hmax1, hmin2, hmax2, -⟩ := haccepted
  have hrecord : ∀ pin ∈ s.pins, ∃ pin' ∈ (configPinsIoctl env minor param1 param2 s).1.pins,
      pin'.galileoPin = pin.galileoPin ∧ pin'.linuxGpioPin = pin.linuxGpioPin := by
    intro pin hmem
    rw [hpins]
    refine ⟨_, List.mem_map_of_mem hmem, ?_⟩
    unfold configuredBy
    split_ifs <;> exact ⟨rfl, rfl⟩
  constructor
  · rcases foldl_wired_trigger env (requested (s.device minor) param1 param2)
      (s.pins.filter (HasRole (requested (s.device minor) param1 param2) ·))
      { (s.device minor).irqData with irqNo := NO_VALUE } with
      ⟨pin, hmem, htrigger, hecho, hline⟩ | ⟨hall, -⟩
    · obtain ⟨hpin, hrole⟩ := List.mem_filter.mp hmem
      obtain ⟨pin', hmem', hgalileo, hlinux⟩ := hrecord pin hpin
      refine ⟨pin', hmem', hgalileo.trans htrigger.symm, ?_, ?_⟩
      · rw [hdevice, hlinux]
        exact hline
      · rw [hlinux, hdirection hpin (of_decide_eq_true hrole)]
        exact congrArg some (decide_eq_true hecho)
    · obtain ⟨pin, hpin, rfl⟩ := hinv.exists_record hmin1 hmax1
      have hrole : HasRole (requested (s.device minor) pin.galileoPin param2) pin := .inl rfl
      exact absurd (hall pin (List.mem_filter.mpr ⟨hpin, decide_eq_true hrole⟩) rfl).symm hne
  · rcases foldl_wired_echo env (requested (s.device minor) param1 param2)
      (s.pins.filter (HasRole (requested (s.device minor) param1 param2) ·))
      { (s.device minor).irqData with irqNo := NO_VALUE } with
      ⟨pin, hmem, hecho, hirq, hline⟩ | ⟨hall, -⟩
    · obtain ⟨hpin, hrole⟩ := List.mem_filter.mp hmem
      obtain ⟨pin', hmem', hgalileo, hlinux⟩ := hrecord pin hpin
      refine ⟨pin', hmem', hgalileo.trans hecho.symm, ?_, ?_, ?_, ?_⟩
      · rw [hdevice, hlinux]
        exact hline
      · rw [hlinux, hdirection hpin (of_decide_eq_true hrole)]
        exact congrArg some (decide_eq_false (not_not.mpr hecho))
      · rw [hdevice, hlinux]
        exact hirq
      · refine (hheld _).mpr (.inr ⟨pin, hmem, hecho, ?_⟩)
        rw [hdevice, hinv.minors]
        exact congrArg _ hirq
    · obtain ⟨pin, hpin, rfl⟩ := hinv.exists_record hmin2 hmax2
      have hrole : HasRole (requested (s.device minor) param1 pin.galileoPin) pin := .inr rfl
      exact absurd rfl (hall pin (List.mem_filter.mpr ⟨hpin, decide_eq_true hrole⟩))

theorem ConfigInv.nodup {s : MiscDriver} (hinv : ConfigInv s) :
    (s.pins.map Gen2PinConfig.galileoPin).Nodup := by
  rw [hinv.records]
  decide

/-- One line is not an output and an input. -/
theorem RolesWired.ne {s : MiscDriver} (hinv : ConfigInv s) {env : KernelEnv}
    {minor param1 param2 : Int32} (h : RolesWired env minor param1 param2 s) : param1 ≠ param2 := by
  rintro rfl
  obtain ⟨pin, hmem, hpin, -, houtput⟩ := h.trigger
  obtain ⟨pin', hmem', hpin', -, hinput, -⟩ := h.echo
  obtain rfl := List.inj_on_of_nodup_map hinv.nodup hmem hmem' (hpin.trans hpin'.symm)
  rw [houtput] at hinput
  cases hinput

/-- From every reachable state, the successful configurations of a run wire both roles exactly
when each of them asks for two different pins. -/
theorem wires_roles_iff {blank : Int32 → Hcsr04Device} {minorLeft : Int32 → Int32}
    {before : List SystemMove} {s : MiscSystem} {os : List (Option Int32)}
    (hrun : run systemMove (systemInit blank minorLeft) before = some (s, os))
    (moves : List SystemMove) :
    Along systemMove WiresRoles s moves ↔ Along systemMove TwoPins s moves := by
  refine along_reachable_congr ?_ hrun moves
  intro s move hinv
  unfold WiresRoles TwoPins
  split
  next process minor env param1 param2 =>
    simp only [systemMove_success_iff hinv]
    constructor
    · intro h hsucceeds
      exact (h _ ⟨hsucceeds, rfl⟩).ne (hinv.configPins env minor param1 param2)
    · rintro h s' ⟨hsucceeds, rfl⟩
      exact rolesWired_of_ne hinv hsucceeds.accepted hsucceeds.grants (h hsucceeds)
  next => exact Iff.rfl

/-- Pins 3 and 2, then 5 and 4. -/
theorem wires_roles_iff_twice :
    Along systemMove WiresRoles (systemInit (fun _ => blankDevice) fun _ => 0)
      (configureTwice 5 4) := by
  have hiff := @wires_roles_iff (fun _ => blankDevice) (fun _ => 0) [] _ [] rfl
    (configureTwice 5 4)
  exact hiff.mpr ⟨trivial, fun _ _ _ => ⟨fun _ => by decide, fun _ _ _ =>
    ⟨fun _ => by decide, fun _ _ _ => trivial⟩⟩⟩

/-- Pin 3 is accepted for both roles, and no line is noted for the trigger. -/
theorem not_wires_roles : ¬ ∀ (blank : Int32 → Hcsr04Device) (minorLeft : Int32 → Int32)
    (moves : List SystemMove), Along systemMove WiresRoles (systemInit blank minorLeft) moves := by
  intro hall
  obtain ⟨s, os, hrun, s', hmove, hunwired⟩ : ∃ s os,
      run systemMove (systemInit (fun _ => blankDevice) fun _ => 0)
        [.call 1 (5, .openFile)] = some (s, os) ∧
      ∃ s', systemMove s (.call 1 (5, .configPins grantAll 3 3)) = some (s', some SUCCESS) ∧
        ∀ pin ∈ s'.driver.pins, (s'.driver.device 5).irqData.irqTriggerPin ≠ pin.linuxGpioPin :=
    ⟨_, _, rfl, _, rfl, by decide⟩
  have hlast := (hall (fun _ => blankDevice) (fun _ => 0) ([.call 1 (5, .openFile)] ++
    [.call 1 (5, .configPins grantAll 3 3)])).of_append _ hrun
  obtain ⟨pin, hmem, -, hline, -⟩ := (hlast.1 s' hmove).trigger
  exact hunwired pin hmem hline

end KernelDrivers.Hcsr04
