import KernelDrivers.Hcsr04.Reconfigure

/-!
# Configurations that fail

`CONFIG_PINS` gives back the interrupt and writes the two pins before it asks for anything, and a
failure does not restore them. The records before the one that is refused stay configured and
wired. So a failure changes nothing only when the device asks for the pins it has, and what it is
granted is what it has already.
-/

namespace KernelDrivers.Hcsr04
open Lib

/-! ## The property and its condition -/

/-- The configuration of the device is what it was: its fields, its interrupt and its pins. -/
structure SameConfiguration (minor : Int32) (s s' : MiscDriver) : Prop where
  triggerPin : (s'.device minor).triggerPin = (s.device minor).triggerPin
  echoPin : (s'.device minor).echoPin = (s.device minor).echoPin
  arePinsConfigured : (s'.device minor).arePinsConfigured = (s.device minor).arePinsConfigured
  irqNo : (s'.device minor).irqData.irqNo = (s.device minor).irqData.irqNo
  irqTriggerPin : (s'.device minor).irqData.irqTriggerPin = (s.device minor).irqData.irqTriggerPin
  irqEchoPin : (s'.device minor).irqData.irqEchoPin = (s.device minor).irqData.irqEchoPin
  irqs : ∀ irq, (minor, irq) ∈ heldIrqs s'.calls ↔ (minor, irq) ∈ heldIrqs s.calls
  pins : ∀ galileoPin, Owns s'.pins minor galileoPin ↔ Owns s.pins minor galileoPin

/-- The move is no `CONFIG_PINS` that fails, or it leaves the configuration what it was. -/
def FailsAtomically (s : MiscSystem) : SystemMove → Prop
  | .call process (minor, .configPins env param1 param2) =>
    ∀ s', systemMove s (.call process (minor, .configPins env param1 param2)) =
      some (s', some EINVAL) → SameConfiguration minor s.driver s'.driver
  | _ => True

/-- The device asks for the pins it has. No record that the call comes to is new and granted its
lines, and the records that are granted are wired as the device has it: the echo record with the
interrupt that the device has, and without one the device has none. -/
structure HasItAlready (env : KernelEnv) (minor param1 param2 : Int32) (s : MiscDriver) :
    Prop where
  triggerPin : (s.device minor).triggerPin = param1
  echoPin : (s.device minor).echoPin = param2
  lines : ∀ pin ∈ reachedRecords env (requested (s.device minor) param1 param2) s.pins,
    pin.isPinConfigured ≠ 0 ∨ ¬ ∀ line ∈ pin.lines, env.grants line = true
  trigger : ∀ pin ∈ grantedRecords env (requested (s.device minor) param1 param2) s.pins,
    param1 = pin.galileoPin → param2 ≠ pin.galileoPin →
      (s.device minor).irqData.irqTriggerPin = pin.linuxGpioPin
  echo : ∀ pin ∈ grantedRecords env (requested (s.device minor) param1 param2) s.pins,
    param2 = pin.galileoPin →
      (s.device minor).irqData.irqNo = env.gpioToIrq pin.linuxGpioPin ∧
        (s.device minor).irqData.irqEchoPin = pin.linuxGpioPin
  noEcho : (∀ pin ∈ grantedRecords env (requested (s.device minor) param1 param2) s.pins,
    param2 ≠ pin.galileoPin) → (s.device minor).irqData.irqNo = NO_VALUE

/-- A `CONFIG_PINS` with accepted pins that the kernel does not grant comes to a device that has
it already. -/
def AsksForNothingNew (s : MiscSystem) : SystemMove → Prop
  | .call process (minor, .configPins env param1 param2) =>
    (process, minor) ∈ s.files → ¬ Refused param1 param2 →
      ¬ Grants env (requested (s.driver.device minor) param1 param2) s.driver.pins →
      HasItAlready env minor param1 param2 s.driver
  | _ => True

/-! ## The pins of the device -/

theorem recordAfter_eq_self_iff {env : KernelEnv} {minor : Int32} {pin : Gen2PinConfig} :
    recordAfter env minor pin = pin ↔
      pin.isPinConfigured ≠ 0 ∨ ¬ ∀ line ∈ pin.lines, env.grants line = true := by
  by_cases hset : pin.isPinConfigured = 0
  · have hchanged : configuredBy minor pin ≠ pin := by
      rw [configuredBy, if_neg (not_not.mpr hset)]
      intro heq
      have hone : (1 : Int32) = 0 := (congrArg Gen2PinConfig.isPinConfigured heq).trans hset
      exact absurd hone (by decide)
    unfold recordAfter LinesGranted
    grind
  · have hkept : configuredBy minor pin = pin := if_pos hset
    have hlines : LinesGranted env pin := fun hzero => absurd hzero hset
    rw [recordAfter, if_pos hlines, hkept]
    exact iff_of_true rfl (.inl hset)

theorem recordsAfter_eq_self {env : KernelEnv} {device : Hcsr04Device} {pins : List Gen2PinConfig}
    (h : ∀ pin ∈ reachedRecords env device pins, recordAfter env device.miscMinor pin = pin) :
    recordsAfter env device pins = pins := by
  induction pins with
  | nil => rfl
  | cons pin rest ih =>
    rw [reachedRecords_cons] at h
    rw [recordsAfter]
    split_ifs at h ⊢
    · obtain ⟨hpin, hrest⟩ := List.forall_mem_cons.mp h
      rw [hpin, ih hrest]
    · rw [h pin List.mem_cons_self]
    · rw [ih h]

theorem mem_recordsAfter {env : KernelEnv} {device : Hcsr04Device} {pins : List Gen2PinConfig}
    {pin : Gen2PinConfig} (h : pin ∈ reachedRecords env device pins) :
    pin ∈ pins ∧ recordAfter env device.miscMinor pin ∈ recordsAfter env device pins := by
  induction pins with
  | nil => cases h
  | cons head rest ih =>
    rw [reachedRecords_cons] at h
    rw [recordsAfter]
    split_ifs at h ⊢
    · rcases List.mem_cons.mp h with rfl | h
      · exact ⟨List.mem_cons_self, List.mem_cons_self⟩
      · exact (ih h).imp (List.mem_cons_of_mem _) (List.mem_cons_of_mem _)
    · obtain rfl := List.mem_singleton.mp h
      exact ⟨List.mem_cons_self, List.mem_cons_self⟩
    · exact (ih h).imp (List.mem_cons_of_mem _) (List.mem_cons_of_mem _)

/-- The device owns the same pins exactly when no record was configured. -/
theorem owns_recordsAfter_iff {env : KernelEnv} {device : Hcsr04Device}
    {pins : List Gen2PinConfig} (hnodup : (pins.map Gen2PinConfig.galileoPin).Nodup) :
    (∀ galileoPin, Owns (recordsAfter env device pins) device.miscMinor galileoPin ↔
        Owns pins device.miscMinor galileoPin) ↔
      ∀ pin ∈ reachedRecords env device pins,
        pin.isPinConfigured ≠ 0 ∨ ¬ ∀ line ∈ pin.lines, env.grants line = true := by
  constructor
  · intro howns pin hreached
    by_contra hnew
    rw [not_or, not_not, not_not] at hnew
    obtain ⟨hzero, hlines⟩ := hnew
    obtain ⟨hmem, hafter⟩ := mem_recordsAfter hreached
    have hgranted : LinesGranted env pin := fun _ => hlines
    have hrecord : recordAfter env device.miscMinor pin =
        { pin with isPinConfigured := 1, deviceMinorNumber := device.miscMinor } := by
      rw [recordAfter, if_pos hgranted, configuredBy, if_neg (not_not.mpr hzero)]
    rw [hrecord] at hafter
    obtain ⟨pin', hmem', hpin', hset, -⟩ := (howns pin.galileoPin).mp
      ⟨_, hafter, rfl, (by decide : (1 : Int32) ≠ 0), rfl⟩
    obtain rfl := List.inj_on_of_nodup_map hnodup hmem' hmem hpin'
    exact hset hzero
  · intro h galileoPin
    rw [recordsAfter_eq_self fun pin hmem => recordAfter_eq_self_iff.mpr (h pin hmem)]

/-! ## The wiring of the device -/

/-- Wired again, the device has its wiring exactly when the records wire it as it is. -/
theorem foldl_wired_eq_iff {env : KernelEnv} {device : Hcsr04Device} {pins : List Gen2PinConfig}
    (hinj : ∀ pin ∈ pins, ∀ pin' ∈ pins, pin.galileoPin = pin'.galileoPin → pin = pin')
    (irqData : Hcsr04IrqData) :
    ((pins.foldl (wired env device) { irqData with irqNo := NO_VALUE }).irqNo = irqData.irqNo ∧
      (pins.foldl (wired env device) { irqData with irqNo := NO_VALUE }).irqEchoPin =
        irqData.irqEchoPin ∧
      (pins.foldl (wired env device) { irqData with irqNo := NO_VALUE }).irqTriggerPin =
        irqData.irqTriggerPin) ↔
    (∀ pin ∈ pins, device.triggerPin = pin.galileoPin → device.echoPin ≠ pin.galileoPin →
      irqData.irqTriggerPin = pin.linuxGpioPin) ∧
    (∀ pin ∈ pins, device.echoPin = pin.galileoPin →
      irqData.irqNo = env.gpioToIrq pin.linuxGpioPin ∧ irqData.irqEchoPin = pin.linuxGpioPin) ∧
    ((∀ pin ∈ pins, device.echoPin ≠ pin.galileoPin) → irqData.irqNo = NO_VALUE) := by
  have htrigger := foldl_wired_trigger env device pins { irqData with irqNo := NO_VALUE }
  have hecho := foldl_wired_echo env device pins { irqData with irqNo := NO_VALUE }
  generalize pins.foldl (wired env device) { irqData with irqNo := NO_VALUE } = after
    at htrigger hecho ⊢
  constructor
  · rintro ⟨hirq, hline, htriggerLine⟩
    refine ⟨fun pin hmem h1 h2 => ?_, fun pin hmem h2 => ?_, fun hnone => ?_⟩
    · rcases htrigger with ⟨pin', hmem', h1', -, hset⟩ | ⟨hall, -⟩
      · obtain rfl := hinj pin hmem pin' hmem' (h1.symm.trans h1')
        exact htriggerLine.symm.trans hset
      · exact absurd (hall pin hmem h1) h2
    · rcases hecho with ⟨pin', hmem', h2', hirq', hline'⟩ | ⟨hall, -⟩
      · obtain rfl := hinj pin hmem pin' hmem' (h2.symm.trans h2')
        exact ⟨hirq.symm.trans hirq', hline.symm.trans hline'⟩
      · exact absurd h2 (hall pin hmem)
    · rcases hecho with ⟨pin', hmem', h2', -⟩ | ⟨-, hirq', -⟩
      · exact absurd h2' (hnone pin' hmem')
      · exact hirq.symm.trans hirq'
  · rintro ⟨hsame, hsameEcho, hnone⟩
    refine ⟨?_, ?_, ?_⟩
    · rcases hecho with ⟨pin, hmem, h2, hirq, -⟩ | ⟨hall, hirq, -⟩
      · exact hirq.trans (hsameEcho pin hmem h2).1.symm
      · exact hirq.trans (hnone hall).symm
    · rcases hecho with ⟨pin, hmem, h2, -, hline⟩ | ⟨-, -, hline⟩
      · exact hline.trans (hsameEcho pin hmem h2).2.symm
      · exact hline
    · rcases htrigger with ⟨pin, hmem, h1, h2, hline⟩ | ⟨-, hline⟩
      · exact hline.trans (hsame pin hmem h1 h2).symm
      · exact hline

/-! ## The main result -/

theorem ConfigInv.granted_inj {s : MiscDriver} (hinv : ConfigInv s) {env : KernelEnv}
    {device : Hcsr04Device} : ∀ pin ∈ grantedRecords env device s.pins,
      ∀ pin' ∈ grantedRecords env device s.pins, pin.galileoPin = pin'.galileoPin → pin = pin' :=
  fun _ hmem _ hmem' heq => List.inj_on_of_nodup_map hinv.nodup (mem_grantedRecords hmem).1
    (mem_grantedRecords hmem').1 heq

/-- Where the wiring stays, so do the interrupts: the one that was given back is claimed again. -/
theorem heldIrqs_of_same {s s' : MiscDriver} (hinv : ConfigInv s) {env : KernelEnv}
    {minor param1 param2 ret : Int32} (hspec : ConfigPinsSpec env minor param1 param2 s s' ret)
    (hecho : ∀ pin ∈ grantedRecords env (requested (s.device minor) param1 param2) s.pins,
      param2 = pin.galileoPin → (s.device minor).irqData.irqNo = env.gpioToIrq pin.linuxGpioPin)
    (hirq : (s'.device minor).irqData.irqNo = (s.device minor).irqData.irqNo) (irq : Int32) :
    (minor, irq) ∈ heldIrqs s'.calls ↔ (minor, irq) ∈ heldIrqs s.calls := by
  rw [hspec.heldIrqs, hinv.minors]
  constructor
  · rintro (⟨hmem, -⟩ | ⟨pin, hmem, h2, heq⟩)
    · exact hmem
    · have hgranted := (mem_grantedRecords hmem).2.2.2 h2
      have hvalue : (s.device minor).irqData.irqNo ≠ NO_VALUE := by
        rw [hecho pin hmem h2]
        intro he
        exact hgranted.1 (he ▸ by decide)
      rw [heq, ← hecho pin hmem h2]
      exact hinv.irqs minor hvalue
  · intro hmem
    by_cases hown : (s.device minor).irqData.irqNo ≠ NO_VALUE ∧
        irq = (s.device minor).irqData.irqNo
    · -- the interrupt of the device is freed, so a granted record claimed it
      obtain ⟨hvalue, rfl⟩ := hown
      rw [hspec.device] at hirq
      rcases foldl_wired_echo env (requested (s.device minor) param1 param2)
        (grantedRecords env (requested (s.device minor) param1 param2) s.pins)
        { (s.device minor).irqData with irqNo := NO_VALUE } with
        ⟨pin, hpin, h2, hset, -⟩ | ⟨-, hset, -⟩
      · exact .inr ⟨pin, hpin, h2, congrArg _ (hirq.symm.trans hset)⟩
      · exact absurd (hirq.symm.trans hset) hvalue
    · exact .inl ⟨hmem, fun hvalue heq => hown ⟨hvalue, (Prod.mk.inj heq).2⟩⟩

theorem sameConfiguration_iff {s : MiscDriver} (hinv : ConfigInv s) {env : KernelEnv}
    {minor param1 param2 : Int32} (haccepted : ¬ Refused param1 param2)
    (hfails : ¬ Grants env (requested (s.device minor) param1 param2) s.pins) :
    SameConfiguration minor s (configPinsIoctl env minor param1 param2 s).1 ↔
      HasItAlready env minor param1 param2 s := by
  have hspec := configPinsIoctl_spec env (hinv.echo minor) haccepted
  have hpins := hspec.pins
  have hdevice := hspec.device
  rw [if_neg hfails] at hdevice
  have howns := @owns_recordsAfter_iff env (requested (s.device minor) param1 param2) s.pins
    hinv.nodup
  have hminor : (requested (s.device minor) param1 param2).miscMinor = minor := hinv.minors minor
  have hwiring := @foldl_wired_eq_iff env (requested (s.device minor) param1 param2)
    (grantedRecords env (requested (s.device minor) param1 param2) s.pins) hinv.granted_inj
    (s.device minor).irqData
  rw [hminor, ← hpins] at howns
  constructor
  · intro h
    have hirq := h.irqNo
    have hecho := h.irqEchoPin
    have htrigger := h.irqTriggerPin
    have htriggerPin := h.triggerPin
    have hechoPin := h.echoPin
    rw [hdevice] at hirq hecho htrigger htriggerPin hechoPin
    obtain ⟨h1, h2, h3⟩ := hwiring.mp ⟨hirq, hecho, htrigger⟩
    exact ⟨htriggerPin.symm, hechoPin.symm, howns.mp h.pins, h1, h2, h3⟩
  · intro h
    obtain ⟨hirq, hecho, htrigger⟩ := hwiring.mpr ⟨h.trigger, h.echo, h.noEcho⟩
    have hirq' : ((configPinsIoctl env minor param1 param2 s).1.device minor).irqData.irqNo =
        (s.device minor).irqData.irqNo := by
      rw [hdevice]
      exact hirq
    refine ⟨?_, ?_, ?_, hirq', ?_, ?_, ?_, howns.mpr h.lines⟩
    · rw [hdevice]
      exact h.triggerPin.symm
    · rw [hdevice]
      exact h.echoPin.symm
    · rw [hdevice]
    · rw [hdevice]
      exact htrigger
    · rw [hdevice]
      exact hecho
    · exact heldIrqs_of_same hinv hspec (fun pin hmem h2 => (h.echo pin hmem h2).1) hirq'

theorem failsAtomically_iff {s : MiscSystem} (hinv : ConfigInv s.driver) (move : SystemMove) :
    FailsAtomically s move ↔ AsksForNothingNew s move := by
  unfold FailsAtomically AsksForNothingNew
  split
  next process minor env param1 param2 =>
    have hne : SUCCESS ≠ EINVAL := by decide
    rw [systemMove_configPins]
    split
    next hfile =>
      simp only [Option.some_inj, Prod.mk.injEq, hfile, forall_const]
      by_cases hrefused : Refused param1 param2
      · -- nothing is written before the pins are accepted
        rw [configPinsIoctl, if_pos (show _ ∨ _ from hrefused)]
        refine iff_of_true ?_ fun haccepted => absurd hrefused haccepted
        rintro s' ⟨rfl, -⟩
        exact ⟨rfl, rfl, rfl, rfl, rfl, rfl, fun _ => Iff.rfl, fun _ => Iff.rfl⟩
      · have hret := (configPinsIoctl_spec env (hinv.echo minor) hrefused).ret
        by_cases hgrants :
            Grants env (requested (s.driver.device minor) param1 param2) s.driver.pins
        · rw [if_pos hgrants] at hret
          rw [hret]
          exact iff_of_true (fun s' h => absurd h.2 hne) fun _ hfails => absurd hgrants hfails
        · rw [if_neg hgrants] at hret
          rw [hret]
          have hsame := sameConfiguration_iff hinv hrefused hgrants
          constructor
          · intro h _ _
            exact hsame.mp (h _ ⟨rfl, rfl⟩)
          · rintro h s' ⟨rfl, -⟩
            exact hsame.mpr (h hrefused hgrants)
    next hfile =>
      exact iff_of_true (fun s' h => absurd h (Option.some_ne_none _).symm)
        fun hopen => absurd hopen hfile
  next => exact Iff.rfl

/-- From every reachable state, the configurations of a run that fail change nothing exactly when
each of them comes to a device that has it already. -/
theorem fails_atomically_iff {blank : Int32 → Hcsr04Device} {minorLeft : Int32 → Int32}
    {before : List SystemMove} {s : MiscSystem} {os : List (Option Int32)}
    (hrun : run systemMove (systemInit blank minorLeft) before = some (s, os))
    (moves : List SystemMove) :
    Along systemMove FailsAtomically s moves ↔ Along systemMove AsksForNothingNew s moves :=
  along_reachable_congr (fun _ move hinv => failsAtomically_iff hinv move) hrun moves

/-- A kernel that grants every line and no interrupt. -/
def grantLines : KernelEnv := ⟨fun _ => 0, fun line => line, fun _ => EINVAL⟩

/-- The interrupt of pin 2 is refused, and refused again. -/
theorem fails_atomically_iff_again : ∃ s os,
    run systemMove (systemInit (fun _ => blankDevice) fun _ => 0)
      [.call 1 (5, .openFile), .call 1 (5, .configPins grantLines 3 2)] = some (s, os) ∧
    Along systemMove FailsAtomically s [.call 1 (5, .configPins grantLines 3 2)] ∧
    ∃ s', systemMove s (.call 1 (5, .configPins grantLines 3 2)) = some (s', some EINVAL) := by
  obtain ⟨s, os, hrun, hfirst, hsecond, hlines, htrigger, hecho, hno, hagain⟩ : ∃ s os,
      run systemMove (systemInit (fun _ => blankDevice) fun _ => 0)
        [.call 1 (5, .openFile), .call 1 (5, .configPins grantLines 3 2)] = some (s, os) ∧
      (s.driver.device 5).triggerPin = 3 ∧ (s.driver.device 5).echoPin = 2 ∧
      (∀ pin ∈ reachedRecords grantLines (requested (s.driver.device 5) 3 2) s.driver.pins,
        pin.isPinConfigured ≠ 0) ∧
      (∀ pin ∈ grantedRecords grantLines (requested (s.driver.device 5) 3 2) s.driver.pins,
        3 = pin.galileoPin → (s.driver.device 5).irqData.irqTriggerPin = pin.linuxGpioPin) ∧
      (∀ pin ∈ grantedRecords grantLines (requested (s.driver.device 5) 3 2) s.driver.pins,
        2 ≠ pin.galileoPin) ∧
      (s.driver.device 5).irqData.irqNo = NO_VALUE ∧
      ∃ s', systemMove s (.call 1 (5, .configPins grantLines 3 2)) = some (s', some EINVAL) :=
    ⟨_, _, rfl, by decide, by decide, by decide, by decide, by decide, by decide, _, rfl⟩
  refine ⟨s, os, hrun, (fails_atomically_iff hrun _).mpr ⟨fun _ _ _ => ?_, fun _ _ _ => trivial⟩,
    hagain⟩
  exact ⟨hfirst, hsecond, fun pin hmem => .inl (hlines pin hmem),
    fun pin hmem h1 _ => htrigger pin hmem h1, fun pin hmem h2 => absurd h2 (hecho pin hmem),
    fun _ => hno⟩

/-- After pins 3 and 2, pins 5 and 4 without the interrupt of pin 4: the device has no interrupt
and other pins. -/
theorem not_fails_atomically : ¬ ∀ (blank : Int32 → Hcsr04Device) (minorLeft : Int32 → Int32)
    (moves : List SystemMove),
    Along systemMove FailsAtomically (systemInit blank minorLeft) moves := by
  intro hall
  obtain ⟨s, os, hrun, hhad, s', hmove, hhas⟩ : ∃ s os,
      run systemMove (systemInit (fun _ => blankDevice) fun _ => 0) ((configureTwice 5 4).take 2) =
        some (s, os) ∧ (s.driver.device 5).triggerPin = 3 ∧
      ∃ s', systemMove s (.call 1 (5, .configPins grantLines 5 4)) = some (s', some EINVAL) ∧
        (s'.driver.device 5).triggerPin = 5 := ⟨_, _, rfl, by decide, _, rfl, by decide⟩
  have hlast := (hall (fun _ => blankDevice) (fun _ => 0) ((configureTwice 5 4).take 2 ++
    [.call 1 (5, .configPins grantLines 5 4)])).of_append _ hrun
  have hsame := (hlast.1 s' hmove).triggerPin
  rw [hhad, hhas] at hsame
  exact absurd hsame (by decide)

end KernelDrivers.Hcsr04
