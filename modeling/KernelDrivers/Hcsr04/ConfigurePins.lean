import KernelDrivers.Hcsr04.PinSharing
import KernelDrivers.Hcsr04.SecondOpen
import Mathlib.Data.List.TakeWhile

/-!
# What a configuration leaves

`configure_pins` goes over the records and stops at the first one that the kernel does not grant.
The records before it are configured and wired, also when the call fails. At the record it stops
at, the lines may be configured already although the interrupt is refused.
-/

namespace KernelDrivers.Hcsr04
open Lib

/-! ## At one record -/

/-- The kernel grants the lines of the record, or they are not asked for. -/
def LinesGranted (env : KernelEnv) (pin : Gen2PinConfig) : Prop :=
  pin.isPinConfigured = 0 → ∀ line ∈ pin.lines, env.grants line = true

instance (env : KernelEnv) (pin : Gen2PinConfig) : Decidable (LinesGranted env pin) :=
  inferInstanceAs (Decidable (_ → ∀ line ∈ pin.lines, _))

/-- The record after the call stopped or passed there. -/
def recordAfter (env : KernelEnv) (minor : Int32) (pin : Gen2PinConfig) : Gen2PinConfig :=
  if LinesGranted env pin then configuredBy minor pin else pin

/-- What a record of one of the two pins leaves in the interrupt data when it is granted. -/
def wired (env : KernelEnv) (device : Hcsr04Device) (irqData : Hcsr04IrqData)
    (pin : Gen2PinConfig) : Hcsr04IrqData :=
  if device.echoPin = pin.galileoPin then
    { irqData with irqNo := env.gpioToIrq pin.linuxGpioPin, irqEchoPin := pin.linuxGpioPin }
  else if device.triggerPin = pin.galileoPin then
    { irqData with irqTriggerPin := pin.linuxGpioPin }
  else irqData

theorem configuredBy_linuxGpioPin (minor : Int32) (pin : Gen2PinConfig) :
    (configuredBy minor pin).linuxGpioPin = pin.linuxGpioPin := by
  unfold configuredBy
  split <;> rfl

/-- Wiring a record either fails and leaves the device as it is, or succeeds. -/
theorem wirePin_eq {env : KernelEnv} {device : Hcsr04Device} {pin : Gen2PinConfig}
    (hrole : HasRole device pin) (minor : Int32) (calls : List KernelCall) :
    (wirePin env device (ioFlagOf device pin) (configuredBy minor pin) calls).2.1 =
      if (wirePin env device (ioFlagOf device pin) (configuredBy minor pin) calls).2.2 = 0 then
        device
      else { device with irqData := wired env device device.irqData pin } := by
  have hline := configuredBy_linuxGpioPin minor pin
  by_cases hecho : device.echoPin = pin.galileoPin
  · have hio : ioFlagOf device pin = 0 := if_pos hecho
    simp only [wirePin, configureInterrupt, hio, hline, if_true, wired, hecho]
    split_ifs <;> simp_all
  · have hio : ioFlagOf device pin = 1 := if_neg hecho
    have htrigger : device.triggerPin = pin.galileoPin := hrole.resolve_right hecho
    simp [wirePin, hio, hline, wired, hecho, htrigger]

theorem configurePin_eq {env : KernelEnv} {device : Hcsr04Device} {pin : Gen2PinConfig}
    (hrole : HasRole device pin) (calls : List KernelCall) :
    (configurePin env device pin calls).2.2.1 = recordAfter env device.miscMinor pin ∧
      (configurePin env device pin calls).2.1 =
        if GrantsPin env device pin then
          { device with irqData := wired env device device.irqData pin }
        else device := by
  have hgrants := (configurePin_granted env device pin calls).1
  have hrecord := configureRecord_granted env device.miscMinor (ioFlagOf device pin) pin calls
  rcases hr : configureRecord env device.miscMinor (ioFlagOf device pin) pin calls with
    ⟨calls₁, _ | pin₁⟩
  · rw [hr] at hrecord
    rw [configurePin_none hr] at hgrants ⊢
    have hnot : ¬ LinesGranted env pin := by
      unfold LinesGranted
      grind
    have hrefused : ¬ GrantsPin env device pin := fun h => hgrants.mpr h rfl
    exact ⟨(if_neg hnot).symm, (if_neg hrefused).symm⟩
  · rw [hr] at hrecord
    rw [configurePin_some hr] at hgrants ⊢
    obtain ⟨hlines, rfl⟩ : LinesGranted env pin ∧ pin₁ = configuredBy device.miscMinor pin := by
      unfold LinesGranted configuredBy
      grind
    refine ⟨(if_pos hlines).symm, ?_⟩
    rw [wirePin_eq hrole]
    by_cases hgranted : GrantsPin env device pin
    · rw [if_neg (hgrants.mpr hgranted), if_pos hgranted]
    · rw [if_pos (not_not.mp fun h => hgranted (hgrants.mp h)), if_neg hgranted]

/-! ## Over the records -/

/-- The records of the two pins up to the first one that is refused. -/
def grantedRecords (env : KernelEnv) (device : Hcsr04Device) (pins : List Gen2PinConfig) :
    List Gen2PinConfig :=
  (pins.filter (HasRole device ·)).takeWhile (GrantsPin env device ·)

/-- The records that the call comes to: one more, if there is one. -/
def reachedRecords (env : KernelEnv) (device : Hcsr04Device) (pins : List Gen2PinConfig) :
    List Gen2PinConfig :=
  grantedRecords env device pins ++
    ((pins.filter (HasRole device ·)).dropWhile (GrantsPin env device ·)).take 1

theorem grantedRecords_cons (env : KernelEnv) (device : Hcsr04Device) (pin : Gen2PinConfig)
    (rest : List Gen2PinConfig) : grantedRecords env device (pin :: rest) =
      if HasRole device pin then
        if GrantsPin env device pin then pin :: grantedRecords env device rest else []
      else grantedRecords env device rest := by
  unfold grantedRecords
  by_cases hrole : HasRole device pin
  · by_cases hgranted : GrantsPin env device pin <;> simp [hrole, hgranted]
  · simp [hrole]

theorem reachedRecords_cons (env : KernelEnv) (device : Hcsr04Device) (pin : Gen2PinConfig)
    (rest : List Gen2PinConfig) : reachedRecords env device (pin :: rest) =
      if HasRole device pin then
        if GrantsPin env device pin then pin :: reachedRecords env device rest else [pin]
      else reachedRecords env device rest := by
  unfold reachedRecords grantedRecords
  by_cases hrole : HasRole device pin
  · by_cases hgranted : GrantsPin env device pin <;> simp [hrole, hgranted]
  · simp [hrole]

/-- The records after the call. -/
def recordsAfter (env : KernelEnv) (device : Hcsr04Device) :
    List Gen2PinConfig → List Gen2PinConfig
  | [] => []
  | pin :: rest =>
    if HasRole device pin then
      recordAfter env device.miscMinor pin ::
        if GrantsPin env device pin then recordsAfter env device rest else rest
    else pin :: recordsAfter env device rest

theorem recordsAfter_congr {env : KernelEnv} {device : Hcsr04Device} (irqData : Hcsr04IrqData)
    (pins : List Gen2PinConfig) :
    recordsAfter env { device with irqData } pins = recordsAfter env device pins := by
  induction pins with
  | nil => rfl
  | cons pin rest ih =>
    rw [recordsAfter, recordsAfter, ih]
    rfl

/-- Whether it succeeds or not, `configure_pins` wires the granted records. -/
theorem configurePins_eq (env : KernelEnv) (pins : List Gen2PinConfig) (device : Hcsr04Device)
    (calls : List KernelCall) :
    (configurePins env pins device calls).2.2.1 = recordsAfter env device pins ∧
      (configurePins env pins device calls).2.1 = { device with
        irqData := (grantedRecords env device pins).foldl (wired env device) device.irqData } := by
  induction pins generalizing device calls with
  | nil => exact ⟨rfl, rfl⟩
  | cons pin rest ih =>
    rw [grantedRecords_cons, recordsAfter]
    by_cases hrole : HasRole device pin
    · obtain ⟨hrecord, hdevice⟩ := @configurePin_eq env device pin hrole calls
      have hgrants := (configurePin_granted env device pin calls).1
      simp only [configurePins, if_pos (show _ ∨ _ from hrole), if_pos hrole]
      by_cases hgranted : GrantsPin env device pin
      · rw [if_pos hgranted] at hdevice
        rw [if_neg (hgrants.mpr hgranted), if_pos hgranted, if_pos hgranted, List.foldl_cons]
        obtain ⟨hrest, hwired⟩ := ih (configurePin env device pin calls).2.1
          (configurePin env device pin calls).1
        refine ⟨congrArg₂ _ hrecord (hrest.trans ?_), hwired.trans ?_⟩
        · rw [hdevice]
          exact recordsAfter_congr _ rest
        · rw [hdevice]
          rfl
      · rw [if_neg hgranted] at hdevice
        rw [if_pos (not_not.mp fun h => hgranted (hgrants.mp h)), if_neg hgranted, if_neg hgranted]
        exact ⟨congrArg₂ _ hrecord rfl, hdevice⟩
    · obtain ⟨hrest, hwired⟩ := ih device calls
      simp only [configurePins, if_neg (show ¬ (_ ∨ _) from hrole), if_neg hrole]
      exact ⟨congrArg₂ _ rfl hrest, hwired⟩

theorem recordsAfter_of_grants {env : KernelEnv} {device : Hcsr04Device}
    {pins : List Gen2PinConfig} (h : Grants env device pins) : recordsAfter env device pins =
      pins.map fun pin =>
        if HasRole device pin then configuredBy device.miscMinor pin else pin := by
  induction pins with
  | nil => rfl
  | cons pin rest ih =>
    obtain ⟨hpin, hrest⟩ := List.forall_mem_cons.mp h
    rw [recordsAfter, List.map_cons, ← ih hrest]
    by_cases hrole : HasRole device pin
    · have hlines : LinesGranted env pin := (hpin hrole).1
      rw [if_pos hrole, if_pos hrole, if_pos (hpin hrole), recordAfter, if_pos hlines]
    · rw [if_neg hrole, if_neg hrole]

theorem grantedRecords_of_grants {env : KernelEnv} {device : Hcsr04Device}
    {pins : List Gen2PinConfig} (h : Grants env device pins) :
    grantedRecords env device pins = pins.filter (HasRole device ·) := by
  rw [grantedRecords, List.takeWhile_eq_self_iff]
  intro pin hmem
  obtain ⟨hpin, hrole⟩ := List.mem_filter.mp hmem
  simpa using h pin hpin (by simpa using hrole)

theorem mem_grantedRecords {env : KernelEnv} {device : Hcsr04Device} {pins : List Gen2PinConfig}
    {pin : Gen2PinConfig} (h : pin ∈ grantedRecords env device pins) :
    pin ∈ pins ∧ HasRole device pin ∧ GrantsPin env device pin := by
  have hgranted := @List.mem_takeWhile_imp _ (GrantsPin env device ·) _ pin h
  have hfilter := List.mem_filter.mp ((List.takeWhile_sublist _).subset h)
  exact ⟨hfilter.1, of_decide_eq_true hfilter.2, of_decide_eq_true hgranted⟩

/-! ## The wiring -/

/-- The interrupt and its line are those of the echo record, if it is among the granted ones. -/
theorem foldl_wired_echo (env : KernelEnv) (device : Hcsr04Device) (pins : List Gen2PinConfig)
    (irqData : Hcsr04IrqData) :
    (∃ pin ∈ pins, device.echoPin = pin.galileoPin ∧
      (pins.foldl (wired env device) irqData).irqNo = env.gpioToIrq pin.linuxGpioPin ∧
      (pins.foldl (wired env device) irqData).irqEchoPin = pin.linuxGpioPin) ∨
    ((∀ pin ∈ pins, device.echoPin ≠ pin.galileoPin) ∧
      (pins.foldl (wired env device) irqData).irqNo = irqData.irqNo ∧
      (pins.foldl (wired env device) irqData).irqEchoPin = irqData.irqEchoPin) := by
  induction pins generalizing irqData with
  | nil => simp
  | cons pin rest ih =>
    simp only [List.foldl_cons, List.exists_mem_cons_iff, List.forall_mem_cons]
    rcases ih (wired env device irqData pin) with h | ⟨hrest, hirq, hline⟩
    · exact .inl (.inr h)
    · rw [hirq, hline]
      unfold wired
      grind

/-- The trigger line is that of the trigger record, if that is no echo record as well. -/
theorem foldl_wired_trigger (env : KernelEnv) (device : Hcsr04Device) (pins : List Gen2PinConfig)
    (irqData : Hcsr04IrqData) :
    (∃ pin ∈ pins, device.triggerPin = pin.galileoPin ∧ device.echoPin ≠ pin.galileoPin ∧
      (pins.foldl (wired env device) irqData).irqTriggerPin = pin.linuxGpioPin) ∨
    ((∀ pin ∈ pins, device.triggerPin = pin.galileoPin → device.echoPin = pin.galileoPin) ∧
      (pins.foldl (wired env device) irqData).irqTriggerPin = irqData.irqTriggerPin) := by
  induction pins generalizing irqData with
  | nil => simp
  | cons pin rest ih =>
    simp only [List.foldl_cons, List.exists_mem_cons_iff, List.forall_mem_cons]
    rcases ih (wired env device irqData pin) with h | ⟨hrest, hline⟩
    · exact .inl (.inr h)
    · rw [hline]
      unfold wired
      grind

theorem wired_of_not_hasRole {env : KernelEnv} {device : Hcsr04Device} {pin : Gen2PinConfig}
    (h : ¬ HasRole device pin) (irqData : Hcsr04IrqData) :
    wired env device irqData pin = irqData := by
  rw [wired, if_neg fun hecho => h (.inr hecho), if_neg fun htrigger => h (.inl htrigger)]

/-- Only the records of the two pins wire something. -/
theorem foldl_wired_filter (env : KernelEnv) (device : Hcsr04Device) (pins : List Gen2PinConfig)
    (irqData : Hcsr04IrqData) :
    (pins.filter (HasRole device ·)).foldl (wired env device) irqData =
      pins.foldl (wired env device) irqData := by
  have hrole : (fun (irqData : Hcsr04IrqData) pin =>
      if decide (HasRole device pin) = true then wired env device irqData pin else irqData) =
        wired env device := by
    funext irqData pin
    by_cases hrole : HasRole device pin
    · rw [if_pos (decide_eq_true hrole)]
    · rw [if_neg (by simpa using hrole), wired_of_not_hasRole hrole]
  rw [List.foldl_filter, hrole]

/-! ## The interrupts held -/

theorem heldIrqs_cons_request (irq minor error : Int32) (calls : List KernelCall) :
    heldIrqs (.requestIrq irq minor error :: calls) =
      if error = 0 then insert (minor, irq) (heldIrqs calls) else heldIrqs calls := by
  by_cases herror : error = 0 <;> simp [heldIrqs, irqEvents_cons, irqEvent, herror]

theorem configurePin_heldIrqs (env : KernelEnv) (device : Hcsr04Device) (pin : Gen2PinConfig)
    (calls : List KernelCall) (x : Int32 × Int32) :
    x ∈ heldIrqs (configurePin env device pin calls).1 ↔ x ∈ heldIrqs calls ∨
      GrantsPin env device pin ∧ device.echoPin = pin.galileoPin ∧
        x = (device.miscMinor, env.gpioToIrq pin.linuxGpioPin) := by
  have hgrants := (configurePin_granted env device pin calls).1
  have hirqs := configureRecord_irqs env device.miscMinor (ioFlagOf device pin) pin calls
  have hrecord := configureRecord_granted env device.miscMinor (ioFlagOf device pin) pin calls
  rcases hr : configureRecord env device.miscMinor (ioFlagOf device pin) pin calls with
    ⟨calls₁, _ | pin₁⟩
  · rw [hr] at hirqs
    rw [configurePin_none hr] at hgrants ⊢
    have hrefused : ¬ GrantsPin env device pin := fun h => hgrants.mpr h rfl
    simp [hrefused, heldIrqs, show irqEvents calls₁ = irqEvents calls from hirqs]
  · rw [hr] at hirqs hrecord
    rw [configurePin_some hr] at hgrants ⊢
    have hline : pin₁.linuxGpioPin = pin.linuxGpioPin := by grind
    have hsame : heldIrqs calls₁ = heldIrqs calls := by
      rw [heldIrqs, show irqEvents calls₁ = irqEvents calls from hirqs, heldIrqs]
    by_cases hecho : device.echoPin = pin.galileoPin
    · have hio : ioFlagOf device pin = 0 := if_pos hecho
      rw [wirePin_granted, hline] at hgrants
      simp only [wirePin, configureInterrupt, hio, if_true, hline]
      split_ifs with hneg herror
      · grind
      · rw [heldIrqs_cons_request]
        grind
      · rw [heldIrqs_cons_request]
        grind
    · have hio : ioFlagOf device pin = 1 := if_neg hecho
      simp [wirePin, hio, hsame, hecho]

/-- The device claims the interrupt of the echo record, if that is granted, and frees none. -/
theorem configurePins_heldIrqs (env : KernelEnv) (pins : List Gen2PinConfig)
    (device : Hcsr04Device) (calls : List KernelCall) (x : Int32 × Int32) :
    x ∈ heldIrqs (configurePins env pins device calls).1 ↔ x ∈ heldIrqs calls ∨
      ∃ pin ∈ grantedRecords env device pins, device.echoPin = pin.galileoPin ∧
        x = (device.miscMinor, env.gpioToIrq pin.linuxGpioPin) := by
  induction pins generalizing device calls with
  | nil => simp [configurePins, grantedRecords]
  | cons pin rest ih =>
    rw [grantedRecords_cons]
    by_cases hrole : HasRole device pin
    · obtain ⟨-, hdevice⟩ := @configurePin_eq env device pin hrole calls
      have hgrants := (configurePin_granted env device pin calls).1
      have hpin := configurePin_heldIrqs env device pin calls x
      simp only [configurePins, if_pos (show _ ∨ _ from hrole), if_pos hrole]
      by_cases hgranted : GrantsPin env device pin
      · rw [if_pos hgranted] at hdevice
        rw [if_neg (hgrants.mpr hgranted), if_pos hgranted, List.exists_mem_cons_iff]
        refine (ih _ _).trans ?_
        rw [hpin, hdevice]
        simp only [hgranted, true_and, or_assoc]
        exact Iff.rfl
      · rw [if_pos (not_not.mp fun h => hgranted (hgrants.mp h)), if_neg hgranted, hpin]
        simp [hgranted]
    · simp only [configurePins, if_neg (show ¬ (_ ∨ _) from hrole), if_neg hrole]
      exact ih device calls

/-! ## The call of the file -/

/-- The device with the pins asked for. -/
def requested (device : Hcsr04Device) (param1 param2 : Int32) : Hcsr04Device :=
  { device with triggerPin := param1, echoPin := param2 }

/-- The interrupt is the one the device recorded. -/
theorem releaseInterrupt_eq {device : Hcsr04Device}
    (hecho : device.irqData.irqNo ≠ NO_VALUE → device.echoPin ≠ NO_VALUE)
    (calls : List KernelCall) (param1 param2 : Int32) :
    requested (releaseInterrupt device calls).2 param1 param2 =
        { requested device param1 param2 with
          irqData := { device.irqData with irqNo := NO_VALUE } } ∧
      ∀ x, x ∈ heldIrqs (releaseInterrupt device calls).1 ↔ x ∈ heldIrqs calls ∧
        (device.irqData.irqNo ≠ NO_VALUE → x ≠ (device.miscMinor, device.irqData.irqNo)) := by
  by_cases hno : device.irqData.irqNo = NO_VALUE
  · have hirq : { device.irqData with irqNo := NO_VALUE } = device.irqData := by
      rw [← hno]
    simp [releaseInterrupt, hno, requested, hirq]
  · have hheld : heldIrqs (.freeIrq device.irqData.irqNo device.miscMinor :: calls) =
        (heldIrqs calls).erase (device.miscMinor, device.irqData.irqNo) := rfl
    simp only [releaseInterrupt, ne_eq, hecho hno, hno, not_false_eq_true, and_self, if_true,
      forall_const, hheld, Finset.mem_erase]
    exact ⟨rfl, fun x => and_comm⟩

/-- What an accepted `CONFIG_PINS` leaves and returns. -/
structure ConfigPinsSpec (env : KernelEnv) (minor param1 param2 : Int32) (s s' : MiscDriver)
    (ret : Int32) : Prop where
  pins : s'.pins = recordsAfter env (requested (s.device minor) param1 param2) s.pins
  device : s'.device minor = { requested (s.device minor) param1 param2 with
    irqData := (grantedRecords env (requested (s.device minor) param1 param2) s.pins).foldl
      (wired env (requested (s.device minor) param1 param2))
      { (s.device minor).irqData with irqNo := NO_VALUE }
    arePinsConfigured := if Grants env (requested (s.device minor) param1 param2) s.pins then 1
      else (s.device minor).arePinsConfigured }
  ret : ret = if Grants env (requested (s.device minor) param1 param2) s.pins then SUCCESS
    else EINVAL
  heldIrqs : ∀ x, x ∈ heldIrqs s'.calls ↔ x ∈ Hcsr04.heldIrqs s.calls ∧
      ((s.device minor).irqData.irqNo ≠ NO_VALUE →
        x ≠ ((s.device minor).miscMinor, (s.device minor).irqData.irqNo)) ∨
    ∃ pin ∈ grantedRecords env (requested (s.device minor) param1 param2) s.pins,
      param2 = pin.galileoPin ∧ x = ((s.device minor).miscMinor, env.gpioToIrq pin.linuxGpioPin)

theorem configPinsIoctl_spec (env : KernelEnv) {minor param1 param2 : Int32} {s : MiscDriver}
    (hecho : (s.device minor).irqData.irqNo ≠ NO_VALUE → (s.device minor).echoPin ≠ NO_VALUE)
    (haccepted : ¬ Refused param1 param2) :
    ConfigPinsSpec env minor param1 param2 s (configPinsIoctl env minor param1 param2 s).1
      (configPinsIoctl env minor param1 param2 s).2 := by
  obtain ⟨hreleased, hirqs⟩ := releaseInterrupt_eq hecho s.calls param1 param2
  rw [configPinsIoctl, if_neg (show ¬ (_ ∨ _) from haccepted)]
  generalize releaseInterrupt (s.device minor) s.calls = released at hreleased hirqs ⊢
  obtain ⟨calls₀, device₀⟩ := released
  change requested device₀ param1 param2 = _ at hreleased
  obtain ⟨hpins, hdevice⟩ := configurePins_eq env s.pins (requested device₀ param1 param2) calls₀
  have hheld := configurePins_heldIrqs env s.pins (requested device₀ param1 param2) calls₀
  have hgrants : (configurePins env s.pins (requested device₀ param1 param2) calls₀).2.2.2 ≠ 0 ↔
      Grants env (requested device₀ param1 param2) s.pins :=
    (configurePins_granted env s.pins (requested device₀ param1 param2) calls₀).1
  change ConfigPinsSpec env minor param1 param2 s
    ({ s with
      calls := (configurePins env s.pins (requested device₀ param1 param2) calls₀).1
      pins := (configurePins env s.pins (requested device₀ param1 param2) calls₀).2.2.1 }.setDevice
        minor (if (configurePins env s.pins (requested device₀ param1 param2) calls₀).2.2.2 = 0 then
          (configurePins env s.pins (requested device₀ param1 param2) calls₀).2.1
        else { (configurePins env s.pins (requested device₀ param1 param2) calls₀).2.1 with
          arePinsConfigured := 1 }))
    (if (configurePins env s.pins (requested device₀ param1 param2) calls₀).2.2.2 = 0 then EINVAL
      else SUCCESS)
  generalize configurePins env s.pins (requested device₀ param1 param2) calls₀ = r
    at hpins hdevice hheld hgrants ⊢
  rw [hreleased] at hpins hdevice hgrants
  rw [recordsAfter_congr] at hpins
  have hall : r.2.2.2 = 0 ↔ ¬ Grants env (requested (s.device minor) param1 param2) s.pins :=
    (not_iff_comm.mp hgrants).symm
  refine ⟨hpins, ?_, ?_, ?_⟩
  · rw [setDevice_device, hdevice]
    by_cases hret : r.2.2.2 = 0
    · rw [if_pos hret, if_neg (hall.mp hret)]
      rfl
    · rw [if_neg hret, if_pos (not_not.mp fun h => hret (hall.mpr h))]
      rfl
  · by_cases hret : r.2.2.2 = 0
    · rw [if_pos hret, if_neg (hall.mp hret)]
    · rw [if_neg hret, if_pos (not_not.mp fun h => hret (hall.mpr h))]
  · intro x
    refine (hheld x).trans ?_
    rw [hirqs, hreleased]
    exact Iff.rfl

/-- `CONFIG_PINS` succeeds exactly when its pins are accepted and all is granted. -/
theorem configPinsIoctl_success_iff {env : KernelEnv} {minor param1 param2 : Int32}
    {s : MiscDriver}
    (hecho : (s.device minor).irqData.irqNo ≠ NO_VALUE → (s.device minor).echoPin ≠ NO_VALUE) :
    (configPinsIoctl env minor param1 param2 s).2 = SUCCESS ↔ ¬ Refused param1 param2 ∧
      Grants env (requested (s.device minor) param1 param2) s.pins := by
  have hne : EINVAL ≠ SUCCESS := by decide
  by_cases hrefused : Refused param1 param2
  · rw [configPinsIoctl, if_pos (show _ ∨ _ from hrefused)]
    exact iff_of_false hne fun h => h.1 hrefused
  · rw [(configPinsIoctl_spec env hecho hrefused).ret]
    split <;> simp_all

/-! ## The states of the driver -/

/-- What the calls and the threads keep: the interrupt a device records is held, and the records
are those of the board. -/
structure ConfigInv (s : MiscDriver) : Prop where
  minors : ∀ minor, (s.device minor).miscMinor = minor
  irqs : ∀ minor, (s.device minor).irqData.irqNo ≠ NO_VALUE →
    (minor, (s.device minor).irqData.irqNo) ∈ heldIrqs s.calls
  echo : ∀ minor, (s.device minor).irqData.irqNo ≠ NO_VALUE → (s.device minor).echoPin ≠ NO_VALUE
  records : s.pins.map Gen2PinConfig.galileoPin = boardPins
  lines : (s.pins.flatMap Gen2PinConfig.lines).Nodup
  low : ∀ pin ∈ s.pins, pin.linuxGpioPin < 64

theorem configInv_init (blank : Int32 → Hcsr04Device) (minorLeft : Int32 → Int32) :
    ConfigInv (hcsr04Init blank minorLeft) where
  minors := fun _ => rfl
  irqs := fun _ hne => absurd rfl hne
  echo := fun _ hne => absurd rfl hne
  records := rfl
  lines := populateGen2PinsData_nodup minorLeft
  low := by
    simp only [hcsr04Init, populateGen2PinsData, populatePinData, List.forall_mem_cons]
    decide

/-- A call of one device that frees no interrupt of the others. -/
theorem ConfigInv.update {s : MiscDriver} (h : ConfigInv s) {minor : Int32}
    {device : Hcsr04Device} {pins : List Gen2PinConfig} {calls : List KernelCall}
    (hminor : device.miscMinor = minor)
    (hirq : device.irqData.irqNo ≠ NO_VALUE →
      (minor, device.irqData.irqNo) ∈ heldIrqs calls ∧ device.echoPin ≠ NO_VALUE)
    (hothers : ∀ other irq, other ≠ minor → (other, irq) ∈ heldIrqs s.calls →
      (other, irq) ∈ heldIrqs calls)
    (hpins : ∃ owner before after, Pass owner s.pins before pins after) :
    ConfigInv ({ s with calls, pins }.setDevice minor device) := by
  obtain ⟨owner, before, after, hpass⟩ := hpins
  have hself : ({ s with calls, pins }.setDevice minor device).device minor = device :=
    setDevice_device ..
  have hother : ∀ m, m ≠ minor →
      ({ s with calls, pins }.setDevice minor device).device m = s.device m :=
    fun m hm => Function.update_of_ne hm ..
  refine ⟨fun m => ?_, fun m => ?_, fun m => ?_, ?_, ?_, ?_⟩
  · by_cases hm : m = minor
    · rw [hm, hself, hminor]
    · rw [hother m hm, h.minors]
  · by_cases hm : m = minor
    · rw [hm, hself]
      exact fun hne => (hirq hne).1
    · rw [hother m hm]
      exact fun hne => hothers m _ hm (h.irqs m hne)
  · by_cases hm : m = minor
    · rw [hm, hself]
      exact fun hne => (hirq hne).2
    · rw [hother m hm]
      exact h.echo m
  · exact (hpass.map_eq fun _ _ _ => rfl).trans h.records
  · change (pins.flatMap Gen2PinConfig.lines).Nodup
    rw [allLines_eq (hpass.map_eq fun _ _ _ => rfl)]
    exact h.lines
  · refine hpass.forall_mem (fun pin calls pin' calls' hstep hlow => ?_) h.low
    obtain ⟨_, _, rfl⟩ := hstep.static
    exact hlow

theorem ConfigInv.configPins {s : MiscDriver} (h : ConfigInv s) (env : KernelEnv)
    (minor param1 param2 : Int32) : ConfigInv (configPinsIoctl env minor param1 param2 s).1 := by
  by_cases hrefused : Refused param1 param2
  · rw [configPinsIoctl, if_pos (show _ ∨ _ from hrefused)]
    exact h
  · have hspec := configPinsIoctl_spec env (h.echo minor) hrefused
    obtain ⟨calls₀, -, hpass⟩ := miscOp_pass s (minor, .configPins env param1 param2)
    obtain ⟨device, calls, pins, hs'⟩ : ∃ device calls pins,
        (configPinsIoctl env minor param1 param2 s).1 =
          { s with calls, pins }.setDevice minor device := by
      rw [configPinsIoctl, if_neg (show ¬ (_ ∨ _) from hrefused)]
      exact ⟨_, _, _, rfl⟩
    rw [show (miscOp s (minor, .configPins env param1 param2)).1 = _ from hs'] at hpass
    rw [hs'] at hspec ⊢
    obtain ⟨-, hdevice, -, hheld⟩ := hspec
    rw [setDevice_device] at hdevice
    refine h.update ?_ ?_ ?_ ⟨_, _, _, hpass⟩
    · rw [hdevice]
      exact h.minors minor
    · intro hne
      rw [hdevice] at hne ⊢
      refine ⟨?_, fun hecho => hrefused (.inr (.inr (.inl ?_)))⟩
      · rcases foldl_wired_echo env (requested (s.device minor) param1 param2)
          (grantedRecords env (requested (s.device minor) param1 param2) s.pins)
          { (s.device minor).irqData with irqNo := NO_VALUE } with
          ⟨pin, hmem, hecho, hirq, -⟩ | ⟨-, hirq, -⟩
        · refine (hheld _).mpr (.inr ⟨pin, hmem, hecho, ?_⟩)
          rw [hirq, h.minors]
        · exact absurd hirq hne
      · rw [show param2 = NO_VALUE from hecho]
        decide
    · intro other irq hother hmem
      refine (hheld (other, irq)).mpr (.inl ⟨hmem, fun _ heq => hother ?_⟩)
      rw [(Prod.mk.inj heq).1, h.minors]

/-- An interrupt that is freed at the release is the one of the device. -/
theorem hcsr04Release_heldIrqs {minor : Int32} {s : MiscDriver}
    (hminor : (s.device minor).miscMinor = minor) {other irq : Int32} (hother : other ≠ minor)
    (hmem : (other, irq) ∈ heldIrqs s.calls) :
    (other, irq) ∈ heldIrqs (hcsr04Release minor s).1.calls := by
  have hfree : ∀ calls : List KernelCall, (other, irq) ∈ heldIrqs calls →
      (other, irq) ∈ heldIrqs
        (.freeIrq (s.device minor).irqData.irqNo (s.device minor).miscMinor :: calls) := by
    intro calls hmem
    have hheld : heldIrqs (.freeIrq (s.device minor).irqData.irqNo (s.device minor).miscMinor ::
        calls) = (heldIrqs calls).erase
          ((s.device minor).miscMinor, (s.device minor).irqData.irqNo) := rfl
    rw [hheld, Finset.mem_erase]
    exact ⟨fun heq => hother (by rw [(Prod.mk.inj heq).1, hminor]), hmem⟩
  have hstop : (other, irq) ∈ heldIrqs
      (if (s.device minor).measurementInProgress ≠ 0 then
        .kthreadStop (s.device minor).miscMinor :: s.calls else s.calls) := by
    split <;> exact hmem
  simp only [hcsr04Release, MiscDriver.setDevice]
  rw [heldIrqs, releaseGpioPins_irqs]
  split
  · exact hfree _ hstop
  · exact hstop

theorem ConfigInv.op {s : MiscDriver} (h : ConfigInv s) (op : MiscOp) :
    ConfigInv (miscOp s op).1 := by
  obtain ⟨minor, call⟩ := op
  cases call with
  | openFile =>
    exact h.update (h.minors minor) (fun hne => absurd rfl hne) (fun _ _ _ hmem => hmem)
      ⟨minor, _, _, .stop s.pins []⟩
  | configPins env param1 param2 => exact h.configPins env minor param1 param2
  | setParameters param1 param2 =>
    by_cases hbad : param1 ≤ 0 ∨ param2 ≤ 0
    · simp only [miscOp, setParametersIoctl, if_pos hbad]
      exact h
    · simp only [miscOp, setParametersIoctl, if_neg hbad]
      exact h.update (h.minors minor) (fun hne => ⟨h.irqs minor hne, h.echo minor hne⟩)
        (fun _ _ _ hmem => hmem) ⟨minor, _, _, .stop s.pins []⟩
  | releaseFile =>
    obtain ⟨calls, -, hpass⟩ := miscOp_pass s (minor, .releaseFile)
    exact h.update (h.minors minor) (fun hne => absurd rfl hne)
      (fun _ _ hother hmem => hcsr04Release_heldIrqs (h.minors minor) hother hmem)
      ⟨_, _, _, hpass⟩

theorem ConfigInv.move {s s' : MiscSystem} {move : SystemMove} {o : Option Int32}
    (h : ConfigInv s.driver) (hmove : systemMove s move = some (s', o)) : ConfigInv s'.driver := by
  cases move with
  | call process op =>
    simp only [systemMove] at hmove
    split at hmove
    next =>
      obtain ⟨rfl, -⟩ := Prod.mk.inj (Option.some.inj hmove)
      exact h.op op
    next => cases hmove
  | thread env minor move =>
    obtain ⟨⟨p, ⟨⟩⟩, hp, hs'⟩ := Option.map_eq_some_iff.mp hmove
    obtain ⟨rfl, -⟩ := Prod.mk.inj hs'
    have hframe := deviceMove_frame hp
    have hminor : p.shared.device.miscMinor = (s.driver.device minor).miscMinor := hframe.miscMinor
    have hechoPin : p.shared.device.echoPin = (s.driver.device minor).echoPin := hframe.echoPin
    have hirqNo : p.shared.device.irqData.irqNo = (s.driver.device minor).irqData.irqNo :=
      hframe.irqNo
    have hheld : heldIrqs p.shared.calls = heldIrqs s.driver.calls := by
      rw [heldIrqs, hframe.irqs]
      rfl
    refine h.update (hminor.trans (h.minors minor)) (fun hne => ?_) (fun _ _ _ hmem => ?_)
      ⟨minor, _, _, .stop s.driver.pins []⟩
    · rw [hirqNo] at hne ⊢
      rw [hheld, hechoPin]
      exact ⟨h.irqs minor hne, h.echo minor hne⟩
    · rw [hheld]
      exact hmem

theorem ConfigInv.run {s s' : MiscSystem} {moves : List SystemMove} {os : List (Option Int32)}
    (h : ConfigInv s.driver) (hrun : run systemMove s moves = some (s', os)) :
    ConfigInv s'.driver := by
  have hstep : ∀ s move s' o, ConfigInv s.driver → True → systemMove s move = some (s', o) →
      ConfigInv s'.driver := fun _ _ _ _ h _ hmove => h.move hmove
  exact run_along systemMove hstep h (along_true systemMove s moves) hrun

/-- What is equivalent at each move where the invariant holds is so along every run from a
reachable state. -/
theorem along_reachable_congr {Ok Ok' : MiscSystem → SystemMove → Prop}
    (hiff : ∀ s move, ConfigInv s.driver → (Ok s move ↔ Ok' s move))
    {blank : Int32 → Hcsr04Device} {minorLeft : Int32 → Int32} {before : List SystemMove}
    {s : MiscSystem} {os : List (Option Int32)}
    (hrun : run systemMove (systemInit blank minorLeft) before = some (s, os))
    (moves : List SystemMove) : Along systemMove Ok s moves ↔ Along systemMove Ok' s moves := by
  have hinit : ConfigInv (systemInit blank minorLeft).driver := configInv_init blank minorLeft
  exact along_congr systemMove hiff (fun _ _ _ _ h _ hmove => h.move hmove) (hinit.run hrun) moves

end KernelDrivers.Hcsr04
