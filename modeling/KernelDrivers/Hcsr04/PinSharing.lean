import KernelDrivers.Hcsr04.Ownership
import KernelDrivers.Lib.Run

/-!
# Pins shared by devices

A record has one owner. A device that configures a record of another device succeeds and does not
become the owner, and a reconfiguration that fails leaves the device marked as configured. Where
neither happens, a configured device owns the records of its two pins until it is released.
-/

namespace KernelDrivers.Hcsr04
open Lib

/-! ## Owners -/

/-- A configured record of the pin, owned by the device of this minor. -/
def Owns (pins : List Gen2PinConfig) (minor galileoPin : Int32) : Prop :=
  ∃ pin ∈ pins, pin.galileoPin = galileoPin ∧ pin.isPinConfigured ≠ 0 ∧
    pin.deviceMinorNumber = minor

/-- The calls of other devices leave an owned record as it is. -/
theorem RecordStep.owned {minor owner : Int32} {pin pin' : Gen2PinConfig}
    {calls calls' : List KernelCall} (h : RecordStep minor pin calls pin' calls')
    (hne : owner ≠ minor) (hset : pin.isPinConfigured ≠ 0)
    (howner : pin.deviceMinorNumber = owner) : pin' = pin := by
  cases h with
  | same => rfl
  | refused => rfl
  | configured _ hzero => exact absurd hzero hset
  | released _ howner' => exact absurd (howner.symm.trans howner'.symm) hne

theorem Pass.owns {minor owner galileoPin : Int32} {pins pins' : List Gen2PinConfig}
    {calls calls' : List KernelCall} (h : Pass minor pins calls pins' calls')
    (hne : owner ≠ minor) (howns : Owns pins owner galileoPin) : Owns pins' owner galileoPin := by
  induction h with
  | stop => exact howns
  | cons hstep _ ih =>
    obtain ⟨pin, hmem, hpin, hset, howner⟩ := howns
    rcases List.mem_cons.mp hmem with rfl | hmem
    · obtain rfl := hstep.owned hne hset howner
      exact ⟨_, List.mem_cons_self, hpin, hset, howner⟩
    · obtain ⟨pin', hmem', hpin'⟩ := ih ⟨pin, hmem, hpin, hset, howner⟩
      exact ⟨pin', List.mem_cons_of_mem _ hmem', hpin'⟩

/-! ## When `configure_pins` succeeds -/

theorem acquireAll_granted {ρ : Type} (grant : ρ → Bool) (acquired rs : List ρ)
    (log : List (Event ρ)) :
    (acquireAll grant acquired rs log).2 = true ↔ ∀ r ∈ rs, grant r = true := by
  induction rs generalizing acquired log with
  | nil => simp [acquireAll]
  | cons r rs ih =>
    cases hr : grant r with
    | true => simp [acquireAll, hr, ih]
    | false => simp [acquireAll, hr]

-- decided over the lines of the record, not over every `Int32`
instance (pin : Gen2PinConfig) (p : Int32 → Prop) [DecidablePred p] :
    Decidable (∀ line ∈ pin.lines, p line) :=
  List.decidableBAll p pin.lines

/-- The kernel grants what `configure_pins` asks for at a record of the device. -/
def GrantsPin (env : KernelEnv) (device : Hcsr04Device) (pin : Gen2PinConfig) : Prop :=
  (pin.isPinConfigured = 0 → ∀ line ∈ pin.lines, env.grants line = true) ∧
    (device.echoPin = pin.galileoPin → ¬ env.gpioToIrq pin.linuxGpioPin < 0 ∧
      env.requestIrq (env.gpioToIrq pin.linuxGpioPin) = 0)

/-- The record is one of the device's two pins. -/
def HasRole (device : Hcsr04Device) (pin : Gen2PinConfig) : Prop :=
  device.triggerPin = pin.galileoPin ∨ device.echoPin = pin.galileoPin

theorem configureRecord_granted (env : KernelEnv) (minor ioFlag : Int32) (pin : Gen2PinConfig)
    (calls : List KernelCall) : (configureRecord env minor ioFlag pin calls).2 =
      if pin.isPinConfigured ≠ 0 then some pin
      else if ∀ line ∈ pin.lines, env.grants line = true then
        some { pin with isPinConfigured := 1, deviceMinorNumber := minor }
      else none := by
  unfold configureRecord
  split
  · exact (updatePin_spec env ioFlag pin calls).2
  · rw [(configureNewPin_spec env minor ioFlag pin calls).2]
    simp only [acquireAll_granted]

theorem wirePin_granted (env : KernelEnv) (device : Hcsr04Device) (ioFlag : Int32)
    (pin : Gen2PinConfig) (calls : List KernelCall) :
    (wirePin env device ioFlag pin calls).2.2 ≠ 0 ↔ (ioFlag = 0 →
      ¬ env.gpioToIrq pin.linuxGpioPin < 0 ∧
        env.requestIrq (env.gpioToIrq pin.linuxGpioPin) = 0) := by
  unfold wirePin configureInterrupt
  grind

/-- The record after a success: configured, and owned by the device if it was not configured. -/
def configuredBy (minor : Int32) (pin : Gen2PinConfig) : Gen2PinConfig :=
  if pin.isPinConfigured ≠ 0 then pin
  else { pin with isPinConfigured := 1, deviceMinorNumber := minor }

theorem configurePin_granted (env : KernelEnv) (device : Hcsr04Device) (pin : Gen2PinConfig)
    (calls : List KernelCall) :
    ((configurePin env device pin calls).2.2.2 ≠ 0 ↔ GrantsPin env device pin) ∧
      ((configurePin env device pin calls).2.2.2 ≠ 0 →
        (configurePin env device pin calls).2.2.1 = configuredBy device.miscMinor pin) := by
  have hio : ioFlagOf device pin = 0 ↔ device.echoPin = pin.galileoPin := by
    unfold ioFlagOf
    grind
  have hgranted := configureRecord_granted env device.miscMinor (ioFlagOf device pin) pin calls
  rcases hr : configureRecord env device.miscMinor (ioFlagOf device pin) pin calls with
    ⟨calls₁, _ | pin₁⟩
  · rw [hr] at hgranted
    rw [configurePin_none hr]
    unfold GrantsPin
    grind
  · rw [hr] at hgranted
    rw [configurePin_some hr]
    have hpin₁ : pin₁ = configuredBy device.miscMinor pin := by
      unfold configuredBy
      grind
    have hline : pin₁.linuxGpioPin = pin.linuxGpioPin := by
      rw [hpin₁]
      unfold configuredBy
      split <;> rfl
    refine ⟨?_, fun _ => hpin₁⟩
    rw [wirePin_granted, hio, hline]
    unfold GrantsPin
    grind

theorem grantsPin_congr {env : KernelEnv} {device device' : Hcsr04Device}
    (h : device'.echoPin = device.echoPin) (pin : Gen2PinConfig) :
    GrantsPin env device' pin ↔ GrantsPin env device pin := by
  unfold GrantsPin
  rw [h]

/-- `configure_pins` succeeds exactly when the kernel grants all it asks for, and then the records
of the two pins are configured. -/
theorem configurePins_granted (env : KernelEnv) (pins : List Gen2PinConfig)
    (device : Hcsr04Device) (calls : List KernelCall) :
    ((configurePins env pins device calls).2.2.2 ≠ 0 ↔
        ∀ pin ∈ pins, HasRole device pin → GrantsPin env device pin) ∧
      ((configurePins env pins device calls).2.2.2 ≠ 0 →
        ∀ pin ∈ pins, HasRole device pin →
          configuredBy device.miscMinor pin ∈ (configurePins env pins device calls).2.2.1) := by
  induction pins generalizing device calls with
  | nil => simp [configurePins]
  | cons pin rest ih =>
    by_cases hrole : HasRole device pin
    · obtain ⟨hgranted, hrecord⟩ := configurePin_granted env device pin calls
      obtain ⟨irqData, hdevice⟩ := configurePin_device env device pin calls
      simp only [configurePins, if_pos (show _ ∨ _ from hrole)]
      split
      next hzero =>
        have hnot : ¬ GrantsPin env device pin := fun h => hgranted.mpr h hzero
        simp [hrole, hnot]
      next hone =>
        obtain ⟨hrest, hrecords⟩ := ih (configurePin env device pin calls).2.1
          (configurePin env device pin calls).1
        have hsame : ∀ pin', (HasRole (configurePin env device pin calls).2.1 pin' ↔
            HasRole device pin') ∧ (GrantsPin env (configurePin env device pin calls).2.1 pin' ↔
            GrantsPin env device pin') := by
          intro pin'
          rw [hdevice]
          exact ⟨Iff.rfl, grantsPin_congr rfl pin'⟩
        have hminor : (configurePin env device pin calls).2.1.miscMinor = device.miscMinor := by
          rw [hdevice]
        simp only [hsame, hminor] at hrest hrecords
        constructor
        · rw [hrest, List.forall_mem_cons]
          exact (and_iff_right fun _ => hgranted.mp hone).symm
        · intro hret pin' hmem hrole'
          rcases List.mem_cons.mp hmem with rfl | hmem
          · rw [hrecord hone]
            exact List.mem_cons_self
          · exact List.mem_cons_of_mem _ (hrecords hret pin' hmem hrole')
    · simp only [configurePins, if_neg (show ¬ (_ ∨ _) from hrole)]
      obtain ⟨hrest, hrecords⟩ := ih device calls
      constructor
      · rw [hrest, List.forall_mem_cons]
        exact (and_iff_right fun h => absurd h hrole).symm
      · intro hret pin' hmem hrole'
        rcases List.mem_cons.mp hmem with rfl | hmem
        · exact absurd hrole' hrole
        · exact List.mem_cons_of_mem _ (hrecords hret pin' hmem hrole')

/-! ## The property and its condition -/

/-- A record of the pin is owned by the device of this minor, and its lines are held. -/
def Keeps (s : MiscDriver) (minor galileoPin : Int32) : Prop :=
  ∃ pin ∈ s.pins, pin.galileoPin = galileoPin ∧ pin.deviceMinorNumber = minor ∧
    ∀ line ∈ pin.lines, line ∈ heldLines s.calls

/-- Every open device that is marked as configured keeps its two pins. -/
def KeepsPins (opened : Finset Int32) (s : MiscDriver) : Prop :=
  ∀ minor ∈ opened, (s.device minor).arePinsConfigured = 1 →
    Keeps s minor (s.device minor).triggerPin ∧ Keeps s minor (s.device minor).echoPin

/-- The pins that `CONFIG_PINS` refuses at once. -/
def Refused (param1 param2 : Int32) : Prop :=
  param1 < 0 ∨ param1 > 12 ∨ param2 < 0 ∨ param2 > 12 ∨ !isEdgeInterruptible param2

instance (param1 param2 : Int32) : Decidable (Refused param1 param2) :=
  inferInstanceAs (Decidable (_ ∨ _))

/-- The kernel grants what a configuration of the pins asks for. -/
def Grants (env : KernelEnv) (device : Hcsr04Device) (pins : List Gen2PinConfig) : Prop :=
  ∀ pin ∈ pins, HasRole device pin → GrantsPin env device pin

/-- A device that is configured already is granted all it asks for, and where all is granted no
other device owns one of the two pins. -/
def SharesSafely (s : MiscDriver) (op : MiscOp) : Prop :=
  match op.2 with
  | .configPins env param1 param2 =>
    let device := { s.device op.1 with triggerPin := param1, echoPin := param2 }
    ¬ Refused param1 param2 →
      ((s.device op.1).arePinsConfigured = 1 → Grants env device s.pins) ∧
      (Grants env device s.pins → ∀ pin ∈ s.pins, HasRole device pin →
        pin.isPinConfigured ≠ 0 → pin.deviceMinorNumber = op.1)
  | _ => True

/-! ## The invariant -/

/-- The galileo pins of the board. -/
def boardPins : List Int32 := (populateGen2PinsData fun _ => 0).map Gen2PinConfig.galileoPin

theorem boardPins_eq : boardPins = ((List.range 14).map fun n : Nat => Int32.ofInt n).reverse :=
  rfl

theorem mem_boardPins {pin : Int32} (hmin : ¬ pin < 0) (hmax : ¬ pin > 12) : pin ∈ boardPins := by
  have hlow : 0 ≤ pin.toInt := by
    rw [Int32.lt_iff_toInt_lt] at hmin
    exact not_lt.mp hmin
  have hhigh : pin.toInt ≤ 12 := by
    rw [gt_iff_lt, Int32.lt_iff_toInt_lt] at hmax
    exact not_lt.mp hmax
  rw [boardPins_eq, List.mem_reverse, List.mem_map]
  refine ⟨pin.toInt.toNat, List.mem_range.mpr (by omega), ?_⟩
  rw [Int.toNat_of_nonneg hlow, Int32.ofInt_toInt]

/-- Every open device that is marked as configured owns its two pins. -/
structure Sharing (opened : Finset Int32) (s : MiscDriver) : Prop where
  owned : Owned opened s
  records : s.pins.map Gen2PinConfig.galileoPin = boardPins
  owns : ∀ minor ∈ opened, (s.device minor).arePinsConfigured = 1 →
    Owns s.pins minor (s.device minor).triggerPin ∧ Owns s.pins minor (s.device minor).echoPin

theorem sharing_init (blank : Int32 → Hcsr04Device) (minorLeft : Int32 → Int32) :
    Sharing ∅ (hcsr04Init blank minorLeft) :=
  ⟨owned_init blank minorLeft, rfl, fun _ hmem => absurd hmem (Finset.notMem_empty _)⟩

/-- An operation leaves the other devices alone. -/
theorem miscOp_other (s : MiscDriver) {op : MiscOp} {minor : Int32} (hne : minor ≠ op.1) :
    (miscOp s op).1.device minor = s.device minor := by
  obtain ⟨m, call⟩ := op
  cases call with
  | openFile | releaseFile => exact Function.update_of_ne hne ..
  | configPins env param1 param2 =>
    simp only [miscOp, configPinsIoctl]
    split
    · rfl
    · exact Function.update_of_ne hne ..
  | setParameters param1 param2 =>
    simp only [miscOp, setParametersIoctl]
    split
    · rfl
    · exact Function.update_of_ne hne ..

/-- What `CONFIG_PINS` leaves of the device and of the records. -/
theorem configPinsIoctl_eq (env : KernelEnv) {minor param1 param2 : Int32} (s : MiscDriver)
    (haccepted : ¬ Refused param1 param2) :
    let released := releaseInterrupt (s.device minor) s.calls
    let r := configurePins env s.pins
      { released.2 with triggerPin := param1, echoPin := param2 } released.1
    (configPinsIoctl env minor param1 param2 s).1.pins = r.2.2.1 ∧
      (configPinsIoctl env minor param1 param2 s).1.device minor =
        if r.2.2.2 = 0 then r.2.1 else { r.2.1 with arePinsConfigured := 1 } := by
  simp only [configPinsIoctl, if_neg (show ¬ (_ ∨ _) from haccepted)]
  exact ⟨rfl, Function.update_self ..⟩

theorem releaseInterrupt_arePinsConfigured (device : Hcsr04Device) (calls : List KernelCall) :
    (releaseInterrupt device calls).2.arePinsConfigured = device.arePinsConfigured := by
  unfold releaseInterrupt
  split <;> rfl

/-- A record configured by the device, or one it owned before, is owned by it. -/
theorem owns_of_configuredBy {pins pins' : List Gen2PinConfig} {device : Hcsr04Device}
    {minor galileoPin : Int32} (hminor : device.miscMinor = minor)
    (hrecords : galileoPin ∈ pins.map Gen2PinConfig.galileoPin)
    (hrole : device.triggerPin = galileoPin ∨ device.echoPin = galileoPin)
    (hconfigured : ∀ pin ∈ pins, HasRole device pin → configuredBy device.miscMinor pin ∈ pins')
    (hown : ∀ pin ∈ pins, HasRole device pin → pin.isPinConfigured ≠ 0 →
      pin.deviceMinorNumber = minor) : Owns pins' minor galileoPin := by
  obtain ⟨pin, hmem, rfl⟩ := List.mem_map.mp hrecords
  refine ⟨_, hconfigured pin hmem hrole, ?_⟩
  unfold configuredBy
  split
  next hset => exact ⟨rfl, hset, hown pin hmem hrole hset⟩
  next => exact ⟨rfl, (by decide : (1 : Int32) ≠ 0), hminor⟩

theorem Sharing.configPins {opened : Finset Int32} {s : MiscDriver} (h : Sharing opened s)
    {env : KernelEnv} {minor param1 param2 : Int32}
    (hsafe : SharesSafely s (minor, .configPins env param1 param2))
    (hset : ((configPinsIoctl env minor param1 param2 s).1.device minor).arePinsConfigured = 1)
    (hopen : minor ∈ opened) :
    Owns (configPinsIoctl env minor param1 param2 s).1.pins minor
        ((configPinsIoctl env minor param1 param2 s).1.device minor).triggerPin ∧
      Owns (configPinsIoctl env minor param1 param2 s).1.pins minor
        ((configPinsIoctl env minor param1 param2 s).1.device minor).echoPin := by
  by_cases hrefused : Refused param1 param2
  · have hsame : (configPinsIoctl env minor param1 param2 s).1 = s := by
      simp only [configPinsIoctl, if_pos (show _ ∨ _ from hrefused)]
    rw [hsame] at hset ⊢
    exact h.owns minor hopen hset
  · obtain ⟨hconfigured, hown⟩ := hsafe hrefused
    obtain ⟨hpins, hdevice⟩ := @configPinsIoctl_eq env minor param1 param2 s hrefused
    have hminor :=
      (releaseInterrupt_miscMinor (s.device minor) s.calls).trans (h.owned.minors minor)
    have hflag := releaseInterrupt_arePinsConfigured (s.device minor) s.calls
    generalize releaseInterrupt (s.device minor) s.calls = released at hpins hdevice hminor hflag
    obtain ⟨calls₀, device₀⟩ := released
    let device₁ := { device₀ with triggerPin := param1, echoPin := param2 }
    have hminor₁ : device₁.miscMinor = minor := hminor
    obtain ⟨hgrants, hrecords⟩ := configurePins_granted env s.pins device₁ calls₀
    obtain ⟨irqData, hkept⟩ := configurePins_device env s.pins device₁ calls₀
    have hgrants' : Grants env { s.device minor with triggerPin := param1, echoPin := param2 }
        s.pins ↔ (configurePins env s.pins device₁ calls₀).2.2.2 ≠ 0 := hgrants.symm
    -- marked as configured now: the configuration succeeded, or the device was marked before
    have hret : (configurePins env s.pins device₁ calls₀).2.2.2 ≠ 0 := by
      intro hzero
      rw [hdevice, if_pos hzero, hkept] at hset
      exact hgrants'.mp (hconfigured (hflag.symm.trans hset)) hzero
    have hmine : ∀ pin ∈ s.pins, HasRole device₁ pin → pin.isPinConfigured ≠ 0 →
        pin.deviceMinorNumber = minor := hown (hgrants'.mpr hret)
    have hrange := hrefused
    simp only [Refused, not_or] at hrange
    rw [hpins, hdevice, if_neg hret, hkept]
    constructor
    · exact owns_of_configuredBy hminor₁ (h.records ▸ mem_boardPins hrange.1 hrange.2.1) (.inl rfl)
        (hrecords hret) hmine
    · exact owns_of_configuredBy hminor₁ (h.records ▸ mem_boardPins hrange.2.2.1 hrange.2.2.2.1)
        (.inr rfl) (hrecords hret) hmine

theorem Sharing.step {opened : Finset Int32} {s : MiscDriver} (h : Sharing opened s) {op : MiscOp}
    (hop : Allowed opened op) (hsafe : SharesSafely s op) :
    Sharing (opens opened op) (miscOp s op).1 := by
  obtain ⟨calls, -, hpass⟩ := miscOp_pass s op
  refine ⟨h.owned.step hop, (hpass.map_eq fun _ _ _ => rfl).trans h.records, ?_⟩
  intro minor hmem hset
  by_cases hne : minor = op.1
  · obtain ⟨m, call⟩ := op
    obtain rfl : minor = m := hne
    cases call with
    | openFile =>
      have hzero : (initializeDevice (s.device minor)).arePinsConfigured = 1 := by
        simpa [miscOp, hcsr04Open, MiscDriver.setDevice] using hset
      exact absurd hzero (by simp [initializeDevice])
    | configPins env param1 param2 => exact h.configPins hsafe hset hmem
    | setParameters param1 param2 =>
      simp only [miscOp, setParametersIoctl] at hset ⊢
      split at hset
      next hwrong =>
        rw [if_pos hwrong]
        exact h.owns minor hmem hset
      next hwrong =>
        rw [if_neg hwrong]
        simp only [MiscDriver.setDevice, Function.update_self] at hset ⊢
        exact h.owns minor hmem hset
    | releaseFile => exact absurd hmem (Finset.notMem_erase minor opened)
  · rw [miscOp_other s hne] at hset ⊢
    have hmem' : minor ∈ opened := by
      unfold opens at hmem
      split at hmem
      · exact (Finset.mem_insert.mp hmem).resolve_left hne
      · exact Finset.mem_of_mem_erase hmem
      · exact hmem
    have howner : minor ≠ (s.device op.1).miscMinor := by
      rw [h.owned.minors]
      exact hne
    exact (h.owns minor hmem' hset).imp (hpass.owns howner) (hpass.owns howner)

theorem Sharing.run {opened : Finset Int32} {s : MiscDriver} (h : Sharing opened s)
    {ops : List MiscOp} (honce : OpenOnce opened ops)
    (hsafe : Along (fun s op => some (miscOp s op)) SharesSafely s ops) :
    Sharing (openAfter opened ops) (afterOps s ops) := by
  induction ops generalizing opened s with
  | nil => exact h
  | cons op ops ih =>
    exact ih (h.step honce.1 hsafe.1) honce.2 (hsafe.2 _ _ rfl)

/-! ## The main result -/

theorem Owns.keeps {minorLeft : Int32 → Int32} {s : MiscDriver} (h : Accounted minorLeft s)
    {minor galileoPin : Int32} (howns : Owns s.pins minor galileoPin) :
    Keeps s minor galileoPin := by
  obtain ⟨pin, hmem, hpin, hset, howner⟩ := howns
  refine ⟨pin, hmem, hpin, howner, fun line hline => ?_⟩
  rw [h.held.held, Finset.empty_union, configuredLines, List.mem_toFinset]
  exact List.mem_flatMap.mpr ⟨pin, List.mem_filter.mpr ⟨hmem, by simpa using hset⟩, hline⟩

/-- Along every run whose configurations share the pins safely, a configured device keeps its
pins. -/
theorem configured_keeps_pins (blank : Int32 → Hcsr04Device) (minorLeft : Int32 → Int32)
    (ops : List MiscOp) (honce : OpenOnce ∅ ops)
    (hsafe : Along (fun s op => some (miscOp s op)) SharesSafely (hcsr04Init blank minorLeft) ops) :
    KeepsPins (openAfter ∅ ops) (afterOps (hcsr04Init blank minorLeft) ops) := by
  have haccounted := (accounted_init blank minorLeft).run ops
  intro minor hmem hset
  have howns := ((sharing_init blank minorLeft).run honce hsafe).owns minor hmem hset
  exact ⟨howns.1.keeps haccounted, howns.2.keeps haccounted⟩

/-! ## Devices with and without a common pin -/

instance (device : Hcsr04Device) (pin : Gen2PinConfig) : Decidable (HasRole device pin) :=
  inferInstanceAs (Decidable (_ ∨ _))

instance (env : KernelEnv) (device : Hcsr04Device) (pin : Gen2PinConfig) :
    Decidable (GrantsPin env device pin) :=
  inferInstanceAs (Decidable ((_ → ∀ line ∈ pin.lines, _) ∧ (_ → _ ∧ _)))

instance (env : KernelEnv) (device : Hcsr04Device) (pins : List Gen2PinConfig) :
    Decidable (Grants env device pins) :=
  inferInstanceAs (Decidable (∀ pin ∈ pins, _ → _))

instance (s : MiscDriver) (op : MiscOp) : Decidable (SharesSafely s op) :=
  match op with
  | (_, .configPins _ _ _) =>
    inferInstanceAs (Decidable (¬ _ → (_ → _) ∧ (_ → ∀ pin ∈ s.pins, _ → _ → _)))
  | (_, .openFile) => isTrue trivial
  | (_, .setParameters _ _) => isTrue trivial
  | (_, .releaseFile) => isTrue trivial

instance (s : MiscDriver) (minor galileoPin : Int32) : Decidable (Keeps s minor galileoPin) :=
  inferInstanceAs (Decidable (∃ pin ∈ s.pins, _ ∧ _ ∧ ∀ line ∈ pin.lines, _))

/-- A device on pins of its own, while another one comes, configures a pin twice and goes. -/
theorem configured_keeps_pins_apart :
    let ops : List MiscOp := [(5, .openFile), (5, .configPins grantAll 3 2), (6, .openFile),
      (6, .configPins grantAll 5 4), (6, .configPins grantAll 6 4), (6, .releaseFile)]
    let s := afterOps (hcsr04Init (fun _ => blankDevice) fun _ => 0) ops
    (s.device 5).arePinsConfigured = 1 ∧ KeepsPins (openAfter ∅ ops) s :=
  ⟨by decide, configured_keeps_pins _ _ _ (by simp [OpenOnce, Allowed, opens]) (by decide)⟩

/-- The second device configures the trigger pin of the first one and does not become its owner:
the release of the first device frees the pin's lines. -/
theorem not_configured_keeps_pins :
    ¬ ∀ (blank : Int32 → Hcsr04Device) (minorLeft : Int32 → Int32) (ops : List MiscOp),
      OpenOnce ∅ ops → KeepsPins (openAfter ∅ ops) (afterOps (hcsr04Init blank minorLeft) ops) := by
  intro hall
  have hkeeps := hall (fun _ => blankDevice) (fun _ => 0)
    [(5, .openFile), (6, .openFile), (5, .configPins grantAll 3 2), (6, .configPins grantAll 3 4),
      (5, .releaseFile)] (by simp [OpenOnce, Allowed, opens]) 6
      (by simp [openAfter, opens]) (by decide)
  exact absurd hkeeps.1 (by decide)

end KernelDrivers.Hcsr04
