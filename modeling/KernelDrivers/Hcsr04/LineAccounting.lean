import KernelDrivers.Hcsr04.Pins
import KernelDrivers.Lib.Accounting

/-!
# Accounting for the GPIO lines

The lines the driver holds are those of the configured pin records. At one record a call does one
of four things: nothing, a request of all its lines that fails and is rolled back, one that
succeeds, or the release of all its lines. No two records share a line.
-/

namespace KernelDrivers.Hcsr04
open Lib

/-- The request or release of a line a call to the kernel makes. -/
def gpioEvent : KernelCall → Option (Event Int32)
  | .gpioRequest pin ret => some (.request pin (ret = 0))
  | .gpioFree pin => some (.release pin)
  | _ => none

def gpioEvents (calls : List KernelCall) : List (Event Int32) := calls.filterMap gpioEvent

def heldLines (calls : List KernelCall) : Finset Int32 := held (gpioEvents calls)

def optLine (pin : Int32) : List Int32 := if pin ≠ NO_PIN then [pin] else []

/-- The lines of a record: linux, level shifter and the two pinmuxes. -/
def Gen2PinConfig.lines (pin : Gen2PinConfig) : List Int32 :=
  pin.linuxGpioPin ::
    (optLine pin.levelShifterPin ++ optLine pin.pinmux1 ++ optLine pin.pinmux2)

/-- The lines of the configured records. -/
def configuredLines (pins : List Gen2PinConfig) : Finset Int32 :=
  ((pins.filter fun pin => pin.isPinConfigured ≠ 0).flatMap Gen2PinConfig.lines).toFinset

/-! ## Calls at one record -/

theorem gpioEvents_cons (call : KernelCall) (calls : List KernelCall) :
    gpioEvents (call :: calls) = (gpioEvent call).toList ++ gpioEvents calls := by
  cases h : gpioEvent call <;> simp [gpioEvents, h]

/-- Whether the kernel grants a line. -/
def KernelEnv.grants (env : KernelEnv) (line : Int32) : Bool := env.gpioRequest line = 0

theorem pinConfig_request (env : KernelEnv) (pin ioFlag : Int32) (val : Bool)
    (calls : List KernelCall) :
    gpioEvents (pinConfig env pin ioFlag val true calls).1 =
        .request pin (env.grants pin) :: gpioEvents calls ∧
      ((pinConfig env pin ioFlag val true calls).2 = 0 ↔ env.grants pin) := by
  by_cases hret : env.gpioRequest pin = 0
  · by_cases hio : ioFlag = 0
    · simp [pinConfig, hret, hio, gpioEvents_cons, gpioEvent, KernelEnv.grants]
    · by_cases hpin : pin < 64 <;>
        simp [pinConfig, hret, hio, hpin, gpioEvents_cons, gpioEvent, KernelEnv.grants]
  · simp [pinConfig, hret, gpioEvents_cons, gpioEvent, KernelEnv.grants]

theorem pinConfig_update (env : KernelEnv) (pin ioFlag : Int32) (val : Bool)
    (calls : List KernelCall) :
    gpioEvents (pinConfig env pin ioFlag val false calls).1 = gpioEvents calls ∧
      (pinConfig env pin ioFlag val false calls).2 = 0 := by
  by_cases hio : ioFlag = 0
  · simp [pinConfig, hio, gpioEvents_cons, gpioEvent]
  · by_cases hpin : pin < 64 <;> simp [pinConfig, hio, hpin, gpioEvents_cons, gpioEvent]

/-- One stage of a configuration: the next line of the record is requested. A refusal leaves
what was acquired before it to be given back. -/
theorem acquire_line (env : KernelEnv) (pin ioFlag : Int32) (val : Bool)
    (calls : List KernelCall) (acquired rest : List Int32) :
    acquireAll env.grants acquired (pin :: rest) (gpioEvents calls) =
      let (calls', ret) := pinConfig env pin ioFlag val true calls
      if ret = 0 then acquireAll env.grants (acquired ++ [pin]) rest (gpioEvents calls')
      else (releaseAll acquired (gpioEvents calls'), false) := by
  obtain ⟨hevents, hret⟩ := pinConfig_request env pin ioFlag val calls
  simp only [acquireAll, hret, hevents]
  cases env.grants pin <;> rfl

/-- The same for a line the record may lack. -/
theorem acquire_optLine (env : KernelEnv) (pin ioFlag : Int32) (val : Bool)
    (calls : List KernelCall) (acquired rest : List Int32) :
    acquireAll env.grants acquired (optLine pin ++ rest) (gpioEvents calls) =
      let (calls', ret) := pinConfigUnlessNone env pin ioFlag val true calls
      if ret = 0 then acquireAll env.grants (acquired ++ optLine pin) rest (gpioEvents calls')
      else (releaseAll acquired (gpioEvents calls'), false) := by
  by_cases hpin : pin = NO_PIN
  · simp [optLine, pinConfigUnlessNone, hpin]
  · simpa [optLine, pinConfigUnlessNone, hpin] using
      acquire_line env pin ioFlag val calls acquired rest

theorem gpioEvents_free (pin : Int32) (calls : List KernelCall) :
    gpioEvents (gpioFreeUnlessNone pin calls) = releaseAll (optLine pin) (gpioEvents calls) := by
  by_cases hpin : pin = NO_PIN <;>
    simp [gpioFreeUnlessNone, optLine, hpin, releaseAll, gpioEvents_cons, gpioEvent]

/-- Updating a configured record touches no line and does not fail. -/
theorem updatePin_spec (env : KernelEnv) (ioFlag : Int32) (pin : Gen2PinConfig)
    (calls : List KernelCall) :
    gpioEvents (updatePin env ioFlag pin calls).1 = gpioEvents calls ∧
      (updatePin env ioFlag pin calls).2 = some pin := by
  obtain ⟨h₁, hret₁⟩ := pinConfig_update env pin.linuxGpioPin ioFlag false calls
  by_cases hlevel : pin.levelShifterPin = NO_PIN
  · simp [updatePin, pinConfigUnlessNone, hret₁, hlevel, h₁]
  · obtain ⟨h₂, hret₂⟩ := pinConfig_update env pin.levelShifterPin ioFlag false
      (pinConfig env pin.linuxGpioPin ioFlag false false calls).1
    simp [updatePin, pinConfigUnlessNone, hret₁, hlevel, hret₂, h₂, h₁]

/-- A record configured for the first time requests all its lines or none. -/
theorem configureNewPin_spec (env : KernelEnv) (minor ioFlag : Int32) (pin : Gen2PinConfig)
    (calls : List KernelCall) :
    let acquired := acquireAll env.grants [] pin.lines (gpioEvents calls)
    gpioEvents (configureNewPin env minor ioFlag pin calls).1 = acquired.1 ∧
      (configureNewPin env minor ioFlag pin calls).2 =
        if acquired.2 then some { pin with isPinConfigured := 1, deviceMinorNumber := minor }
        else none := by
  have hlines : pin.lines = pin.linuxGpioPin :: (optLine pin.levelShifterPin ++
      (optLine pin.pinmux1 ++ (optLine pin.pinmux2 ++ []))) := by
    simp [Gen2PinConfig.lines]
  have hfree : ∀ calls, gpioEvents (.gpioFree pin.linuxGpioPin :: calls) =
      .release pin.linuxGpioPin :: gpioEvents calls := fun _ => rfl
  simp only [configureNewPin, hlines]
  -- stage by stage: go on with the next line, or leave with what is acquired given back
  rw [acquire_line env _ ioFlag false]
  obtain ⟨calls₁, ret₁⟩ := pinConfig env pin.linuxGpioPin ioFlag false true calls
  by_cases h₁ : ret₁ = 0
  · simp only [h₁, if_true, ne_eq, not_true_eq_false, if_false]
    rw [acquire_optLine env _ ioFlag false]
    obtain ⟨calls₂, ret₂⟩ := pinConfigUnlessNone env pin.levelShifterPin ioFlag false true calls₁
    by_cases h₂ : ret₂ = 0
    · simp only [h₂, if_true, not_true_eq_false, if_false]
      rw [acquire_optLine env _ 1 (pin.pinmux1Level ≠ 0)]
      obtain ⟨calls₃, ret₃⟩ :=
        pinConfigUnlessNone env pin.pinmux1 1 (pin.pinmux1Level ≠ 0) true calls₂
      by_cases h₃ : ret₃ = 0
      · simp only [h₃, if_true, not_true_eq_false, if_false]
        rw [acquire_optLine env _ 1 (pin.pinmux2Level ≠ 0)]
        obtain ⟨calls₄, ret₄⟩ :=
          pinConfigUnlessNone env pin.pinmux2 1 (pin.pinmux2Level ≠ 0) true calls₃
        by_cases h₄ : ret₄ = 0
        · simp [h₄, acquireAll]
        · simp [h₄, hfree, gpioEvents_free, releaseAll, releaseAll_append]
      · simp [h₃, hfree, gpioEvents_free, releaseAll]
    · simp [h₂, hfree, releaseAll]
  · simp [h₁, releaseAll]

theorem releaseGpioPin_events (pin : Gen2PinConfig) (calls : List KernelCall) :
    gpioEvents (releaseGpioPin pin calls).1 = releaseAll pin.lines (gpioEvents calls) := by
  simp [releaseGpioPin, gpioEvents_free, gpioEvents_cons, gpioEvent, Gen2PinConfig.lines,
    releaseAll, releaseAll_append]

/-! ## One step at a record -/

/-- What a call of device `minor` may do at one record. -/
inductive RecordStep (minor : Int32) (pin : Gen2PinConfig) (calls : List KernelCall) :
    Gen2PinConfig → List KernelCall → Prop
  | same {calls' : List KernelCall} :
      gpioEvents calls' = gpioEvents calls → RecordStep minor pin calls pin calls'
  | refused (grant : Int32 → Bool) {calls' : List KernelCall} :
      pin.isPinConfigured = 0 →
      acquireAll grant [] pin.lines (gpioEvents calls) = (gpioEvents calls', false) →
      RecordStep minor pin calls pin calls'
  | configured (grant : Int32 → Bool) {calls' : List KernelCall} :
      pin.isPinConfigured = 0 →
      acquireAll grant [] pin.lines (gpioEvents calls) = (gpioEvents calls', true) →
      RecordStep minor pin calls
        { pin with isPinConfigured := 1, deviceMinorNumber := minor } calls'
  | released {calls' : List KernelCall} :
      pin.isPinConfigured ≠ 0 → minor = pin.deviceMinorNumber →
      gpioEvents calls' = releaseAll pin.lines (gpioEvents calls) →
      RecordStep minor pin calls
        { pin with isPinConfigured := 0, deviceMinorNumber := NO_VALUE } calls'

/-- A pass over records in list order, which may stop early. -/
inductive Pass (minor : Int32) :
    List Gen2PinConfig → List KernelCall → List Gen2PinConfig → List KernelCall → Prop
  | stop (pins : List Gen2PinConfig) (calls : List KernelCall) : Pass minor pins calls pins calls
  | cons {pin pin' : Gen2PinConfig} {pins pins' : List Gen2PinConfig}
      {calls calls₁ calls' : List KernelCall} :
      RecordStep minor pin calls pin' calls₁ → Pass minor pins calls₁ pins' calls' →
      Pass minor (pin :: pins) calls (pin' :: pins') calls'

/-- A step changes no more of the record than who configured it. -/
theorem RecordStep.static {minor : Int32} {pin pin' : Gen2PinConfig}
    {calls calls' : List KernelCall} (h : RecordStep minor pin calls pin' calls') :
    ∃ configured owner, pin' =
      { pin with isPinConfigured := configured, deviceMinorNumber := owner } := by
  cases h with
  | same => exact ⟨pin.isPinConfigured, pin.deviceMinorNumber, rfl⟩
  | refused => exact ⟨pin.isPinConfigured, pin.deviceMinorNumber, rfl⟩
  | configured => exact ⟨1, minor, rfl⟩
  | released => exact ⟨0, NO_VALUE, rfl⟩

theorem RecordStep.lines_eq {minor : Int32} {pin pin' : Gen2PinConfig}
    {calls calls' : List KernelCall} (h : RecordStep minor pin calls pin' calls') :
    pin'.lines = pin.lines := by
  obtain ⟨_, _, rfl⟩ := h.static
  rfl

theorem Pass.map_eq {β : Type} {f : Gen2PinConfig → β}
    (hf : ∀ pin configured owner,
      f { pin with isPinConfigured := configured, deviceMinorNumber := owner } = f pin)
    {minor : Int32} {pins pins' : List Gen2PinConfig} {calls calls' : List KernelCall}
    (h : Pass minor pins calls pins' calls') : pins'.map f = pins.map f := by
  induction h with
  | stop => rfl
  | cons hstep _ ih =>
    obtain ⟨configured, owner, rfl⟩ := hstep.static
    rw [List.map_cons, List.map_cons, hf, ih]

/-- What holds of every record, and is kept by every step, holds after the pass. -/
theorem Pass.forall_mem {P : Gen2PinConfig → Prop} {minor : Int32}
    (hP : ∀ pin calls pin' calls', RecordStep minor pin calls pin' calls' → P pin → P pin')
    {pins pins' : List Gen2PinConfig} {calls calls' : List KernelCall}
    (h : Pass minor pins calls pins' calls') (hpins : ∀ pin ∈ pins, P pin) :
    ∀ pin ∈ pins', P pin := by
  induction h with
  | stop => exact hpins
  | cons hstep _ ih =>
    have hhead := hP _ _ _ _ hstep (hpins _ List.mem_cons_self)
    exact List.forall_mem_cons.mpr
      ⟨hhead, ih fun pin hpin => hpins pin (List.mem_cons_of_mem _ hpin)⟩

/-- `is_pin_configured` is 0 or 1. -/
def Gen2PinConfig.Flagged (pin : Gen2PinConfig) : Prop :=
  pin.isPinConfigured = 0 ∨ pin.isPinConfigured = 1

theorem RecordStep.flagged {minor : Int32} {pin pin' : Gen2PinConfig}
    {calls calls' : List KernelCall} (h : RecordStep minor pin calls pin' calls')
    (hpin : pin.Flagged) : pin'.Flagged := by
  cases h with
  | same => exact hpin
  | refused => exact hpin
  | configured => exact .inr rfl
  | released => exact .inl rfl

/-! ## What is held -/

/-- The driver holds the lines of the configured records among `pins`, and those of `outside`. -/
structure LinesHeld (outside : Finset Int32) (pins : List Gen2PinConfig)
    (calls : List KernelCall) : Prop where
  legal : Legal (gpioEvents calls)
  held : heldLines calls = outside ∪ configuredLines pins

theorem configuredLines_cons (pin : Gen2PinConfig) (pins : List Gen2PinConfig) :
    configuredLines (pin :: pins) =
      (if pin.isPinConfigured ≠ 0 then pin.lines.toFinset else ∅) ∪ configuredLines pins := by
  by_cases h : pin.isPinConfigured = 0 <;> simp [configuredLines, h]

/-- The lines of the record at the head count as outside of the rest. -/
theorem linesHeld_cons {outside : Finset Int32} {pin : Gen2PinConfig}
    {pins : List Gen2PinConfig} {calls : List KernelCall} :
    LinesHeld outside (pin :: pins) calls ↔
      LinesHeld (outside ∪ if pin.isPinConfigured ≠ 0 then pin.lines.toFinset else ∅)
        pins calls := by
  constructor
  · rintro ⟨hlegal, hheld⟩
    exact ⟨hlegal, by rw [hheld, configuredLines_cons, Finset.union_assoc]⟩
  · rintro ⟨hlegal, hheld⟩
    exact ⟨hlegal, by rw [hheld, configuredLines_cons, Finset.union_assoc]⟩

theorem mem_allLines_of_configured {pins : List Gen2PinConfig} {line : Int32}
    (h : line ∈ configuredLines pins) : line ∈ pins.flatMap Gen2PinConfig.lines := by
  obtain ⟨pin, hpin, hline⟩ := List.mem_flatMap.mp (List.mem_toFinset.mp h)
  exact List.mem_flatMap.mpr ⟨pin, (List.mem_filter.mp hpin).1, hline⟩

/-- One step at a record, when the others and `outside` have other lines. -/
theorem RecordStep.linesHeld {minor : Int32} {pin pin' : Gen2PinConfig}
    {pins : List Gen2PinConfig} {calls calls' : List KernelCall} {outside : Finset Int32}
    (h : RecordStep minor pin calls pin' calls') (hnodup : pin.lines.Nodup)
    (hpins : ∀ line ∈ pin.lines, line ∉ configuredLines pins)
    (houtside : ∀ line ∈ pin.lines, line ∉ outside)
    (hheld : LinesHeld outside (pin :: pins) calls) :
    LinesHeld outside (pin' :: pins) calls' := by
  obtain ⟨hlegal, hlines⟩ := hheld
  have hlines' : held (gpioEvents calls) = outside ∪
      ((if pin.isPinConfigured ≠ 0 then pin.lines.toFinset else ∅) ∪ configuredLines pins) := by
    rw [← configuredLines_cons]
    exact hlines
  -- the lines of a record that is not configured are not held
  have hfree : pin.isPinConfigured = 0 → ∀ line ∈ pin.lines, line ∉ held (gpioEvents calls) := by
    intro hzero line hline
    simp [hlines', hzero, hpins line hline, houtside line hline]
  cases h with
  | same hevents => exact ⟨hevents ▸ hlegal, by rw [heldLines, hevents]; exact hlines⟩
  | refused grant hzero hacquire =>
    have hspec := acquireAll_nil_spec grant hnodup (hfree hzero) hlegal
    rw [hacquire] at hspec
    have hsame : held (gpioEvents calls') = held (gpioEvents calls) := by simpa using hspec.2
    exact ⟨hspec.1, hsame.trans hlines⟩
  | configured grant hzero hacquire =>
    have hspec := acquireAll_nil_spec grant hnodup (hfree hzero) hlegal
    rw [hacquire, hlines'] at hspec
    refine ⟨hspec.1, hspec.2.trans ?_⟩
    have hset : (1 : Int32) ≠ 0 := by decide
    rw [configuredLines_cons, if_neg (not_not_intro hzero), if_pos rfl, if_pos hset,
      Finset.empty_union, Finset.union_assoc, Finset.union_comm (configuredLines pins)]
    rfl
  | released hset howner hevents =>
    have hspec := releaseAll_spec hnodup (fun line hline => by simp [hlines', hset, hline]) hlegal
    rw [← hevents, hlines'] at hspec
    refine ⟨hspec.1, hspec.2.trans ?_⟩
    rw [configuredLines_cons, if_pos hset, if_neg (not_not_intro rfl), Finset.empty_union]
    ext line
    by_cases hline : line ∈ pin.lines
    · simp [hline, hpins line hline, houtside line hline]
    · simp [hline]

/-- A pass over records with distinct lines keeps the accounting. -/
theorem Pass.linesHeld {minor : Int32} {pins pins' : List Gen2PinConfig}
    {calls calls' : List KernelCall} (h : Pass minor pins calls pins' calls')
    {outside : Finset Int32} (hnodup : (pins.flatMap Gen2PinConfig.lines).Nodup)
    (houtside : ∀ line ∈ pins.flatMap Gen2PinConfig.lines, line ∉ outside)
    (hheld : LinesHeld outside pins calls) : LinesHeld outside pins' calls' := by
  induction h generalizing outside with
  | stop => exact hheld
  | @cons pin pin' pins pins' calls calls₁ calls' hstep _ ih =>
    rw [List.flatMap_cons, List.nodup_append] at hnodup
    obtain ⟨hpin, hpins, hdistinct⟩ := hnodup
    have hrest : ∀ line ∈ pin.lines, line ∉ configuredLines pins := by
      intro line hline hconf
      exact hdistinct line hline line (mem_allLines_of_configured hconf) rfl
    have hhead : ∀ line ∈ pin.lines, line ∉ outside := by
      intro line hline
      exact houtside line (by rw [List.flatMap_cons]; exact List.mem_append_left _ hline)
    have hafter : LinesHeld outside (pin' :: pins) calls₁ :=
      hstep.linesHeld hpin hrest hhead hheld
    refine linesHeld_cons.mpr (ih hpins ?_ (linesHeld_cons.mp hafter))
    intro line hline
    have hnot : line ∉ pin'.lines := by
      intro hmem
      exact hdistinct line (hstep.lines_eq ▸ hmem) line hline rfl
    have hout : line ∉ outside :=
      houtside line (by rw [List.flatMap_cons]; exact List.mem_append_right _ hline)
    split <;> simp [hout, hnot]

/-! ## The passes the driver makes -/

theorem wirePin_events (env : KernelEnv) (device : Hcsr04Device) (ioFlag : Int32)
    (pin : Gen2PinConfig) (calls : List KernelCall) :
    gpioEvents (wirePin env device ioFlag pin calls).1 = gpioEvents calls := by
  unfold wirePin configureInterrupt
  by_cases hio : ioFlag = 0
  · by_cases hirq : env.gpioToIrq pin.linuxGpioPin < 0
    · simp [hio, hirq]
    · by_cases herror : env.requestIrq (env.gpioToIrq pin.linuxGpioPin) = 0 <;>
        simp [hio, hirq, herror, gpioEvents_cons, gpioEvent]
  · simp [hio]

theorem RecordStep.congr {minor : Int32} {pin pin' : Gen2PinConfig}
    {calls calls₁ calls₂ : List KernelCall} (h : RecordStep minor pin calls pin' calls₁)
    (hevents : gpioEvents calls₂ = gpioEvents calls₁) :
    RecordStep minor pin calls pin' calls₂ := by
  cases h with
  | same h => exact .same (hevents.trans h)
  | refused grant hzero h => exact .refused grant hzero (h.trans (by rw [hevents]))
  | configured grant hzero h => exact .configured grant hzero (h.trans (by rw [hevents]))
  | released hset howner h => exact .released hset howner (hevents.trans h)

theorem configureRecord_step (env : KernelEnv) (minor ioFlag : Int32) (pin : Gen2PinConfig)
    (calls : List KernelCall) :
    RecordStep minor pin calls ((configureRecord env minor ioFlag pin calls).2.getD pin)
      (configureRecord env minor ioFlag pin calls).1 := by
  unfold configureRecord
  by_cases hzero : pin.isPinConfigured = 0
  · rw [if_neg (not_not_intro hzero)]
    obtain ⟨hevents, hconfigured⟩ := configureNewPin_spec env minor ioFlag pin calls
    rw [hconfigured]
    cases hok : (acquireAll env.grants [] pin.lines (gpioEvents calls)).2 with
    | true => exact .configured env.grants hzero (Prod.ext hevents.symm hok)
    | false => exact .refused env.grants hzero (Prod.ext hevents.symm hok)
  · rw [if_pos hzero]
    obtain ⟨hevents, hsame⟩ := updatePin_spec env ioFlag pin calls
    rw [hsame]
    exact .same hevents

/-- What `configure_pins` does at a record of one of its two pins. -/
theorem configurePin_step (env : KernelEnv) (device : Hcsr04Device) (pin : Gen2PinConfig)
    (calls : List KernelCall) :
    RecordStep device.miscMinor pin calls (configurePin env device pin calls).2.2.1
      (configurePin env device pin calls).1 := by
  have hstep := configureRecord_step env device.miscMinor (ioFlagOf device pin) pin calls
  rcases hrecord : configureRecord env device.miscMinor (ioFlagOf device pin) pin calls with
    ⟨calls₁, _ | pin₁⟩
  · rw [hrecord] at hstep
    rw [configurePin_none hrecord]
    exact hstep
  · rw [hrecord] at hstep
    rw [configurePin_some hrecord]
    exact hstep.congr (wirePin_events env device _ pin₁ calls₁)

theorem configurePins_pass (env : KernelEnv) (pins : List Gen2PinConfig)
    (device : Hcsr04Device) (calls : List KernelCall) :
    Pass device.miscMinor pins calls (configurePins env pins device calls).2.2.1
      (configurePins env pins device calls).1 := by
  induction pins generalizing device calls with
  | nil => exact .stop [] calls
  | cons pin rest ih =>
    unfold configurePins
    split
    next hrole =>
      have hstep := configurePin_step env device pin calls
      obtain ⟨irqData, hdevice⟩ := configurePin_device env device pin calls
      rcases hpin : configurePin env device pin calls with ⟨calls₁, device₁, pin₁, ret⟩
      simp only [hpin] at hstep hdevice ⊢
      split
      · exact .cons hstep (.stop rest calls₁)
      · have hminor : device₁.miscMinor = device.miscMinor := by rw [hdevice]
        exact .cons hstep (hminor ▸ ih device₁ calls₁)
    next hother => exact .cons (.same rfl) (ih device calls)

theorem releaseGpioPins_pass (device : Hcsr04Device) (pins : List Gen2PinConfig)
    (calls : List KernelCall) :
    Pass device.miscMinor pins calls (releaseGpioPins device pins calls).2
      (releaseGpioPins device pins calls).1 := by
  induction pins generalizing calls with
  | nil => exact .stop [] calls
  | cons pin rest ih =>
    by_cases hown : pin.isPinConfigured ≠ 0 ∧ device.miscMinor = pin.deviceMinorNumber
    · simp only [releaseGpioPins, if_pos hown]
      exact .cons (.released hown.1 hown.2 (releaseGpioPin_events pin calls)) (ih _)
    · simp only [releaseGpioPins, if_neg hown]
      exact .cons (.same rfl) (ih calls)

/-! ## Runs -/

theorem gpioEvents_releaseInterrupt (device : Hcsr04Device) (calls : List KernelCall) :
    gpioEvents (releaseInterrupt device calls).1 = gpioEvents calls := by
  unfold releaseInterrupt
  split <;> simp [gpioEvents_cons, gpioEvent]

/-- Every call of the device file is a pass over the records. -/
theorem miscOp_pass (s : MiscDriver) (op : MiscOp) :
    ∃ calls, gpioEvents calls = gpioEvents s.calls ∧
      Pass (s.device op.1).miscMinor s.pins calls (miscOp s op).1.pins (miscOp s op).1.calls := by
  obtain ⟨minor, call⟩ := op
  cases call with
  | openFile => exact ⟨s.calls, rfl, .stop s.pins s.calls⟩
  | setParameters param1 param2 =>
    refine ⟨s.calls, rfl, ?_⟩
    by_cases h : param1 ≤ 0 ∨ param2 ≤ 0 <;> simp [miscOp, setParametersIoctl, h] <;>
      exact .stop s.pins s.calls
  | configPins env param1 param2 =>
    by_cases hwrong : param1 < 0 ∨ param1 > 12 ∨ param2 < 0 ∨ param2 > 12 ∨
        !isEdgeInterruptible param2
    · simp only [miscOp, configPinsIoctl, if_pos hwrong]
      exact ⟨s.calls, rfl, .stop s.pins s.calls⟩
    · simp only [miscOp, configPinsIoctl, if_neg hwrong]
      refine ⟨_, gpioEvents_releaseInterrupt (s.device minor) s.calls, ?_⟩
      rw [← releaseInterrupt_miscMinor (s.device minor) s.calls]
      exact configurePins_pass env s.pins { (releaseInterrupt (s.device minor) s.calls).2 with
        triggerPin := param1, echoPin := param2 } _
  | releaseFile =>
    simp only [miscOp, hcsr04Release]
    refine ⟨_, ?_, releaseGpioPins_pass (s.device minor) s.pins _⟩
    split <;> split <;> simp [gpioEvents_cons, gpioEvent]

/-- The lines of the records stay what they were, and they account for every line held. -/
structure Accounted (minorLeft : Int32 → Int32) (s : MiscDriver) : Prop where
  lines : s.pins.map Gen2PinConfig.lines =
    (populateGen2PinsData minorLeft).map Gen2PinConfig.lines
  flagged : ∀ pin ∈ s.pins, pin.Flagged
  held : LinesHeld ∅ s.pins s.calls

theorem allLines_eq {pins pins' : List Gen2PinConfig}
    (h : pins'.map Gen2PinConfig.lines = pins.map Gen2PinConfig.lines) :
    pins'.flatMap Gen2PinConfig.lines = pins.flatMap Gen2PinConfig.lines := by
  rw [List.flatMap_def, h, ← List.flatMap_def]

/-- No two records of the board share a line. -/
theorem populateGen2PinsData_nodup (minorLeft : Int32 → Int32) :
    ((populateGen2PinsData minorLeft).flatMap Gen2PinConfig.lines).Nodup := by
  change ((populateGen2PinsData fun _ => 0).flatMap Gen2PinConfig.lines).Nodup
  decide

theorem populateGen2PinsData_unset (minorLeft : Int32 → Int32) :
    ∀ pin ∈ populateGen2PinsData minorLeft, pin.isPinConfigured = 0 := by
  simp [populateGen2PinsData, populatePinData]

theorem accounted_init (blank : Int32 → Hcsr04Device) (minorLeft : Int32 → Int32) :
    Accounted minorLeft (hcsr04Init blank minorLeft) where
  lines := rfl
  flagged := fun pin hpin => .inl (populateGen2PinsData_unset minorLeft pin hpin)
  held := ⟨trivial, rfl⟩

theorem Accounted.step {minorLeft : Int32 → Int32} {s : MiscDriver} (h : Accounted minorLeft s)
    (op : MiscOp) : Accounted minorLeft (miscOp s op).1 := by
  obtain ⟨calls, hevents, hpass⟩ := miscOp_pass s op
  have hnodup : (s.pins.flatMap Gen2PinConfig.lines).Nodup := by
    rw [allLines_eq h.lines]
    exact populateGen2PinsData_nodup minorLeft
  have hheld : LinesHeld ∅ s.pins calls :=
    ⟨hevents ▸ h.held.legal, by rw [heldLines, hevents]; exact h.held.held⟩
  exact ⟨(hpass.map_eq fun _ _ _ => rfl).trans h.lines,
    hpass.forall_mem (fun _ _ _ _ hstep => hstep.flagged) h.flagged,
    hpass.linesHeld hnodup (by simp) hheld⟩

theorem Accounted.run {minorLeft : Int32 → Int32} {s : MiscDriver} (h : Accounted minorLeft s)
    (ops : List MiscOp) : Accounted minorLeft (afterOps s ops) := by
  induction ops generalizing s with
  | nil => exact h
  | cons op ops ih => exact ih (h.step op)

theorem configuredLines_eq {pins : List Gen2PinConfig} (h : ∀ pin ∈ pins, pin.Flagged) :
    configuredLines pins =
      ((pins.filter fun pin => pin.isPinConfigured = 1).flatMap Gen2PinConfig.lines).toFinset := by
  have hfilter : (pins.filter fun pin => pin.isPinConfigured ≠ 0) =
      pins.filter fun pin => pin.isPinConfigured = 1 := by
    apply List.filter_congr
    intro pin hpin
    rcases h pin hpin with h0 | h1
    · simp [h0]
    · simp [h1]
  rw [configuredLines, hfilter]

/-- In every reachable state the lines held are those of the configured records, and so far no
held line was requested and no line was freed that was not held. -/
theorem lines_accounted (blank : Int32 → Hcsr04Device) (minorLeft : Int32 → Int32)
    (ops : List MiscOp) :
    let s := afterOps (hcsr04Init blank minorLeft) ops
    heldLines s.calls = ((s.pins.filter fun pin => pin.isPinConfigured = 1).flatMap
        Gen2PinConfig.lines).toFinset ∧
      Legal (gpioEvents s.calls) := by
  have h := (accounted_init blank minorLeft).run ops
  refine ⟨?_, h.held.legal⟩
  rw [h.held.held, Finset.empty_union, configuredLines_eq h.flagged]

end KernelDrivers.Hcsr04
