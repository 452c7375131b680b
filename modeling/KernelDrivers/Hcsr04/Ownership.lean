import KernelDrivers.Hcsr04.LineAccounting

/-!
# Who holds the interrupts and the pins

A device holds the interrupt its data names, and the owner of a configured record is an open
device. So when every device is closed the driver holds nothing.
-/

namespace KernelDrivers.Hcsr04
open Lib

/-- The claim or release of an interrupt by a device. -/
def irqEvent : KernelCall → Option (Event (Int32 × Int32))
  | .requestIrq irq minor error => some (.request (minor, irq) (error = 0))
  | .freeIrq irq minor => some (.release (minor, irq))
  | _ => none

def irqEvents (calls : List KernelCall) : List (Event (Int32 × Int32)) :=
  calls.filterMap irqEvent

/-- The pairs of a device and an interrupt it holds. -/
def heldIrqs (calls : List KernelCall) : Finset (Int32 × Int32) := held (irqEvents calls)

theorem irqEvents_cons (call : KernelCall) (calls : List KernelCall) :
    irqEvents (call :: calls) = (irqEvent call).toList ++ irqEvents calls := by
  cases h : irqEvent call <;> simp [irqEvents, h]

/-! ## Configuring a record claims no interrupt -/

@[simp] theorem irqEvents_pinConfig (env : KernelEnv) (pin ioFlag : Int32) (val configure : Bool)
    (calls : List KernelCall) :
    irqEvents (pinConfig env pin ioFlag val configure calls).1 = irqEvents calls := by
  have hlevels : ∀ calls, irqEvents (if ioFlag ≠ 0 then
      if pin < 64 then .gpioDirectionOutput pin val :: calls else calls
    else .gpioDirectionInput pin :: calls) = irqEvents calls := by
    intro calls
    split_ifs <;> simp [irqEvents_cons, irqEvent]
  have hset : ∀ calls, irqEvents (.gpioSetValue pin 0 :: calls) = irqEvents calls := fun _ => rfl
  have hrequest : ∀ ret, irqEvents (.gpioRequest pin ret :: calls) = irqEvents calls :=
    fun _ => rfl
  cases configure with
  | false => simp only [pinConfig, Bool.false_and, Bool.false_eq_true, if_false, hset, hlevels]
  | true =>
    by_cases hret : env.gpioRequest pin = 0
    · simp only [pinConfig, hret]
      exact (hset _).trans ((hlevels _).trans (hrequest 0))
    · simp [pinConfig, hret, hrequest]

@[simp] theorem irqEvents_pinConfigUnlessNone (env : KernelEnv) (pin ioFlag : Int32)
    (val configure : Bool) (calls : List KernelCall) :
    irqEvents (pinConfigUnlessNone env pin ioFlag val configure calls).1 = irqEvents calls := by
  unfold pinConfigUnlessNone
  split_ifs <;> simp

@[simp] theorem irqEvents_gpioFree (pin : Int32) (calls : List KernelCall) :
    irqEvents (.gpioFree pin :: calls) = irqEvents calls := rfl

@[simp] theorem irqEvents_gpioFreeUnlessNone (pin : Int32) (calls : List KernelCall) :
    irqEvents (gpioFreeUnlessNone pin calls) = irqEvents calls := by
  unfold gpioFreeUnlessNone
  split_ifs <;> simp

theorem configureRecord_irqs (env : KernelEnv) (minor ioFlag : Int32) (pin : Gen2PinConfig)
    (calls : List KernelCall) :
    irqEvents (configureRecord env minor ioFlag pin calls).1 = irqEvents calls := by
  simp only [configureRecord, updatePin, configureNewPin]
  split_ifs <;> simp

theorem releaseGpioPins_irqs (device : Hcsr04Device) (pins : List Gen2PinConfig)
    (calls : List KernelCall) :
    irqEvents (releaseGpioPins device pins calls).1 = irqEvents calls := by
  induction pins generalizing calls with
  | nil => rfl
  | cons pin rest ih =>
    by_cases hown : pin.isPinConfigured ≠ 0 ∧ device.miscMinor = pin.deviceMinorNumber
    · simp [releaseGpioPins, if_pos hown, ih, releaseGpioPin]
    · simp [releaseGpioPins, if_neg hown, ih]

/-! ## The interrupt of one device -/

/-- The device holds the interrupt its data names and no other one; the other devices hold what
they held before. -/
structure Claims (device : Hcsr04Device) (before calls : List KernelCall) : Prop where
  own : ∀ irq, (device.miscMinor, irq) ∈ heldIrqs calls ↔
    device.irqData.irqNo = irq ∧ irq ≠ NO_VALUE
  others : ∀ minor irq, minor ≠ device.miscMinor →
    ((minor, irq) ∈ heldIrqs calls ↔ (minor, irq) ∈ heldIrqs before)

theorem Claims.congr {device device' : Hcsr04Device} {before calls calls' : List KernelCall}
    (h : Claims device before calls) (hminor : device'.miscMinor = device.miscMinor)
    (hirq : device'.irqData.irqNo = device.irqData.irqNo)
    (hevents : irqEvents calls' = irqEvents calls) : Claims device' before calls' := by
  have hheld : heldIrqs calls' = heldIrqs calls := by rw [heldIrqs, hevents, heldIrqs]
  exact ⟨by rw [hheld, hminor, hirq]; exact h.own, by rw [hheld, hminor]; exact h.others⟩

/-- Freeing the interrupt the data names. -/
theorem Claims.free {device : Hcsr04Device} {before calls : List KernelCall}
    (h : Claims device before calls) {device' : Hcsr04Device}
    (hminor : device'.miscMinor = device.miscMinor) (hno : device'.irqData.irqNo = NO_VALUE) :
    Claims device' before (.freeIrq device.irqData.irqNo device.miscMinor :: calls) := by
  have hheld : heldIrqs (.freeIrq device.irqData.irqNo device.miscMinor :: calls) =
      (heldIrqs calls).erase (device.miscMinor, device.irqData.irqNo) := rfl
  constructor
  · intro irq
    rw [hheld, hminor, hno, Finset.mem_erase, h.own]
    constructor
    · rintro ⟨hne, rfl, -⟩
      exact absurd rfl hne
    · rintro ⟨rfl, hne⟩
      exact absurd rfl hne
  · intro minor irq hne
    rw [hminor] at hne
    rw [hheld, Finset.mem_erase, ← h.others minor irq hne]
    exact and_iff_right fun he => hne (Prod.mk.inj he).1

/-- Claiming an interrupt while none is held. -/
theorem Claims.request {device : Hcsr04Device} {before calls : List KernelCall}
    (h : Claims device before calls) (hno : device.irqData.irqNo = NO_VALUE) (irq : Int32)
    {device' : Hcsr04Device} (hminor : device'.miscMinor = device.miscMinor)
    (hirq : device'.irqData.irqNo = irq) (hvalue : irq ≠ NO_VALUE) :
    Claims device' before (.requestIrq irq device.miscMinor 0 :: calls) := by
  have hheld : heldIrqs (.requestIrq irq device.miscMinor 0 :: calls) =
      insert (device.miscMinor, irq) (heldIrqs calls) := rfl
  constructor
  · intro irq'
    rw [hheld, hminor, hirq, Finset.mem_insert, h.own, hno]
    constructor
    · rintro (he | ⟨rfl, hne⟩)
      · obtain ⟨-, rfl⟩ := Prod.mk.inj he
        exact ⟨rfl, hvalue⟩
      · exact absurd rfl hne
    · rintro ⟨rfl, -⟩
      exact .inl rfl
  · intro minor irq' hne
    rw [hminor] at hne
    rw [hheld, Finset.mem_insert, ← h.others minor irq' hne]
    exact or_iff_right fun he => hne (Prod.mk.inj he).1

theorem Claims.refused {device : Hcsr04Device} {before calls : List KernelCall}
    (h : Claims device before calls) (irq : Int32) {error : Int32} (herror : error ≠ 0) :
    Claims device before (.requestIrq irq device.miscMinor error :: calls) := by
  have hheld : heldIrqs (.requestIrq irq device.miscMinor error :: calls) = heldIrqs calls := by
    simp [heldIrqs, irqEvents_cons, irqEvent, herror]
  exact ⟨by rw [hheld]; exact h.own, by rw [hheld]; exact h.others⟩

theorem wirePin_claims (env : KernelEnv) {device : Hcsr04Device} {before calls : List KernelCall}
    (h : Claims device before calls) (ioFlag : Int32) (pin : Gen2PinConfig)
    (hno : ioFlag = 0 → device.irqData.irqNo = NO_VALUE) :
    Claims (wirePin env device ioFlag pin calls).2.1 before
      (wirePin env device ioFlag pin calls).1 := by
  unfold wirePin configureInterrupt
  by_cases hio : ioFlag = 0
  · by_cases hneg : env.gpioToIrq pin.linuxGpioPin < 0
    · simpa [hio, hneg] using h
    · by_cases herror : env.requestIrq (env.gpioToIrq pin.linuxGpioPin) = 0
      · have hvalue : env.gpioToIrq pin.linuxGpioPin ≠ NO_VALUE := by
          intro he
          exact hneg (he ▸ by decide)
        simp only [hio, if_true, hneg, if_false, herror, ne_eq, not_true_eq_false]
        exact h.request (hno hio) _ rfl rfl hvalue
      · simp only [hio, if_true, hneg, if_false, ne_eq, herror, not_false_eq_true]
        exact h.refused _ herror
  · simp only [hio, if_false]
    exact h.congr rfl rfl rfl

theorem wirePin_irqNo {env : KernelEnv} {device : Hcsr04Device} {ioFlag : Int32}
    {pin : Gen2PinConfig} {calls : List KernelCall} (hio : ioFlag ≠ 0) :
    (wirePin env device ioFlag pin calls).2.1.irqData.irqNo = device.irqData.irqNo := by
  simp [wirePin, hio]

/-- At one record: the interrupt is claimed only at the record of the echo pin. -/
theorem configurePin_claims (env : KernelEnv) {device : Hcsr04Device}
    {before calls : List KernelCall} (h : Claims device before calls) (pin : Gen2PinConfig)
    (hno : device.echoPin = pin.galileoPin → device.irqData.irqNo = NO_VALUE) :
    Claims (configurePin env device pin calls).2.1 before (configurePin env device pin calls).1 ∧
      (device.echoPin ≠ pin.galileoPin →
        (configurePin env device pin calls).2.1.irqData.irqNo = device.irqData.irqNo) := by
  have hrecord := configureRecord_irqs env device.miscMinor (ioFlagOf device pin) pin calls
  have hio : ioFlagOf device pin = 0 ↔ device.echoPin = pin.galileoPin := by
    by_cases hecho : device.echoPin = pin.galileoPin <;> simp [ioFlagOf, hecho]
  rcases hr : configureRecord env device.miscMinor (ioFlagOf device pin) pin calls with
    ⟨calls₁, _ | pin₁⟩
  · rw [hr] at hrecord
    rw [configurePin_none hr]
    exact ⟨h.congr rfl rfl hrecord, fun _ => rfl⟩
  · rw [hr] at hrecord
    rw [configurePin_some hr]
    have h₁ : Claims device before calls₁ := h.congr rfl rfl hrecord
    refine ⟨wirePin_claims env h₁ _ pin₁ fun h0 => hno (hio.mp h0), fun hecho => ?_⟩
    exact wirePin_irqNo fun h0 => hecho (hio.mp h0)

/-- The loop: no interrupt is claimed already, or the record of the echo pin is behind. -/
theorem configurePins_claims (env : KernelEnv) {pins : List Gen2PinConfig}
    {device : Hcsr04Device} {before calls : List KernelCall} (h : Claims device before calls)
    (hnodup : (pins.map Gen2PinConfig.galileoPin).Nodup)
    (hno : device.irqData.irqNo = NO_VALUE ∨ ∀ pin ∈ pins, device.echoPin ≠ pin.galileoPin) :
    Claims (configurePins env pins device calls).2.1 before
      (configurePins env pins device calls).1 := by
  induction pins generalizing device calls with
  | nil => exact h
  | cons pin rest ih =>
    obtain ⟨hfresh, hnodup'⟩ := List.nodup_cons.mp hnodup
    by_cases hrole : device.triggerPin = pin.galileoPin ∨ device.echoPin = pin.galileoPin
    · have hhead : device.echoPin = pin.galileoPin → device.irqData.irqNo = NO_VALUE := by
        intro hecho
        exact hno.resolve_right fun hall => hall pin List.mem_cons_self hecho
      obtain ⟨h₁, hirq₁⟩ := configurePin_claims env h pin hhead
      obtain ⟨irqData, hdevice⟩ := configurePin_device env device pin calls
      have hecho₁ : (configurePin env device pin calls).2.1.echoPin = device.echoPin := by
        rw [hdevice]
      have hno₁ : (configurePin env device pin calls).2.1.irqData.irqNo = NO_VALUE ∨
          ∀ pin' ∈ rest, (configurePin env device pin calls).2.1.echoPin ≠ pin'.galileoPin := by
        rw [hecho₁]
        by_cases hecho : device.echoPin = pin.galileoPin
        · refine .inr fun pin' hpin' he => hfresh ?_
          exact List.mem_map.mpr ⟨pin', hpin', he.symm.trans hecho⟩
        · rw [hirq₁ hecho]
          exact hno.imp_right fun hall pin' hpin' => hall pin' (List.mem_cons_of_mem _ hpin')
      simp only [configurePins, if_pos hrole]
      split
      · exact h₁
      · exact ih h₁ hnodup' hno₁
    · simp only [configurePins, if_neg hrole]
      exact ih h hnodup'
        (hno.imp_right fun hall pin' hpin' => hall pin' (List.mem_cons_of_mem _ hpin'))

theorem configurePins_device (env : KernelEnv) (pins : List Gen2PinConfig)
    (device : Hcsr04Device) (calls : List KernelCall) :
    ∃ irqData, (configurePins env pins device calls).2.1 = { device with irqData } := by
  induction pins generalizing device calls with
  | nil => exact ⟨device.irqData, rfl⟩
  | cons pin rest ih =>
    by_cases hrole : device.triggerPin = pin.galileoPin ∨ device.echoPin = pin.galileoPin
    · obtain ⟨irqData, hdevice⟩ := configurePin_device env device pin calls
      simp only [configurePins, if_pos hrole]
      split
      · exact ⟨irqData, hdevice⟩
      · obtain ⟨irqData', hrest⟩ := ih (configurePin env device pin calls).2.1
          (configurePin env device pin calls).1
        exact ⟨irqData', hrest.trans (by rw [hdevice])⟩
    · simp only [configurePins, if_neg hrole]
      exact ih device calls

/-- Giving back the previous interrupt leaves none claimed. -/
theorem releaseInterrupt_claims {device : Hcsr04Device} {before calls : List KernelCall}
    (h : Claims device before calls)
    (hecho : device.irqData.irqNo ≠ NO_VALUE → device.echoPin ≠ NO_VALUE) :
    Claims (releaseInterrupt device calls).2 before (releaseInterrupt device calls).1 ∧
      (releaseInterrupt device calls).2.irqData.irqNo = NO_VALUE := by
  by_cases hno : device.irqData.irqNo = NO_VALUE
  · simp only [releaseInterrupt, hno, ne_eq, not_true_eq_false, and_false, if_false, and_true]
    exact h
  · simp only [releaseInterrupt, ne_eq, hecho hno, hno, not_false_eq_true, and_self, if_true,
      and_true]
    exact h.free rfl rfl

/-! ## Open devices -/

/-- The open devices after a call. -/
def opens (opened : Finset Int32) (op : MiscOp) : Finset Int32 :=
  match op.2 with
  | .openFile => insert op.1 opened
  | .releaseFile => opened.erase op.1
  | _ => opened

/-- A device is opened when closed, and called when open. -/
def Allowed (opened : Finset Int32) (op : MiscOp) : Prop :=
  match op.2 with
  | .openFile => op.1 ∉ opened
  | _ => op.1 ∈ opened

/-- In the run each device is open at most once at a time. -/
def OpenOnce : Finset Int32 → List MiscOp → Prop
  | _, [] => True
  | opened, op :: ops => Allowed opened op ∧ OpenOnce (opens opened op) ops

def openAfter (opened : Finset Int32) (ops : List MiscOp) : Finset Int32 :=
  ops.foldl opens opened

/-- The ownership invariant. -/
structure Owned (opened : Finset Int32) (s : MiscDriver) : Prop where
  minors : ∀ minor, (s.device minor).miscMinor = minor
  irqs : ∀ minor irq, (minor, irq) ∈ heldIrqs s.calls ↔
    (s.device minor).irqData.irqNo = irq ∧ irq ≠ NO_VALUE
  echo : ∀ minor, (s.device minor).irqData.irqNo ≠ NO_VALUE →
    (s.device minor).echoPin ≠ NO_VALUE
  closed : ∀ minor, minor ∉ opened → (s.device minor).irqData.irqNo = NO_VALUE
  owners : ∀ pin ∈ s.pins, pin.isPinConfigured ≠ 0 → pin.deviceMinorNumber ∈ opened
  records : (s.pins.map Gen2PinConfig.galileoPin).Nodup

theorem owned_init (blank : Int32 → Hcsr04Device) (minorLeft : Int32 → Int32) :
    Owned ∅ (hcsr04Init blank minorLeft) where
  minors := fun _ => rfl
  irqs := by
    intro minor irq
    constructor
    · intro hmem
      exact absurd hmem (Finset.notMem_empty _)
    · rintro ⟨rfl, hne⟩
      exact absurd rfl hne
  echo := fun _ hne => absurd rfl hne
  closed := fun _ _ => rfl
  owners := fun pin hpin hset => absurd (populateGen2PinsData_unset minorLeft pin hpin) hset
  records := by
    change ((populateGen2PinsData fun _ => 0).map Gen2PinConfig.galileoPin).Nodup
    decide

theorem Owned.claims {opened : Finset Int32} {s : MiscDriver} (h : Owned opened s)
    (minor : Int32) : Claims (s.device minor) s.calls s.calls := by
  refine ⟨?_, fun _ _ _ => Iff.rfl⟩
  rw [h.minors]
  exact h.irqs minor

/-- A call that changes one device, and makes it claim exactly what its data names. -/
theorem Owned.update {opened opened' : Finset Int32} {s : MiscDriver} (h : Owned opened s)
    {minor : Int32} {device : Hcsr04Device} {pins : List Gen2PinConfig}
    {calls : List KernelCall} (hminor : device.miscMinor = minor)
    (hclaims : Claims device s.calls calls)
    (hecho : device.irqData.irqNo ≠ NO_VALUE → device.echoPin ≠ NO_VALUE)
    (hclosed : minor ∉ opened' → device.irqData.irqNo = NO_VALUE)
    (hothers : ∀ m, m ≠ minor → m ∉ opened' → m ∉ opened)
    (howners : ∀ pin ∈ pins, pin.isPinConfigured ≠ 0 → pin.deviceMinorNumber ∈ opened')
    (hrecords : pins.map Gen2PinConfig.galileoPin = s.pins.map Gen2PinConfig.galileoPin) :
    Owned opened' ({ s with calls, pins }.setDevice minor device) := by
  have hself : ({ s with calls, pins }.setDevice minor device).device minor = device :=
    Function.update_self ..
  have hother : ∀ m, m ≠ minor →
      ({ s with calls, pins }.setDevice minor device).device m = s.device m :=
    fun m hm => Function.update_of_ne hm ..
  refine ⟨fun m => ?_, fun m irq => ?_, fun m => ?_, fun m => ?_, howners, ?_⟩
  · by_cases hm : m = minor
    · rw [hm, hself, hminor]
    · rw [hother m hm, h.minors]
  · by_cases hm : m = minor
    · rw [hm, hself, ← hclaims.own irq, hminor]
      rfl
    · rw [hother m hm, ← h.irqs m irq]
      exact hclaims.others m irq (hminor ▸ hm)
  · by_cases hm : m = minor
    · rw [hm, hself]
      exact hecho
    · rw [hother m hm]
      exact h.echo m
  · by_cases hm : m = minor
    · rw [hm, hself]
      exact hclosed
    · rw [hother m hm]
      exact fun hm' => h.closed m (hothers m hm hm')
  · exact hrecords ▸ h.records

/-- Only an open device becomes the owner of a record. -/
theorem RecordStep.owner {opened : Finset Int32} {minor : Int32} (hminor : minor ∈ opened)
    {pin pin' : Gen2PinConfig} {calls calls' : List KernelCall}
    (h : RecordStep minor pin calls pin' calls')
    (hpin : pin.isPinConfigured ≠ 0 → pin.deviceMinorNumber ∈ opened) :
    pin'.isPinConfigured ≠ 0 → pin'.deviceMinorNumber ∈ opened := by
  cases h with
  | same => exact hpin
  | refused => exact hpin
  | configured => exact fun _ => hminor
  | released => exact fun hne => absurd rfl hne

/-- After its release a device owns no record. -/
theorem releaseGpioPins_owner (device : Hcsr04Device) (pins : List Gen2PinConfig)
    (calls : List KernelCall) :
    ∀ pin ∈ (releaseGpioPins device pins calls).2, pin.isPinConfigured ≠ 0 →
      pin.deviceMinorNumber ≠ device.miscMinor := by
  induction pins generalizing calls with
  | nil => simp [releaseGpioPins]
  | cons pin rest ih =>
    by_cases hown : pin.isPinConfigured ≠ 0 ∧ device.miscMinor = pin.deviceMinorNumber
    · simp only [releaseGpioPins, if_pos hown]
      exact List.forall_mem_cons.mpr ⟨fun hne => absurd rfl hne, ih _⟩
    · simp only [releaseGpioPins, if_neg hown]
      exact List.forall_mem_cons.mpr ⟨fun hset he => hown ⟨hset, he.symm⟩, ih _⟩

theorem Owned.configPins {opened : Finset Int32} {s : MiscDriver} (h : Owned opened s)
    (env : KernelEnv) {minor : Int32} (hopen : minor ∈ opened) (param1 param2 : Int32) :
    Owned opened (configPinsIoctl env minor param1 param2 s).1 := by
  by_cases hwrong : param1 < 0 ∨ param1 > 12 ∨ param2 < 0 ∨ param2 > 12 ∨
      !isEdgeInterruptible param2
  · simp only [configPinsIoctl, if_pos hwrong]
    exact h
  · simp only [configPinsIoctl, if_neg hwrong]
    obtain ⟨h₀, hno₀⟩ := releaseInterrupt_claims (h.claims minor) (h.echo minor)
    have hminor₀ := (releaseInterrupt_miscMinor (s.device minor) s.calls).trans (h.minors minor)
    generalize releaseInterrupt (s.device minor) s.calls = released at h₀ hno₀ hminor₀ ⊢
    obtain ⟨calls₀, device₀⟩ := released
    have h₁ : Claims { device₀ with triggerPin := param1, echoPin := param2 } s.calls calls₀ :=
      h₀.congr rfl rfl rfl
    have hclaims := configurePins_claims env h₁ h.records (.inl hno₀)
    have hpass := configurePins_pass env s.pins
      { device₀ with triggerPin := param1, echoPin := param2 } calls₀
    obtain ⟨irqData, hdevice⟩ := configurePins_device env s.pins
      { device₀ with triggerPin := param1, echoPin := param2 } calls₀
    generalize configurePins env s.pins
      { device₀ with triggerPin := param1, echoPin := param2 } calls₀ = r at hclaims hpass hdevice ⊢
    obtain ⟨calls, device, pins, ret⟩ := r
    simp only at hclaims hpass hdevice hno₀ hminor₀
    have hecho : param2 ≠ NO_VALUE := by
      rintro rfl
      exact hwrong (.inr (.inr (.inl (by decide))))
    refine h.update ?_ ?_ ?_ (fun hclosed => absurd hopen hclosed) (fun _ _ hm => hm) ?_
      (hpass.map_eq fun _ _ _ => rfl)
    · split <;> simpa [hdevice] using hminor₀
    · split
      · exact hclaims
      · exact hclaims.congr rfl rfl rfl
    · intro _
      split <;> simpa [hdevice] using hecho
    · exact hpass.forall_mem (fun _ _ _ _ hstep => hstep.owner (hminor₀ ▸ hopen)) h.owners

theorem Owned.release {opened : Finset Int32} {s : MiscDriver} (h : Owned opened s)
    {minor : Int32} (hopen : minor ∈ opened) :
    Owned (opened.erase minor) (hcsr04Release minor s).1 := by
  have hstopped : Claims (s.device minor) s.calls
      (if (s.device minor).measurementInProgress ≠ 0 then
        .kthreadStop (s.device minor).miscMinor :: s.calls else s.calls) := by
    split
    · exact (h.claims minor).congr rfl rfl rfl
    · exact h.claims minor
  simp only [hcsr04Release]
  generalize (if (s.device minor).measurementInProgress ≠ 0 then
    .kthreadStop (s.device minor).miscMinor :: s.calls else s.calls) = calls at hstopped ⊢
  have hfreed : Claims (initializeDevice (s.device minor)) s.calls
      (if (s.device minor).irqData.irqNo ≠ NO_VALUE then
        .freeIrq (s.device minor).irqData.irqNo (s.device minor).miscMinor :: calls
      else calls) := by
    split
    next => exact hstopped.free rfl rfl
    next hno => exact hstopped.congr rfl (not_not.mp hno).symm rfl
  generalize (if (s.device minor).irqData.irqNo ≠ NO_VALUE then
      .freeIrq (s.device minor).irqData.irqNo (s.device minor).miscMinor :: calls
    else calls) = calls at hfreed ⊢
  have hpass := releaseGpioPins_pass (s.device minor) s.pins calls
  refine h.update (h.minors minor)
    (hfreed.congr rfl rfl (releaseGpioPins_irqs (s.device minor) s.pins calls))
    (fun hne => absurd rfl hne) (fun _ => rfl) ?_ ?_ (hpass.map_eq fun _ _ _ => rfl)
  · exact fun m hm hnot hmem => hnot (Finset.mem_erase.mpr ⟨hm, hmem⟩)
  · intro pin hpin hset
    have hnot := releaseGpioPins_owner (s.device minor) s.pins calls pin hpin hset
    have hminor : (s.device minor).miscMinor ∈ opened := (h.minors minor).symm ▸ hopen
    rw [h.minors] at hnot
    refine Finset.mem_erase.mpr ⟨hnot, ?_⟩
    exact hpass.forall_mem (fun _ _ _ _ hstep => hstep.owner hminor) h.owners pin hpin hset

/-- An open that finds no interrupt recorded. -/
theorem Owned.openFile {opened : Finset Int32} {s : MiscDriver} (h : Owned opened s)
    {minor : Int32} (hno : (s.device minor).irqData.irqNo = NO_VALUE) :
    Owned (insert minor opened) (hcsr04Open minor s).1 := by
  refine h.update (h.minors minor) ((h.claims minor).congr rfl hno.symm rfl) ?_
    (fun _ => rfl) ?_ ?_ rfl
  · exact fun hne => absurd rfl hne
  · exact fun m _ hm hmem => hm (Finset.mem_insert_of_mem hmem)
  · exact fun pin hpin hset => Finset.mem_insert_of_mem (h.owners pin hpin hset)

/-- More devices may be open. -/
theorem Owned.mono {opened opened' : Finset Int32} {s : MiscDriver} (h : Owned opened s)
    (hsub : opened ⊆ opened') : Owned opened' s where
  minors := h.minors
  irqs := h.irqs
  echo := h.echo
  closed := fun minor hclosed => h.closed minor fun hmem => hclosed (hsub hmem)
  owners := fun pin hpin hset => hsub (h.owners pin hpin hset)
  records := h.records

theorem Owned.step {opened : Finset Int32} {s : MiscDriver} (h : Owned opened s) {op : MiscOp}
    (hop : Allowed opened op) : Owned (opens opened op) (miscOp s op).1 := by
  obtain ⟨minor, call⟩ := op
  cases call with
  | openFile => exact h.openFile (h.closed minor hop)
  | configPins env param1 param2 => exact h.configPins env hop param1 param2
  | setParameters param1 param2 =>
    by_cases hbad : param1 ≤ 0 ∨ param2 ≤ 0
    · simp only [miscOp, setParametersIoctl, if_pos hbad]
      exact h
    · simp only [miscOp, setParametersIoctl, if_neg hbad]
      exact h.update (h.minors minor) ((h.claims minor).congr rfl rfl rfl) (h.echo minor)
        (h.closed minor) (fun _ _ hm => hm) h.owners rfl
  | releaseFile => exact h.release hop

theorem Owned.run {opened : Finset Int32} {s : MiscDriver} (h : Owned opened s)
    {ops : List MiscOp} (honce : OpenOnce opened ops) :
    Owned (openAfter opened ops) (afterOps s ops) := by
  induction ops generalizing opened s with
  | nil => exact h
  | cons op ops ih => exact ih (h.step honce.1) honce.2

/-- In every run that opens a device only when it is closed, a device holds exactly the interrupt
its data names, and when no device is open nothing is held and no record is configured. -/
theorem nothing_leaked (blank : Int32 → Hcsr04Device) (minorLeft : Int32 → Int32)
    (ops : List MiscOp) (honce : OpenOnce ∅ ops) :
    let s := afterOps (hcsr04Init blank minorLeft) ops
    (∀ minor irq, (minor, irq) ∈ heldIrqs s.calls ↔
      (s.device minor).irqData.irqNo = irq ∧ irq ≠ NO_VALUE) ∧
    (openAfter ∅ ops = ∅ →
      heldIrqs s.calls = ∅ ∧ heldLines s.calls = ∅ ∧ ∀ pin ∈ s.pins, pin.isPinConfigured = 0) := by
  have h := (owned_init blank minorLeft).run honce
  have hlines := ((accounted_init blank minorLeft).run ops).held.held
  refine ⟨h.irqs, fun hnone => ?_⟩
  rw [hnone] at h
  have hunset : ∀ pin ∈ (afterOps (hcsr04Init blank minorLeft) ops).pins,
      pin.isPinConfigured = 0 := by
    intro pin hpin
    by_contra hset
    exact absurd (h.owners pin hpin hset) (Finset.notMem_empty _)
  refine ⟨?_, ?_, hunset⟩
  · refine Finset.eq_empty_of_forall_notMem fun ⟨minor, irq⟩ hmem => ?_
    obtain ⟨hirq, hne⟩ := (h.irqs minor irq).mp hmem
    exact hne (hirq.symm.trans (h.closed minor (Finset.notMem_empty _)))
  · rw [hlines, configuredLines, List.filter_eq_nil_iff.mpr fun pin hpin => by
      simp [hunset pin hpin]]
    rfl

/-- Two devices configured on one trigger pin, the second one again on another echo pin. -/
theorem nothing_leaked_shared_pin :
    let ops : List MiscOp := [(5, .openFile), (6, .openFile), (5, .configPins grantAll 3 2),
      (6, .configPins grantAll 3 4), (6, .configPins grantAll 3 5), (5, .releaseFile),
      (6, .releaseFile)]
    let s := afterOps (hcsr04Init (fun _ => blankDevice) fun _ => 0) ops
    (∀ minor irq, (minor, irq) ∈ heldIrqs s.calls ↔
      (s.device minor).irqData.irqNo = irq ∧ irq ≠ NO_VALUE) ∧
    (openAfter ∅ ops = ∅ →
      heldIrqs s.calls = ∅ ∧ heldLines s.calls = ∅ ∧ ∀ pin ∈ s.pins, pin.isPinConfigured = 0) :=
  nothing_leaked _ _ _ (by simp [OpenOnce, Allowed, opens])

end KernelDrivers.Hcsr04
