import KernelDrivers.Hcsr04.Device

/-!
# Pin records and GPIO lines

Every digital pin of the board has a record with up to four GPIO lines. Configuring a device
requests the lines of its trigger and its echo pin and claims the interrupt of the echo line.
Every call the driver makes to the kernel is logged, newest first; what the kernel answers comes
from an environment. The sysfs export of a line is left out.
-/

namespace KernelDrivers.Hcsr04
open Lib

/-! ## Calls to the kernel -/

inductive KernelCall where
  | gpioRequest (pin ret : Int32)
  | gpioFree (pin : Int32)
  | gpioDirectionOutput (pin : Int32) (val : Bool)
  | gpioDirectionInput (pin : Int32)
  | gpioSetValue (pin : Int32) (val : Int32)
  | requestIrq (irq minor error : Int32)
  | freeIrq (irq minor : Int32)
  | kthreadStop (minor : Int32)
  deriving DecidableEq, Repr

/-- The kernel's answers during one call of the driver, which asks for a line or an interrupt
at most once. -/
structure KernelEnv where
  gpioRequest : Int32 → Int32
  gpioToIrq : Int32 → Int32
  requestIrq : Int32 → Int32

/-- A kernel that grants everything. -/
def grantAll : KernelEnv := ⟨fun _ => 0, fun line => line, fun _ => 0⟩

/-! ## Pin records -/

/-- `struct gen2_pin_config` -/
structure Gen2PinConfig where
  galileoPin : Int32
  linuxGpioPin : Int32
  levelShifterPin : Int32
  pinmux1 : Int32
  pinmux1Level : Int32
  pinmux2 : Int32
  pinmux2Level : Int32
  isPinConfigured : Int32
  deviceMinorNumber : Int32
  deriving DecidableEq, Repr

/-- A new record goes to the head of the list. `kmalloc` leaves some minor number in it. -/
def populatePinData (minorLeft : Int32 → Int32) (galileoPin linuxGpioPin levelShifterPin pinmux1
    pinmux1Level pinmux2 pinmux2Level : Int32) (pins : List Gen2PinConfig) :
    List Gen2PinConfig :=
  ⟨galileoPin, linuxGpioPin, levelShifterPin, pinmux1, pinmux1Level, pinmux2, pinmux2Level, 0,
    minorLeft galileoPin⟩ :: pins

def populateGen2PinsData (minorLeft : Int32 → Int32) : List Gen2PinConfig :=
  []
  |> populatePinData minorLeft 0 11 32 NO_PIN NO_VALUE NO_PIN NO_VALUE
  |> populatePinData minorLeft 1 12 28 45 0 NO_PIN NO_VALUE
  |> populatePinData minorLeft 2 61 NO_PIN 77 0 NO_PIN NO_VALUE
  |> populatePinData minorLeft 3 62 NO_PIN 76 0 64 0
  |> populatePinData minorLeft 4 6 36 NO_PIN NO_VALUE NO_PIN NO_VALUE
  |> populatePinData minorLeft 5 0 18 66 0 NO_PIN NO_VALUE
  |> populatePinData minorLeft 6 1 20 68 0 NO_PIN NO_VALUE
  |> populatePinData minorLeft 7 38 NO_PIN NO_PIN NO_VALUE NO_PIN NO_VALUE
  |> populatePinData minorLeft 8 40 NO_PIN NO_PIN NO_VALUE NO_PIN NO_VALUE
  |> populatePinData minorLeft 9 4 22 70 0 NO_PIN NO_VALUE
  |> populatePinData minorLeft 10 10 26 74 0 NO_PIN NO_VALUE
  |> populatePinData minorLeft 11 5 24 44 0 72 0
  |> populatePinData minorLeft 12 15 42 NO_PIN NO_VALUE NO_PIN NO_VALUE
  |> populatePinData minorLeft 13 7 30 46 0 NO_PIN NO_VALUE

/-! ## Configuring lines -/

/-- Either value setter drives the line to 0, whatever `val` is. -/
def pinConfig (env : KernelEnv) (pin ioFlag : Int32) (val configure : Bool)
    (calls : List KernelCall) : List KernelCall × Int32 :=
  let ret := env.gpioRequest pin
  let calls := if configure then .gpioRequest pin ret :: calls else calls
  if configure && ret ≠ 0 then (calls, 1)
  else
    let calls :=
      if ioFlag ≠ 0 then
        if pin < 64 then .gpioDirectionOutput pin val :: calls else calls
      else .gpioDirectionInput pin :: calls
    (.gpioSetValue pin 0 :: calls, 0)

/-- `if(pin != NO_PIN) pin_config(…)`, and 0 otherwise. -/
def pinConfigUnlessNone (env : KernelEnv) (pin ioFlag : Int32) (val configure : Bool)
    (calls : List KernelCall) : List KernelCall × Int32 :=
  if pin ≠ NO_PIN then pinConfig env pin ioFlag val configure calls else (calls, 0)

/-- `if(pin != NO_PIN) gpio_free(pin)` -/
def gpioFreeUnlessNone (pin : Int32) (calls : List KernelCall) : List KernelCall :=
  if pin ≠ NO_PIN then .gpioFree pin :: calls else calls

/-- The branch of `configure_pins` for a record already configured, whichever device did it. -/
def updatePin (env : KernelEnv) (ioFlag : Int32) (pin : Gen2PinConfig)
    (calls : List KernelCall) : List KernelCall × Option Gen2PinConfig :=
  let (calls, ret) := pinConfig env pin.linuxGpioPin ioFlag false false calls
  if ret ≠ 0 then (calls, none) else
  let (calls, ret) := pinConfigUnlessNone env pin.levelShifterPin ioFlag false false calls
  if ret ≠ 0 then (.gpioFree pin.linuxGpioPin :: calls, none) else
  (calls, some pin)

/-- The branch of `configure_pins` for a record not configured yet. Each failure frees the lines
requested before it. -/
def configureNewPin (env : KernelEnv) (minor ioFlag : Int32) (pin : Gen2PinConfig)
    (calls : List KernelCall) : List KernelCall × Option Gen2PinConfig :=
  let (calls, ret) := pinConfig env pin.linuxGpioPin ioFlag false true calls
  if ret ≠ 0 then (calls, none) else
  let (calls, ret) := pinConfigUnlessNone env pin.levelShifterPin ioFlag false true calls
  if ret ≠ 0 then (.gpioFree pin.linuxGpioPin :: calls, none) else
  let (calls, ret) := pinConfigUnlessNone env pin.pinmux1 1 (pin.pinmux1Level ≠ 0) true calls
  if ret ≠ 0 then
    let calls := .gpioFree pin.linuxGpioPin :: calls
    (gpioFreeUnlessNone pin.levelShifterPin calls, none) else
  let (calls, ret) := pinConfigUnlessNone env pin.pinmux2 1 (pin.pinmux2Level ≠ 0) true calls
  if ret ≠ 0 then
    let calls := .gpioFree pin.linuxGpioPin :: calls
    let calls := gpioFreeUnlessNone pin.levelShifterPin calls
    (gpioFreeUnlessNone pin.pinmux1 calls, none) else
  (calls, some { pin with isPinConfigured := 1, deviceMinorNumber := minor })

def configureInterrupt (env : KernelEnv) (device : Hcsr04Device) (echoPinLinux : Int32)
    (calls : List KernelCall) : List KernelCall × Hcsr04Device × Int32 :=
  let irq := env.gpioToIrq echoPinLinux
  if irq < 0 then (calls, device, 0) else
  let error := env.requestIrq irq
  let calls := .requestIrq irq device.miscMinor error :: calls
  if error ≠ 0 then (calls, device, 0) else
  (calls,
    { device with irqData := { device.irqData with irqNo := irq, irqEchoPin := echoPinLinux } }, 1)

/-- The record is updated when it is configured already, and configured otherwise. -/
def configureRecord (env : KernelEnv) (minor ioFlag : Int32) (pin : Gen2PinConfig)
    (calls : List KernelCall) : List KernelCall × Option Gen2PinConfig :=
  if pin.isPinConfigured ≠ 0 then updatePin env ioFlag pin calls
  else configureNewPin env minor ioFlag pin calls

/-- The interrupt is claimed for the echo pin; the line of the trigger pin is noted. -/
def wirePin (env : KernelEnv) (device : Hcsr04Device) (ioFlag : Int32) (pin : Gen2PinConfig)
    (calls : List KernelCall) : List KernelCall × Hcsr04Device × Int32 :=
  if ioFlag = 0 then configureInterrupt env device pin.linuxGpioPin calls
  else
    (calls,
      { device with irqData := { device.irqData with irqTriggerPin := pin.linuxGpioPin } }, 1)

/-- `io_flag` at a record of the device: an echo pin is an input. -/
def ioFlagOf (device : Hcsr04Device) (pin : Gen2PinConfig) : Int32 :=
  if device.echoPin = pin.galileoPin then 0 else 1

/-- What `configure_pins` does at a record of one of the two pins. -/
def configurePin (env : KernelEnv) (device : Hcsr04Device) (pin : Gen2PinConfig)
    (calls : List KernelCall) : List KernelCall × Hcsr04Device × Gen2PinConfig × Int32 :=
  let ioFlag := ioFlagOf device pin
  match configureRecord env device.miscMinor ioFlag pin calls with
  | (calls, none) => (calls, device, pin, 0)
  | (calls, some pin) =>
    let (calls, device, ret) := wirePin env device ioFlag pin calls
    (calls, device, pin, ret)

theorem configurePin_none {env : KernelEnv} {device : Hcsr04Device} {pin : Gen2PinConfig}
    {calls calls₁ : List KernelCall}
    (h : configureRecord env device.miscMinor (ioFlagOf device pin) pin calls = (calls₁, none)) :
    configurePin env device pin calls = (calls₁, device, pin, 0) := by
  simp [configurePin, h]

theorem configurePin_some {env : KernelEnv} {device : Hcsr04Device} {pin pin₁ : Gen2PinConfig}
    {calls calls₁ : List KernelCall}
    (h : configureRecord env device.miscMinor (ioFlagOf device pin) pin calls =
      (calls₁, some pin₁)) :
    configurePin env device pin calls =
      ((wirePin env device (ioFlagOf device pin) pin₁ calls₁).1,
        (wirePin env device (ioFlagOf device pin) pin₁ calls₁).2.1, pin₁,
        (wirePin env device (ioFlagOf device pin) pin₁ calls₁).2.2) := by
  simp [configurePin, h]

/-- Wiring a pin writes only to the device's interrupt data. -/
theorem wirePin_device (env : KernelEnv) (device : Hcsr04Device) (ioFlag : Int32)
    (pin : Gen2PinConfig) (calls : List KernelCall) :
    ∃ irqData, (wirePin env device ioFlag pin calls).2.1 = { device with irqData } := by
  unfold wirePin configureInterrupt
  by_cases hio : ioFlag = 0
  · by_cases hirq : env.gpioToIrq pin.linuxGpioPin < 0
    · exact ⟨device.irqData, by simp [hio, hirq]⟩
    · by_cases herror : env.requestIrq (env.gpioToIrq pin.linuxGpioPin) = 0
      · exact ⟨_, by simp [hio, hirq, herror]; rfl⟩
      · exact ⟨device.irqData, by simp [hio, hirq, herror]⟩
  · exact ⟨_, by simp [hio]; rfl⟩

theorem configurePin_device (env : KernelEnv) (device : Hcsr04Device) (pin : Gen2PinConfig)
    (calls : List KernelCall) :
    ∃ irqData, (configurePin env device pin calls).2.1 = { device with irqData } := by
  rcases h : configureRecord env device.miscMinor (ioFlagOf device pin) pin calls with
    ⟨calls₁, _ | pin₁⟩
  · exact ⟨device.irqData, by rw [configurePin_none h]⟩
  · rw [configurePin_some h]
    exact wirePin_device env device _ pin₁ calls₁

/-- The loop over the records. It stops at the first failure. -/
def configurePins (env : KernelEnv) :
    List Gen2PinConfig → Hcsr04Device → List KernelCall →
      List KernelCall × Hcsr04Device × List Gen2PinConfig × Int32
  | [], device, calls => (calls, device, [], 1)
  | pin :: rest, device, calls =>
    if device.triggerPin = pin.galileoPin ∨ device.echoPin = pin.galileoPin then
      let (calls, device, pin, ret) := configurePin env device pin calls
      if ret = 0 then (calls, device, pin :: rest, 0)
      else
        let (calls, device, rest, ret) := configurePins env rest device calls
        (calls, device, pin :: rest, ret)
    else
      let (calls, device, rest, ret) := configurePins env rest device calls
      (calls, device, pin :: rest, ret)

/-! ## Releasing lines -/

/-- The body of `release_gpio_pins` for a record of the device. -/
def releaseGpioPin (pin : Gen2PinConfig) (calls : List KernelCall) :
    List KernelCall × Gen2PinConfig :=
  let calls := .gpioFree pin.linuxGpioPin :: calls
  let calls := gpioFreeUnlessNone pin.levelShifterPin calls
  let calls := gpioFreeUnlessNone pin.pinmux1 calls
  let calls := gpioFreeUnlessNone pin.pinmux2 calls
  (calls, { pin with isPinConfigured := 0, deviceMinorNumber := NO_VALUE })

/-- The call with a device. The one with `NULL` belongs to the exit of the module. -/
def releaseGpioPins (device : Hcsr04Device) :
    List Gen2PinConfig → List KernelCall → List KernelCall × List Gen2PinConfig
  | [], calls => (calls, [])
  | pin :: rest, calls =>
    let (calls, pin) :=
      if pin.isPinConfigured ≠ 0 ∧ device.miscMinor = pin.deviceMinorNumber then
        releaseGpioPin pin calls
      else (calls, pin)
    let (calls, rest) := releaseGpioPins device rest calls
    (calls, pin :: rest)

/-! ## The calls of the device file -/

/-- The driver's devices by minor number, its pin records, and the calls made to the kernel. -/
structure MiscDriver where
  device : Int32 → Hcsr04Device
  pins : List Gen2PinConfig
  calls : List KernelCall

/-- The registered devices have distinct minor numbers. `blank` is what `kmalloc` returned. -/
def hcsr04Init (blank : Int32 → Hcsr04Device) (minorLeft : Int32 → Int32) : MiscDriver where
  device := fun minor => initializeDevice { blank minor with miscMinor := minor }
  pins := populateGen2PinsData minorLeft
  calls := []

def MiscDriver.setDevice (s : MiscDriver) (minor : Int32) (device : Hcsr04Device) : MiscDriver :=
  { s with device := Function.update s.device minor device }

def nonEchoPins : List Int32 := [0, 1, 7, 8, 10, 12]

def isEdgeInterruptible (echoPin : Int32) : Bool := echoPin ∉ nonEchoPins

def hcsr04Open (minor : Int32) (s : MiscDriver) : MiscDriver × Int32 :=
  (s.setDevice minor (initializeDevice (s.device minor)), SUCCESS)

/-- The part of `CONFIG_PINS` that gives back the interrupt of the previous configuration. -/
def releaseInterrupt (device : Hcsr04Device) (calls : List KernelCall) :
    List KernelCall × Hcsr04Device :=
  if device.echoPin ≠ NO_VALUE ∧ device.irqData.irqNo ≠ NO_VALUE then
    (.freeIrq device.irqData.irqNo device.miscMinor :: calls,
      { device with
        echoPin := NO_VALUE
        irqData := { device.irqData with irqNo := NO_VALUE } })
  else (calls, device)

theorem releaseInterrupt_miscMinor (device : Hcsr04Device) (calls : List KernelCall) :
    (releaseInterrupt device calls).2.miscMinor = device.miscMinor := by
  unfold releaseInterrupt
  split <;> rfl

def configPinsIoctl (env : KernelEnv) (minor param1 param2 : Int32) (s : MiscDriver) :
    MiscDriver × Int32 :=
  if param1 < 0 ∨ param1 > 12 ∨ param2 < 0 ∨ param2 > 12 ∨ !isEdgeInterruptible param2 then
    (s, EINVAL)
  else
    let (calls, device) := releaseInterrupt (s.device minor) s.calls
    let device := { device with triggerPin := param1, echoPin := param2 }
    let (calls, device, pins, ret) := configurePins env s.pins device calls
    let device := if ret = 0 then device else { device with arePinsConfigured := 1 }
    ({ s with calls, pins }.setDevice minor device, if ret = 0 then EINVAL else SUCCESS)

def setParametersIoctl (minor param1 param2 : Int32) (s : MiscDriver) : MiscDriver × Int32 :=
  if param1 ≤ 0 ∨ param2 ≤ 0 then (s, EINVAL)
  else
    (s.setDevice minor
      { s.device minor with m := param1, delta := param2, areMDeltaConfigured := 1 }, SUCCESS)

def hcsr04Release (minor : Int32) (s : MiscDriver) : MiscDriver × Int32 :=
  let device := s.device minor
  let calls :=
    if device.measurementInProgress ≠ 0 then .kthreadStop device.miscMinor :: s.calls else s.calls
  let calls :=
    if device.irqData.irqNo ≠ NO_VALUE then
      .freeIrq device.irqData.irqNo device.miscMinor :: calls
    else calls
  let (calls, pins) := releaseGpioPins device s.pins calls
  ({ s with calls, pins }.setDevice minor (initializeDevice device), SUCCESS)

inductive MiscCall where
  | openFile
  | configPins (env : KernelEnv) (param1 param2 : Int32)
  | setParameters (param1 param2 : Int32)
  | releaseFile

/-- A call on a file of the device with this minor number. -/
abbrev MiscOp := Int32 × MiscCall

def miscOp (s : MiscDriver) (op : MiscOp) : MiscDriver × Int32 :=
  match op.2 with
  | .openFile => hcsr04Open op.1 s
  | .configPins env param1 param2 => configPinsIoctl env op.1 param1 param2 s
  | .setParameters param1 param2 => setParametersIoctl op.1 param1 param2 s
  | .releaseFile => hcsr04Release op.1 s

/-- The state after a list of calls. -/
def afterOps (s : MiscDriver) (ops : List MiscOp) : MiscDriver :=
  ops.foldl (fun s op => (miscOp s op).1) s

theorem setDevice_device (s : MiscDriver) (minor : Int32) (device : Hcsr04Device) :
    (s.setDevice minor device).device minor = device :=
  Function.update_self ..

theorem forall_setDevice {P : Hcsr04Device → Prop} {s : MiscDriver}
    (h : ∀ minor, P (s.device minor)) (minor : Int32) {device : Hcsr04Device} (hdevice : P device) :
    ∀ other, P ((s.setDevice minor device).device other) := by
  intro other
  by_cases hother : other = minor
  · rw [hother, setDevice_device]
    exact hdevice
  · have hkept : (s.setDevice minor device).device other = s.device other :=
      Function.update_of_ne hother ..
    rw [hkept]
    exact h other

/-- What every device has after a call, if an initialised one has it and the two ways of
configuring a device keep it. -/
theorem forall_miscOp {P : Hcsr04Device → Prop} {s : MiscDriver} (h : ∀ minor, P (s.device minor))
    (hinit : ∀ device, P (initializeDevice device))
    (hpins : ∀ env minor param1 param2,
      ∀ other, P ((configPinsIoctl env minor param1 param2 s).1.device other))
    (hparameters : ∀ minor param1 param2, ¬ (param1 ≤ 0 ∨ param2 ≤ 0) →
      P { s.device minor with m := param1, delta := param2, areMDeltaConfigured := 1 })
    (op : MiscOp) : ∀ minor, P ((miscOp s op).1.device minor) := by
  obtain ⟨minor, call⟩ := op
  cases call with
  | openFile => exact forall_setDevice h minor (hinit _)
  | configPins env param1 param2 => exact hpins env minor param1 param2
  | setParameters param1 param2 =>
    by_cases hbad : param1 ≤ 0 ∨ param2 ≤ 0
    · simp only [miscOp, setParametersIoctl, if_pos hbad]
      exact h
    · simp only [miscOp, setParametersIoctl, if_neg hbad]
      exact forall_setDevice h minor (hparameters minor param1 param2 hbad)
  | releaseFile => exact forall_setDevice h minor (hinit _)

end KernelDrivers.Hcsr04
