import KernelDrivers.Hcsr04.Pins
import KernelDrivers.Lib.Loop
import Mathlib.Data.Fin.VecNotation

/-!
# Lines of the platform driver

The platform driver has the pin records of the misc driver and configures them in the same way;
its `pin_config` sets the direction of a line below 64 only. The attributes `trigger_pin` and
`echo_pin` go through a table of their own instead.
-/

namespace KernelDrivers.Platform
open Lib Hcsr04

/-! ## Through the pin records -/

/-- The level driven is 0, whatever `val` is. -/
def pinConfig (env : KernelEnv) (pin ioFlag : Int32) (val configure : Bool)
    (calls : List KernelCall) : List KernelCall × Int32 :=
  let ret := env.gpioRequest pin
  let calls := if configure then .gpioRequest pin ret :: calls else calls
  if configure && ret ≠ 0 then (calls, 1)
  else
    let calls :=
      if ioFlag ≠ 0 then
        if pin < 64 then .gpioDirectionOutput pin val :: calls else calls
      else
        if pin < 64 then .gpioDirectionInput pin :: calls else calls
    (.gpioSetValue pin 0 :: calls, 0)

/-- `if(pin != NO_PIN) pin_config(…)`, and 0 otherwise. -/
def pinConfigUnlessNone (env : KernelEnv) (pin ioFlag : Int32) (val configure : Bool)
    (calls : List KernelCall) : List KernelCall × Int32 :=
  if pin ≠ NO_PIN then pinConfig env pin ioFlag val configure calls else (calls, 0)

/-- The branch of `configure_pins` for a record already configured. -/
def updatePin (env : KernelEnv) (ioFlag : Int32) (pin : Gen2PinConfig)
    (calls : List KernelCall) : List KernelCall × Option Gen2PinConfig :=
  let (calls, ret) := pinConfig env pin.linuxGpioPin ioFlag false false calls
  if ret ≠ 0 then (calls, none) else
  let (calls, ret) := pinConfigUnlessNone env pin.levelShifterPin ioFlag false false calls
  if ret ≠ 0 then (.gpioFree pin.linuxGpioPin :: calls, none) else
  (calls, some pin)

/-- The branch of `configure_pins` for a record not configured yet. -/
def configureNewPin (env : KernelEnv) (minor ioFlag : Int32) (pin : Gen2PinConfig)
    (calls : List KernelCall) : List KernelCall × Option Gen2PinConfig :=
  let (calls, ret) := pinConfig env pin.linuxGpioPin ioFlag false true calls
  if ret ≠ 0 then (calls, none) else
  let (calls, ret) := pinConfigUnlessNone env pin.levelShifterPin ioFlag false true calls
  if ret ≠ 0 then (.gpioFree pin.linuxGpioPin :: calls, none) else
  let (calls, ret) := pinConfigUnlessNone env pin.pinmux1 1 (pin.pinmux1Level ≠ 0) true calls
  if ret ≠ 0 then
    let calls := .gpioFree pin.linuxGpioPin :: calls
    (gpioFreeUnlessNone pin.levelShifterPin calls, none) else
  let (calls, ret) := pinConfigUnlessNone env pin.pinmux2 1 (pin.pinmux2Level ≠ 0) true calls
  if ret ≠ 0 then
    let calls := .gpioFree pin.linuxGpioPin :: calls
    let calls := gpioFreeUnlessNone pin.levelShifterPin calls
    (gpioFreeUnlessNone pin.pinmux1 calls, none) else
  (calls, some { pin with isPinConfigured := 1, deviceMinorNumber := minor })

def configureRecord (env : KernelEnv) (minor ioFlag : Int32) (pin : Gen2PinConfig)
    (calls : List KernelCall) : List KernelCall × Option Gen2PinConfig :=
  if pin.isPinConfigured ≠ 0 then updatePin env ioFlag pin calls
  else configureNewPin env minor ioFlag pin calls

/-- What `configure_pins` does at a record of one of the two pins. -/
def configurePin (env : KernelEnv) (device : Hcsr04Device) (pin : Gen2PinConfig)
    (calls : List KernelCall) : List KernelCall × Hcsr04Device × Gen2PinConfig × Int32 :=
  let ioFlag := ioFlagOf device pin
  match configureRecord env device.miscMinor ioFlag pin calls with
  | (calls, none) => (calls, device, pin, 0)
  | (calls, some pin) =>
    let (calls, device, ret) := wirePin env device ioFlag pin calls
    (calls, device, pin, ret)

/-- The loop over the records. It stops at the first failure. -/
def configurePins (env : KernelEnv) :
    List Gen2PinConfig → Hcsr04Device → List KernelCall →
      List KernelCall × Hcsr04Device × List Gen2PinConfig × Int32
  | [], device, calls => (calls, device, [], 1)
  | pin :: rest, device, calls =>
    if device.triggerPin = pin.galileoPin ∨ device.echoPin = pin.galileoPin then
      let (calls, device, pin, ret) := configurePin env device pin calls
      if ret = 0 then (calls, device, pin :: rest, 0)
      else
        let (calls, device, rest, ret) := configurePins env rest device calls
        (calls, device, pin :: rest, ret)
    else
      let (calls, device, rest, ret) := configurePins env rest device calls
      (calls, device, pin :: rest, ret)

/-- The lines whose direction may be set to input are below 64. -/
def LowLines (pin : Gen2PinConfig) : Prop :=
  pin.linuxGpioPin < 64 ∧ pin.levelShifterPin < 64

/-! ## The misc driver's functions on the board -/

theorem pinConfig_output (env : KernelEnv) (pin : Int32) {ioFlag : Int32} (hio : ioFlag ≠ 0)
    (val configure : Bool) (calls : List KernelCall) :
    pinConfig env pin ioFlag val configure calls =
      Hcsr04.pinConfig env pin ioFlag val configure calls := by
  simp only [pinConfig, Hcsr04.pinConfig, if_pos hio]

theorem pinConfig_low (env : KernelEnv) {pin : Int32} (hlow : pin < 64) (ioFlag : Int32)
    (val configure : Bool) (calls : List KernelCall) :
    pinConfig env pin ioFlag val configure calls =
      Hcsr04.pinConfig env pin ioFlag val configure calls := by
  simp only [pinConfig, Hcsr04.pinConfig, if_pos hlow]

theorem pinConfigUnlessNone_output (env : KernelEnv) (pin : Int32) (val configure : Bool)
    (calls : List KernelCall) : pinConfigUnlessNone env pin 1 val configure calls =
      Hcsr04.pinConfigUnlessNone env pin 1 val configure calls := by
  simp only [pinConfigUnlessNone, Hcsr04.pinConfigUnlessNone,
    pinConfig_output env pin (by decide : (1 : Int32) ≠ 0)]

theorem pinConfigUnlessNone_low (env : KernelEnv) {pin : Int32} (hlow : pin < 64) (ioFlag : Int32)
    (val configure : Bool) (calls : List KernelCall) :
    pinConfigUnlessNone env pin ioFlag val configure calls =
      Hcsr04.pinConfigUnlessNone env pin ioFlag val configure calls := by
  simp only [pinConfigUnlessNone, Hcsr04.pinConfigUnlessNone, pinConfig_low env hlow]

theorem configureRecord_low (env : KernelEnv) (minor ioFlag : Int32) {pin : Gen2PinConfig}
    (hlow : LowLines pin) (calls : List KernelCall) :
    configureRecord env minor ioFlag pin calls =
      Hcsr04.configureRecord env minor ioFlag pin calls := by
  simp only [configureRecord, Hcsr04.configureRecord, updatePin, Hcsr04.updatePin, configureNewPin,
    Hcsr04.configureNewPin, pinConfig_low env hlow.1, pinConfigUnlessNone_low env hlow.2,
    pinConfigUnlessNone_output]

/-- On the records of the board `configure_pins` does what it does in the misc driver. -/
theorem configurePins_low (env : KernelEnv) {pins : List Gen2PinConfig}
    (hlow : ∀ pin ∈ pins, LowLines pin) (device : Hcsr04Device)
    (calls : List KernelCall) :
    configurePins env pins device calls = Hcsr04.configurePins env pins device calls := by
  induction pins generalizing device calls with
  | nil => rfl
  | cons pin rest ih =>
    have hrest := ih fun pin' hpin' => hlow pin' (List.mem_cons_of_mem _ hpin')
    have hpin : ∀ calls, configurePin env device pin calls =
        Hcsr04.configurePin env device pin calls := by
      intro calls
      have hrecord := configureRecord_low env device.miscMinor (ioFlagOf device pin)
        (hlow pin List.mem_cons_self) calls
      rcases hr : Hcsr04.configureRecord env device.miscMinor (ioFlagOf device pin) pin calls with
        ⟨calls₁, _ | pin₁⟩ <;>
      simp only [configurePin, Hcsr04.configurePin, hrecord, hr]
    simp only [configurePins, Hcsr04.configurePins, hpin, hrest]

/-! ## Through the table -/

/-- `gpio_ctrl`: level shifter, the two pinmuxes and the linux line of each pin. -/
def gpioCtrl : CArray 4 (CArray 14 Int32) :=
  ![![32, 28, 34, 16, 36, 18, 20, -1, -1, 22, 26, 24, 42, 30],
    ![-1, 45, 77, 76, -1, 66, 68, -1, -1, 70, 74, 44, -1, 46],
    ![-1, -1, -1, 64, -1, -1, -1, -1, -1, -1, -1, 72, -1, -1],
    ![11, 12, 13, 14, 6, 0, 1, 38, 40, 4, 10, 5, 15, 7]]

def pinConfig2 (env : KernelEnv) (pin ioFlag : Int32) (val : Bool) (first : Int32)
    (calls : List KernelCall) : List KernelCall × Int32 :=
  let ret := env.gpioRequest pin
  let calls := if first = 1 then .gpioRequest pin ret :: calls else calls
  if first = 1 ∧ ret ≠ 0 then (calls, -1)
  else if ioFlag = 0 then (.gpioDirectionInput pin :: calls, 0)
  else if ioFlag = 1 then (.gpioDirectionOutput pin val :: calls, 0)
  else if ioFlag = 2 then (.gpioSetValue pin (if val then 1 else 0) :: calls, 0)
  else (calls, 0)

/-- The loop of `trigger_pin_store` and `echo_pin_store` over the column of a pin. -/
def configureColumn (env : KernelEnv) (ioFlag pin : Int32) (calls : List KernelCall) :
    Option (List KernelCall) :=
  forRange (fun i calls =>
    ((gpioCtrl.load i).bind (CArray.load · pin.toInt)).map fun pinNo =>
      if pinNo ≠ -1 then
        (pinConfig2 env pinNo (if pinNo ≥ 64 then 4 else ioFlag) false 1 calls).1
      else calls) 0 4 calls

end KernelDrivers.Platform
