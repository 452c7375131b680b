import KernelDrivers.Platform.Pins

/-!
# The platform driver

Devices come and go through `Pdriver_probe` and `Pdriver_remove`. They share the class, the list
of devices and the pin records, which the first probe sets up. What is done to the class is
logged, oldest first. A record given to `kfree` stays in the list; its contents are taken to stay
what they were. An operation on a device that is not there is undefined.
-/

namespace KernelDrivers.Platform
open Lib Hcsr04

/-! ## Attributes of a device -/

/-- `sscanf(buf, "%d", &field)`, where `text` is the number read, if one is. -/
def scanInto (text : Option Int32) (field : Int32) : Int32 := text.getD field

def triggerPinStore (env : KernelEnv) (text : Option Int32) (device : Hcsr04Device)
    (calls : List KernelCall) : Option (List KernelCall × Hcsr04Device) :=
  let device := { device with triggerPin := scanInto text device.triggerPin }
  (configureColumn env 1 device.triggerPin calls).map (·, device)

def echoPinStore (env : KernelEnv) (text : Option Int32) (device : Hcsr04Device)
    (calls : List KernelCall) : Option (List KernelCall × Hcsr04Device) :=
  let device := { device with echoPin := scanInto text device.echoPin }
  (configureColumn env 0 device.echoPin calls).map (·, device)

def noOfSamplesStore (text : Option Int32) (device : Hcsr04Device) : Hcsr04Device :=
  { device with m := scanInto text device.m }

def deltaStore (text : Option Int32) (device : Hcsr04Device) : Hcsr04Device :=
  { device with delta := scanInto text device.delta }

/-! ## The calls of the device file -/

def configPinsIoctl (env : KernelEnv) (param1 param2 : Int32) (device : Hcsr04Device)
    (pins : List Gen2PinConfig) (calls : List KernelCall) :
    List KernelCall × Hcsr04Device × List Gen2PinConfig × Int32 :=
  if param1 < 0 ∨ param1 > 12 ∨ param2 < 0 ∨ param2 > 12 ∨ !isEdgeInterruptible param2 then
    (calls, device, pins, EINVAL)
  else
    let (calls, device) := releaseInterrupt device calls
    let device := { device with triggerPin := param1, echoPin := param2 }
    let (calls, device, pins, ret) := configurePins env pins device calls
    if ret = 0 then (calls, device, pins, EINVAL)
    else (calls, { device with arePinsConfigured := 1 }, pins, SUCCESS)

def setParametersIoctl (param1 param2 : Int32) (device : Hcsr04Device) : Hcsr04Device × Int32 :=
  if param1 ≤ 0 ∨ param2 ≤ 0 then (device, EINVAL)
  else ({ device with m := param1, delta := param2, areMDeltaConfigured := 1 }, SUCCESS)

def hcsr04Release (device : Hcsr04Device) (pins : List Gen2PinConfig) (calls : List KernelCall) :
    List KernelCall × Hcsr04Device × List Gen2PinConfig :=
  let calls :=
    if device.measurementInProgress ≠ 0 then .kthreadStop device.miscMinor :: calls else calls
  let calls :=
    if device.irqData.irqNo ≠ NO_VALUE then
      .freeIrq device.irqData.irqNo device.miscMinor :: calls
    else calls
  let (calls, pins) := releaseGpioPins device pins calls
  (calls, initializeDevice device, pins)

/-! ## The driver -/

/-- A call to the kernel about a class. Classes are numbered as they are created; `none` is the
error pointer of a failed creation. -/
inductive ClassCall where
  | classCreate (cl : Nat)
  | deviceCreate (cl : Option Nat) (devAdd : UInt32)
  | deviceDestroy (cl : Option Nat) (devAdd : UInt32)
  | classUnregister (cl : Option Nat)
  | classDestroy (cl : Option Nat)
  deriving DecidableEq, Repr

/-- A device's data. `name` is the address of its name; a device that `misc_register` refused is
not linked in the list of devices. -/
structure PlatformDevice where
  name : Nat
  devAdd : UInt32
  linked : Bool
  device : Hcsr04Device

/-- `freed` holds the galileo pins of the records given to `kfree`. -/
structure Driver where
  cl : Option Nat
  first : Int32
  hAdd : UInt32
  deviceFound : Int32
  devices : List PlatformDevice
  pins : List Gen2PinConfig
  freed : List Int32
  calls : List KernelCall
  classCalls : List ClassCall

/-- The driver when its module is loaded. -/
def moduleLoad : Driver := ⟨none, 1, 0, 0, [], [], [], [], []⟩

namespace Driver

def logClass (s : Driver) (call : ClassCall) : Driver :=
  { s with classCalls := s.classCalls ++ [call] }

def createdClasses (s : Driver) : Nat :=
  s.classCalls.countP fun call => call matches .classCreate _

end Driver

/-- What the kernel answers to a probe: whether the class and the device are created, the minor
number and the result of `misc_register`. `blank` and `minorLeft` are what `kmalloc` returns. -/
structure ProbeEnv where
  classCreated : Bool
  deviceCreated : Bool
  minor : Int32
  registerError : Int32
  blank : Hcsr04Device
  minorLeft : Int32 → Int32

/-- A kernel that lets every probe succeed, and gives the device this minor number. -/
def probeEnv (minor : Int32) : ProbeEnv := ⟨true, true, minor, 0, blankDevice, fun _ => 0⟩

def MISC_DYNAMIC_MINOR : Int32 := 255

def hcsr04Init (env : ProbeEnv) (name : Nat) (s : Driver) : Driver × Int32 :=
  let device := initializeDevice { env.blank with miscMinor := MISC_DYNAMIC_MINOR }
  let devAdd := s.hAdd
  let s := s.logClass (.deviceCreate s.cl s.hAdd)
  let s := if env.deviceCreated then s else s.logClass (.deviceDestroy s.cl s.hAdd)
  let s := { s with hAdd := s.hAdd + 1 }
  if env.registerError ≠ 0 then
    ({ s with devices := ⟨name, devAdd, false, device⟩ :: s.devices }, env.registerError)
  else
    ({ s with
        devices := ⟨name, devAdd, true, { device with miscMinor := env.minor }⟩ :: s.devices },
      SUCCESS)

/-- The new device comes to the head of the list, and is put into the class. -/
theorem hcsr04Init_eq (env : ProbeEnv) (name : Nat) (s : Driver) :
    ∃ d, (hcsr04Init env name s).1 = { s with
      hAdd := s.hAdd + 1
      devices := d :: s.devices
      classCalls := s.classCalls ++ .deviceCreate s.cl s.hAdd ::
        if env.deviceCreated then [] else [.deviceDestroy s.cl s.hAdd] } := by
  let device := initializeDevice { env.blank with miscMinor := MISC_DYNAMIC_MINOR }
  by_cases hregister : env.registerError ≠ 0
  · refine ⟨⟨name, s.hAdd, false, device⟩, ?_⟩
    cases hcreated : env.deviceCreated <;>
      simp [hcsr04Init, hregister, hcreated, Driver.logClass, device]
  · refine ⟨⟨name, s.hAdd, true, { device with miscMinor := env.minor }⟩, ?_⟩
    cases hcreated : env.deviceCreated <;>
      simp [hcsr04Init, hregister, hcreated, Driver.logClass, device]

def pdriverProbe (env : ProbeEnv) (name : Nat) (s : Driver) : Driver × Int32 :=
  let s := { s with deviceFound := s.deviceFound + 1 }
  if s.first = 1 then
    if env.classCreated then
      let cl := s.createdClasses
      let s := { s.logClass (.classCreate cl) with
        cl := some cl
        first := 0
        devices := []
        pins := populateGen2PinsData env.minorLeft }
      ((hcsr04Init env name s).1, 0)
    else
      let s := { s with cl := none }
      ((s.logClass (.classUnregister s.cl)).logClass (.classDestroy s.cl), 1)
  else ((hcsr04Init env name s).1, 0)

theorem pdriverProbe_first {env : ProbeEnv} {s : Driver} (name : Nat) (hfirst : s.first = 1)
    (hcreated : env.classCreated = true) :
    (pdriverProbe env name s).1 = (hcsr04Init env name { s with
      cl := some s.createdClasses
      first := 0
      deviceFound := s.deviceFound + 1
      devices := []
      pins := populateGen2PinsData env.minorLeft
      classCalls := s.classCalls ++ [.classCreate s.createdClasses] }).1 := by
  simp [pdriverProbe, hfirst, hcreated, Driver.logClass, Driver.createdClasses]

theorem pdriverProbe_later (env : ProbeEnv) (name : Nat) {s : Driver} (hfirst : s.first ≠ 1) :
    (pdriverProbe env name s).1 =
      (hcsr04Init env name { s with deviceFound := s.deviceFound + 1 }).1 := by
  simp [pdriverProbe, hfirst]

/-- `release_gpio_pins(NULL)`: whoever configured it, the lines of a record are freed, and the
record with them. The walk goes on from the link of the freed record, which stays in the list: a
freed record is taken to keep its contents. -/
def releaseAllGpioPins : List Gen2PinConfig → List Int32 → List KernelCall →
    List KernelCall × List Gen2PinConfig × List Int32
  | [], freed, calls => (calls, [], freed)
  | pin :: rest, freed, calls =>
    if pin.isPinConfigured ≠ 0 then
      let (calls, pin) := releaseGpioPin pin calls
      let (calls, rest, freed) := releaseAllGpioPins rest (pin.galileoPin :: freed) calls
      (calls, pin :: rest, freed)
    else
      let (calls, rest, freed) := releaseAllGpioPins rest freed calls
      (calls, pin :: rest, freed)

/-- The devices of the name leave the class and the list. -/
def deleteDevices (name : Nat) : List PlatformDevice → Driver → Driver
  | [], s => { s with devices := [] }
  | d :: rest, s =>
    if d.linked = true ∧ d.name = name then
      deleteDevices name rest (s.logClass (.deviceDestroy s.cl d.devAdd))
    else
      let s := deleteDevices name rest s
      { s with devices := d :: s.devices }

theorem deleteDevices_eq (name : Nat) (devices : List PlatformDevice) (s : Driver) :
    deleteDevices name devices s = { s with
      devices := devices.filter fun d => !(d.linked && d.name = name)
      classCalls := s.classCalls ++ (devices.filter fun d => d.linked && d.name = name).map
        fun d => .deviceDestroy s.cl d.devAdd } := by
  induction devices generalizing s with
  | nil => simp [deleteDevices]
  | cons d rest ih =>
    by_cases hd : d.linked = true ∧ d.name = name
    · simp [deleteDevices, hd, ih, Driver.logClass]
    · have hd' : (d.linked && decide (d.name = name)) = false := by simpa using hd
      simp only [deleteDevices, if_neg hd, ih, List.filter_cons, hd', Bool.not_false, if_true,
        Bool.false_eq_true, if_false]

def hcsr04Exit (name : Nat) (s : Driver) : Driver :=
  let s := deleteDevices name s.devices s
  let (calls, pins, freed) := releaseAllGpioPins s.pins s.freed s.calls
  { s with calls, pins, freed }

def pdriverRemove (name : Nat) (s : Driver) : Driver × Int32 :=
  let s := hcsr04Exit name s
  let s := { s with deviceFound := s.deviceFound - 1 }
  if s.deviceFound = 0 then
    ((s.logClass (.classUnregister s.cl)).logClass (.classDestroy s.cl), 0)
  else (s, 0)

/-! ## Operations -/

/-- The device of a file, or of an attribute. -/
inductive DeviceKey where
  | minor (minor : Int32)
  | devAdd (devAdd : UInt32)

def PlatformDevice.Has (d : PlatformDevice) : DeviceKey → Bool
  | .minor minor => d.linked && d.device.miscMinor = minor
  | .devAdd devAdd => d.devAdd = devAdd

/-- An operation on one device: it may change the device, the pin records and the log. -/
def Driver.atDevice (s : Driver) (key : DeviceKey)
    (f : Hcsr04Device → List Gen2PinConfig → List KernelCall →
      Option (List KernelCall × Hcsr04Device × List Gen2PinConfig × Int32)) :
    Option (Driver × Int32) :=
  (s.devices.find? (·.Has key)).bind fun d =>
    (f d.device s.pins s.calls).map fun (calls, device, pins, ret) =>
      ({ s with
          calls
          pins
          devices := s.devices.replaceF fun d =>
            if d.Has key then some { d with device } else none },
        ret)

theorem Driver.atDevice_eq_some {s s' : Driver} {key : DeviceKey}
    {f : Hcsr04Device → List Gen2PinConfig → List KernelCall →
      Option (List KernelCall × Hcsr04Device × List Gen2PinConfig × Int32)} {ret : Int32}
    (h : s.atDevice key f = some (s', ret)) : ∃ d calls device pins,
      s.devices.find? (·.Has key) = some d ∧
      f d.device s.pins s.calls = some (calls, device, pins, ret) ∧
      s' = { s with
        calls
        pins
        devices :=
          s.devices.replaceF fun d => if d.Has key then some { d with device } else none } := by
  obtain ⟨d, hfind, hd⟩ := Option.bind_eq_some_iff.mp h
  obtain ⟨⟨calls, device, pins, r⟩, hf, hr⟩ := Option.map_eq_some_iff.mp hd
  obtain ⟨rfl, rfl⟩ := Prod.mk.inj hr
  exact ⟨d, calls, device, pins, hfind, hf, rfl⟩

inductive DeviceCall where
  | openFile
  | configPins (env : KernelEnv) (param1 param2 : Int32)
  | setParameters (param1 param2 : Int32)
  | releaseFile
  | storeTriggerPin (env : KernelEnv) (text : Option Int32) (count : Int32)
  | storeEchoPin (env : KernelEnv) (text : Option Int32) (count : Int32)
  | storeNoOfSamples (text : Option Int32) (count : Int32)
  | storeDelta (text : Option Int32) (count : Int32)

def DeviceCall.effect (call : DeviceCall) (device : Hcsr04Device) (pins : List Gen2PinConfig)
    (calls : List KernelCall) :
    Option (List KernelCall × Hcsr04Device × List Gen2PinConfig × Int32) :=
  match call with
  | .openFile => some (calls, initializeDevice device, pins, SUCCESS)
  | .configPins env param1 param2 => some (configPinsIoctl env param1 param2 device pins calls)
  | .setParameters param1 param2 =>
    let (device, ret) := setParametersIoctl param1 param2 device
    some (calls, device, pins, ret)
  | .releaseFile =>
    let (calls, device, pins) := hcsr04Release device pins calls
    some (calls, device, pins, SUCCESS)
  | .storeTriggerPin env text count =>
    (triggerPinStore env text device calls).map fun (calls, device) => (calls, device, pins, count)
  | .storeEchoPin env text count =>
    (echoPinStore env text device calls).map fun (calls, device) => (calls, device, pins, count)
  | .storeNoOfSamples text count => some (calls, noOfSamplesStore text device, pins, count)
  | .storeDelta text count => some (calls, deltaStore text device, pins, count)

inductive DriverOp where
  | probe (env : ProbeEnv) (name : Nat)
  | remove (name : Nat)
  | device (key : DeviceKey) (call : DeviceCall)

def driverOp (s : Driver) : DriverOp → Option (Driver × Int32)
  | .probe env name => some (pdriverProbe env name s)
  | .remove name => some (pdriverRemove name s)
  | .device key call => s.atDevice key call.effect

end KernelDrivers.Platform
