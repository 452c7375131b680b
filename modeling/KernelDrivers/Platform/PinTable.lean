import KernelDrivers.Platform.SysfsPath

/-!
# The columns of the pin table

A write to `trigger_pin` or `echo_pin` takes whatever number it reads as a column of the table,
and the pin the device has when it reads none. `CONFIG_PINS` checks its pins, and an initialised
device has no pin. So a write stays inside the table exactly when it reads the number of a column,
or none and the device's pin is set.
-/

namespace KernelDrivers.Platform
open Lib Hcsr04

/-! ## The driver with its threads -/

/-- The threads at work on each device, and the kernel threads created for it. -/
structure PlatformSystem where
  driver : Driver
  created : UInt32 → Nat
  threads : UInt32 → List Thread

def systemLoad : PlatformSystem := ⟨moduleLoad, fun _ => 0, fun _ => []⟩

inductive PlatformMove where
  | op (op : DriverOp)
  | thread (env : KernelEnv) (devAdd : UInt32) (move : PoolMove Thread)

/-- The threads take their statements in any order, between any operations. -/
def platformMove (s : PlatformSystem) : PlatformMove → Option (PlatformSystem × Option Int32)
  | .op op => (driverOp s.driver op).map fun (driver, ret) => ({ s with driver }, some ret)
  | .thread env devAdd move =>
    (s.driver.devices.find? (·.Has (.devAdd devAdd))).bind fun d =>
      (deviceMove env ⟨⟨d.device, s.created devAdd, s.driver.calls⟩, s.threads devAdd⟩ move).map
        fun (p, _) =>
          ({ driver := { s.driver with
              calls := p.shared.calls
              devices := s.driver.devices.replaceF fun d =>
                if d.Has (.devAdd devAdd) then some { d with device := p.shared.device } else none }
             created := Function.update s.created devAdd p.shared.created
             threads := Function.update s.threads devAdd p.threads }, none)

/-! ## The property and its condition -/

/-- No access that the store makes to the table is undefined. -/
def StaysInTable (s : PlatformSystem) : PlatformMove → Prop
  | .op (.device key (.storeTriggerPin env text _)) =>
    ∀ d, s.driver.devices.find? (·.Has key) = some d →
      (triggerPinStore env text d.device s.driver.calls).isSome
  | .op (.device key (.storeEchoPin env text _)) =>
    ∀ d, s.driver.devices.find? (·.Has key) = some d →
      (echoPinStore env text d.device s.driver.calls).isSome
  | _ => True

/-- The table has a column for the pin. -/
def InTable (pin : Int32) : Prop := 0 ≤ pin.toInt ∧ pin.toInt < 14

instance (pin : Int32) : Decidable (InTable pin) := inferInstanceAs (Decidable (_ ∧ _))

/-- The text is the number of a column, or no number although the field is set. -/
def NamesColumn (text : Option Int32) (field : Int32) : Prop :=
  (∀ pin, text = some pin → InTable pin) ∧ (text = none → field ≠ NO_PIN)

def WritesColumn (s : PlatformSystem) : PlatformMove → Prop
  | .op (.device key (.storeTriggerPin _ text _)) =>
    ∀ d, s.driver.devices.find? (·.Has key) = some d → NamesColumn text d.device.triggerPin
  | .op (.device key (.storeEchoPin _ text _)) =>
    ∀ d, s.driver.devices.find? (·.Has key) = some d → NamesColumn text d.device.echoPin
  | _ => True

/-! ## One store -/

theorem configureColumn_isSome {env : KernelEnv} {ioFlag pin : Int32} {calls : List KernelCall} :
    (configureColumn env ioFlag pin calls).isSome ↔ InTable pin := by
  constructor
  · intro hsome
    by_contra hout
    have hpin : pin.toInt < 0 ∨ 14 ≤ pin.toInt := by
      unfold InTable at hout
      omega
    have hload : (gpioCtrl.load 0).bind (CArray.load · pin.toInt) = none := by
      rw [show gpioCtrl.load 0 = some (gpioCtrl 0) from CArray.load_fin gpioCtrl 0]
      exact CArray.load_eq_none hpin
    have hnone : configureColumn env ioFlag pin calls = none := by
      simp [configureColumn, forRange, hload]
    rw [hnone] at hsome
    cases hsome
  · rintro ⟨hmin, hmax⟩
    obtain ⟨calls', hcalls, -⟩ := configureColumn_irqs env ioFlag hmin hmax calls
    rw [hcalls]
    rfl

/-- A pin field holds no pin, or one with a column. -/
def UnsetOrInTable (pin : Int32) : Prop := pin = NO_PIN ∨ InTable pin

theorem inTable_scanInto_iff {text : Option Int32} {field : Int32} (h : UnsetOrInTable field) :
    InTable (scanInto text field) ↔ NamesColumn text field := by
  have hnone : ¬ InTable NO_PIN := by decide
  unfold scanInto NamesColumn
  cases text with
  | some pin => simp
  | none =>
    rw [Option.getD_none]
    unfold UnsetOrInTable at h
    grind

theorem triggerPinStore_isSome {env : KernelEnv} {text : Option Int32} {device : Hcsr04Device}
    {calls : List KernelCall} : (triggerPinStore env text device calls).isSome ↔
      InTable (scanInto text device.triggerPin) := by
  rw [triggerPinStore, Option.isSome_map]
  exact configureColumn_isSome

theorem echoPinStore_isSome {env : KernelEnv} {text : Option Int32} {device : Hcsr04Device}
    {calls : List KernelCall} : (echoPinStore env text device calls).isSome ↔
      InTable (scanInto text device.echoPin) := by
  rw [echoPinStore, Option.isSome_map]
  exact configureColumn_isSome

/-! ## The pins of the devices -/

structure PinsKnown (device : Hcsr04Device) : Prop where
  trigger : UnsetOrInTable device.triggerPin
  echo : UnsetOrInTable device.echoPin

theorem pinsKnown_initializeDevice (device : Hcsr04Device) : PinsKnown (initializeDevice device) :=
  ⟨.inl rfl, .inl rfl⟩

theorem configurePin_device (env : KernelEnv) (device : Hcsr04Device) (pin : Gen2PinConfig)
    (calls : List KernelCall) :
    ∃ irqData, (configurePin env device pin calls).2.1 = { device with irqData } := by
  rcases h : configureRecord env device.miscMinor (ioFlagOf device pin) pin calls with
    ⟨calls₁, _ | pin₁⟩
  · exact ⟨device.irqData, by simp [configurePin, h]⟩
  · obtain ⟨irqData, hwired⟩ := wirePin_device env device (ioFlagOf device pin) pin₁ calls₁
    exact ⟨irqData, by simp [configurePin, h, hwired]⟩

/-- The loop keeps the pins of the device. -/
theorem configurePins_device (env : KernelEnv) (pins : List Gen2PinConfig)
    (device : Hcsr04Device) (calls : List KernelCall) :
    ∃ irqData, (configurePins env pins device calls).2.1 = { device with irqData } := by
  induction pins generalizing device calls with
  | nil => exact ⟨device.irqData, rfl⟩
  | cons pin rest ih =>
    by_cases hrole : device.triggerPin = pin.galileoPin ∨ device.echoPin = pin.galileoPin
    · obtain ⟨irqData, hdevice⟩ := configurePin_device env device pin calls
      simp only [configurePins, if_pos hrole]
      split
      · exact ⟨irqData, hdevice⟩
      · obtain ⟨irqData', hrest⟩ := ih (configurePin env device pin calls).2.1
          (configurePin env device pin calls).1
        exact ⟨irqData', hrest.trans (by rw [hdevice])⟩
    · simp only [configurePins, if_neg hrole]
      exact ih device calls

theorem configPinsIoctl_known {env : KernelEnv} {param1 param2 : Int32} {device : Hcsr04Device}
    (h : PinsKnown device) (pins : List Gen2PinConfig) (calls : List KernelCall) :
    PinsKnown (configPinsIoctl env param1 param2 device pins calls).2.1 := by
  by_cases hrefused : Refused param1 param2
  · rw [configPinsIoctl, if_pos (show _ ∨ _ from hrefused)]
    exact h
  · have hknown : UnsetOrInTable param1 ∧ UnsetOrInTable param2 := by
      simp only [Refused, not_or] at hrefused
      exact ⟨.inr (toInt_bounds hrefused.1 hrefused.2.1),
        .inr (toInt_bounds hrefused.2.2.1 hrefused.2.2.2.1)⟩
    obtain ⟨irqData, hdevice⟩ := configurePins_device env pins
      { (releaseInterrupt device calls).2 with triggerPin := param1, echoPin := param2 }
      (releaseInterrupt device calls).1
    rw [configPinsIoctl, if_neg (show ¬ (_ ∨ _) from hrefused)]
    dsimp only
    split
    · rw [hdevice]
      exact ⟨hknown.1, hknown.2⟩
    · rw [hdevice]
      exact ⟨hknown.1, hknown.2⟩

/-- Every call of a device leaves it with pins that are known, if it is defined. -/
theorem DeviceCall.effect_known {call : DeviceCall} {device device' : Hcsr04Device}
    {pins pins' : List Gen2PinConfig} {calls calls' : List KernelCall} {ret : Int32}
    (h : PinsKnown device)
    (heffect : call.effect device pins calls = some (calls', device', pins', ret)) :
    PinsKnown device' := by
  cases call with
  | openFile | releaseFile =>
    obtain ⟨-, rfl, -⟩ := Prod.mk.inj (Option.some.inj heffect)
    exact pinsKnown_initializeDevice _
  | configPins env param1 param2 =>
    obtain rfl : (configPinsIoctl env param1 param2 device pins calls).2.1 = device' :=
      congrArg (fun r => r.2.1) (Option.some.inj heffect)
    exact configPinsIoctl_known h pins calls
  | setParameters param1 param2 =>
    obtain rfl : (setParametersIoctl param1 param2 device).1 = device' :=
      congrArg (fun r => r.2.1) (Option.some.inj heffect)
    unfold setParametersIoctl
    split <;> exact ⟨h.trigger, h.echo⟩
  | storeTriggerPin env text count =>
    obtain ⟨⟨calls₁, device₁⟩, hstore, heq⟩ := Option.map_eq_some_iff.mp heffect
    have hin := triggerPinStore_isSome.mp (Option.isSome_of_mem hstore)
    obtain ⟨_, -, hdevice⟩ := Option.map_eq_some_iff.mp hstore
    obtain ⟨-, rfl⟩ := Prod.mk.inj hdevice
    obtain ⟨-, rfl, -⟩ := Prod.mk.inj heq
    exact ⟨.inr hin, h.echo⟩
  | storeEchoPin env text count =>
    obtain ⟨⟨calls₁, device₁⟩, hstore, heq⟩ := Option.map_eq_some_iff.mp heffect
    have hin := echoPinStore_isSome.mp (Option.isSome_of_mem hstore)
    obtain ⟨_, -, hdevice⟩ := Option.map_eq_some_iff.mp hstore
    obtain ⟨-, rfl⟩ := Prod.mk.inj hdevice
    obtain ⟨-, rfl, -⟩ := Prod.mk.inj heq
    exact ⟨h.trigger, .inr hin⟩
  | storeNoOfSamples text count | storeDelta text count =>
    obtain ⟨-, rfl, -⟩ := Prod.mk.inj (Option.some.inj heffect)
    exact ⟨h.trigger, h.echo⟩

/-! ## What the threads leave alone -/

/-- What no thread of the device touches. -/
structure PinsKept (s s' : Shared) : Prop where
  triggerPin : s'.device.triggerPin = s.device.triggerPin
  echoPin : s'.device.echoPin = s.device.echoPin

theorem PinsKept.of_buffer {s s' : Shared} (h : BufferStep s s') : PinsKept s s' := by
  obtain ⟨buffer, bufferIndex, bufferLock, measurementInProgress, hdevice⟩ := h.device
  constructor
  all_goals rw [hdevice]

theorem hcsr04ThreadWrite_pins {env : KernelEnv} {s s' : Shared} {thread thread' : Measurement}
    (h : hcsr04ThreadWrite env thread s = some (s', thread')) : PinsKept s s' := by
  cases hcsr04ThreadWrite_cases h with
  | lock hlock => exact .of_buffer (.of_lock hlock)
  | fifoWrite hstep =>
    obtain ⟨buffer, bufferIndex, rfl⟩ := fifoWriteStep_device hstep
    exact ⟨rfl, rfl⟩
  | _ => exact ⟨rfl, rfl⟩

theorem threadStep_pins {env : KernelEnv} {s s' : Shared} {t t' : Thread}
    (h : threadStep env t s = some (s', t')) : PinsKept s s' := by
  cases threadStep_cases h with
  | read hstep => exact .of_buffer (hcsr04Read_buffer hstep)
  | write hstep => exact .of_buffer (hcsr04Write_entryStep hstep).buffer
  | enable hstep => exact .of_buffer (enableStore_entryStep hstep).buffer
  | measure hstep => exact hcsr04ThreadWrite_pins hstep
  | @irq irq irq' hstep =>
    obtain ⟨irqTime, pc⟩ := irq
    cases pc with
    | edge =>
      obtain ⟨rfl, -⟩ := Prod.mk.inj (Option.some.inj hstep)
      exact ⟨rfl, rfl⟩
    | down | handled => cases hstep

theorem deviceMove_pins {env : KernelEnv} {p q : Pool Shared Thread} {move : PoolMove Thread}
    (h : deviceMove env p move = some (q, ())) : PinsKept p.shared q.shared := by
  cases move with
  | start t =>
    obtain ⟨s, hstart, rfl⟩ := poolMove_start_eq_some.mp h
    have hdevice := (threadStart_effect hstart).2
    exact ⟨congrArg _ hdevice, congrArg _ hdevice⟩
  | step i =>
    obtain ⟨t, s, t', -, hstep, rfl⟩ := poolMove_step_eq_some.mp h
    exact threadStep_pins hstep

theorem PinsKept.known {s s' : Shared} (h : PinsKept s s') (hknown : PinsKnown s.device) :
    PinsKnown s'.device :=
  ⟨h.triggerPin ▸ hknown.trigger, h.echoPin ▸ hknown.echo⟩

/-! ## The states of the driver -/

def AllPinsKnown (s : PlatformSystem) : Prop := ∀ d ∈ s.driver.devices, PinsKnown d.device

theorem forall_replaceF {α : Type} {p : α → Prop} {f : α → Option α} {l : List α}
    (hl : ∀ x ∈ l, p x) (hf : ∀ x y, f x = some y → p y) : ∀ x ∈ l.replaceF f, p x := by
  induction l with
  | nil => exact hl
  | cons a l ih =>
    obtain ⟨ha, hrest⟩ := List.forall_mem_cons.mp hl
    rw [List.replaceF_cons]
    split
    next hnone => exact List.forall_mem_cons.mpr ⟨ha, ih hrest⟩
    next b hsome => exact List.forall_mem_cons.mpr ⟨hf a b hsome, hrest⟩

/-- The device is replaced by one whose pins are known. -/
theorem replaceF_known {devices : List PlatformDevice} (h : ∀ d ∈ devices, PinsKnown d.device)
    (key : DeviceKey) {device : Hcsr04Device} (hdevice : PinsKnown device) :
    ∀ d ∈ devices.replaceF fun d => if d.Has key then some { d with device } else none,
      PinsKnown d.device := by
  refine forall_replaceF h fun d d' hd => ?_
  split at hd
  · obtain rfl := Option.some.inj hd
    exact hdevice
  · cases hd

theorem hcsr04Init_known {s : Driver} (h : ∀ d ∈ s.devices, PinsKnown d.device) (env : ProbeEnv)
    (name : Nat) : ∀ d ∈ (hcsr04Init env name s).1.devices, PinsKnown d.device := by
  unfold hcsr04Init Driver.logClass
  split_ifs
  all_goals
    refine List.forall_mem_cons.mpr ⟨?_, h⟩
    exact ⟨.inl rfl, .inl rfl⟩

theorem pdriverProbe_known {s : Driver} (h : ∀ d ∈ s.devices, PinsKnown d.device) (env : ProbeEnv)
    (name : Nat) : ∀ d ∈ (pdriverProbe env name s).1.devices, PinsKnown d.device := by
  unfold pdriverProbe Driver.logClass
  dsimp only
  split_ifs
  · refine hcsr04Init_known ?_ env name
    exact fun d hd => absurd hd List.not_mem_nil
  · exact h
  · refine hcsr04Init_known ?_ env name
    exact h

theorem pdriverRemove_known {s : Driver} (h : ∀ d ∈ s.devices, PinsKnown d.device) (name : Nat) :
    ∀ d ∈ (pdriverRemove name s).1.devices, PinsKnown d.device := by
  have hdevices : (pdriverRemove name s).1.devices ⊆ s.devices := by
    simp only [pdriverRemove, hcsr04Exit, deleteDevices_eq]
    split <;> exact List.filter_subset_self _
  exact fun d hd => h d (hdevices hd)

theorem AllPinsKnown.move {s s' : PlatformSystem} {move : PlatformMove} {o : Option Int32}
    (h : AllPinsKnown s) (hmove : platformMove s move = some (s', o)) : AllPinsKnown s' := by
  cases move with
  | op op =>
    obtain ⟨⟨driver, ret⟩, hop, hs'⟩ := Option.map_eq_some_iff.mp hmove
    obtain ⟨rfl, -⟩ := Prod.mk.inj hs'
    cases op with
    | probe env name =>
      obtain rfl : (pdriverProbe env name s.driver).1 = driver :=
        congrArg Prod.fst (Option.some.inj hop)
      exact pdriverProbe_known h env name
    | remove name =>
      obtain rfl : (pdriverRemove name s.driver).1 = driver :=
        congrArg Prod.fst (Option.some.inj hop)
      exact pdriverRemove_known h name
    | device key call =>
      obtain ⟨d, calls, device, pins, hfind, heffect, rfl⟩ := Driver.atDevice_eq_some hop
      exact replaceF_known h key
        (DeviceCall.effect_known (h d (List.mem_of_find?_eq_some hfind)) heffect)
  | thread env devAdd move =>
    obtain ⟨d, hfind, hd⟩ := Option.bind_eq_some_iff.mp hmove
    obtain ⟨⟨p, ⟨⟩⟩, hp, hs'⟩ := Option.map_eq_some_iff.mp hd
    obtain ⟨rfl, -⟩ := Prod.mk.inj hs'
    exact replaceF_known h _
      ((deviceMove_pins hp).known (h d (List.mem_of_find?_eq_some hfind)))

/-! ## The main result -/

theorem staysInTable_iff {s : PlatformSystem} (h : AllPinsKnown s) (move : PlatformMove) :
    StaysInTable s move ↔ WritesColumn s move := by
  unfold StaysInTable WritesColumn
  split
  next key env text count =>
    refine forall_congr' fun d => forall_congr' fun hfind => ?_
    rw [triggerPinStore_isSome]
    exact inTable_scanInto_iff (h d (List.mem_of_find?_eq_some hfind)).trigger
  next key env text count =>
    refine forall_congr' fun d => forall_congr' fun hfind => ?_
    rw [echoPinStore_isSome]
    exact inTable_scanInto_iff (h d (List.mem_of_find?_eq_some hfind)).echo
  next => exact Iff.rfl

/-- In every run the stores stay inside the table exactly when each of them reads the number of a
column, or no number where the device's pin is set. -/
theorem stays_in_table_iff (moves : List PlatformMove) :
    Along platformMove StaysInTable systemLoad moves ↔
      Along platformMove WritesColumn systemLoad moves :=
  have hload : AllPinsKnown systemLoad := fun _ hd => absurd hd List.not_mem_nil
  along_congr platformMove (fun _ move h => staysInTable_iff h move)
    (fun _ _ _ _ h _ hmove => AllPinsKnown.move h hmove) hload moves

/-- A text that is no number is written to the trigger pin of a device that was probed. -/
theorem not_stays_in_table : ¬ ∀ moves : List PlatformMove,
    Along platformMove StaysInTable systemLoad moves := by
  intro hall
  obtain ⟨s, os, hrun, d, hfind, hnone⟩ : ∃ s os,
      run platformMove systemLoad [.op (.probe (probeEnv 5) 1)] = some (s, os) ∧
      ∃ d, s.driver.devices.find? (·.Has (.devAdd 0)) = some d ∧
        (triggerPinStore grantAll none d.device s.driver.calls).isSome = false :=
    ⟨_, _, rfl, _, rfl, by decide⟩
  have hstore := ((hall ([.op (.probe (probeEnv 5) 1)] ++
    [.op (.device (.devAdd 0) (.storeTriggerPin grantAll none 4))])).of_append platformMove hrun).1
  exact absurd (hstore d hfind) (by simp [hnone])

end KernelDrivers.Platform
