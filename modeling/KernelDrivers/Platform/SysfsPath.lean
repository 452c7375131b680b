import KernelDrivers.Hcsr04.ConfigurePins
import KernelDrivers.Platform.Driver
import KernelDrivers.Platform.Echoes

/-!
# The two ways to configure a device

A device is configured through its file, by `CONFIG_PINS` and `SET_PARAMETERS`, or through its
attributes. The measurement is the same: it pulses `irq_trigger_pin`, and hears the edges of the
interrupt that was claimed. The attributes request lines by a table of their own and set neither,
so a device configured through them pulses no line and hears nothing.
-/

namespace KernelDrivers.Platform
open Lib Hcsr04

/-! ## The two paths -/

/-- The attributes are written one after the other. The calls to the kernel come with the device. -/
def sysfsConfigured (env : KernelEnv) (triggerPin echoPin m delta : Int32) (device : Hcsr04Device) :
    Option (List KernelCall × Hcsr04Device) :=
  (triggerPinStore env (some triggerPin) device []).bind fun (calls, device) =>
  (echoPinStore env (some echoPin) device calls).map fun (calls, device) =>
    (calls, deltaStore (some delta) (noOfSamplesStore (some m) device))

def ioctlConfigured (env : KernelEnv) (triggerPin echoPin m delta : Int32)
    (pins : List Gen2PinConfig) (device : Hcsr04Device) : List KernelCall × Hcsr04Device :=
  let (calls, device, _, _) := configPinsIoctl env triggerPin echoPin device pins []
  (calls, (setParametersIoctl m delta device).1)

/-! ## What a measurement does -/

/-- The line that a thread drives high at its next statement. -/
def pulseEvent (s : Shared) : Thread → Option Int32
  | .measure ⟨_, .triggerHigh _ _⟩ => some s.device.irqData.irqTriggerPin
  | _ => none

/-- The edge that a thread handles at its next statement. -/
def edgeEvent (_ : Shared) : Thread → Option UInt64
  | .irq ⟨irqTime, .edge⟩ => some irqTime
  | _ => none

/-- A write of 1 to `enable`. -/
def EnablesOne (t : Thread) : Prop :=
  ∃ count created, t = .enable ⟨some 1, count, created, .testEnable⟩

/-- A call of `hcsr04_write`. -/
def Writes (t : Thread) : Prop :=
  ∃ bufferOperation created, t = .write ⟨bufferOperation, created, .testConfigured⟩

/-- What may come after the call that starts a measurement: the measurement, and edges. -/
def Follows : PoolMove Thread → Prop
  | .start (.measure _) | .start (.irq _) | .step _ => True
  | .start _ => False

/-- A run in which a call of the kind starts a measurement. -/
def Measuring (env : KernelEnv) (starts : Thread → Prop) (device : Hcsr04Device)
    (moves : List (PoolMove Thread)) : Prop :=
  ∃ call rest q os, moves = .start call :: rest ∧ starts call ∧ (∀ move ∈ rest, Follows move) ∧
    run (deviceMove env) (idle device) moves = some (q, os)

/-- Some measurement pulses the line. -/
def Pulses (env : KernelEnv) (starts : Thread → Prop) (device : Hcsr04Device) (line : Int32) :
    Prop :=
  ∃ moves, Measuring env starts device moves ∧
    line ∈ poolEvents (threadStep env) threadStart pulseEvent (idle device) moves

/-- Some measurement collects its samples from these edges. -/
def Hears (env : KernelEnv) (starts : Thread → Prop) (device : Hcsr04Device) (edges : List UInt64) :
    Prop :=
  ∃ moves, Measuring env starts device moves ∧
    poolEvents (threadStep env) threadStart edgeEvent (idle device) moves = edges

/-! ## Agreement of the paths -/

section Agreement

variable (env : KernelEnv) (sysfs ioctl : List KernelCall × Hcsr04Device)

def SamePulses : Prop := ∀ line, Pulses env EnablesOne sysfs.2 line ↔ Pulses env Writes ioctl.2 line

def SameInterrupt : Prop := heldIrqs sysfs.1 = heldIrqs ioctl.1

def SameEdges : Prop := ∀ edges, Hears env EnablesOne sysfs.2 edges ↔ Hears env Writes ioctl.2 edges

end Agreement

/-- Every request succeeds. -/
structure GrantsAll (env : KernelEnv) : Prop where
  gpioRequest : ∀ line, env.gpioRequest line = 0
  gpioToIrq : ∀ line, ¬ line < 0 → ¬ env.gpioToIrq line < 0
  requestIrq : ∀ irq, env.requestIrq irq = 0

/-- A record as it was populated. -/
def wiring (pin : Gen2PinConfig) : Gen2PinConfig :=
  { pin with isPinConfigured := 0, deviceMinorNumber := NO_VALUE }

/-- The records are those of the board, configured or not. -/
def OnBoard (pins : List Gen2PinConfig) : Prop :=
  pins.map wiring = (populateGen2PinsData fun _ => NO_VALUE).map wiring

/-! ## Through the attributes -/

theorem irqEvents_pinConfig2 (env : KernelEnv) (pin ioFlag : Int32) (val : Bool) (first : Int32)
    (calls : List KernelCall) :
    irqEvents (pinConfig2 env pin ioFlag val first calls).1 = irqEvents calls := by
  unfold pinConfig2
  dsimp only
  split_ifs <;> rfl

/-- The table has a column for every pin of the board, and no interrupt is requested for it. -/
theorem configureColumn_irqs (env : KernelEnv) (ioFlag : Int32) {pin : Int32}
    (hmin : 0 ≤ pin.toInt) (hmax : pin.toInt < 14) (calls : List KernelCall) :
    ∃ calls', configureColumn env ioFlag pin calls = some calls' ∧
      irqEvents calls' = irqEvents calls := by
  refine forRange_invariant (fun _ calls' => irqEvents calls' = irqEvents calls) ?_ rfl
  intro i calls' _ hi hcalls
  have hrow := CArray.load_fin gpioCtrl ⟨i, by omega⟩
  have hpin : (gpioCtrl ⟨i, by omega⟩).load pin.toInt =
      some (gpioCtrl ⟨i, by omega⟩ ⟨pin.toInt.toNat, by omega⟩) := dif_pos ⟨hmin, hmax⟩
  refine ⟨_, by rw [hrow, Option.bind_some, hpin, Option.map_some], ?_⟩
  split
  · exact (irqEvents_pinConfig2 ..).trans hcalls
  · exact hcalls

theorem toInt_bounds {pin : Int32} (hmin : ¬ pin < 0) (hmax : ¬ pin > 12) :
    0 ≤ pin.toInt ∧ pin.toInt < 14 := by
  rw [Int32.lt_iff_toInt_lt] at hmin
  rw [gt_iff_lt, Int32.lt_iff_toInt_lt] at hmax
  have hzero : (0 : Int32).toInt = 0 := rfl
  have htwelve : (12 : Int32).toInt = 12 := rfl
  omega

/-- The attributes claim no interrupt and set no line to pulse. -/
theorem sysfsConfigured_spec (env : KernelEnv) {triggerPin echoPin : Int32}
    (hpins : ¬ Refused triggerPin echoPin) (m delta : Int32) (device : Hcsr04Device) :
    ∃ calls device', sysfsConfigured env triggerPin echoPin m delta device = some (calls, device') ∧
      heldIrqs calls = ∅ ∧ device'.irqData = device.irqData := by
  simp only [Refused, not_or] at hpins
  obtain ⟨htmin, htmax, hemin, hemax, -⟩ := hpins
  obtain ⟨htlow, hthigh⟩ := toInt_bounds htmin htmax
  obtain ⟨helow, hehigh⟩ := toInt_bounds hemin hemax
  obtain ⟨calls₁, htrigger, hirqs₁⟩ := configureColumn_irqs env 1 htlow hthigh []
  obtain ⟨calls₂, hecho, hirqs₂⟩ := configureColumn_irqs env 0 helow hehigh calls₁
  refine ⟨calls₂, { device with triggerPin, echoPin, m, delta }, ?_, ?_, rfl⟩
  · simp [sysfsConfigured, triggerPinStore, echoPinStore, noOfSamplesStore, deltaStore, scanInto,
      htrigger, hecho]
  · rw [heldIrqs, hirqs₂, hirqs₁]
    rfl

/-! ## Through the calls of the file -/

/-- A successful `configure_pins` wires the records of the two pins. -/
theorem configurePins_wired {env : KernelEnv} {pins : List Gen2PinConfig} {device : Hcsr04Device}
    {calls : List KernelCall} (hret : (Hcsr04.configurePins env pins device calls).2.2.2 ≠ 0) :
    (Hcsr04.configurePins env pins device calls).2.1 =
      { device with irqData := pins.foldl (wired env device) device.irqData } := by
  have hgrants := (configurePins_granted env pins device calls).1.mp hret
  rw [(configurePins_eq env pins device calls).2, grantedRecords_of_grants hgrants,
    foldl_wired_filter]

/-- The lines of the board's records are low, and each record has a linux line. -/
theorem OnBoard.lines {pins : List Gen2PinConfig} (h : OnBoard pins) {pin : Gen2PinConfig}
    (hmem : pin ∈ pins) : LowLines pin ∧ ¬ pin.linuxGpioPin < 0 := by
  have hboard : ∀ pin ∈ (populateGen2PinsData fun _ => NO_VALUE).map wiring,
      (pin.linuxGpioPin < 64 ∧ pin.levelShifterPin < 64) ∧ ¬ pin.linuxGpioPin < 0 := by decide
  have hwiring : wiring pin ∈ pins.map wiring := List.mem_map_of_mem hmem
  rw [h] at hwiring
  exact hboard (wiring pin) hwiring

theorem OnBoard.galileoPins {pins : List Gen2PinConfig} (h : OnBoard pins) :
    pins.map Gen2PinConfig.galileoPin = boardPins := by
  have hmap := congrArg (List.map Gen2PinConfig.galileoPin) h
  rw [List.map_map, List.map_map] at hmap
  exact hmap

theorem OnBoard.exists_record {pins : List Gen2PinConfig} (h : OnBoard pins) {galileoPin : Int32}
    (hmin : ¬ galileoPin < 0) (hmax : ¬ galileoPin > 12) :
    ∃ pin ∈ pins, pin.galileoPin = galileoPin := by
  have hmem := mem_boardPins hmin hmax
  rw [← h.galileoPins] at hmem
  exact List.mem_map.mp hmem

/-- What a device needs to measure: the line of its trigger pin, the interrupt of its echo pin,
which is claimed, and the parameters. -/
structure Measures (env : KernelEnv) (pins : List Gen2PinConfig) (triggerPin echoPin m : Int32)
    (calls : List KernelCall) (device : Hcsr04Device) : Prop where
  trigger : ∃ pin ∈ pins, pin.galileoPin = triggerPin ∧
    device.irqData.irqTriggerPin = pin.linuxGpioPin
  echo : ∃ pin ∈ pins, pin.galileoPin = echoPin ∧
    device.irqData.irqNo = env.gpioToIrq pin.linuxGpioPin
  claimed : (device.miscMinor, device.irqData.irqNo) ∈ heldIrqs calls
  m : device.m = m
  arePinsConfigured : device.arePinsConfigured = 1
  areMDeltaConfigured : device.areMDeltaConfigured = 1
  measurementInProgress : device.measurementInProgress = 0
  bufferLock : device.bufferLock = false

theorem GrantsAll.grants {env : KernelEnv} (h : GrantsAll env) {pins : List Gen2PinConfig}
    (hboard : OnBoard pins) (device : Hcsr04Device) : Grants env device pins := by
  intro pin hmem _
  exact ⟨fun _ line _ => by simp [KernelEnv.grants, h.gpioRequest],
    fun _ => ⟨h.gpioToIrq _ (hboard.lines hmem).2, h.requestIrq _⟩⟩

/-- The interrupt of a record's line is a number. -/
theorem GrantsAll.irq_ne {env : KernelEnv} (h : GrantsAll env) {pins : List Gen2PinConfig}
    (hboard : OnBoard pins) {pin : Gen2PinConfig} (hmem : pin ∈ pins) :
    env.gpioToIrq pin.linuxGpioPin ≠ NO_VALUE := by
  intro hvalue
  exact h.gpioToIrq pin.linuxGpioPin (hboard.lines hmem).2 (by rw [hvalue]; decide)

theorem ioctlConfigured_measures {env : KernelEnv} (henv : GrantsAll env)
    {pins : List Gen2PinConfig} (hboard : OnBoard pins) {triggerPin echoPin m delta : Int32}
    (hpins : ¬ Refused triggerPin echoPin) (hne : triggerPin ≠ echoPin) (hm : 0 < m)
    (hdelta : 0 < delta) (blank : Hcsr04Device) :
    let ioctl := ioctlConfigured env triggerPin echoPin m delta pins (initializeDevice blank)
    Measures env pins triggerPin echoPin m ioctl.1 ioctl.2 := by
  let device : Hcsr04Device := { initializeDevice blank with triggerPin, echoPin }
  have hclaims : Claims device [] [] := by
    refine ⟨fun irq => iff_of_false (Finset.notMem_empty _) ?_, fun _ _ _ => Iff.rfl⟩
    rintro ⟨rfl, hvalue⟩
    exact hvalue rfl
  have hnodup : (pins.map Gen2PinConfig.galileoPin).Nodup := by
    rw [hboard.galileoPins]
    decide
  have hret := (configurePins_granted env pins device []).1.mpr (henv.grants hboard device)
  have hheld := configurePins_claims env hclaims hnodup (.inl rfl)
  have hwired := configurePins_wired hret
  have hlow := configurePins_low env (fun pin hmem => (hboard.lines hmem).1) device []
  have hrange := hpins
  simp only [Refused, not_or] at hrange
  have hparameters : ¬ (m ≤ 0 ∨ delta ≤ 0) := by
    rw [not_or, Int32.not_le, Int32.not_le]
    exact ⟨hm, hdelta⟩
  have hioctl : ioctlConfigured env triggerPin echoPin m delta pins (initializeDevice blank) =
      ((Hcsr04.configurePins env pins device []).1,
        { device with
          irqData := pins.foldl (wired env device) device.irqData
          arePinsConfigured := 1
          m := m
          delta := delta
          areMDeltaConfigured := 1 }) := by
    have hrelease : releaseInterrupt (initializeDevice blank) [] = ([], initializeDevice blank) :=
      if_neg fun h => h.1 rfl
    simp only [ioctlConfigured, configPinsIoctl, if_neg (show ¬ (_ ∨ _) from hpins), hrelease]
    rw [hlow, if_neg hret, hwired]
    exact congrArg (Prod.mk _) (congrArg Prod.fst (if_neg hparameters))
  simp only [hioctl]
  rw [hwired] at hheld
  obtain ⟨triggerRecord, htmem, htpin⟩ := hboard.exists_record hrange.1 hrange.2.1
  obtain ⟨echoRecord, hemem, hepin⟩ := hboard.exists_record hrange.2.2.1 hrange.2.2.2.1
  obtain ⟨pin, hmem, hpin, -, hline⟩ : ∃ pin ∈ pins, _ :=
    (foldl_wired_trigger env device pins device.irqData).resolve_right fun h =>
      hne (htpin.symm.trans (h.1 triggerRecord htmem htpin.symm).symm)
  obtain ⟨pin', hmem', hpin', hirq, -⟩ : ∃ pin ∈ pins, _ :=
    (foldl_wired_echo env device pins device.irqData).resolve_right fun h =>
      h.1 echoRecord hemem hepin.symm
  refine ⟨⟨pin, hmem, hpin.symm, hline⟩, ⟨pin', hmem', hpin'.symm, hirq⟩,
    (hheld.own _).mpr ⟨rfl, fun hvalue => ?_⟩, rfl, rfl, rfl, rfl, rfl⟩
  exact henv.irq_ne hboard hmem' (hirq.symm.trans hvalue)

/-! ## Runs of a measurement -/

/-- Only edges and triggers write to the interrupt data, and not to its lines. -/
theorem Effect.lines {s s' : Shared} {t t' : Thread} (h : Effect s t s' t') :
    s'.device.irqData.irqTriggerPin = s.device.irqData.irqTriggerPin ∧
      s'.device.irqData.irqNo = s.device.irqData.irqNo := by
  have hevent : ∀ irqData e, (takeEvent irqData e).irqTriggerPin = irqData.irqTriggerPin ∧
      (takeEvent irqData e).irqNo = irqData.irqNo := by
    intro irqData e
    cases e with
    | trigger samplesCollected => exact ⟨rfl, rfl⟩
    | edge irqTime =>
      unfold takeEvent takeEdge countSample
      dsimp only
      split_ifs <;> exact ⟨rfl, rfl⟩
  rw [h.irqData]
  cases echoEvent s t with
  | none => exact ⟨rfl, rfl⟩
  | some e => exact hevent _ e

/-- A measurement pulses no line but the device's trigger line. -/
theorem Pulses.line_eq {env : KernelEnv} {starts : Thread → Prop} {device : Hcsr04Device}
    {line : Int32} (h : Pulses env starts device line) : line = device.irqData.irqTriggerPin := by
  obtain ⟨moves, ⟨call, rest, q, os, -, -, -, hrun⟩, hline⟩ := h
  have hall := run_pool_events pulseEvent
    (fun q es => q.shared.device.irqData.irqTriggerPin = device.irqData.irqTriggerPin ∧
      ∀ line ∈ es, line = device.irqData.irqTriggerPin) ?_ ?_ ⟨rfl, by simp⟩ hrun
  · exact hall.2 line hline
  · rintro q es i t s' t' ⟨htrigger, hes⟩ _ hstep
    refine ⟨(threadStep_effect hstep).lines.1.trans htrigger, fun line hmem => ?_⟩
    rcases List.mem_append.mp hmem with hmem | hmem
    · exact hes line hmem
    · unfold pulseEvent at hmem
      grind
  · rintro q es t s' ⟨htrigger, hes⟩ hstart
    exact ⟨by rw [(threadStart_effect hstart).2]; exact htrigger, hes⟩

theorem threadStep_edge {env : KernelEnv} {s s' : Shared} {t t' : Thread}
    (h : threadStep env t s = some (s', t')) : edgeEvent s' t' = none := by
  cases threadStep_cases h with
  | @irq irq irq' hirq =>
    obtain ⟨irqTime, pc⟩ := irq
    cases pc with
    | edge =>
      obtain ⟨rfl, rfl⟩ := Prod.mk.inj (Option.some.inj hirq)
      rfl
    | down | handled => cases hirq
  | read | write | enable | measure => rfl

/-- Without a claimed interrupt no edge is handled. -/
theorem Hears.eq_nil {env : KernelEnv} {starts : Thread → Prop} {device : Hcsr04Device}
    {edges : List UInt64} (h : Hears env starts device edges)
    (hno : device.irqData.irqNo = NO_VALUE) : edges = [] := by
  obtain ⟨moves, ⟨call, rest, q, os, -, -, -, hrun⟩, rfl⟩ := h
  have hall := run_pool_events edgeEvent
    (fun q es => q.shared.device.irqData.irqNo = NO_VALUE ∧
      (∀ t ∈ q.threads, edgeEvent q.shared t = none) ∧ es = []) ?_ ?_
    ⟨hno, by simp [idle], rfl⟩ hrun
  · exact hall.2.2
  · rintro q es i t s' t' ⟨hq, hthreads, rfl⟩ ht hstep
    refine ⟨(threadStep_effect hstep).lines.2.trans hq, fun u hu => ?_, ?_⟩
    · rcases List.mem_or_eq_of_mem_set hu with hu | rfl
      · exact hthreads u hu
      · exact threadStep_edge hstep
    · rw [hthreads t (List.mem_of_getElem? ht)]
      rfl
  · rintro q es t s' ⟨hq, hthreads, rfl⟩ hstart
    refine ⟨by rw [(threadStart_effect hstart).2]; exact hq, fun u hu => ?_, rfl⟩
    rcases List.mem_append.mp hu with hu | hu
    · exact hthreads u hu
    · rw [List.mem_singleton.mp hu]
      unfold threadStart at hstart
      split at hstart <;> first | rfl | simp [hq] at hstart

/-- A write of the file to its end, as the first thread. -/
def writeMoves : List (PoolMove Thread) :=
  .start (.write ⟨0, true, .testConfigured⟩) :: List.replicate 7 (.step 0)

/-- The pool after the write. -/
def written (device : Hcsr04Device) : Pool Shared Thread :=
  ⟨⟨{ device with measurementInProgress := 1 }, 1, []⟩,
    [.write ⟨0, true, .initiating (.returned 0)⟩]⟩

section Run

variable {env : KernelEnv} {pins : List Gen2PinConfig} {triggerPin echoPin m : Int32}
  {calls : List KernelCall} {device : Hcsr04Device}

theorem Measures.run_write (h : Measures env pins triggerPin echoPin m calls device) :
    run (deviceMove env) (idle device) writeMoves =
      some (written device, List.replicate 8 ()) := by
  let call (pc : WritePc) : Thread := .write ⟨0, true, pc⟩
  let busy : Hcsr04Device := { device with measurementInProgress := 1 }
  let locked : Hcsr04Device := { busy with bufferLock := true }
  have hstart : run (deviceMove env) (idle device) [.start (call .testConfigured)] =
      some (⟨⟨device, 0, []⟩, [call .testConfigured]⟩, [()]) := rfl
  have htestConfigured : threadStep env (call .testConfigured) ⟨device, 0, []⟩ =
      some (⟨device, 0, []⟩, call .copyFromUser) := by
    simp [call, threadStep, hcsr04Write, h.arePinsConfigured, h.areMDeltaConfigured]
  have hcopyFromUser : threadStep env (call .copyFromUser) ⟨device, 0, []⟩ =
      some (⟨device, 0, []⟩, call .testInProgress) := rfl
  have htestInProgress : threadStep env (call .testInProgress) ⟨device, 0, []⟩ =
      some (⟨device, 0, []⟩, call .setInProgress) := by
    simp [call, threadStep, hcsr04Write, h.measurementInProgress]
  have hsetInProgress : threadStep env (call .setInProgress) ⟨device, 0, []⟩ =
      some (⟨busy, 0, []⟩, call (.initiating .lock)) := rfl
  have hlock : threadStep env (call (.initiating .lock)) ⟨busy, 0, []⟩ =
      some (⟨locked, 0, []⟩, call (.initiating .kthreadRun)) := by
    simp [call, threadStep, hcsr04Write, initiateMeasurement, Shared.lock, Shared.setDevice,
      h.bufferLock, busy, locked]
  have hkthreadRun : threadStep env (call (.initiating .kthreadRun)) ⟨locked, 0, []⟩ =
      some (⟨locked, 1, []⟩, call (.initiating .unlock)) := rfl
  have hunlock : threadStep env (call (.initiating .unlock)) ⟨locked, 1, []⟩ =
      some (⟨busy, 1, []⟩, call (.initiating (.returned 0))) := by
    simp [call, threadStep, hcsr04Write, initiateMeasurement, Shared.unlock, Shared.setDevice,
      h.bufferLock, busy, locked]
  exact run_trans _ hstart (run_trans _ (run_only_thread htestConfigured)
    (run_trans _ (run_only_thread hcopyFromUser) (run_trans _ (run_only_thread htestInProgress)
    (run_trans _ (run_only_thread hsetInProgress) (run_trans _ (run_only_thread hlock)
    (run_trans _ (run_only_thread hkthreadRun) (run_only_thread hunlock)))))))

/-- What comes after the write makes a run of a measurement. -/
theorem Measures.measuring (h : Measures env pins triggerPin echoPin m calls device)
    {rest : List (PoolMove Thread)} (hrest : ∀ move ∈ rest, Follows move)
    {q : Pool Shared Thread} {os : List Unit}
    (hrun : run (deviceMove env) (written device) rest = some (q, os)) :
    Measuring env Writes device (writeMoves ++ rest) := by
  refine ⟨_, List.replicate 7 (.step 0) ++ rest, q, _, rfl, ⟨0, true, rfl⟩, fun move hmem => ?_,
    run_trans _ h.run_write hrun⟩
  rcases List.mem_append.mp hmem with hmem | hmem
  · rw [List.eq_of_mem_replicate hmem]
    trivial
  · exact hrest move hmem

/-- The measurement comes to its first trigger when `m + 2` is not negative. -/
theorem Measures.pulses (h : Measures env pins triggerPin echoPin m calls device)
    (hm : 0 ≤ m + 2) : Pulses env Writes device device.irqData.irqTriggerPin := by
  let rest : List (PoolMove Thread) := .start (.measure ⟨0, .lock⟩) :: List.replicate 4 (.step 1)
  have hrest : ∀ move ∈ rest, Follows move := by simp [rest, Follows]
  have hloop : 0 ≤ device.m + 2 := by rwa [h.m]
  have hrun : (run (deviceMove env) (written device) rest).isSome := by
    simp [rest, List.replicate, run, poolMove, written, threadStart, threadStep, hcsr04ThreadWrite,
      Shared.setDevice, Shared.lock, h.bufferLock, hloop]
  obtain ⟨⟨q, os⟩, hrun⟩ := Option.isSome_iff_exists.mp hrun
  refine ⟨writeMoves ++ rest, h.measuring hrest hrun, ?_⟩
  rw [poolEvents_append pulseEvent h.run_write]
  apply List.mem_append_right
  simp [rest, List.replicate, poolEvents, poolMove, written, threadStart, threadStep,
    hcsr04ThreadWrite, Shared.setDevice, Shared.lock, h.bufferLock, hloop, pulseEvent]

/-- An edge of the claimed interrupt is handled. -/
theorem Measures.hears (h : Measures env pins triggerPin echoPin m calls device)
    (hno : device.irqData.irqNo ≠ NO_VALUE) (irqTime : UInt64) :
    ∃ edges, irqTime ∈ edges ∧ Hears env Writes device edges := by
  let rest : List (PoolMove Thread) := [.start (.irq ⟨irqTime, .edge⟩), .step 1]
  have hrest : ∀ move ∈ rest, Follows move := by simp [rest, Follows]
  have hrun : (run (deviceMove env) (written device) rest).isSome := by
    simp [rest, run, poolMove, written, threadStart, threadStep, irqHandler, hno]
  obtain ⟨⟨q, os⟩, hrun⟩ := Option.isSome_iff_exists.mp hrun
  refine ⟨_, ?_, writeMoves ++ rest, h.measuring hrest hrun, rfl⟩
  rw [poolEvents_append edgeEvent h.run_write]
  apply List.mem_append_right
  simp [rest, poolEvents, poolMove, written, threadStart, threadStep, irqHandler, hno, edgeEvent]

end Run

/-! ## The main result -/

theorem initialized_irqData (blank : Hcsr04Device) :
    (initializeDevice blank).irqData = initialIrqData := rfl

/-- Whatever the pins and the parameters, a device configured through its attributes does not
measure as one configured through its file does: not the same interrupt is claimed, not the same
edges are heard, and, where the file's device pulses at all, not the same line is pulsed. -/
theorem paths_disagree {env : KernelEnv} (henv : GrantsAll env) {pins : List Gen2PinConfig}
    (hboard : OnBoard pins) {triggerPin echoPin m delta : Int32}
    (hpins : ¬ Refused triggerPin echoPin) (hne : triggerPin ≠ echoPin) (hm : 0 < m)
    (hdelta : 0 < delta) (blank : Hcsr04Device) :
    ∃ sysfs, sysfsConfigured env triggerPin echoPin m delta (initializeDevice blank) = some sysfs ∧
      let ioctl := ioctlConfigured env triggerPin echoPin m delta pins (initializeDevice blank)
      ¬ SameInterrupt sysfs ioctl ∧ ¬ SameEdges env sysfs ioctl ∧
        (0 ≤ m + 2 → ¬ SamePulses env sysfs ioctl) := by
  obtain ⟨calls, device, hsysfs, hheld, hirqData⟩ :=
    sysfsConfigured_spec env hpins m delta (initializeDevice blank)
  rw [initialized_irqData] at hirqData
  have hmeasures := ioctlConfigured_measures henv hboard hpins hne hm hdelta blank
  obtain ⟨triggerRecord, htmem, -, htrigger⟩ := hmeasures.trigger
  obtain ⟨echoRecord, hemem, -, hecho⟩ := hmeasures.echo
  refine ⟨(calls, device), hsysfs, fun hsame => ?_, fun hsame => ?_, fun hloop hsame => ?_⟩
  · have hclaimed := hmeasures.claimed
    rw [← hsame, hheld] at hclaimed
    exact Finset.notMem_empty _ hclaimed
  · obtain ⟨edges, hmem, hhears⟩ :=
      hmeasures.hears (fun hvalue => henv.irq_ne hboard hemem (hecho.symm.trans hvalue)) 0
    rw [((hsame edges).mpr hhears).eq_nil (by rw [hirqData]; rfl)] at hmem
    exact List.not_mem_nil hmem
  · have hline := ((hsame _).mpr (hmeasures.pulses hloop)).line_eq
    rw [htrigger, hirqData] at hline
    exact (hboard.lines htmem).2 (by rw [hline]; decide)

theorem grantsAll_grantAll : GrantsAll grantAll := ⟨fun _ => rfl, fun _ h => h, fun _ => rfl⟩

/-- The pins 3 and 2 on the board as it was populated. -/
theorem paths_disagree_three_two :
    ∃ sysfs, sysfsConfigured grantAll 3 2 1 60 (initializeDevice blankDevice) = some sysfs ∧
      let ioctl := ioctlConfigured grantAll 3 2 1 60 (populateGen2PinsData fun _ => 0)
        (initializeDevice blankDevice)
      ¬ SameInterrupt sysfs ioctl ∧ ¬ SameEdges grantAll sysfs ioctl ∧
        (0 ≤ (1 : Int32) + 2 → ¬ SamePulses grantAll sysfs ioctl) :=
  paths_disagree grantsAll_grantAll rfl (by decide) (by decide) (by decide) (by decide) blankDevice

/-- The attributes claim no interrupt for echo pin 2, and the calls of the file claim that of line
61. -/
theorem not_paths_agree : ¬ ∀ (env : KernelEnv) (pins : List Gen2PinConfig)
    (triggerPin echoPin m delta : Int32) (blank : Hcsr04Device), GrantsAll env → OnBoard pins →
    ¬ Refused triggerPin echoPin → triggerPin ≠ echoPin → 0 < m → 0 < delta →
    ∃ sysfs, sysfsConfigured env triggerPin echoPin m delta (initializeDevice blank) = some sysfs ∧
      let ioctl := ioctlConfigured env triggerPin echoPin m delta pins (initializeDevice blank)
      SamePulses env sysfs ioctl ∧ SameInterrupt sysfs ioctl ∧ SameEdges env sysfs ioctl := by
  intro hall
  obtain ⟨sysfs, hsysfs, -, hsame, -⟩ := hall grantAll (populateGen2PinsData fun _ => 0) 3 2 1 60
    blankDevice grantsAll_grantAll rfl (by decide) (by decide) (by decide) (by decide)
  have hnone : (sysfsConfigured grantAll 3 2 1 60 (initializeDevice blankDevice)).map
      (fun r => heldIrqs r.1) = some ∅ := by decide
  have hclaimed : heldIrqs (ioctlConfigured grantAll 3 2 1 60 (populateGen2PinsData fun _ => 0)
      (initializeDevice blankDevice)).1 = {(0, 61)} := by decide
  rw [hsysfs] at hnone
  have hempty := (Option.some.inj hnone).symm.trans (hsame.trans hclaimed)
  exact absurd hempty.symm (Finset.singleton_ne_empty _)

end KernelDrivers.Platform
