import KernelDrivers.Hcsr04.LineAccounting
import KernelDrivers.Lib.Run
import KernelDrivers.Platform.Driver

/-!
# What a remove does to the other devices

The pin records are shared by all devices, and the exit of one device calls
`release_gpio_pins(NULL)`: it frees the lines of every configured record, whichever device
configured it, and the records themselves, which stay linked. So a remove leaves the others alone
exactly when no record is configured.
-/

namespace KernelDrivers.Platform
open Lib Hcsr04

/-- The record is configured by the device of this name. -/
def OwnedBy (s : Driver) (name : Nat) (pin : Gen2PinConfig) : Prop :=
  ∃ d ∈ s.devices, d.linked = true ∧ d.name = name ∧ pin.deviceMinorNumber = d.device.miscMinor

/-- From `s` to `s'` the lines and records that the device of this name did not configure stay as
they are, and every record that is linked is live. -/
structure Undisturbed (name : Nat) (s s' : Driver) : Prop where
  held : ∀ line ∈ heldLines s.calls,
    (∀ pin ∈ s.pins, pin.isPinConfigured ≠ 0 → OwnedBy s name pin → line ∉ pin.lines) →
    line ∈ heldLines s'.calls
  configured : ∀ pin ∈ s.pins, pin.isPinConfigured ≠ 0 → ¬ OwnedBy s name pin → pin ∈ s'.pins
  live : ∀ pin ∈ s'.pins, pin.galileoPin ∉ s'.freed

def RemovesUndisturbed (s : Driver) : DriverOp → Prop
  | .remove name => Undisturbed name s (pdriverRemove name s).1
  | _ => True

/-- No record is configured when a device is removed. -/
def RemovesUnconfigured (s : Driver) : DriverOp → Prop
  | .remove _ => ∀ pin ∈ s.pins, pin.isPinConfigured = 0
  | _ => True

/-! ## The walk over the records -/

theorem releaseAllGpioPins_none {pins : List Gen2PinConfig}
    (h : ∀ pin ∈ pins, pin.isPinConfigured = 0) (freed : List Int32) (calls : List KernelCall) :
    releaseAllGpioPins pins freed calls = (calls, pins, freed) := by
  induction pins with
  | nil => rfl
  | cons pin rest ih =>
    have hpin : ¬ pin.isPinConfigured ≠ 0 := by simpa using h pin List.mem_cons_self
    simp only [releaseAllGpioPins, if_neg hpin,
      ih fun pin' hmem => h pin' (List.mem_cons_of_mem _ hmem)]

/-- The records stay linked, and those freed are added. -/
theorem releaseAllGpioPins_spec (pins : List Gen2PinConfig) (freed : List Int32)
    (calls : List KernelCall) :
    (releaseAllGpioPins pins freed calls).2.1.map Gen2PinConfig.galileoPin =
        pins.map Gen2PinConfig.galileoPin ∧
      freed ⊆ (releaseAllGpioPins pins freed calls).2.2 ∧
      ∀ pin ∈ pins, pin.isPinConfigured ≠ 0 →
        pin.galileoPin ∈ (releaseAllGpioPins pins freed calls).2.2 := by
  induction pins generalizing freed calls with
  | nil => exact ⟨rfl, List.Subset.refl _, nofun⟩
  | cons pin rest ih =>
    by_cases hpin : pin.isPinConfigured ≠ 0
    · obtain ⟨hlinked, hfreed, hrest⟩ := ih (pin.galileoPin :: freed) (releaseGpioPin pin calls).1
      simp only [releaseAllGpioPins, if_pos hpin]
      refine ⟨congrArg (pin.galileoPin :: ·) hlinked,
        fun galileoPin hmem => hfreed (List.mem_cons_of_mem _ hmem), fun pin' hmem hset => ?_⟩
      rcases List.mem_cons.mp hmem with rfl | hmem
      · exact hfreed List.mem_cons_self
      · exact hrest pin' hmem hset
    · obtain ⟨hlinked, hfreed, hrest⟩ := ih freed calls
      simp only [releaseAllGpioPins, if_neg hpin]
      refine ⟨congrArg (pin.galileoPin :: ·) hlinked, hfreed, fun pin' hmem hset => ?_⟩
      rcases List.mem_cons.mp hmem with rfl | hmem
      · exact absurd hset hpin
      · exact hrest pin' hmem hset

/-- What a remove does to the records, whichever device goes. -/
theorem pdriverRemove_pins (name : Nat) (s : Driver) :
    let released := releaseAllGpioPins s.pins s.freed s.calls
    (pdriverRemove name s).1.calls = released.1 ∧ (pdriverRemove name s).1.pins = released.2.1 ∧
      (pdriverRemove name s).1.freed = released.2.2 := by
  simp only [pdriverRemove, hcsr04Exit, deleteDevices_eq]
  split <;> exact ⟨rfl, rfl, rfl⟩

/-! ## One remove -/

/-- With no record configured a remove leaves the lines and the records as they were. -/
theorem pdriverRemove_unconfigured {s : Driver} (h : ∀ pin ∈ s.pins, pin.isPinConfigured = 0)
    (name : Nat) : (pdriverRemove name s).1.calls = s.calls ∧
      (pdriverRemove name s).1.pins = s.pins ∧ (pdriverRemove name s).1.freed = s.freed := by
  have hpins := pdriverRemove_pins name s
  rwa [releaseAllGpioPins_none h] at hpins

theorem undisturbed_of_unconfigured {s : Driver} (hfreed : s.freed = [])
    (h : ∀ pin ∈ s.pins, pin.isPinConfigured = 0) (name : Nat) :
    Undisturbed name s (pdriverRemove name s).1 := by
  obtain ⟨hcalls, hpins, hfreed'⟩ := pdriverRemove_unconfigured h name
  refine ⟨fun line hline _ => ?_, fun pin hmem _ _ => ?_, fun pin _ => ?_⟩
  · rwa [hcalls]
  · rwa [hpins]
  · rw [hfreed', hfreed]
    exact List.not_mem_nil

/-- A record that is configured is freed by the remove, and stays linked. -/
theorem unconfigured_of_live {s : Driver} {name : Nat}
    (h : Undisturbed name s (pdriverRemove name s).1) :
    ∀ pin ∈ s.pins, pin.isPinConfigured = 0 := by
  intro pin hmem
  by_contra hset
  obtain ⟨-, hpins, hfreed⟩ := pdriverRemove_pins name s
  obtain ⟨hlinked, -, hfrees⟩ := releaseAllGpioPins_spec s.pins s.freed s.calls
  rw [← hpins] at hlinked
  rw [← hfreed] at hfrees
  have hmem' : pin.galileoPin ∈ (pdriverRemove name s).1.pins.map Gen2PinConfig.galileoPin := by
    rw [hlinked]
    exact List.mem_map_of_mem hmem
  obtain ⟨pin', hpin', heq⟩ := List.mem_map.mp hmem'
  exact h.live pin' hpin' (heq ▸ hfrees pin hmem hset)

theorem pdriverProbe_freed (env : ProbeEnv) (name : Nat) (s : Driver) :
    (pdriverProbe env name s).1.freed = s.freed := by
  have hinit : ∀ t : Driver, (hcsr04Init env name t).1.freed = t.freed := by
    intro t
    obtain ⟨d, heq⟩ := hcsr04Init_eq env name t
    rw [heq]
  by_cases hfirst : s.first = 1
  · cases hcreated : env.classCreated with
    | true => rw [pdriverProbe_first name hfirst hcreated, hinit]
    | false => simp [pdriverProbe, hfirst, hcreated, Driver.logClass]
  · rw [pdriverProbe_later env name hfirst, hinit]

/-! ## The main result -/

/-- In every run the removes leave the other devices undisturbed exactly when each of them comes
while no record is configured. -/
theorem removes_undisturbed_iff (ops : List DriverOp) :
    Along driverOp RemovesUndisturbed moduleLoad ops ↔
      Along driverOp RemovesUnconfigured moduleLoad ops := by
  have hiff : ∀ (s : Driver) op, s.freed = [] →
      (RemovesUndisturbed s op ↔ RemovesUnconfigured s op) := by
    intro s op hfreed
    cases op with
    | probe env name => exact Iff.rfl
    | remove name =>
      exact ⟨unconfigured_of_live, fun h => undisturbed_of_unconfigured hfreed h name⟩
    | device key call => exact Iff.rfl
  have hstep : ∀ (s : Driver) op s' ret, s.freed = [] → RemovesUnconfigured s op →
      driverOp s op = some (s', ret) → s'.freed = [] := by
    intro s op s' ret hfreed hok hop
    cases op with
    | probe env name =>
      obtain rfl : (pdriverProbe env name s).1 = s' := congrArg Prod.fst (Option.some.inj hop)
      rw [pdriverProbe_freed, hfreed]
    | remove name =>
      obtain rfl : (pdriverRemove name s).1 = s' := congrArg Prod.fst (Option.some.inj hop)
      rw [(pdriverRemove_unconfigured hok name).2.2, hfreed]
    | device key call =>
      obtain ⟨d, calls, device, pins, -, -, rfl⟩ := Driver.atDevice_eq_some hop
      exact hfreed
  exact along_congr driverOp hiff hstep rfl ops

instance (s : Driver) (name : Nat) (pin : Gen2PinConfig) : Decidable (OwnedBy s name pin) :=
  inferInstanceAs (Decidable (∃ d ∈ s.devices, _))

/-- A device goes while another one is configured, and line 62, which its trigger pin needs, is
freed. -/
theorem not_removes_undisturbed : ¬ ∀ ops : List DriverOp,
    Along driverOp RemovesUndisturbed moduleLoad ops := by
  intro hall
  let before : List DriverOp := [.probe (probeEnv 5) 1, .probe (probeEnv 6) 2,
    .device (.minor 5) (.configPins grantAll 3 2)]
  obtain ⟨s, rets, hrun, hheld, hother, hfreed⟩ : ∃ s rets,
      run driverOp moduleLoad before = some (s, rets) ∧ 62 ∈ heldLines s.calls ∧
      (∀ pin ∈ s.pins, pin.isPinConfigured ≠ 0 → ¬ OwnedBy s 2 pin) ∧
      62 ∉ heldLines (pdriverRemove 2 s).1.calls := ⟨_, _, rfl, by decide, by decide, by decide⟩
  have hremove := ((hall (before ++ [.remove 2])).of_append driverOp hrun).1
  exact hfreed (hremove.held 62 hheld fun pin hmem hset hown =>
    absurd hown (hother pin hmem hset))

end KernelDrivers.Platform
