import KernelDrivers.Hcsr04.LineAccounting

/-!
# Loading the module

`hcsr04_init` registers one misc device after the other and returns at the first one that
`misc_register` refuses. It does not deregister those before it, and a module whose load fails
does not come to `hcsr04_exit`. So a failed load leaves nothing registered only when it fails at
the first device.
-/

namespace KernelDrivers.Hcsr04.ModuleLoad
open Lib

/-- `MISC_DYNAMIC_MINOR` -/
def MISC_DYNAMIC_MINOR : Int32 := 255

/-- The kernel during a load: for the device of each index, what `kmalloc` found in its memory,
what `misc_register` returns and the minor number it gives. -/
structure LoadEnv where
  kmalloc : Nat → Hcsr04Device
  miscRegister : Nat → Int32
  minor : Nat → Int32

/-- A device of `hcsr04_device_list`. The index of the iteration that allocated it stands for its
address. -/
structure LinkedDevice where
  index : Nat
  miscName : String
  device : Hcsr04Device

/-- The two lists, and newest first what was registered and deregistered and the calls about
lines. -/
structure Module where
  deviceList : List LinkedDevice
  pinList : List Gen2PinConfig
  registrations : List (Event Nat)
  calls : List KernelCall

/-- `INIT_LIST_HEAD` of both lists. -/
def emptyModule : Module := ⟨[], [], [], []⟩

section Load

variable (env : LoadEnv)

/-- `sprintf(device_name, "HCSR_%d", index)` -/
def deviceName (index : Nat) : String := "HCSR_" ++ toString index

/-- The body of the loop. The device is initialised and linked after it is registered. -/
def initIteration (index : Nat) (s : Module) : Module × Int32 :=
  let device := { env.kmalloc index with miscMinor := MISC_DYNAMIC_MINOR }
  let name := deviceName index
  let error := env.miscRegister index
  if error ≠ 0 then
    ({ s with registrations := .request index false :: s.registrations }, error)
  else
    let device := { device with miscMinor := env.minor index }
    ({ s with
        registrations := .request index true :: s.registrations
        deviceList := ⟨index, name, initializeDevice device⟩ :: s.deviceList }, 0)

/-- The loop from `index` on, for `n` more devices. -/
def initLoop : Nat → Nat → Module → Module × Int32
  | 0, _, s => (s, 0)
  | n + 1, index, s =>
    let (s, error) := initIteration env index s
    if error ≠ 0 then (s, error) else initLoop n (index + 1) s

def hcsr04Init (minorLeft : Int32 → Int32) (devices : Int32) : Module × Int32 :=
  let (s, error) := initLoop env devices.toInt.toNat 0 emptyModule
  if error ≠ 0 then (s, error)
  else ({ s with pinList := populateGen2PinsData minorLeft }, SUCCESS)

end Load

/-- `release_gpio_pins(NULL)`: whoever configured it, the lines of a record are freed, and the
record is given back to the allocator. The walk then reads its link. `keeps` tells of which records
the allocator leaves the link as it was; after the other ones the walk is lost. -/
def releaseAllGpioPins (keeps : Int32 → Bool) :
    List Gen2PinConfig → List KernelCall → Option (List KernelCall × List Gen2PinConfig)
  | [], calls => some (calls, [])
  | pin :: rest, calls =>
    if pin.isPinConfigured ≠ 0 then
      let (calls, pin) := releaseGpioPin pin calls
      if keeps pin.galileoPin then
        (releaseAllGpioPins keeps rest calls).map fun (calls, rest) => (calls, pin :: rest)
      else none
    else (releaseAllGpioPins keeps rest calls).map fun (calls, rest) => (calls, pin :: rest)

/-- Every device of the list is deregistered and unlinked. -/
def deregisterDevices (s : Module) : Module :=
  { s with
    registrations := releaseAll (s.deviceList.map LinkedDevice.index) s.registrations
    deviceList := [] }

/-- When the devices are gone the lines are freed. -/
def hcsr04Exit (keeps : Int32 → Bool) (s : Module) : Option Module :=
  let s := deregisterDevices s
  (releaseAllGpioPins keeps s.pinList s.calls).map fun (calls, pinList) =>
    { s with calls, pinList }

/-! ## The loop -/

section Loop

variable {env : LoadEnv}

/-- The device of an index once it is registered, initialised and linked. -/
def linkedDevice (env : LoadEnv) (index : Nat) : LinkedDevice :=
  ⟨index, deviceName index,
    initializeDevice { env.kmalloc index with miscMinor := env.minor index }⟩

/-- The devices of the first `k` indexes are registered and linked, the last one first. -/
structure Loaded (env : LoadEnv) (k : Nat) (s : Module) : Prop where
  deviceList : s.deviceList = ((List.range k).map (linkedDevice env)).reverse
  held : held s.registrations = Finset.range k

theorem loaded_empty : Loaded env 0 emptyModule where
  deviceList := rfl
  held := rfl

theorem initIteration_registered {k : Nat} {s : Module} (h : Loaded env k s)
    (hk : env.miscRegister k = 0) :
    ∃ s', initIteration env k s = (s', 0) ∧ Loaded env (k + 1) s' := by
  refine ⟨_, if_neg (not_not.mpr hk), ?_, ?_⟩
  · rw [List.range_succ, List.map_append, List.reverse_append, h.deviceList]
    rfl
  · rw [held_granted, h.held, Finset.range_add_one]

theorem initIteration_refused {k : Nat} {s : Module} (h : Loaded env k s)
    (hk : env.miscRegister k ≠ 0) :
    ∃ s', initIteration env k s = (s', env.miscRegister k) ∧ Loaded env k s' :=
  ⟨_, if_pos hk, h.deviceList, h.held⟩

/-- The loop ends at the first refusal, or with all devices. -/
inductive LoopEnd (env : LoadEnv) (index n : Nat) : Module × Int32 → Prop
  | loaded {s : Module} (hloaded : Loaded env (index + n) s)
      (hall : ∀ j, index ≤ j → j < index + n → env.miscRegister j = 0) : LoopEnd env index n (s, 0)
  | refused {s : Module} {k : Nat} (hloaded : Loaded env k s) (hle : index ≤ k)
      (hlt : k < index + n) (hbefore : ∀ j, index ≤ j → j < k → env.miscRegister j = 0)
      (hk : env.miscRegister k ≠ 0) : LoopEnd env index n (s, env.miscRegister k)

theorem initLoop_end {n index : Nat} {s : Module} (h : Loaded env index s) :
    LoopEnd env index n (initLoop env n index s) := by
  induction n generalizing index s with
  | zero => exact .loaded h fun j hle hlt => absurd hlt (not_lt.mpr hle)
  | succ n ih =>
    by_cases hindex : env.miscRegister index = 0
    · obtain ⟨s', hs', h'⟩ := initIteration_registered h hindex
      have hloop : initLoop env (n + 1) index s = initLoop env n (index + 1) s' := by
        simp [initLoop, hs']
      rw [hloop]
      have hfirst : ∀ j, index ≤ j → (index + 1 ≤ j → env.miscRegister j = 0) →
          env.miscRegister j = 0 := by
        intro j hle hrest
        rcases Nat.eq_or_lt_of_le hle with rfl | hlt
        · exact hindex
        · exact hrest hlt
      have hn : index + 1 + n = index + (n + 1) := by omega
      have hrest := ih h'
      generalize initLoop env n (index + 1) s' = out at hrest ⊢
      cases hrest with
      | loaded hloaded hall =>
        rw [hn] at hloaded
        exact .loaded hloaded fun j hle hlt => hfirst j hle fun hle' => hall j hle' (by omega)
      | refused hloaded hle hlt hbefore hk =>
        exact .refused hloaded (by omega) (by omega)
          (fun j hle' hlt' => hfirst j hle' fun hle'' => hbefore j hle'' hlt') hk
    · obtain ⟨s', hs', h'⟩ := initIteration_refused h hindex
      have hloop : initLoop env (n + 1) index s = (s', env.miscRegister index) := by
        simp [initLoop, hs', hindex]
      rw [hloop]
      exact .refused h' (Nat.le_refl _) (by omega) (fun j hle hlt => absurd hlt (not_lt.mpr hle))
        hindex

end Loop

/-! ## What a load leaves -/

section Results

variable {env : LoadEnv} {minorLeft : Int32 → Int32} {devices : Int32}

/-- A load returns the error of the first refusal, or `SUCCESS` with a device for each index. -/
theorem hcsr04Init_cases (env : LoadEnv) (minorLeft : Int32 → Int32) (devices : Int32) :
    (∃ s, hcsr04Init env minorLeft devices = (s, SUCCESS) ∧
        Loaded env devices.toInt.toNat s ∧ s.pinList = populateGen2PinsData minorLeft ∧
        ∀ j < devices.toInt.toNat, env.miscRegister j = 0) ∨
      ∃ s k, hcsr04Init env minorLeft devices = (s, env.miscRegister k) ∧ Loaded env k s ∧
        k < devices.toInt.toNat ∧ env.miscRegister k ≠ 0 ∧
        ∀ j < k, env.miscRegister j = 0 := by
  have hend := @initLoop_end env devices.toInt.toNat 0 emptyModule loaded_empty
  unfold hcsr04Init
  generalize initLoop env devices.toInt.toNat 0 emptyModule = out at hend
  cases hend with
  | @loaded s hloaded hall =>
    rw [Nat.zero_add] at hloaded
    left
    refine ⟨_, rfl, ⟨hloaded.deviceList, hloaded.held⟩, rfl, fun j hj => ?_⟩
    exact hall j (Nat.zero_le j) (by omega)
  | @refused s k hloaded hle hlt hbefore hk =>
    right
    refine ⟨s, k, if_pos hk, hloaded, by omega, hk, fun j hj => hbefore j (Nat.zero_le j) hj⟩

/-- The devices registered are linked, one for each index, named after it and initialised. -/
structure LinkedOnePerIndex (env : LoadEnv) (n : Nat) (s : Module) : Prop where
  indexes : s.deviceList.map LinkedDevice.index = (List.range n).reverse
  registered : held s.registrations = (s.deviceList.map LinkedDevice.index).toFinset
  initialised : ∀ d ∈ s.deviceList, d.miscName = deviceName d.index ∧
    d.device = initializeDevice { env.kmalloc d.index with miscMinor := env.minor d.index }

theorem Loaded.linkedOnePerIndex {n : Nat} {s : Module} (h : Loaded env n s) :
    LinkedOnePerIndex env n s := by
  have hindexes : s.deviceList.map LinkedDevice.index = (List.range n).reverse := by
    rw [h.deviceList, List.map_reverse, List.map_map]
    exact congrArg List.reverse (List.map_id _)
  refine ⟨hindexes, ?_, ?_⟩
  · rw [hindexes, h.held]
    ext j
    simp
  · rw [h.deviceList]
    grind [linkedDevice]

/-- A failed load leaves no device registered, and a successful one leaves exactly those that are
linked. -/
structure CleanLoad (env : LoadEnv) (minorLeft : Int32 → Int32) (devices : Int32) : Prop where
  failed : (hcsr04Init env minorLeft devices).2 ≠ SUCCESS →
    held (hcsr04Init env minorLeft devices).1.registrations = ∅
  loaded : (hcsr04Init env minorLeft devices).2 = SUCCESS →
    LinkedOnePerIndex env devices.toInt.toNat (hcsr04Init env minorLeft devices).1

/-- A load is clean exactly when every device is registered or the first one is refused. -/
theorem cleanLoad_iff (env : LoadEnv) (minorLeft : Int32 → Int32) (devices : Int32) :
    CleanLoad env minorLeft devices ↔
      (∀ j < devices.toInt.toNat, env.miscRegister j = 0) ∨ env.miscRegister 0 ≠ 0 := by
  rcases hcsr04Init_cases env minorLeft devices with
    ⟨s, hinit, hloaded, -, hall⟩ | ⟨s, k, hinit, hloaded, hlt, hk, hbefore⟩
  · refine iff_of_true ⟨fun hne => ?_, fun _ => ?_⟩ (.inl hall)
    · exact absurd (congrArg Prod.snd hinit) hne
    · rw [hinit]
      exact hloaded.linkedOnePerIndex
  · have hret : (hcsr04Init env minorLeft devices).2 ≠ SUCCESS := by
      rw [hinit]
      exact hk
    constructor
    · intro h
      have hheld := h.failed hret
      rw [hinit, hloaded.held, Finset.range_eq_empty_iff] at hheld
      exact .inr (hheld ▸ hk)
    · rintro (hall | hzero)
      · exact absurd (hall k hlt) hk
      · obtain rfl : k = 0 := by
          by_contra hne
          exact hzero (hbefore 0 (Nat.pos_of_ne_zero hne))
        refine ⟨fun _ => ?_, fun hsuccess => absurd hsuccess hret⟩
        rw [hinit, hloaded.held]
        rfl

/-- The second of two devices is refused, and the first one stays registered. -/
theorem not_cleanLoad_second_refused :
    ¬ CleanLoad ⟨fun _ => blankDevice, fun index => if index = 1 then -16 else 0,
      fun index => Int32.ofNat (60 + index)⟩ (fun _ => 0) 2 := by
  intro h
  have hheld := h.failed (by decide)
  exact absurd hheld (by decide)

/-! ## The driver after a load -/

theorem loaded_of_success {s : Module} (hinit : hcsr04Init env minorLeft devices = (s, SUCCESS)) :
    Loaded env devices.toInt.toNat s ∧ s.pinList = populateGen2PinsData minorLeft := by
  rcases hcsr04Init_cases env minorLeft devices with
    ⟨s', hinit', hloaded, hpins, -⟩ | ⟨s', k, hinit', -, -, hk, -⟩
  · obtain ⟨rfl, -⟩ := Prod.mk.inj (hinit.symm.trans hinit')
    exact ⟨hloaded, hpins⟩
  · obtain ⟨-, hret⟩ := Prod.mk.inj (hinit.symm.trans hinit')
    exact absurd hret.symm hk

/-- After a successful load whose devices have minor numbers of their own, the driver finds by its
minor number each device that is linked. -/
theorem device_of_linked {s : Module} (hinit : hcsr04Init env minorLeft devices = (s, SUCCESS))
    (hminor : ∀ i < devices.toInt.toNat, ∀ j < devices.toInt.toNat,
      env.minor i = env.minor j → i = j) :
    ∃ blank, (Hcsr04.hcsr04Init blank minorLeft).pins = s.pinList ∧
      ∀ d ∈ s.deviceList,
        (Hcsr04.hcsr04Init blank minorLeft).device d.device.miscMinor = d.device := by
  obtain ⟨hloaded, hpins⟩ := loaded_of_success hinit
  let indexes := List.range devices.toInt.toNat
  let blank (minor : Int32) : Hcsr04Device :=
    ((indexes.find? fun i => env.minor i = minor).map env.kmalloc).getD blankDevice
  refine ⟨blank, hpins.symm, fun d hd => ?_⟩
  rw [hloaded.deviceList, List.mem_reverse] at hd
  obtain ⟨i, hi, rfl⟩ := List.mem_map.mp hd
  have hfind : indexes.find? (fun j => env.minor j = env.minor i) = some i := by
    cases hfound : indexes.find? fun j => env.minor j = env.minor i with
    | none => exact absurd (List.find?_eq_none.mp hfound i hi) (by simp)
    | some j =>
      have hsame : env.minor j = env.minor i := by simpa using List.find?_some hfound
      have hj : j < devices.toInt.toNat := List.mem_range.mp (List.mem_of_find?_eq_some hfound)
      exact congrArg some (hminor j hj i (List.mem_range.mp hi) hsame)
  have hblank : blank (env.minor i) = env.kmalloc i := by
    simp only [blank, hfind, Option.map_some, Option.getD_some]
  change initializeDevice { blank (env.minor i) with miscMinor := env.minor i } = _
  rw [hblank]
  rfl

end Results

end KernelDrivers.Hcsr04.ModuleLoad
