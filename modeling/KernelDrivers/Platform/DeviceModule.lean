import KernelDrivers.Lib.Setup

/-!
# The module of the platform devices

`pdevice_init` allocates a record, a name and a platform device for each index, adds the device
and links all records, also those of devices that it has put back because they could not be added.
`pdevice_exit` deletes the device of every record of the list, puts none and frees no record. So it
deletes a device that is gone exactly when the kernel had refused to add one, and it leaves every
record with its name and the memory of every device it had added.
-/

namespace KernelDrivers.Platform
open Lib

/-- The `struct Device_HCSR` and the name of an index, the memory of its platform device, and the
registration of that. -/
inductive PlatformResource where
  | record (index : Nat)
  | name (index : Nat)
  | device (index : Nat)
  | registration (index : Nat)
  deriving DecidableEq

/-- Whether `platform_device_alloc` finds memory for an index, and what `platform_device_add`
answers. The results of the two `kmalloc` are not tested, and both succeed. -/
structure DeviceEnv where
  platformDeviceAlloc : Nat → Bool
  platformDeviceAdd : Nat → Int32

/-- `struct Device_HCSR`. The index of the device stands for its address. -/
structure DeviceHCSR where
  name : String
  deviceNo : Int32
  plDevice : Option Nat

/-- `HCSR_devicelist`, and the requests and releases, newest first. -/
structure DeviceModule where
  deviceList : List DeviceHCSR
  log : List (Event PlatformResource)

/-- `sprintf(device_name, "HCSR_%d", index)` -/
def pdeviceName (index : Nat) : String := "HCSR_" ++ toString index

/-- `kmalloc(sizeof(char)*10, GFP_KERNEL)` -/
def NAME_SIZE : Nat := 10

def platformDevicePut (plDevice : Option Nat) (log : List (Event PlatformResource)) :
    List (Event PlatformResource) :=
  match plDevice with
  | none => log
  | some index => .release (.device index) :: log

def platformDeviceDel (plDevice : Option Nat) (log : List (Event PlatformResource)) :
    List (Event PlatformResource) :=
  match plDevice with
  | none => log
  | some index => .release (.registration index) :: log

def ENOMEM : Int32 := 12

section Load

variable (env : DeviceEnv)

/-- The body of the loop. -/
def pdeviceIteration (index : Nat) (s : DeviceModule) : DeviceModule :=
  let plDevice := if env.platformDeviceAlloc index then some index else none
  let log := .request (.name index) true :: .request (.record index) true :: s.log
  let log := .request (.device index) (env.platformDeviceAlloc index) :: log
  let (log, err) : List (Event PlatformResource) × Int32 :=
    match plDevice with
    | some index =>
      (.request (.registration index) (env.platformDeviceAdd index = 0) :: log,
        env.platformDeviceAdd index)
    | none => (log, -ENOMEM)
  let log := if err ≠ 0 then platformDevicePut plDevice log else log
  ⟨⟨pdeviceName index, Int32.ofNat index, plDevice⟩ :: s.deviceList, log⟩

def pdeviceInit (devices : Int32) : DeviceModule :=
  (List.range devices.toInt.toNat).foldl (fun s index => pdeviceIteration env index s) ⟨[], []⟩

end Load

def pdeviceExit (s : DeviceModule) : List (Event PlatformResource) :=
  s.deviceList.foldl (fun log device => platformDeviceDel device.plDevice log) s.log

/-! ## The loop -/

section Loop

variable {env : DeviceEnv}

def DeviceEnv.Adds (env : DeviceEnv) (index : Nat) : Prop :=
  env.platformDeviceAlloc index = true ∧ env.platformDeviceAdd index = 0

/-- The device of an index, once it is linked. -/
def linkedHCSR (env : DeviceEnv) (index : Nat) : DeviceHCSR :=
  ⟨pdeviceName index, Int32.ofNat index,
    if env.platformDeviceAlloc index then some index else none⟩

/-- The devices of the first `k` indexes are linked, the last one first, and the module holds
their records and names and the devices that were added. -/
structure DevicesLinked (env : DeviceEnv) (k : Nat) (s : DeviceModule) : Prop where
  deviceList : s.deviceList = ((List.range k).map (linkedHCSR env)).reverse
  held : ∀ r, r ∈ held s.log ↔ ∃ i < k, r = .record i ∨ r = .name i ∨
    env.Adds i ∧ (r = .device i ∨ r = .registration i)
  legal : Legal s.log

/-- The module holds nothing yet for an index that the loop did not come to. -/
theorem devicesLinked_notMem {k : Nat} {s : DeviceModule} (h : DevicesLinked env k s) :
    PlatformResource.record k ∉ held s.log ∧ PlatformResource.name k ∉ held s.log ∧
      PlatformResource.device k ∉ held s.log ∧ PlatformResource.registration k ∉ held s.log := by
  simp only [h.held]
  grind

theorem devicesLinked_step {k : Nat} {s : DeviceModule} (h : DevicesLinked env k s) :
    DevicesLinked env (k + 1) (pdeviceIteration env k s) := by
  have hlist : (pdeviceIteration env k s).deviceList =
      ((List.range (k + 1)).map (linkedHCSR env)).reverse := by
    rw [List.range_succ, List.map_append, List.reverse_append, ← h.deviceList]
    rfl
  obtain ⟨hrecord, hname, hdevice, hregistration⟩ := devicesLinked_notMem h
  -- the two allocations that the index begins with
  let log : List (Event PlatformResource) :=
    .request (.name k) true :: .request (.record k) true :: s.log
  have hlegal : Legal log := ⟨by simp [hname], hrecord, h.legal⟩
  by_cases halloc : env.platformDeviceAlloc k = true
  · by_cases hadd : env.platformDeviceAdd k = 0
    · have hlog : (pdeviceIteration env k s).log =
          .request (.registration k) true :: .request (.device k) true :: log := by
        simp [pdeviceIteration, halloc, hadd, log]
      refine ⟨hlist, fun r => ?_, hlog ▸ ⟨?_, ?_, hlegal⟩⟩
      · rw [hlog, Nat.exists_lt_succ_right, ← h.held]
        simp [DeviceEnv.Adds, halloc, hadd, log]
        tauto
      · simp [hregistration, log]
      · simp [hdevice, log]
    · -- the device is put back
      have hlog : (pdeviceIteration env k s).log = .release (.device k) ::
          .request (.registration k) false :: .request (.device k) true :: log := by
        simp [pdeviceIteration, halloc, hadd, platformDevicePut, log]
      refine ⟨hlist, fun r => ?_, hlog ▸ ⟨?_, ?_, ?_, hlegal⟩⟩
      · rw [hlog, Nat.exists_lt_succ_right, ← h.held]
        simp [DeviceEnv.Adds, hadd, hdevice, log]
        tauto
      · simp
      · simp [hregistration, log]
      · simp [hdevice, log]
  · have hlog : (pdeviceIteration env k s).log = .request (.device k) false :: log := by
      simp [pdeviceIteration, halloc, platformDevicePut, log]
    refine ⟨hlist, fun r => ?_, hlog ▸ ⟨by simp [hdevice, log], hlegal⟩⟩
    rw [hlog, Nat.exists_lt_succ_right, ← h.held]
    simp [DeviceEnv.Adds, halloc, log]
    tauto

theorem devicesLinked_init (env : DeviceEnv) (devices : Int32) :
    DevicesLinked env devices.toInt.toNat (pdeviceInit env devices) := by
  unfold pdeviceInit
  induction devices.toInt.toNat with
  | zero =>
    refine ⟨rfl, fun r => ?_, trivial⟩
    simp [held]
  | succ n ih =>
    rw [List.range_succ, List.foldl_append]
    exact devicesLinked_step ih

/-! ## The exit -/

/-- The exit deletes the registration of every device that has an address. -/
theorem pdeviceExit_eq (s : DeviceModule) :
    pdeviceExit s = releaseAll
      ((s.deviceList.filterMap DeviceHCSR.plDevice).map .registration) s.log := by
  unfold pdeviceExit
  generalize s.log = log
  induction s.deviceList generalizing log with
  | nil => rfl
  | cons device rest ih =>
    rw [List.foldl_cons, ih]
    cases haddress : device.plDevice with
    | none => simp [haddress, platformDeviceDel]
    | some index => simp [haddress, platformDeviceDel, releaseAll]

theorem addresses_eq {k : Nat} {s : DeviceModule} (h : DevicesLinked env k s) :
    s.deviceList.filterMap DeviceHCSR.plDevice =
      ((List.range k).filter env.platformDeviceAlloc).reverse := by
  have haddress : DeviceHCSR.plDevice ∘ linkedHCSR env =
      Option.guard env.platformDeviceAlloc := by
    funext index
    simp [linkedHCSR, Option.guard]
  rw [h.deviceList, List.filterMap_reverse, List.filterMap_map, haddress,
    List.filterMap_eq_filter]

theorem length_pdeviceName_iff {index : Nat} :
    (pdeviceName index).length < NAME_SIZE ↔ index < 10000 := by
  have hdigits := @Nat.length_repr_le_iff index 4 (by decide)
  have hlength : (pdeviceName index).length = 5 + index.repr.length := by
    rw [pdeviceName, String.length_append]
    rfl
  rw [hlength, NAME_SIZE]
  omega

/-- A load and an unload of the module, whatever the kernel answers about the devices: the record
and the name of every index stay, each device that was added is deleted and its memory stays, a
device that was put back is deleted too, and the names fit into their buffers for up to 10000
devices. -/
theorem pdevice_life (env : DeviceEnv) (devices : Int32) :
    let s := pdeviceInit env devices
    (∀ r, r ∈ held (pdeviceExit s) ↔
        ∃ i < devices.toInt.toNat, r = .record i ∨ r = .name i ∨ env.Adds i ∧ r = .device i) ∧
      (Legal (pdeviceExit s) ↔ ∀ i < devices.toInt.toNat,
        env.platformDeviceAlloc i = true → env.platformDeviceAdd i = 0) ∧
      ((∀ device ∈ s.deviceList, device.name.length < NAME_SIZE) ↔ devices.toInt ≤ 10000) := by
  have h := devicesLinked_init env devices
  generalize pdeviceInit env devices = s at h
  have hreleased : ∀ r, r ∈ (s.deviceList.filterMap DeviceHCSR.plDevice).map
      PlatformResource.registration ↔ ∃ i < devices.toInt.toNat,
        env.platformDeviceAlloc i = true ∧ r = .registration i := by
    intro r
    rw [addresses_eq h, List.mem_map]
    constructor
    · rintro ⟨i, hi, rfl⟩
      obtain ⟨hlt, halloc⟩ := List.mem_filter.mp (List.mem_reverse.mp hi)
      exact ⟨i, List.mem_range.mp hlt, halloc, rfl⟩
    · rintro ⟨i, hlt, halloc, rfl⟩
      exact ⟨i, List.mem_reverse.mpr (List.mem_filter.mpr ⟨List.mem_range.mpr hlt, halloc⟩), rfl⟩
  have hnodup : ((s.deviceList.filterMap DeviceHCSR.plDevice).map
      PlatformResource.registration).Nodup := by
    rw [addresses_eq h]
    exact (List.nodup_reverse.mpr (List.nodup_range.filter _)).map
      fun _ _ => PlatformResource.registration.inj
  refine ⟨fun r => ?_, ?_, ?_⟩
  · rw [pdeviceExit_eq, held_releaseAll, Finset.mem_sdiff, List.mem_toFinset, hreleased, h.held]
    constructor
    · rintro ⟨⟨i, hi, rfl | rfl | ⟨hadds, rfl | rfl⟩⟩, hnot⟩
      · exact ⟨i, hi, .inl rfl⟩
      · exact ⟨i, hi, .inr (.inl rfl)⟩
      · exact ⟨i, hi, .inr (.inr ⟨hadds, rfl⟩)⟩
      · exact absurd ⟨i, hi, hadds.1, rfl⟩ hnot
    · rintro ⟨i, hi, rfl | rfl | ⟨hadds, rfl⟩⟩
      · exact ⟨⟨i, hi, .inl rfl⟩, by simp⟩
      · exact ⟨⟨i, hi, .inr (.inl rfl)⟩, by simp⟩
      · exact ⟨⟨i, hi, .inr (.inr ⟨hadds, .inl rfl⟩)⟩, by simp⟩
  · rw [pdeviceExit_eq, legal_releaseAll_iff]
    simp only [hnodup, h.legal, hreleased, h.held, true_and, and_true]
    constructor
    · intro hdeleted i hi halloc
      obtain ⟨j, -, heq | heq | ⟨hadds, heq | heq⟩⟩ := hdeleted _ ⟨i, hi, halloc, rfl⟩
      · cases heq
      · cases heq
      · cases heq
      · obtain rfl := PlatformResource.registration.inj heq
        exact hadds.2
    · rintro hall r ⟨i, hi, halloc, rfl⟩
      exact ⟨i, hi, .inr (.inr ⟨⟨halloc, hall i hi halloc⟩, .inr rfl⟩)⟩
  · have hnames : (∀ device ∈ s.deviceList, device.name.length < NAME_SIZE) ↔
        ∀ i < devices.toInt.toNat, i < 10000 := by
      simp [h.deviceList, linkedHCSR, length_pdeviceName_iff]
    rw [hnames]
    constructor
    · intro hall
      by_contra hlt
      exact absurd (hall 10000 (by omega)) (lt_irrefl _)
    · intro hle i hi
      omega

end Loop

end KernelDrivers.Platform
