import KernelDrivers.Hcsr04.Statements
import KernelDrivers.Lib.Memory

/-!
# The sample record of driver and test program

The driver and its test program each declare a `struct fifo_buffer`, with a `uint64_t` in one and
a `long` in the other. On the target of the `Makefile` a `long` has four bytes, so the record that
a read copies is four bytes longer than the one it is copied to, and the upper half of the time
comes behind it.
-/

namespace KernelDrivers.Hcsr04
open Lib

/-- What a target fixes of the two types. An `int` has four bytes, aligned to four. -/
structure Abi where
  longSize : Nat
  longAlign : Nat
  uint64Align : Nat

/-- The target of `i586-poky-linux-gcc`. -/
def i586 : Abi := ⟨4, 4, 4⟩

/-- A 64-bit target. -/
def x86_64 : Abi := ⟨8, 8, 8⟩

/-- `struct fifo_buffer` of `HCSR_Driver.c` -/
def Abi.kernelRecord (abi : Abi) : List Field := [⟨4, 4⟩, ⟨8, abi.uint64Align⟩]

/-- `struct fifo_buffer` of `Main.c` -/
def Abi.userRecord (abi : Abi) : List Field := [⟨4, 4⟩, ⟨abi.longSize, abi.longAlign⟩]

/-- The kernel's memory with a sample at `addr`. -/
def storeSample (abi : Abi) (kernel : Memory) (addr : Nat) (sample : FifoBuffer) : Memory :=
  storeNat (storeNat kernel (addr + offsetOf abi.kernelRecord 0) 4 sample.distance.toUInt32.toNat)
    (addr + offsetOf abi.kernelRecord 1) 8 sample.tsc.toNat

/-- `copy_to_user((struct fifo_buffer *)buf, buffer, sizeof(struct fifo_buffer))`, of a sample at
`addr` in the kernel's memory. The size is the kernel's. -/
def copySample (abi : Abi) (kernel : Memory) (addr : Nat) (sample : FifoBuffer) (user : Memory)
    (buf : Nat) : Memory :=
  copyBytes user buf (storeSample abi kernel addr sample) addr (sizeOfStruct abi.kernelRecord)

/-- The addresses the copy writes to. -/
def Copied (abi : Abi) (buf a : Nat) : Prop := buf ≤ a ∧ a < buf + sizeOfStruct abi.kernelRecord

/-- The field `distance` of the program's struct at `buf`. -/
def userDistance (abi : Abi) (user : Memory) (buf : Nat) : Int32 :=
  (UInt32.ofNat (loadNat user (buf + offsetOf abi.userRecord 0) 4)).toInt32

/-- The field `tsc`, as the unsigned number that `%lu` prints. -/
def userTsc (abi : Abi) (user : Memory) (buf : Nat) : Nat :=
  loadNat user (buf + offsetOf abi.userRecord 1) abi.longSize

/-- The driver's record at `addr`. -/
def sampleAt (abi : Abi) (mem : Memory) (addr : Nat) : FifoBuffer where
  distance := (UInt32.ofNat (loadNat mem (addr + offsetOf abi.kernelRecord 0) 4)).toInt32
  tsc := UInt64.ofNat (loadNat mem (addr + offsetOf abi.kernelRecord 1) 8)

theorem distance_storeSample (abi : Abi) (kernel : Memory) (addr : Nat) (sample : FifoBuffer)
    (hapart : offsetOf abi.kernelRecord 0 + 4 ≤ offsetOf abi.kernelRecord 1) :
    loadNat (storeSample abi kernel addr sample) (addr + offsetOf abi.kernelRecord 0) 4 =
      sample.distance.toUInt32.toNat := by
  have hlt : sample.distance.toUInt32.toNat < 256 ^ 4 := sample.distance.toUInt32.toNat_lt
  rw [storeSample, loadNat_storeNat_of_disjoint _ _ _ _ (by omega), loadNat_storeNat,
    Nat.mod_eq_of_lt hlt]

theorem tsc_storeSample (abi : Abi) (kernel : Memory) (addr : Nat) (sample : FifoBuffer) :
    loadNat (storeSample abi kernel addr sample) (addr + offsetOf abi.kernelRecord 1) 8 =
      sample.tsc.toNat := by
  have hlt : sample.tsc.toNat < 256 ^ 8 := sample.tsc.toNat_lt
  rw [storeSample, loadNat_storeNat, Nat.mod_eq_of_lt hlt]

/-- What a read's copy leaves in the user's buffer is what the bytes in memory make of it. -/
theorem sampleAt_copyBytes (kernel : Memory) (addr : Nat) (sample : FifoBuffer) (user : Memory)
    (buf copied : Nat) :
    sampleAt i586 (copyBytes user buf (storeSample i586 kernel addr sample) addr copied) buf =
      sample.copyTo copied (sampleAt i586 user buf) := by
  have hdistance := distance_storeSample i586 kernel addr sample (by decide)
  have htsc := tsc_storeSample i586 kernel addr sample
  have huser₁ : loadNat user (buf + offsetOf i586.kernelRecord 0) 4 < 2 ^ 32 := loadNat_lt user _ 4
  have huser₂ : loadNat user (buf + offsetOf i586.kernelRecord 1) 8 < 2 ^ 64 := loadNat_lt user _ 8
  simp only [sampleAt, FifoBuffer.copyTo, loadNat_copyBytes_part, hdistance, htsc,
    UInt32.toUInt32_toInt32, UInt32.toNat_ofNat_of_lt' huser₁, UInt64.toNat_ofNat_of_lt' huser₂]
  rfl

/-! ## The copy on a target -/

/-- After the copy of a sample the program's struct holds it, and nothing behind the struct was
written. -/
structure RecordAgrees (abi : Abi) (kernel : Memory) (addr : Nat) (sample : FifoBuffer)
    (user : Memory) (buf : Nat) : Prop where
  distance : userDistance abi (copySample abi kernel addr sample user buf) buf = sample.distance
  tsc : userTsc abi (copySample abi kernel addr sample user buf) buf = sample.tsc.toNat
  inside : ∀ a, Copied abi buf a → a < buf + sizeOfStruct abi.userRecord

section Copy

variable (kernel : Memory) (addr : Nat) (sample : FifoBuffer) (user : Memory) (buf : Nat)

/-- The program finds the distance where the offsets and sizes allow it. -/
theorem distance_copied {abi : Abi}
    (hoffset : offsetOf abi.userRecord 0 = offsetOf abi.kernelRecord 0)
    (hsize : offsetOf abi.kernelRecord 0 + 4 ≤ sizeOfStruct abi.kernelRecord)
    (hapart : offsetOf abi.kernelRecord 0 + 4 ≤ offsetOf abi.kernelRecord 1) :
    userDistance abi (copySample abi kernel addr sample user buf) buf = sample.distance := by
  rw [userDistance, hoffset, copySample, loadNat_copyBytes _ _ _ _ hsize,
    distance_storeSample abi kernel addr sample hapart, UInt32.ofNat_toNat, Int32.toInt32_toUInt32]

/-- It finds as many bytes of the time as a `long` has. -/
theorem tsc_copied {abi : Abi} (hoffset : offsetOf abi.userRecord 1 = offsetOf abi.kernelRecord 1)
    (hsize : offsetOf abi.kernelRecord 1 + 8 ≤ sizeOfStruct abi.kernelRecord)
    (hlong : abi.longSize ≤ 8) :
    userTsc abi (copySample abi kernel addr sample user buf) buf =
      sample.tsc.toNat % 256 ^ abi.longSize := by
  rw [userTsc, hoffset, copySample, loadNat_copyBytes _ _ _ _ (by omega), loadNat_low _ _ hlong,
    tsc_storeSample]

/-- With the `long` of a 64-bit target the two records agree. -/
theorem recordAgrees_x86_64 : RecordAgrees x86_64 kernel addr sample user buf where
  distance := distance_copied kernel addr sample user buf rfl (by decide) (by decide)
  tsc := by
    rw [tsc_copied kernel addr sample user buf rfl (by decide) (by decide)]
    exact Nat.mod_eq_of_lt sample.tsc.toNat_lt
  inside := fun _ ha => ha.2

/-- On the target the distance always arrives, the time arrives when it fits in 32 bits, and four
bytes behind the program's struct are always written. So no copy meets the whole. -/
theorem recordAgrees_never : ¬ RecordAgrees i586 kernel addr sample user buf ∧
    userDistance i586 (copySample i586 kernel addr sample user buf) buf = sample.distance ∧
    (userTsc i586 (copySample i586 kernel addr sample user buf) buf = sample.tsc.toNat ↔
      sample.tsc.toNat < 2 ^ 32) ∧
    ∀ a, Copied i586 buf a ∧ ¬ a < buf + sizeOfStruct i586.userRecord ↔
      buf + 8 ≤ a ∧ a < buf + 12 := by
  have hbehind : ∀ a, Copied i586 buf a ∧ ¬ a < buf + sizeOfStruct i586.userRecord ↔
      buf + 8 ≤ a ∧ a < buf + 12 := by
    intro a
    have hkernel : sizeOfStruct i586.kernelRecord = 12 := rfl
    have huser : sizeOfStruct i586.userRecord = 8 := rfl
    rw [Copied, hkernel, huser]
    omega
  refine ⟨fun h => ?_, ?_, ?_, hbehind⟩
  · obtain ⟨hcopied, hbeyond⟩ := (hbehind (buf + 8)).mpr ⟨by omega, by omega⟩
    exact hbeyond (h.inside _ hcopied)
  · exact distance_copied kernel addr sample user buf rfl (by decide) (by decide)
  · rw [tsc_copied kernel addr sample user buf rfl (by decide) (by decide)]
    change sample.tsc.toNat % 2 ^ 32 = sample.tsc.toNat ↔ _
    omega

end Copy

/-- A sample that was written to the buffer and is taken out again, at a time of 33 bits. The
program finds the time 5. -/
theorem not_recordAgrees_late_sample :
    ∃ device device', (fifoWrite (initializeDevice blankDevice) ⟨10, 0x100000005⟩).map Prod.fst =
        some device ∧
      fifoRead device = some (device', ⟨10, 0x100000005⟩) ∧
      ¬ RecordAgrees i586 (fun _ => 0) 64 ⟨10, 0x100000005⟩ (fun _ => 0) 128 := by
  refine ⟨_, _, rfl, rfl, fun h => ?_⟩
  have htsc := h.tsc
  exact absurd htsc (by decide)

end KernelDrivers.Hcsr04
