import KernelDrivers.Lib.Words

/-!
# Structs in memory

A memory of bytes holds little-endian numbers. A struct puts each field at the next multiple of
its alignment, and its size is a multiple of the largest alignment. Numbers and structs are
copied byte by byte.
-/

namespace KernelDrivers.Lib

abbrev Memory := Nat → UInt8

/-- The number in `size` bytes. -/
def loadNat (mem : Memory) (addr size : Nat) : Nat :=
  ofBytes (List.ofFn fun i : Fin size => mem (addr + i))

def storeNat (mem : Memory) (addr size x : Nat) : Memory := fun a =>
  if addr ≤ a ∧ a < addr + size then UInt8.ofNat (x >>> (8 * (a - addr))) else mem a

/-- `size` bytes at `src` in another memory go to `dst`. -/
def copyBytes (mem : Memory) (dst : Nat) (mem' : Memory) (src size : Nat) : Memory := fun a =>
  if dst ≤ a ∧ a < dst + size then mem' (src + (a - dst)) else mem a

/-! ## Layout -/

structure Field where
  size : Nat
  align : Nat

def alignUp (n align : Nat) : Nat := n + (align - n % align) % align

/-- The offsets of the fields behind the first `n` bytes. -/
def offsetsFrom : Nat → List Field → List Nat
  | _, [] => []
  | n, field :: fields =>
    alignUp n field.align :: offsetsFrom (alignUp n field.align + field.size) fields

/-- The end of the last field. -/
def endFrom : Nat → List Field → Nat
  | n, [] => n
  | n, field :: fields => endFrom (alignUp n field.align + field.size) fields

def offsetOf (fields : List Field) (i : Nat) : Nat := (offsetsFrom 0 fields).getD i 0

def sizeOfStruct (fields : List Field) : Nat :=
  alignUp (endFrom 0 fields) (fields.foldr (fun field align => max field.align align) 1)

/-! ## Reading back -/

theorem loadNat_congr {mem mem' : Memory} {addr addr' size : Nat}
    (h : ∀ i < size, mem (addr + i) = mem' (addr' + i)) :
    loadNat mem addr size = loadNat mem' addr' size :=
  congrArg ofBytes (congrArg List.ofFn (funext fun i => h i i.isLt))

theorem loadNat_succ (mem : Memory) (addr size : Nat) :
    loadNat mem addr (size + 1) = (mem addr).toNat + 256 * loadNat mem (addr + 1) size := by
  have hnext : ∀ i : Fin size, mem (addr + (i.val + 1)) = mem (addr + 1 + i.val) := by
    intro i
    rw [Nat.add_comm i.val 1, Nat.add_assoc]
  simp only [loadNat, List.ofFn_succ, ofBytes_cons, Fin.val_zero, Fin.val_succ, Nat.add_zero, hnext]

/-- The first bytes of a number are its low part. -/
theorem loadNat_low (mem : Memory) (addr : Nat) {size size' : Nat} (h : size ≤ size') :
    loadNat mem addr size = loadNat mem addr size' % 256 ^ size := by
  induction size generalizing addr size' with
  | zero => simp [loadNat, Nat.mod_one]
  | succ size ih =>
    obtain ⟨size', rfl⟩ : ∃ n, size' = n + 1 := ⟨size' - 1, by omega⟩
    have hbyte : (mem addr).toNat < 256 := (mem addr).toNat_lt
    have hlow : ((mem addr).toNat + 256 * loadNat mem (addr + 1) size') % 256 =
        (mem addr).toNat := by omega
    have hhigh : ((mem addr).toNat + 256 * loadNat mem (addr + 1) size') / 256 =
        loadNat mem (addr + 1) size' := by omega
    rw [loadNat_succ, loadNat_succ, ih (addr + 1) (Nat.le_of_succ_le_succ h), Nat.pow_succ',
      Nat.mod_mul, hlow, hhigh]

theorem loadNat_lt (mem : Memory) (addr size : Nat) : loadNat mem addr size < 256 ^ size := by
  induction size generalizing addr with
  | zero => simp [loadNat]
  | succ size ih =>
    have hbyte : (mem addr).toNat < 256 := (mem addr).toNat_lt
    have hrest := ih (addr + 1)
    rw [loadNat_succ, Nat.pow_succ']
    omega

theorem loadNat_storeNat (mem : Memory) (addr size x : Nat) :
    loadNat (storeNat mem addr size x) addr size = x % 256 ^ size := by
  rw [← ofBytes_shifts]
  refine congrArg ofBytes (congrArg List.ofFn (funext fun i => ?_))
  have hin : addr ≤ addr + i.val ∧ addr + i.val < addr + size := by omega
  rw [storeNat, if_pos hin, Nat.add_sub_cancel_left]

theorem loadNat_storeNat_of_disjoint (mem : Memory) (addr size x : Nat) {addr' size' : Nat}
    (h : addr' + size' ≤ addr ∨ addr + size ≤ addr') :
    loadNat (storeNat mem addr size x) addr' size' = loadNat mem addr' size' :=
  loadNat_congr fun i hi => if_neg (by omega)

/-- A number inside the bytes copied. -/
theorem loadNat_copyBytes (mem : Memory) (dst : Nat) (mem' : Memory) (src : Nat)
    {first size len : Nat} (h : first + size ≤ len) :
    loadNat (copyBytes mem dst mem' src len) (dst + first) size = loadNat mem' (src + first) size :=
  loadNat_congr fun i hi => by
    have hin : dst ≤ dst + first + i ∧ dst + first + i < dst + len := by omega
    rw [copyBytes, if_pos hin, Nat.add_assoc, Nat.add_sub_cancel_left, Nat.add_assoc]

/-- A number that the copy reaches in part has its low bytes from the source. -/
theorem loadNat_copyBytes_part (mem mem' : Memory) (dst src n k size : Nat) :
    loadNat (copyBytes mem dst mem' src n) (dst + k) size =
      copyLow (n - k) (loadNat mem' (src + k) size) (loadNat mem (dst + k) size) := by
  induction size generalizing k with
  | zero => simp [loadNat, copyLow]
  | succ size ih =>
    have hbyte : ∀ (m : Memory) a, (m a).toNat < 256 := fun m a => (m a).toNat_lt
    rw [loadNat_succ, loadNat_succ mem', loadNat_succ mem, Nat.add_assoc, Nat.add_assoc, ih]
    by_cases hk : k < n
    · have hcopied : copyBytes mem dst mem' src n (dst + k) = mem' (src + k) := by
        rw [copyBytes, if_pos (by omega), Nat.add_sub_cancel_left]
      rw [hcopied, show n - k = n - (k + 1) + 1 by omega,
        copyLow_succ _ _ _ (hbyte _ _) (hbyte _ _)]
    · have hkept : copyBytes mem dst mem' src n (dst + k) = mem (dst + k) := by
        rw [copyBytes, if_neg (by omega)]
      rw [hkept, show n - k = 0 by omega, show n - (k + 1) = 0 by omega, copyLow_zero,
        copyLow_zero]

end KernelDrivers.Lib
