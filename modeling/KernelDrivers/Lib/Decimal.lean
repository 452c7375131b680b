import Mathlib.Data.Nat.Digits.Defs
import Mathlib.Data.List.TakeWhile

/-!
# Decimal texts

`%d` prints an integer with its sign and its decimal digits. Read back, `%d` skips white space,
takes a minus sign and takes digits as long as there are some. What follows is left alone, so a
printed number is read whole before any text that does not go on with a digit.
-/

namespace KernelDrivers.Lib

def printDecimal (x : Int) : List Char :=
  if x < 0 then '-' :: Nat.toDigits 10 x.natAbs else Nat.toDigits 10 x.natAbs

def isSpace (c : Char) : Bool := c = ' ' || (9 ≤ c.toNat && c.toNat ≤ 13) || c.toNat = 160

/-- The number of the digits at the beginning, if there are any. -/
def scanNat (text : List Char) : Option Nat :=
  match text.takeWhile Char.isDigit with
  | [] => none
  | digits => some (Nat.ofDigitChars 10 digits 0)

def scanSigned : List Char → Option Int
  | '-' :: text => (scanNat text).map fun n => -Int.ofNat n
  | text => (scanNat text).map Int.ofNat

def scanDecimal (text : List Char) : Option Int := scanSigned (text.dropWhile isSpace)

/-! ## Reading back -/

theorem isDigit_toDigits {n : Nat} {c : Char} (h : c ∈ Nat.toDigits 10 n) : c.isDigit = true :=
  Nat.isDigit_of_mem_toDigits (by decide) (by decide) h

theorem not_isSpace_of_isDigit {c : Char} (h : c.isDigit = true) : isSpace c = false := by
  have hbounds : 48 ≤ c.toNat ∧ c.toNat ≤ 57 := by
    simpa [Char.isDigit, UInt32.le_iff_toNat_le] using h
  have hblank : c ≠ ' ' := by
    rintro rfl
    exact absurd h (by decide)
  simp [isSpace, hblank]
  omega

/-- The text goes on with something that is no digit, or ends. -/
def Ends (rest : List Char) : Prop := ∀ c ∈ rest.head?, c.isDigit = false

theorem scanNat_toDigits (n : Nat) {rest : List Char} (h : Ends rest) :
    scanNat (Nat.toDigits 10 n ++ rest) = some n := by
  have hrest : rest.takeWhile Char.isDigit = [] := by
    cases rest with
    | nil => rfl
    | cons c rest => exact List.takeWhile_cons_of_neg (by simp [h c rfl])
  have hdigits : (Nat.toDigits 10 n ++ rest).takeWhile Char.isDigit = Nat.toDigits 10 n := by
    rw [List.takeWhile_append_of_pos fun c hc => isDigit_toDigits hc, hrest, List.append_nil]
  rw [scanNat, hdigits]
  cases htext : Nat.toDigits 10 n with
  | nil => exact absurd htext Nat.toDigits_ne_nil
  | cons c digits => simp only [← htext, Nat.ofDigitChars_ten_toDigits]

theorem scanSigned_toDigits (n : Nat) {rest : List Char} (h : Ends rest) :
    scanSigned (Nat.toDigits 10 n ++ rest) = some (n : Int) := by
  have hscan := scanNat_toDigits n h
  cases htext : Nat.toDigits 10 n with
  | nil => exact absurd htext Nat.toDigits_ne_nil
  | cons c digits =>
    have hdigit : c.isDigit = true := isDigit_toDigits (htext ▸ List.mem_cons_self)
    have hminus : c ≠ '-' := by
      rintro rfl
      exact absurd hdigit (by decide)
    rw [htext] at hscan
    rw [List.cons_append, scanSigned, ← List.cons_append, hscan]
    · rfl
    · simpa using hminus

/-- A printed number is read back. -/
theorem scanDecimal_print (x : Int) {rest : List Char} (h : Ends rest) :
    scanDecimal (printDecimal x ++ rest) = some x := by
  unfold printDecimal
  split
  next hneg =>
    have hskip : (('-' :: Nat.toDigits 10 x.natAbs) ++ rest).dropWhile isSpace =
        '-' :: (Nat.toDigits 10 x.natAbs ++ rest) := List.dropWhile_cons_of_neg (by decide)
    rw [scanDecimal, hskip, scanSigned, scanNat_toDigits x.natAbs h, Option.map_some]
    congr 1
    simp only [Int.ofNat_eq_natCast]
    omega
  next hneg =>
    have hskip : (Nat.toDigits 10 x.natAbs ++ rest).dropWhile isSpace =
        Nat.toDigits 10 x.natAbs ++ rest := by
      cases htext : Nat.toDigits 10 x.natAbs with
      | nil => exact absurd htext Nat.toDigits_ne_nil
      | cons c digits =>
        have hdigit : c.isDigit = true := isDigit_toDigits (htext ▸ List.mem_cons_self)
        exact List.dropWhile_cons_of_neg (by simp [not_isSpace_of_isDigit hdigit])
    rw [scanDecimal, hskip, scanSigned_toDigits x.natAbs h]
    congr 1
    omega

/-- A number below `10 ^ k` takes `k` digits and a sign at most. -/
theorem length_printDecimal_le {x : Int} {k : Nat} (hk : 0 < k) (h : x.natAbs < 10 ^ k) :
    (printDecimal x).length ≤ k + 1 := by
  have hdigits := (Nat.length_toDigits_le_iff (b := 10) (by decide) hk).mpr h
  unfold printDecimal
  split
  · rw [List.length_cons]
    omega
  · omega

end KernelDrivers.Lib
