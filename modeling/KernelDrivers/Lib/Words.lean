import Mathlib.Data.Nat.Digits.Defs
import Mathlib.Data.List.Basic
import Mathlib.Data.List.OfFn

/-!
# Words of bytes

A little-endian machine reads bytes as a number with the first byte the least significant one,
and a shift register puts a number on a line with its most significant bit first. So words of
several bytes leave their bytes on the line in the opposite order.
-/

namespace KernelDrivers.Lib

variable {α : Type*}

/-! ## Little-endian numbers -/

/-- The number in little-endian bytes. -/
def ofBytes (bytes : List UInt8) : Nat := Nat.ofDigits 256 (bytes.map UInt8.toNat)

@[simp] theorem ofBytes_nil : ofBytes [] = 0 := rfl

@[simp] theorem ofBytes_cons (b : UInt8) (bytes : List UInt8) :
    ofBytes (b :: bytes) = b.toNat + 256 * ofBytes bytes := by
  simp [ofBytes, Nat.ofDigits_cons]

/-- The bytes of a number give the number back, as far as they go. -/
theorem ofBytes_shifts (x n : Nat) :
    ofBytes (List.ofFn fun i : Fin n => UInt8.ofNat (x >>> (8 * i.val))) = x % 256 ^ n := by
  induction n generalizing x with
  | zero => simp [Nat.mod_one]
  | succ n ih =>
    have hnext : ∀ i : Fin n, x >>> (8 * (i.val + 1)) = (x / 256) >>> (8 * i.val) := by
      intro i
      rw [Nat.mul_add_one, Nat.add_comm, Nat.shiftRight_add, Nat.shiftRight_eq_div_pow x 8]
    have hbyte : (UInt8.ofNat (x >>> (8 * 0))).toNat = x % 256 := by simp
    rw [List.ofFn_succ, ofBytes_cons]
    simp only [Fin.val_zero, Fin.val_succ, hnext, hbyte, ih]
    rw [pow_succ', Nat.mod_mul]

/-- The number with the `n` lowest bytes of `src` and the other bytes of `dst`. -/
def copyLow (n src dst : Nat) : Nat := src % 256 ^ n + (dst - dst % 256 ^ n)

@[simp] theorem copyLow_zero (src dst : Nat) : copyLow 0 src dst = dst := by
  simp [copyLow, Nat.mod_one]

/-- The lowest byte is copied first. -/
theorem copyLow_succ (n x y : Nat) {a b : Nat} (ha : a < 256) (hb : b < 256) :
    copyLow (n + 1) (a + 256 * x) (b + 256 * y) = a + 256 * copyLow n x y := by
  have hdigit : ∀ {d : Nat} (z : Nat), d < 256 →
      (d + 256 * z) % 256 ^ (n + 1) = d + 256 * (z % 256 ^ n) := by
    intro d z hd
    have hlow : (d + 256 * z) % 256 = d := by omega
    have hhigh : (d + 256 * z) / 256 = z := by omega
    rw [Nat.pow_succ', Nat.mod_mul, hlow, hhigh]
  have hle := Nat.mod_le y (256 ^ n)
  rw [copyLow, copyLow, hdigit x ha, hdigit y hb]
  omega

/-- Numbers of no more than `n` bytes are copied whole. -/
theorem copyLow_eq {n k src dst : Nat} (hk : k ≤ n) (hsrc : src < 256 ^ k)
    (hdst : dst < 256 ^ k) : copyLow n src dst = src := by
  have hle : 256 ^ k ≤ 256 ^ n := Nat.pow_le_pow_right (by decide) hk
  rw [copyLow, Nat.mod_eq_of_lt (hsrc.trans_le hle), Nat.mod_eq_of_lt (hdst.trans_le hle),
    Nat.sub_self, Nat.add_zero]

/-! ## Shift registers -/

/-- The low `n` bits of a number, the most significant first. -/
def shiftOut : Nat → Nat → List Bool
  | 0, _ => []
  | n + 1, x => x.testBit n :: shiftOut n x

@[simp] theorem length_shiftOut (n x : Nat) : (shiftOut n x).length = n := by
  induction n with
  | zero => rfl
  | succ n ih => simp [shiftOut, ih]

theorem shiftOut_congr {n x y : Nat} (h : ∀ j < n, x.testBit j = y.testBit j) :
    shiftOut n x = shiftOut n y := by
  induction n with
  | zero => rfl
  | succ n ih =>
    rw [shiftOut, shiftOut, h n (by omega), ih fun j hj => h j (by omega)]

theorem testBit_of_shiftOut {n x y : Nat} (h : shiftOut n x = shiftOut n y) :
    ∀ j < n, x.testBit j = y.testBit j := by
  induction n with
  | zero => exact fun j hj => absurd hj (Nat.not_lt_zero j)
  | succ n ih =>
    obtain ⟨htop, hrest⟩ := List.cons.inj h
    intro j hj
    rcases Nat.lt_succ_iff_lt_or_eq.mp hj with hj | rfl
    · exact ih hrest j hj
    · exact htop

/-- The high bits come before the low ones. -/
theorem shiftOut_add (m k x : Nat) :
    shiftOut (m + k) x = shiftOut m (x / 2 ^ k) ++ shiftOut k x := by
  induction m with
  | zero => simp [shiftOut]
  | succ m ih =>
    rw [Nat.add_right_comm, shiftOut, shiftOut, ih, Nat.testBit_div_two_pow, List.cons_append]

def byteBits (b : UInt8) : List Bool := shiftOut 8 b.toNat

theorem length_byteBits (b : UInt8) : (byteBits b).length = 8 := length_shiftOut 8 b.toNat

theorem byteBits_injective : Function.Injective byteBits := by
  intro b b' h
  refine UInt8.toNat_inj.mp (Nat.eq_of_testBit_eq fun j => ?_)
  rcases Nat.lt_or_ge j 8 with hj | hj
  · exact testBit_of_shiftOut h j hj
  · have hbound : ∀ c : UInt8, c.toNat.testBit j = false := fun c =>
      Nat.testBit_lt_two_pow (Nat.lt_of_lt_of_le c.toNat_lt (Nat.pow_le_pow_right (by omega) hj))
    rw [hbound b, hbound b']

/-- The bytes of a word come out last byte first. -/
theorem shiftOut_ofBytes (bytes : List UInt8) :
    shiftOut (8 * bytes.length) (ofBytes bytes) = bytes.reverse.flatMap byteBits := by
  induction bytes with
  | nil => rfl
  | cons b bytes ih =>
    have hlt : b.toNat < 2 ^ 8 := b.toNat_lt
    have hhigh : ofBytes (b :: bytes) / 2 ^ 8 = ofBytes bytes := by
      rw [ofBytes_cons]
      omega
    have hlow : shiftOut 8 (ofBytes (b :: bytes)) = byteBits b := by
      refine shiftOut_congr fun j hj => ?_
      have hmod : ofBytes (b :: bytes) % 2 ^ 8 = b.toNat := by
        rw [ofBytes_cons]
        omega
      rw [← hmod, Nat.testBit_mod_two_pow]
      simp [hj]
    rw [List.length_cons, Nat.mul_add_one, shiftOut_add, hhigh, hlow, ih, List.reverse_cons,
      List.flatMap_append]
    simp

/-! ## Bits the other way round -/

/-- The low `width` bits of a number in the opposite order. -/
def reverseBits (width x : Nat) : Nat :=
  Nat.ofBits fun j : Fin width => x.testBit (width - 1 - j)

theorem reverseBits_eq_self_iff {width x : Nat} (hx : x < 2 ^ width) :
    reverseBits width x = x ↔ ∀ j < width, x.testBit j = x.testBit (width - 1 - j) := by
  constructor
  · intro h j hj
    conv_lhs => rw [← h]
    exact Nat.testBit_ofBits_lt _ j hj
  · intro h
    have hbits : (fun j : Fin width => x.testBit (width - 1 - j)) =
        fun j : Fin width => x.testBit j := funext fun j => (h j j.isLt).symm
    rw [reverseBits, hbits, Nat.ofBits_testBit, Nat.mod_eq_of_lt hx]

/-- The last `n` digits of a number in the opposite order. -/
def reverseDigits (base : Nat) : Nat → Nat → Nat
  | 0, _ => 0
  | n + 1, x => base ^ n * (x % base) + reverseDigits base n (x / base)

theorem reverseDigits_lt {base : Nat} (hbase : 0 < base) (n x : Nat) :
    reverseDigits base n x < base ^ n := by
  induction n generalizing x with
  | zero => simp [reverseDigits]
  | succ n ih =>
    calc reverseDigits base (n + 1) x
        < base ^ n * (x % base) + base ^ n := Nat.add_lt_add_left (ih (x / base)) _
      _ = base ^ n * (x % base + 1) := (Nat.mul_add_one _ _).symm
      _ ≤ base ^ n * base := Nat.mul_le_mul_left _ (Nat.mod_lt x hbase)

/-- Digits of `k` bits each: the bits of a digit stay in order. -/
theorem testBit_reverseDigits {k n a b : Nat} (x : Nat) (ha : a < n) (hb : b < k) :
    (reverseDigits (2 ^ k) n x).testBit (k * a + b) = x.testBit (k * (n - 1 - a) + b) := by
  induction n generalizing x with
  | zero => exact absurd ha (Nat.not_lt_zero a)
  | succ n ih =>
    have hrest : reverseDigits (2 ^ k) n (x / 2 ^ k) < 2 ^ (k * n) := by
      rw [Nat.pow_mul]
      exact reverseDigits_lt (Nat.two_pow_pos k) n _
    rw [reverseDigits, ← Nat.pow_mul, Nat.testBit_two_pow_mul_add _ hrest]
    rcases Nat.lt_succ_iff_lt_or_eq.mp ha with hlt | rfl
    · -- a digit of the rest
      have hmul : k * (a + 1) ≤ k * n := Nat.mul_le_mul_left k hlt
      have hindex : n - a = n - 1 - a + 1 := by omega
      rw [Nat.mul_add_one] at hmul
      rw [if_pos (by omega), ih (x / 2 ^ k) hlt, Nat.testBit_div_two_pow, Nat.add_sub_cancel,
        hindex, Nat.mul_add_one, Nat.add_right_comm]
    · -- the digit that was last
      rw [if_neg (by omega), Nat.add_sub_cancel_left, Nat.add_sub_cancel, Nat.sub_self,
        Nat.mul_zero, Nat.zero_add, Nat.testBit_mod_two_pow]
      simp [hb]

/-- Bits that come digit by digit, the last digit first. -/
theorem ofBits_eq_reverseDigits {k n x : Nat} (bit : Nat → Bool)
    (h : ∀ a < n, ∀ b < k, bit (k * a + b) = x.testBit (k * (n - 1 - a) + b)) :
    Nat.ofBits (fun j : Fin (k * n) => bit j) = reverseDigits (2 ^ k) n x := by
  refine Nat.eq_of_testBit_eq fun j => ?_
  rcases Nat.lt_or_ge j (k * n) with hj | hj
  · have hk : 0 < k := Nat.pos_of_ne_zero (by rintro rfl; simp at hj)
    have ha : j / k < n := Nat.div_lt_of_lt_mul hj
    have hb : j % k < k := Nat.mod_lt j hk
    have hbit := (h _ ha _ hb).trans (testBit_reverseDigits x ha hb).symm
    rw [Nat.div_add_mod] at hbit
    rw [Nat.testBit_ofBits_lt _ j hj]
    exact hbit
  · have hpow : 2 ^ (k * n) ≤ 2 ^ j := Nat.pow_le_pow_right (by omega) hj
    have hlt := reverseDigits_lt (Nat.two_pow_pos k) n x
    rw [← Nat.pow_mul] at hlt
    rw [Nat.testBit_ofBits_ge _ j hj, Nat.testBit_lt_two_pow (hlt.trans_le hpow)]

/-! ## Words on a line -/

/-- The first `n` words of `k` elements. -/
def wordsOf (k : Nat) : Nat → List α → List (List α)
  | 0, _ => []
  | n + 1, xs => xs.take k :: wordsOf k n (xs.drop k)

theorem flatten_wordsOf {k n : Nat} {xs : List α} (h : xs.length = k * n) :
    (wordsOf k n xs).flatten = xs := by
  induction n generalizing xs with
  | zero =>
    rw [Nat.mul_zero] at h
    rw [List.length_eq_zero_iff.mp h]
    rfl
  | succ n ih =>
    have hrest : (xs.drop k).length = k * n := by
      rw [List.length_drop, h, Nat.mul_add_one, Nat.add_sub_cancel]
    rw [wordsOf, List.flatten_cons, ih hrest, List.take_append_drop]

theorem length_of_mem_wordsOf {k n : Nat} {xs : List α} (h : xs.length = k * n) :
    ∀ word ∈ wordsOf k n xs, word.length = k := by
  induction n generalizing xs with
  | zero => simp [wordsOf]
  | succ n ih =>
    rw [Nat.mul_add_one] at h
    intro word hword
    rcases List.mem_cons.mp hword with rfl | hword
    · rw [List.length_take]
      omega
    · exact ih (by rw [List.length_drop]; omega) word hword

theorem wordsOf_flatMap {β : Type*} {f : β → List α} {k : Nat} (hlength : ∀ x, (f x).length = k)
    (xs : List β) : wordsOf k xs.length (xs.flatMap f) = xs.map f := by
  induction xs with
  | nil => rfl
  | cons x xs ih =>
    rw [List.length_cons, List.flatMap_cons, wordsOf, List.take_left' (hlength x),
      List.drop_left' (hlength x), ih, List.map_cons]

theorem wordsOf_map {β : Type*} (f : α → β) (k n : Nat) (xs : List α) :
    wordsOf k n (xs.map f) = (wordsOf k n xs).map (List.map f) := by
  induction n generalizing xs with
  | zero => rfl
  | succ n ih => simp only [wordsOf, ← List.map_take, ← List.map_drop, ih, List.map_cons]

/-- The elements of every word in the opposite order. -/
theorem getElem?_reversed_words {k n m r : Nat} {xs : List α} (h : xs.length = k * n) (hm : m < n)
    (hr : r < k) : ((wordsOf k n xs).flatMap List.reverse)[k * m + r]? =
      xs[k * m + (k - 1 - r)]? := by
  induction n generalizing xs m with
  | zero => exact absurd hm (Nat.not_lt_zero m)
  | succ n ih =>
    rw [Nat.mul_add_one] at h
    have hword : (xs.take k).reverse.length = k := by
      rw [List.length_reverse, List.length_take]
      omega
    rw [wordsOf, List.flatMap_cons]
    cases m with
    | zero =>
      rw [List.getElem?_append_left (by omega), List.getElem?_reverse (by simp; omega),
        List.getElem?_take_of_lt (by rw [List.length_take]; omega), List.length_take]
      congr 1
      omega
    | succ m =>
      have hlength : (xs.drop k).length = k * n := by
        rw [List.length_drop]
        omega
      have hrest := ih hlength (Nat.lt_of_succ_lt_succ hm)
      rw [List.getElem?_append_right (by rw [hword, Nat.mul_add_one]; omega), hword,
        Nat.mul_add_one, Nat.add_right_comm, Nat.add_sub_cancel, hrest, List.getElem?_drop]
      congr 1
      omega

/-- A buffer on a line, in words of `k` bytes. -/
def onLine (k : Nat) (buffer : List UInt8) : List Bool :=
  (wordsOf k (buffer.length / k) buffer).flatMap fun word => shiftOut (8 * k) (ofBytes word)

theorem flatMap_injective_of_length {β : Type*} {f : α → List β} {n : Nat} (hn : 0 < n)
    (hlength : ∀ x, (f x).length = n) (hf : Function.Injective f) :
    Function.Injective (List.flatMap f) := by
  have hne : ∀ x, f x ≠ [] := fun x hx => by
    have hx' := hlength x
    rw [hx, List.length_nil] at hx'
    omega
  intro xs ys h
  induction xs generalizing ys with
  | nil =>
    cases ys with
    | nil => rfl
    | cons y ys => exact absurd (List.append_eq_nil_iff.mp h.symm).1 (hne y)
  | cons x xs ih =>
    cases ys with
    | nil => exact absurd (List.append_eq_nil_iff.mp h).1 (hne x)
    | cons y ys =>
      obtain ⟨hhead, htail⟩ := List.append_inj h (by rw [hlength, hlength])
      rw [hf hhead, ih htail]

/-- Equal words in equal lists of words. -/
theorem flatMap_reverse_eq_flatten_iff (words : List (List α)) :
    words.flatMap List.reverse = words.flatten ↔ ∀ word ∈ words, word.reverse = word := by
  induction words with
  | nil => simp
  | cons word words ih =>
    rw [List.flatMap_cons, List.flatten_cons, List.forall_mem_cons, ← ih]
    constructor
    · exact fun h => List.append_inj h List.length_reverse
    · rintro ⟨hword, hwords⟩
      rw [hword, hwords]

/-- The bytes of every word are on the line in the opposite order. -/
theorem onLine_eq {k n : Nat} (hk : 0 < k) {buffer : List UInt8} (h : buffer.length = k * n) :
    onLine k buffer = ((wordsOf k n buffer).flatMap List.reverse).flatMap byteBits := by
  rw [onLine, h, Nat.mul_div_cancel_left n hk, List.flatMap_assoc]
  refine List.flatMap_congr fun word hword => ?_
  rw [← shiftOut_ofBytes, length_of_mem_wordsOf h word hword]

/-- The bytes of a buffer are on the line in their order exactly when every word reads the same
backwards. -/
theorem onLine_eq_iff {k n : Nat} (hk : 0 < k) {buffer : List UInt8} (h : buffer.length = k * n) :
    onLine k buffer = buffer.flatMap byteBits ↔
      ∀ word ∈ wordsOf k n buffer, word.reverse = word := by
  have hbits : Function.Injective (List.flatMap byteBits) :=
    flatMap_injective_of_length (by omega) length_byteBits byteBits_injective
  rw [onLine_eq hk h, hbits.eq_iff, ← flatMap_reverse_eq_flatten_iff, flatten_wordsOf h]

/-- Words of two elements, element by element. -/
theorem forall_wordsOf_two_iff {n : Nat} {xs : List α} (h : xs.length = 2 * n) :
    (∀ word ∈ wordsOf 2 n xs, word.reverse = word) ↔ ∀ m < n, xs[2 * m]? = xs[2 * m + 1]? := by
  induction n generalizing xs with
  | zero => simp [wordsOf]
  | succ n ih =>
    match xs, h with
    | x :: y :: xs, h =>
      have hrest : xs.length = 2 * n := by
        simp only [List.length_cons] at h
        omega
      have hword : [x, y].reverse = [x, y] ↔ x = y := by
        simp only [List.reverse_cons, List.reverse_nil, List.nil_append, List.singleton_append,
          List.cons.injEq, and_true]
        exact ⟨fun h => h.2, fun h => ⟨h.symm, h⟩⟩
      have hwords : wordsOf 2 (n + 1) (x :: y :: xs) = [x, y] :: wordsOf 2 n xs := rfl
      rw [hwords, List.forall_mem_cons, ih hrest, hword]
      constructor
      · rintro ⟨hxy, htail⟩ m hm
        cases m with
        | zero => simp [hxy]
        | succ m => simpa [Nat.mul_add_one] using htail m (by omega)
      · intro hall
        refine ⟨by simpa using hall 0 (by omega), fun m hm => ?_⟩
        simpa [Nat.mul_add_one] using hall (m + 1) (by omega)

end KernelDrivers.Lib
