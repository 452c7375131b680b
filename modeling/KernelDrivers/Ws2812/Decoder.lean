import KernelDrivers.Lib.Words
import KernelDrivers.Ws2812.BitBang

/-!
# The colours a strip shows

A WS2812 takes 24 symbols, eight of green, of red and of blue, and reads each eight with the most
significant bit first. The driver sends each intensity from bit 0 on. So the strip reads every
byte backwards, and an LED shows the colour asked for exactly when its three bytes read the same
both ways.
-/

namespace KernelDrivers.Ws2812
open Lib

/-! ## The strip -/

/-- The number in eight symbols, the first the most significant bit. -/
def decodeByte (frame : List Symbol) (first : Nat) : Nat :=
  Nat.ofBits fun j : Fin 8 => decide (frame[first + (7 - j)]? = some .bit1)

/-- Red, green and blue of LED `i`, which takes the 24 symbols the LEDs before it leave. -/
def decodeLed (frame : List Symbol) (i : Fin 16) : Nat × Nat × Nat :=
  (decodeByte frame (24 * i + 8), decodeByte frame (24 * i), decodeByte frame (24 * i + 16))

/-- Red, green and blue as they were asked for. -/
def LedData.rgb (info : LedData) : Nat × Nat × Nat :=
  (info.redIntensity.toInt.toNat, info.greenIntensity.toInt.toNat, info.blueIntensity.toInt.toNat)

structure LedData.InRange (info : LedData) : Prop where
  red : 0 ≤ info.redIntensity.toInt ∧ info.redIntensity.toInt ≤ 255
  green : 0 ≤ info.greenIntensity.toInt ∧ info.greenIntensity.toInt ≤ 255
  blue : 0 ≤ info.blueIntensity.toInt ∧ info.blueIntensity.toInt ≤ 255

/-- The eight bits of a byte are the same both ways. -/
def Palindrome (byte : Nat) : Prop := ∀ j < 8, byte.testBit j = byte.testBit (7 - j)

instance (byte : Nat) : Decidable (Palindrome byte) := inferInstanceAs (Decidable (∀ j < 8, _))

structure LedData.Palindromes (info : LedData) : Prop where
  red : Palindrome info.redIntensity.toInt.toNat
  green : Palindrome info.greenIntensity.toInt.toNat
  blue : Palindrome info.blueIntensity.toInt.toNat

/-! ## What it reads -/

theorem toNat_toInt {x : Int32} (hx : 0 ≤ x.toInt) : x.toInt.toNat = x.toBitVec.toNat := by
  have h := BitVec.toInt_eq_toNat_cond x.toBitVec
  have hlt := x.toBitVec.isLt
  rw [Int32.toInt] at hx ⊢
  split at h
  · omega
  · omega

/-- Eight bits of the row of an LED, laid out from bit 0 of a number on. -/
theorem decodeByte_eq {leds : Rows} {i : Fin 16} (first n : Nat) (hfirst : first + 8 ≤ 24)
    (hbits : ∀ j < 8, ∀ h : first + j < 24, leds i ⟨first + j, h⟩ = 1 ↔ n.testBit j = true) :
    decodeByte (writeToRegisters leds) (24 * i + first) = reverseBits 8 n := by
  refine congrArg Nat.ofBits (funext fun j => ?_)
  have hlt : 7 - j.val < 8 := by omega
  have hget : (writeToRegisters leds)[24 * i.val + (first + (7 - j.val))]? =
      some (if leds i ⟨first + (7 - j), by omega⟩ = 1 then .bit1 else .bit0) :=
    rowMajor_getElem? _ i ⟨first + (7 - j), by omega⟩
  rw [Nat.add_assoc, hget, if_congr (hbits (7 - j) hlt (by omega)) rfl rfl]
  cases n.testBit (7 - j) <;> simp

theorem bitsRow_eq_one (bits : Fin 24 → Bool) (index : Fin 24) :
    bitsRow bitBang bits index = 1 ↔ bits index = true := by
  cases h : bits index <;> simp [bitsRow, bitBang, h]

/-- The strip reads the bytes of a written LED backwards. -/
theorem decodeLed_eq {leds : Rows} {i : Fin 16} {info : LedData}
    (h : leds i = bitsRow bitBang info.bits) : decodeLed (writeToRegisters leds) i =
      (reverseBits 8 info.redIntensity.toBitVec.toNat,
        reverseBits 8 info.greenIntensity.toBitVec.toNat,
        reverseBits 8 info.blueIntensity.toBitVec.toNat) := by
  have hbit : ∀ index, leds i index = 1 ↔ info.bits index = true := by
    intro index
    rw [h]
    exact bitsRow_eq_one info.bits index
  have hred : decodeByte (writeToRegisters leds) (24 * i + 8) =
      reverseBits 8 info.redIntensity.toBitVec.toNat :=
    decodeByte_eq 8 _ (by omega) fun j hj _ => by rw [hbit, info.bits_red hj]
  have hgreen : decodeByte (writeToRegisters leds) (24 * i) =
      reverseBits 8 info.greenIntensity.toBitVec.toNat :=
    decodeByte_eq 0 _ (by omega) fun j hj _ => by
      simp only [Nat.zero_add, hbit, info.bits_green hj]
  have hblue : decodeByte (writeToRegisters leds) (24 * i + 16) =
      reverseBits 8 info.blueIntensity.toBitVec.toNat :=
    decodeByte_eq 16 _ (by omega) fun j hj _ => by rw [hbit, info.bits_blue hj]
  rw [decodeLed, hred, hgreen, hblue]

theorem reverseBits_intensity {x : Int32} (hx : 0 ≤ x.toInt ∧ x.toInt ≤ 255) :
    reverseBits 8 x.toBitVec.toNat = x.toInt.toNat ↔ Palindrome x.toInt.toNat := by
  have hlt : x.toInt.toNat < 2 ^ 8 := by omega
  rw [← toNat_toInt hx.1]
  exact reverseBits_eq_self_iff hlt

/-- Whatever was on the rows, the frame of a write shows the colour asked for exactly when its
bytes are palindromes. -/
theorem decodeLed_write_iff (s : Pixels) {info : LedData} {i : Fin 16}
    (hled : info.ledNumber.toInt = (i : Nat)) (hrange : info.InRange) :
    ∃ t frame, BitBang.wsOp s (.write info) = some (t, [frame], 0) ∧
      (decodeLed frame i = info.rgb ↔ info.Palindromes) := by
  have hset := setLedRgb_update bitBang s hled
  refine ⟨_, writeToRegisters (Function.update s.ledsPixelData i (bitsRow bitBang info.bits)),
    by simp only [wsOp, wsWrite, hset, Option.map_some]; rfl, ?_⟩
  rw [decodeLed_eq (Function.update_self i _ _), LedData.rgb, Prod.mk.injEq, Prod.mk.injEq,
    reverseBits_intensity hrange.red, reverseBits_intensity hrange.green,
    reverseBits_intensity hrange.blue]
  constructor
  · rintro ⟨hred, hgreen, hblue⟩
    exact ⟨hred, hgreen, hblue⟩
  · intro h
    exact ⟨h.red, h.green, h.blue⟩

/-- Yellow on the last LED. -/
theorem decodeLed_write_iff_yellow :
    ∃ t frame, BitBang.wsOp initialPixels (.write ⟨15, 255, 255, 0⟩) = some (t, [frame], 0) ∧
      decodeLed frame 15 = (255, 255, 0) := by
  have hrange : (⟨15, 255, 255, 0⟩ : LedData).InRange := ⟨by decide, by decide, by decide⟩
  obtain ⟨t, frame, hop, hshown⟩ := decodeLed_write_iff initialPixels (i := 15) rfl hrange
  exact ⟨t, frame, hop, hshown.mpr ⟨by decide, by decide, by decide⟩⟩

/-- The darkest red on the first LED is shown as the bright red 128. -/
theorem not_decodeLed_write :
    ¬ ∀ (s : Pixels) (info : LedData) (i : Fin 16), info.ledNumber.toInt = (i : Nat) →
      info.InRange →
      ∃ t frame, BitBang.wsOp s (.write info) = some (t, [frame], 0) ∧
        decodeLed frame i = info.rgb := by
  intro h
  obtain ⟨t, frame, hop, hshown⟩ :=
    h initialPixels ⟨0, 1, 0, 0⟩ 0 rfl ⟨by decide, by decide, by decide⟩
  have hled : (⟨0, 1, 0, 0⟩ : LedData).ledNumber.toInt = ((0 : Fin 16) : Nat) := rfl
  have hset := setLedRgb_update bitBang initialPixels hled
  simp only [wsOp, wsWrite, hset, Option.map_some] at hop
  obtain ⟨-, rfl, -⟩ := by simpa using hop
  have hred := congrArg Prod.fst
    ((decodeLed_eq (Function.update_self 0 _ _)).symm.trans hshown)
  exact absurd hred (by decide)

end KernelDrivers.Ws2812
