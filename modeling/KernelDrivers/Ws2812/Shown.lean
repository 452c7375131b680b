import KernelDrivers.Ws2812.Decoder
import KernelDrivers.Ws2812.Wire

/-!
# What the two strips show

Both drivers send an intensity from bit 0 on, and a strip takes it with the most significant bit
first. The strip at the GPIO line reads the eight binary digits of an intensity backwards. On the
way to the one at the SPI bus neighbouring symbols change places too, so it reads the four digits
in base 4 backwards.
-/

namespace KernelDrivers.Ws2812
open Lib

/-! ## A strip at the SPI bus -/

/-- Eight bits of the line are a pulse and a pause. A long pulse is a 1. -/
def readPulse (bits : List Bool) : Symbol :=
  if 3 ≤ (bits.takeWhile id).length then .bit1 else .bit0

def symbolsOnLine (line : List Bool) : List Symbol :=
  (wordsOf 8 (line.length / 8) line).map readPulse

theorem readPulse_spiByte (symbol : Symbol) : readPulse (byteBits symbol.spiByte) = symbol := by
  cases symbol with
  | bit0 => rfl
  | bit1 => rfl

/-- The symbols in the order in which words of `k` symbols leave them. -/
def wordsReversed (k : Nat) (frame : List Symbol) : List Symbol :=
  (wordsOf k (frame.length / k) frame).flatMap List.reverse

/-- A frame of the SPI driver arrives symbol by symbol, the two of a word in the other order. -/
theorem symbolsOnLine_mosi {device : SpiDevice} (hword : device.bitsPerWord = 16) {n : Nat}
    {frame : List Symbol} (hlength : frame.length = 2 * n) :
    symbolsOnLine (device.mosi (frame.map Symbol.spiByte)) = wordsReversed 2 frame := by
  have hbytes : device.bitsPerWord.toNat / 8 = 2 := by
    rw [hword]
    rfl
  have hline : device.mosi (frame.map Symbol.spiByte) =
      ((wordsReversed 2 frame).map Symbol.spiByte).flatMap byteBits := by
    rw [SpiDevice.mosi, hbytes, onLine_eq (n := n) (by omega) (by rw [List.length_map, hlength]),
      wordsOf_map, wordsReversed, hlength, Nat.mul_div_cancel_left n (by omega)]
    simp only [List.flatMap_map, List.map_flatMap, List.map_reverse]
  have hcount : (((wordsReversed 2 frame).map Symbol.spiByte).flatMap byteBits).length / 8 =
      ((wordsReversed 2 frame).map Symbol.spiByte).length := by
    rw [List.length_flatMap, List.map_congr_left fun b _ => length_byteBits b, List.map_const',
      List.sum_replicate_nat, Nat.mul_div_cancel _ (by omega)]
  rw [hline, symbolsOnLine, hcount, wordsOf_flatMap length_byteBits, List.map_map, List.map_map]
  conv_rhs => rw [← List.map_id (wordsReversed 2 frame)]
  exact List.map_congr_left fun symbol _ => readPulse_spiByte symbol

/-! ## Digits backwards -/

/-- One of the three bytes of an LED, on a strip whose words have `k` symbols. -/
theorem decodeByte_wordsReversed {k n : Nat} (hk : k * n = 8) {p : Picture} {i : Fin 16} {c x : Nat}
    (hc : c < 3) (hbits : ∀ j, (hj : j < 8) → p i ⟨8 * c + j, by omega⟩ = x.testBit j) :
    decodeByte (wordsReversed k p.frame) (24 * i + 8 * c) = reverseDigits (2 ^ k) n x := by
  have hpos : 0 < k := Nat.pos_of_ne_zero (by rintro rfl; omega)
  have hlength : p.frame.length = k * (48 * n) := by
    rw [Nat.mul_left_comm, hk]
    exact rowMajor_length _
  have hdigit : ∀ a < n, ∀ b < k, decide ((wordsReversed k p.frame)[24 * i.val + 8 * c +
      (7 - (k * a + b))]? = some .bit1) = x.testBit (k * (n - 1 - a) + b) := by
    intro a ha b hb
    obtain ⟨d, rfl⟩ : ∃ d, n = a + 1 + d := Nat.exists_eq_add_of_le ha
    have hsum : k * a + k + k * d = 8 := by rw [← hk, Nat.mul_add, Nat.mul_add_one]
    have hindex : 24 * i.val + 8 * c + (7 - (k * a + b)) =
        k * ((a + 1 + d) * (3 * i.val + c) + d) + (k - 1 - b) := by
      rw [Nat.mul_add, ← Nat.mul_assoc, hk]
      omega
    have hd : a + 1 + d - 1 - a = d := by omega
    have hbit := hbits (k * d + b) (by omega)
    have hfirst : 24 * i.val + (8 * c + (k * d + b)) =
        k * ((a + 1 + d) * (3 * i.val + c) + d) + (k - 1 - (k - 1 - b)) := by
      rw [Nat.mul_add, ← Nat.mul_assoc, hk]
      omega
    have hm : (a + 1 + d) * (3 * i.val + c) + d < 48 * (a + 1 + d) := by
      have hle : (a + 1 + d) * (3 * i.val + c) + (a + 1 + d) ≤ (a + 1 + d) * 48 := by
        rw [← Nat.mul_add_one]
        exact Nat.mul_le_mul_left _ (by omega)
      omega
    have hget := p.frame_getElem? i ⟨8 * c + (k * d + b), by omega⟩
    rw [wordsReversed, hlength, Nat.mul_div_cancel_left _ hpos, hindex,
      getElem?_reversed_words hlength hm (by omega), ← hfirst, hget, hbit, hd]
    cases x.testBit (k * d + b) <;> simp
  have hrev := ofBits_eq_reverseDigits (fun j =>
    decide ((wordsReversed k p.frame)[24 * i.val + 8 * c + (7 - j)]? = some .bit1)) hdigit
  rw [hk] at hrev
  exact hrev

/-- Red, green and blue of the LED last written so, each with its digits reversed. -/
def shownColor (base digits : Nat) (last : Option LedData) : Nat × Nat × Nat :=
  last.elim (0, 0, 0) fun info =>
    (reverseDigits base digits info.redIntensity.toBitVec.toNat,
      reverseDigits base digits info.greenIntensity.toBitVec.toNat,
      reverseDigits base digits info.blueIntensity.toBitVec.toNat)

theorem reverseDigits_zero (base n : Nat) : reverseDigits base n 0 = 0 := by
  induction n with
  | zero => rfl
  | succ n ih => simp [reverseDigits, ih]

theorem decodeLed_wordsReversed {k n : Nat} (hk : k * n = 8) {p : Picture} {i : Fin 16}
    {last : Option LedData} (h : p i = last.elim (fun _ => false) LedData.bits) :
    decodeLed (wordsReversed k p.frame) i = shownColor (2 ^ k) n last := by
  cases last with
  | none =>
    have hzero : ∀ c < 3, decodeByte (wordsReversed k p.frame) (24 * i + 8 * c) = 0 := by
      intro c hc
      rw [decodeByte_wordsReversed hk (x := 0) hc fun j hj => by simp [h], reverseDigits_zero]
    rw [decodeLed, hzero 1 (by omega), hzero 2 (by omega), shownColor]
    exact Prod.ext rfl (Prod.ext (hzero 0 (by omega)) rfl)
  | some info =>
    have hrow : p i = info.bits := h
    have hred := decodeByte_wordsReversed hk (p := p) (i := i) (c := 1)
      (x := info.redIntensity.toBitVec.toNat) (by omega) fun j hj => by
        rw [hrow]
        exact info.bits_red hj
    have hgreen := decodeByte_wordsReversed hk (p := p) (i := i) (c := 0)
      (x := info.greenIntensity.toBitVec.toNat) (by omega) fun j hj => by
        simp only [hrow, Nat.mul_zero, Nat.zero_add]
        exact info.bits_green hj
    have hblue := decodeByte_wordsReversed hk (p := p) (i := i) (c := 2)
      (x := info.blueIntensity.toBitVec.toNat) (by omega) fun j hj => by
        rw [hrow]
        exact info.bits_blue hj
    rw [decodeLed, hred, hblue]
    exact Prod.ext rfl (Prod.ext hgreen rfl)

theorem wordsReversed_one (frame : List Symbol) : wordsReversed 1 frame = frame := by
  have hlength : frame.length = 1 * frame.length := (Nat.one_mul _).symm
  rw [wordsReversed, Nat.div_one]
  refine ((flatMap_reverse_eq_flatten_iff _).mpr fun word hword => ?_).trans
    (flatten_wordsOf hlength)
  obtain ⟨x, rfl⟩ := List.length_eq_one_iff.mp (length_of_mem_wordsOf hlength word hword)
  rfl

/-! ## Whole runs -/

/-- Every call that sends, answered from the picture that the calls so far leave. -/
theorem answer_of_sends {φ : Type} {driver : StripDriver φ} {p : Picture} {ops : List WsOp}
    {k : Nat} {op : WsOp} (hop : ops[k]? = some op) (hsends : op.sends = true) :
    ∃ frame, (p.answers driver ops)[k]? = some ([frame], 0) ∧
      (frame = driver.sendWrite (((ops.take (k + 1)).foldl Picture.after p).rows driver) ∨
        frame = driver.sendReset (((ops.take (k + 1)).foldl Picture.after p).rows driver)) := by
  rw [Picture.answers_getElem?, hop, Option.map_some]
  cases op with
  | openFile => exact absurd hsends Bool.false_ne_true
  | write info => exact ⟨_, rfl, .inl rfl⟩
  | ioctl ioctlnum =>
    have hreset : ioctlnum = RESET := by simpa [WsOp.sends] using hsends
    exact ⟨_, by rw [Picture.answer, if_pos hreset], .inr rfl⟩
  | release => exact ⟨_, rfl, .inr rfl⟩

/-- After a reset, whatever the calls are: at every frame sent, the strip at the GPIO line shows on
each LED the colour last written to it with the eight bits of every intensity backwards, and the
strip at the SPI bus shows the same colour with the four digits in base 4 backwards. -/
theorem strips_show {busnumToMaster : Int16 → Bool} {newDevice : SpiBoardInfo → Bool}
    {spiSetup : SpiDevice → Int32} {device : SpiDevice}
    (hinit : spiInit busnumToMaster newDevice spiSetup = (some device, 0)) (s t : Pixels)
    {ops : List WsOp} (hon : OnStrip ops) :
    ∃ s' outs t' outs', run BitBang.wsOp s (.ioctl RESET :: ops) = some (s', outs) ∧
      run Spi.wsOp t (.ioctl RESET :: ops) = some (t', outs') ∧
      ∀ k op, (WsOp.ioctl RESET :: ops)[k]? = some op → op.sends = true →
        ∃ frame buffer, outs[k]? = some ([frame], 0) ∧ outs'[k]? = some ([buffer], 0) ∧
          ∀ i, decodeLed frame i =
              shownColor 2 8 (lastWrite i ((.ioctl RESET :: ops).take (k + 1))) ∧
            decodeLed (symbolsOnLine (device.mosi buffer)) i =
              shownColor 4 4 (lastWrite i ((.ioctl RESET :: ops).take (k + 1))) := by
  obtain ⟨s', hs⟩ := run_reset_eq bitBang s hon
  obtain ⟨t', ht⟩ := run_reset_eq spi t hon
  refine ⟨s', _, t', _, hs, ht, fun k op hop hsends => ?_⟩
  obtain ⟨frame, hframe, hsent⟩ := @answer_of_sends _ bitBang dark _ k op hop hsends
  obtain ⟨buffer, hbuffer, hsent'⟩ := @answer_of_sends _ spi dark _ k op hop hsends
  refine ⟨frame, buffer, hframe, hbuffer, fun i => ?_⟩
  have hrow : (((WsOp.ioctl RESET :: ops).take (k + 1)).foldl Picture.after dark) i =
      (lastWrite i ((.ioctl RESET :: ops).take (k + 1))).elim (fun _ => false) LedData.bits :=
    foldl_after_eq rfl _
  generalize ((WsOp.ioctl RESET :: ops).take (k + 1)).foldl Picture.after dark = p
    at hsent hsent' hrow
  obtain rfl : frame = p.frame := by simpa using hsent
  have hbytes : buffer = p.frame.map Symbol.spiByte := by
    rcases hsent' with rfl | rfl
    · exact rowMajor_rows_spi p
    · exact rowMajor_rows_spi p
  have hlength : p.frame.length = 2 * 192 := rowMajor_length _
  constructor
  · have hshown := decodeLed_wordsReversed (k := 1) (n := 8) rfl hrow
    rwa [wordsReversed_one] at hshown
  · rw [hbytes, symbolsOnLine_mosi (bitsPerWord_of_spiInit hinit) hlength]
    exact decodeLed_wordsReversed (k := 2) (n := 4) rfl hrow

/-- The darkest green on LED 15. -/
theorem strips_show_green : ∃ s' outs t' outs' frame buffer,
    run BitBang.wsOp initialPixels [.ioctl RESET, .write ⟨15, 0, 1, 0⟩] = some (s', outs) ∧
    run Spi.wsOp initialPixels [.ioctl RESET, .write ⟨15, 0, 1, 0⟩] = some (t', outs') ∧
    outs[1]? = some ([frame], 0) ∧ outs'[1]? = some ([buffer], 0) ∧
    decodeLed frame 15 = (0, 128, 0) ∧
    decodeLed (symbolsOnLine ((SpiDevice.mk spiDeviceInfo 16).mosi buffer)) 15 = (0, 64, 0) := by
  have hon : OnStrip [.write ⟨15, 0, 1, 0⟩] := by
    intro info hmem
    obtain rfl : info = ⟨15, 0, 1, 0⟩ := by simpa using hmem
    decide
  have hinit : spiInit (fun _ => true) (fun _ => true) (fun _ => 0) =
      (some ⟨spiDeviceInfo, 16⟩, 0) := rfl
  obtain ⟨s', outs, t', outs', hs, ht, hall⟩ := strips_show hinit initialPixels initialPixels hon
  obtain ⟨frame, buffer, hframe, hbuffer, hshown⟩ := hall 1 _ rfl rfl
  exact ⟨s', outs, t', outs', frame, buffer, hs, ht, hframe, hbuffer,
    (hshown 15).1.trans (by decide), (hshown 15).2.trans (by decide)⟩

end KernelDrivers.Ws2812
