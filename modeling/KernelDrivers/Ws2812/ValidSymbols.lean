import KernelDrivers.Ws2812.Spi

/-!
# Frames of valid symbols

The rows of the SPI driver are static bytes, zero until a reset or a write encodes colours into
them. A write sends all rows and has encoded only one, and the initialisation resets nothing,
where the bit-banging driver's does. So the driver sends only the bytes of the two symbols
exactly when no write comes before the first reset.
-/

namespace KernelDrivers.Ws2812
open Lib

/-- Every byte is one of the two symbols. -/
def ValidFrame (frame : List UInt8) : Prop := ∀ b ∈ frame, b = 0xF0 ∨ b = 0xC0

/-- All calls have a result, and every buffer they hand to the SPI core is a valid one of 384
bytes. -/
def SendsValid (s : Pixels) (ops : List WsOp) : Prop :=
  ∃ t outs, run Spi.wsOp s ops = some (t, outs) ∧
    ∀ out ∈ outs, ∀ frame ∈ out.1, frame.length = 384 ∧ ValidFrame frame

/-- No write comes before the first reset; a release resets too. -/
def ResetFirst : List WsOp → Prop
  | [] => True
  | .openFile :: ops => ResetFirst ops
  | .write _ :: _ => False
  | .ioctl ioctlnum :: ops => ioctlnum = RESET ∨ ResetFirst ops
  | .release :: _ => True

theorem sendsValid_cons {s s' : Pixels} {op : WsOp} {ops : List WsOp}
    {out : List (List UInt8) × Int32} (hop : Spi.wsOp s op = some (s', out)) :
    SendsValid s (op :: ops) ↔
      (∀ frame ∈ out.1, frame.length = 384 ∧ ValidFrame frame) ∧ SendsValid s' ops := by
  constructor
  · rintro ⟨t, outs, hrun, hvalid⟩
    obtain ⟨s₁, out₁, outs₁, hop₁, hrest, rfl⟩ := run_cons_eq_some.mp hrun
    obtain ⟨rfl, rfl⟩ : s' = s₁ ∧ out = out₁ := by simpa [hop] using hop₁
    exact ⟨hvalid out List.mem_cons_self,
      t, outs₁, hrest, fun out' hout' => hvalid out' (List.mem_cons_of_mem out hout')⟩
  · rintro ⟨hout, t, outs, hrun, hvalid⟩
    refine ⟨t, out :: outs, run_cons_eq_some.mpr ⟨s', out, outs, hop, hrun, rfl⟩, ?_⟩
    intro out' hout'
    rcases List.mem_cons.mp hout' with rfl | hout'
    · exact hout
    · exact hvalid out' hout'

/-! ## Rows that show a picture -/

theorem validFrame_spiByte (frame : List Symbol) : ValidFrame (frame.map Symbol.spiByte) := by
  intro b hb
  obtain ⟨symbol, -, rfl⟩ := List.mem_map.mp hb
  cases symbol with
  | bit0 => exact .inr rfl
  | bit1 => exact .inl rfl

theorem answer_valid (p : Picture) (op : WsOp) :
    ∀ frame ∈ (p.answer spi op).1, frame.length = 384 ∧ ValidFrame frame := by
  intro frame hframe
  rw [answer_spi, answer_frames] at hframe
  obtain ⟨symbols, hsymbols, rfl⟩ := List.mem_map.mp hframe
  refine ⟨?_, validFrame_spiByte symbols⟩
  cases hsends : op.sends
  · simp [hsends] at hsymbols
  · obtain rfl : symbols = p.frame := by simpa [hsends] using hsymbols
    rw [List.length_map]
    exact rowMajor_length _

/-- From rows that show a picture on, every buffer is valid. -/
theorem sendsValid_of_rows {s : Pixels} {p : Picture} (h : s.ledsPixelData = p.rows spi)
    {ops : List WsOp} (hon : OnStrip ops) : SendsValid s ops := by
  obtain ⟨t, hrun⟩ := run_wsOp_eq spi h hon
  refine ⟨t, _, hrun, fun out hout => ?_⟩
  obtain ⟨k, hk⟩ := List.mem_iff_getElem?.mp hout
  rw [Picture.answers_getElem?] at hk
  obtain ⟨op, -, rfl⟩ := Option.map_eq_some_iff.mp hk
  exact answer_valid _ op

/-- A reset of any rows leaves the dark picture on them and sends it. -/
theorem sendsValid_reset {s : Pixels} {op : WsOp} (hop : op = .ioctl RESET ∨ op = .release)
    {ops : List WsOp} (hon : OnStrip ops) : SendsValid s (op :: ops) := by
  obtain ⟨row, hreset⟩ := resetLeds_eq spi s
  have hsent : ∀ frame ∈ [spi.sendReset (dark.rows spi)],
      frame.length = 384 ∧ ValidFrame frame := answer_valid dark .release
  have hrows : (⟨dark.rows spi, row⟩ : Pixels).ledsPixelData = dark.rows spi := rfl
  have hstep : Spi.wsOp s op =
      some (⟨dark.rows spi, row⟩, [spi.sendReset (dark.rows spi)], 0) := by
    rcases hop with rfl | rfl
    · simp [wsOp, wsIoctl, hreset]
    · simp [wsOp, wsRelease, hreset]
  exact (sendsValid_cons hstep).mpr ⟨hsent, sendsValid_of_rows hrows hon⟩

/-! ## Rows not reset -/

/-- The static rows. -/
def zeroRows : Rows := fun _ _ => 0

/-- A write sends the rows of the other LEDs as they are. -/
theorem not_sendsValid_write {s : Pixels} (h : s.ledsPixelData = zeroRows) {info : LedData}
    (hon : 0 ≤ info.ledNumber.toInt ∧ info.ledNumber.toInt < 16) (ops : List WsOp) :
    ¬ SendsValid s (.write info :: ops) := by
  obtain ⟨i, hi⟩ : ∃ i : Fin 16, info.ledNumber.toInt = (i : Nat) :=
    CArray.exists_fin hon
  obtain ⟨row, hset⟩ : ∃ row, Spi.setLedRgb info.ledNumber info.redIntensity info.greenIntensity
      info.blueIntensity s = some ⟨Function.update s.ledsPixelData i row, row⟩ :=
    ⟨bitsRow spi info.bits, setLedRgb_update spi s hi⟩
  have hop : Spi.wsOp s (.write info) = some (⟨Function.update s.ledsPixelData i row, row⟩,
      [rowMajor (Function.update s.ledsPixelData i row)], 0) := by
    simp only [wsOp, wsWrite, hset, Option.map_some]
    rfl
  obtain ⟨j, hj⟩ : ∃ j : Fin 16, j ≠ i := exists_ne i
  have hzero : (0 : UInt8) ∈ rowMajor (Function.update s.ledsPixelData i row) := by
    refine List.mem_of_getElem? ((rowMajor_getElem? _ j 0).trans ?_)
    rw [Function.update_of_ne hj, h]
    rfl
  intro hvalid
  have hframe := ((sendsValid_cons hop).mp hvalid).1 _ (List.mem_singleton.mpr rfl)
  rcases hframe.2 0 hzero with hbyte | hbyte
  · exact absurd hbyte (by decide)
  · exact absurd hbyte (by decide)

theorem sendsValid_iff_of_zeroRows {s : Pixels} (h : s.ledsPixelData = zeroRows)
    {ops : List WsOp} (hon : OnStrip ops) : SendsValid s ops ↔ ResetFirst ops := by
  induction ops generalizing s with
  | nil => exact iff_of_true ⟨s, [], rfl, by simp⟩ trivial
  | cons op ops ih =>
    have htail : OnStrip ops := fun info hmem => hon info (List.mem_cons_of_mem _ hmem)
    cases op with
    | openFile =>
      have hop : Spi.wsOp s .openFile = some (s, [], 0) := rfl
      rw [sendsValid_cons hop, ResetFirst, ← ih h htail]
      simp
    | write info =>
      exact iff_of_false (not_sendsValid_write h (hon info List.mem_cons_self) ops) id
    | ioctl ioctlnum =>
      by_cases hreset : ioctlnum = RESET
      · subst hreset
        exact iff_of_true (sendsValid_reset (.inl rfl) htail) (.inl rfl)
      · have hop : Spi.wsOp s (.ioctl ioctlnum) = some (s, [], EINVAL) := by
          simp [wsOp, wsIoctl, hreset]
        rw [sendsValid_cons hop, ResetFirst, ← ih h htail]
        simp [hreset]
    | release => exact iff_of_true (sendsValid_reset (.inr rfl) htail) trivial

/-- After the initialisation the driver sends only valid buffers exactly when no write comes
before the first reset. -/
theorem sendsValid_iff {ops : List WsOp} (hon : OnStrip ops) :
    SendsValid initialPixels ops ↔ ResetFirst ops :=
  sendsValid_iff_of_zeroRows rfl hon

theorem sendsValid_iff_reset_write :
    SendsValid initialPixels [.openFile, .ioctl RESET, .write ⟨3, 300, -1, 7⟩, .release] := by
  refine (sendsValid_iff fun info hmem => ?_).mpr (.inl rfl)
  obtain rfl : info = ⟨3, 300, -1, 7⟩ := by simpa using hmem
  decide

/-- A file opened and written, as the first thing done with the driver. -/
theorem not_sendsValid : ¬ ∀ ops, OnStrip ops → SendsValid initialPixels ops := by
  intro h
  have hon : 0 ≤ (⟨0, 255, 0, 0⟩ : LedData).ledNumber.toInt ∧
      (⟨0, 255, 0, 0⟩ : LedData).ledNumber.toInt < 16 := by decide
  refine not_sendsValid_write (s := initialPixels) rfl hon [] (h _ fun info hmem => ?_)
  obtain rfl : info = ⟨0, 255, 0, 0⟩ := by simpa using hmem
  decide

end KernelDrivers.Ws2812
