import KernelDrivers.Ws2812.BitBang

/-!
# The SPI driver

The driver keeps the bytes the SPI core shifts out and hands it the whole rows. Calls are made one
after the other, so the lock of `ws_write` is left out. After a first reset the driver sends what
the bit-banging driver sends, symbol by symbol.
-/

namespace KernelDrivers.Ws2812
open Lib

/-- The buffer handed to the SPI core after a reset. -/
def spiWrite (leds : Rows) : List UInt8 := rowMajor leds

/-- The buffer of the message handed to the SPI core after a write. -/
def spiWriteAsyncMessage (leds : Rows) : List UInt8 := rowMajor leds

def spi : StripDriver (List UInt8) where
  setBit1 := 0xF0
  setBit0 := 0xC0
  sendWrite := spiWriteAsyncMessage
  sendReset := spiWrite

namespace Spi

abbrev setColor := Ws2812.setColor spi
abbrev setLedRgb := Ws2812.setLedRgb spi
abbrev resetLeds := Ws2812.resetLeds spi
abbrev wsWrite := Ws2812.wsWrite spi
abbrev wsIoctl := Ws2812.wsIoctl spi
abbrev wsRelease := Ws2812.wsRelease spi
abbrev wsOp := Ws2812.wsOp spi

end Spi

/-- The byte the SPI driver sends for a symbol. -/
def Symbol.spiByte : Symbol → UInt8
  | .bit0 => 0xC0
  | .bit1 => 0xF0

theorem rowMajor_rows_spi (p : Picture) :
    rowMajor (p.rows spi) = p.frame.map Symbol.spiByte := by
  rw [Picture.frame, rowMajor_map]
  refine congrArg rowMajor (funext fun i => funext fun index => ?_)
  cases h : p i index <;> simp [Picture.rows, spi, h, Symbol.spiByte]

/-- The two drivers answer a call alike when their rows show one picture. -/
theorem answer_spi (p : Picture) (op : WsOp) :
    p.answer spi op = ((p.answer bitBang op).1.map (·.map Symbol.spiByte),
      (p.answer bitBang op).2) := by
  have hwrite : spi.sendWrite (p.rows spi) = p.frame.map Symbol.spiByte := rowMajor_rows_spi p
  have hreset : spi.sendReset (p.rows spi) = p.frame.map Symbol.spiByte := rowMajor_rows_spi p
  cases op with
  | openFile => rfl
  | write info => simp [Picture.answer, hwrite]
  | ioctl ioctlnum =>
    by_cases hnum : ioctlnum = RESET <;> simp [Picture.answer, hnum, hreset]
  | release => simp [Picture.answer, hreset]

theorem answers_spi (p : Picture) (ops : List WsOp) :
    p.answers spi ops = (p.answers bitBang ops).map fun out =>
      (out.1.map (·.map Symbol.spiByte), out.2) := by
  induction ops generalizing p with
  | nil => rfl
  | cons op ops ih => simp [Picture.answers, answer_spi, ih]

/-- From any rows, a run that begins with a reset answers as the dark picture does. -/
theorem run_reset_eq {φ : Type} (driver : StripDriver φ) (s : Pixels) {ops : List WsOp}
    (hon : OnStrip ops) : ∃ t, run (wsOp driver) s (.ioctl RESET :: ops) =
      some (t, dark.answers driver (.ioctl RESET :: ops)) := by
  obtain ⟨row, hreset⟩ := resetLeds_eq driver s
  have hrows : (⟨dark.rows driver, row⟩ : Pixels).ledsPixelData = dark.rows driver := rfl
  obtain ⟨t, hrun⟩ := run_wsOp_eq driver hrows hon
  have hfirst : wsOp driver s (.ioctl RESET) =
      some (⟨dark.rows driver, row⟩, [driver.sendReset (dark.rows driver)], 0) := by
    simp [wsOp, wsIoctl, hreset]
  refine ⟨t, ?_⟩
  rw [run_cons_of_some _ hfirst, hrun]
  simp [Picture.answers, Picture.answer, Picture.after]

/-- Whatever their rows were, after a reset the two drivers send the same symbols in frames of
384, call by call. -/
theorem drivers_agree (s t : Pixels) (ops : List WsOp) (hon : OnStrip ops) :
    ∃ s' outs t' outs', run BitBang.wsOp s (.ioctl RESET :: ops) = some (s', outs) ∧
      run Spi.wsOp t (.ioctl RESET :: ops) = some (t', outs') ∧
      outs' = outs.map (fun out => (out.1.map (·.map Symbol.spiByte), out.2)) ∧
      ∀ out ∈ outs, ∀ frame ∈ out.1, frame.length = 384 := by
  obtain ⟨s', hs⟩ := run_reset_eq bitBang s hon
  obtain ⟨t', ht⟩ := run_reset_eq spi t hon
  refine ⟨s', _, t', _, hs, ht, answers_spi dark _, fun out hout frame hframe => ?_⟩
  obtain ⟨k, hk⟩ := List.mem_iff_getElem?.mp hout
  rw [Picture.answers_getElem?] at hk
  obtain ⟨op, -, rfl⟩ := Option.map_eq_some_iff.mp hk
  rw [answer_frames] at hframe
  cases hsends : op.sends
  · simp [hsends] at hframe
  · obtain rfl : frame = _ := by simpa [hsends] using hframe
    exact rowMajor_length _

theorem drivers_agree_one_write :
    ∃ s' outs t' outs',
      run BitBang.wsOp initialPixels [.ioctl RESET, .write ⟨3, 300, -1, 7⟩, .release] =
        some (s', outs) ∧
      run Spi.wsOp initialPixels [.ioctl RESET, .write ⟨3, 300, -1, 7⟩, .release] =
        some (t', outs') ∧
      outs' = outs.map (fun out => (out.1.map (·.map Symbol.spiByte), out.2)) ∧
      ∀ out ∈ outs, ∀ frame ∈ out.1, frame.length = 384 := by
  refine drivers_agree initialPixels initialPixels _ fun info hmem => ?_
  obtain rfl : info = ⟨3, 300, -1, 7⟩ := by simpa using hmem
  decide

end KernelDrivers.Ws2812
