import KernelDrivers.Ws2812.Spi

/-!
# The row a write goes to

`ws_write` hands the number of the LED to `set_led_rgb`, which uses it as an index, and neither
looks at it. So a write touches its own row exactly when there is such a row, and otherwise goes
to memory that is not the strip's.
-/

namespace KernelDrivers.Ws2812
open Lib

/-- The indexes of `leds_pixel_data` in the loop of `set_led_rgb`, row and column. -/
def pixelIndexes (number : Int32) : List (Int × Int) :=
  (List.range 24).map fun index : Nat => (number.toInt, (index : Int))

def InRows (index : Int × Int) : Prop := 0 ≤ index.1 ∧ index.1 < 16

/-- A write has a result, its indexes are inside, it leaves the other rows as they were, and with a
number that is no LED's it leaves all rows. -/
structure WritesOwnRow {φ : Type} (driver : StripDriver φ) (s : Pixels) (info : LedData) :
    Prop where
  inside : ∀ index ∈ pixelIndexes info.ledNumber, InRows index
  kept : ∃ s' out, wsOp driver s (.write info) = some (s', out) ∧
    (∀ i : Fin 16, info.ledNumber.toInt ≠ (i : Nat) → s'.ledsPixelData i = s.ledsPixelData i) ∧
    (¬ (0 ≤ info.ledNumber.toInt ∧ info.ledNumber.toInt < 16) →
      s'.ledsPixelData = s.ledsPixelData)

/-- Every write of the calls touches its own row only, from the rows that the calls before it
leave. -/
def WritesOwnRows {φ : Type} (driver : StripDriver φ) (s : Pixels) (ops : List WsOp) : Prop :=
  ∀ before info after, ops = before ++ .write info :: after →
    ∃ t outs, run (wsOp driver) s before = some (t, outs) ∧ WritesOwnRow driver t info

section Driver

variable {φ : Type} (driver : StripDriver φ)

/-- Every index of the loop is inside exactly when the number is an LED's. -/
theorem inRows_pixelIndexes_iff (number : Int32) :
    (∀ index ∈ pixelIndexes number, InRows index) ↔ 0 ≤ number.toInt ∧ number.toInt < 16 := by
  constructor
  · intro h
    have hfirst : 0 ∈ List.range 24 := by decide
    exact h (number.toInt, (0 : Nat)) (List.mem_map.mpr ⟨0, hfirst, rfl⟩)
  · intro h index hindex
    obtain ⟨column, -, rfl⟩ := List.mem_map.mp hindex
    exact h

/-- The call is defined exactly when every index of the loop is inside. -/
theorem write_defined_iff (s : Pixels) (info : LedData) :
    (∃ s' out, wsOp driver s (.write info) = some (s', out)) ↔
      ∀ index ∈ pixelIndexes info.ledNumber, InRows index := by
  rw [inRows_pixelIndexes_iff]
  constructor
  · rintro ⟨s', out, hop⟩
    exact onStrip_of_write driver hop
  · intro hon
    obtain ⟨i, hi⟩ : ∃ i : Fin 16, info.ledNumber.toInt = (i : Nat) :=
      CArray.exists_fin hon
    have hwrite := setLedRgb_update driver s hi
    exact ⟨_, _, by rw [wsOp, wsWrite, hwrite]; rfl⟩

/-- One write, from any rows. -/
theorem writesOwnRow_iff (s : Pixels) (info : LedData) :
    WritesOwnRow driver s info ↔ 0 ≤ info.ledNumber.toInt ∧ info.ledNumber.toInt < 16 := by
  constructor
  · intro h
    exact (inRows_pixelIndexes_iff info.ledNumber).mp h.inside
  · intro hon
    obtain ⟨i, hi⟩ : ∃ i : Fin 16, info.ledNumber.toInt = (i : Nat) :=
      CArray.exists_fin hon
    have hwrite := setLedRgb_update driver s hi
    refine ⟨(inRows_pixelIndexes_iff info.ledNumber).mpr hon, _, _,
      by rw [wsOp, wsWrite, hwrite]; rfl, fun j hj => ?_, fun hoff => absurd hon hoff⟩
    have hne : j ≠ i := by
      rintro rfl
      exact hj hi
    exact Function.update_of_ne hne _ _

/-- Every call on the strip has a result, from any rows. -/
theorem wsOp_defined (s : Pixels) {op : WsOp} (hon : OnStrip [op]) :
    ∃ s' out, wsOp driver s op = some (s', out) := by
  obtain ⟨row, hreset⟩ := resetLeds_eq driver s
  cases op with
  | openFile => exact ⟨s, _, rfl⟩
  | write info =>
    exact (write_defined_iff driver s info).mpr
      ((inRows_pixelIndexes_iff info.ledNumber).mpr (hon info List.mem_cons_self))
  | ioctl ioctlnum =>
    by_cases hnum : ioctlnum = RESET
    · exact ⟨_, _, by rw [wsOp, wsIoctl, if_pos hnum, hreset]; rfl⟩
    · exact ⟨s, _, if_neg hnum⟩
  | release => exact ⟨_, _, by rw [wsOp, wsRelease, hreset]; rfl⟩

theorem run_wsOp_defined (s : Pixels) {ops : List WsOp} (hon : OnStrip ops) :
    ∃ t outs, run (wsOp driver) s ops = some (t, outs) := by
  induction ops generalizing s with
  | nil => exact ⟨s, [], rfl⟩
  | cons op ops ih =>
    have hfirst : OnStrip [op] := fun info hmem =>
      hon info (List.mem_cons.mpr (.inl (List.mem_singleton.mp hmem)))
    obtain ⟨s', out, hop⟩ := wsOp_defined driver s hfirst
    obtain ⟨t, outs, hrun⟩ := ih s' fun info hmem => hon info (List.mem_cons_of_mem op hmem)
    exact ⟨t, out :: outs, run_cons_eq_some.mpr ⟨s', out, outs, hop, hrun, rfl⟩⟩

/-- The writes of a run touch their own rows only exactly when their numbers are all LEDs'. -/
theorem writesOwnRows_iff_onStrip (s : Pixels) (ops : List WsOp) :
    WritesOwnRows driver s ops ↔ OnStrip ops := by
  constructor
  · intro h info hmem
    obtain ⟨before, after, rfl⟩ := List.append_of_mem hmem
    obtain ⟨t, -, -, hown⟩ := h before info after rfl
    exact (writesOwnRow_iff driver t info).mp hown
  · rintro hon before info after rfl
    have hbefore : OnStrip before := fun info' hmem => hon info' (List.mem_append_left _ hmem)
    obtain ⟨t, outs, hrun⟩ := run_wsOp_defined driver s hbefore
    refine ⟨t, outs, hrun, (writesOwnRow_iff driver t info).mpr (hon info ?_)⟩
    exact List.mem_append_right before List.mem_cons_self

end Driver

/-- In both drivers, from any rows: one write touches its own row only exactly when its number is
an LED's, and so do all the writes of a run. -/
theorem drivers_write_own_rows_iff (s : Pixels) :
    (∀ info, (WritesOwnRow bitBang s info ↔
        0 ≤ info.ledNumber.toInt ∧ info.ledNumber.toInt < 16) ∧
      (WritesOwnRow spi s info ↔ 0 ≤ info.ledNumber.toInt ∧ info.ledNumber.toInt < 16)) ∧
    ∀ ops, (WritesOwnRows bitBang s ops ↔ OnStrip ops) ∧ (WritesOwnRows spi s ops ↔ OnStrip ops) :=
  ⟨fun info => ⟨writesOwnRow_iff bitBang s info, writesOwnRow_iff spi s info⟩,
    fun ops => ⟨writesOwnRows_iff_onStrip bitBang s ops, writesOwnRows_iff_onStrip spi s ops⟩⟩

/-- A write to LED 16 after a reset. -/
theorem not_writesOwnRows_led_16 :
    ¬ WritesOwnRows bitBang initialPixels [.ioctl RESET, .write ⟨16, 255, 0, 0⟩] ∧
      ¬ WritesOwnRows spi initialPixels [.ioctl RESET, .write ⟨16, 255, 0, 0⟩] := by
  have hoff : ¬ OnStrip [.ioctl RESET, .write ⟨16, 255, 0, 0⟩] := fun hon =>
    absurd (hon ⟨16, 255, 0, 0⟩ (by simp)).2 (by decide)
  exact ⟨mt (writesOwnRows_iff_onStrip bitBang initialPixels _).mp hoff,
    mt (writesOwnRows_iff_onStrip spi initialPixels _).mp hoff⟩

end KernelDrivers.Ws2812
