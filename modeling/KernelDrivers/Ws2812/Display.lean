import KernelDrivers.Ws2812.BitBang

/-!
# The circular display

The test program of the bit-banging driver (the SPI driver has the same one) lights some LEDs in a
row, waits for a second and turns them off, and begins the next step one LED further. The LEDs are
in a circle of 16. The two loops of a step write to the same LEDs, so a step leaves the strip as
dark as it found it.
-/

namespace KernelDrivers.Ws2812
open Lib

/-! The columns of a colour. -/

abbrev red : Fin 3 := 0
abbrev green : Fin 3 := 1
abbrev blue : Fin 3 := 2

/-- `led_rgb[12][3]` -/
abbrev LedColors := CArray 12 (CArray 3 Int32)

/-- The driver's rows and the frames it has sent. -/
structure Strip where
  pixels : Pixels
  sent : List (List Symbol)

/-- `write(fd_ws2812,led,sizeof(struct led_data))` -/
def writeLed (info : LedData) (s : Strip) : Option Strip :=
  (BitBang.wsWrite info s.pixels).map fun (pixels, frames, _) => ⟨pixels, s.sent ++ frames⟩

/-- `ioctl(fd_ws2812, RESET, 1)` -/
def resetStrip (s : Strip) : Option Strip :=
  (BitBang.wsIoctl RESET s.pixels).map fun (pixels, frames, _) => ⟨pixels, s.sent ++ frames⟩

/-- The body of the loop that lights the LEDs. -/
def lightLed (ledRgb : LedColors) (index rowIndex : Nat) (s : Strip) : Option Strip :=
  (ledRgb.load ((rowIndex : Int) - index)).bind fun rgb =>
    writeLed ⟨Int32.ofNat (rowIndex % 16), rgb red, rgb green, rgb blue⟩ s

/-- The body of the loop that turns them off. -/
def darkenLed (rowIndex : Nat) (s : Strip) : Option Strip :=
  writeLed ⟨Int32.ofNat (rowIndex % 16), 0, 0, 0⟩ s

def lightLeds (ledRgb : LedColors) (totalLeds index : Nat) : Strip → Option Strip :=
  forRange (lightLed ledRgb index) index totalLeds

def darkenLeds (totalLeds index : Nat) : Strip → Option Strip := forRange darkenLed index totalLeds

/-- One step, with the pause between the two loops. -/
def displayStep (ledRgb : LedColors) (totalLeds index : Nat) (s : Strip) : Option Strip :=
  (lightLeds ledRgb totalLeds index s).bind (darkenLeds totalLeds index)

/-- `repeat_loop*16` steps. -/
def displaySteps (repeatLoop : Int32) : Nat := (repeatLoop * 16).toInt.toNat

/-- The first passes of `do … while(repeat_infinity == 1)`. There is one unless the display
repeats for ever. -/
def displayPasses (ledRgb : LedColors) (totalLeds : Nat) (repeatLoop : Int32) (passes : Nat) :
    Strip → Option Strip :=
  forRange (fun _ => forRange (displayStep ledRgb totalLeds) 0 (displaySteps repeatLoop)) 0 passes

/-! ## The circle -/

def ledAt (rowIndex : Nat) : Fin 16 := ⟨rowIndex % 16, Nat.mod_lt rowIndex (by decide)⟩

/-- How many LEDs after the first one of the step an LED is. -/
def offset (index : Nat) (i : Fin 16) : Nat := (i.val + 16 - index % 16) % 16

theorem offset_ledAt (index : Nat) {j : Nat} (hj : j < 16) :
    offset index (ledAt (index + j)) = j := by
  simp only [offset, ledAt]
  omega

theorem ledAt_offset (index : Nat) (i : Fin 16) : ledAt (index + offset index i) = i := by
  refine Fin.ext ?_
  simp only [offset, ledAt]
  omega

theorem offset_eq_iff {index j : Nat} (hj : j < 16) (i : Fin 16) :
    offset index i = j ↔ i = ledAt (index + j) := by
  constructor
  · rintro rfl
    exact (ledAt_offset index i).symm
  · rintro rfl
    exact offset_ledAt index hj

/-- The bits of colour `j`. -/
def colorOf (ledRgb : LedColors) (j : Nat) : Fin 24 → Bool :=
  if h : j < 12 then colorBits (ledRgb ⟨j, h⟩ green) (ledRgb ⟨j, h⟩ red) (ledRgb ⟨j, h⟩ blue)
  else fun _ => false

/-- The LEDs from the `first` one of the step up to the `last` show their colours. -/
def window (ledRgb : LedColors) (index first last : Nat) : Picture := fun i =>
  if first ≤ offset index i ∧ offset index i < last then colorOf ledRgb (offset index i)
  else fun _ => false

theorem window_empty (ledRgb : LedColors) (index n : Nat) : window ledRgb index n n = dark := by
  funext i
  exact if_neg (by omega)

/-! ## What a write leaves -/

section Display

variable {ledRgb : LedColors} {s : Strip}

/-- The rows show the picture, and the last frame sent was the picture's. -/
structure Strip.Sent (s : Strip) (p : Picture) : Prop where
  rows : s.pixels.ledsPixelData = p.rows bitBang
  last : s.sent.getLast? = some p.frame

theorem writeLed_sent {p : Picture} (h : s.pixels.ledsPixelData = p.rows bitBang) (rowIndex : Nat)
    (red green blue : Int32) :
    ∃ s', writeLed ⟨Int32.ofNat (rowIndex % 16), red, green, blue⟩ s = some s' ∧
      s'.Sent fun i => if i = ledAt rowIndex then colorBits green red blue else p i := by
  have hnumber : (Int32.ofNat (rowIndex % 16)).toInt = (rowIndex % 16 : Nat) :=
    Int32.toInt_ofNat_of_lt (by omega)
  let info : LedData := ⟨Int32.ofNat (rowIndex % 16), red, green, blue⟩
  have hon : OnStrip [.write info] := by
    intro info' hmem
    obtain rfl := WsOp.write.inj (List.mem_singleton.mp hmem)
    rw [hnumber]
    omega
  have hafter : p.after (.write info) =
      fun i => if i = ledAt rowIndex then colorBits green red blue else p i := by
    funext i
    have hiff : info.ledNumber.toInt = (i : Nat) ↔ i = ledAt rowIndex := by
      rw [hnumber, Int.natCast_inj, Fin.ext_iff]
      exact eq_comm
    exact if_congr hiff rfl rfl
  obtain ⟨pixels, hop, hrows⟩ := wsOp_eq bitBang h hon
  have hanswer : (p.after (.write info)).answer bitBang (.write info) =
      ([(p.after (.write info)).frame], 0) := by simp [Picture.answer]
  have hwrite : BitBang.wsWrite info s.pixels =
      some (pixels, [(p.after (.write info)).frame], 0) := hop.trans (by rw [hanswer])
  rw [hafter] at hwrite hrows
  exact ⟨_, by rw [writeLed, hwrite]; rfl, hrows, List.getLast?_concat⟩

theorem resetStrip_dark (s : Strip) :
    ∃ s', resetStrip s = some s' ∧ s'.pixels.ledsPixelData = dark.rows bitBang := by
  obtain ⟨row, hreset⟩ := resetLeds_eq bitBang s.pixels
  refine ⟨_, by rw [resetStrip, BitBang.wsIoctl, Ws2812.wsIoctl, if_pos rfl, hreset]; rfl, rfl⟩

/-! ## One step -/

/-- The loop that lights the LEDs, up to an LED. -/
structure Lighting (ledRgb : LedColors) (index k : Nat) (s : Strip) : Prop where
  rows : s.pixels.ledsPixelData = (window ledRgb index 0 (k - index)).rows bitBang
  last : index < k → s.sent.getLast? = some (window ledRgb index 0 (k - index)).frame

theorem lightLed_step {index k : Nat} (hk : k < 12) (h : Lighting ledRgb index (index + k) s) :
    ∃ s', lightLed ledRgb index (index + k) s = some s' ∧
      Lighting ledRgb index (index + k + 1) s' := by
  have hload : ledRgb.load (((index + k : Nat) : Int) - index) = some (ledRgb ⟨k, hk⟩) := by
    have hindex : (((index + k : Nat) : Int) - index) = (k : Nat) := by omega
    rw [hindex]
    exact CArray.load_fin ledRgb ⟨k, hk⟩
  obtain ⟨s', hwrite, hsent⟩ := writeLed_sent h.rows (index + k)
    (ledRgb ⟨k, hk⟩ red) (ledRgb ⟨k, hk⟩ green) (ledRgb ⟨k, hk⟩ blue)
  have hwindow : (fun i => if i = ledAt (index + k) then
      colorBits (ledRgb ⟨k, hk⟩ green) (ledRgb ⟨k, hk⟩ red) (ledRgb ⟨k, hk⟩ blue)
      else window ledRgb index 0 (index + k - index) i) =
        window ledRgb index 0 (index + k + 1 - index) := by
    funext i
    have hat := @offset_eq_iff index k (by omega) i
    by_cases hi : i = ledAt (index + k)
    · rw [if_pos hi, window, hat.mpr hi, if_pos (by omega), colorOf, dif_pos hk]
    · have hne : offset index i ≠ k := mt hat.mp hi
      rw [if_neg hi]
      exact if_congr (by omega) rfl rfl
  rw [hwindow] at hsent
  exact ⟨s', by rw [lightLed, hload, Option.bind_some, hwrite], hsent.rows, fun _ => hsent.last⟩

/-- At the pause the first `n` LEDs from the step's on show their colours. -/
theorem lightLeds_eq {n : Nat} (hn : n ≤ 12) (index : Nat)
    (h : s.pixels.ledsPixelData = dark.rows bitBang) :
    ∃ s', lightLeds ledRgb n index s = some s' ∧ Lighting ledRgb index (index + n) s' := by
  refine forRange_invariant (Lighting ledRgb index) ?_ ⟨?_, fun hlt => absurd hlt (lt_irrefl _)⟩
  · intro k s₁ hle hlt hs₁
    obtain ⟨j, rfl⟩ := Nat.exists_eq_add_of_le hle
    exact lightLed_step (by omega) hs₁
  · rw [Nat.sub_self, window_empty]
    exact h

/-- The loop that turns the LEDs off, up to an LED. -/
def Darkening (ledRgb : LedColors) (n index k : Nat) (s : Strip) : Prop :=
  s.pixels.ledsPixelData = (window ledRgb index (k - index) n).rows bitBang

theorem darkenLed_step {n index k : Nat} (hk : k < n) (hn : n ≤ 12)
    (h : Darkening ledRgb n index (index + k) s) :
    ∃ s', darkenLed (index + k) s = some s' ∧ Darkening ledRgb n index (index + k + 1) s' := by
  obtain ⟨s', hwrite, hsent⟩ := writeLed_sent h (index + k) 0 0 0
  refine ⟨s', hwrite, hsent.rows.trans (congrArg (Picture.rows bitBang) (funext fun i => ?_))⟩
  have hat := @offset_eq_iff index k (by omega) i
  by_cases hi : i = ledAt (index + k)
  · have hoff : ¬ (index + k + 1 - index ≤ offset index i ∧ offset index i < n) := by
      rw [hat.mpr hi]
      omega
    rw [if_pos hi, window, if_neg hoff]
    funext bit
    simp [colorBits]
  · have hne : offset index i ≠ k := mt hat.mp hi
    rw [if_neg hi]
    exact if_congr (by omega) rfl rfl

theorem darkenLeds_eq {n : Nat} (hn : n ≤ 12) (index : Nat)
    (h : s.pixels.ledsPixelData = (window ledRgb index 0 n).rows bitBang) :
    ∃ s', darkenLeds n index s = some s' ∧ s'.pixels.ledsPixelData = dark.rows bitBang := by
  have hfirst : Darkening ledRgb n index index s := by
    rw [Darkening, Nat.sub_self]
    exact h
  have hbody : ∀ k s₁, index ≤ k → k < index + n → Darkening ledRgb n index k s₁ →
      ∃ s₂, darkenLed k s₁ = some s₂ ∧ Darkening ledRgb n index (k + 1) s₂ := by
    intro k s₁ hle hlt hs₁
    obtain ⟨j, rfl⟩ := Nat.exists_eq_add_of_le hle
    exact darkenLed_step (by omega) hn hs₁
  obtain ⟨s', hloop, hs'⟩ := forRange_invariant (Darkening ledRgb n index) hbody hfirst
  refine ⟨s', hloop, hs'.trans ?_⟩
  rw [Nat.add_sub_cancel_left, window_empty]

/-! ## Whole runs -/

theorem displayStep_dark {n : Nat} (hn : n ≤ 12) (index : Nat)
    (h : s.pixels.ledsPixelData = dark.rows bitBang) :
    ∃ s', displayStep ledRgb n index s = some s' ∧
      s'.pixels.ledsPixelData = dark.rows bitBang := by
  obtain ⟨s₁, hlight, hs₁⟩ := @lightLeds_eq ledRgb s n hn index h
  have hrows := hs₁.rows
  rw [Nat.add_sub_cancel_left] at hrows
  obtain ⟨s₂, hdarken, hs₂⟩ := darkenLeds_eq hn index hrows
  exact ⟨s₂, by rw [displayStep, hlight, Option.bind_some, hdarken], hs₂⟩

/-- Steps leave the strip dark, however many there are. -/
theorem displaySteps_dark {n : Nat} (hn : n ≤ 12) (steps : Nat)
    (h : s.pixels.ledsPixelData = dark.rows bitBang) :
    ∃ s', forRange (displayStep ledRgb n) 0 steps s = some s' ∧
      s'.pixels.ledsPixelData = dark.rows bitBang :=
  forRange_invariant (fun _ (s' : Strip) => s'.pixels.ledsPixelData = dark.rows bitBang)
    (fun index _ _ _ hdark => displayStep_dark hn index hdark) h

theorem displayPasses_dark {n : Nat} (hn : n ≤ 12) (repeatLoop : Int32) (passes : Nat)
    (h : s.pixels.ledsPixelData = dark.rows bitBang) :
    ∃ s', displayPasses ledRgb n repeatLoop passes s = some s' ∧
      s'.pixels.ledsPixelData = dark.rows bitBang :=
  forRange_invariant (fun _ (s' : Strip) => s'.pixels.ledsPixelData = dark.rows bitBang)
    (fun _ _ _ _ hdark => displaySteps_dark hn (displaySteps repeatLoop) hdark) h

end Display

/-- The three bytes of an LED in a frame are the intensities modulo 256. -/
structure ShowsColor (frame : List Symbol) (i : Fin 16) (rgb : CArray 3 Int32) : Prop where
  greenByte : (readNumber frame (24 * i) : Int) = (rgb green).toInt % 256
  redByte : (readNumber frame (24 * i + 8) : Int) = (rgb red).toInt % 256
  blueByte : (readNumber frame (24 * i + 16) : Int) = (rgb blue).toInt % 256

/-- Colour `j` is on LED `index + j`, counted in a circle, for each of the `n` colours, and every
other LED is off. -/
structure ShowsRotation (ledRgb : LedColors) (n index : Nat) (frame : List Symbol) : Prop where
  lit : ∀ j (hj : j < 12), j < n → ShowsColor frame (ledAt (index + j)) (ledRgb ⟨j, hj⟩)
  off : ∀ i, (∀ j < n, i ≠ ledAt (index + j)) → ShowsColor frame i fun _ => 0

theorem showsColor_of_row {p : Picture} {i : Fin 16} {rgb : CArray 3 Int32}
    (h : p i = colorBits (rgb green) (rgb red) (rgb blue)) : ShowsColor p.frame i rgb := by
  obtain ⟨hgreen, hred, hblue⟩ := readNumber_colorBits h
  exact ⟨hgreen, hred, hblue⟩

theorem showsRotation_window (ledRgb : LedColors) (n index : Nat) :
    ShowsRotation ledRgb n index (window ledRgb index 0 n).frame where
  lit := by
    intro j hj hjn
    refine showsColor_of_row ?_
    rw [window, offset_ledAt index (by omega), if_pos ⟨Nat.zero_le j, hjn⟩, colorOf, dif_pos hj]
  off := by
    intro i hi
    refine showsColor_of_row ?_
    have hout : ¬ (0 ≤ offset index i ∧ offset index i < n) := fun hin =>
      hi _ hin.2 (ledAt_offset index i).symm
    rw [window, if_neg hout]
    funext bit
    simp [colorBits]

/-- From a dark strip on, in every pass and at every step: the display is defined, at the pause
the rows and the frame last sent show the colours in order from the step's LED on, and at the end
of the step the strip is dark again. -/
theorem display_rotates {n : Nat} (hn : 1 ≤ n ∧ n ≤ 12) (ledRgb : LedColors) (repeatLoop : Int32)
    {s₀ : Strip} (hs₀ : s₀.pixels.ledsPixelData = fun _ _ => 0) (passes index : Nat) :
    ∃ s pause after,
      ((displayPasses ledRgb n repeatLoop passes s₀).bind
        (forRange (displayStep ledRgb n) 0 index)) = some s ∧
      lightLeds ledRgb n index s = some pause ∧
      ShowsRotation ledRgb n index (writeToRegisters pause.pixels.ledsPixelData) ∧
      pause.sent.getLast? = some (writeToRegisters pause.pixels.ledsPixelData) ∧
      darkenLeds n index pause = some after ∧ after.pixels.ledsPixelData = fun _ _ => 0 := by
  have hdark : (fun _ _ => 0 : Rows) = dark.rows bitBang := rfl
  rw [hdark] at hs₀ ⊢
  obtain ⟨s₁, hpasses, hs₁⟩ := @displayPasses_dark ledRgb s₀ n hn.2 repeatLoop passes hs₀
  obtain ⟨s, hsteps, hs⟩ := @displaySteps_dark ledRgb s₁ n hn.2 index hs₁
  obtain ⟨pause, hlight, hpause⟩ := @lightLeds_eq ledRgb s n hn.2 index hs
  have hrows := hpause.rows
  have hlast := hpause.last (by omega)
  rw [Nat.add_sub_cancel_left] at hrows hlast
  obtain ⟨after, hdarken, hafter⟩ := darkenLeds_eq hn.2 index hrows
  refine ⟨s, pause, after, by rw [hpasses, Option.bind_some, hsteps], hlight, ?_, ?_, hdarken,
    hafter⟩
  · rw [hrows, writeToRegisters_rows]
    exact showsRotation_window ledRgb n index
  · rw [hrows, writeToRegisters_rows]
    exact hlast

/-- Five colours at step 14, where they go past LED 15, in the third pass. -/
theorem display_rotates_past_the_end :
    ∃ s pause after,
      ((displayPasses (fun j _ => Int32.ofNat j) 5 1 2 ⟨initialPixels, []⟩).bind
        (forRange (displayStep (fun j _ => Int32.ofNat j) 5) 0 14)) = some s ∧
      lightLeds (fun j _ => Int32.ofNat j) 5 14 s = some pause ∧
      ShowsRotation (fun j _ => Int32.ofNat j) 5 14
        (writeToRegisters pause.pixels.ledsPixelData) ∧
      pause.sent.getLast? = some (writeToRegisters pause.pixels.ledsPixelData) ∧
      darkenLeds 5 14 pause = some after ∧ after.pixels.ledsPixelData = fun _ _ => 0 :=
  display_rotates (by decide) _ 1 rfl 2 14

end KernelDrivers.Ws2812
