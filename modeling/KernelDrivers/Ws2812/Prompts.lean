import KernelDrivers.Ws2812.Display
import Mathlib.Data.Fin.VecNotation

/-!
# The prompts of the test program

The program asks for a number of LEDs, a number of repetitions and a colour for each LED. The
first prompt takes up to 16 LEDs where the tables have room for 12, and the last one looks at the
number of LEDs again where it should look at the colour. So a table is left when a colour below 1
is entered, or one for a thirteenth LED.
-/

namespace KernelDrivers.Ws2812
open Lib

/-- `color_panel` -/
def colorPanel : CArray 12 (CArray 3 Int32) :=
  ![![255, 0, 0], ![0, 255, 0], ![0, 0, 255], ![255, 255, 0], ![255, 255, 255], ![138, 43, 226],
    ![0, 255, 255], ![255, 0, 255], ![255, 165, 0], ![139, 69, 19], ![128, 0, 0], ![255, 105, 180]]

/-- The prompt that waits for a number. The three intensities are asked for a custom colour. -/
inductive Prompt where
  | totalLeds
  | repeatLoop
  | ledColor (rowIndex : Nat)
  | intensity (rowIndex : Nat) (channel : Fin 3)
  | answered
  deriving DecidableEq

/-- The variables of `main` and the prompt it is at. -/
structure Program where
  totalLeds : Int32
  repeatLoop : Int32
  ledRgb : LedColors
  prompt : Prompt

/-- `led_rgb` is initialised, the other variables are not. -/
def programStart (totalLeds repeatLoop : Int32) : Program :=
  ⟨totalLeds, repeatLoop, fun _ _ => 0, .totalLeds⟩

/-- The test of the loop over the LEDs, at its next one. -/
def Program.nextRow (s : Program) (rowIndex : Nat) : Program :=
  { s with
    prompt := if (rowIndex : Int) < s.totalLeds.toInt then .ledColor rowIndex else .answered }

/-- `led_rgb[row][channel] = intensity` -/
def Program.setIntensity (s : Program) (row : Int) (channel : Fin 3) (intensity : Int32) :
    Option Program :=
  (s.ledRgb.load row).bind fun rgb =>
    (s.ledRgb.store row (Function.update rgb channel intensity)).map fun ledRgb =>
      { s with ledRgb }

/-- The three assignments of a colour of the panel. -/
def Program.assignColor (s : Program) (row ledColor : Int) : Option Program :=
  (colorPanel.load (ledColor - 1)).bind fun rgb =>
    (s.setIntensity row red (rgb red)).bind fun s =>
      (s.setIntensity row green (rgb green)).bind fun s => s.setIntensity row blue (rgb blue)

/-- The program up to the next prompt, when a number is entered. The address of
`led_rgb[row_index]` is taken before the intensities are read. After the last prompt nothing is
read any more. Where a table is left there is no result; the program itself reads or writes what
is there and goes on. -/
def enterNumber (s : Program) (entry : Int32) : Option (Program × Unit) :=
  match s.prompt with
  | .totalLeds =>
    some ({ s with
      totalLeds := entry
      prompt := if entry.toInt > 0 ∧ entry.toInt ≤ 16 then .repeatLoop else .totalLeds }, ())
  | .repeatLoop => some (({ s with repeatLoop := entry }).nextRow 0, ())
  | .ledColor rowIndex =>
    if s.totalLeds.toInt > 0 ∧ entry.toInt ≤ 13 then
      if entry.toInt = 13 then
        (s.ledRgb.load rowIndex).map fun _ => ({ s with prompt := .intensity rowIndex red }, ())
      else
        (s.assignColor rowIndex entry.toInt).map fun s => (s.nextRow (rowIndex + 1), ())
    else some (s, ())
  | .intensity rowIndex channel =>
    (s.setIntensity rowIndex channel entry).map fun s =>
      (if h : channel.val + 1 < 3 then
        { s with prompt := .intensity rowIndex ⟨channel.val + 1, h⟩ }
      else s.nextRow (rowIndex + 1), ())
  | .answered => some (s, ())

/-! ## Accesses -/

/-- A row of one of the two tables. -/
inductive Access where
  | ledRgb (row : Int)
  | colorPanel (index : Int)
  deriving DecidableEq

/-- Both tables have 12 rows. -/
def Access.Inside : Access → Prop
  | .ledRgb row => 0 ≤ row ∧ row < 12
  | .colorPanel index => 0 ≤ index ∧ index < 12

/-- The rows used when a number is entered. -/
def accesses (s : Program) (entry : Int32) : List Access :=
  match s.prompt with
  | .ledColor rowIndex =>
    if s.totalLeds.toInt > 0 ∧ entry.toInt ≤ 13 then
      if entry.toInt = 13 then [.ledRgb rowIndex]
      else [.colorPanel (entry.toInt - 1), .ledRgb rowIndex]
    else []
  | .intensity rowIndex _ => [.ledRgb rowIndex]
  | _ => []

/-- The rows used at a step of the display. -/
def displayAccesses (totalLeds : Int32) (index : Nat) : List Access :=
  (List.range totalLeds.toInt.toNat).map fun j : Nat => .ledRgb (((index + j : Nat) : Int) - index)

/-- `if(repeat_loop == 0) repeat_loop = 1` -/
def Program.repetitions (s : Program) : Int32 := if s.repeatLoop = 0 then 1 else s.repeatLoop

/-- Every access to the tables is inside while the numbers are entered, and at every step of the
display once they all are. -/
structure StaysInside (s : Program) (entries : List Int32) : Prop where
  prompts : Along enterNumber (fun s entry => ∀ access ∈ accesses s entry, access.Inside) s entries
  display : ∀ t os, run enterNumber s entries = some (t, os) → t.prompt = .answered →
    ∀ index < displaySteps t.repetitions, ∀ access ∈ displayAccesses t.totalLeds index,
      access.Inside

/-! ## What is defined -/

theorem setIntensity_of_inside (s : Program) {row : Int} (h : 0 ≤ row ∧ row < 12)
    (channel : Fin 3) (intensity : Int32) :
    ∃ ledRgb, s.setIntensity row channel intensity = some { s with ledRgb } := by
  obtain ⟨rgb, hload⟩ := s.ledRgb.load_defined_iff.mpr h
  have hstore : ∃ ledRgb, s.ledRgb.store row (Function.update rgb channel intensity) =
      some ledRgb := ⟨_, dif_pos h⟩
  obtain ⟨ledRgb, hstore⟩ := hstore
  exact ⟨ledRgb, by rw [Program.setIntensity, hload, Option.bind_some, hstore, Option.map_some]⟩

theorem setIntensity_eq_some {s s' : Program} {row : Int} {channel : Fin 3} {intensity : Int32}
    (h : s.setIntensity row channel intensity = some s') :
    (0 ≤ row ∧ row < 12) ∧ ∃ ledRgb, s' = { s with ledRgb } := by
  obtain ⟨rgb, hload, h⟩ := Option.bind_eq_some_iff.mp h
  obtain ⟨ledRgb, -, rfl⟩ := Option.map_eq_some_iff.mp h
  exact ⟨s.ledRgb.load_defined_iff.mp ⟨rgb, hload⟩, ledRgb, rfl⟩

theorem assignColor_of_inside (s : Program) {row ledColor : Int} (h : 0 ≤ row ∧ row < 12)
    (hcolor : 0 ≤ ledColor - 1 ∧ ledColor - 1 < 12) :
    ∃ ledRgb, s.assignColor row ledColor = some { s with ledRgb } := by
  obtain ⟨rgb, hload⟩ := colorPanel.load_defined_iff.mpr hcolor
  obtain ⟨table₁, hred⟩ := setIntensity_of_inside s h red (rgb red)
  obtain ⟨table₂, hgreen⟩ :=
    setIntensity_of_inside { s with ledRgb := table₁ } h green (rgb green)
  obtain ⟨table₃, hblue⟩ :=
    setIntensity_of_inside { s with ledRgb := table₂ } h blue (rgb blue)
  refine ⟨table₃, ?_⟩
  rw [Program.assignColor, hload, Option.bind_some, hred, Option.bind_some, hgreen,
    Option.bind_some, hblue]

theorem assignColor_eq_some {s s' : Program} {row ledColor : Int}
    (h : s.assignColor row ledColor = some s') :
    (0 ≤ row ∧ row < 12) ∧ (0 ≤ ledColor - 1 ∧ ledColor - 1 < 12) ∧
      ∃ ledRgb, s' = { s with ledRgb } := by
  obtain ⟨rgb, hload, h⟩ := Option.bind_eq_some_iff.mp h
  obtain ⟨s₁, hred, h⟩ := Option.bind_eq_some_iff.mp h
  obtain ⟨s₂, hgreen, hblue⟩ := Option.bind_eq_some_iff.mp h
  obtain ⟨hrow, ledRgb, rfl⟩ := setIntensity_eq_some hred
  obtain ⟨-, ledRgb, rfl⟩ := setIntensity_eq_some hgreen
  obtain ⟨-, ledRgb, rfl⟩ := setIntensity_eq_some hblue
  exact ⟨hrow, colorPanel.load_defined_iff.mp ⟨rgb, hload⟩, ledRgb, rfl⟩

theorem setIntensity_defined_iff (s : Program) {row : Int} {channel : Fin 3} {intensity : Int32} :
    (∃ s', s.setIntensity row channel intensity = some s') ↔ 0 ≤ row ∧ row < 12 := by
  constructor
  · rintro ⟨s', h⟩
    exact (setIntensity_eq_some h).1
  · intro hrow
    obtain ⟨ledRgb, hset⟩ := setIntensity_of_inside s hrow channel intensity
    exact ⟨_, hset⟩

theorem assignColor_defined_iff (s : Program) {row ledColor : Int} :
    (∃ s', s.assignColor row ledColor = some s') ↔
      (0 ≤ ledColor - 1 ∧ ledColor - 1 < 12) ∧ 0 ≤ row ∧ row < 12 := by
  constructor
  · rintro ⟨s', h⟩
    obtain ⟨hrow, hcolor, -⟩ := assignColor_eq_some h
    exact ⟨hcolor, hrow⟩
  · rintro ⟨hcolor, hrow⟩
    obtain ⟨ledRgb, hassign⟩ := assignColor_of_inside s hrow hcolor
    exact ⟨_, hassign⟩

theorem exists_map_eq_some {α β : Type} {o : Option α} {f : α → β × Unit} :
    (∃ y, o.map f = some (y, ())) ↔ ∃ x, o = some x := by
  constructor
  · rintro ⟨y, h⟩
    obtain ⟨x, hx, -⟩ := Option.map_eq_some_iff.mp h
    exact ⟨x, hx⟩
  · rintro ⟨x, rfl⟩
    exact ⟨(f x).1, rfl⟩

/-- The program goes on exactly when every access is inside. -/
theorem enterNumber_defined_iff (s : Program) (entry : Int32) :
    (∃ s', enterNumber s entry = some (s', ())) ↔
      ∀ access ∈ accesses s entry, access.Inside := by
  obtain ⟨totalLeds, repeatLoop, ledRgb, prompt⟩ := s
  cases prompt with
  | totalLeds | repeatLoop | answered =>
    exact iff_of_true ⟨_, rfl⟩ fun access hmem => absurd hmem List.not_mem_nil
  | intensity rowIndex channel =>
    refine exists_map_eq_some.trans ((setIntensity_defined_iff _).trans ?_)
    simp only [accesses, List.forall_mem_singleton, Access.Inside]
  | ledColor rowIndex =>
    simp only [enterNumber, accesses]
    split
    next =>
      split
      next =>
        refine exists_map_eq_some.trans (ledRgb.load_defined_iff.trans ?_)
        simp [Access.Inside]
      next =>
        refine exists_map_eq_some.trans ((assignColor_defined_iff _).trans ?_)
        simp [Access.Inside]
    next => exact iff_of_true ⟨_, rfl⟩ fun access hmem => absurd hmem List.not_mem_nil

/-- A step of the display stops at a row that the table does not have. -/
theorem lightLed_defined_iff (ledRgb : LedColors) (index rowIndex : Nat) (s : Strip) :
    (∃ s', lightLed ledRgb index rowIndex s = some s') ↔
      (Access.ledRgb ((rowIndex : Int) - index)).Inside := by
  refine Iff.trans ?_ ledRgb.load_defined_iff
  constructor
  · rintro ⟨s', h⟩
    obtain ⟨rgb, hload, -⟩ := Option.bind_eq_some_iff.mp h
    exact ⟨rgb, hload⟩
  · rintro ⟨rgb, hload⟩
    have hnumber : (Int32.ofNat (rowIndex % 16)).toInt = ((ledAt rowIndex : Fin 16) : Nat) :=
      Int32.toInt_ofNat_of_lt (by omega)
    let info : LedData := ⟨Int32.ofNat (rowIndex % 16), rgb red, rgb green, rgb blue⟩
    have hwrite := @setLedRgb_update _ bitBang s.pixels info (ledAt rowIndex) hnumber
    exact ⟨_, by
      rw [lightLed, hload, Option.bind_some, writeLed, BitBang.wsWrite, wsWrite, hwrite]; rfl⟩

/-! ## Numbers that stay inside -/

/-- A colour that is accepted is at least 1, and it is not one for a thirteenth LED. -/
def ColorFits (s : Program) (entry : Int32) : Prop :=
  ∀ rowIndex, s.prompt = .ledColor rowIndex → entry.toInt ≤ 13 → 1 ≤ entry.toInt ∧ rowIndex < 12

/-- A colour is asked for an LED of those to be lit, and there are at most 12 of them when all
colours fitted. -/
def Program.RowsFit (s : Program) : Prop :=
  match s.prompt with
  | .totalLeds | .repeatLoop => True
  | .ledColor rowIndex => (rowIndex : Int) < s.totalLeds.toInt
  | .intensity rowIndex _ => (rowIndex : Int) < s.totalLeds.toInt ∧ rowIndex < 12
  | .answered => s.totalLeds.toInt ≤ 12

theorem rowsFit_nextRow (s : Program) {rowIndex : Nat} (h : rowIndex ≤ 12) :
    (s.nextRow rowIndex).RowsFit := by
  by_cases hlt : (rowIndex : Int) < s.totalLeds.toInt
  · rw [Program.nextRow, if_pos hlt]
    exact hlt
  · rw [Program.nextRow, if_neg hlt]
    change s.totalLeds.toInt ≤ 12
    omega

theorem accesses_inside_iff {s : Program} (h : s.RowsFit) (entry : Int32) :
    (∀ access ∈ accesses s entry, access.Inside) ↔ ColorFits s entry := by
  obtain ⟨totalLeds, repeatLoop, ledRgb, prompt⟩ := s
  cases prompt with
  | totalLeds | repeatLoop | answered =>
    exact iff_of_true (fun access hmem => absurd hmem List.not_mem_nil) nofun
  | intensity rowIndex channel =>
    have hrow : (0 : Int) ≤ rowIndex ∧ (rowIndex : Int) < 12 := ⟨by omega, by exact_mod_cast h.2⟩
    refine iff_of_true ?_ nofun
    simpa [accesses, Access.Inside] using hrow.2
  | ledColor rowIndex =>
    have hpos : totalLeds.toInt > 0 := by
      have hlt : (rowIndex : Int) < totalLeds.toInt := h
      omega
    simp only [accesses, hpos, true_and, ColorFits, Prompt.ledColor.injEq]
    by_cases hle : entry.toInt ≤ 13
    · by_cases hcustom : entry.toInt = 13
      · simp [hcustom, Access.Inside]
      · have hlt : entry.toInt - 1 < 12 := by omega
        simp [hle, hcustom, Access.Inside, hlt]
    · simp [hle]

theorem rowsFit_step {s s' : Program} {entry : Int32} (h : s.RowsFit) (hfits : ColorFits s entry)
    (hop : enterNumber s entry = some (s', ())) : s'.RowsFit := by
  obtain ⟨totalLeds, repeatLoop, ledRgb, prompt⟩ := s
  cases prompt with
  | totalLeds =>
    obtain ⟨rfl, -⟩ := Prod.mk.inj (Option.some.inj hop)
    unfold Program.RowsFit
    split_ifs <;> trivial
  | repeatLoop =>
    obtain ⟨rfl, -⟩ := Prod.mk.inj (Option.some.inj hop)
    exact rowsFit_nextRow _ (Nat.zero_le 12)
  | ledColor rowIndex =>
    simp only [enterNumber] at hop
    split at hop
    next haccepted =>
      obtain ⟨-, hrow⟩ := hfits rowIndex rfl haccepted.2
      split at hop
      next =>
        obtain ⟨rgb, -, heq⟩ := Option.map_eq_some_iff.mp hop
        obtain ⟨rfl, -⟩ := Prod.mk.inj heq
        exact ⟨h, hrow⟩
      next =>
        obtain ⟨s₁, -, heq⟩ := Option.map_eq_some_iff.mp hop
        obtain ⟨rfl, -⟩ := Prod.mk.inj heq
        exact rowsFit_nextRow s₁ hrow
    next =>
      obtain ⟨rfl, -⟩ := Prod.mk.inj (Option.some.inj hop)
      exact h
  | intensity rowIndex channel =>
    obtain ⟨s₁, hset, heq⟩ := Option.map_eq_some_iff.mp hop
    obtain ⟨-, ledRgb', rfl⟩ := setIntensity_eq_some hset
    obtain ⟨rfl, -⟩ := Prod.mk.inj heq
    split_ifs
    · exact h
    · exact rowsFit_nextRow _ h.2
  | answered =>
    obtain ⟨rfl, -⟩ := Prod.mk.inj (Option.some.inj hop)
    exact h

theorem displayAccesses_inside {totalLeds : Int32} (h : totalLeds.toInt ≤ 12) (index : Nat) :
    ∀ access ∈ displayAccesses totalLeds index, access.Inside := by
  intro access hmem
  obtain ⟨j, hj, rfl⟩ := List.mem_map.mp hmem
  have hlt := List.mem_range.mp hj
  simp only [Access.Inside]
  omega

/-- Whatever numbers are entered, the program stays inside its tables exactly when every colour
that is accepted is at least 1 and none is accepted for a thirteenth LED. -/
theorem staysInside_iff (totalLeds repeatLoop : Int32) (entries : List Int32) :
    StaysInside (programStart totalLeds repeatLoop) entries ↔
      Along enterNumber ColorFits (programStart totalLeds repeatLoop) entries := by
  have hstart : (programStart totalLeds repeatLoop).RowsFit := trivial
  have hstep : ∀ s entry s' o, Program.RowsFit s → ColorFits s entry →
      enterNumber s entry = some (s', o) → s'.RowsFit :=
    fun s entry s' _ h hfits hop => rowsFit_step h hfits hop
  have hprompts := along_congr enterNumber (fun s entry h => accesses_inside_iff h entry) hstep
    hstart entries
  constructor
  · intro h
    exact hprompts.mp h.prompts
  · intro h
    refine ⟨hprompts.mpr h, fun t os hrun hanswered index _ => ?_⟩
    have ht := run_along enterNumber hstep hstart h hrun
    rw [Program.RowsFit, hanswered] at ht
    exact displayAccesses_inside ht index

/-- Colour 0 for the only LED, and a colour for each of 13 LEDs. -/
theorem not_staysInside :
    ¬ StaysInside (programStart 0 0) [1, 1, 0] ∧
      ¬ StaysInside (programStart 0 0) [13, 1, 1, 2, 3, 4, 5, 6, 7, 8, 9, 10, 11, 12, 12] := by
  constructor
  · intro h
    have hpanel := (h.prompts.2 _ _ rfl).2 _ _ rfl
    exact absurd (hpanel.1 (.colorPanel (-1)) (by decide)) (by simp [Access.Inside])
  · intro h
    have hrun : ∃ t os, run enterNumber (programStart 0 0)
        [13, 1, 1, 2, 3, 4, 5, 6, 7, 8, 9, 10, 11, 12] = some (t, os) ∧
        t.prompt = .ledColor 12 ∧ t.totalLeds = 13 := ⟨_, _, rfl, rfl, rfl⟩
    obtain ⟨t, os, hrun, hprompt, htotal⟩ := hrun
    have hlast : Along enterNumber _ t [12] := Along.of_append enterNumber h.prompts hrun
    have haccess := hlast.1 (.ledRgb 12)
    simp [accesses, hprompt, htotal, Access.Inside] at haccess

end KernelDrivers.Ws2812
