import KernelDrivers.Ws2812.Prompts
import KernelDrivers.Ws2812.Shown

/-!
# The dialog of the test program

The numbers entered are a number of LEDs, a number of repetitions and a colour for each LED, each
after the ones that the program refused. The program comes to the end of its questions without
leaving its tables exactly on these, with their values, and then the strip shows the colours one
after the other, with their bits backwards.
-/

namespace KernelDrivers.Ws2812
open Lib

/-! ## The grammar -/

/-- A colour of the panel, or three intensities. -/
inductive ColorChoice where
  | panel (k : Fin 12)
  | custom (rgb : CArray 3 Int32)

namespace ColorChoice

def rgb : ColorChoice → CArray 3 Int32
  | .panel k => colorPanel k
  | .custom rgb => rgb

/-- What is entered for it. -/
def numbers : ColorChoice → List Int32
  | .panel k => [Int32.ofNat (k + 1)]
  | .custom rgb => [13, rgb red, rgb green, rgb blue]

end ColorChoice

/-- The colour of an LED and the numbers refused before it. -/
structure ColorAnswer where
  refused : List Int32
  choice : ColorChoice
  above : ∀ entry ∈ refused, 13 < entry.toInt

def ColorAnswer.numbers (answer : ColorAnswer) : List Int32 :=
  answer.refused ++ answer.choice.numbers

/-- Everything that is entered, with a colour for each LED. -/
structure Dialog where
  refused : List Int32
  totalLeds : Int32
  repeatLoop : Int32
  colors : List ColorAnswer
  outside : ∀ entry ∈ refused, ¬ (entry.toInt > 0 ∧ entry.toInt ≤ 16)
  count : totalLeds.toInt = colors.length
  fits : 1 ≤ colors.length ∧ colors.length ≤ 12

def Dialog.numbers (dialog : Dialog) : List Int32 :=
  dialog.refused ++ dialog.totalLeds :: dialog.repeatLoop ::
    dialog.colors.flatMap ColorAnswer.numbers

/-- The rows of the table that are set. -/
def rowsOf (colors : List ColorAnswer) : LedColors :=
  fun j => colors[j.val]?.elim (fun _ => 0) fun answer => answer.choice.rgb

/-- The variables at the end. -/
def Dialog.program (dialog : Dialog) : Program :=
  ⟨dialog.totalLeds, dialog.repeatLoop, rowsOf dialog.colors, .answered⟩

theorem rowsOf_snoc (colors : List ColorAnswer) (answer : ColorAnswer) (row : Fin 12)
    (hrow : row.val = colors.length) :
    Function.update (rowsOf colors) row answer.choice.rgb = rowsOf (colors ++ [answer]) := by
  funext j
  by_cases hj : j = row
  · subst hj
    simp [rowsOf, hrow]
  · have hne : j.val ≠ colors.length := fun h => hj (Fin.ext (h.trans hrow.symm))
    rw [Function.update_of_ne hj]
    rcases Nat.lt_or_gt_of_ne hne with hlt | hgt
    · simp only [rowsOf, List.getElem?_append_left hlt]
    · simp only [rowsOf]
      rw [List.getElem?_eq_none (by omega), List.getElem?_eq_none (by simp; omega)]

/-! ## One entry -/

/-- The program takes the numbers without leaving a table and is in the last state. -/
def Enters (s : Program) (entries : List Int32) (t : Program) : Prop :=
  ∃ os, run enterNumber s entries = some (t, os)

@[simp] theorem enters_nil {s t : Program} : Enters s [] t ↔ s = t := by
  simp [Enters]

@[simp] theorem enters_cons {s t : Program} {entry : Int32} {entries : List Int32} :
    Enters s (entry :: entries) t ↔
      ∃ s', enterNumber s entry = some (s', ()) ∧ Enters s' entries t := by
  constructor
  · rintro ⟨os, hrun⟩
    obtain ⟨s', ⟨⟩, os', hentry, hrest, -⟩ := run_cons_eq_some.mp hrun
    exact ⟨s', hentry, os', hrest⟩
  · rintro ⟨s', hentry, os, hrest⟩
    exact ⟨() :: os, run_cons_eq_some.mpr ⟨s', (), os, hentry, hrest, rfl⟩⟩

theorem enters_of_answered {s t : Program} (h : s.prompt = .answered) {entries : List Int32} :
    Enters s entries t ↔ s = t := by
  induction entries with
  | nil => exact enters_nil
  | cons entry entries ih =>
    have hentry : enterNumber s entry = some (s, ()) := by rw [enterNumber, h]
    simp [hentry, ih]

theorem setIntensity_fin (s : Program) (row : Fin 12) (channel : Fin 3) (intensity : Int32) :
    s.setIntensity (row.val : Int) channel intensity = some { s with
      ledRgb := Function.update s.ledRgb row
        (Function.update (s.ledRgb row) channel intensity) } := by
  simp [Program.setIntensity, CArray.load_fin, CArray.store_fin]

theorem channels_eq (rgb rgb' : CArray 3 Int32) :
    Function.update (Function.update (Function.update rgb red (rgb' red)) green (rgb' green)) blue
      (rgb' blue) = rgb' := by
  funext channel
  match channel with
  | 0 => rfl
  | 1 => rfl
  | 2 => rfl

theorem assignColor_fin (s : Program) (row k : Fin 12) :
    s.assignColor (row.val : Int) ((k.val + 1 : Nat) : Int) = some { s with
      ledRgb := Function.update s.ledRgb row (colorPanel k) } := by
  have hload : colorPanel.load (((k.val + 1 : Nat) : Int) - 1) = some (colorPanel k) := by
    have hindex : ((k.val + 1 : Nat) : Int) - 1 = (k.val : Int) := by omega
    rw [hindex]
    exact CArray.load_fin colorPanel k
  rw [Program.assignColor, hload, Option.bind_some, setIntensity_fin, Option.bind_some,
    setIntensity_fin, Option.bind_some, setIntensity_fin]
  simp only [Function.update_self, Function.update_idem, channels_eq]

/-! ## The colours -/

section Colors

variable {totalLeds repeatLoop : Int32} {colors : List ColorAnswer}

/-- The program with some colours entered, at the prompt that follows. -/
def asking (totalLeds repeatLoop : Int32) (colors : List ColorAnswer) : Program :=
  (Program.mk totalLeds repeatLoop (rowsOf colors) .answered).nextRow colors.length

theorem asking_of_lt (h : (colors.length : Int) < totalLeds.toInt) :
    asking totalLeds repeatLoop colors =
      ⟨totalLeds, repeatLoop, rowsOf colors, .ledColor colors.length⟩ := by
  rw [asking, Program.nextRow, if_pos h]

theorem asking_of_eq (repeatLoop : Int32) (h : totalLeds.toInt = colors.length) :
    asking totalLeds repeatLoop colors = ⟨totalLeds, repeatLoop, rowsOf colors, .answered⟩ := by
  rw [asking, Program.nextRow, if_neg (h.symm ▸ lt_irrefl (colors.length : Int))]

/-- Setting the row of the next LED and going on. -/
theorem nextRow_set (answer : ColorAnswer) (row : Fin 12) (hrow : row.val = colors.length)
    (prompt : Prompt) :
    (Program.mk totalLeds repeatLoop (Function.update (rowsOf colors) row answer.choice.rgb)
      prompt).nextRow (colors.length + 1) =
      asking totalLeds repeatLoop (colors ++ [answer]) := by
  rw [rowsOf_snoc colors answer row hrow, asking, List.length_append, List.length_singleton]
  rfl

theorem ofNat_of_toInt {x : Int32} {n : Nat} (h : x.toInt = n) : x = Int32.ofNat n := by
  have hx := Int32.ofInt_toInt x
  rw [h] at hx
  exact hx.symm

/-- What is taken at the prompt for a colour. -/
theorem enter_color_iff (h : (colors.length : Int) < totalLeds.toInt) {entry : Int32}
    {s' : Program} : enterNumber (asking totalLeds repeatLoop colors) entry = some (s', ()) ↔
      (13 < entry.toInt ∧ s' = asking totalLeds repeatLoop colors) ∨
      (entry = 13 ∧ colors.length < 12 ∧
        s' = ⟨totalLeds, repeatLoop, rowsOf colors, .intensity colors.length red⟩) ∨
      ∃ (k : Fin 12) (hrow : colors.length < 12), entry = Int32.ofNat (k + 1) ∧
        s' = (Program.mk totalLeds repeatLoop
          (Function.update (rowsOf colors) ⟨colors.length, hrow⟩ (colorPanel k))
          (.ledColor colors.length)).nextRow (colors.length + 1) := by
  have hpos : totalLeds.toInt > 0 := by omega
  have hnumber : ∀ k : Fin 12, (Int32.ofNat (k.val + 1)).toInt = ((k.val + 1 : Nat) : Int) :=
    fun k => Int32.toInt_ofNat_of_lt (by omega)
  have hthirteen : (13 : Int32).toInt = 13 := by decide
  rw [asking_of_lt h]
  simp only [enterNumber, hpos, true_and]
  constructor
  · intro hentry
    split_ifs at hentry with hle hcustom
    · obtain ⟨rgb, hload, heq⟩ := Option.map_eq_some_iff.mp hentry
      obtain ⟨rfl, -⟩ := Prod.mk.inj heq
      have hrow := ((rowsOf colors).load_defined_iff.mp ⟨rgb, hload⟩).2
      exact .inr (.inl ⟨Int32.toInt_inj.mp (hcustom.trans hthirteen.symm), by omega, rfl⟩)
    · obtain ⟨s₁, hassign, heq⟩ := Option.map_eq_some_iff.mp hentry
      obtain ⟨rfl, -⟩ := Prod.mk.inj heq
      obtain ⟨hrow, hcolor, -⟩ := assignColor_eq_some hassign
      have hlt : colors.length < 12 := by omega
      have hk : entry.toInt = (((entry.toInt - 1).toNat + 1 : Nat) : Int) := by omega
      have hpanel := assignColor_fin
        ⟨totalLeds, repeatLoop, rowsOf colors, .ledColor colors.length⟩ ⟨colors.length, hlt⟩
        ⟨(entry.toInt - 1).toNat, by omega⟩
      rw [hk] at hassign
      obtain rfl := Option.some.inj (hpanel.symm.trans hassign)
      exact .inr (.inr ⟨⟨(entry.toInt - 1).toNat, by omega⟩, hlt, ofNat_of_toInt hk, rfl⟩)
    · obtain ⟨rfl, -⟩ := Prod.mk.inj (Option.some.inj hentry)
      exact .inl ⟨by omega, rfl⟩
  · rintro (⟨hgt, rfl⟩ | ⟨rfl, hrow, rfl⟩ | ⟨k, hrow, rfl, rfl⟩)
    · rw [if_neg (by omega)]
    · have hload := (rowsOf colors).load_fin ⟨colors.length, hrow⟩
      rw [if_pos (by omega), if_pos hthirteen, hload, Option.map_some]
    · have hpanel := assignColor_fin
        ⟨totalLeds, repeatLoop, rowsOf colors, .ledColor colors.length⟩ ⟨colors.length, hrow⟩ k
      have hk := hnumber k
      rw [if_pos (by omega), if_neg (by omega), hk, hpanel, Option.map_some]

theorem enter_intensity (ledRgb : LedColors) {row : Fin 12} {rowIndex : Nat}
    (hrow : row.val = rowIndex) (channel : Fin 3) (intensity : Int32) :
    enterNumber ⟨totalLeds, repeatLoop, ledRgb, .intensity rowIndex channel⟩ intensity =
      some (if h : channel.val + 1 < 3 then
        ⟨totalLeds, repeatLoop,
          Function.update ledRgb row (Function.update (ledRgb row) channel intensity),
          .intensity rowIndex ⟨channel.val + 1, h⟩⟩
      else (Program.mk totalLeds repeatLoop
          (Function.update ledRgb row (Function.update (ledRgb row) channel intensity))
          (.intensity rowIndex channel)).nextRow (rowIndex + 1), ()) := by
  subst hrow
  simp only [enterNumber, setIntensity_fin, Option.map_some]

theorem enters_intensity (ledRgb : LedColors) {row : Fin 12} {rowIndex : Nat}
    (hrow : row.val = rowIndex) (channel : Fin 3) {entries : List Int32} {t : Program}
    (ht : t.prompt = .answered) :
    Enters ⟨totalLeds, repeatLoop, ledRgb, .intensity rowIndex channel⟩ entries t ↔
      ∃ intensity rest, entries = intensity :: rest ∧
        Enters (if h : channel.val + 1 < 3 then
          ⟨totalLeds, repeatLoop,
            Function.update ledRgb row (Function.update (ledRgb row) channel intensity),
            .intensity rowIndex ⟨channel.val + 1, h⟩⟩
        else (Program.mk totalLeds repeatLoop
            (Function.update ledRgb row (Function.update (ledRgb row) channel intensity))
            (.intensity rowIndex channel)).nextRow (rowIndex + 1)) rest t := by
  cases entries with
  | nil =>
    rw [enters_nil]
    refine iff_of_false ?_ (by simp)
    rintro rfl
    cases ht
  | cons entry entries =>
    rw [enters_cons, enter_intensity ledRgb hrow]
    constructor
    · rintro ⟨s', heq, hrest⟩
      obtain ⟨rfl, -⟩ := Prod.mk.inj (Option.some.inj heq)
      exact ⟨entry, entries, rfl, hrest⟩
    · rintro ⟨intensity, rest, heq, hrest⟩
      obtain ⟨rfl, rfl⟩ := List.cons.inj heq
      exact ⟨_, rfl, hrest⟩

/-- The three intensities of a colour. -/
theorem enters_intensities (row : Fin 12) (hrow : row.val = colors.length)
    {entries : List Int32} {t : Program} (ht : t.prompt = .answered) :
    Enters ⟨totalLeds, repeatLoop, rowsOf colors, .intensity colors.length red⟩ entries t ↔
      ∃ (rgb : CArray 3 Int32) (rest : List Int32),
        entries = rgb red :: rgb green :: rgb blue :: rest ∧
        Enters ((Program.mk totalLeds repeatLoop (Function.update (rowsOf colors) row rgb)
          (.intensity colors.length blue)).nextRow (colors.length + 1)) rest t := by
  have hset : ∀ rgb : CArray 3 Int32, Function.update (Function.update (Function.update
      (rowsOf colors) row (Function.update (rowsOf colors row) red (rgb red))) row
      (Function.update (Function.update (rowsOf colors row) red (rgb red)) green (rgb green))) row
      (Function.update (Function.update (Function.update (rowsOf colors row) red (rgb red)) green
        (rgb green)) blue (rgb blue)) = Function.update (rowsOf colors) row rgb := by
    intro rgb
    rw [Function.update_idem, Function.update_idem, channels_eq]
  constructor
  · intro h
    obtain ⟨r, rest₁, rfl, h₁⟩ := (enters_intensity _ hrow red ht).mp h
    obtain ⟨g, rest₂, rfl, h₂⟩ := (enters_intensity _ hrow green ht).mp h₁
    obtain ⟨b, rest, rfl, h₃⟩ := (enters_intensity _ hrow blue ht).mp h₂
    have hrgb := hset ![r, g, b]
    refine ⟨![r, g, b], rest, rfl, ?_⟩
    simp only [Function.update_self] at h₃
    rw [← hrgb]
    exact h₃
  · rintro ⟨rgb, rest, rfl, h⟩
    refine (enters_intensity _ hrow red ht).mpr ⟨rgb red, _, rfl, ?_⟩
    refine (enters_intensity _ hrow green ht).mpr ⟨rgb green, _, rfl, ?_⟩
    refine (enters_intensity _ hrow blue ht).mpr ⟨rgb blue, _, rfl, ?_⟩
    rw [← hset rgb] at h
    simp only [Function.update_self]
    exact h

/-- One more number refused. -/
def ColorAnswer.refuse (answer : ColorAnswer) (entry : Int32) (h : 13 < entry.toInt) :
    ColorAnswer where
  refused := entry :: answer.refused
  choice := answer.choice
  above := List.forall_mem_cons.mpr ⟨h, answer.above⟩

/-- The numbers entered from the prompt for a colour on begin with a colour. -/
theorem enters_color {t : Program} (h : (colors.length : Int) < totalLeds.toInt)
    (ht : t.prompt = .answered) {entries : List Int32}
    (henters : Enters (asking totalLeds repeatLoop colors) entries t) :
    ∃ (answer : ColorAnswer) (rest : List Int32), colors.length < 12 ∧
      entries = answer.numbers ++ rest ∧
      Enters (asking totalLeds repeatLoop (colors ++ [answer])) rest t := by
  induction entries with
  | nil =>
    rw [enters_nil, asking_of_lt h] at henters
    rw [← henters] at ht
    cases ht
  | cons entry entries ih =>
    obtain ⟨s', hentry, hrest⟩ := enters_cons.mp henters
    rcases (enter_color_iff h).mp hentry with
      ⟨habove, rfl⟩ | ⟨rfl, hrow, rfl⟩ | ⟨k, hrow, rfl, rfl⟩
    · obtain ⟨answer, rest, hrow, rfl, hnext⟩ := ih hrest
      refine ⟨answer.refuse entry habove, rest, hrow, rfl, ?_⟩
      rwa [asking, ← rowsOf_snoc colors _ ⟨colors.length, hrow⟩ rfl, List.length_append]
        at hnext ⊢
    · obtain ⟨rgb, rest, rfl, hnext⟩ :=
        (enters_intensities ⟨colors.length, hrow⟩ rfl ht).mp hrest
      refine ⟨⟨[], .custom rgb, by simp⟩, rest, hrow, rfl, ?_⟩
      rwa [← nextRow_set _ ⟨colors.length, hrow⟩ rfl]
    · refine ⟨⟨[], .panel k, by simp⟩, entries, hrow, rfl, ?_⟩
      rwa [← nextRow_set _ ⟨colors.length, hrow⟩ rfl]

/-- A colour can be entered for each of the first 12 LEDs. -/
theorem enters_of_color {t : Program} (h : (colors.length : Int) < totalLeds.toInt)
    (ht : t.prompt = .answered) (hrow : colors.length < 12) (answer : ColorAnswer)
    {rest : List Int32} (hnext : Enters (asking totalLeds repeatLoop (colors ++ [answer])) rest t) :
    Enters (asking totalLeds repeatLoop colors) (answer.numbers ++ rest) t := by
  rw [← nextRow_set answer ⟨colors.length, hrow⟩ rfl (.ledColor colors.length)] at hnext
  obtain ⟨refused, choice, habove⟩ := answer
  induction refused with
  | nil =>
    cases choice with
    | panel k =>
      exact enters_cons.mpr ⟨_, (enter_color_iff h).mpr (.inr (.inr ⟨k, hrow, rfl, rfl⟩)), hnext⟩
    | custom rgb =>
      refine enters_cons.mpr ⟨_, (enter_color_iff h).mpr (.inr (.inl ⟨rfl, hrow, rfl⟩)), ?_⟩
      exact (enters_intensities ⟨colors.length, hrow⟩ rfl ht).mpr ⟨rgb, rest, rfl, hnext⟩
  | cons entry refused ih =>
    obtain ⟨hentry, hrefused⟩ := List.forall_mem_cons.mp habove
    exact enters_cons.mpr ⟨_, (enter_color_iff h).mpr (.inl ⟨hentry, rfl⟩), ih hrefused hnext⟩

/-- The colours still missing. -/
theorem enters_colors_iff (colors : List ColorAnswer) {n : Nat} {t : Program}
    (hn : totalLeds.toInt = (colors.length + n : Nat)) (hrow : colors.length ≤ 12)
    {entries : List Int32} :
    Enters (asking totalLeds repeatLoop colors) entries t ∧ t.prompt = .answered ↔
      ∃ (answers : List ColorAnswer) (rest : List Int32), answers.length = n ∧
        colors.length + n ≤ 12 ∧ entries = answers.flatMap ColorAnswer.numbers ++ rest ∧
        t = ⟨totalLeds, repeatLoop, rowsOf (colors ++ answers), .answered⟩ := by
  induction n generalizing colors entries with
  | zero =>
    have hend := asking_of_eq repeatLoop hn
    constructor
    · rintro ⟨henters, -⟩
      rw [hend, enters_of_answered rfl] at henters
      exact ⟨[], entries, rfl, hrow, rfl, by rw [List.append_nil, henters]⟩
    · rintro ⟨answers, rest, hlength, -, -, rfl⟩
      obtain rfl := List.length_eq_zero_iff.mp hlength
      rw [hend, enters_of_answered rfl, List.append_nil]
      exact ⟨rfl, rfl⟩
  | succ n ih =>
    have hlt : (colors.length : Int) < totalLeds.toInt := by omega
    constructor
    · rintro ⟨henters, ht⟩
      obtain ⟨answer, rest, hroom, rfl, hnext⟩ := enters_color hlt ht henters
      obtain ⟨answers, rest', hlength, hfits, rfl, rfl⟩ :=
        (ih (colors ++ [answer]) (by simp; omega) (by simp; omega)).mp ⟨hnext, ht⟩
      refine ⟨answer :: answers, rest', by simp [hlength], ?_, ?_, ?_⟩
      · rw [List.length_append, List.length_singleton] at hfits
        omega
      · rw [List.flatMap_cons, List.append_assoc]
      · rw [List.append_assoc, List.singleton_append]
    · rintro ⟨answers, rest, hlength, hfits, rfl, rfl⟩
      obtain ⟨answer, answers, rfl⟩ := List.exists_cons_of_length_eq_add_one hlength
      have hlast := (ih (colors ++ [answer]) (by simp; omega) (by simp; omega)).mpr
        ⟨answers, rest, by simpa using hlength, by simp; omega, rfl,
          by rw [List.append_assoc, List.singleton_append]⟩
      refine ⟨?_, rfl⟩
      rw [List.flatMap_cons, List.append_assoc]
      exact enters_of_color hlt rfl (by omega) answer hlast.1

end Colors

/-! ## The whole dialog -/

theorem enters_repeatLoop {totalLeds repeatLoop : Int32} {entries : List Int32} {t : Program}
    (ht : t.prompt = .answered) :
    Enters ⟨totalLeds, repeatLoop, fun _ _ => 0, .repeatLoop⟩ entries t ↔
      ∃ entry rest, entries = entry :: rest ∧ Enters (asking totalLeds entry []) rest t := by
  have hrows : rowsOf [] = fun _ _ => 0 := rfl
  cases entries with
  | nil =>
    rw [enters_nil]
    refine iff_of_false ?_ (by simp)
    rintro rfl
    cases ht
  | cons entry entries =>
    have hentry : enterNumber ⟨totalLeds, repeatLoop, fun _ _ => 0, .repeatLoop⟩ entry =
        some (asking totalLeds entry [], ()) := by
      rw [asking, hrows]
      rfl
    simp [hentry]

/-- The numbers of a dialog bring the program to its end. -/
theorem enters_dialog (totalLeds repeatLoop : Int32) (dialog : Dialog) (rest : List Int32) :
    Enters (programStart totalLeds repeatLoop) (dialog.numbers ++ rest) dialog.program := by
  obtain ⟨refused, total, repeatLoop', colors, houtside, hcount, hfits⟩ := dialog
  induction refused generalizing totalLeds with
  | nil =>
    have haccepted : total.toInt > 0 ∧ total.toInt ≤ 16 := by omega
    have hcolors : Enters (asking total repeatLoop' [])
        (colors.flatMap ColorAnswer.numbers ++ rest)
        ⟨total, repeatLoop', rowsOf colors, .answered⟩ := by
      have hn : total.toInt = (0 + colors.length : Nat) := by omega
      have hroom : 0 + colors.length ≤ 12 := by omega
      exact ((enters_colors_iff [] hn (Nat.zero_le 12)).mpr
        ⟨colors, rest, rfl, hroom, rfl, rfl⟩).1
    refine enters_cons.mpr ⟨_, rfl, ?_⟩
    rw [if_pos haccepted]
    exact (enters_repeatLoop rfl).mpr ⟨repeatLoop', _, rfl, hcolors⟩
  | cons entry refused ih =>
    obtain ⟨hentry, hrefused⟩ := List.forall_mem_cons.mp houtside
    refine enters_cons.mpr ⟨_, rfl, ?_⟩
    rw [if_neg hentry]
    exact ih entry hrefused

/-- The program comes to the end of its questions without leaving its tables exactly on the numbers
of a dialog, and takes the values of the dialog from them. It looks at no later number. -/
theorem answered_iff (totalLeds repeatLoop : Int32) {entries : List Int32} {t : Program} :
    Enters (programStart totalLeds repeatLoop) entries t ∧ t.prompt = .answered ↔
      ∃ (dialog : Dialog) (rest : List Int32),
        entries = dialog.numbers ++ rest ∧ t = dialog.program := by
  constructor
  · rintro ⟨henters, ht⟩
    induction entries generalizing totalLeds with
    | nil =>
      rw [enters_nil] at henters
      rw [← henters] at ht
      cases ht
    | cons entry entries ih =>
      obtain ⟨s', hentry, hrest⟩ := enters_cons.mp henters
      obtain ⟨rfl, -⟩ := Prod.mk.inj (Option.some.inj hentry)
      by_cases haccepted : entry.toInt > 0 ∧ entry.toInt ≤ 16
      · rw [if_pos haccepted] at hrest
        obtain ⟨repeatLoop', rest, rfl, hcolors⟩ := (enters_repeatLoop ht).mp hrest
        have hcount : entry.toInt = (0 + entry.toInt.toNat : Nat) := by omega
        obtain ⟨colors, rest', hlength, hfits, rfl, rfl⟩ :=
          (enters_colors_iff [] hcount (Nat.zero_le 12)).mp ⟨hcolors, ht⟩
        simp only [List.length_nil, Nat.zero_add] at hfits
        exact ⟨⟨[], entry, repeatLoop', colors, by simp, by omega, by omega⟩, rest', rfl, rfl⟩
      · rw [if_neg haccepted] at hrest
        obtain ⟨dialog, rest, rfl, rfl⟩ := ih entry hrest
        exact ⟨⟨entry :: dialog.refused, dialog.totalLeds, dialog.repeatLoop, dialog.colors,
          List.forall_mem_cons.mpr ⟨haccepted, dialog.outside⟩, dialog.count, dialog.fits⟩, rest,
          rfl, rfl⟩
  · rintro ⟨dialog, rest, rfl, rfl⟩
    exact ⟨enters_dialog totalLeds repeatLoop dialog rest, rfl⟩

/-- A number refused, two LEDs, a custom colour after another one refused, and a colour of the
panel. -/
def twoColors : Dialog where
  refused := [17]
  totalLeds := 2
  repeatLoop := 1
  colors := [⟨[14], .custom ![9, 8, 7], List.forall_mem_singleton.mpr (by decide)⟩,
    ⟨[], .panel 11, List.forall_mem_nil _⟩]
  outside := List.forall_mem_singleton.mpr (by decide)
  count := by decide
  fits := by decide

theorem answered_iff_two_colors :
    Enters (programStart 0 0) [17, 2, 1, 14, 13, 9, 8, 7, 12] twoColors.program ∧
      twoColors.program.ledRgb 0 = ![9, 8, 7] ∧ twoColors.program.ledRgb 1 = ![255, 105, 180] :=
  ⟨((answered_iff 0 0).mpr ⟨twoColors, [], rfl, rfl⟩).1, rfl, rfl⟩

/-! ## The display -/

/-- The intensities of a colour as the strip takes them, with their bits backwards. -/
def backwards (rgb : CArray 3 Int32) : Nat × Nat × Nat :=
  (reverseBits 8 (rgb red).toBitVec.toNat, reverseBits 8 (rgb green).toBitVec.toNat,
    reverseBits 8 (rgb blue).toBitVec.toNat)

theorem decodeLed_of_row {p : Picture} {i : Fin 16} {rgb : CArray 3 Int32}
    (h : p i = colorBits (rgb green) (rgb red) (rgb blue)) :
    decodeLed (writeToRegisters (p.rows bitBang)) i = backwards rgb := by
  have hrow : p.rows bitBang i =
      bitsRow bitBang (LedData.bits ⟨0, rgb red, rgb green, rgb blue⟩) := by
    funext index
    simp only [Picture.rows, bitsRow, h]
    rfl
  rw [decodeLed_eq hrow, backwards]

theorem rowsOf_get {colors : List ColorAnswer} {j : Nat} {answer : ColorAnswer}
    (h : colors[j]? = some answer) (hj : j < 12) : rowsOf colors ⟨j, hj⟩ = answer.choice.rgb := by
  simp only [rowsOf, h, Option.elim_some]

/-- The strip at a pause, with the colours in their order from the LED of the step on. -/
structure ShowsColors (colors : List ColorAnswer) (index : Nat) (frame : List Symbol) : Prop where
  lit : ∀ j answer, colors[j]? = some answer →
    decodeLed frame (ledAt (index + j)) = backwards answer.choice.rgb
  off : ∀ i, (∀ j < colors.length, i ≠ ledAt (index + j)) → decodeLed frame i = (0, 0, 0)

theorem showsColors_window {colors : List ColorAnswer} (h : colors.length ≤ 12) (index : Nat) :
    ShowsColors colors index
      (writeToRegisters ((window (rowsOf colors) index 0 colors.length).rows bitBang)) where
  lit := by
    intro j answer hget
    have hj : j < colors.length := (List.getElem?_eq_some_iff.mp hget).1
    have hlt : j < 12 := by omega
    refine decodeLed_of_row ?_
    rw [window, offset_ledAt index (by omega), if_pos ⟨Nat.zero_le j, hj⟩, colorOf, dif_pos hlt,
      rowsOf_get hget hlt]
  off := by
    intro i hi
    have hout : ¬ (0 ≤ offset index i ∧ offset index i < colors.length) := fun hin =>
      hi _ hin.2 (ledAt_offset index i).symm
    have hrow : window (rowsOf colors) index 0 colors.length i = colorBits 0 0 0 := by
      rw [window, if_neg hout]
      funext bit
      simp [colorBits]
    have hdark := @decodeLed_of_row (window (rowsOf colors) index 0 colors.length) i
      (fun _ => 0) hrow
    rw [hdark]
    decide

/-- From the numbers entered to the strip, whatever it showed before the program began with a
`RESET`: a dialog brings the program to the end of its questions, and then, at the pause of every
step of every pass, the strip shows the colours chosen, in their order from the LED of the step on
and with the bits of the intensities backwards, and nothing else. -/
theorem shows_dialog (totalLeds repeatLoop : Int32) (dialog : Dialog) (rest : List Int32)
    (before : Strip) (passes index : Nat) :
    ∃ s₀ t s pause frame, resetStrip before = some s₀ ∧
      Enters (programStart totalLeds repeatLoop) (dialog.numbers ++ rest) t ∧
      t.prompt = .answered ∧
      ((displayPasses t.ledRgb t.totalLeds.toInt.toNat t.repetitions passes s₀).bind
        (forRange (displayStep t.ledRgb t.totalLeds.toInt.toNat) 0 index)) = some s ∧
      lightLeds t.ledRgb t.totalLeds.toInt.toNat index s = some pause ∧
      pause.sent.getLast? = some frame ∧ ShowsColors dialog.colors index frame := by
  have hcount : dialog.program.totalLeds.toInt.toNat = dialog.colors.length :=
    congrArg Int.toNat dialog.count
  obtain ⟨s₀, hreset, hs₀⟩ := resetStrip_dark before
  obtain ⟨hone, hroom⟩ := dialog.fits
  obtain ⟨s₁, hpasses, hs₁⟩ := @displayPasses_dark dialog.program.ledRgb s₀ _ hroom
    dialog.program.repetitions passes hs₀
  obtain ⟨s, hsteps, hs⟩ := @displaySteps_dark dialog.program.ledRgb s₁ _ hroom index hs₁
  obtain ⟨pause, hlight, hpause⟩ := @lightLeds_eq dialog.program.ledRgb s _ hroom index hs
  have hlast := hpause.last (by omega)
  rw [Nat.add_sub_cancel_left, ← writeToRegisters_rows] at hlast
  refine ⟨s₀, dialog.program, s, pause, _, hreset,
    enters_dialog totalLeds repeatLoop dialog rest, rfl, ?_, ?_, hlast,
    showsColors_window hroom index⟩
  · rw [hcount, hpasses, Option.bind_some, hsteps]
  · rw [hcount, hlight]

/-- Hot pink on LED 0 and the custom colour on LED 15, in the first step that goes past it. -/
theorem shows_dialog_two_colors : ∃ s₀ t s pause frame,
    resetStrip ⟨initialPixels, []⟩ = some s₀ ∧
    Enters (programStart 0 0) [17, 2, 1, 14, 13, 9, 8, 7, 12] t ∧
    ((displayPasses t.ledRgb t.totalLeds.toInt.toNat t.repetitions 0 s₀).bind
      (forRange (displayStep t.ledRgb t.totalLeds.toInt.toNat) 0 15)) = some s ∧
    lightLeds t.ledRgb t.totalLeds.toInt.toNat 15 s = some pause ∧
    pause.sent.getLast? = some frame ∧ decodeLed frame 15 = (144, 16, 224) ∧
    decodeLed frame 0 = (255, 150, 45) := by
  obtain ⟨s₀, t, s, pause, frame, hreset, henters, -, hsteps, hlight, hframe, hshown⟩ :=
    shows_dialog 0 0 twoColors [] ⟨initialPixels, []⟩ 0 15
  exact ⟨s₀, t, s, pause, frame, hreset, henters, hsteps, hlight, hframe,
    (hshown.lit 0 _ rfl).trans (by decide), (hshown.lit 1 _ rfl).trans (by decide)⟩

end KernelDrivers.Ws2812
