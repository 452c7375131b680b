import KernelDrivers.Ws2812.Strip
import Mathlib.Tactic.IntervalCases

/-!
# The picture on a WS2812 strip

What a strip is for: each LED shows the colour last written to it, and a reset turns all of them
off. A driver whose rows show a picture answers every call as the picture does.
-/

namespace KernelDrivers.Ws2812
open Lib

/-- The bits of every row. -/
abbrev Picture := Fin 16 → Fin 24 → Bool

/-- Eight bits of green, of red and of blue, the least significant first. -/
def colorBits (green red blue : Int32) (index : Fin 24) : Bool :=
  if index.val < 8 then green.toBitVec.toNat.testBit index
  else if index.val < 16 then red.toBitVec.toNat.testBit (index - 8)
  else blue.toBitVec.toNat.testBit (index - 16)

def LedData.bits (info : LedData) : Fin 24 → Bool :=
  colorBits info.greenIntensity info.redIntensity info.blueIntensity

theorem LedData.bits_green (info : LedData) {j : Nat} (hj : j < 8) :
    info.bits ⟨j, by omega⟩ = info.greenIntensity.toBitVec.toNat.testBit j := by
  simp [LedData.bits, colorBits, hj]

theorem LedData.bits_red (info : LedData) {j : Nat} (hj : j < 8) :
    info.bits ⟨8 + j, by omega⟩ = info.redIntensity.toBitVec.toNat.testBit j := by
  simp [LedData.bits, colorBits, show 8 + j < 16 by omega]

theorem LedData.bits_blue (info : LedData) {j : Nat} (hj : j < 8) :
    info.bits ⟨16 + j, by omega⟩ = info.blueIntensity.toBitVec.toNat.testBit j := by
  simp [LedData.bits, colorBits, show ¬ 16 + j < 8 by omega]

def dark : Picture := fun _ _ => false

@[simp] theorem dark_row (i : Fin 16) : dark i = fun _ => false := rfl

namespace Picture

/-- The picture after a call. -/
def after (p : Picture) : WsOp → Picture
  | .openFile => p
  | .write info => fun i => if info.ledNumber.toInt = (i : Nat) then info.bits else p i
  | .ioctl ioctlnum => if ioctlnum = RESET then dark else p
  | .release => dark

/-- The rows that show a picture. -/
def rows {φ : Type} (driver : StripDriver φ) (p : Picture) : Rows :=
  fun i index => if p i index then driver.setBit1 else driver.setBit0

/-- What a driver answers to a call that leaves the picture on its rows. -/
def answer {φ : Type} (driver : StripDriver φ) (p : Picture) : WsOp → List φ × Int32
  | .openFile => ([], 0)
  | .write _ => ([driver.sendWrite (p.rows driver)], 0)
  | .ioctl ioctlnum =>
    if ioctlnum = RESET then ([driver.sendReset (p.rows driver)], 0) else ([], EINVAL)
  | .release => ([driver.sendReset (p.rows driver)], 0)

/-- The answers to a list of calls. -/
def answers {φ : Type} (driver : StripDriver φ) : Picture → List WsOp → List (List φ × Int32)
  | _, [] => []
  | p, op :: ops => (p.after op).answer driver op :: answers driver (p.after op) ops

theorem answers_getElem? {φ : Type} (driver : StripDriver φ) (p : Picture) (ops : List WsOp)
    (k : Nat) : (p.answers driver ops)[k]? =
      ops[k]?.map fun op => ((ops.take (k + 1)).foldl after p).answer driver op := by
  induction ops generalizing p k with
  | nil => simp [answers]
  | cons op ops ih =>
    cases k with
    | zero => simp [answers]
    | succ k => simpa [answers] using ih (p.after op) k

end Picture

/-! ## The rows show the picture -/

theorem shifted_bit (intensity : Int32) {j : Nat} (hj : j < 8) :
    intensity >>> Int32.ofNat j &&& 1 ≠ 0 ↔ intensity.toBitVec.toNat.testBit j = true := by
  have hshift : (intensity >>> Int32.ofNat j).toBitVec = intensity.toBitVec.sshiftRight j := by
    interval_cases j <;> simp [Int32.toBitVec_shiftRight]
  have hbit : (intensity >>> Int32.ofNat j &&& 1).toBitVec =
      (BitVec.ofBool (intensity.toBitVec.getLsbD j)).setWidth 32 := by
    have hone : (1 : Int32).toBitVec = 1#32 := rfl
    rw [Int32.toBitVec_and, hshift, hone, BitVec.and_one_eq_setWidth_ofBool_getLsbD,
      BitVec.getLsbD_sshiftRight]
    simp [show j < 32 by omega]
  rw [Ne, ← Int32.toBitVec_inj, hbit]
  cases h : intensity.toBitVec.getLsbD j <;> simp [BitVec.testBit_toNat, h]

section Driver

variable {φ : Type} (driver : StripDriver φ)

theorem setIntensity_eq (intensity : Int32) {first : Nat} (hfirst : first + 8 ≤ 24)
    (row : CArray 24 UInt8) : setIntensity driver intensity first row =
      some fun index : Fin 24 => if first ≤ index.val ∧ index.val < first + 8 then
        if intensity.toBitVec.toNat.testBit (index - first) then driver.setBit1 else driver.setBit0
      else row index := by
  rw [setIntensity, forRange_store _ hfirst]
  refine congrArg some (funext fun index => ?_)
  split
  next hin =>
    rw [if_congr (shifted_bit intensity (by omega)) rfl rfl]
  next => rfl

/-- Whatever was in the scratch row is gone. -/
theorem setColor_eq (green red blue : Int32) (row : CArray 24 UInt8) :
    setColor driver green red blue row = some fun index =>
      if colorBits green red blue index then driver.setBit1 else driver.setBit0 := by
  rw [setColor, setIntensity_eq driver green (by omega), Option.bind_some,
    setIntensity_eq driver red (by omega), Option.bind_some,
    setIntensity_eq driver blue (by omega)]
  refine congrArg some (funext fun index => ?_)
  have hindex := index.isLt
  unfold colorBits
  by_cases hgreen : index.val < 8
  · simp [hgreen, show ¬ 16 ≤ index.val by omega, show ¬ 8 ≤ index.val by omega]
  · by_cases hred : index.val < 16
    · simp [hgreen, hred, show ¬ 16 ≤ index.val by omega, show 8 ≤ index.val by omega]
    · simp [hgreen, hred, hindex, show 16 ≤ index.val by omega]

end Driver

theorem storePixel_fin (leds : Rows) (i : Fin 16) (j : Fin 24) (x : UInt8) :
    storePixel leds (i : Nat) (j : Nat) x =
      some (Function.update leds i (Function.update (leds i) j x)) := by
  simp [storePixel, CArray.load_fin, CArray.store_fin]

/-- Row `i` while the new row is copied: the new one up to the next index, the old one behind. -/
def copiedRow (row : CArray 24 UInt8) (i : Fin 16) (leds : Rows) (index : Nat) : Rows :=
  Function.update leds i fun column => if column.val < index then row column else leds i column

theorem storePixel_copiedRow (row : CArray 24 UInt8) (i : Fin 16) (leds : Rows) (j : Fin 24) :
    storePixel (copiedRow row i leds j) (i : Nat) (j : Nat) (row j) =
      some (copiedRow row i leds (j + 1)) := by
  rw [storePixel_fin, copiedRow, Function.update_idem, Function.update_self]
  refine congrArg some (congrArg (Function.update leds i) (funext fun column => ?_))
  by_cases hcolumn : column = j
  · subst hcolumn
    simp
  · have hne : column.val ≠ j.val := fun h => hcolumn (Fin.ext h)
    have hiff : column.val < j.val ↔ column.val < j.val + 1 := by omega
    simp only [Function.update_of_ne hcolumn, hiff]

theorem copyRow_eq (row : CArray 24 UInt8) (i : Fin 16) (leds : Rows) :
    copyRow row (i : Nat) leds = some (Function.update leds i row) := by
  have hbody : ∀ index leds', 0 ≤ index → index < 0 + 24 → leds' = copiedRow row i leds index →
      ∃ leds'', (row.load (index : Int)).bind (storePixel leds' (i : Nat) index) = some leds'' ∧
        leds'' = copiedRow row i leds (index + 1) := by
    rintro index _ - hlt rfl
    have hload : row.load (index : Int) = some (row ⟨index, by omega⟩) :=
      row.load_fin ⟨index, by omega⟩
    rw [hload, Option.bind_some]
    exact ⟨_, storePixel_copiedRow row i leds ⟨index, by omega⟩, rfl⟩
  have hfirst : leds = copiedRow row i leds 0 := by simp [copiedRow]
  obtain ⟨leds', hcopy, rfl⟩ :=
    forRange_invariant (fun index leds' => leds' = copiedRow row i leds index) hbody hfirst
  rw [copyRow, hcopy]
  refine congrArg some (congrArg (Function.update leds i) (funext fun column => ?_))
  simp [column.isLt]

theorem copyRows_eq (row : CArray 24 UInt8) (leds : Rows) :
    forRange (fun rowIndex => copyRow row rowIndex) 0 16 leds = some fun _ => row := by
  have hbody : ∀ rowIndex leds', 0 ≤ rowIndex → rowIndex < 0 + 16 →
      (∀ i : Fin 16, i.val < rowIndex → leds' i = row) →
      ∃ leds'', copyRow row rowIndex leds' = some leds'' ∧
        ∀ i : Fin 16, i.val < rowIndex + 1 → leds'' i = row := by
    intro rowIndex leds' _ hlt hleds'
    refine ⟨_, copyRow_eq row ⟨rowIndex, by omega⟩ leds', fun i hi => ?_⟩
    by_cases hnew : i = ⟨rowIndex, by omega⟩
    · subst hnew
      simp
    · have hne : i.val ≠ rowIndex := fun h => hnew (Fin.ext h)
      rw [Function.update_of_ne hnew]
      exact hleds' i (by omega)
  have hfirst : ∀ i : Fin 16, i.val < 0 → leds i = row := by simp
  obtain ⟨leds', hcopy, hleds'⟩ := forRange_invariant
    (fun rowIndex (leds' : Rows) => ∀ i : Fin 16, i.val < rowIndex → leds' i = row) hbody hfirst
  rw [hcopy]
  exact congrArg some (funext fun i => hleds' i i.isLt)

section Driver

variable {φ : Type} (driver : StripDriver φ)

/-- A reset from any rows. -/
theorem resetLeds_eq (s : Pixels) : ∃ row, resetLeds driver s =
    some (⟨dark.rows driver, row⟩, driver.sendReset (dark.rows driver)) := by
  have hdark : colorBits 0 0 0 = fun _ => false := by
    funext index
    simp [colorBits]
  have hrows : dark.rows driver = fun _ _ => driver.setBit0 := rfl
  refine ⟨fun _ => driver.setBit0, ?_⟩
  simp [resetLeds, setColor_eq, copyRows_eq, hdark, hrows]

/-- The row for 24 bits. -/
def bitsRow (bits : Fin 24 → Bool) : CArray 24 UInt8 :=
  fun index => if bits index then driver.setBit1 else driver.setBit0

/-- A write replaces one row, whatever the rows were. -/
theorem setLedRgb_update (s : Pixels) {info : LedData} {i : Fin 16}
    (hi : info.ledNumber.toInt = (i : Nat)) :
    setLedRgb driver info.ledNumber info.redIntensity info.greenIntensity info.blueIntensity s =
      some ⟨Function.update s.ledsPixelData i (bitsRow driver info.bits),
        bitsRow driver info.bits⟩ := by
  rw [setLedRgb, setColor_eq, Option.bind_some, hi, copyRow_eq, Option.map_some]
  rfl

theorem setLedRgb_eq {s : Pixels} {p : Picture} (h : s.ledsPixelData = p.rows driver)
    {info : LedData} (hon : 0 ≤ info.ledNumber.toInt ∧ info.ledNumber.toInt < 16) :
    ∃ row, setLedRgb driver info.ledNumber info.redIntensity info.greenIntensity
      info.blueIntensity s = some ⟨(p.after (.write info)).rows driver, row⟩ := by
  obtain ⟨i, hi⟩ : ∃ i : Fin 16, info.ledNumber.toInt = (i : Nat) :=
    CArray.exists_fin hon
  refine ⟨bitsRow driver info.bits, (setLedRgb_update driver s hi).trans ?_⟩
  refine congrArg some (congrArg (Pixels.mk · _) (funext fun j => ?_))
  by_cases hj : j = i
  · subst hj
    funext index
    simp [Picture.rows, Picture.after, bitsRow, hi]
  · have hne : info.ledNumber.toInt ≠ (j : Nat) := by
      rw [hi]
      exact fun heq => hj (Fin.ext (by omega))
    rw [Function.update_of_ne hj, h]
    funext index
    simp [Picture.rows, Picture.after, hne]

/-- One call of a driver whose rows show `p`. -/
theorem wsOp_eq {s : Pixels} {p : Picture} (h : s.ledsPixelData = p.rows driver) {op : WsOp}
    (hon : OnStrip [op]) : ∃ s', wsOp driver s op = some (s', (p.after op).answer driver op) ∧
      s'.ledsPixelData = (p.after op).rows driver := by
  cases op with
  | openFile => exact ⟨s, rfl, h⟩
  | write info =>
    obtain ⟨row, hwrite⟩ := setLedRgb_eq driver h (hon info (by simp))
    exact ⟨⟨(p.after (.write info)).rows driver, row⟩,
      by simp [wsOp, wsWrite, hwrite, Picture.answer], rfl⟩
  | ioctl ioctlnum =>
    by_cases hreset : ioctlnum = RESET
    · obtain ⟨row, hs⟩ := resetLeds_eq driver s
      exact ⟨⟨dark.rows driver, row⟩,
        by simp [wsOp, wsIoctl, hreset, hs, Picture.answer, Picture.after],
        by simp [Picture.after, hreset]⟩
    · exact ⟨s, by simp [wsOp, wsIoctl, hreset, Picture.answer],
        by simp [Picture.after, hreset, h]⟩
  | release =>
    obtain ⟨row, hs⟩ := resetLeds_eq driver s
    exact ⟨⟨dark.rows driver, row⟩,
      by simp [wsOp, wsRelease, hs, Picture.answer, Picture.after],
      by simp [Picture.after]⟩

/-- A write has a result only for an LED on the strip. -/
theorem onStrip_of_write {s : Pixels} {info : LedData} {out : Pixels × List φ × Int32}
    (h : wsOp driver s (.write info) = some out) :
    0 ≤ info.ledNumber.toInt ∧ info.ledNumber.toInt < 16 := by
  by_contra hoff
  have hload : s.ledsPixelData.load info.ledNumber.toInt = none :=
    CArray.load_eq_none (by omega)
  have hcopy : ∀ row, copyRow row info.ledNumber.toInt s.ledsPixelData = none := by
    intro row
    have hfirst : row.load ((0 : Nat) : Int) = some (row 0) := row.load_fin 0
    rw [copyRow, forRange, hfirst, Option.bind_some, storePixel, hload]
    rfl
  simp [wsOp, wsWrite, setLedRgb, setColor_eq, hcopy] at h

theorem onStrip_of_run {s t : Pixels} {ops : List WsOp} {outs : List (List φ × Int32)}
    (h : run (wsOp driver) s ops = some (t, outs)) : OnStrip ops := by
  induction ops generalizing s outs with
  | nil => exact fun info hmem => absurd hmem List.not_mem_nil
  | cons op ops ih =>
    obtain ⟨s', out, outs', hop, hrest, -⟩ := run_cons_eq_some.mp h
    intro info hmem
    rcases List.mem_cons.mp hmem with rfl | hmem
    · exact onStrip_of_write driver hop
    · exact ih hrest info hmem

/-- A run of a driver whose rows show `p` answers as the picture does. -/
theorem run_wsOp_eq {s : Pixels} {p : Picture} (h : s.ledsPixelData = p.rows driver)
    {ops : List WsOp} (hon : OnStrip ops) :
    ∃ s', run (wsOp driver) s ops = some (s', p.answers driver ops) := by
  induction ops generalizing s p with
  | nil => exact ⟨s, rfl⟩
  | cons op ops ih =>
    have hfirst : OnStrip [op] := fun info hmem =>
      hon info (List.mem_cons.mpr (.inl (List.mem_singleton.mp hmem)))
    obtain ⟨s₁, hop, h₁⟩ := wsOp_eq driver h hfirst
    obtain ⟨s', hrun⟩ := ih h₁ fun info hmem => hon info (List.mem_cons_of_mem _ hmem)
    exact ⟨s', by rw [run_cons_of_some _ hop, hrun]; rfl⟩

end Driver

end KernelDrivers.Ws2812
