import KernelDrivers.Lib.Pool
import KernelDrivers.Ws2812.Spi

/-!
# Calls of a WS2812 driver at the same time

Every call that changes the colours writes the one scratch row, copies it to rows of the strip
and sends a frame, and only one frame is sent at a time. The calls interleave statement by
statement, on any number of processors, and a bit of a row may come from any of them.
-/

namespace KernelDrivers.Ws2812.Interleaved
open Lib

/-- A driver that sends its rows byte after byte, each as a symbol. -/
structure SymbolDriver (φ : Type) extends StripDriver (List φ) where
  symbolOf : UInt8 → φ
  sendWrite_eq : ∀ leds, sendWrite leds = rowMajor fun i j => symbolOf (leds i j)
  sendReset_eq : ∀ leds, sendReset leds = rowMajor fun i j => symbolOf (leds i j)

/-- `write_to_registers` sends under a spin lock. -/
def bitBangSymbols : SymbolDriver Symbol where
  toStripDriver := bitBang
  symbolOf x := if x = 1 then .bit1 else .bit0
  sendWrite_eq _ := rfl
  sendReset_eq _ := rfl

def SymbolDriver.frame {φ : Type} (d : SymbolDriver φ) (leds : Rows) : List φ :=
  rowMajor fun i j => d.symbolOf (leds i j)

/-- The symbol of a byte of the rows. -/
theorem frame_getElem? {φ : Type} (d : SymbolDriver φ) (leds : Rows) (i : Fin 16) (j : Fin 24) :
    (d.frame leds)[24 * i.val + j.val]? = some (d.symbolOf (leds i j)) :=
  rowMajor_getElem? _ i j

theorem frame_length {φ : Type} (d : SymbolDriver φ) (leds : Rows) : (d.frame leds).length = 384 :=
  rowMajor_length _

/-! ## The statements of a call -/

/-- The static data of the driver, whether a frame is being sent, and the symbols sent so far: on
the line, or to the SPI core. -/
structure Shared (φ : Type) where
  pixels : Pixels
  locked : Bool
  wire : List φ

section Statements

variable {φ : Type} (d : SymbolDriver φ)

def Shared.setScratch (s : Shared φ) (row : CArray 24 UInt8) : Shared φ :=
  { s with pixels := { s.pixels with singleLedData := row } }

def Shared.setLeds (s : Shared φ) (leds : Rows) : Shared φ :=
  { s with pixels := { s.pixels with ledsPixelData := leds } }

def Shared.emit (s : Shared φ) (x : φ) : Shared φ := { s with wire := s.wire ++ [x] }

/-- A call that sends a frame: `ws_write` once the user's data is copied, or `reset_leds`, which
a `RESET`, a release and the initialisation call. -/
inductive Call where
  | write (info : LedData)
  | reset
  deriving DecidableEq

def bitByte (intensity : Int32) (j : Nat) : UInt8 :=
  if intensity >>> Int32.ofNat j &&& 1 ≠ 0 then d.setBit1 else d.setBit0

/-- What the three loops of `set_color` store. -/
def colorByte (green red blue : Int32) (index : Nat) : UInt8 :=
  if index < 8 then bitByte d green index
  else if index < 16 then bitByte d red (index - 8)
  else bitByte d blue (index - 16)

namespace Call

def byteAt : Call → Nat → UInt8
  | .write info => colorByte d info.greenIntensity info.redIntensity info.blueIntensity
  | .reset => colorByte d 0 0 0

/-- The row that is copied to when the counter of the rows is `rowIndex`. -/
def row : Call → Nat → Int
  | .write info, _ => info.ledNumber.toInt
  | .reset, rowIndex => rowIndex

def rowCount : Call → Nat
  | .write _ => 1
  | .reset => 16

end Call

/-- The next statement. In the loops that copy, a byte is loaded and then stored. -/
inductive Pc where
  | setColor (index : Nat)
  | load (rowIndex column : Nat)
  | store (rowIndex column : Nat) (x : UInt8)
  | lock
  | send (ledIndex bitIndex : Nat)
  | unlock
  | returned
  deriving DecidableEq

structure Thread where
  call : Call
  pc : Pc

def afterColor (index : Nat) : Pc := if index + 1 < 24 then .setColor (index + 1) else .load 0 0

def Call.afterPixel (call : Call) (rowIndex column : Nat) : Pc :=
  if column + 1 < 24 then .load rowIndex (column + 1)
  else if rowIndex + 1 < call.rowCount then .load (rowIndex + 1) 0
  else .lock

def afterSymbol (ledIndex bitIndex : Nat) : Pc :=
  if bitIndex + 1 < 24 then .send ledIndex (bitIndex + 1)
  else if ledIndex + 1 < 16 then .send (ledIndex + 1) 0
  else .unlock

/-- A call waits at the lock while another has it, and an index outside an array is undefined. -/
def step (t : Thread) (s : Shared φ) : Option (Shared φ × Thread) :=
  match t.pc with
  | .setColor index =>
    (s.pixels.singleLedData.store index (t.call.byteAt d index)).map fun row =>
      (s.setScratch row, ⟨t.call, afterColor index⟩)
  | .load rowIndex column =>
    (s.pixels.singleLedData.load column).map fun x => (s, ⟨t.call, .store rowIndex column x⟩)
  | .store rowIndex column x =>
    (storePixel s.pixels.ledsPixelData (t.call.row rowIndex) column x).map fun leds =>
      (s.setLeds leds, ⟨t.call, t.call.afterPixel rowIndex column⟩)
  | .lock => if s.locked then none else some ({ s with locked := true }, ⟨t.call, .send 0 0⟩)
  | .send ledIndex bitIndex =>
    (s.pixels.ledsPixelData.load ledIndex).bind fun row =>
      (row.load bitIndex).map fun x =>
        (s.emit (d.symbolOf x), ⟨t.call, afterSymbol ledIndex bitIndex⟩)
  | .unlock => some ({ s with locked := false }, ⟨t.call, .returned⟩)
  | .returned => none

def enter (call : Call) : Thread := ⟨call, .setColor 0⟩

/-- A new thread is at the first statement of its call. -/
def start (t : Thread) (s : Shared φ) : Option (Shared φ) :=
  if t.pc = .setColor 0 then some s else none

abbrev callsMove := poolMove (step d) start

/-- The driver when it is loaded. -/
def loaded : Shared φ := ⟨initialPixels, false, []⟩

def startedCalls (moves : List (PoolMove Thread)) : List Call :=
  moves.filterMap fun
    | .start t => some t.call
    | .step _ => none

/-- What a step does. -/
inductive Statement (s : Shared φ) : Thread → Shared φ → Thread → Prop
  | setColor (call : Call) (j : Fin 24) :
      Statement s ⟨call, .setColor j⟩
        (s.setScratch (Function.update s.pixels.singleLedData j (call.byteAt d j)))
        ⟨call, afterColor j⟩
  | load (call : Call) (rowIndex : Nat) (j : Fin 24) :
      Statement s ⟨call, .load rowIndex j⟩ s
        ⟨call, .store rowIndex j (s.pixels.singleLedData j)⟩
  | store (call : Call) (rowIndex : Nat) (i : Fin 16) (j : Fin 24) (x : UInt8)
      (hrow : call.row rowIndex = (i : Nat)) :
      Statement s ⟨call, .store rowIndex j x⟩
        (s.setLeds (Function.update s.pixels.ledsPixelData i
          (Function.update (s.pixels.ledsPixelData i) j x)))
        ⟨call, call.afterPixel rowIndex j⟩
  | lock (call : Call) (hfree : s.locked = false) :
      Statement s ⟨call, .lock⟩ { s with locked := true } ⟨call, .send 0 0⟩
  | send (call : Call) (i : Fin 16) (j : Fin 24) :
      Statement s ⟨call, .send i j⟩ (s.emit (d.symbolOf (s.pixels.ledsPixelData i j)))
        ⟨call, afterSymbol i j⟩
  | unlock (call : Call) :
      Statement s ⟨call, .unlock⟩ { s with locked := false } ⟨call, .returned⟩

variable {d}

theorem storePixel_cases {leds leds' : Rows} {row : Int} {column : Nat} {x : UInt8}
    (h : storePixel leds row column x = some leds') :
    ∃ (i : Fin 16) (j : Fin 24), row = (i : Nat) ∧ column = (j : Nat) ∧
      leds' = Function.update leds i (Function.update (leds i) j x) := by
  obtain ⟨r, hload, h₁⟩ := Option.bind_eq_some_iff.mp h
  obtain ⟨r', hstore, -⟩ := Option.bind_eq_some_iff.mp h₁
  obtain ⟨i, rfl⟩ := CArray.exists_fin ((CArray.load_defined_iff leds).mp ⟨r, hload⟩)
  rcases CArray.index_cases 24 column with ⟨j, hj⟩ | hout
  · obtain rfl : column = (j : Nat) := by omega
    rw [storePixel_fin] at h
    exact ⟨i, j, rfl, rfl, (Option.some.inj h).symm⟩
  · rw [CArray.store_eq_none hout] at hstore
    cases hstore

theorem statement_of_step {s s' : Shared φ} {t t' : Thread} (h : step d t s = some (s', t')) :
    Statement d s t s' t' := by
  obtain ⟨call, pc⟩ := t
  cases pc with
  | setColor index =>
    obtain ⟨row, hstore, h⟩ := Option.map_eq_some_iff.mp h
    cases h
    rcases CArray.index_cases 24 index with ⟨j, hj⟩ | hout
    · obtain rfl : index = (j : Nat) := by omega
      rw [CArray.store_fin] at hstore
      cases hstore
      exact .setColor call j
    · rw [CArray.store_eq_none hout] at hstore
      cases hstore
  | load rowIndex column =>
    obtain ⟨x, hload, h⟩ := Option.map_eq_some_iff.mp h
    cases h
    obtain ⟨j, hj⟩ := CArray.exists_fin ((CArray.load_defined_iff _).mp ⟨x, hload⟩)
    obtain rfl : column = (j : Nat) := by omega
    rw [CArray.load_fin] at hload
    cases hload
    exact .load call rowIndex j
  | store rowIndex column x =>
    obtain ⟨leds, hstore, h⟩ := Option.map_eq_some_iff.mp h
    cases h
    obtain ⟨i, j, hrow, rfl, rfl⟩ := storePixel_cases hstore
    exact .store call rowIndex i j x hrow
  | lock =>
    simp only [step] at h
    split at h
    · cases h
    · cases h
      exact .lock call (by simpa using ‹¬ s.locked = true›)
  | send ledIndex bitIndex =>
    obtain ⟨row, hload, h⟩ := Option.bind_eq_some_iff.mp h
    obtain ⟨x, hload', h⟩ := Option.map_eq_some_iff.mp h
    cases h
    obtain ⟨i, hi⟩ := CArray.exists_fin ((CArray.load_defined_iff _).mp ⟨row, hload⟩)
    obtain ⟨j, hj⟩ := CArray.exists_fin ((CArray.load_defined_iff _).mp ⟨x, hload'⟩)
    obtain rfl : ledIndex = (i : Nat) := by omega
    obtain rfl : bitIndex = (j : Nat) := by omega
    rw [CArray.load_fin] at hload hload'
    cases hload
    cases hload'
    exact .send call i j
  | unlock =>
    cases Option.some.inj h
    exact .unlock call
  | returned => cases h

theorem step_of_statement {s s' : Shared φ} {t t' : Thread} (h : Statement d s t s' t') :
    step d t s = some (s', t') := by
  cases h with
  | setColor call j => simp [step, CArray.store_fin]
  | load call rowIndex j => simp [step, CArray.load_fin]
  | store call rowIndex i j x hrow => simp [step, hrow, storePixel_fin]
  | lock call hfree => simp [step, hfree]
  | send call i j => simp [step, CArray.load_fin]
  | unlock call => rfl

end Statements

/-! ## Sending -/

section Bytes

variable {φ : Type} (d : SymbolDriver φ)

/-- Between taking the lock and giving it back. -/
def Thread.Holds (t : Thread) : Prop :=
  match t.pc with
  | .send _ _ => True
  | .unlock => True
  | _ => False

/-- A frame is still to be sent. -/
def Thread.Pending (t : Thread) : Prop :=
  match t.pc with
  | .setColor _ => True
  | .load _ _ => True
  | .store _ _ _ => True
  | .lock => True
  | _ => False

/-- How many symbols of its frame a call that sends has sent. -/
def Pc.position : Pc → Nat
  | .send ledIndex bitIndex => 24 * ledIndex + bitIndex
  | .unlock => 384
  | _ => 0

abbrev Locked (s : Shared φ) : Prop := s.locked = true

@[simp] theorem not_holds_color (call : Call) (index : Nat) :
    ¬ Thread.Holds ⟨call, afterColor index⟩ := by
  unfold afterColor
  split <;> exact id

@[simp] theorem not_holds_pixel (call call' : Call) (rowIndex column : Nat) :
    ¬ Thread.Holds ⟨call', call.afterPixel rowIndex column⟩ := by
  unfold Call.afterPixel
  split
  · exact id
  · split <;> exact id

@[simp] theorem pending_color (call : Call) (index : Nat) :
    Thread.Pending ⟨call, afterColor index⟩ := by
  unfold afterColor
  split <;> trivial

@[simp] theorem pending_pixel (call call' : Call) (rowIndex column : Nat) :
    Thread.Pending ⟨call', call.afterPixel rowIndex column⟩ := by
  unfold Call.afterPixel
  split
  · trivial
  · split <;> trivial

@[simp] theorem holds_symbol (call : Call) (ledIndex bitIndex : Nat) :
    Thread.Holds ⟨call, afterSymbol ledIndex bitIndex⟩ := by
  unfold afterSymbol
  split
  · trivial
  · split <;> trivial

@[simp] theorem not_pending_symbol (call : Call) (ledIndex bitIndex : Nat) :
    ¬ Thread.Pending ⟨call, afterSymbol ledIndex bitIndex⟩ := by
  unfold afterSymbol
  split
  · exact id
  · split <;> exact id

theorem position_afterSymbol (i : Fin 16) (j : Fin 24) :
    (afterSymbol i j).position = 24 * i.val + j.val + 1 := by
  unfold afterSymbol
  split
  · rfl
  · split <;> simp only [Pc.position] <;> omega

variable {d} in
theorem lockStep_of_statement {s s' : Shared φ} {t t' : Thread} (h : Statement d s t s' t')
    (hlocked : t.Holds → Locked s) : LockStep Locked Thread.Holds s t s' t' := by
  cases h with
  | setColor => exact .keep hlocked Iff.rfl fun h => absurd h (not_holds_color _ _)
  | load => exact .keep hlocked Iff.rfl id
  | store => exact .keep hlocked Iff.rfl fun h => absurd h (not_holds_pixel _ _ _ _)
  | lock call hfree => exact .take (by simp [Locked, hfree]) rfl
  | send => exact .keep hlocked Iff.rfl fun _ => trivial
  | unlock => exact .give trivial id

/-! ## Where a byte comes from -/

/-- The byte is what one of the calls stores in this column. -/
def Lit (calls : List Call) (j : Fin 24) (x : UInt8) : Prop := ∃ call ∈ calls, call.byteAt d j = x

/-- The call copies to this row. -/
def Call.Addresses : Call → Fin 16 → Prop
  | .write info, i => info.ledNumber.toInt = (i : Nat)
  | .reset, _ => True

/-- What a row may hold after the calls: what it held before them, or, when one of them copies to
it, a byte that is any call's. -/
def Mixed (calls : List Call) (leds : Rows) (i : Fin 16) (j : Fin 24) (x : UInt8) : Prop :=
  x = leds i j ∨ (∃ call ∈ calls, call.Addresses i) ∧ Lit d calls j x

/-- The value of the row counter at a row. -/
def Call.counterAt : Call → Fin 16 → Nat
  | .write _, _ => 0
  | .reset, i => i

theorem Call.addresses_of_row {call : Call} {rowIndex : Nat} {i : Fin 16}
    (h : call.row rowIndex = (i : Nat)) : call.Addresses i := by
  cases call with
  | write info => exact h
  | reset => trivial

theorem Call.row_counterAt {call : Call} {i i' : Fin 16} (h : call.Addresses i)
    (hrow : call.row (call.counterAt i) = (i' : Nat)) : i = i' := by
  cases call with
  | write info => exact Fin.ext (by simp only [Call.Addresses, Call.row] at h hrow; omega)
  | reset => exact Fin.ext (by simp only [Call.row, Call.counterAt] at hrow; omega)

theorem Call.counterAt_lt (call : Call) (i : Fin 16) : call.counterAt i < call.rowCount := by
  cases call with
  | write info => exact Nat.one_pos
  | reset => exact i.isLt

/-- How many bytes of the scratch row the call has stored. -/
def Pc.colored : Pc → Nat
  | .setColor index => index
  | _ => 24

/-- How many bytes the call has copied to the strip. -/
def Thread.copied (t : Thread) : Nat :=
  match t.pc with
  | .setColor _ => 0
  | .load rowIndex column => 24 * rowIndex + column
  | .store rowIndex column _ => 24 * rowIndex + column
  | _ => 24 * t.call.rowCount

/-- The call has copied to this place. -/
def Thread.Stored (t : Thread) (i : Fin 16) (j : Fin 24) : Prop :=
  t.call.Addresses i ∧ 24 * t.call.counterAt i + j < t.copied

theorem colored_afterColor (j : Fin 24) : (afterColor j).colored = j.val + 1 := by
  unfold afterColor
  split <;> simp only [Pc.colored]
  omega

theorem copied_afterColor (call : Call) (index : Nat) :
    Thread.copied ⟨call, afterColor index⟩ = 0 := by
  unfold afterColor
  split <;> rfl

theorem copied_afterSymbol (call : Call) (ledIndex bitIndex : Nat) :
    Thread.copied ⟨call, afterSymbol ledIndex bitIndex⟩ = 24 * call.rowCount := by
  unfold afterSymbol
  split
  · rfl
  · split <;> rfl

theorem copied_afterPixel_le (call : Call) (rowIndex : Nat) (j : Fin 24) :
    Thread.copied ⟨call, call.afterPixel rowIndex j⟩ ≤ 24 * rowIndex + j + 1 := by
  unfold Call.afterPixel
  split
  · exact le_rfl
  · split <;> simp only [Thread.copied] <;> omega

/-- What a call knows of the shared state: the bytes it has stored may have been overwritten, but
with bytes of other calls only. -/
structure Knows (calls : List Call) (t : Thread) (s : Shared φ) : Prop where
  call : t.call ∈ calls
  scratch : ∀ j : Fin 24, j.val < t.pc.colored → Lit d calls j (s.pixels.singleLedData j)
  held : ∀ rowIndex (j : Fin 24) x, t.pc = .store rowIndex j x → Lit d calls j x
  rows : ∀ i j, t.Stored i j → Lit d calls j (s.pixels.ledsPixelData i j)

/-- Bytes of the calls are only replaced by bytes of the calls. -/
structure Advances (calls : List Call) (s s' : Shared φ) : Prop where
  scratch : ∀ j, Lit d calls j (s.pixels.singleLedData j) →
    Lit d calls j (s'.pixels.singleLedData j)
  rows : ∀ i j, Lit d calls j (s.pixels.ledsPixelData i j) →
    Lit d calls j (s'.pixels.ledsPixelData i j)

variable {d}

theorem Knows.advance {calls : List Call} {t : Thread} {s s' : Shared φ} (h : Knows d calls t s)
    (hs : Advances d calls s s') : Knows d calls t s' where
  call := h.call
  scratch := fun j hj => hs.scratch j (h.scratch j hj)
  held := h.held
  rows := fun i j hstored => hs.rows i j (h.rows i j hstored)

variable {calls : List Call} {s s' : Shared φ} {t t' : Thread}

theorem lit_update {a : CArray 24 UInt8} {k : Fin 24} {x : UInt8} (hx : Lit d calls k x)
    {j : Fin 24} (hj : j = k ∨ Lit d calls j (a j)) : Lit d calls j (Function.update a k x j) := by
  by_cases hjk : j = k
  · subst hjk
    rwa [Function.update_self]
  · rw [Function.update_of_ne hjk]
    exact hj.resolve_left hjk

/-- The rows after one byte was stored. -/
theorem update_pixel (leds : Rows) (r i : Fin 16) (k j : Fin 24) (x : UInt8) :
    Function.update leds r (Function.update (leds r) k x) i j =
      if i = r ∧ j = k then x else leds i j := by
  by_cases hi : i = r
  · subst hi
    by_cases hj : j = k
    · subst hj
      simp
    · simp [hj]
  · simp [hi]

theorem lit_update_row {leds : Rows} {r : Fin 16} {k : Fin 24} {x : UInt8} (hx : Lit d calls k x)
    {i : Fin 16} {j : Fin 24} (hj : i = r ∧ j = k ∨ Lit d calls j (leds i j)) :
    Lit d calls j (Function.update leds r (Function.update (leds r) k x) i j) := by
  rw [update_pixel]
  split
  · obtain rfl : j = k := And.right ‹_›
    exact hx
  · exact hj.resolve_left ‹_›

theorem Statement.advances (h : Statement d s t s' t') (hknows : Knows d calls t s) :
    Advances d calls s s' := by
  cases h with
  | setColor call j =>
    exact ⟨fun k hk => lit_update ⟨call, hknows.call, rfl⟩ (.inr hk), fun _ _ hk => hk⟩
  | store call rowIndex i j x hrow =>
    exact ⟨fun _ hk => hk, fun _ _ hk => lit_update_row (hknows.held rowIndex j x rfl) (.inr hk)⟩
  | load | lock | send | unlock => exact ⟨fun _ hk => hk, fun _ _ hk => hk⟩

theorem Statement.knows (h : Statement d s t s' t') (hknows : Knows d calls t s) :
    Knows d calls t' s' := by
  have hadvances := h.advances hknows
  have hcall := hknows.call
  cases h with
  | setColor call j =>
    refine ⟨hcall, fun k hk => ?_, ?_, ?_⟩
    · rw [colored_afterColor] at hk
      refine lit_update ⟨call, hcall, rfl⟩ ?_
      by_cases hkj : k = j
      · exact .inl hkj
      · have hne : k.val ≠ j.val := fun heq => hkj (Fin.ext heq)
        exact .inr (hknows.scratch k (by simp only [Pc.colored]; omega))
    · intro rowIndex k x hpc
      simp only [afterColor] at hpc
      split at hpc <;> cases hpc
    · rintro i k ⟨-, hlt⟩
      rw [copied_afterColor] at hlt
      omega
  | load call rowIndex j =>
    refine ⟨hcall, hknows.scratch, ?_, hknows.rows⟩
    intro rowIndex' k x hpc
    simp only [Pc.store.injEq] at hpc
    obtain ⟨-, hjk, rfl⟩ := hpc
    obtain rfl : j = k := Fin.ext hjk
    exact hknows.scratch j j.isLt
  | store call rowIndex i j x hrow =>
    refine ⟨hcall, fun k _ => ?_, ?_, ?_⟩
    · exact hadvances.scratch k (hknows.scratch k k.isLt)
    · intro rowIndex' k y hpc
      simp only [Call.afterPixel] at hpc
      split at hpc
      · cases hpc
      · split at hpc <;> cases hpc
    · rintro i' k ⟨haddr, hlt⟩
      have hle := copied_afterPixel_le call rowIndex j
      refine lit_update_row (hknows.held rowIndex j x rfl) ?_
      by_cases hbefore : 24 * call.counterAt i' + k.val < 24 * rowIndex + j.val
      · exact .inr (hknows.rows i' k ⟨haddr, hbefore⟩)
      · -- the place is the one just copied to
        obtain rfl : call.counterAt i' = rowIndex := by simp only at hlt; omega
        left
        exact ⟨Call.row_counterAt haddr hrow, Fin.ext (by simp only at hlt; omega)⟩
  | lock call hfree => exact ⟨hcall, hknows.scratch, by rintro _ _ _ ⟨⟩, hknows.rows⟩
  | send call i j =>
    refine ⟨hcall, fun k _ => hknows.scratch k k.isLt, ?_, ?_⟩
    · intro rowIndex k x hpc
      simp only [afterSymbol] at hpc
      split at hpc
      · cases hpc
      · split at hpc <;> cases hpc
    · rintro i' k ⟨haddr, hlt⟩
      rw [copied_afterSymbol] at hlt
      exact hknows.rows i' k ⟨haddr, hlt⟩
  | unlock call => exact ⟨hcall, hknows.scratch, by rintro _ _ _ ⟨⟩, hknows.rows⟩

/-- What the rows hold is what they held before, or a byte of a call. -/
theorem Statement.mixed (h : Statement d s t s' t') (hknows : Knows d calls t s) {leds : Rows}
    (hmixed : ∀ i j, Mixed d calls leds i j (s.pixels.ledsPixelData i j)) (i : Fin 16)
    (j : Fin 24) : Mixed d calls leds i j (s'.pixels.ledsPixelData i j) := by
  cases h with
  | store call rowIndex r k x hrow =>
    have hx := hknows.held rowIndex k x rfl
    have hcall : ∃ call ∈ calls, call.Addresses r := ⟨call, hknows.call, Call.addresses_of_row hrow⟩
    simp only [Shared.setLeds]
    rw [update_pixel]
    split
    · obtain ⟨rfl, rfl⟩ : i = r ∧ j = k := ‹_›
      exact .inr ⟨hcall, hx⟩
    · exact hmixed i j
  | setColor | load | lock | send | unlock => exact hmixed i j

end Bytes

end KernelDrivers.Ws2812.Interleaved
