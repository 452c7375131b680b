import KernelDrivers.Lib.Alone
import KernelDrivers.Ws2812.Interleaved

/-!
# Calls that no other interrupts

Taken statement by statement, a call alone stores its bytes in the scratch row, copies the row to
its rows of the strip and sends the frame of all rows. It is the call of the driver as a whole.
-/

namespace KernelDrivers.Ws2812.Interleaved
open Lib

/-! ## The loops of a call -/

section Alone

variable {φ : Type} (d : SymbolDriver φ)

/-- The call copies inside the strip. -/
def Call.OnStrip : Call → Prop
  | .write info => 0 ≤ info.ledNumber.toInt ∧ info.ledNumber.toInt < 16
  | .reset => True

instance (call : Call) (i : Fin 16) : Decidable (call.Addresses i) :=
  match call with
  | .write _ => inferInstanceAs (Decidable (_ = _))
  | .reset => inferInstanceAs (Decidable True)

theorem Call.rowCount_pos (call : Call) : 0 < call.rowCount := by
  cases call <;> simp [Call.rowCount]

theorem Call.exists_row {call : Call} (hon : call.OnStrip) {n : Nat} (hn : n < call.rowCount) :
    ∃ i : Fin 16, call.row n = (i : Nat) ∧ call.counterAt i = n := by
  cases call with
  | write info =>
    obtain ⟨i, hi⟩ : ∃ i : Fin 16, info.ledNumber.toInt = (i : Nat) := CArray.exists_fin hon
    exact ⟨i, hi, (Nat.lt_one_iff.mp hn).symm⟩
  | reset => exact ⟨⟨n, hn⟩, rfl, rfl⟩

/-- The bytes of the call's colour. -/
def Call.bytes (call : Call) : CArray 24 UInt8 := fun j => call.byteAt d j

/-- The rows once the call has copied. -/
def Call.painted (call : Call) (row : CArray 24 UInt8) (leds : Rows) : Rows :=
  fun i => if call.Addresses i then row else leds i

/-- The place in the loop of `set_color` before iteration `n`, and behind it. -/
def colorPc (n : Nat) : Pc := if n < 24 then .setColor n else .load 0 0

theorem alone_statement {s s' : Shared φ} {t t' : Thread} (h : Statement d s t s' t') :
    Alone (step d) (s, t) (s', t') :=
  .of_step (step_of_statement h)

theorem afterColor_eq (n : Nat) : afterColor n = colorPc (n + 1) := rfl

theorem alone_setColor (call : Call) (s : Shared φ) :
    Alone (step d) (s, enter call) (s.setScratch (call.bytes d), ⟨call, .load 0 0⟩) := by
  let row : Nat → CArray 24 UInt8 := fun n j =>
    if j.val < n then call.byteAt d j else s.pixels.singleLedData j
  have hloop : Alone (step d) (s.setScratch (row 0), ⟨call, colorPc 0⟩)
      (s.setScratch (row 24), ⟨call, colorPc 24⟩) := by
    apply Alone.loop (f := fun n => (s.setScratch (row n), (⟨call, colorPc n⟩ : Thread)))
    intro n hn
    have hrow : Function.update (row n) ⟨n, hn⟩ (call.byteAt d n) = row (n + 1) := by
      funext j
      by_cases hj : j = ⟨n, hn⟩
      · subst hj
        simp [row]
      · have hne : j.val ≠ n := fun h => hj (Fin.ext h)
        have hiff : j.val < n + 1 ↔ j.val < n := by omega
        simp only [Function.update_of_ne hj, row, hiff]
    have hstep := alone_statement d (.setColor (s := s.setScratch (row n)) call ⟨n, hn⟩)
    have hpc : colorPc n = .setColor n := if_pos hn
    simp only [Shared.setScratch, hrow] at hstep
    simp only [Shared.setScratch, hpc]
    exact hstep
  have hfirst : s.setScratch (row 0) = s := by
    simp [row, Shared.setScratch]
  have hlast : row 24 = call.bytes d := by
    funext j
    simp [row, Call.bytes]
  rw [hfirst, hlast] at hloop
  exact hloop

/-- The place before the row with this value of the counter, and behind the loops that copy. -/
def Call.rowPc (call : Call) (rowIndex : Nat) : Pc :=
  if rowIndex < call.rowCount then .load rowIndex 0 else .lock

/-- One row. -/
theorem alone_row {call : Call} {rowIndex : Nat} {i : Fin 16}
    (hrow : call.row rowIndex = (i : Nat)) (s : Shared φ) :
    Alone (step d) (s, ⟨call, .load rowIndex 0⟩)
      (s.setLeds (Function.update s.pixels.ledsPixelData i s.pixels.singleLedData),
        ⟨call, call.rowPc (rowIndex + 1)⟩) := by
  let leds : Nat → Rows := copiedRow s.pixels.singleLedData i s.pixels.ledsPixelData
  let pc : Nat → Pc := fun n => if n < 24 then .load rowIndex n else call.rowPc (rowIndex + 1)
  have hloop : Alone (step d) (s.setLeds (leds 0), ⟨call, pc 0⟩)
      (s.setLeds (leds 24), ⟨call, pc 24⟩) := by
    apply Alone.loop (f := fun n => (s.setLeds (leds n), (⟨call, pc n⟩ : Thread)))
    intro n hn
    have hload := alone_statement d (.load (s := s.setLeds (leds n)) call rowIndex ⟨n, hn⟩)
    have hstore : step d ⟨call, .store rowIndex n (s.pixels.singleLedData ⟨n, hn⟩)⟩
        (s.setLeds (leds n)) = some (s.setLeds (leds (n + 1)), ⟨call, pc (n + 1)⟩) := by
      have hpixel := storePixel_copiedRow s.pixels.singleLedData i s.pixels.ledsPixelData ⟨n, hn⟩
      simp only [step, Shared.setLeds, hrow]
      rw [hpixel]
      rfl
    have hpc : pc n = .load rowIndex n := if_pos hn
    simp only [hpc]
    exact hload.next hstore
  have hfirst : s.setLeds (leds 0) = s := by
    simp [leds, copiedRow, Shared.setLeds]
  have hlast : leds 24 = Function.update s.pixels.ledsPixelData i s.pixels.singleLedData := by
    simp [leds, copiedRow]
  rw [hfirst, hlast] at hloop
  exact hloop

/-- All the rows of a call. -/
theorem alone_copy {call : Call} (hon : call.OnStrip) (s : Shared φ) :
    Alone (step d) (s, ⟨call, .load 0 0⟩)
      (s.setLeds (call.painted s.pixels.singleLedData s.pixels.ledsPixelData), ⟨call, .lock⟩) := by
  let leds : Nat → Rows := fun n i =>
    if call.Addresses i ∧ call.counterAt i < n then s.pixels.singleLedData
    else s.pixels.ledsPixelData i
  have hloop : Alone (step d) (s.setLeds (leds 0), ⟨call, call.rowPc 0⟩)
      (s.setLeds (leds call.rowCount), ⟨call, call.rowPc call.rowCount⟩) := by
    apply Alone.loop (f := fun n => (s.setLeds (leds n), (⟨call, call.rowPc n⟩ : Thread)))
    intro n hn
    obtain ⟨i, hrow, hcounter⟩ := Call.exists_row hon hn
    have hleds : Function.update (leds n) i s.pixels.singleLedData = leds (n + 1) := by
      funext i'
      by_cases hi : i' = i
      · subst hi
        have haddr := Call.addresses_of_row hrow
        simp [leds, haddr, hcounter]
      · have hne : call.Addresses i' → call.counterAt i' ≠ n := by
          rintro haddr rfl
          exact hi (Call.row_counterAt haddr hrow)
        have hiff : call.Addresses i' ∧ call.counterAt i' < n + 1 ↔
            call.Addresses i' ∧ call.counterAt i' < n :=
          and_congr_right fun haddr => by have := hne haddr; omega
        simp only [Function.update_of_ne hi, leds, hiff]
    have halone := alone_row d hrow (s.setLeds (leds n))
    have hpc : call.rowPc n = .load n 0 := if_pos hn
    simp only [Shared.setLeds, hleds] at halone
    simp only [Shared.setLeds, hpc]
    exact halone
  have hfirst : s.setLeds (leds 0) = s := by
    simp [leds, Shared.setLeds]
  have hlast : leds call.rowCount = call.painted s.pixels.singleLedData s.pixels.ledsPixelData := by
    funext i
    simp [leds, Call.painted, call.counterAt_lt i]
  have hbehind : call.rowPc call.rowCount = .lock := if_neg (Nat.lt_irrefl _)
  rw [hfirst, hlast, hbehind, Call.rowPc, if_pos call.rowCount_pos] at hloop
  exact hloop

/-- The place before symbol `n` of a frame, and behind the frame. -/
def symbolPc (n : Nat) : Pc := if n < 384 then .send (n / 24) (n % 24) else .unlock

theorem afterSymbol_eq {n : Nat} (hn : n < 384) :
    afterSymbol (n / 24) (n % 24) = symbolPc (n + 1) := by
  unfold afterSymbol symbolPc
  split
  · rw [if_pos (by omega)]
    congr 1 <;> omega
  · split
    · rw [if_pos (by omega)]
      congr 1 <;> omega
    · rw [if_neg (by omega)]

def Shared.send (s : Shared φ) (symbols : List φ) : Shared φ := { s with wire := s.wire ++ symbols }

theorem alone_send (call : Call) (s : Shared φ) :
    Alone (step d) (s, ⟨call, .send 0 0⟩)
      (s.send (d.frame s.pixels.ledsPixelData), ⟨call, .unlock⟩) := by
  let frame := d.frame s.pixels.ledsPixelData
  have hloop : Alone (step d) (s.send (frame.take 0), ⟨call, symbolPc 0⟩)
      (s.send (frame.take 384), ⟨call, symbolPc 384⟩) := by
    apply Alone.loop (f := fun n => (s.send (frame.take n), (⟨call, symbolPc n⟩ : Thread)))
    intro n hn
    let i : Fin 16 := ⟨n / 24, by omega⟩
    let j : Fin 24 := ⟨n % 24, by omega⟩
    have hstep := alone_statement d (.send (s := s.send (frame.take n)) call i j)
    have hget : frame[n]? = some (d.symbolOf (s.pixels.ledsPixelData i j)) := by
      have hplace := frame_getElem? d s.pixels.ledsPixelData i j
      rwa [show 24 * i.val + j.val = n from Nat.div_add_mod n 24] at hplace
    have hsent : (s.send (frame.take n)).emit (d.symbolOf (s.pixels.ledsPixelData i j)) =
        s.send (frame.take (n + 1)) := by
      simp [Shared.emit, Shared.send, List.take_add_one, hget]
    have hpc : symbolPc n = .send (n / 24) (n % 24) := if_pos hn
    simp only [hpc, ← hsent, ← afterSymbol_eq hn]
    exact hstep
  have hlast : frame.take 384 = frame := List.take_of_length_le (frame_length d _).le
  have hfirst : s.send (frame.take 0) = s := by simp [Shared.send]
  rw [hfirst, hlast] at hloop
  exact hloop

/-! ## A call alone -/

/-- What a call leaves that has stored its colour in the scratch row. -/
def Shared.finished (s : Shared φ) (call : Call) : Shared φ where
  pixels := ⟨call.painted s.pixels.singleLedData s.pixels.ledsPixelData, s.pixels.singleLedData⟩
  locked := false
  wire := s.wire ++
    d.frame (call.painted s.pixels.singleLedData s.pixels.ledsPixelData)

theorem alone_finish {call : Call} (hon : call.OnStrip) {s : Shared φ} (hfree : s.locked = false) :
    Alone (step d) (s, ⟨call, .load 0 0⟩) (s.finished d call, ⟨call, .returned⟩) := by
  have hcopied := alone_copy d hon s
  have hlocked := hcopied.trans (alone_statement d (.lock call hfree))
  exact (hlocked.trans (alone_send d call _)).trans (alone_statement d (.unlock call))

/-- A thread is its call. -/
theorem step_id (t : Thread) (s : Shared φ) :
    step d (id t) s = (step d t s).map fun (s', t') => (s', id t') := by
  simp

/-- The call of the device file that this one is the body of. -/
def Call.ofOp : WsOp → Option Call
  | .openFile => none
  | .write info => some (.write info)
  | .ioctl ioctlnum => if ioctlnum = RESET then some .reset else none
  | .release => some .reset

theorem colorByte_eq (green red blue : Int32) (j : Fin 24) :
    colorByte d green red blue j =
      if colorBits green red blue j then d.setBit1 else d.setBit0 := by
  have hj := j.isLt
  unfold colorByte colorBits bitByte
  split
  · exact if_congr (shifted_bit green (by omega)) rfl rfl
  · split
    · exact if_congr (shifted_bit red (by omega)) rfl rfl
    · exact if_congr (shifted_bit blue (by omega)) rfl rfl

theorem bytes_write (info : LedData) :
    (Call.write info).bytes d = bitsRow d.toStripDriver info.bits :=
  funext fun j => colorByte_eq d _ _ _ j

theorem bytes_reset : Call.reset.bytes d = fun _ => d.setBit0 := by
  funext j
  have hdark : colorBits 0 0 0 j = false := by simp [colorBits]
  have hbyte := colorByte_eq d 0 0 0 j
  rw [hdark] at hbyte
  exact hbyte

/-- The driver's call as a whole leaves the same rows and sends the same frame. -/
theorem wsOp_ofOp {op : WsOp} {call : Call} (hop : Call.ofOp op = some call) (hon : call.OnStrip)
    (s : Pixels) : wsOp d.toStripDriver s op = some
      (⟨call.painted (call.bytes d) s.ledsPixelData, call.bytes d⟩,
        [d.frame (call.painted (call.bytes d) s.ledsPixelData)], 0) := by
  have hreset : Ws2812.resetLeds d.toStripDriver s = some
      (⟨Call.reset.painted (Call.reset.bytes d) s.ledsPixelData, Call.reset.bytes d⟩,
        d.frame (Call.reset.painted (Call.reset.bytes d) s.ledsPixelData)) := by
    have hdark : colorBits 0 0 0 = fun _ => false := by
      funext index
      simp [colorBits]
    have hrows : Call.reset.painted (Call.reset.bytes d) s.ledsPixelData =
        fun _ => Call.reset.bytes d := by
      funext i
      simp [Call.painted, Call.Addresses]
    rw [hrows, bytes_reset, Ws2812.resetLeds, setColor_eq, Option.bind_some, copyRows_eq, hdark,
      SymbolDriver.frame, ← d.sendReset_eq]
    rfl
  cases op with
  | openFile => cases hop
  | write info =>
    obtain rfl := Option.some.inj hop
    obtain ⟨i, hi⟩ : ∃ i : Fin 16, info.ledNumber.toInt = (i : Nat) := CArray.exists_fin hon
    have hrows : (Call.write info).painted ((Call.write info).bytes d) s.ledsPixelData =
        Function.update s.ledsPixelData i (bitsRow d.toStripDriver info.bits) := by
      funext i'
      have haddr : (Call.write info).Addresses i' ↔ i' = i := by
        simp only [Call.Addresses, hi]
        exact ⟨fun h => Fin.ext (by omega), fun h => by rw [h]⟩
      by_cases hi' : i' = i
      · subst hi'
        simp [Call.painted, haddr, bytes_write]
      · simp [Call.painted, haddr, hi']
    rw [hrows, bytes_write, wsOp, wsWrite, setLedRgb_update d.toStripDriver s hi,
      SymbolDriver.frame, ← d.sendWrite_eq]
    rfl
  | ioctl ioctlnum =>
    by_cases hnum : ioctlnum = RESET
    · rw [Call.ofOp, if_pos hnum] at hop
      obtain rfl := Option.some.inj hop
      rw [wsOp, wsIoctl, if_pos hnum, hreset]
      rfl
    · rw [Call.ofOp, if_neg hnum] at hop
      cases hop
  | release =>
    obtain rfl := Option.some.inj hop
    rw [wsOp, wsRelease, hreset]
    rfl

theorem onStrip_of_wsOp {op : WsOp} {call : Call} (hop : Call.ofOp op = some call) {s : Pixels}
    {out : Pixels × List (List φ) × Int32} (h : wsOp d.toStripDriver s op = some out) :
    call.OnStrip := by
  cases op with
  | openFile => cases hop
  | write info =>
    obtain rfl := Option.some.inj hop
    exact onStrip_of_write d.toStripDriver h
  | ioctl ioctlnum =>
    rw [Call.ofOp] at hop
    split at hop
    · obtain rfl := Option.some.inj hop
      trivial
    · cases hop
  | release =>
    obtain rfl := Option.some.inj hop
    trivial

/-- Off the strip a call ends at the first byte it copies. -/
theorem alone_offStrip {call : Call} (hoff : ¬ call.OnStrip) (s : Shared φ) : ∃ y,
    Alone (step d) (s, enter call) y ∧ step d y.2 y.1 = none ∧ y.2.pc ≠ .returned := by
  cases call with
  | reset => exact absurd trivial hoff
  | write info =>
    have hcolored := alone_setColor d (.write info) s
    refine ⟨_, hcolored.trans (alone_statement d (.load _ 0 0)), ?_, nofun⟩
    have hload : (s.setScratch ((Call.write info).bytes d)).pixels.ledsPixelData.load
        info.ledNumber.toInt = none :=
      CArray.load_eq_none (by simp only [Call.OnStrip] at hoff; omega)
    simp [step, storePixel, Call.row, hload]

end Alone

/-- A call of the bit-banging driver that no other interrupts returns exactly when the lock is free
and the driver's call as a whole has a result, and it leaves and sends what that does. -/
theorem completes_iff_wsOp {op : WsOp} {call : Call} (hop : Call.ofOp op = some call)
    (p : Pool (Shared Symbol) Thread) (s' : Shared Symbol) :
    Completes (step bitBangSymbols) start p (enter call) s' ⟨call, .returned⟩ ↔
      p.shared.locked = false ∧ ∃ pixels frame,
        BitBang.wsOp p.shared.pixels op = some (pixels, [frame], 0) ∧
          s' = ⟨pixels, false, p.shared.wire ++ frame⟩ := by
  refine (completes_iff (step_id bitBangSymbols) Function.injective_id rfl).trans ?_
  have hcolored := alone_setColor bitBangSymbols call p.shared
  constructor
  · intro h
    have hon : call.OnStrip := by
      by_contra hoff
      obtain ⟨y, hy, hend, hpc⟩ := alone_offStrip bitBangSymbols hoff p.shared
      obtain rfl := h.end_unique rfl hy hend
      exact hpc rfl
    have hfree : p.shared.locked = false := by
      by_contra hlocked
      have htaken : p.shared.locked = true := by simpa using hlocked
      have heq := h.end_unique rfl (hcolored.trans (alone_copy _ hon _)) (if_pos htaken)
      cases congrArg (fun y => y.2.pc) heq
    have heq := h.end_unique rfl (hcolored.trans (alone_finish _ hon hfree)) rfl
    exact ⟨hfree, _, _, wsOp_ofOp bitBangSymbols hop hon _, congrArg Prod.fst heq⟩
  · rintro ⟨hfree, pixels, frame, hwsOp, rfl⟩
    have hon := onStrip_of_wsOp bitBangSymbols hop hwsOp
    have heq := hwsOp.symm.trans (wsOp_ofOp bitBangSymbols hop hon p.shared.pixels)
    obtain ⟨rfl, hframes⟩ := Prod.mk.inj (Option.some.inj heq)
    obtain rfl : frame = _ := (List.cons.inj (Prod.mk.inj hframes).1).1
    exact hcolored.trans (alone_finish _ hon hfree)

/-- A write alone, to the rows as they are at first. -/
theorem completes_iff_wsOp_led_3 : ∃ s', Completes (step bitBangSymbols) start
    ⟨loaded, []⟩ (enter (.write ⟨3, 255, 0, 7⟩)) s'
      ⟨.write ⟨3, 255, 0, 7⟩, .returned⟩ := by
  have hwsOp := @wsOp_ofOp _ bitBangSymbols (.write ⟨3, 255, 0, 7⟩) _ rfl ⟨by decide, by decide⟩
    initialPixels
  exact ⟨_, (completes_iff_wsOp rfl _ _).mpr ⟨rfl, _, _, hwsOp, rfl⟩⟩

end KernelDrivers.Ws2812.Interleaved
