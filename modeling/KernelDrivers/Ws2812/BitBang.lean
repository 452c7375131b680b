import KernelDrivers.Ws2812.Picture

/-!
# The bit-banging driver

The driver sends a frame by calling one of two functions for each byte of the rows. Every frame
it sends shows the latest colours.
-/

namespace KernelDrivers.Ws2812
open Lib

/-! ## Sending a frame -/

/-- The function called for a bit: `send_bit_0_ndelay` or `send_bit_1_ndelay`. -/
inductive Symbol where
  | bit0
  | bit1
  deriving DecidableEq, Repr

/-- The calls of the nested loop, in order. -/
def writeToRegisters (leds : Rows) : List Symbol :=
  rowMajor fun ledIndex bitIndex => if leds ledIndex bitIndex = 1 then .bit1 else .bit0

inductive PortOp where
  | iowrite32 (value : UInt32)
  | ndelay (nanoseconds : Nat)
  deriving DecidableEq

/-- `BIT(offset % 32)` -/
def pinBit : UInt32 := (1 : UInt32) <<< (4 % 32)

def iowrite32High (valData : UInt32) : PortOp := .iowrite32 (valData ||| pinBit)

def iowrite32Low (valData : UInt32) : PortOp := .iowrite32 (valData &&& ~~~pinBit)

/-- What the two functions do to the port. -/
def Symbol.send (valData : UInt32) : Symbol → List PortOp
  | .bit0 =>
    [iowrite32High valData, iowrite32High valData, iowrite32Low valData, .ndelay 500]
  | .bit1 =>
    [iowrite32High valData, .ndelay 400, iowrite32Low valData, .ndelay 800]

/-- The symbols of a frame can be told from what happens at the port. -/
theorem flatMap_send_injective (valData : UInt32) :
    Function.Injective (List.flatMap (Symbol.send valData)) := by
  intro frame frame' h
  induction frame generalizing frame' with
  | nil =>
    cases frame' with
    | nil => rfl
    | cons x frame' => cases x <;> simp [Symbol.send] at h
  | cons x frame ih =>
    cases frame' with
    | nil => cases x <;> simp [Symbol.send] at h
    | cons y frame' =>
      cases x <;> cases y <;> simp [Symbol.send, iowrite32High] at h
      all_goals rw [ih h]

/-! ## The driver -/

def bitBang : StripDriver (List Symbol) where
  setBit1 := 1
  setBit0 := 0
  sendWrite := writeToRegisters
  sendReset := writeToRegisters

namespace BitBang

abbrev setColor := Ws2812.setColor bitBang
abbrev setLedRgb := Ws2812.setLedRgb bitBang
abbrev resetLeds := Ws2812.resetLeds bitBang
abbrev wsWrite := Ws2812.wsWrite bitBang
abbrev wsIoctl := Ws2812.wsIoctl bitBang
abbrev wsRelease := Ws2812.wsRelease bitBang
abbrev wsOp := Ws2812.wsOp bitBang

end BitBang

def BOARD_IO_PIN : Int32 := 12
def LEVEL_SHIFTER : Int32 := 28
def PINMUX_1 : Int32 := 45

/-- The part of the initialisation that follows the registration. `gpioRequest` is what the kernel
answers; a refused line ends it without a reset. -/
def ws2812DriverInit (gpioRequest : Int32 → Int32) :
    Option (Pixels × List (List Symbol) × Int32) :=
  if gpioRequest BOARD_IO_PIN ≠ 0 then some (initialPixels, [], 0)
  else if gpioRequest LEVEL_SHIFTER ≠ 0 then some (initialPixels, [], 0)
  else if gpioRequest PINMUX_1 ≠ 0 then some (initialPixels, [], 0)
  else (BitBang.resetLeds initialPixels).map fun (s, frame) => (s, [frame], 0)

/-! ## What a frame shows -/

/-- Eight symbols read as a number, with bit `j` at position `j`. -/
def readNumber (frame : List Symbol) (first : Nat) : Nat :=
  Nat.ofBits fun j : Fin 8 => decide (frame[first + j]? = some .bit1)

/-- The last write to LED `i`, when it was `last` before the call. -/
def noteWrite (i : Fin 16) (last : Option LedData) : WsOp → Option LedData
  | .openFile => last
  | .write info => if info.ledNumber.toInt = (i : Nat) then some info else last
  | .ioctl ioctlnum => if ioctlnum = RESET then none else last
  | .release => none

/-- The last write to LED `i` since the last reset. -/
def lastWrite (i : Fin 16) (ops : List WsOp) : Option LedData := ops.foldl (noteWrite i) none

/-- The frame has 384 symbols, and each LED's are its green, red and blue intensities modulo 256
after the calls `ops`. -/
def Shows (frame : List Symbol) (ops : List WsOp) : Prop :=
  frame.length = 384 ∧ ∀ i : Fin 16,
    (readNumber frame (24 * i) : Int) =
      ((lastWrite i ops).elim 0 fun info => info.greenIntensity.toInt) % 256 ∧
    (readNumber frame (24 * i + 8) : Int) =
      ((lastWrite i ops).elim 0 fun info => info.redIntensity.toInt) % 256 ∧
    (readNumber frame (24 * i + 16) : Int) =
      ((lastWrite i ops).elim 0 fun info => info.blueIntensity.toInt) % 256

/-- The calls that send a frame. -/
def WsOp.sends : WsOp → Bool
  | .openFile => false
  | .write _ => true
  | .ioctl ioctlnum => ioctlnum = RESET
  | .release => true

/-- The frame that is sent of the rows that show a picture. -/
def Picture.frame (p : Picture) : List Symbol :=
  rowMajor fun i index => if p i index then .bit1 else .bit0

theorem writeToRegisters_rows (p : Picture) : writeToRegisters (p.rows bitBang) = p.frame := by
  refine congrArg rowMajor (funext fun i => funext fun index => ?_)
  cases h : p i index <;> simp [Picture.rows, bitBang, h]

@[simp] theorem sendWrite_rows (p : Picture) : bitBang.sendWrite (p.rows bitBang) = p.frame :=
  writeToRegisters_rows p

@[simp] theorem sendReset_rows (p : Picture) : bitBang.sendReset (p.rows bitBang) = p.frame :=
  writeToRegisters_rows p

theorem Picture.frame_getElem? (p : Picture) (i : Fin 16) (index : Fin 24) :
    p.frame[24 * i.val + index.val]? = some (if p i index then .bit1 else .bit0) :=
  rowMajor_getElem? _ i index

/-- Eight bits of a row that are the low bits of a number. -/
theorem readNumber_frame {p : Picture} {i : Fin 16} (first n : Nat) (hfirst : first + 8 ≤ 24)
    (hbits : ∀ j, (hj : j < 8) → p i ⟨first + j, by omega⟩ = n.testBit j) :
    readNumber p.frame (24 * i + first) = n % 2 ^ 8 := by
  rw [← Nat.ofBits_testBit n 8, readNumber]
  refine congrArg Nat.ofBits (funext fun j => ?_)
  have hget := p.frame_getElem? i ⟨first + j, by omega⟩
  rw [Nat.add_assoc, hget, hbits j j.isLt]
  cases n.testBit j <;> simp

theorem toInt_emod (x : Int32) : x.toInt % 256 = ((x.toBitVec.toNat % 2 ^ 8 : Nat) : Int) := by
  have h := BitVec.toInt_eq_toNat_cond x.toBitVec
  have hlt := x.toBitVec.isLt
  rw [Int32.toInt, h]
  split <;> omega

/-- The three numbers of a row that shows a colour. -/
theorem readNumber_colorBits {p : Picture} {i : Fin 16} {green red blue : Int32}
    (h : p i = colorBits green red blue) :
    (readNumber p.frame (24 * i) : Int) = green.toInt % 256 ∧
      (readNumber p.frame (24 * i + 8) : Int) = red.toInt % 256 ∧
      (readNumber p.frame (24 * i + 16) : Int) = blue.toInt % 256 := by
  have hgreen : readNumber p.frame (24 * i + 0) = green.toBitVec.toNat % 2 ^ 8 :=
    readNumber_frame 0 _ (by omega) fun j hj => by simp [h, colorBits, hj]
  have hred : readNumber p.frame (24 * i + 8) = red.toBitVec.toNat % 2 ^ 8 :=
    readNumber_frame 8 _ (by omega) fun j hj => by simp [h, colorBits, show 8 + j < 16 by omega]
  have hblue : readNumber p.frame (24 * i + 16) = blue.toBitVec.toNat % 2 ^ 8 :=
    readNumber_frame 16 _ (by omega) fun j hj => by
      simp [h, colorBits, show ¬ 16 + j < 8 by omega]
  rw [toInt_emod, toInt_emod, toInt_emod, ← hgreen, ← hred, ← hblue]
  exact ⟨rfl, rfl, rfl⟩

/-- A row shows the last write to it after every list of calls. -/
theorem foldl_after_eq {p : Picture} {i : Fin 16} {last : Option LedData}
    (h : p i = last.elim (fun _ => false) LedData.bits) (ops : List WsOp) :
    (ops.foldl Picture.after p) i =
      (ops.foldl (noteWrite i) last).elim (fun _ => false) LedData.bits := by
  induction ops generalizing p last with
  | nil => exact h
  | cons op ops ih =>
    refine ih ?_
    cases op with
    | openFile => exact h
    | write info =>
      by_cases hi : info.ledNumber.toInt = (i : Nat)
      · simp [Picture.after, noteWrite, hi]
      · simpa [Picture.after, noteWrite, hi] using h
    | ioctl ioctlnum =>
      by_cases hreset : ioctlnum = RESET
      · simp [Picture.after, noteWrite, hreset]
      · simpa [Picture.after, noteWrite, hreset] using h
    | release => simp [Picture.after, noteWrite]

theorem shows_frame (ops : List WsOp) : Shows (ops.foldl Picture.after dark).frame ops := by
  refine ⟨rowMajor_length _, fun i => ?_⟩
  have hpicture : (ops.foldl Picture.after dark) i =
      (lastWrite i ops).elim (fun _ => false) LedData.bits := foldl_after_eq rfl ops
  cases hlast : lastWrite i ops with
  | none =>
    rw [hlast] at hpicture
    have hdark : colorBits 0 0 0 = fun _ => false := by
      funext index
      simp [colorBits]
    exact readNumber_colorBits (hpicture.trans hdark.symm)
  | some info =>
    rw [hlast] at hpicture
    exact readNumber_colorBits hpicture

/-- The frames of an answer are the picture's, one for a call that sends and none otherwise. -/
theorem answer_frames (p : Picture) (op : WsOp) :
    (p.answer bitBang op).1 = if op.sends then [p.frame] else [] := by
  cases op with
  | openFile => rfl
  | write info => simp [Picture.answer, WsOp.sends]
  | ioctl ioctlnum =>
    by_cases hreset : ioctlnum = RESET <;> simp [Picture.answer, WsOp.sends, hreset]
  | release => simp [Picture.answer, WsOp.sends]

/-- The rows show the dark picture after the initialisation, and so does a frame it sends. -/
theorem ws2812DriverInit_eq (gpioRequest : Int32 → Int32) : ∃ s frames,
    ws2812DriverInit gpioRequest = some (s, frames, 0) ∧
      s.ledsPixelData = dark.rows bitBang ∧ ∀ frame ∈ frames, frame = dark.frame := by
  have hinitial : initialPixels.ledsPixelData = dark.rows bitBang := rfl
  obtain ⟨row, hreset⟩ := resetLeds_eq bitBang initialPixels
  unfold ws2812DriverInit
  split
  · exact ⟨_, [], rfl, hinitial, by simp⟩
  · split
    · exact ⟨_, [], rfl, hinitial, by simp⟩
    · split
      · exact ⟨_, [], rfl, hinitial, by simp⟩
      · refine ⟨⟨dark.rows bitBang, row⟩, [bitBang.sendReset (dark.rows bitBang)], ?_, rfl, ?_⟩
        · rw [BitBang.resetLeds, hreset]
          rfl
        · simp

/-- From the initialisation on, every call that sends sends one frame, and it shows the latest
colours. -/
theorem frames_show_latest (gpioRequest : Int32 → Int32) (ops : List WsOp) (hon : OnStrip ops) :
    ∃ s frames t outs, ws2812DriverInit gpioRequest = some (s, frames, 0) ∧
      (∀ frame ∈ frames, Shows frame []) ∧ run BitBang.wsOp s ops = some (t, outs) ∧
      ∀ k op, ops[k]? = some op → ∃ sent ret, outs[k]? = some (sent, ret) ∧
        sent.length = (if op.sends then 1 else 0) ∧
        ∀ frame ∈ sent, Shows frame (ops.take (k + 1)) := by
  obtain ⟨s, frames, hinit, hrows, hframes⟩ := ws2812DriverInit_eq gpioRequest
  obtain ⟨t, hrun⟩ := run_wsOp_eq bitBang hrows hon
  refine ⟨s, frames, t, _, hinit, ?_, hrun, fun k op hop => ?_⟩
  · intro frame hmem
    rw [hframes frame hmem]
    exact shows_frame []
  · have hsent := answer_frames ((ops.take (k + 1)).foldl Picture.after dark) op
    have hget := Picture.answers_getElem? bitBang dark ops k
    rw [hop, Option.map_some] at hget
    generalize Picture.answer bitBang ((ops.take (k + 1)).foldl Picture.after dark) op = out
      at hsent hget
    refine ⟨out.1, out.2, hget, ?_, ?_⟩
    · rw [hsent]
      cases op.sends <;> rfl
    · rw [hsent]
      cases op.sends with
      | false => simp
      | true => simpa using shows_frame (ops.take (k + 1))

/-- Intensities beyond a byte and below zero, and a reset between two writes. -/
theorem frames_show_latest_two_writes :
    let ops : List WsOp := [.write ⟨3, 300, -1, 7⟩, .ioctl RESET, .write ⟨15, 1, 2, 3⟩]
    ∃ s frames t outs, ws2812DriverInit (fun _ => 0) = some (s, frames, 0) ∧
      (∀ frame ∈ frames, Shows frame []) ∧ run BitBang.wsOp s ops = some (t, outs) ∧
      ∀ k op, ops[k]? = some op → ∃ sent ret, outs[k]? = some (sent, ret) ∧
        sent.length = (if op.sends then 1 else 0) ∧
        ∀ frame ∈ sent, Shows frame (ops.take (k + 1)) := by
  refine frames_show_latest _ _ fun info hmem => ?_
  obtain rfl | rfl : info = ⟨3, 300, -1, 7⟩ ∨ info = ⟨15, 1, 2, 3⟩ := by simpa using hmem
  · decide
  · decide

end KernelDrivers.Ws2812
