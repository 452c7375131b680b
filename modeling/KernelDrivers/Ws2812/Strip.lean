import KernelDrivers.Lib.Loop
import KernelDrivers.Lib.Run

/-!
# The rows of a WS2812 strip

Two drivers keep 16 rows of 24 bytes, a byte for each bit of a colour, and run the same text over
them. They differ in the byte that stands for a bit and in how they send the rows, so their text
is written once over these. The device is registered, memory is not exhausted and the user's
buffer can be read. What a `RESET` does to the GPIO lines after the frame is left out.
-/

namespace KernelDrivers.Ws2812
open Lib

def EINVAL : Int32 := 22

/-- `_IOWR(type, nr, size)` -/
def iowr (type nr size : UInt32) : UInt32 :=
  (3 : UInt32) <<< 30 ||| size <<< 16 ||| type <<< 8 ||| nr

def RESET : UInt32 := iowr 530 1 4

example : RESET = 0xC0061201 := by decide

/-- `struct led_data` -/
structure LedData where
  ledNumber : Int32
  redIntensity : Int32
  greenIntensity : Int32
  blueIntensity : Int32
  deriving DecidableEq, Repr

abbrev Rows := CArray 16 (CArray 24 UInt8)

/-- `leds_pixel_data` and the scratch row. -/
structure Pixels where
  ledsPixelData : Rows
  singleLedData : CArray 24 UInt8

/-- The arrays are static. -/
def initialPixels : Pixels := ⟨fun _ _ => 0, fun _ => 0⟩

/-- What is a driver's own: the bytes for the two bits, and what it sends of the rows after a
write and after a reset. -/
structure StripDriver (φ : Type) where
  setBit1 : UInt8
  setBit0 : UInt8
  sendWrite : Rows → φ
  sendReset : Rows → φ

section Driver

variable {φ : Type} (driver : StripDriver φ)

/-- One of the three loops of `set_color`: the low eight bits of an intensity. -/
def setIntensity (intensity : Int32) (first : Nat) :
    CArray 24 UInt8 → Option (CArray 24 UInt8) :=
  forRange (fun index row => row.store (index : Int)
    (if intensity >>> Int32.ofNat (index - first) &&& 1 ≠ 0 then driver.setBit1
      else driver.setBit0)) first 8

def setColor (green red blue : Int32) (row : CArray 24 UInt8) : Option (CArray 24 UInt8) :=
  (setIntensity driver green 0 row).bind fun row =>
    (setIntensity driver red 8 row).bind (setIntensity driver blue 16)

/-- `leds_pixel_data[row][column] = x` -/
def storePixel (leds : Rows) (row column : Int) (x : UInt8) : Option Rows :=
  (leds.load row).bind fun r => (r.store column x).bind (leds.store row)

/-- The loop that copies the scratch row to a row of the strip. -/
def copyRow (row : CArray 24 UInt8) (number : Int) : Rows → Option Rows :=
  forRange (fun index leds => (row.load (index : Int)).bind (storePixel leds number index)) 0 24

def setLedRgb (number red green blue : Int32) (s : Pixels) : Option Pixels :=
  (setColor driver green red blue s.singleLedData).bind fun row =>
    (copyRow row number.toInt s.ledsPixelData).map fun leds => ⟨leds, row⟩

def resetLeds (s : Pixels) : Option (Pixels × φ) :=
  (setColor driver 0 0 0 s.singleLedData).bind fun row =>
    (forRange (fun rowIndex => copyRow row rowIndex) 0 16 s.ledsPixelData).map fun leds =>
      (⟨leds, row⟩, driver.sendReset leds)

/-! ## The calls of the device file -/

inductive WsOp where
  | openFile
  | write (info : LedData)
  | ioctl (ioctlnum : UInt32)
  | release
  deriving DecidableEq

/-- Each call answers with what was sent and the value returned. -/
def wsWrite (info : LedData) (s : Pixels) : Option (Pixels × List φ × Int32) :=
  (setLedRgb driver info.ledNumber info.redIntensity info.greenIntensity info.blueIntensity s).map
    fun s => (s, [driver.sendWrite s.ledsPixelData], 0)

def wsIoctl (ioctlnum : UInt32) (s : Pixels) : Option (Pixels × List φ × Int32) :=
  if ioctlnum = RESET then (resetLeds driver s).map fun (s, frame) => (s, [frame], 0)
  else some (s, [], EINVAL)

def wsRelease (s : Pixels) : Option (Pixels × List φ × Int32) :=
  (resetLeds driver s).map fun (s, frame) => (s, [frame], 0)

def wsOp (s : Pixels) : WsOp → Option (Pixels × List φ × Int32)
  | .openFile => some (s, [], 0)
  | .write info => wsWrite driver info s
  | .ioctl ioctlnum => wsIoctl driver ioctlnum s
  | .release => wsRelease driver s

end Driver

/-- The calls whose LED numbers lie on the strip. -/
def OnStrip (ops : List WsOp) : Prop :=
  ∀ info, .write info ∈ ops → 0 ≤ info.ledNumber.toInt ∧ info.ledNumber.toInt < 16

end KernelDrivers.Ws2812
