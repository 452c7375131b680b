import KernelDrivers.Ws2812.BitBang
import KernelDrivers.Lib.Run

/-!
# Bit banging with a timer

The delay test sends two frames, all LEDs on and all LEDs off, in several ways. A busy-waiting
loop sets the line and waits. With a high resolution timer each expiry sets the line once, counts,
and moves the expiry on by the time the level is to last, until both frames are sent. What the
timer sends is what the loop sends, without the pause between the frames.
-/

namespace KernelDrivers.Ws2812.DelayTest
open Lib

def TOTAL_LED_BITS : Int32 := 384
def HIGH_VOLTAGE_TIME_1 : Nat := 700
def LOW_VOLTAGE_TIME_1 : Nat := 600
def HIGH_VOLTAGE_TIME_0 : Nat := 350
def LOW_VOLTAGE_TIME_0 : Nat := 800

inductive DelayOp where
  | gpioSetValue (pin : Int32) (high : Bool)
  | iowrite32 (value : UInt32)
  | ndelay (nanoseconds : Nat)
  | ssleep (seconds : Nat)
  deriving DecidableEq

def setGpioHigh : DelayOp := .gpioSetValue BOARD_IO_PIN true

def setGpioLow : DelayOp := .gpioSetValue BOARD_IO_PIN false

/-- `iowrite32_1` -/
def portHigh (valData : UInt32) : DelayOp := .iowrite32 (valData ||| pinBit)

/-- `iowrite32_0` -/
def portLow (valData : UInt32) : DelayOp := .iowrite32 (valData &&& ~~~pinBit)

/-! ## Busy waiting -/

def sendBit0Ndelay : List DelayOp :=
  [setGpioHigh, .ndelay HIGH_VOLTAGE_TIME_0, setGpioLow, .ndelay LOW_VOLTAGE_TIME_0]

def sendBit1Ndelay : List DelayOp :=
  [setGpioHigh, .ndelay HIGH_VOLTAGE_TIME_1, setGpioLow, .ndelay LOW_VOLTAGE_TIME_1]

/-- The nested loop over LEDs and bits. -/
def everyBit (bit : List DelayOp) : List DelayOp :=
  (rowMajor fun (_ : Fin 16) (_ : Fin 24) => bit).flatten

def bitBangNdelayGpio : List DelayOp :=
  everyBit sendBit1Ndelay ++ .ssleep 2 :: everyBit sendBit0Ndelay

/-! ## The callbacks of the timer -/

/-- The variables of the callbacks. A `ktime_t` counts nanoseconds. -/
structure BitState where
  hrtimerIndex : Int32
  sendBit : Int32
  bitCycle : Int32
  hrtimeExpires : Nat
  deriving DecidableEq

/-- What a callback does to the line, and what it adds to the expiry when it restarts the timer. -/
structure Fired where
  write : Option DelayOp
  added : Option Nat
  deriving DecidableEq

def hrTimerExpired (s : BitState) : BitState × Fired :=
  let s := { s with sendBit := 1 }
  if s.hrtimerIndex < TOTAL_LED_BITS ∧ s.bitCycle = 1 then
    ({ s with hrtimeExpires := HIGH_VOLTAGE_TIME_1, bitCycle := 0 },
      ⟨some setGpioHigh, some HIGH_VOLTAGE_TIME_1⟩)
  else if s.hrtimerIndex < TOTAL_LED_BITS ∧ s.bitCycle = 0 then
    ({ s with
        hrtimeExpires := LOW_VOLTAGE_TIME_1
        bitCycle := 1
        hrtimerIndex := s.hrtimerIndex + 1 },
      ⟨some setGpioLow, some LOW_VOLTAGE_TIME_1⟩)
  else
    let s := { s with sendBit := 0 }
    if s.hrtimerIndex < 2 * TOTAL_LED_BITS ∧ s.bitCycle = 1 then
      ({ s with hrtimeExpires := HIGH_VOLTAGE_TIME_0, bitCycle := 0 },
        ⟨some setGpioHigh, some HIGH_VOLTAGE_TIME_0⟩)
    else if s.hrtimerIndex < 2 * TOTAL_LED_BITS ∧ s.bitCycle = 0 then
      ({ s with
          hrtimeExpires := LOW_VOLTAGE_TIME_0
          bitCycle := 1
          hrtimerIndex := s.hrtimerIndex + 1 },
        ⟨some setGpioLow, some LOW_VOLTAGE_TIME_0⟩)
    else (s, ⟨none, none⟩)

/-- Within a frame the timer is restarted whatever `bit_cycle` is. -/
def hrTimerExpiredIowrite32 (valData : UInt32) (s : BitState) : BitState × Fired :=
  let s := { s with sendBit := 1 }
  if s.hrtimerIndex < TOTAL_LED_BITS then
    if s.bitCycle = 1 then
      ({ s with hrtimeExpires := HIGH_VOLTAGE_TIME_1, bitCycle := 0 },
        ⟨some (portHigh valData), some HIGH_VOLTAGE_TIME_1⟩)
    else if s.bitCycle = 0 then
      ({ s with
          hrtimeExpires := LOW_VOLTAGE_TIME_1
          bitCycle := 1
          hrtimerIndex := s.hrtimerIndex + 1 },
        ⟨some (portLow valData), some LOW_VOLTAGE_TIME_1⟩)
    else (s, ⟨none, some s.hrtimeExpires⟩)
  else
    let s := { s with sendBit := 0 }
    if s.hrtimerIndex < 2 * TOTAL_LED_BITS then
      if s.bitCycle = 1 then
        ({ s with hrtimeExpires := 10, bitCycle := 0 }, ⟨some (portHigh valData), some 10⟩)
      else if s.bitCycle = 0 then
        ({ s with hrtimeExpires := 500, bitCycle := 1, hrtimerIndex := s.hrtimerIndex + 1 },
          ⟨some (portLow valData), some 500⟩)
      else (s, ⟨none, some s.hrtimeExpires⟩)
    else (s, ⟨none, none⟩)

/-! ## The timer -/

/-- `expiry` is the time at which the timer expires next, unless it is inactive. -/
structure HrTimer where
  bits : BitState
  expiry : Option Nat

/-- The timer expires and runs its callback, which answers with the time it was due. -/
def expire (callback : BitState → BitState × Fired) (timer : HrTimer) (_ : Unit) :
    Option (HrTimer × Nat × Option DelayOp) :=
  timer.expiry.map fun expiry =>
    let (bits, fired) := callback timer.bits
    (⟨bits, fired.added.map (expiry + ·)⟩, expiry, fired.write)

/-- The timer as `bit_bang_hrtimer_gpio` and `bit_bang_hrtimer_iowrite32` start it at `now`. -/
def hrtimerStart (bits : BitState) (now : Nat) : HrTimer :=
  ⟨{ bits with hrtimerIndex := 0, bitCycle := 1, hrtimeExpires := 350 }, some (now + 350)⟩

/-- The two ways to set the line, each with its callback. -/
inductive Variant where
  | gpio
  | iowrite32 (valData : UInt32)

def Variant.callback : Variant → BitState → BitState × Fired
  | .gpio => hrTimerExpired
  | .iowrite32 valData => hrTimerExpiredIowrite32 valData

/-! ## What is sent -/

/-- The times at which the line is set by operations that begin at `now`. -/
def timeline : Nat → List DelayOp → List (Nat × DelayOp)
  | _, [] => []
  | now, .ndelay nanoseconds :: ops => timeline (now + nanoseconds) ops
  | now, .ssleep seconds :: ops => timeline (now + seconds * 10 ^ 9) ops
  | now, op :: ops => (now, op) :: timeline now ops

/-- Two frames of 384 equal bits each, as writes and the time each of them lasts. -/
structure Waveform where
  high : DelayOp
  low : DelayOp
  high1 : Nat
  low1 : Nat
  high0 : Nat
  low0 : Nat

namespace Waveform

variable (w : Waveform)

/-- The write at an expiry and its time, for expiries numbered from 0. -/
def write (k : Nat) : DelayOp := if k % 2 = 0 then w.high else w.low

def hold (k : Nat) : Nat :=
  if k < 768 then if k % 2 = 0 then w.high1 else w.low1
  else if k % 2 = 0 then w.high0 else w.low0

/-- The times of the next `n` expiries, with their writes, from the one numbered `k` at `now`. -/
def expiries : Nat → Nat → Nat → List (Nat × DelayOp)
  | 0, _, _ => []
  | n + 1, k, now => (now, w.write k) :: expiries n (k + 1) (now + w.hold k)

/-- How long `n` expiries last. -/
def length : Nat → Nat → Nat
  | 0, _ => 0
  | n + 1, k => w.hold k + length n (k + 1)

end Waveform

/-! ## The callbacks send the waveform -/

def Variant.waveform : Variant → Waveform
  | .gpio => ⟨setGpioHigh, setGpioLow, HIGH_VOLTAGE_TIME_1, LOW_VOLTAGE_TIME_1,
      HIGH_VOLTAGE_TIME_0, LOW_VOLTAGE_TIME_0⟩
  | .iowrite32 valData =>
    ⟨portHigh valData, portLow valData, HIGH_VOLTAGE_TIME_1, LOW_VOLTAGE_TIME_1, 10, 500⟩

/-- The variables before the expiry numbered `k`. -/
structure BitState.At (s : BitState) (k : Nat) : Prop where
  hrtimerIndex : s.hrtimerIndex = Int32.ofNat (k / 2)
  bitCycle : s.bitCycle = if k % 2 = 0 then 1 else 0

theorem ofNat_lt_iff {m n : Nat} (hm : m < 2 ^ 31) (hn : n < 2 ^ 31) :
    Int32.ofNat m < Int32.ofNat n ↔ m < n := by
  rw [Int32.lt_iff_toInt_lt, Int32.toInt_ofNat_of_lt hm, Int32.toInt_ofNat_of_lt hn]
  omega

/-- The callback counts the expiries, sends the waveform and stops after it. -/
structure Sends (callback : BitState → BitState × Fired) (w : Waveform) : Prop where
  next : ∀ {s : BitState} {k : Nat}, k < 1536 → s.At k →
    (callback s).1.At (k + 1) ∧ (callback s).2 = ⟨some (w.write k), some (w.hold k)⟩
  stop : ∀ {s : BitState}, s.At 1536 → (callback s).2 = ⟨none, none⟩

theorem index_lt {k : Nat} (hk : k ≤ 1536) :
    (Int32.ofNat (k / 2) < TOTAL_LED_BITS ↔ k < 768) ∧
      (Int32.ofNat (k / 2) < 2 * TOTAL_LED_BITS ↔ k < 1536) := by
  have hfirst : Int32.ofNat (k / 2) < TOTAL_LED_BITS ↔ k / 2 < 384 :=
    @ofNat_lt_iff (k / 2) 384 (by omega) (by omega)
  have hsecond : Int32.ofNat (k / 2) < 2 * TOTAL_LED_BITS ↔ k / 2 < 768 :=
    @ofNat_lt_iff (k / 2) 768 (by omega) (by omega)
  rw [hfirst, hsecond]
  omega

theorem index_succ (m : Nat) : Int32.ofNat m + 1 = Int32.ofNat (m + 1) :=
  (Int32.ofNat_add m 1).symm

/-- The variables after an expiry of either kind. -/
theorem BitState.At.of_even {s : BitState} {k : Nat} (heven : k % 2 = 0)
    (hindex : s.hrtimerIndex = Int32.ofNat (k / 2)) (hcycle : s.bitCycle = 0) : s.At (k + 1) where
  hrtimerIndex := by rw [hindex, show (k + 1) / 2 = k / 2 by omega]
  bitCycle := by rw [hcycle, if_neg (by omega)]

theorem BitState.At.of_odd {s : BitState} {k : Nat} (hodd : k % 2 = 1)
    (hindex : s.hrtimerIndex = Int32.ofNat (k / 2) + 1) (hcycle : s.bitCycle = 1) :
    s.At (k + 1) where
  hrtimerIndex := by rw [hindex, index_succ, show (k + 1) / 2 = k / 2 + 1 by omega]
  bitCycle := by rw [hcycle, if_pos (by omega)]

theorem not_index_end :
    ¬ (768 : Int32) < TOTAL_LED_BITS ∧ ¬ (768 : Int32) < 2 * TOTAL_LED_BITS := by
  decide

theorem hrTimerExpired_sends : Sends hrTimerExpired Variant.gpio.waveform where
  next := by
    rintro ⟨index, sendBit, bitCycle, expires⟩ k hk ⟨rfl, rfl⟩
    obtain ⟨hfirst, hsecond⟩ := index_lt hk.le
    rcases Nat.mod_two_eq_zero_or_one k with heven | hodd
    · by_cases hframe : k < 768
      · refine ⟨.of_even heven ?_ ?_, ?_⟩ <;>
          simp [hrTimerExpired, hfirst, heven, hframe, Waveform.write, Waveform.hold,
            Variant.waveform]
      · refine ⟨.of_even heven ?_ ?_, ?_⟩ <;>
          simp [hrTimerExpired, hfirst, hsecond, heven, hframe, hk, Waveform.write, Waveform.hold,
            Variant.waveform]
    · by_cases hframe : k < 768
      · refine ⟨.of_odd hodd ?_ ?_, ?_⟩ <;>
          simp [hrTimerExpired, hfirst, hodd, hframe, Waveform.write, Waveform.hold,
            Variant.waveform]
      · refine ⟨.of_odd hodd ?_ ?_, ?_⟩ <;>
          simp [hrTimerExpired, hfirst, hsecond, hodd, hframe, hk, Waveform.write, Waveform.hold,
            Variant.waveform]
  stop := by
    rintro ⟨index, sendBit, bitCycle, expires⟩ ⟨rfl, rfl⟩
    simp [hrTimerExpired, not_index_end]

theorem hrTimerExpiredIowrite32_sends (valData : UInt32) :
    Sends (hrTimerExpiredIowrite32 valData) (Variant.iowrite32 valData).waveform where
  next := by
    rintro ⟨index, sendBit, bitCycle, expires⟩ k hk ⟨rfl, rfl⟩
    obtain ⟨hfirst, hsecond⟩ := index_lt hk.le
    rcases Nat.mod_two_eq_zero_or_one k with heven | hodd
    · by_cases hframe : k < 768
      · refine ⟨.of_even heven ?_ ?_, ?_⟩ <;>
          simp [hrTimerExpiredIowrite32, hfirst, heven, hframe, Waveform.write, Waveform.hold,
            Variant.waveform]
      · refine ⟨.of_even heven ?_ ?_, ?_⟩ <;>
          simp [hrTimerExpiredIowrite32, hfirst, hsecond, heven, hframe, hk, Waveform.write,
            Waveform.hold, Variant.waveform]
    · by_cases hframe : k < 768
      · refine ⟨.of_odd hodd ?_ ?_, ?_⟩ <;>
          simp [hrTimerExpiredIowrite32, hfirst, hodd, hframe, Waveform.write, Waveform.hold,
            Variant.waveform]
      · refine ⟨.of_odd hodd ?_ ?_, ?_⟩ <;>
          simp [hrTimerExpiredIowrite32, hfirst, hsecond, hodd, hframe, hk, Waveform.write,
            Waveform.hold, Variant.waveform]
  stop := by
    rintro ⟨index, sendBit, bitCycle, expires⟩ ⟨rfl, rfl⟩
    simp [hrTimerExpiredIowrite32, not_index_end]

theorem Variant.sends : ∀ v : Variant, Sends v.callback v.waveform
  | .gpio => hrTimerExpired_sends
  | .iowrite32 valData => hrTimerExpiredIowrite32_sends valData

/-! ## Runs of the timer -/

section Runs

variable {callback : BitState → BitState × Fired} {w : Waveform}

theorem Sends.expire (h : Sends callback w) {bits : BitState} {k : Nat} (hk : k < 1536)
    (hat : bits.At k) (now : Nat) : ∃ bits', expire callback ⟨bits, some now⟩ () =
      some (⟨bits', some (now + w.hold k)⟩, now, some (w.write k)) ∧ bits'.At (k + 1) := by
  obtain ⟨hnext, hfired⟩ := h.next hk hat
  exact ⟨_, by simp [DelayTest.expire, hfired], hnext⟩

/-- Until the waveform is sent, the timer expires on time and sets the line. -/
theorem Sends.run (h : Sends callback w) {bits : BitState} {n k : Nat} (hk : k + n ≤ 1536)
    (hat : bits.At k) (now : Nat) : ∃ bits', run (DelayTest.expire callback) ⟨bits, some now⟩
        (List.replicate n ()) =
      some (⟨bits', some (now + w.length n k)⟩,
        (w.expiries n k now).map fun (time, write) => (time, some write)) ∧ bits'.At (k + n) := by
  induction n generalizing bits k now with
  | zero => exact ⟨bits, rfl, hat⟩
  | succ n ih =>
    obtain ⟨bits₁, hexpire, hat₁⟩ := h.expire (by omega) hat now
    obtain ⟨bits', hrun, hat'⟩ := ih (by omega) hat₁ (now + w.hold k)
    refine ⟨bits', ?_, by rwa [show k + (n + 1) = k + 1 + n by omega]⟩
    rw [List.replicate_succ, run_cons_of_some _ hexpire, hrun, Waveform.length, ← Nat.add_assoc]
    rfl

/-- The expiry after the waveform leaves the timer inactive. -/
theorem Sends.run_end (h : Sends callback w) {bits : BitState} (hat : bits.At 0) (now : Nat) :
    ∃ bits', Lib.run (DelayTest.expire callback) ⟨bits, some now⟩ (List.replicate 1537 ()) =
      some (⟨bits', none⟩, ((w.expiries 1536 0 now).map fun (time, write) => (time, some write)) ++
        [(now + w.length 1536 0, none)]) := by
  obtain ⟨bits₁, hrun, hat₁⟩ := h.run (n := 1536) (by omega) hat now
  have hlast : DelayTest.expire callback ⟨bits₁, some (now + w.length 1536 0)⟩ () =
      some (⟨(callback bits₁).1, none⟩, now + w.length 1536 0, none) := by
    simp [DelayTest.expire, h.stop hat₁]
  refine ⟨(callback bits₁).1, ?_⟩
  rw [List.replicate_succ']
  exact run_trans _ hrun (run_singleton _ hlast)

end Runs

theorem hrtimerStart_at (bits : BitState) :
    BitState.At { bits with hrtimerIndex := 0, bitCycle := 1, hrtimeExpires := 350 } 0 :=
  ⟨rfl, rfl⟩

/-- Either callback sets the line at each of 1536 expiries, each on time, and restarts the timer;
the next expiry sets nothing and is the last one. -/
theorem timer_sends_frames (v : Variant) (bits : BitState) (now : Nat) :
    (∀ n ≤ 1536, ∃ timer, run (expire v.callback) (hrtimerStart bits now) (List.replicate n ()) =
        some (timer, (v.waveform.expiries n 0 (now + 350)).map
          fun (time, write) => (time, some write)) ∧ timer.expiry ≠ none) ∧
      ∃ timer, run (expire v.callback) (hrtimerStart bits now) (List.replicate 1537 ()) =
        some (timer, ((v.waveform.expiries 1536 0 (now + 350)).map
          fun (time, write) => (time, some write)) ++
            [(now + 350 + v.waveform.length 1536 0, none)]) ∧ timer.expiry = none := by
  constructor
  · intro n hn
    obtain ⟨bits', hrun, -⟩ := v.sends.run (n := n) (by omega) (hrtimerStart_at bits) (now + 350)
    exact ⟨_, hrun, by simp⟩
  · obtain ⟨bits', hrun⟩ := v.sends.run_end (hrtimerStart_at bits) (now + 350)
    exact ⟨_, hrun, rfl⟩

/-! ## The loop -/

def DelayOp.sleeps : DelayOp → Bool
  | .ssleep _ => true
  | _ => false

theorem everyBit_eq (bit : List DelayOp) : everyBit bit = (List.replicate 384 bit).flatten := by
  rw [everyBit, rowMajor_eq, List.ofFn_const]

theorem Waveform.expiries_add (w : Waveform) (n m k now : Nat) :
    w.expiries (n + m) k now =
      w.expiries n k now ++ w.expiries m (k + n) (now + w.length n k) := by
  induction n generalizing k now with
  | zero => simp [Waveform.expiries, Waveform.length]
  | succ n ih =>
    rw [Nat.succ_add, Waveform.expiries, Waveform.expiries, Waveform.length, ih, List.cons_append]
    grind

theorem Waveform.length_add (w : Waveform) (n m k : Nat) :
    w.length (n + m) k = w.length n k + w.length m (k + n) := by
  induction n generalizing k with
  | zero => simp [Waveform.length]
  | succ n ih =>
    rw [Nat.succ_add, Waveform.length, Waveform.length, ih]
    grind

theorem Waveform.expiries_length (w : Waveform) (n k now : Nat) :
    (w.expiries n k now).length = n := by
  induction n generalizing k now with
  | zero => rfl
  | succ n ih => rw [Waveform.expiries, List.length_cons, ih]

theorem Waveform.expiries_take (w : Waveform) {n m : Nat} (h : n ≤ m) (k now : Nat) :
    (w.expiries m k now).take n = w.expiries n k now := by
  obtain ⟨d, rfl⟩ := Nat.exists_eq_add_of_le h
  rw [w.expiries_add, List.take_left' (w.expiries_length n k now)]

/-- Busy waiting for `n` equal bits sets the line when the timer would. -/
theorem timeline_bits {high low n k : Nat} (now : Nat)
    (hhold : ∀ j < n, Variant.gpio.waveform.hold (k + 2 * j) = high ∧
      Variant.gpio.waveform.hold (k + 2 * j + 1) = low) (heven : k % 2 = 0) (rest : List DelayOp) :
    timeline now ((List.replicate n [setGpioHigh, .ndelay high, setGpioLow, .ndelay low]).flatten ++
        rest) =
      Variant.gpio.waveform.expiries (2 * n) k now ++
        timeline (now + Variant.gpio.waveform.length (2 * n) k) rest := by
  induction n generalizing k now with
  | zero => rfl
  | succ n ih =>
    obtain ⟨hhigh, hlow⟩ := hhold 0 (by omega)
    rw [Nat.mul_zero, Nat.add_zero] at hhigh hlow
    have hwrites : Variant.gpio.waveform.write k = setGpioHigh ∧
        Variant.gpio.waveform.write (k + 1) = setGpioLow := by
      rw [Waveform.write, Waveform.write, if_pos heven, if_neg (by omega)]
      exact ⟨rfl, rfl⟩
    have hrest := ih (k := k + 2) (now + high + low) (fun j hj => by
      rw [show k + 2 + 2 * j = k + 2 * (j + 1) by omega]
      exact hhold (j + 1) (by omega)) (by omega)
    rw [Nat.mul_succ, Waveform.expiries, Waveform.expiries, Waveform.length, Waveform.length,
      hhigh, hlow, hwrites.1, hwrites.2, ← Nat.add_assoc, ← Nat.add_assoc]
    exact congrArg (fun l => (now, setGpioHigh) :: (now + high, setGpioLow) :: l) hrest

/-- Two equal levels of each bit. -/
theorem length_bits {w : Waveform} {high low n k : Nat}
    (hhold : ∀ j < n, w.hold (k + 2 * j) = high ∧ w.hold (k + 2 * j + 1) = low) :
    w.length (2 * n) k = n * (high + low) := by
  induction n generalizing k with
  | zero => simp [Waveform.length]
  | succ n ih =>
    obtain ⟨hhigh, hlow⟩ := hhold 0 (by omega)
    rw [Nat.mul_zero, Nat.add_zero] at hhigh hlow
    have hrest := ih (k := k + 2) fun j hj => by
      rw [show k + 2 + 2 * j = k + 2 * (j + 1) by omega]
      exact hhold (j + 1) (by omega)
    rw [Nat.mul_succ, Waveform.length, Waveform.length, hhigh, hlow, hrest]
    grind

theorem hold_first (w : Waveform) {j : Nat} (hj : j < 384) :
    w.hold (0 + 2 * j) = w.high1 ∧ w.hold (0 + 2 * j + 1) = w.low1 := by
  unfold Waveform.hold
  grind

theorem hold_second (w : Waveform) (j : Nat) :
    w.hold (768 + 2 * j) = w.high0 ∧ w.hold (768 + 2 * j + 1) = w.low0 := by
  unfold Waveform.hold
  grind

/-- The two frames of the loop, one right after the other. -/
theorem timeline_frames (now : Nat) :
    timeline now (everyBit sendBit1Ndelay ++ everyBit sendBit0Ndelay) =
      Variant.gpio.waveform.expiries 1536 0 now := by
  have hfirst := timeline_bits now (fun j hj => hold_first Variant.gpio.waveform hj)
    (Nat.zero_mod 2) (everyBit sendBit0Ndelay)
  have hsecond := timeline_bits (n := 384) (k := 768)
    (now + Variant.gpio.waveform.length 768 0)
    (fun j _ => hold_second Variant.gpio.waveform j) (by omega) []
  rw [List.append_nil] at hsecond
  have hsplit := Variant.gpio.waveform.expiries_add 768 768 0 now
  rw [hsplit, everyBit_eq sendBit1Ndelay]
  refine hfirst.trans (congrArg _ ?_)
  rw [everyBit_eq]
  refine hsecond.trans ?_
  rw [timeline, List.append_nil, Nat.zero_add]

theorem filter_everyBit {bit : List DelayOp} (h : ∀ op ∈ bit, op.sleeps = false) :
    (everyBit bit).filter (fun op => !op.sleeps) = everyBit bit := by
  rw [List.filter_eq_self]
  intro op hop
  rw [everyBit_eq] at hop
  obtain ⟨ops, hops, hmem⟩ := List.mem_flatten.mp hop
  rw [List.eq_of_mem_replicate hops] at hmem
  simp [h op hmem]

theorem bitBangNdelayGpio_filter :
    bitBangNdelayGpio.filter (fun op => !op.sleeps) =
      everyBit sendBit1Ndelay ++ everyBit sendBit0Ndelay := by
  have h1 : ∀ op ∈ sendBit1Ndelay, op.sleeps = false := by decide
  have h0 : ∀ op ∈ sendBit0Ndelay, op.sleeps = false := by decide
  rw [bitBangNdelayGpio, List.filter_append, List.filter_cons_of_neg (by decide),
    filter_everyBit h1, filter_everyBit h0]

theorem Waveform.length_frames (w : Waveform) :
    w.length 1536 0 = 384 * (w.high1 + w.low1) + 384 * (w.high0 + w.low0) := by
  have hsplit : w.length 1536 0 = w.length 768 0 + w.length 768 768 := w.length_add 768 768 0
  have hfirst : w.length 768 0 = 384 * (w.high1 + w.low1) :=
    length_bits (n := 384) fun j hj => hold_first w hj
  have hsecond : w.length 768 768 = 384 * (w.high0 + w.low0) :=
    length_bits (n := 384) fun j _ => hold_second w j
  rw [hsplit, hfirst, hsecond]

theorem gpio_length : Variant.gpio.waveform.length 1536 0 = 940800 :=
  Variant.gpio.waveform.length_frames

/-- After every number of expiries the timer has set the line to the levels the busy-waiting loop
sets it to, at the times of the loop, but for its pause between the two frames. The timer is due
again at least 2.9 seconds before `hrtimer_cancel`. -/
theorem timer_sends_what_loop_sends (bits : BitState) (now n : Nat) (hn : n ≤ 1536) :
    ∃ timer due, run (expire hrTimerExpired) (hrtimerStart bits now) (List.replicate n ()) =
        some (timer, ((timeline (now + 350)
          (bitBangNdelayGpio.filter fun op => !op.sleeps)).take n).map
            fun (time, write) => (time, some write)) ∧
      timer.expiry = some due ∧ due ≤ now + 941150 := by
  obtain ⟨bits', hrun, -⟩ := hrTimerExpired_sends.run (n := n) (by omega) (hrtimerStart_at bits)
    (now + 350)
  refine ⟨⟨bits', some (now + 350 + Variant.gpio.waveform.length n 0)⟩, _, ?_, rfl, ?_⟩
  · rw [bitBangNdelayGpio_filter, timeline_frames, Waveform.expiries_take _ hn]
    exact hrun
  · have hsplit := Variant.gpio.waveform.length_add n (1536 - n) 0
    rw [Nat.add_sub_cancel' hn, gpio_length] at hsplit
    omega

/-- Both frames. -/
theorem timer_sends_what_loop_sends_all :
    ∃ timer due, run (expire hrTimerExpired) (hrtimerStart ⟨0, 0, 0, 0⟩ 0)
        (List.replicate 1536 ()) =
        some (timer, ((timeline (0 + 350)
          (bitBangNdelayGpio.filter fun op => !op.sleeps)).take 1536).map
            fun (time, write) => (time, some write)) ∧
      timer.expiry = some due ∧ due ≤ 0 + 941150 :=
  timer_sends_what_loop_sends ⟨0, 0, 0, 0⟩ 0 1536 le_rfl

end KernelDrivers.Ws2812.DelayTest
