import KernelDrivers.Ws2812.BitBang

/-!
# The port shared with other pins

The bit-banging driver writes whole words to `PORTA_DATA`. It computes them from the word it read
when it was loaded, not from what is in the register, so every write puts the other 31 pins back
to the levels they had then. A write of the driver leaves them alone exactly when every level
another user has set since the driver's last write is the one read at load time.
-/

namespace KernelDrivers.Ws2812
open Lib

/-- The bit of the register that is the driver's pin: `offset % 32`. -/
def pin : Fin 32 := 4

def level (word : UInt32) (bit : Fin 32) : Bool := word.toBitVec.getLsbD bit

/-- What happens at the port after the driver has read it. -/
inductive PortEvent where
  /-- the next operation of a frame -/
  | driver (op : PortOp)
  /-- a user of other pins sets those of `mask` -/
  | other (mask value : UInt32)
  /-- `pin_config` of the driver's own pin, at load time or in `reset_gpios` -/
  | pinConfig (high : Bool)
  deriving DecidableEq

def portStep (register : UInt32) : PortEvent → UInt32
  | .driver (.iowrite32 value) => value
  | .driver (.ndelay _) => register
  | .other mask value => (register &&& ~~~mask) ||| (value &&& mask)
  | .pinConfig high => if high then register ||| pinBit else register &&& ~~~pinBit

/-- The register after the events; it held `valData` when the driver read it. -/
def registerAfter (valData : UInt32) (events : List PortEvent) : UInt32 :=
  events.foldl portStep valData

def PortEvent.driverOp : PortEvent → Option PortOp
  | .driver op => some op
  | _ => none

/-- The driver's part of the events is the sending of the frames, or a beginning of it. -/
def Sends (valData : UInt32) (frames : List (List Symbol)) (events : List PortEvent) : Prop :=
  events.filterMap PortEvent.driverOp <+:
    frames.flatMap fun frame => frame.flatMap (Symbol.send valData)

/-- Each write of the driver leaves the other pins as it finds them. -/
def LeavesOthers (valData : UInt32) (events : List PortEvent) : Prop :=
  ∀ before value after, events = before ++ .driver (.iowrite32 value) :: after →
    ∀ bit, bit ≠ pin → level value bit = level (registerAfter valData before) bit

/-- The level another user has set a pin to since the driver's last write. -/
def noteLevel (bit : Fin 32) (last : Option Bool) : PortEvent → Option Bool
  | .driver (.iowrite32 _) => none
  | .driver (.ndelay _) => last
  | .other mask value => if level mask bit then some (level value bit) else last
  | .pinConfig _ => last

def setSince (bit : Fin 32) (events : List PortEvent) : Option Bool :=
  events.foldl (noteLevel bit) none

/-- Whenever the driver writes, the levels other users have set since its last write are those
it read. -/
def OthersAsRead (valData : UInt32) (events : List PortEvent) : Prop :=
  ∀ before value after, events = before ++ .driver (.iowrite32 value) :: after →
    ∀ bit, bit ≠ pin → ∀ high, setSince bit before = some high → high = level valData bit

/-! ## Levels -/

@[simp] theorem level_or (a b : UInt32) (bit : Fin 32) :
    level (a ||| b) bit = (level a bit || level b bit) := by
  simp [level]

@[simp] theorem level_and (a b : UInt32) (bit : Fin 32) :
    level (a &&& b) bit = (level a bit && level b bit) := by
  simp [level]

@[simp] theorem level_not (a : UInt32) (bit : Fin 32) : level (~~~a) bit = !level a bit := by
  simp [level]

theorem level_pinBit : ∀ bit, level pinBit bit = decide (bit = pin) := by decide

/-- The words of a frame have the levels that were read, but for the driver's pin. -/
theorem level_of_send {valData value : UInt32} {symbol : Symbol}
    (h : .iowrite32 value ∈ symbol.send valData) {bit : Fin 32} (hbit : bit ≠ pin) :
    level value bit = level valData bit := by
  have hvalue : value = valData ||| pinBit ∨ value = valData &&& ~~~pinBit := by
    cases symbol <;> simpa [Symbol.send, iowrite32High, iowrite32Low] using h
  rcases hvalue with rfl | rfl
  · simp [level_pinBit, hbit]
  · simp [level_pinBit, hbit]

theorem level_of_sends {valData value : UInt32} {frames : List (List Symbol)}
    {events : List PortEvent} (h : Sends valData frames events)
    (hmem : .driver (.iowrite32 value) ∈ events) {bit : Fin 32} (hbit : bit ≠ pin) :
    level value bit = level valData bit := by
  have hop : PortOp.iowrite32 value ∈ events.filterMap PortEvent.driverOp :=
    List.mem_filterMap.mpr ⟨_, hmem, rfl⟩
  obtain ⟨frame, -, hframe⟩ := List.mem_flatMap.mp (h.subset hop)
  obtain ⟨symbol, -, hsymbol⟩ := List.mem_flatMap.mp hframe
  exact level_of_send hsymbol hbit

/-! ## The register between two writes of the driver -/

/-- One event: the level of another pin is the last one set since the driver's last write, or
the one read. -/
theorem level_portStep {valData register : UInt32} {last : Option Bool} {bit : Fin 32}
    (hbit : bit ≠ pin) {event : PortEvent}
    (hevent : ∀ value, event = .driver (.iowrite32 value) → level value bit = level valData bit)
    (h : level register bit = last.getD (level valData bit)) :
    level (portStep register event) bit =
      (noteLevel bit last event).getD (level valData bit) := by
  match event with
  | .driver (.iowrite32 value) => exact hevent value rfl
  | .driver (.ndelay _) => exact h
  | .other mask value =>
    cases hmask : level mask bit with
    | true => simp [portStep, noteLevel, hmask]
    | false => simpa [portStep, noteLevel, hmask] using h
  | .pinConfig high =>
    cases high with
    | true => simpa [portStep, noteLevel, level_pinBit, hbit] using h
    | false => simpa [portStep, noteLevel, level_pinBit, hbit] using h

theorem level_registerAfter {valData : UInt32} {bit : Fin 32} (hbit : bit ≠ pin)
    {events : List PortEvent}
    (hevents : ∀ value, .driver (.iowrite32 value) ∈ events →
      level value bit = level valData bit) :
    level (registerAfter valData events) bit =
      (setSince bit events).getD (level valData bit) := by
  suffices h : ∀ register last, level register bit = last.getD (level valData bit) →
      level (events.foldl portStep register) bit =
        (events.foldl (noteLevel bit) last).getD (level valData bit) from h valData none rfl
  induction events with
  | nil => exact fun _ _ h => h
  | cons event events ih =>
    intro register last h
    refine ih (fun value hmem => hevents value (List.mem_cons_of_mem event hmem)) _ _ ?_
    refine level_portStep hbit (fun value he => hevents value ?_) h
    rw [he]
    exact List.mem_cons_self

/-- However frames and other users interleave, each write of the driver leaves the other pins
alone exactly when what other users have set since its last write is what it read. -/
theorem leavesOthers_iff {valData : UInt32} {frames : List (List Symbol)}
    {events : List PortEvent} (h : Sends valData frames events) :
    LeavesOthers valData events ↔ OthersAsRead valData events := by
  refine forall₃_congr fun before value after => forall_congr' fun hevents => ?_
  refine forall₂_congr fun bit hbit => ?_
  have hvalue : level value bit = level valData bit :=
    level_of_sends h (hevents ▸ by simp) hbit
  have hbefore : level (registerAfter valData before) bit =
      (setSince bit before).getD (level valData bit) :=
    level_registerAfter hbit fun value' hmem =>
      level_of_sends h (hevents ▸ List.mem_append_left _ hmem) hbit
  rw [hvalue, hbefore]
  cases setSince bit before with
  | none => simp
  | some high => simp [eq_comm]

/-- Another user clears pin 5 and sets it again before the driver's first write. -/
theorem leavesOthers_iff_set_back :
    LeavesOthers 0x20 [.other 0x20 0, .pinConfig false, .other 0x20 0x20,
      .driver (iowrite32High 0x20)] := by
  have hsends : Sends 0x20 [[.bit0]] [.other 0x20 0, .pinConfig false, .other 0x20 0x20,
      .driver (iowrite32High 0x20)] := ⟨_, rfl⟩
  refine (leavesOthers_iff hsends).mpr fun before value after hevents => ?_
  have hbefore : before = [.other 0x20 0, .pinConfig false, .other 0x20 0x20] := by
    rcases before with _ | ⟨_, _ | ⟨_, _ | ⟨_, _ | ⟨_, _⟩⟩⟩⟩ <;> simp_all
  subst hbefore
  decide

/-- Another user sets pin 0 after the driver has read it low; the driver's next write clears
it. -/
theorem not_leavesOthers :
    ¬ ∀ valData frames events, Sends valData frames events → LeavesOthers valData events := by
  intro h
  have hsends : Sends 0 [[.bit0]] [.other 1 1, .driver (iowrite32High 0)] := ⟨_, rfl⟩
  have hsame := h 0 _ _ hsends [.other 1 1] (0 ||| pinBit) [] rfl 0 (by decide)
  exact absurd hsame (by decide)

end KernelDrivers.Ws2812
