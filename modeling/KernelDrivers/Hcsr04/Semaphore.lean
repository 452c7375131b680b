import KernelDrivers.Hcsr04.Echoes
import KernelDrivers.Hcsr04.Ownership

/-!
# The semaphore of the echo interrupt

A measurement raises the semaphore once for each trigger and the interrupt handler lowers it once
for each falling edge. The handler does not sleep as long as every falling edge has a trigger
before it that no earlier falling edge has used up. Pins are configured between the steps of the
threads.
-/

namespace KernelDrivers.Hcsr04
open Lib

/-! ## Threads and configurations -/

/-- A call of `CONFIG_PINS` on the device's file, taken as one step. -/
structure ConfigCall where
  env : KernelEnv
  param1 : Int32
  param2 : Int32
  ret : Option Int32

abbrev Board := Shared × List Gen2PinConfig

def configCall (call : ConfigCall) : Board → Option (Board × ConfigCall)
  | (s, pins) =>
    if call.ret = none then
      let minor := s.device.miscMinor
      let (driver, ret) :=
        configPinsIoctl call.env minor call.param1 call.param2 ⟨fun _ => s.device, pins, s.calls⟩
      some (({ s with device := driver.device minor, calls := driver.calls }, driver.pins),
        { call with ret := some ret })
    else none

def boardStep (env : KernelEnv) :
    Thread ⊕ ConfigCall → Board → Option (Board × (Thread ⊕ ConfigCall))
  | .inl t, (s, pins) => (threadStep env t s).map fun (s, t) => ((s, pins), .inl t)
  | .inr call, b => (configCall call b).map fun (b, call) => (b, .inr call)

def boardStart : Thread ⊕ ConfigCall → Board → Option Board
  | .inl t, (s, pins) => (threadStart t s).map (·, pins)
  | .inr ⟨_, _, _, none⟩, b => some b
  | .inr _, _ => none

abbrev boardMove (env : KernelEnv) := poolMove (boardStep env) boardStart

/-- The device with no thread at work. -/
def idleBoard (device : Hcsr04Device) (pins : List Gen2PinConfig) :
    Pool Board (Thread ⊕ ConfigCall) := ⟨(⟨device, 0, []⟩, pins), []⟩

/-! ## Triggers and falling edges -/

inductive SemEvent where
  | up
  | falling
  deriving DecidableEq

def semEvent : Board → Thread ⊕ ConfigCall → Option SemEvent
  | _, .inl (.measure thread) => if thread.pc.ups = 0 then none else some .up
  | (s, _), .inl (.irq ⟨_, .edge⟩) => if s.device.irqData.irqEdge = 1 then some .falling else none
  | _, _ => none

/-- The triggers and the falling edges of a run, in order. -/
def semEvents (env : KernelEnv) : Pool Board (Thread ⊕ ConfigCall) →
    List (PoolMove (Thread ⊕ ConfigCall)) → List SemEvent :=
  poolEvents (boardStep env) boardStart semEvent

/-- Every falling edge comes while the count and the triggers before it are more than the falling
edges before it. -/
def Covered : Nat → List SemEvent → Prop
  | _, [] => True
  | credit, .up :: es => Covered (credit + 1) es
  | credit, .falling :: es => 0 < credit ∧ Covered (credit - 1) es

/-- What is left of the count and the triggers. -/
def creditAfter (credit : Nat) (es : List SemEvent) : Nat :=
  es.foldl (fun credit e =>
    match e with
    | .up => credit + 1
    | .falling => credit - 1) credit

instance decidableCovered : ∀ credit es, Decidable (Covered credit es)
  | _, [] => isTrue trivial
  | credit, .up :: es => decidableCovered (credit + 1) es
  | credit, .falling :: es =>
    have : Decidable (Covered (credit - 1) es) := decidableCovered (credit - 1) es
    inferInstanceAs (Decidable (0 < credit ∧ Covered (credit - 1) es))

theorem covered_append {credit : Nat} {es es' : List SemEvent} :
    Covered credit (es ++ es') ↔ Covered credit es ∧ Covered (creditAfter credit es) es' := by
  induction es generalizing credit with
  | nil => simp [Covered, creditAfter]
  | cons e es ih =>
    cases e with
    | up => exact ih
    | falling =>
      simp only [List.cons_append, Covered, ih, and_assoc]
      rfl

theorem creditAfter_append (credit : Nat) (es es' : List SemEvent) :
    creditAfter credit (es ++ es') = creditAfter (creditAfter credit es) es' := by
  simp [creditAfter]

/-! ## What configuring pins leaves alone -/

/-- Neither the semaphore nor the edge taken next. -/
structure SameEdge (device device' : Hcsr04Device) : Prop where
  readLock : device'.readLock = device.readLock
  irqEdge : device'.irqData.irqEdge = device.irqData.irqEdge

theorem SameEdge.trans {device device₁ device' : Hcsr04Device} (h : SameEdge device device₁)
    (h' : SameEdge device₁ device') : SameEdge device device' :=
  ⟨h'.readLock.trans h.readLock, h'.irqEdge.trans h.irqEdge⟩

theorem wirePin_edge (env : KernelEnv) (device : Hcsr04Device) (ioFlag : Int32)
    (pin : Gen2PinConfig) (calls : List KernelCall) :
    SameEdge device (wirePin env device ioFlag pin calls).2.1 := by
  unfold wirePin configureInterrupt
  dsimp only
  split_ifs <;> exact ⟨rfl, rfl⟩

theorem configurePin_edge (env : KernelEnv) (device : Hcsr04Device) (pin : Gen2PinConfig)
    (calls : List KernelCall) : SameEdge device (configurePin env device pin calls).2.1 := by
  rcases h : configureRecord env device.miscMinor (ioFlagOf device pin) pin calls with
    ⟨calls₁, _ | pin₁⟩
  · rw [configurePin_none h]
    exact ⟨rfl, rfl⟩
  · rw [configurePin_some h]
    exact wirePin_edge env device _ pin₁ calls₁

theorem configurePins_edge (env : KernelEnv) (pins : List Gen2PinConfig)
    (device : Hcsr04Device) (calls : List KernelCall) :
    SameEdge device (configurePins env pins device calls).2.1 := by
  induction pins generalizing device calls with
  | nil => exact ⟨rfl, rfl⟩
  | cons pin rest ih =>
    have hpin := configurePin_edge env device pin calls
    simp only [configurePins]
    split
    · split
      · exact hpin
      · exact hpin.trans (ih _ _)
    · exact ih device calls

theorem releaseInterrupt_edge (device : Hcsr04Device) (calls : List KernelCall) :
    SameEdge device (releaseInterrupt device calls).2 := by
  unfold releaseInterrupt
  split <;> exact ⟨rfl, rfl⟩

theorem configPinsIoctl_edge (env : KernelEnv) (minor param1 param2 : Int32) (s : MiscDriver) :
    SameEdge (s.device minor) ((configPinsIoctl env minor param1 param2 s).1.device minor) := by
  by_cases hwrong : param1 < 0 ∨ param1 > 12 ∨ param2 < 0 ∨ param2 > 12 ∨
      !isEdgeInterruptible param2
  · simp only [configPinsIoctl, if_pos hwrong]
    exact ⟨rfl, rfl⟩
  · simp only [configPinsIoctl, if_neg hwrong, MiscDriver.setDevice, Function.update_self]
    have hrelease := releaseInterrupt_edge (s.device minor) s.calls
    have hconfigure := configurePins_edge env s.pins
      { (releaseInterrupt (s.device minor) s.calls).2 with triggerPin := param1, echoPin := param2 }
      (releaseInterrupt (s.device minor) s.calls).1
    split
    · exact ⟨hconfigure.readLock.trans hrelease.readLock,
        hconfigure.irqEdge.trans hrelease.irqEdge⟩
    · exact ⟨hconfigure.readLock.trans hrelease.readLock,
        hconfigure.irqEdge.trans hrelease.irqEdge⟩

/-! ## The invariant -/

/-- A handler before `down_interruptible`. -/
def atDown : Thread ⊕ ConfigCall → Nat
  | .inl (.irq ⟨_, .down⟩) => 1
  | _ => 0

theorem eq_of_atDown {t : Thread ⊕ ConfigCall} (h : atDown t = 1) :
    ∃ irqTime, t = .inl (.irq ⟨irqTime, .down⟩) := by
  unfold atDown at h
  split at h
  · exact ⟨_, rfl⟩
  · cases h

/-- What a step does to the semaphore, to the handlers that wait for it and to the credit. -/
structure SemStep (b : Board) (t : Thread ⊕ ConfigCall) (b' : Board) (t' : Thread ⊕ ConfigCall) :
    Prop where
  balance : ∀ credit, Covered credit (semEvent b t).toList →
    b'.1.device.readLock + atDown t + credit =
      b.1.device.readLock + atDown t' + creditAfter credit (semEvent b t).toList

theorem SemStep.of_same {b b' : Board} {t t' : Thread ⊕ ConfigCall}
    (hlock : b'.1.device.readLock = b.1.device.readLock) (hnone : semEvent b t = none)
    (hdown : atDown t = atDown t') : SemStep b t b' t' := by
  refine ⟨fun credit _ => ?_⟩
  rw [hlock, hnone, hdown]
  rfl

theorem irqHandler_sem {s s' : Shared} {pins : List Gen2PinConfig} {irq irq' : Irq}
    (h : irqHandler irq s = some (s', irq')) :
    SemStep (s, pins) (.inl (.irq irq)) (s', pins) (.inl (.irq irq')) := by
  cases irqHandler_cases h with
  | rising hrising => exact .of_same rfl (by simp [semEvent, hrising]) rfl
  | @falling irqTime hfalling =>
    -- the falling edge takes one of the credit and waits
    refine ⟨fun credit hcovered => ?_⟩
    have hevent : semEvent (s, pins) (.inl (.irq ⟨irqTime, .edge⟩)) = some .falling :=
      if_pos hfalling
    rw [hevent] at hcovered ⊢
    have hpos : 0 < credit := hcovered.1
    simp only [Shared.setDevice, atDown, Option.toList_some, creditAfter, List.foldl_cons,
      List.foldl_nil]
    omega
  | ignored _ hfalling => exact .of_same rfl (if_neg hfalling) rfl
  | down hpos =>
    refine ⟨fun credit _ => ?_⟩
    simp only [Shared.setDevice, atDown, semEvent, Option.toList_none, creditAfter,
      List.foldl_nil]
    omega

theorem boardStep_sem {env : KernelEnv} {b b' : Board} {t t' : Thread ⊕ ConfigCall}
    (h : boardStep env t b = some (b', t')) : SemStep b t b' t' := by
  obtain ⟨s, pins⟩ := b
  cases t with
  | inr call =>
    obtain ⟨⟨b₁, call'⟩, hcall, h⟩ := Option.map_eq_some_iff.mp h
    obtain ⟨rfl, rfl⟩ := Prod.mk.inj h
    simp only [configCall] at hcall
    split at hcall
    · obtain ⟨rfl, rfl⟩ := Prod.mk.inj (Option.some.inj hcall)
      exact .of_same (configPinsIoctl_edge ..).readLock rfl rfl
    · cases hcall
  | inl t =>
    obtain ⟨⟨s', t₁⟩, hstep, h⟩ := Option.map_eq_some_iff.mp h
    obtain ⟨rfl, rfl⟩ := Prod.mk.inj h
    cases threadStep_cases hstep with
    | read hread => exact .of_same (hcsr04Read_echo hread).readLock rfl rfl
    | write hwrite => exact .of_same (hcsr04Write_echo hwrite).readLock rfl rfl
    | @measure thread thread' hmeasure =>
      have hups := (hcsr04ThreadWrite_echo hmeasure).2
      refine ⟨fun credit _ => ?_⟩
      simp only [hups, semEvent, atDown]
      split
      next hzero => simp [creditAfter, hzero]
      next hups =>
        have hone : thread.pc.ups = 1 := by
          unfold MeasurePc.ups at hups ⊢
          grind
        simp only [hone, Option.toList_some, creditAfter, List.foldl_cons, List.foldl_nil]
        omega
    | irq hirq => exact irqHandler_sem hirq

theorem boardStart_sem {b b' : Board} {t : Thread ⊕ ConfigCall} (h : boardStart t b = some b') :
    b'.1.device.readLock = b.1.device.readLock ∧ atDown t = 0 := by
  obtain ⟨s, pins⟩ := b
  cases t with
  | inl t =>
    obtain ⟨s', hstart, rfl⟩ := Option.map_eq_some_iff.mp h
    refine ⟨by rw [threadStart_device hstart], ?_⟩
    cases threadStart_cases hstart with
    | _ => rfl
  | inr call =>
    obtain ⟨env, param1, param2, ret⟩ := call
    cases ret with
    | none =>
      obtain rfl := Option.some.inj h
      exact ⟨rfl, rfl⟩
    | some ret => cases h

/-- While the falling edges are covered, the count is the credit and the waiting handlers. -/
def SemInv (credit : Nat) (p : Pool Board (Thread ⊕ ConfigCall)) (es : List SemEvent) : Prop :=
  Covered credit es →
    p.shared.1.device.readLock = creditAfter credit es + total atDown p.threads

/-- A handler of the device before `down_interruptible` finds the count positive. -/
def NeverSleeps (p : Pool Board (Thread ⊕ ConfigCall)) : Prop :=
  ∀ irqTime, .inl (.irq ⟨irqTime, .down⟩) ∈ p.threads → 0 < p.shared.1.device.readLock

/-- In every run whose falling edges are covered by triggers, the handler finds the count
positive whenever it reaches the semaphore. -/
theorem handler_never_sleeps (env : KernelEnv) {device : Hcsr04Device} {pins : List Gen2PinConfig}
    {moves : List (PoolMove (Thread ⊕ ConfigCall))} {p : Pool Board (Thread ⊕ ConfigCall)}
    {os : List Unit}
    (hcovered : Covered device.readLock (semEvents env (idleBoard device pins) moves))
    (hrun : run (boardMove env) (idleBoard device pins) moves = some (p, os)) : NeverSleeps p := by
  have hinv : SemInv device.readLock p (semEvents env (idleBoard device pins) moves) := by
    refine run_pool_events semEvent (SemInv device.readLock) ?_ ?_ (fun _ => rfl) hrun
    · intro p es i t b' t' hinv ht hstep hcovered
      obtain ⟨hbefore, hlast⟩ := covered_append.mp hcovered
      have hcount := hinv hbefore
      have hbalance := (boardStep_sem hstep).balance _ hlast
      have hset := total_set atDown ht t'
      rw [creditAfter_append]
      simp only at hcount hbalance hset ⊢
      omega
    · intro p es t b' hinv hstart hcovered
      obtain ⟨hlock, hdown⟩ := boardStart_sem hstart
      have hcount := hinv hcovered
      simp only [total_append, total_cons, total_nil, hlock, hdown] at hcount ⊢
      omega
  intro irqTime hmem
  have hone : atDown (.inl (.irq ⟨irqTime, .down⟩)) = 1 := rfl
  have hle := weight_le_total atDown hmem
  have hcount := hinv hcovered
  omega

/-! ## Edges with and without a trigger -/

def onBoard : PoolMove Thread → PoolMove (Thread ⊕ ConfigCall)
  | .start t => .start (.inl t)
  | .step i => .step i

/-- Two edges of the echo line, as threads `i` and `i + 1`, up to the semaphore. -/
def echoUpToDown (i : Nat) : List (PoolMove (Thread ⊕ ConfigCall)) :=
  [.start (.inl (.irq ⟨0, .edge⟩)), .step i, .start (.inl (.irq ⟨2320000, .edge⟩)), .step (i + 1)]

/-- The first echo behind the first trigger of a measurement. -/
def triggeredEcho : List (PoolMove (Thread ⊕ ConfigCall)) :=
  (startMeasurement 0 ++ .start (.measure ⟨7, .lock⟩) :: stepsOf 1 3).map onBoard ++ echoUpToDown 2

theorem handler_never_sleeps_triggered :
    ∃ p os, run (boardMove grantAll) (idleBoard configuredDevice []) triggeredEcho = some (p, os) ∧
      atDown (p.threads.getD 3 (.inr ⟨grantAll, 0, 0, none⟩)) = 1 ∧ NeverSleeps p := by
  have hdown : ((run (boardMove grantAll) (idleBoard configuredDevice []) triggeredEcho).map
      fun r => atDown (r.1.threads.getD 3 (.inr ⟨grantAll, 0, 0, none⟩))) = some 1 := by decide
  obtain ⟨⟨p, os⟩, hrun, hp⟩ := Option.map_eq_some_iff.mp hdown
  exact ⟨p, os, hrun, hp, handler_never_sleeps grantAll (by decide) hrun⟩

/-- Two edges right after the pins are configured, with no measurement. -/
def spuriousEcho : List (PoolMove (Thread ⊕ ConfigCall)) :=
  [.start (.inr ⟨grantAll, 3, 2, none⟩), .step 0] ++ echoUpToDown 1

/-- The handler of the second edge waits for a semaphore nobody has raised. -/
theorem not_handler_never_sleeps :
    ¬ ∀ (env : KernelEnv) (blank : Int32 → Hcsr04Device) (minorLeft : Int32 → Int32)
      (ops : List MiscOp) (minor : Int32) (moves : List (PoolMove (Thread ⊕ ConfigCall)))
      (p : Pool Board (Thread ⊕ ConfigCall)) (os : List Unit),
      run (boardMove env) (idleBoard ((afterOps (hcsr04Init blank minorLeft) ops).device minor)
        (afterOps (hcsr04Init blank minorLeft) ops).pins) moves = some (p, os) →
      NeverSleeps p := by
  intro hall
  have hwaits : ((run (boardMove grantAll) (idleBoard
      ((afterOps (hcsr04Init (fun _ => blankDevice) fun _ => 0) [(5, .openFile)]).device 5)
      (afterOps (hcsr04Init (fun _ => blankDevice) fun _ => 0) [(5, .openFile)]).pins)
      spuriousEcho).map fun r => (r.1.threads.map atDown, r.1.shared.1.device.readLock)) =
      some ([0, 0, 1], 0) := by decide
  obtain ⟨⟨p, os⟩, hrun, hp⟩ := Option.map_eq_some_iff.mp hwaits
  obtain ⟨hthreads, hzero⟩ := Prod.mk.inj hp
  obtain ⟨t, hmem, hone⟩ := List.mem_map.mp
    (show 1 ∈ p.threads.map atDown from hthreads ▸ by decide)
  obtain ⟨irqTime, rfl⟩ := eq_of_atDown hone
  have hpos := hall _ _ _ _ _ _ p os hrun irqTime hmem
  rw [hzero] at hpos
  exact absurd hpos (Nat.lt_irrefl 0)

end KernelDrivers.Hcsr04
