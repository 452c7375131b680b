import KernelDrivers.Hcsr04.Statements

/-!
# The echoes of a device

Only the interrupt handler writes to the interrupt data, one edge at a time. So the data after
a run is that before it, folded over the edges handled, and its sums grow by the echoes the
handler accepts: the pairs of a rising and a falling edge at most 400 apart.
-/

namespace KernelDrivers.Hcsr04
open Lib

/-! ## Edges -/

/-- The interrupt data after an edge at `irqTime`. -/
def takeEdge (irqData : Hcsr04IrqData) (irqTime : UInt64) : Hcsr04IrqData :=
  if irqData.irqEdge = 0 then { irqData with risingEdgeTime := irqTime, irqEdge := 1 }
  else if irqData.irqEdge = 1 then
    countSample { irqData with fallingEdgeTime := irqTime, irqEdge := 0 }
      (distanceOf irqData.risingEdgeTime irqTime)
  else irqData

/-- The edge a thread handles at its next statement. -/
def edgeEvent (_ : Shared) : Thread → Option UInt64
  | .irq ⟨irqTime, .edge⟩ => some irqTime
  | _ => none

/-- The edges handled in a run, in the order they are handled. -/
def handledEdges (env : KernelEnv) : Pool Shared Thread → List (PoolMove Thread) → List UInt64 :=
  poolEvents (threadStep env) threadStart edgeEvent

theorem irqHandler_irqData {s s' : Shared} {irq irq' : Irq}
    (h : irqHandler irq s = some (s', irq')) : s'.device.irqData =
      (edgeEvent s (.irq irq)).toList.foldl takeEdge s.device.irqData := by
  cases irqHandler_cases h with
  | rising hrising => simp [edgeEvent, takeEdge, Shared.setDevice, hrising]
  | falling hfalling => simp [edgeEvent, takeEdge, Shared.setDevice, hfalling]
  | ignored hrising hfalling => simp [edgeEvent, takeEdge, hrising, hfalling]
  | down => rfl

/-! ## The other threads -/

/-- What reads and writes leave alone. -/
structure SameEcho (s s' : Shared) : Prop where
  irqData : s'.device.irqData = s.device.irqData
  readLock : s'.device.readLock = s.device.readLock
  m : s'.device.m = s.device.m

/-- Reads and writes change the buffer, its lock and the busy flag at most. -/
structure BufferStep (s s' : Shared) : Prop where
  device : ∃ buffer bufferIndex bufferLock measurementInProgress,
    s'.device = { s.device with buffer, bufferIndex, bufferLock, measurementInProgress }
  calls : s'.calls = s.calls

theorem BufferStep.of_device {s : Shared} (device : Hcsr04Device)
    (h : ∃ buffer bufferIndex bufferLock measurementInProgress,
      device = { s.device with buffer, bufferIndex, bufferLock, measurementInProgress }) :
    BufferStep s (s.setDevice device) :=
  ⟨h, rfl⟩

theorem BufferStep.of_lock {s s' : Shared} (h : s.lock = some s') : BufferStep s s' := by
  unfold Shared.lock at h
  split at h
  · cases h
  · obtain rfl := Option.some.inj h
    exact .of_device _ ⟨_, _, _, _, rfl⟩

theorem BufferStep.refl (s : Shared) : BufferStep s s := .of_device s.device ⟨_, _, _, _, rfl⟩

theorem BufferStep.echo {s s' : Shared} (h : BufferStep s s') : SameEcho s s' := by
  obtain ⟨buffer, bufferIndex, bufferLock, measurementInProgress, hdevice⟩ := h.device
  constructor
  all_goals rw [hdevice]

theorem InitiateStatement.buffer {s s' : Shared} {pc pc' : InitiatePc} {created : Bool}
    (h : InitiateStatement created s pc s' pc') : BufferStep s s' := by
  cases h with
  | lock hlock => exact .of_lock hlock
  | create => exact ⟨⟨_, _, _, _, rfl⟩, rfl⟩
  | refuse => exact .refl s
  | unlock => exact .of_device _ ⟨_, _, _, _, rfl⟩

theorem initiateMeasurement_echo {s s' : Shared} {pc pc' : InitiatePc} {created : Bool}
    (h : initiateMeasurement created s pc = some (s', pc')) : SameEcho s s' :=
  (initiateMeasurement_cases h).buffer.echo

theorem hcsr04Read_buffer {s s' : Shared} {call call' : ReadCall}
    (h : hcsr04Read call s = some (s', call')) : BufferStep s s' := by
  cases hcsr04Read_cases h with
  | lock hlock | lockAgain hlock | refused _ hlock => exact .of_lock hlock
  | fifoRead hstep | fifoReadAgain hstep =>
    obtain ⟨buffer, bufferIndex, rfl⟩ := fifoReadStep_device hstep
    exact .of_device _ ⟨_, _, _, _, rfl⟩
  | unlock | unlockAgain => exact .of_device _ ⟨_, _, _, _, rfl⟩
  | initiating hinitiate => exact hinitiate.buffer
  | _ => exact .refl s

theorem hcsr04Read_echo {s s' : Shared} {call call' : ReadCall}
    (h : hcsr04Read call s = some (s', call')) : SameEcho s s' :=
  (hcsr04Read_buffer h).echo

theorem hcsr04Write_buffer {s s' : Shared} {call call' : WriteCall}
    (h : hcsr04Write call s = some (s', call')) : BufferStep s s' := by
  cases hcsr04Write_cases h with
  | eraseDistance _ hassign | eraseTsc hassign =>
    obtain ⟨buffer, rfl⟩ := assignSlot_device hassign
    exact .of_device _ ⟨_, _, _, _, rfl⟩
  | resetIndex | setInProgress => exact .of_device _ ⟨_, _, _, _, rfl⟩
  | initiating hinitiate => exact hinitiate.buffer
  | testConfigured | copyFromUser | testInProgress | initiated => exact .refl s

theorem hcsr04Write_echo {s s' : Shared} {call call' : WriteCall}
    (h : hcsr04Write call s = some (s', call')) : SameEcho s s' :=
  (hcsr04Write_buffer h).echo

/-- The number by which a measurement raises the semaphore at its next statement. -/
def MeasurePc.ups : MeasurePc → Nat
  | .loop samplesCollected totalSamples => if samplesCollected < totalSamples then 1 else 0
  | _ => 0

/-- A measurement changes the semaphore too, and drives the trigger line. -/
structure MeasureStep (env : KernelEnv) (thread : Measurement) (s s' : Shared) : Prop where
  device : ∃ buffer bufferIndex bufferLock measurementInProgress, s'.device =
    { s.device with
      buffer, bufferIndex, bufferLock, measurementInProgress
      readLock := s.device.readLock + thread.pc.ups }
  calls : s'.calls = s.calls ∨ ∃ val,
    s'.calls = (pinConfig env s.device.irqData.irqTriggerPin 1 val false s.calls).1

theorem MeasureStep.of_buffer {env : KernelEnv} {thread : Measurement} {s s' : Shared}
    (h : BufferStep s s') (hups : thread.pc.ups = 0) : MeasureStep env thread s s' where
  device := by
    rw [hups]
    exact h.device
  calls := .inl h.calls

theorem hcsr04ThreadWrite_measure {env : KernelEnv} {s s' : Shared} {thread thread' : Measurement}
    (h : hcsr04ThreadWrite env thread s = some (s', thread')) : MeasureStep env thread s s' := by
  cases hcsr04ThreadWrite_cases h with
  | lock hlock => exact .of_buffer (.of_lock hlock) rfl
  | up hmore =>
    refine ⟨⟨s.device.buffer, s.device.bufferIndex, s.device.bufferLock,
      s.device.measurementInProgress, ?_⟩, .inl rfl⟩
    simp [Shared.setDevice, MeasurePc.ups, hmore]
  | done hdone => exact .of_buffer (.refl s) (if_neg hdone)
  | triggerHigh | triggerLow => exact ⟨⟨_, _, _, _, rfl⟩, .inr ⟨_, rfl⟩⟩
  | fifoWrite hstep =>
    obtain ⟨buffer, bufferIndex, rfl⟩ := fifoWriteStep_device hstep
    exact .of_buffer (.of_device _ ⟨_, _, _, _, rfl⟩) rfl
  | clearInProgress | unlock => exact .of_buffer (.of_device _ ⟨_, _, _, _, rfl⟩) rfl
  | start | trap | average => exact .of_buffer (.refl s) rfl

/-- A measurement raises the semaphore once for each trigger. -/
theorem hcsr04ThreadWrite_echo {env : KernelEnv} {s s' : Shared} {thread thread' : Measurement}
    (h : hcsr04ThreadWrite env thread s = some (s', thread')) :
    s'.device.irqData = s.device.irqData ∧
      s'.device.readLock = s.device.readLock + thread.pc.ups := by
  obtain ⟨buffer, bufferIndex, bufferLock, measurementInProgress, hdevice⟩ :=
    (hcsr04ThreadWrite_measure h).device
  rw [hdevice]
  exact ⟨rfl, rfl⟩

theorem threadStep_irqData {env : KernelEnv} {s s' : Shared} {t t' : Thread}
    (h : threadStep env t s = some (s', t')) :
    s'.device.irqData = (edgeEvent s t).toList.foldl takeEdge s.device.irqData := by
  cases threadStep_cases h with
  | read hstep => exact (hcsr04Read_echo hstep).irqData
  | write hstep => exact (hcsr04Write_echo hstep).irqData
  | measure hstep => exact (hcsr04ThreadWrite_echo hstep).1
  | irq hstep => exact irqHandler_irqData hstep

/-- A start takes a thread that was created, at most. -/
theorem threadStart_eq {s s' : Shared} {t : Thread} (h : threadStart t s = some s') :
    ∃ created, s' = { s with created } := by
  cases threadStart_cases h with
  | measure => exact ⟨_, rfl⟩
  | _ => exact ⟨s.created, rfl⟩

theorem threadStart_device {s s' : Shared} {t : Thread} (h : threadStart t s = some s') :
    s'.device = s.device := by
  obtain ⟨created, rfl⟩ := threadStart_eq h
  rfl

/-- The interrupt data after a run is the fold of the edges handled in it. -/
theorem irqData_of_run {env : KernelEnv} {p q : Pool Shared Thread}
    {moves : List (PoolMove Thread)} {os : List Unit}
    (hrun : run (deviceMove env) p moves = some (q, os)) :
    q.shared.device.irqData =
      (handledEdges env p moves).foldl takeEdge p.shared.device.irqData := by
  refine run_pool_events edgeEvent
    (fun q es => q.shared.device.irqData = es.foldl takeEdge p.shared.device.irqData) ?_ ?_ rfl hrun
  · intro q es i t s' t' h _ hstep
    rw [List.foldl_append, ← h]
    exact threadStep_irqData hstep
  · intro q es t s' h hstart
    rw [← h, threadStart_device hstart]

/-! ## Accepted echoes -/

/-- The distances accepted at the falling edges among `edges`, from the handler's state. -/
def acceptedEchoes : Int32 → UInt64 → List UInt64 → List Int32
  | _, _, [] => []
  | irqEdge, risingEdgeTime, irqTime :: edges =>
    if irqEdge = 0 then acceptedEchoes 1 irqTime edges
    else if irqEdge = 1 then
      let distance := distanceOf risingEdgeTime irqTime
      (if distance > 400 then [] else [distance]) ++ acceptedEchoes 0 risingEdgeTime edges
    else acceptedEchoes irqEdge risingEdgeTime edges

/-- Those a device accepts of the edges. -/
def Hcsr04IrqData.accepted (irqData : Hcsr04IrqData) (edges : List UInt64) : List Int32 :=
  acceptedEchoes irqData.irqEdge irqData.risingEdgeTime edges

/-- The sum in the arithmetic of `int`. -/
def sumInt (distances : List Int32) : Int32 := distances.foldr (· + ·) 0

theorem countSample_eq (irqData : Hcsr04IrqData) (distance : Int32) :
    (countSample irqData distance).irqEdge = irqData.irqEdge ∧
    (countSample irqData distance).risingEdgeTime = irqData.risingEdgeTime ∧
    (countSample irqData distance).irqNo = irqData.irqNo ∧
    (countSample irqData distance).totalSamples = irqData.totalSamples +
      Int32.ofNat (if distance > 400 then [] else [distance]).length ∧
    (countSample irqData distance).sampleSum = irqData.sampleSum +
      sumInt (if distance > 400 then [] else [distance]) := by
  unfold countSample
  split
  · exact ⟨rfl, rfl, rfl, by simp, by simp [sumInt]⟩
  · refine ⟨?_, ?_, ?_, ?_, ?_⟩ <;> dsimp only <;> split_ifs <;> simp [sumInt]

theorem sumInt_append (xs ys : List Int32) : sumInt (xs ++ ys) = sumInt xs + sumInt ys := by
  induction xs with
  | nil => simp [sumInt]
  | cons x xs ih =>
    have hcons : ∀ zs, sumInt (x :: zs) = x + sumInt zs := fun _ => rfl
    rw [List.cons_append, hcons, hcons, ih, Int32.add_assoc]

/-- The sample the handler adds at an edge. -/
def sampleOf (irqData : Hcsr04IrqData) (irqTime : UInt64) : Option Int32 :=
  if irqData.irqEdge = 1 ∧ ¬ distanceOf irqData.risingEdgeTime irqTime > 400 then
    some (distanceOf irqData.risingEdgeTime irqTime)
  else none

theorem sampleOf_falling {irqData : Hcsr04IrqData} (h : irqData.irqEdge = 1) (irqTime : UInt64) :
    (sampleOf irqData irqTime).toList =
      if distanceOf irqData.risingEdgeTime irqTime > 400 then []
      else [distanceOf irqData.risingEdgeTime irqTime] := by
  unfold sampleOf
  by_cases hfar : distanceOf irqData.risingEdgeTime irqTime > 400
  · simp [hfar]
  · simp [h, hfar]

theorem takeEdge_falling {irqData : Hcsr04IrqData} (h : irqData.irqEdge = 1) (irqTime : UInt64) :
    takeEdge irqData irqTime = countSample
      { irqData with fallingEdgeTime := irqTime, irqEdge := 0 }
      (distanceOf irqData.risingEdgeTime irqTime) := by
  rw [takeEdge, if_neg (by rw [h]; decide), if_pos h]

/-- What an edge adds to the sums. -/
theorem takeEdge_sums (irqData : Hcsr04IrqData) (irqTime : UInt64) :
    (takeEdge irqData irqTime).totalSamples = irqData.totalSamples +
        Int32.ofNat (sampleOf irqData irqTime).toList.length ∧
      (takeEdge irqData irqTime).sampleSum = irqData.sampleSum +
        sumInt (sampleOf irqData irqTime).toList ∧
      (takeEdge irqData irqTime).irqNo = irqData.irqNo := by
  by_cases hfalling : irqData.irqEdge = 1
  · obtain ⟨-, -, hno, htotal, hsum⟩ := countSample_eq
      { irqData with fallingEdgeTime := irqTime, irqEdge := 0 }
      (distanceOf irqData.risingEdgeTime irqTime)
    rw [takeEdge_falling hfalling, sampleOf_falling hfalling]
    exact ⟨htotal, hsum, hno⟩
  · have hnone : sampleOf irqData irqTime = none := if_neg fun h => hfalling h.1
    rw [hnone, takeEdge]
    split_ifs <;> simp [sumInt]

theorem accepted_cons (irqData : Hcsr04IrqData) (irqTime : UInt64) (edges : List UInt64) :
    irqData.accepted (irqTime :: edges) =
      (sampleOf irqData irqTime).toList ++ (takeEdge irqData irqTime).accepted edges := by
  by_cases hfalling : irqData.irqEdge = 1
  · obtain ⟨hedge, htime, -⟩ := countSample_eq
      { irqData with fallingEdgeTime := irqTime, irqEdge := 0 }
      (distanceOf irqData.risingEdgeTime irqTime)
    rw [takeEdge_falling hfalling, sampleOf_falling hfalling, Hcsr04IrqData.accepted,
      Hcsr04IrqData.accepted, hedge, htime, acceptedEchoes, if_neg (by rw [hfalling]; decide),
      if_pos hfalling]
  · have hnone : sampleOf irqData irqTime = none := if_neg fun h => hfalling h.1
    rw [hnone, takeEdge, Hcsr04IrqData.accepted, acceptedEchoes, if_neg hfalling]
    by_cases hrising : irqData.irqEdge = 0
    · simp [Hcsr04IrqData.accepted, hrising]
    · simp [Hcsr04IrqData.accepted, hrising, hfalling]

/-- The sums grow by the accepted echoes. -/
theorem foldl_takeEdge (irqData : Hcsr04IrqData) (edges : List UInt64) :
    (edges.foldl takeEdge irqData).totalSamples =
        irqData.totalSamples + Int32.ofNat (irqData.accepted edges).length ∧
      (edges.foldl takeEdge irqData).sampleSum =
        irqData.sampleSum + sumInt (irqData.accepted edges) ∧
      (edges.foldl takeEdge irqData).irqNo = irqData.irqNo := by
  induction edges generalizing irqData with
  | nil => exact ⟨by simp [Hcsr04IrqData.accepted, acceptedEchoes],
      by simp [Hcsr04IrqData.accepted, acceptedEchoes, sumInt], rfl⟩
  | cons irqTime edges ih =>
    obtain ⟨htotal, hsum, hno⟩ := ih (takeEdge irqData irqTime)
    obtain ⟨htotal', hsum', hno'⟩ := takeEdge_sums irqData irqTime
    rw [List.foldl_cons, htotal, hsum, hno, htotal', hsum', hno', accepted_cons]
    refine ⟨?_, ?_, rfl⟩
    · rw [List.length_append, Int32.ofNat_add, Int32.add_assoc]
    · rw [sumInt_append, Int32.add_assoc]

/-! ## What the threads leave alone -/

/-- No thread touches the configuration or the record of the interrupt, and only the trigger line
is driven. -/
structure ThreadFrame (env : KernelEnv) (s s' : Shared) : Prop where
  device : ∃ irqData buffer bufferIndex bufferLock measurementInProgress readLock, s'.device =
    { s.device with
      irqData, buffer, bufferIndex, bufferLock, measurementInProgress, readLock }
  irqNo : s'.device.irqData.irqNo = s.device.irqData.irqNo
  calls : s'.calls = s.calls ∨ ∃ val,
    s'.calls = (pinConfig env s.device.irqData.irqTriggerPin 1 val false s.calls).1

theorem ThreadFrame.m {env : KernelEnv} {s s' : Shared} (h : ThreadFrame env s s') :
    s'.device.m = s.device.m := by
  obtain ⟨irqData, buffer, bufferIndex, bufferLock, measurementInProgress, readLock, hdevice⟩ :=
    h.device
  rw [hdevice]

theorem ThreadFrame.miscMinor {env : KernelEnv} {s s' : Shared} (h : ThreadFrame env s s') :
    s'.device.miscMinor = s.device.miscMinor := by
  obtain ⟨irqData, buffer, bufferIndex, bufferLock, measurementInProgress, readLock, hdevice⟩ :=
    h.device
  rw [hdevice]

theorem ThreadFrame.echoPin {env : KernelEnv} {s s' : Shared} (h : ThreadFrame env s s') :
    s'.device.echoPin = s.device.echoPin := by
  obtain ⟨irqData, buffer, bufferIndex, bufferLock, measurementInProgress, readLock, hdevice⟩ :=
    h.device
  rw [hdevice]

theorem BufferStep.frame {env : KernelEnv} {s s' : Shared} (h : BufferStep s s') :
    ThreadFrame env s s' where
  device := by
    obtain ⟨buffer, bufferIndex, bufferLock, measurementInProgress, hdevice⟩ := h.device
    exact ⟨_, _, _, _, _, _, hdevice⟩
  irqNo := by rw [h.echo.irqData]
  calls := .inl h.calls

theorem MeasureStep.frame {env : KernelEnv} {thread : Measurement} {s s' : Shared}
    (h : MeasureStep env thread s s') : ThreadFrame env s s' := by
  obtain ⟨buffer, bufferIndex, bufferLock, measurementInProgress, hdevice⟩ := h.device
  exact ⟨⟨_, _, _, _, _, _, hdevice⟩, by rw [hdevice], h.calls⟩

theorem irqHandler_frame {env : KernelEnv} {s s' : Shared} {irq irq' : Irq}
    (h : irqHandler irq s = some (s', irq')) : ThreadFrame env s s' := by
  have hirqNo : s'.device.irqData.irqNo = s.device.irqData.irqNo := by
    rw [irqHandler_irqData h]
    exact (foldl_takeEdge _ _).2.2
  cases irqHandler_cases h with
  | _ => exact ⟨⟨_, _, _, _, _, _, rfl⟩, hirqNo, .inl rfl⟩

theorem threadStep_frame {env : KernelEnv} {s s' : Shared} {t t' : Thread}
    (h : threadStep env t s = some (s', t')) : ThreadFrame env s s' := by
  cases threadStep_cases h with
  | read hstep => exact (hcsr04Read_buffer hstep).frame
  | write hstep => exact (hcsr04Write_buffer hstep).frame
  | measure hstep => exact (hcsr04ThreadWrite_measure hstep).frame
  | irq hstep => exact irqHandler_frame hstep

theorem deviceMove_frame {env : KernelEnv} {p q : Pool Shared Thread} {move : PoolMove Thread}
    (h : deviceMove env p move = some (q, ())) : ThreadFrame env p.shared q.shared := by
  cases move with
  | start t =>
    obtain ⟨s, hstart, rfl⟩ := poolMove_start_eq_some.mp h
    obtain ⟨created, rfl⟩ := threadStart_eq hstart
    exact ⟨⟨_, _, _, _, _, _, rfl⟩, rfl, .inl rfl⟩
  | step i =>
    obtain ⟨t, s, t', -, hstep, rfl⟩ := poolMove_step_eq_some.mp h
    exact threadStep_frame hstep

end KernelDrivers.Hcsr04
