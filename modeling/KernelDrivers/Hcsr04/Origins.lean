import KernelDrivers.Hcsr04.BufferCalls
import KernelDrivers.Hcsr04.PairedEdges
import KernelDrivers.Hcsr04.SecondOpen

/-!
# Where a report comes from

What a read gives its caller was computed by a measurement, whatever the threads do to each other.
The fields may come from two measurements, when a write clears the buffer in between. Without
clearing they come from the same one.
-/

namespace KernelDrivers.Hcsr04
open Lib

/-! ## Computed samples -/

/-- The mean of the accepted distances among the pairs of edges, as the division computes it. -/
def MeanOfPairs (edges : List UInt64) (distance : Int32) : Prop :=
  ¬ Traps (sumInt (acceptedPairs edges)) (Int32.ofNat (acceptedPairs edges).length) ∧
    sumInt (acceptedPairs edges) / Int32.ofNat (acceptedPairs edges).length = distance

theorem FreshEcho.mean {irqData : Hcsr04IrqData} (h : FreshEcho irqData) {edges : List UInt64}
    {distance : Int32}
    (haverage : averageDistance (edges.foldl takeEdge irqData) = some distance) :
    MeanOfPairs edges distance := by
  have hfolded := h.foldedInPairs edges
  rwa [averageDistance_eq_some_iff, hfolded.totalSamples, hfolded.sampleSum,
    ← sumInt_eq_ofInt] at haverage

/-- In the run a measurement came to its average with this mean of the edges handled until then. -/
def Averaged (env : KernelEnv) (device : Hcsr04Device) (moves : List (PoolMove Thread))
    (sample : FifoBuffer) : Prop :=
  ∃ before, before <+: moves ∧ ∃ (q : Pool Shared Thread) (os : List Unit) (i : Nat),
    run (deviceMove env) (idle device) before = some (q, os) ∧
    q.threads[i]? = some (.measure ⟨sample.tsc, .average⟩) ∧
    MeanOfPairs (handledEdges env (idle device) before) sample.distance

theorem Averaged.snoc {env : KernelEnv} {device : Hcsr04Device} {moves : List (PoolMove Thread)}
    {sample : FifoBuffer} (h : Averaged env device moves sample) (move : PoolMove Thread) :
    Averaged env device (moves ++ [move]) sample := by
  obtain ⟨before, hbefore, hrun⟩ := h
  exact ⟨before, hbefore.trans (List.prefix_append _ _), hrun⟩

/-- The next step of a measurement at its average computes a sample. -/
theorem averaged_of_step {env : KernelEnv} {device : Hcsr04Device}
    (hfresh : FreshEcho device.irqData) {q : Pool Shared Thread}
    {moves : List (PoolMove Thread)} {os : List Unit}
    (hrun : run (deviceMove env) (idle device) moves = some (q, os)) {i : Nat} {tsc : UInt64}
    (hq : q.threads[i]? = some (.measure ⟨tsc, .average⟩)) {distance : Int32}
    (haverage : averageDistance q.shared.device.irqData = some distance)
    (move : PoolMove Thread) : Averaged env device (moves ++ [move]) ⟨distance, tsc⟩ := by
  rw [irqData_of_run hrun] at haverage
  exact ⟨moves, List.prefix_append _ _, q, os, i, hrun, hq, hfresh.mean haverage⟩

/-! ## What a read has fetched -/

/-- The sample that a read is going to give its caller, or gave by a whole copy. -/
def ReadCall.fetched : ReadCall → Option FifoBuffer
  | ⟨_, _, _, _, .testEmpty buffer⟩ => some buffer
  | ⟨_, _, _, _, .testConfigured buffer⟩ => some buffer
  | ⟨_, _, _, _, .testInProgress buffer⟩ => some buffer
  | ⟨_, _, _, _, .initiating buffer _⟩ => some buffer
  | ⟨_, _, _, _, .lockAgain buffer⟩ => some buffer
  | ⟨_, _, _, _, .fifoReadAgain buffer _⟩ => some buffer
  | ⟨_, _, _, _, .unlockAgain buffer⟩ => some buffer
  | ⟨_, _, _, _, .copyToUser buffer⟩ => some buffer
  | ⟨_, copied, userBuf, _, .returned ret⟩ =>
    if ret = SUCCESS ∧ sizeofFifoBuffer ≤ copied.last then some userBuf else none
  | _ => none

/-- A read keeps what its first call of `fifo_read` returned. -/
theorem fetched_step {s s' : Shared} {call call' : ReadCall}
    (h : hcsr04Read call s = some (s', call')) {buffer : FifoBuffer}
    (hfetched : call'.fetched = some buffer) :
    call.fetched = some buffer ∨ call.pc = .fifoRead (.returned buffer) := by
  have hrefused : ∀ created copied userBuf removed,
      ReadCall.fetched ⟨created, copied, userBuf, removed, .returned EINVAL⟩ = none := by
    intro created copied userBuf removed
    rfl
  cases hcsr04Read_cases h with
  | unlock =>
    cases hfetched
    exact .inr rfl
  | testEmpty | testConfigured | testInProgress => grind [ReadCall.fetched]
  | lock | fifoRead | initiated => cases hfetched
  | initiating | refused | lockAgain | fifoReadAgain | copySecond | unlockAgain =>
    exact .inl hfetched
  | @copyToUser created copied userBuf removed read =>
    left
    obtain ⟨⟨-, hwhole⟩, hfetched⟩ := Option.ite_none_right_eq_some.mp hfetched
    rwa [FifoBuffer.copyTo_eq hwhole] at hfetched

/-! ## Fields -/

section Fields

variable {distances distances' : Set Int32} {tscs tscs' : Set UInt64}

/-- Each field of a sample has one of the values. -/
structure Among (distances : Set Int32) (tscs : Set UInt64) (sample : FifoBuffer) : Prop where
  distance : sample.distance ∈ distances
  tsc : sample.tsc ∈ tscs

theorem Among.mono (hd : distances ⊆ distances') (ht : tscs ⊆ tscs') {sample : FifoBuffer}
    (h : Among distances tscs sample) : Among distances' tscs' sample :=
  ⟨hd h.distance, ht h.tsc⟩

/-- The values an erased slot and the report of an empty buffer have. -/
structure HasMarks (distances : Set Int32) (tscs : Set UInt64) : Prop where
  noDistance : NO_VALUE ∈ distances
  noTsc : NO_TSC ∈ tscs
  emptyTsc : 0 ∈ tscs

/-- What `fifo_read` copied so far. -/
def FifoReadPc.Copied (distances : Set Int32) (tscs : Set UInt64) : FifoReadPc → Prop
  | .testEmpty => True
  | .copyDistance => True
  | .copyTsc distance => distance ∈ distances
  | .eraseDistance buffer => Among distances tscs buffer
  | .eraseTsc buffer => Among distances tscs buffer
  | .stepBack buffer => Among distances tscs buffer
  | .wrap buffer => Among distances tscs buffer
  | .returned buffer => Among distances tscs buffer

theorem FifoReadPc.Copied.mono (hd : distances ⊆ distances') (ht : tscs ⊆ tscs') {pc : FifoReadPc}
    (h : pc.Copied distances tscs) : pc.Copied distances' tscs' := by
  cases pc with
  | testEmpty | copyDistance => trivial
  | copyTsc => exact hd h
  | eraseDistance | eraseTsc | stepBack | wrap | returned => exact Among.mono hd ht h

/-- The samples that a thread keeps for itself. -/
def Thread.Carries (distances : Set Int32) (tscs : Set UInt64) : Thread → Prop
  | .read call => (∀ buffer, call.fetched = some buffer → Among distances tscs buffer) ∧
    ∀ pc, call.pc = .fifoRead pc → pc.Copied distances tscs
  | .measure thread => ∀ buffer pc, thread.pc = .fifoWrite buffer pc → Among distances tscs buffer
  | _ => True

theorem Thread.Carries.mono (hd : distances ⊆ distances') (ht : tscs ⊆ tscs') {t : Thread}
    (h : t.Carries distances tscs) : t.Carries distances' tscs' := by
  cases t with
  | read call =>
    exact ⟨fun buffer hfetched => (h.1 buffer hfetched).mono hd ht,
      fun pc hpc => (h.2 pc hpc).mono hd ht⟩
  | measure thread => exact fun buffer pc hpc => (h buffer pc hpc).mono hd ht
  | write | irq => trivial

/-! ## The statements -/

theorem slots_of_assign {device device' : Hcsr04Device} {index : Int32}
    {f : FifoBuffer → FifoBuffer} (hslots : ∀ k, Among distances tscs (device.buffer k))
    (h : assignSlot device index f = some device')
    (hf : ∀ slot, Among distances tscs slot → Among distances tscs (f slot)) :
    ∀ k, Among distances tscs (device'.buffer k) := by
  obtain ⟨slot, hload, h⟩ := Option.bind_eq_some_iff.mp h
  obtain ⟨buffer, hstore, rfl⟩ := Option.map_eq_some_iff.mp h
  obtain ⟨k, rfl⟩ := CArray.exists_of_load hload
  exact CArray.forall_of_store hslots (hf _ (hslots k)) hstore

theorem fifoReadStep_slots (hmarks : HasMarks distances tscs) {device device' : Hcsr04Device}
    {pc pc' : FifoReadPc} {removed : List FifoBuffer}
    (hslots : ∀ k, Among distances tscs (device.buffer k))
    (h : fifoReadStep device pc = some (device', pc', removed)) :
    ∀ k, Among distances tscs (device'.buffer k) := by
  cases pc with
  | testEmpty | copyDistance | copyTsc =>
    obtain ⟨slot, -, h⟩ := Option.map_eq_some_iff.mp h
    cases h
    exact hslots
  | eraseDistance =>
    obtain ⟨slot, -, h⟩ := Option.bind_eq_some_iff.mp h
    obtain ⟨device₁, hassign, h⟩ := Option.map_eq_some_iff.mp h
    cases h
    exact slots_of_assign hslots hassign fun _ hslot => ⟨hmarks.noDistance, hslot.tsc⟩
  | eraseTsc =>
    obtain ⟨device₁, hassign, h⟩ := Option.map_eq_some_iff.mp h
    cases h
    exact slots_of_assign hslots hassign fun _ hslot => ⟨hslot.distance, hmarks.noTsc⟩
  | stepBack | wrap =>
    cases Option.some.inj h
    exact hslots
  | returned => cases h

theorem fifoReadStep_copied (hmarks : HasMarks distances tscs) {device device' : Hcsr04Device}
    {pc pc' : FifoReadPc} {removed : List FifoBuffer}
    (hslots : ∀ k, Among distances tscs (device.buffer k)) (hpc : pc.Copied distances tscs)
    (h : fifoReadStep device pc = some (device', pc', removed)) : pc'.Copied distances tscs := by
  cases pc with
  | testEmpty =>
    obtain ⟨slot, -, h⟩ := Option.map_eq_some_iff.mp h
    cases h
    split
    · exact ⟨hmarks.noDistance, hmarks.emptyTsc⟩
    · trivial
  | copyDistance =>
    obtain ⟨slot, hload, h⟩ := Option.map_eq_some_iff.mp h
    cases h
    obtain ⟨k, rfl⟩ := CArray.exists_of_load hload
    exact (hslots k).distance
  | copyTsc distance =>
    obtain ⟨slot, hload, h⟩ := Option.map_eq_some_iff.mp h
    cases h
    obtain ⟨k, rfl⟩ := CArray.exists_of_load hload
    exact ⟨hpc, (hslots k).tsc⟩
  | eraseDistance =>
    obtain ⟨slot, -, h⟩ := Option.bind_eq_some_iff.mp h
    obtain ⟨device₁, -, h⟩ := Option.map_eq_some_iff.mp h
    cases h
    exact hpc
  | eraseTsc =>
    obtain ⟨device₁, -, h⟩ := Option.map_eq_some_iff.mp h
    cases h
    exact hpc
  | stepBack | wrap =>
    cases Option.some.inj h
    exact hpc
  | returned => cases h

theorem fifoWriteStep_slots {device device' : Hcsr04Device} {buffer : FifoBuffer}
    {pc pc' : FifoWritePc} (hslots : ∀ k, Among distances tscs (device.buffer k))
    (hbuffer : Among distances tscs buffer)
    (h : fifoWriteStep device buffer pc = some (device', pc')) :
    ∀ k, Among distances tscs (device'.buffer k) := by
  cases pc with
  | stepForward =>
    cases Option.some.inj h
    exact hslots
  | writeDistance =>
    obtain ⟨device₁, hassign, h⟩ := Option.map_eq_some_iff.mp h
    cases h
    exact slots_of_assign hslots hassign fun _ hslot => ⟨hbuffer.distance, hslot.tsc⟩
  | writeTsc =>
    obtain ⟨device₁, hassign, h⟩ := Option.map_eq_some_iff.mp h
    cases h
    exact slots_of_assign hslots hassign fun _ hslot => ⟨hslot.distance, hbuffer.tsc⟩
  | returned => cases h

theorem Shared.lock_buffer {s s' : Shared} (h : s.lock = some s') :
    s'.device.buffer = s.device.buffer := by
  obtain ⟨-, rfl⟩ := Shared.lock_eq_some h
  rfl

theorem InitiateStatement.keepsBuffer {s s' : Shared} {pc pc' : InitiatePc} {created : Bool}
    (h : InitiateStatement created s pc s' pc') : s'.device.buffer = s.device.buffer := by
  cases h with
  | lock hlock => exact Shared.lock_buffer hlock
  | create | refuse | unlock => rfl

theorem hcsr04Read_slots (hmarks : HasMarks distances tscs) {s s' : Shared}
    {call call' : ReadCall} (hslots : ∀ k, Among distances tscs (s.device.buffer k))
    (h : hcsr04Read call s = some (s', call')) :
    ∀ k, Among distances tscs (s'.device.buffer k) := by
  cases hcsr04Read_cases h with
  | lock hlock | lockAgain hlock | refused _ hlock => rwa [Shared.lock_buffer hlock]
  | fifoRead hstep | fifoReadAgain hstep => exact fifoReadStep_slots hmarks hslots hstep
  | initiating hinitiate => rwa [hinitiate.keepsBuffer]
  | _ => exact hslots

theorem hcsr04Read_carries (hmarks : HasMarks distances tscs) {s s' : Shared}
    {call call' : ReadCall} (hslots : ∀ k, Among distances tscs (s.device.buffer k))
    (hcarries : (Thread.read call).Carries distances tscs)
    (h : hcsr04Read call s = some (s', call')) : (Thread.read call').Carries distances tscs := by
  constructor
  · intro buffer hfetched
    rcases fetched_step h hfetched with hbefore | hreturned
    · exact hcarries.1 buffer hbefore
    · exact hcarries.2 _ hreturned
  · intro pc hpc
    cases hcsr04Read_cases h with
    | lock =>
      cases hpc
      trivial
    | fifoRead hstep =>
      cases hpc
      exact fifoReadStep_copied hmarks hslots (hcarries.2 _ rfl) hstep
    | testEmpty | testConfigured | testInProgress => grind
    | _ => cases hpc

theorem hcsr04Write_slots (hmarks : HasMarks distances tscs) {s s' : Shared}
    {call call' : WriteCall} (hslots : ∀ k, Among distances tscs (s.device.buffer k))
    (h : hcsr04Write call s = some (s', call')) :
    ∀ k, Among distances tscs (s'.device.buffer k) := by
  cases hcsr04Write_cases h with
  | eraseDistance _ hassign =>
    exact slots_of_assign hslots hassign fun _ hslot => ⟨hmarks.noDistance, hslot.tsc⟩
  | eraseTsc hassign =>
    exact slots_of_assign hslots hassign fun _ hslot => ⟨hslot.distance, hmarks.noTsc⟩
  | initiating hinitiate => rwa [hinitiate.keepsBuffer]
  | _ => exact hslots

theorem hcsr04ThreadWrite_carries {env : KernelEnv} {s s' : Shared} {thread thread' : Measurement}
    (hslots : ∀ k, Among distances tscs (s.device.buffer k))
    (hcarries : (Thread.measure thread).Carries distances tscs)
    (haverage : ∀ distance, thread.pc = .average →
      averageDistance s.device.irqData = some distance →
        Among distances tscs ⟨distance, thread.tsc⟩)
    (h : hcsr04ThreadWrite env thread s = some (s', thread')) :
    (∀ k, Among distances tscs (s'.device.buffer k)) ∧
      (Thread.measure thread').Carries distances tscs := by
  cases hcsr04ThreadWrite_cases h with
  | lock hlock =>
    rw [Shared.lock_buffer hlock]
    exact ⟨hslots, nofun⟩
  | average hdistance =>
    refine ⟨hslots, fun buffer pc hpc => ?_⟩
    cases hpc
    exact haverage _ rfl hdistance
  | fifoWrite hstep =>
    refine ⟨fifoWriteStep_slots hslots (hcarries _ _ rfl) hstep, fun buffer pc hpc => ?_⟩
    cases hpc
    exact hcarries _ _ rfl
  | _ => exact ⟨hslots, nofun⟩

/-- A thread keeps and stores values from the buffer and those a measurement computes. -/
theorem threadStep_carries (hmarks : HasMarks distances tscs) {env : KernelEnv} {s s' : Shared}
    {t t' : Thread} (hslots : ∀ k, Among distances tscs (s.device.buffer k))
    (hcarries : t.Carries distances tscs)
    (haverage : ∀ tsc distance, t = .measure ⟨tsc, .average⟩ →
      averageDistance s.device.irqData = some distance → Among distances tscs ⟨distance, tsc⟩)
    (h : threadStep env t s = some (s', t')) :
    (∀ k, Among distances tscs (s'.device.buffer k)) ∧ t'.Carries distances tscs := by
  cases threadStep_cases h with
  | read hstep =>
    exact ⟨hcsr04Read_slots hmarks hslots hstep, hcsr04Read_carries hmarks hslots hcarries hstep⟩
  | write hstep => exact ⟨hcsr04Write_slots hmarks hslots hstep, trivial⟩
  | @measure thread thread' hstep =>
    refine hcsr04ThreadWrite_carries hslots hcarries (fun distance hpc => ?_) hstep
    exact haverage thread.tsc distance (by rw [← hpc])
  | irq hstep =>
    refine ⟨?_, trivial⟩
    cases irqHandler_cases hstep with
    | _ => exact hslots

theorem threadStart_carries {s s' : Shared} {t : Thread} (h : threadStart t s = some s') :
    t.Carries distances tscs := by
  cases threadStart_cases h with
  | read => exact ⟨nofun, nofun⟩
  | measure => exact nofun
  | write | irq => trivial

end Fields

/-! ## Every report was computed -/

/-- The distances that samples can have in a run. -/
def reportableDistances (env : KernelEnv) (device : Hcsr04Device)
    (moves : List (PoolMove Thread)) : Set Int32 :=
  {distance | distance = NO_VALUE ∨
    ∃ sample, Averaged env device moves sample ∧ sample.distance = distance}

def reportableTscs (env : KernelEnv) (device : Hcsr04Device) (moves : List (PoolMove Thread)) :
    Set UInt64 :=
  {tsc | (tsc = 0 ∨ tsc = NO_TSC) ∨ ∃ sample, Averaged env device moves sample ∧ sample.tsc = tsc}

theorem hasMarks_reportable (env : KernelEnv) (device : Hcsr04Device)
    (moves : List (PoolMove Thread)) :
    HasMarks (reportableDistances env device moves) (reportableTscs env device moves) :=
  ⟨.inl rfl, .inl (.inr rfl), .inl (.inl rfl)⟩

theorem reportableDistances_snoc (env : KernelEnv) (device : Hcsr04Device)
    (moves : List (PoolMove Thread)) (move : PoolMove Thread) :
    reportableDistances env device moves ⊆ reportableDistances env device (moves ++ [move]) := by
  rintro distance (hno | ⟨sample, hsample, rfl⟩)
  · exact .inl hno
  · exact .inr ⟨sample, hsample.snoc move, rfl⟩

theorem reportableTscs_snoc (env : KernelEnv) (device : Hcsr04Device)
    (moves : List (PoolMove Thread)) (move : PoolMove Thread) :
    reportableTscs env device moves ⊆ reportableTscs env device (moves ++ [move]) := by
  rintro tsc (hno | ⟨sample, hsample, rfl⟩)
  · exact .inl hno
  · exact .inr ⟨sample, hsample.snoc move, rfl⟩

theorem Averaged.among {env : KernelEnv} {device : Hcsr04Device} {moves : List (PoolMove Thread)}
    {sample : FifoBuffer} (h : Averaged env device moves sample) :
    Among (reportableDistances env device moves) (reportableTscs env device moves) sample :=
  ⟨.inr ⟨sample, h, rfl⟩, .inr ⟨sample, h, rfl⟩⟩

/-- The buffer and the threads have reportable values only. -/
structure OriginInv (env : KernelEnv) (device : Hcsr04Device) (q : Pool Shared Thread)
    (moves : List (PoolMove Thread)) : Prop where
  slots : ∀ k, Among (reportableDistances env device moves) (reportableTscs env device moves)
    (q.shared.device.buffer k)
  carries : ∀ t ∈ q.threads,
    t.Carries (reportableDistances env device moves) (reportableTscs env device moves)

/-- More can be reported after one more move. -/
theorem OriginInv.snoc {env : KernelEnv} {device : Hcsr04Device} {q : Pool Shared Thread}
    {moves : List (PoolMove Thread)} (h : OriginInv env device q moves)
    (move : PoolMove Thread) : OriginInv env device q (moves ++ [move]) where
  slots := fun k => (h.slots k).mono (reportableDistances_snoc env device moves move)
    (reportableTscs_snoc env device moves move)
  carries := fun t ht => (h.carries t ht).mono (reportableDistances_snoc env device moves move)
    (reportableTscs_snoc env device moves move)

theorem originInv_of_run {env : KernelEnv} {device : Hcsr04Device}
    (hfresh : FreshEcho device.irqData) (hempty : ∀ k, device.buffer k = noSample)
    {p : Pool Shared Thread} {moves : List (PoolMove Thread)} {os : List Unit}
    (hrun : run (deviceMove env) (idle device) moves = some (p, os)) :
    OriginInv env device p moves := by
  have hinit : OriginInv env device (idle device) [] := by
    have hmarks := hasMarks_reportable env device []
    refine ⟨fun k => ?_, by simp [idle]⟩
    have hslot : (idle device).shared.device.buffer k = noSample := hempty k
    rw [hslot]
    exact ⟨hmarks.noDistance, hmarks.noTsc⟩
  refine run_history hinit ?_ hrun
  intro moves q os move q' o hbefore hinv hmove
  have hinv' := hinv.snoc move
  cases move with
  | start t =>
    obtain ⟨s, hstart, rfl⟩ := poolMove_start_eq_some.mp hmove
    refine ⟨by rw [threadStart_device hstart]; exact hinv'.slots, fun u hu => ?_⟩
    rcases List.mem_append.mp hu with hu | hu
    · exact hinv'.carries u hu
    · rw [List.mem_singleton.mp hu]
      exact threadStart_carries hstart
  | step i =>
    obtain ⟨t, s, t', ht, hstep, rfl⟩ := poolMove_step_eq_some.mp hmove
    have haverage : ∀ tsc distance, t = .measure ⟨tsc, .average⟩ →
        averageDistance q.shared.device.irqData = some distance →
        Among (reportableDistances env device (moves ++ [.step i]))
          (reportableTscs env device (moves ++ [.step i])) ⟨distance, tsc⟩ := by
      rintro tsc distance rfl hdistance
      exact (averaged_of_step hfresh hbefore ht hdistance _).among
    obtain ⟨hslots, hcarries⟩ := threadStep_carries (hasMarks_reportable env device _) hinv'.slots
      (hinv'.carries t (List.mem_of_getElem? ht)) haverage hstep
    refine ⟨hslots, fun u hu => ?_⟩
    rcases List.mem_or_eq_of_mem_set hu with hu | rfl
    · exact hinv'.carries u hu
    · exact hcarries

/-! ## The buffer of a configured device -/

/-- The buffer as an initialised device has it. -/
structure NoSamples (device : Hcsr04Device) : Prop where
  bufferIndex : device.bufferIndex = 0
  buffer : ∀ k, device.buffer k = noSample

theorem NoSamples.configPins {s : MiscDriver} (h : ∀ minor, NoSamples (s.device minor))
    (env : KernelEnv) (minor param1 param2 : Int32) :
    ∀ other, NoSamples ((configPinsIoctl env minor param1 param2 s).1.device other) := by
  rcases configPinsIoctl_device env minor param1 param2 s with
    hrefused | ⟨-, irqData, arePinsConfigured, calls, pins, hdriver⟩
  · rw [hrefused]
    exact h
  · rw [hdriver]
    exact forall_setDevice (s := { s with calls, pins }) h minor
      ⟨(h minor).bufferIndex, (h minor).buffer⟩

theorem NoSamples.miscOp {s : MiscDriver} (h : ∀ minor, NoSamples (s.device minor))
    (op : MiscOp) : ∀ minor, NoSamples ((miscOp s op).1.device minor) :=
  forall_miscOp h (fun _ => ⟨rfl, fun _ => rfl⟩) (NoSamples.configPins h)
    (fun minor _ _ _ => ⟨(h minor).bufferIndex, (h minor).buffer⟩) op

/-- Only a measurement puts a sample into the buffer. -/
theorem noSamples_afterOps (blank : Int32 → Hcsr04Device) (minorLeft : Int32 → Int32)
    (ops : List MiscOp) (minor : Int32) :
    NoSamples ((afterOps (hcsr04Init blank minorLeft) ops).device minor) := by
  have hall : ∀ s : MiscDriver, (∀ minor, NoSamples (s.device minor)) →
      ∀ minor, NoSamples ((afterOps s ops).device minor) := by
    induction ops with
    | nil => exact fun s h => h
    | cons op ops ih => exact fun s h => ih _ (NoSamples.miscOp h op)
  exact hall _ (fun _ => ⟨rfl, fun _ => rfl⟩) minor

theorem NoSamples.holds {device : Hcsr04Device} (h : NoSamples device) :
    Holds device.samples 0 [] where
  index := h.bufferIndex
  stack := .empty fun k => congrArg FifoBuffer.tsc (h.buffer k)

/-- The device of a minor number after the driver was loaded and the calls were made. -/
abbrev deviceAfter (blank : Int32 → Hcsr04Device) (minorLeft : Int32 → Int32)
    (ops : List MiscOp) (minor : Int32) : Hcsr04Device :=
  (afterOps (hcsr04Init blank minorLeft) ops).device minor

/-- In every interleaving, what a read returned by a whole copy is the mark of an empty buffer or
was computed: its distance is the mean of the echoes that some measurement came to, its time stamp
that of some measurement. -/
theorem reports_computed (env : KernelEnv) (blank : Int32 → Hcsr04Device)
    (minorLeft : Int32 → Int32) (ops : List MiscOp) (minor : Int32) {p : Pool Shared Thread}
    {moves : List (PoolMove Thread)} {os : List Unit}
    (hrun : run (deviceMove env) (idle (deviceAfter blank minorLeft ops minor)) moves =
      some (p, os)) {created : Bool} {copied : CopiedBytes} {userBuf : FifoBuffer}
    {removed : List FifoBuffer}
    (hread : Thread.read ⟨created, copied, userBuf, removed, .returned SUCCESS⟩ ∈ p.threads)
    (hwhole : sizeofFifoBuffer ≤ copied.last) :
    (userBuf.distance = NO_VALUE ∨
      ∃ sample, Averaged env (deviceAfter blank minorLeft ops minor) moves sample ∧
        sample.distance = userBuf.distance) ∧
    ((userBuf.tsc = 0 ∨ userBuf.tsc = NO_TSC) ∨
      ∃ sample, Averaged env (deviceAfter blank minorLeft ops minor) moves sample ∧
        sample.tsc = userBuf.tsc) := by
  have hinv := originInv_of_run (freshEcho_afterOps blank minorLeft ops minor)
    (noSamples_afterOps blank minorLeft ops minor).buffer hrun
  have hamong := (hinv.carries _ hread).1 userBuf (by simp [ReadCall.fetched, hwhole])
  exact ⟨hamong.distance, hamong.tsc⟩

/-- The distance 100 that a measurement stored with the time stamp 7. -/
theorem reports_computed_measured : ∃ p os, ∃ userBuf : FifoBuffer,
    run (deviceMove grantAll) (idle configuredDevice)
      (startMeasurement 0 ++ measureOnce 1 ++ startRead 4 11) = some (p, os) ∧
    userBuf.distance = 100 ∧ userBuf.tsc = 7 ∧
    (∃ sample, Averaged grantAll configuredDevice
      (startMeasurement 0 ++ measureOnce 1 ++ startRead 4 11) sample ∧
      sample.distance = userBuf.distance) ∧
    ∃ sample, Averaged grantAll configuredDevice
      (startMeasurement 0 ++ measureOnce 1 ++ startRead 4 11) sample ∧
      sample.tsc = userBuf.tsc := by
  obtain ⟨p, os, removed, hrun, hread⟩ : ∃ p os removed, run (deviceMove grantAll)
      (idle configuredDevice) (startMeasurement 0 ++ measureOnce 1 ++ startRead 4 11) =
        some (p, os) ∧
      p.threads[4]? = some (.read ⟨true, wholeCopies, ⟨100, 7⟩, removed, .returned SUCCESS⟩) :=
    ⟨_, _, _, rfl, rfl⟩
  obtain ⟨hdistance, htsc⟩ := reports_computed grantAll (fun _ => blankDevice) (fun _ => 0)
    [(5, .openFile), (5, .configPins grantAll 3 2), (5, .setParameters 1 1)] 5 hrun
    (List.mem_of_getElem? hread) (Nat.le_refl 12)
  exact ⟨p, os, ⟨100, 7⟩, hrun, rfl, rfl, hdistance.resolve_left (by decide),
    htsc.resolve_left (by decide)⟩

/-! ## Reports without clearing -/

/-- Whatever a read has fetched, a call of `fifo_read` returned. -/
theorem fetched_of_log {env : KernelEnv} {device : Hcsr04Device} {p : Pool Shared Thread}
    {moves : List (PoolMove Thread)} {os : List Unit}
    (hrun : run (deviceMove env) (idle device) moves = some (p, os)) :
    ∀ call, Thread.read call ∈ p.threads → ∀ buffer, call.fetched = some buffer →
      (BufferCall.fifo .read, some buffer) ∈ bufferLog env device moves := by
  refine run_pool_events returns (fun q log => ∀ call, Thread.read call ∈ q.threads →
    ∀ buffer, call.fetched = some buffer → (BufferCall.fifo .read, some buffer) ∈ log) ?_ ?_
    (by simp [idle]) hrun
  · intro q log i t s' t' hq ht hstep call hcall buffer hfetched
    rcases List.mem_or_eq_of_mem_set hcall with hother | rfl
    · exact List.mem_append_left _ (hq call hother buffer hfetched)
    · cases threadStep_cases hstep with
      | @read before _ hread =>
        rcases fetched_step hread hfetched with hbefore | hreturned
        · exact List.mem_append_left _ (hq before (List.mem_of_getElem? ht) buffer hbefore)
        · obtain ⟨created, copied, userBuf, removed, pc⟩ := before
          cases hreturned
          exact List.mem_append_right _ (List.mem_singleton_self _)
  · intro q log t s' hq hstart call hcall buffer hfetched
    rcases List.mem_append.mp hcall with hcall | hcall
    · exact hq call hcall buffer hfetched
    · obtain rfl := List.mem_singleton.mp hcall
      cases threadStart_cases hstart with
      | read => cases hfetched

/-- What the measurements write, and wrote, was computed. -/
structure WritesComputed (env : KernelEnv) (device : Hcsr04Device) (q : Pool Shared Thread)
    (moves : List (PoolMove Thread)) : Prop where
  writing : ∀ tsc buffer pc, Thread.measure ⟨tsc, .fifoWrite buffer pc⟩ ∈ q.threads →
    Averaged env device moves buffer
  written : ∀ e ∈ bufferLog env device moves, ∀ buffer, e.1 = .fifo (.write buffer) →
    Averaged env device moves buffer

theorem writesComputed_of_run {env : KernelEnv} {device : Hcsr04Device}
    (hfresh : FreshEcho device.irqData) {p : Pool Shared Thread} {moves : List (PoolMove Thread)}
    {os : List Unit} (hrun : run (deviceMove env) (idle device) moves = some (p, os)) :
    WritesComputed env device p moves := by
  refine run_history ⟨by simp [idle], by simp [poolEvents]⟩ ?_ hrun
  intro moves q os move q' o hbefore hinv hmove
  constructor
  · intro tsc buffer pc hmem
    cases move with
    | start t =>
      obtain ⟨s, hstart, rfl⟩ := poolMove_start_eq_some.mp hmove
      rcases List.mem_append.mp hmem with hmem | hmem
      · exact (hinv.writing tsc buffer pc hmem).snoc _
      · obtain rfl := List.mem_singleton.mp hmem
        cases threadStart_cases hstart
    | step i =>
      obtain ⟨t, s, t', ht, hstep, rfl⟩ := poolMove_step_eq_some.mp hmove
      rcases List.mem_or_eq_of_mem_set hmem with hmem | rfl
      · exact (hinv.writing tsc buffer pc hmem).snoc _
      · cases threadStep_cases hstep with
        | measure hmeasure =>
          cases hcsr04ThreadWrite_cases hmeasure with
          | average hdistance => exact averaged_of_step hfresh hbefore ht hdistance _
          | fifoWrite => exact (hinv.writing _ _ _ (List.mem_of_getElem? ht)).snoc _
  · intro e he buffer hwrite
    rw [bufferLog, poolEvents_eq, runEvents_snoc _ _ hbefore hmove, ← poolEvents_eq] at he
    rcases List.mem_append.mp he with he | he
    · exact (hinv.written e he buffer hwrite).snoc _
    · cases move with
      | start t => simp [moveEvent] at he
      | step i =>
        obtain ⟨t, ht, hreturns⟩ := Option.bind_eq_some_iff.mp (Option.mem_toList.mp he)
        unfold returns at hreturns
        split at hreturns
        · cases hreturns
          cases hwrite
        · cases hreturns
          cases hwrite
        · cases hreturns
          cases hwrite
          exact (hinv.writing _ _ _ (List.mem_of_getElem? ht)).snoc _
        · split at hreturns <;> cases hreturns <;> cases hwrite
        · cases hreturns
          cases hwrite
        · cases hreturns

/-- The stack replies with what was written to it. -/
theorem unreadCall_replies {P : FifoBuffer → Prop} (hempty : P emptyReport)
    {unread unread' : List FifoBuffer} {log : List (BufferCall × Option FifoBuffer)}
    (hunread : ∀ buffer ∈ unread, P buffer)
    (hlog : ∀ e ∈ log, ∀ buffer, e.1 = .fifo (.write buffer) → P buffer)
    (hrun : run unreadCall unread (log.map Prod.fst) = some (unread', log.map Prod.snd)) :
    ∀ e ∈ log, ∀ buffer, e.2 = some buffer → P buffer := by
  induction log generalizing unread with
  | nil => simp
  | cons e log ih =>
    obtain ⟨unread₁, r, rs, hcall, htail, heq⟩ := run_cons_eq_some.mp hrun
    obtain ⟨rfl, rfl⟩ := List.cons.inj heq
    obtain ⟨op, hop⟩ : ∃ op, e.1 = .fifo op := by
      cases hcase : e.1 with
      | fifo op => exact ⟨op, rfl⟩
      | _ => simp [unreadCall, hcase] at hcall
    have hkept : (∀ buffer ∈ unread₁, P buffer) ∧ ∀ buffer, e.2 = some buffer → P buffer := by
      rw [hop] at hcall
      obtain ⟨rfl, hreply⟩ := Prod.mk.inj (Option.some.inj hcall)
      rw [← hreply]
      cases op with
      | write written =>
        have hwritten := hlog e List.mem_cons_self written hop
        refine ⟨fun buffer hmem => ?_, nofun⟩
        unfold unreadOp writeUnread at hmem
        grind [List.mem_of_mem_dropLast]
      | read =>
        cases unread with
        | nil => exact ⟨by simp, by simpa [unreadOp] using hempty⟩
        | cons newest older => grind [unreadOp]
    intro e' he' buffer hbuffer
    rcases List.mem_cons.mp he' with rfl | he'
    · exact hkept.2 buffer hbuffer
    · exact ih hkept.1 (fun e he => hlog e (List.mem_cons_of_mem _ he)) htail e' he' buffer hbuffer

/-- Without clearing, a read returned by a whole copy the empty report or the sample of one
measurement: its mean with its time stamp. -/
theorem reports_one_measurement (env : KernelEnv) (blank : Int32 → Hcsr04Device)
    (minorLeft : Int32 → Int32) (ops : List MiscOp) (minor : Int32) {p : Pool Shared Thread}
    {moves : List (PoolMove Thread)} {os : List Unit}
    (hinput : ∀ t, .start t ∈ moves → t.PlainInput)
    (hrun : run (deviceMove env) (idle (deviceAfter blank minorLeft ops minor)) moves =
      some (p, os)) {created : Bool} {copied : CopiedBytes} {userBuf : FifoBuffer}
    {removed : List FifoBuffer}
    (hread : Thread.read ⟨created, copied, userBuf, removed, .returned SUCCESS⟩ ∈ p.threads)
    (hwhole : sizeofFifoBuffer ≤ copied.last) :
    userBuf = emptyReport ∨
      Averaged env (deviceAfter blank minorLeft ops minor) moves userBuf := by
  have hstarts := starts_of_inputs env (deviceAfter blank minorLeft ops minor) hinput
  obtain ⟨d, hlog, -⟩ := idle_linear env _ (alone_of_starts hstarts) hrun
  have hempty := (noSamples_afterOps blank minorLeft ops minor).holds
  obtain ⟨top, unread, hstack, -⟩ := hempty.calls (plain_of_starts hstarts hrun) hlog
  have hcomputed := writesComputed_of_run (freshEcho_afterOps blank minorLeft ops minor) hrun
  refine unreadCall_replies (P := fun buffer => buffer = emptyReport ∨
    Averaged env (deviceAfter blank minorLeft ops minor) moves buffer) (.inl rfl) (by simp) ?_
    hstack _ (fetched_of_log hrun _ hread userBuf (by simp [ReadCall.fetched, hwhole])) userBuf rfl
  exact fun e he buffer hwrite => .inr (hcomputed.written e he buffer hwrite)

theorem reports_one_measurement_stored : ∃ p os, ∃ userBuf : FifoBuffer,
    run (deviceMove grantAll) (idle configuredDevice)
      (startMeasurement 0 ++ measureOnce 1 ++ startRead 4 11) = some (p, os) ∧
    userBuf = ⟨100, 7⟩ ∧ Averaged grantAll configuredDevice
      (startMeasurement 0 ++ measureOnce 1 ++ startRead 4 11) userBuf := by
  obtain ⟨p, os, removed, hrun, hread⟩ : ∃ p os removed, run (deviceMove grantAll)
      (idle configuredDevice) (startMeasurement 0 ++ measureOnce 1 ++ startRead 4 11) =
        some (p, os) ∧
      p.threads[4]? = some (.read ⟨true, wholeCopies, ⟨100, 7⟩, removed, .returned SUCCESS⟩) :=
    ⟨_, _, _, rfl, rfl⟩
  have hone := reports_one_measurement grantAll (fun _ => blankDevice) (fun _ => 0)
    [(5, .openFile), (5, .configPins grantAll 3 2), (5, .setParameters 1 1)] 5
    (by simp [startMeasurement, measureOnce, startRead, stepsOf, Thread.PlainInput, NO_TSC]) hrun
    (List.mem_of_getElem? hread) (Nat.le_refl 12)
  exact ⟨p, os, ⟨100, 7⟩, hrun, rfl, hone.resolve_left (by decide)⟩

end KernelDrivers.Hcsr04
