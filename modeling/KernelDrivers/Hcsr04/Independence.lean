import KernelDrivers.Hcsr04.Echoes

/-!
# Measurements that depend on earlier ones

The distance a measurement stores is an average over all echoes accepted since the device was
opened: the sums are not reset when a measurement starts. So two measurements with the same
edges store the same distance exactly when they start from the same sums.
-/

namespace KernelDrivers.Hcsr04
open Lib

/-! ## The property -/

/-- The pools that a run reaches with these edges handled. -/
abbrev ReachesWith (env : KernelEnv) (p : Pool Shared Thread) (edges : List UInt64)
    (q : Pool Shared Thread) : Prop :=
  Reaches (threadStep env) threadStart edgeEvent p edges q

/-- Thread `i` is a measurement before its first statement. -/
def Waits (p : Pool Shared Thread) (i : Nat) : Prop :=
  ∃ tsc, p.threads[i]? = some (.measure ⟨tsc, .lock⟩)

/-- Measurement `i` is before its first statement. The lock it waits for is free or comes free
without an edge; the device's interrupt is claimed and the next edge is taken as rising. -/
structure AtStart (env : KernelEnv) (p : Pool Shared Thread) (i : Nat) : Prop where
  waits : Waits p i
  free : ∃ q, ReachesWith env p [] q ∧ Waits q i ∧ q.shared.device.bufferLock = false
  configured : p.shared.device.irqData.irqNo ≠ NO_VALUE
  rising : p.shared.device.irqData.irqEdge = 0

theorem AtStart.of_free {env : KernelEnv} {p : Pool Shared Thread} {i : Nat} (hwaits : Waits p i)
    (hfree : p.shared.device.bufferLock = false)
    (hconfigured : p.shared.device.irqData.irqNo ≠ NO_VALUE)
    (hrising : p.shared.device.irqData.irqEdge = 0) : AtStart env p i :=
  ⟨hwaits, ⟨p, .refl _ p, hwaits, hfree⟩, hconfigured, hrising⟩

/-- The edges are handled up to the average of measurement `i`, which then calls `fifo_write`
with the distance. -/
def Stores (env : KernelEnv) (p : Pool Shared Thread) (i : Nat) (edges : List UInt64)
    (distance : Int32) : Prop :=
  ∃ q q' tsc, ReachesWith env p edges q ∧ q.threads[i]? = some (.measure ⟨tsc, .average⟩) ∧
    deviceMove env q (.step i) = some (q', ()) ∧
    q'.threads[i]? = some (.measure ⟨tsc, .fifoWrite ⟨distance, tsc⟩ .stepForward⟩)

/-- Measurement `i₁` from `p₁` and measurement `i₂` from `p₂` store the same distance whenever
they handle the same edges and accept an echo. -/
def StandsAlone (env : KernelEnv) (p₁ : Pool Shared Thread) (i₁ : Nat) (p₂ : Pool Shared Thread)
    (i₂ : Nat) : Prop :=
  ∀ edges distance₁ distance₂, acceptedEchoes 0 0 edges ≠ [] →
    Stores env p₁ i₁ edges distance₁ → Stores env p₂ i₂ edges distance₂ → distance₁ = distance₂

/-! ## The distance stored -/

theorem ReachesWith.irqData {env : KernelEnv} {p q : Pool Shared Thread} {edges : List UInt64}
    (h : ReachesWith env p edges q) :
    q.shared.device.irqData = edges.foldl takeEdge p.shared.device.irqData := by
  obtain ⟨moves, os, hrun, hedges⟩ := h
  rw [← hedges]
  exact irqData_of_run hrun

/-- At its average a measurement goes on to store the quotient, if the division does not trap. -/
theorem average_step_iff {env : KernelEnv} {q : Pool Shared Thread} {i : Nat} {tsc : UInt64}
    (hq : q.threads[i]? = some (.measure ⟨tsc, .average⟩)) {distance : Int32} :
    (∃ q', deviceMove env q (.step i) = some (q', ()) ∧
      q'.threads[i]? = some (.measure ⟨tsc, .fifoWrite ⟨distance, tsc⟩ .stepForward⟩)) ↔
      averageDistance q.shared.device.irqData = some distance := by
  have hlt : i < q.threads.length := (List.getElem?_eq_some_iff.mp hq).1
  constructor
  · rintro ⟨q', hmove, hq'⟩
    obtain ⟨t, s, t', ht, hstep, rfl⟩ := poolMove_step_eq_some.mp hmove
    obtain rfl := Option.some.inj (hq.symm.trans ht)
    obtain rfl : t' = .measure ⟨tsc, .fifoWrite ⟨distance, tsc⟩ .stepForward⟩ := by
      simpa [hlt] using hq'
    simp only [threadStep, hcsr04ThreadWrite] at hstep
    cases haverage : averageDistance q.shared.device.irqData with
    | none => simp [haverage] at hstep
    | some x =>
      simp only [haverage, Option.map_some, Option.some.injEq, Prod.mk.injEq] at hstep
      have hx : x = distance := by simpa using hstep.2
      rw [hx]
  · intro haverage
    have hstep : threadStep env (.measure ⟨tsc, .average⟩) q.shared =
        some (q.shared, .measure ⟨tsc, .fifoWrite ⟨distance, tsc⟩ .stepForward⟩) := by
      simp [threadStep, hcsr04ThreadWrite, haverage]
    exact ⟨_, poolMove_step_eq_some.mpr ⟨_, _, _, hq, hstep, rfl⟩, by simp [hlt]⟩

/-- The distance is the average over the data the edges leave. -/
theorem Stores.average {env : KernelEnv} {p : Pool Shared Thread} {i : Nat} {edges : List UInt64}
    {distance : Int32} (h : Stores env p i edges distance) :
    averageDistance (edges.foldl takeEdge p.shared.device.irqData) = some distance := by
  obtain ⟨q, q', tsc, hreach, hq, hmove, hq'⟩ := h
  rw [← hreach.irqData]
  exact (average_step_iff hq).mp ⟨q', hmove, hq'⟩

/-! ## Runs with given edges -/

theorem takeEdge_irqNo (irqData : Hcsr04IrqData) (irqTime : UInt64) :
    (takeEdge irqData irqTime).irqNo = irqData.irqNo :=
  (takeEdge_sums irqData irqTime).2.2

/-- The first statement of the handler. -/
theorem irqHandler_edge (s : Shared) (irqTime : UInt64) :
    ∃ irq', irqHandler ⟨irqTime, .edge⟩ s = some (s.setDevice { s.device with
      irqData := takeEdge s.device.irqData irqTime }, irq') := by
  simp only [irqHandler, takeEdge]
  split_ifs
  · exact ⟨_, rfl⟩
  · exact ⟨_, rfl⟩
  · exact ⟨_, rfl⟩

/-- An edge can come while the interrupt is claimed. Its handler goes to the end of the threads. -/
theorem edge_moves (env : KernelEnv) {p : Pool Shared Thread}
    (hconfigured : p.shared.device.irqData.irqNo ≠ NO_VALUE) (irqTime : UInt64) :
    ∃ irq', deviceMove env p (.start (.irq ⟨irqTime, .edge⟩)) =
        some (⟨p.shared, p.threads ++ [.irq ⟨irqTime, .edge⟩]⟩, ()) ∧
      deviceMove env ⟨p.shared, p.threads ++ [.irq ⟨irqTime, .edge⟩]⟩ (.step p.threads.length) =
        some (⟨p.shared.setDevice { p.shared.device with
          irqData := takeEdge p.shared.device.irqData irqTime },
            p.threads ++ [.irq irq']⟩, ()) := by
  obtain ⟨irq', hedge⟩ := irqHandler_edge p.shared irqTime
  let s := p.shared.setDevice { p.shared.device with
    irqData := takeEdge p.shared.device.irqData irqTime }
  have hthread : threadStep env (.irq ⟨irqTime, .edge⟩) p.shared = some (s, .irq irq') := by
    rw [threadStep, hedge]
    rfl
  have hlast : (p.threads ++ [Thread.irq ⟨irqTime, .edge⟩])[p.threads.length]? =
      some (.irq ⟨irqTime, .edge⟩) := by simp
  refine ⟨irq', poolMove_start_eq_some.mpr ⟨p.shared, if_neg hconfigured, rfl⟩,
    poolMove_step_eq_some.mpr ⟨_, s, _, hlast, hthread, ?_⟩⟩
  simp [s]

/-- Any edges can come while the interrupt is claimed. -/
theorem reaches_edges (env : KernelEnv) {p : Pool Shared Thread}
    (hconfigured : p.shared.device.irqData.irqNo ≠ NO_VALUE) (edges : List UInt64) :
    ∃ q, ReachesWith env p edges q ∧
      q.shared = p.shared.setDevice { p.shared.device with
        irqData := edges.foldl takeEdge p.shared.device.irqData } ∧
      ∀ (j : Nat) t, p.threads[j]? = some t → q.threads[j]? = some t := by
  induction edges generalizing p with
  | nil => exact ⟨p, .refl _ p, rfl, fun _ _ ht => ht⟩
  | cons irqTime edges ih =>
    obtain ⟨irq', hstart, hstep⟩ := edge_moves env hconfigured irqTime
    have hhead := (Leads.of_step (moveEvent edgeEvent) hstart).trans
      (Leads.of_step (moveEvent edgeEvent) hstep)
    have hevents : moveEvent edgeEvent ⟨p.shared, p.threads ++ [.irq ⟨irqTime, .edge⟩]⟩
        (.step p.threads.length) = some irqTime := by
      simp [moveEvent, edgeEvent]
    rw [hevents] at hhead
    obtain ⟨q, htail, hshared, hthreads⟩ := ih
      (p := ⟨p.shared.setDevice { p.shared.device with
        irqData := takeEdge p.shared.device.irqData irqTime }, p.threads ++ [.irq irq']⟩)
      (by simpa [Shared.setDevice, takeEdge_irqNo] using hconfigured)
    refine ⟨q, Reaches.trans (reaches_iff.mpr hhead) htail, hshared, fun j t ht => hthreads j t ?_⟩
    have hlt : j < p.threads.length := (List.getElem?_eq_some_iff.mp ht).1
    rw [List.getElem?_append_left hlt]
    exact ht

/-- A statement of a measurement. -/
theorem reaches_measure (env : KernelEnv) {p : Pool Shared Thread} {i : Nat}
    {thread thread' : Measurement} {s : Shared} (ht : p.threads[i]? = some (.measure thread))
    (hstep : hcsr04ThreadWrite env thread p.shared = some (s, thread')) :
    ∃ q, ReachesWith env p [] q ∧ q.shared = s ∧ q.threads[i]? = some (.measure thread') := by
  have hlt : i < p.threads.length := (List.getElem?_eq_some_iff.mp ht).1
  have hthread : threadStep env (.measure thread) p.shared = some (s, .measure thread') := by
    rw [threadStep, hstep]
    rfl
  exact ⟨_, Reaches.of_step edgeEvent ht hthread, rfl, by simp [hlt]⟩

/-- The count of the samples does not wrap around. -/
theorem toInt_add_one {samplesCollected totalSamples : Int32}
    (h : samplesCollected < totalSamples) :
    (samplesCollected + 1).toInt = samplesCollected.toInt + 1 := by
  have hlt := Int32.lt_iff_toInt_lt.mp h
  have hmax := totalSamples.toInt_lt
  have hmin := samplesCollected.le_toInt
  rw [Int32.toInt_add]
  apply Int.bmod_eq_of_le <;> simp <;> omega

/-- The triggers come to an end. -/
theorem reaches_average (env : KernelEnv) {tsc : UInt64} {totalSamples : Int32} (n : Nat)
    {p : Pool Shared Thread} {i : Nat} {samplesCollected : Int32}
    (hn : (totalSamples.toInt - samplesCollected.toInt).toNat = n)
    (ht : p.threads[i]? = some (.measure ⟨tsc, .loop samplesCollected totalSamples⟩)) :
    ∃ q, ReachesWith env p [] q ∧ q.shared.device.irqData = p.shared.device.irqData ∧
      q.threads[i]? = some (.measure ⟨tsc, .average⟩) := by
  induction n generalizing p samplesCollected with
  | zero =>
    have hdone : ¬ samplesCollected < totalSamples := by
      rw [Int32.lt_iff_toInt_lt]
      omega
    obtain ⟨q, hreach, hshared, hq⟩ := reaches_measure env ht (by
      rw [hcsr04ThreadWrite]
      exact if_neg hdone)
    exact ⟨q, hreach, by rw [hshared], hq⟩
  | succ n ih =>
    have hmore : samplesCollected < totalSamples := by
      rw [Int32.lt_iff_toInt_lt]
      omega
    have hnext := toInt_add_one hmore
    obtain ⟨q₁, hreach₁, hshared₁, hq₁⟩ := reaches_measure env ht (by
      rw [hcsr04ThreadWrite]
      exact if_pos hmore)
    obtain ⟨q₂, hreach₂, hshared₂, hq₂⟩ := reaches_measure env hq₁ rfl
    obtain ⟨q₃, hreach₃, hshared₃, hq₃⟩ := reaches_measure env hq₂ rfl
    obtain ⟨q, hreach, hdata, hq⟩ := ih (by omega) hq₃
    refine ⟨q, ((hreach₁.trans hreach₂).trans hreach₃).trans hreach, hdata.trans ?_, hq⟩
    rw [hshared₃, hshared₂, hshared₁]
    rfl

/-- From the start of a measurement, the edges determine the distance it stores. -/
theorem stores_iff {env : KernelEnv} {p : Pool Shared Thread} {i : Nat} (h : AtStart env p i)
    (edges : List UInt64) (distance : Int32) : Stores env p i edges distance ↔
      averageDistance (edges.foldl takeEdge p.shared.device.irqData) = some distance := by
  refine ⟨Stores.average, fun haverage => ?_⟩
  obtain ⟨q₀, hreach₀, ⟨tsc, ht⟩, hfree⟩ := h.free
  have hdata₀ : q₀.shared.device.irqData = p.shared.device.irqData := hreach₀.irqData
  have hlock : hcsr04ThreadWrite env ⟨tsc, .lock⟩ q₀.shared =
      some (q₀.shared.setDevice { q₀.shared.device with bufferLock := true }, ⟨tsc, .start⟩) := by
    simp [hcsr04ThreadWrite, Shared.lock, hfree]
  obtain ⟨q₁, hreach₁, hshared₁, hq₁⟩ := reaches_measure env ht hlock
  have hdata₁ : q₁.shared.device.irqData = p.shared.device.irqData := by
    rw [hshared₁]
    exact hdata₀
  obtain ⟨q₂, hreach₂, hshared₂, hthreads₂⟩ := reaches_edges env (p := q₁)
    (by rw [hdata₁]; exact h.configured) edges
  obtain ⟨q₃, hreach₃, hshared₃, hq₃⟩ := reaches_measure env (hthreads₂ i _ hq₁) rfl
  obtain ⟨q, hreach, hdata, hq⟩ := reaches_average env _ rfl hq₃
  have hdata' : q.shared.device.irqData = edges.foldl takeEdge p.shared.device.irqData := by
    rw [hdata, hshared₃, hshared₂, ← hdata₁]
    rfl
  obtain ⟨q', hmove, hq'⟩ := (average_step_iff hq).mpr (hdata'.symm ▸ haverage)
  refine ⟨q, q', tsc, ?_, hq, hmove, hq'⟩
  simpa using (((hreach₀.trans hreach₁).trans hreach₂).trans hreach₃).trans hreach

/-! ## Sums that edges can add -/

theorem acceptedEchoes_zero (risingEdgeTime risingEdgeTime' : UInt64) (edges : List UInt64) :
    acceptedEchoes 0 risingEdgeTime edges = acceptedEchoes 0 risingEdgeTime' edges := by
  cases edges with
  | nil => rfl
  | cons irqTime edges => simp [acceptedEchoes]

/-- Echoes of distance 1, then echoes of distance 0. -/
def echoesOf (ones zeros : Nat) : List UInt64 :=
  (List.replicate ones [0, 23200]).flatten ++ (List.replicate zeros [0, 0]).flatten

theorem acceptedEchoes_echoesOf (ones zeros : Nat) :
    acceptedEchoes 0 0 (echoesOf ones zeros) =
      List.replicate ones 1 ++ List.replicate zeros 0 := by
  have hone : distanceOf 0 23200 = 1 := by decide
  have hzero : distanceOf 0 0 = 0 := by decide
  induction ones with
  | zero =>
    induction zeros with
    | zero => rfl
    | succ zeros ih =>
      simp only [echoesOf, List.replicate_zero, List.flatten_nil, List.nil_append] at ih
      simp [echoesOf, List.replicate_succ, acceptedEchoes, hzero, ih]
  | succ ones ih =>
    simp only [echoesOf] at ih
    simp [echoesOf, List.replicate_succ, acceptedEchoes, hone, ih]

theorem sumInt_echoes (ones zeros : Nat) :
    sumInt (List.replicate ones 1 ++ List.replicate zeros 0) = Int32.ofNat ones := by
  have hzeros : ∀ n, sumInt (List.replicate n 0) = 0 := by
    intro n
    induction n with
    | zero => rfl
    | succ n ih => simpa [sumInt, List.replicate_succ] using ih
  rw [sumInt_append, hzeros, Int32.add_zero]
  induction ones with
  | zero => rfl
  | succ n ih =>
    have hcons : sumInt (List.replicate (n + 1) 1) = 1 + sumInt (List.replicate n 1) := rfl
    rw [hcons, ih, Int32.ofNat_add, Int32.add_comm]
    rfl

theorem ofNat_toNat_toUInt32 (x : Int32) : Int32.ofNat x.toUInt32.toNat = x := by
  rw [← UInt32.toInt32_ofNat', UInt32.ofNat_toNat]
  exact Int32.toInt32_toUInt32 x

/-- Any two numbers can be added to the count and to the sum. -/
theorem exists_edges (count sum : Int32) : ∃ edges, acceptedEchoes 0 0 edges ≠ [] ∧
    Int32.ofNat (acceptedEchoes 0 0 edges).length = count ∧
    sumInt (acceptedEchoes 0 0 edges) = sum := by
  have hlt := sum.toUInt32.toNat_lt
  -- as many echoes as there are numbers, so that the sum can be any of them
  refine ⟨echoesOf sum.toUInt32.toNat (count.toUInt32.toNat + 2 ^ 32 - sum.toUInt32.toNat), ?_⟩
  rw [acceptedEchoes_echoesOf, sumInt_echoes, ofNat_toNat_toUInt32]
  refine ⟨?_, ?_, rfl⟩
  · intro hnil
    have hlength := congrArg List.length hnil
    simp only [List.length_append, List.length_replicate, List.length_nil] at hlength
    omega
  · rw [List.length_append, List.length_replicate, List.length_replicate,
      show sum.toUInt32.toNat + (count.toUInt32.toNat + 2 ^ 32 - sum.toUInt32.toNat) =
        count.toUInt32.toNat + 2 ^ 32 by omega, Int32.ofNat_add, ofNat_toNat_toUInt32]
    have hzero : Int32.ofNat (2 ^ 32) = 0 := by decide
    rw [hzero, Int32.add_zero]

/-! ## Averages determine the sums -/

/-- The average of `sum` over `total` samples traps. -/
def Traps (sum total : Int32) : Prop := total = 0 ∨ sum = Int32.minValue ∧ total = -1

theorem averageDistance_eq_some_iff {irqData : Hcsr04IrqData} {distance : Int32} :
    averageDistance irqData = some distance ↔
      ¬ Traps irqData.sampleSum irqData.totalSamples ∧
        irqData.sampleSum / irqData.totalSamples = distance := by
  unfold averageDistance Traps
  split_ifs with htrap
  · simp [htrap]
  · simp [htrap]

theorem not_traps_one (sum : Int32) : ¬ Traps sum 1 := by
  rintro (hzero | ⟨-, hneg⟩)
  · exact absurd hzero (by decide)
  · exact absurd hneg (by decide)

/-- A division by anything but 1 and -1 halves a number at least. -/
theorem div_ne_maxValue {k : Int32} (hone : k ≠ 1) (hneg : k ≠ -1) (a : Int32) :
    a / k ≠ Int32.maxValue := by
  intro hmax
  have hquotient : a.toInt.natAbs / k.toInt.natAbs = 2 ^ 31 - 1 :=
    calc
      a.toInt.natAbs / k.toInt.natAbs = (a / k).toInt.natAbs := by
        rw [Int32.toInt_div_of_ne_right a k hneg, Int.natAbs_tdiv]
        rfl
      _ = 2 ^ 31 - 1 := by
        rw [hmax]
        decide
  have ha : a.toInt.natAbs ≤ 2 ^ 31 := by
    have hle := a.le_toInt
    have hlt := a.toInt_lt
    omega
  have hk : k.toInt.natAbs ≠ 1 := by
    intro habs
    rcases Int.natAbs_eq_iff.mp habs with h | h
    · exact hone (Int32.toInt_inj.mp h)
    · exact hneg (Int32.toInt_inj.mp h)
  have hle : a.toInt.natAbs / k.toInt.natAbs ≤ 2 ^ 30 := by
    rcases Nat.eq_zero_or_pos k.toInt.natAbs with hzero | hpos
    · simp [hzero]
    · apply Nat.div_le_of_le_mul
      have htwo : 2 * 2 ^ 30 ≤ k.toInt.natAbs * 2 ^ 30 := Nat.mul_le_mul_right _ (by omega)
      omega
  omega

/-- A quotient by anything but 1 differs from its shifted numerator somewhere. -/
theorem exists_quotient_ne {k : Int32} (hzero : k ≠ 0) (hone : k ≠ 1) (c : Int32) :
    ∃ q, ¬ Traps (c + q) k ∧ (c + q) / k ≠ q := by
  rcases eq_or_ne k (-1) with rfl | hneg
  · by_cases hc : c = 0 ∨ c = Int32.minValue
    · refine ⟨1, ?_⟩
      unfold Traps
      rcases hc with rfl | rfl <;> decide
    · rw [not_or] at hc
      refine ⟨0, by simpa [Traps] using hc.2, fun hquotient => hc.1 ?_⟩
      have hdiv := Int32.toInt_div_of_ne_left c (-1) hc.2
      rw [Int32.add_zero] at hquotient
      have hneg : Int32.toInt (-1) = -1 := by decide
      have hzero : Int32.toInt 0 = 0 := by decide
      rw [hquotient, hneg, Int.tdiv_neg, Int.tdiv_one] at hdiv
      exact Int32.toInt_inj.mp (by omega)
  · exact ⟨Int32.maxValue, fun h => h.elim hzero fun h => hneg h.2, div_ne_maxValue hone hneg _⟩

/-- Whatever is added to both counts and both sums, the averages agree where none traps. -/
def SameAverages (total₁ sum₁ total₂ sum₂ : Int32) : Prop :=
  ∀ n s, ¬ Traps (sum₁ + s) (total₁ + n) → ¬ Traps (sum₂ + s) (total₂ + n) →
    (sum₁ + s) / (total₁ + n) = (sum₂ + s) / (total₂ + n)

theorem SameAverages.symm {total₁ sum₁ total₂ sum₂ : Int32}
    (h : SameAverages total₁ sum₁ total₂ sum₂) : SameAverages total₂ sum₂ total₁ sum₁ :=
  fun n s h₁ h₂ => (h n s h₂ h₁).symm

/-- One sample in the first count: its average is any number. -/
theorem SameAverages.total_eq {total₁ sum₁ total₂ sum₂ : Int32}
    (h : SameAverages total₁ sum₁ total₂ sum₂) (hzero : total₂ + (1 - total₁) ≠ 0) :
    total₁ = total₂ := by
  by_contra hne
  have hone : total₁ + (1 - total₁) = 1 := by grind
  obtain ⟨q, htrap, hquotient⟩ := exists_quotient_ne hzero (by grind) (sum₂ - sum₁)
  have hsum₁ : sum₁ + (q - sum₁) = q := by grind
  have hsum₂ : sum₂ + (q - sum₁) = sum₂ - sum₁ + q := by grind
  have heq := h (1 - total₁) (q - sum₁) (by rw [hone]; exact not_traps_one _) (by rwa [hsum₂])
  rw [hone, hsum₁, hsum₂, Int32.div_one] at heq
  exact hquotient heq.symm

theorem SameAverages.eq {total₁ sum₁ total₂ sum₂ : Int32}
    (h : SameAverages total₁ sum₁ total₂ sum₂) : total₁ = total₂ ∧ sum₁ = sum₂ := by
  obtain rfl : total₁ = total₂ := by
    by_cases hzero : total₂ + (1 - total₁) = 0
    · refine (h.symm.total_eq fun hzero' => ?_).symm
      have htwo : (2 : Int32) = 0 := by grind
      exact absurd htwo (by decide)
    · exact h.total_eq hzero
  have hone : total₁ + (1 - total₁) = 1 := by grind
  have hfine : ∀ s, ¬ Traps s (total₁ + (1 - total₁)) := by
    rw [hone]
    exact not_traps_one
  have heq := h (1 - total₁) 0 (hfine _) (hfine _)
  rw [hone, Int32.div_one, Int32.div_one] at heq
  exact ⟨rfl, by grind⟩

/-! ## The main result -/

theorem AtStart.foldl {p : Pool Shared Thread} {i : Nat} {env : KernelEnv} (h : AtStart env p i)
    (edges : List UInt64) : (edges.foldl takeEdge p.shared.device.irqData).totalSamples =
        p.shared.device.irqData.totalSamples +
          Int32.ofNat (acceptedEchoes 0 0 edges).length ∧
      (edges.foldl takeEdge p.shared.device.irqData).sampleSum =
        p.shared.device.irqData.sampleSum + sumInt (acceptedEchoes 0 0 edges) := by
  have haccepted : p.shared.device.irqData.accepted edges = acceptedEchoes 0 0 edges := by
    rw [Hcsr04IrqData.accepted, h.rising]
    exact acceptedEchoes_zero _ _ _
  obtain ⟨htotal, hsum, -⟩ := foldl_takeEdge p.shared.device.irqData edges
  rw [haccepted] at htotal hsum
  exact ⟨htotal, hsum⟩

/-- Two measurements of a configured device with the same edges store the same distance, whatever
the edges, exactly when they start from the same sums. -/
theorem standsAlone_iff {env : KernelEnv} {p₁ p₂ : Pool Shared Thread} {i₁ i₂ : Nat}
    (h₁ : AtStart env p₁ i₁) (h₂ : AtStart env p₂ i₂) :
    StandsAlone env p₁ i₁ p₂ i₂ ↔
      p₁.shared.device.irqData.totalSamples = p₂.shared.device.irqData.totalSamples ∧
      p₁.shared.device.irqData.sampleSum = p₂.shared.device.irqData.sampleSum := by
  constructor
  · intro halone
    apply SameAverages.eq
    intro n s hfine₁ hfine₂
    obtain ⟨edges, hsome, rfl, rfl⟩ := exists_edges n s
    obtain ⟨htotal₁, hsum₁⟩ := h₁.foldl edges
    obtain ⟨htotal₂, hsum₂⟩ := h₂.foldl edges
    apply halone edges _ _ hsome
    · rw [stores_iff h₁, averageDistance_eq_some_iff, htotal₁, hsum₁]
      exact ⟨hfine₁, rfl⟩
    · rw [stores_iff h₂, averageDistance_eq_some_iff, htotal₂, hsum₂]
      exact ⟨hfine₂, rfl⟩
  · rintro ⟨htotal, hsum⟩ edges distance₁ distance₂ _ hstores₁ hstores₂
    obtain ⟨htotal₁, hsum₁⟩ := h₁.foldl edges
    obtain ⟨htotal₂, hsum₂⟩ := h₂.foldl edges
    have haverage₁ := averageDistance_eq_some_iff.mp hstores₁.average
    have haverage₂ := averageDistance_eq_some_iff.mp hstores₂.average
    rw [← haverage₁.2, ← haverage₂.2, htotal₁, hsum₁, htotal₂, hsum₂, htotal, hsum]

/-! ## Two measurements of one device -/

/-- A first measurement before its first statement, as thread 1. -/
def firstMeasurement : List (PoolMove Thread) :=
  startMeasurement 0 ++ [.start (.measure ⟨8, .lock⟩)]

/-- The same, as thread 5, after a measurement of distance 100. -/
def secondMeasurement : List (PoolMove Thread) :=
  startMeasurement 0 ++ measureOnce 1 ++ startMeasurement 4 ++ [.start (.measure ⟨8, .lock⟩)]

/-- What the two runs are compared by: a thread, the lock, `m`, `delta` and the interrupt data. -/
def viewOf (p : Pool Shared Thread) (i : Nat) :
    Option Thread × Bool × Int32 × Int32 × Hcsr04IrqData :=
  (p.threads[i]?, p.shared.device.bufferLock, p.shared.device.m, p.shared.device.delta,
    p.shared.device.irqData)

theorem atStart_of_view {p : Pool Shared Thread} {i : Nat} {tsc : UInt64} {m delta : Int32}
    {irqData : Hcsr04IrqData}
    (h : viewOf p i = (some (.measure ⟨tsc, .lock⟩), false, m, delta, irqData))
    (hconfigured : irqData.irqNo ≠ NO_VALUE) (hrising : irqData.irqEdge = 0) :
    AtStart grantAll p i ∧ p.shared.device.m = m ∧ p.shared.device.delta = delta ∧
      p.shared.device.irqData = irqData := by
  simp only [viewOf, Prod.mk.injEq] at h
  obtain ⟨ht, hfree, hm, hdelta, rfl⟩ := h
  exact ⟨.of_free ⟨tsc, ht⟩ hfree hconfigured hrising, hm, hdelta, rfl⟩

theorem firstMeasurement_view :
    ((run (deviceMove grantAll) (idle configuredDevice) firstMeasurement).map fun r =>
      viewOf r.1 1) =
    some (some (.measure ⟨8, .lock⟩), false, 1, 1, ⟨61, 61, 62, 0, 0, 0, 0, 0, 0, 0⟩) := by
  decide

theorem secondMeasurement_view :
    ((run (deviceMove grantAll) (idle configuredDevice) secondMeasurement).map fun r =>
      viewOf r.1 5) =
    some (some (.measure ⟨8, .lock⟩), false, 1, 1,
      ⟨61, 61, 62, 0, 0, 2320000, 1, 0, 100, 100⟩) := by
  decide

theorem standsAlone_iff_second : ∃ p₁ os₁ p₂ os₂,
    run (deviceMove grantAll) (idle configuredDevice) firstMeasurement = some (p₁, os₁) ∧
    run (deviceMove grantAll) (idle configuredDevice) secondMeasurement = some (p₂, os₂) ∧
    ¬ StandsAlone grantAll p₁ 1 p₂ 5 := by
  obtain ⟨⟨p₁, os₁⟩, hrun₁, hview₁⟩ := Option.map_eq_some_iff.mp firstMeasurement_view
  obtain ⟨⟨p₂, os₂⟩, hrun₂, hview₂⟩ := Option.map_eq_some_iff.mp secondMeasurement_view
  obtain ⟨hstart₁, -, -, hdata₁⟩ := atStart_of_view hview₁ (by decide) rfl
  obtain ⟨hstart₂, -, -, hdata₂⟩ := atStart_of_view hview₂ (by decide) rfl
  refine ⟨p₁, os₁, p₂, os₂, hrun₁, hrun₂, fun halone => ?_⟩
  obtain ⟨htotal, -⟩ := (standsAlone_iff hstart₁ hstart₂).mp halone
  rw [hdata₁, hdata₂] at htotal
  exact absurd htotal (by decide)

/-- With an echo of distance 200, the first measurement stores 200 and the one after a measurement
of distance 100 stores 150. -/
theorem not_standsAlone :
    ¬ ∀ (env : KernelEnv) (blank : Int32 → Hcsr04Device) (minorLeft : Int32 → Int32)
      (ops : List MiscOp) (minor : Int32) (moves₁ moves₂ : List (PoolMove Thread))
      (p₁ p₂ : Pool Shared Thread) (os₁ os₂ : List Unit) (i₁ i₂ : Nat),
      run (deviceMove env) (idle ((afterOps (hcsr04Init blank minorLeft) ops).device minor))
        moves₁ = some (p₁, os₁) →
      run (deviceMove env) (idle ((afterOps (hcsr04Init blank minorLeft) ops).device minor))
        moves₂ = some (p₂, os₂) →
      AtStart env p₁ i₁ → AtStart env p₂ i₂ → p₁.shared.device.m = p₂.shared.device.m →
      p₁.shared.device.delta = p₂.shared.device.delta → StandsAlone env p₁ i₁ p₂ i₂ := by
  intro hall
  obtain ⟨⟨p₁, os₁⟩, hrun₁, hview₁⟩ := Option.map_eq_some_iff.mp firstMeasurement_view
  obtain ⟨⟨p₂, os₂⟩, hrun₂, hview₂⟩ := Option.map_eq_some_iff.mp secondMeasurement_view
  obtain ⟨hstart₁, hm₁, hdelta₁, hdata₁⟩ := atStart_of_view hview₁ (by decide) rfl
  obtain ⟨hstart₂, hm₂, hdelta₂, hdata₂⟩ := atStart_of_view hview₂ (by decide) rfl
  have halone := hall _ _ _ _ _ _ _ p₁ p₂ os₁ os₂ 1 5 hrun₁ hrun₂ hstart₁ hstart₂
    (hm₁.trans hm₂.symm) (hdelta₁.trans hdelta₂.symm)
  have hsame : (200 : Int32) = 150 := by
    apply halone [0, 4640000] 200 150 (by decide)
    · rw [stores_iff hstart₁, hdata₁]
      decide
    · rw [stores_iff hstart₂, hdata₂]
      decide
  exact absurd hsame (by decide)

end KernelDrivers.Hcsr04
