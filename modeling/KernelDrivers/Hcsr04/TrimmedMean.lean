import KernelDrivers.Hcsr04.Independence
import KernelDrivers.Hcsr04.PairedEdges

/-!
# The mean of a measurement

The data of the interrupt is documented to hold the lowest and the highest sample, and the average
to leave both out. The outliers start at 0, though, which need not be a sample, and a measurement
divides the whole sum by the whole count.
-/

namespace KernelDrivers.Hcsr04
open Lib

/-! ## A bound added to a set -/

section Insert

variable {α : Type*} [PartialOrder α] {a x : α} {s : Set α}

/-- The least of a set with one element added is in the set, if anything there is as small. -/
theorem isLeast_iff_of_insert (h : IsLeast (insert a s) x) : IsLeast s x ↔ ∃ y ∈ s, y ≤ a := by
  constructor
  · intro hleast
    exact ⟨x, hleast.1, h.2 (Set.mem_insert a s)⟩
  · rintro ⟨y, hy, hya⟩
    refine ⟨?_, fun z hz => h.2 (Set.mem_insert_of_mem a hz)⟩
    rcases h.1 with rfl | hx
    · rwa [← hya.antisymm (h.2 (Set.mem_insert_of_mem x hy))]
    · exact hx

theorem isGreatest_iff_of_insert (h : IsGreatest (insert a s) x) :
    IsGreatest s x ↔ ∃ y ∈ s, a ≤ y :=
  @isLeast_iff_of_insert αᵒᵈ _ a x s h

end Insert

/-! ## The property -/

/-- The mean of the samples without two of them. -/
def trimmedMean (samples : List Int32) (least greatest : Int) : Int :=
  ((samples.map Int32.toInt).sum - least - greatest).tdiv (samples.length - 2)

/-- Measurement `i`, at its average, has the extremes of the samples and goes on to store their
trimmed mean. -/
structure StoresTrimmedMean (env : KernelEnv) (q : Pool Shared Thread) (i : Nat) (tsc : UInt64)
    (samples : List Int32) : Prop where
  lowest : IsLeast (values samples) q.shared.device.irqData.outlierLowest.toInt
  highest : IsGreatest (values samples) q.shared.device.irqData.outlierHighest.toInt
  stores : ∃ distance : Int32, (∃ q', deviceMove env q (.step i) = some (q', ()) ∧
      q'.threads[i]? = some (.measure ⟨tsc, .fifoWrite ⟨distance, tsc⟩ .stepForward⟩)) ∧
    distance.toInt = trimmedMean samples q.shared.device.irqData.outlierLowest.toInt
      q.shared.device.irqData.outlierHighest.toInt

/-- In the arithmetic of `int`, the mean of all samples is the mean without the least and the
greatest. -/
def TrimmingChangesNothing (samples : List Int32) : Prop :=
  ∃ least greatest, IsLeast (values samples) least ∧ IsGreatest (values samples) greatest ∧
    ¬ Traps (sumInt samples) (Int32.ofNat samples.length) ∧
    (sumInt samples / Int32.ofNat samples.length).toInt = trimmedMean samples least greatest

/-! ## The main result -/

theorem isLeast_values {samples : List Int32} {sample : Int32} (hmem : sample ∈ samples)
    (hle : ∀ d ∈ samples, sample ≤ d) : IsLeast (values samples) sample.toInt := by
  refine ⟨⟨sample, hmem, rfl⟩, ?_⟩
  rintro _ ⟨d, hd, rfl⟩
  exact Int32.le_iff_toInt_le.mp (hle d hd)

theorem isGreatest_values {samples : List Int32} {sample : Int32} (hmem : sample ∈ samples)
    (hle : ∀ d ∈ samples, d ≤ sample) : IsGreatest (values samples) sample.toInt := by
  refine ⟨⟨sample, hmem, rfl⟩, ?_⟩
  rintro _ ⟨d, hd, rfl⟩
  exact Int32.le_iff_toInt_le.mp (hle d hd)

theorem exists_le_zero_iff (samples : List Int32) :
    (∃ y ∈ values samples, y ≤ 0) ↔ ∃ d ∈ samples, d ≤ 0 := by
  simp [values, Int32.le_iff_toInt_le]

theorem exists_zero_le_iff (samples : List Int32) :
    (∃ y ∈ values samples, 0 ≤ y) ↔ ∃ d ∈ samples, 0 ≤ d := by
  simp [values, Int32.le_iff_toInt_le]

/-- A measurement of a fresh device keeps the extremes and stores the trimmed mean exactly when
there are samples on both sides of 0 and the trimming changes nothing. -/
theorem storesTrimmedMean_iff {env : KernelEnv} {p q : Pool Shared Thread} {i : Nat}
    {edges : List UInt64} {tsc : UInt64} (hfresh : FreshEcho p.shared.device.irqData)
    (hreach : ReachesWith env p edges q)
    (hq : q.threads[i]? = some (.measure ⟨tsc, .average⟩)) :
    StoresTrimmedMean env q i tsc (acceptedPairs edges) ↔
      (∃ d ∈ acceptedPairs edges, d ≤ 0) ∧ (∃ d ∈ acceptedPairs edges, 0 ≤ d) ∧
        TrimmingChangesNothing (acceptedPairs edges) := by
  have hfolded := (folded_in_pairs hfresh edges).2 q hreach
  have haverage : ∀ distance, (∃ q', deviceMove env q (.step i) = some (q', ()) ∧
      q'.threads[i]? = some (.measure ⟨tsc, .fifoWrite ⟨distance, tsc⟩ .stepForward⟩)) ↔
      ¬ Traps (sumInt (acceptedPairs edges)) (Int32.ofNat (acceptedPairs edges).length) ∧
        sumInt (acceptedPairs edges) / Int32.ofNat (acceptedPairs edges).length = distance := by
    intro distance
    rw [average_step_iff hq, averageDistance_eq_some_iff, hfolded.totalSamples, hfolded.sampleSum,
      sumInt_eq_ofInt]
  have hlowest := isLeast_iff_of_insert hfolded.lowest
  have hhighest := isGreatest_iff_of_insert hfolded.highest
  constructor
  · rintro ⟨hleast, hgreatest, distance, hstores, hmean⟩
    obtain ⟨htraps, rfl⟩ := (haverage distance).mp hstores
    exact ⟨(exists_le_zero_iff _).mp (hlowest.mp hleast),
      (exists_zero_le_iff _).mp (hhighest.mp hgreatest),
      _, _, hleast, hgreatest, htraps, hmean⟩
  · rintro ⟨hle, hge, least, greatest, hleast, hgreatest, htraps, hmean⟩
    have hlow := hlowest.mpr ((exists_le_zero_iff _).mpr hle)
    have hhigh := hhighest.mpr ((exists_zero_le_iff _).mpr hge)
    obtain rfl := hleast.unique hlow
    obtain rfl := hgreatest.unique hhigh
    exact ⟨hlow, hhigh, _, (haverage _).mpr ⟨htraps, rfl⟩, hmean⟩

/-! ## Runs with three echoes -/

/-- A trigger of measurement 1 and the echo that answers it, of `width`, as threads `j` and
`j + 1`. -/
def echoed (j : Nat) (width : UInt64) : List (PoolMove Thread) :=
  stepsOf 1 3 ++ .start (.irq ⟨0, .edge⟩) :: stepsOf j 1 ++
    .start (.irq ⟨width, .edge⟩) :: stepsOf (j + 1) 2

/-- A measurement with three echoes, up to its average. -/
def threeEchoes (width₁ width₂ width₃ : UInt64) : List (PoolMove Thread) :=
  startMeasurement 0 ++ .start (.measure ⟨7, .lock⟩) :: stepsOf 1 2 ++ echoed 2 width₁ ++
    echoed 4 width₂ ++ echoed 6 width₃ ++ stepsOf 1 1

/-- The run of a configured device. -/
theorem run_threeEchoes_spread : ∃ q,
    ReachesWith grantAll (idle configuredDevice) [0, 0, 0, 2320000, 0, 4640000] q ∧
    q.threads[1]? = some (.measure ⟨7, .average⟩) :=
  ⟨_, ⟨threeEchoes 0 2320000 4640000, _, rfl, rfl⟩, rfl⟩

/-- The samples 0, 100 and 200, whose mean is 100 with and without the extremes. -/
theorem storesTrimmedMean_iff_spread : ∃ q,
    ReachesWith grantAll (idle configuredDevice) [0, 0, 0, 2320000, 0, 4640000] q ∧
    StoresTrimmedMean grantAll q 1 7 [0, 100, 200] := by
  obtain ⟨q, hreach, hq⟩ := run_threeEchoes_spread
  have hpairs : acceptedPairs [0, 0, 0, 2320000, 0, 4640000] = [0, 100, 200] := by decide
  have hiff := storesTrimmedMean_iff freshEcho_configuredDevice hreach hq
  rw [hpairs] at hiff
  have hleast : IsLeast (values [0, 100, 200]) (Int32.toInt 0) :=
    isLeast_values (by simp) (by simp)
  have hgreatest : IsGreatest (values [0, 100, 200]) (Int32.toInt 200) :=
    isGreatest_values (by simp) (by simp)
  have htraps : ¬ Traps (sumInt [0, 100, 200]) (Int32.ofNat 3) := by
    unfold Traps
    decide
  exact ⟨q, hreach, hiff.mpr ⟨⟨0, by decide, by decide⟩, ⟨0, by decide, by decide⟩, _, _,
    hleast, hgreatest, htraps, by decide⟩⟩

/-- Every first measurement of a device with more than two samples stores their trimmed mean. -/
def StoresTrimmedMeans : Prop :=
  ∀ (env : KernelEnv) (blank : Int32 → Hcsr04Device) (minorLeft : Int32 → Int32)
    (ops : List MiscOp) (minor : Int32) (edges : List UInt64) (q : Pool Shared Thread) (i : Nat)
    (tsc : UInt64),
    ReachesWith env (idle ((afterOps (hcsr04Init blank minorLeft) ops).device minor)) edges q →
    q.threads[i]? = some (.measure ⟨tsc, .average⟩) → 2 < (acceptedPairs edges).length →
    StoresTrimmedMean env q i tsc (acceptedPairs edges)

/-- After the samples 100, 100 and 130 the lowest outlier is 0, which is none of them. -/
theorem not_storesTrimmedMeans : ¬ StoresTrimmedMeans := by
  intro hall
  obtain ⟨q, hreach, hq, hlowest⟩ : ∃ q,
      ReachesWith grantAll (idle configuredDevice) [0, 2320000, 0, 2320000, 0, 3016000] q ∧
      q.threads[1]? = some (.measure ⟨7, .average⟩) ∧
      q.shared.device.irqData.outlierLowest = 0 :=
    ⟨_, ⟨threeEchoes 2320000 2320000 3016000, _, rfl, rfl⟩, rfl, rfl⟩
  have hpairs : acceptedPairs [0, 2320000, 0, 2320000, 0, 3016000] = [100, 100, 130] := by decide
  obtain ⟨d, hd, hzero⟩ := (hall _ _ _ _ _ _ q 1 7 hreach hq (by decide)).lowest.1
  rw [hlowest] at hzero
  rw [hpairs] at hd
  have hpos : ∀ d ∈ [(100 : Int32), 100, 130], d ≠ 0 := by simp
  exact hpos d hd (Int32.toInt_inj.mp hzero)

end KernelDrivers.Hcsr04
