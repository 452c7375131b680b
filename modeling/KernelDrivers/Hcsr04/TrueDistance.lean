import KernelDrivers.Hcsr04.TrimmedMean
import Mathlib.Algebra.BigOperators.Ring.Finset

/-!
# True distances

The time between two edges, divided by 23200, is a distance of up to 64 bits. The handler cuts it
to an `int` before it tests whether it is above 400, and only from above. So a gap of a day or two
between the edges of a pair may pass for a short or a negative distance.
-/

namespace KernelDrivers.Hcsr04
open Lib

/-! ## The property -/

/-- The edges taken two at a time. -/
def edgePairs : List UInt64 → List Pulse
  | rise :: fall :: edges => ⟨rise, fall⟩ :: edgePairs edges
  | _ => []

/-- In whole centimetres. -/
def Pulse.distance (pulse : Pulse) : Nat := pulse.width / 23200

/-- The distances up to 400, in order. -/
def nearDistances (edges : List UInt64) : List Nat :=
  ((edgePairs edges).map Pulse.distance).filter (· ≤ 400)

/-- Measurement `i`, at its average, goes on to store the distance. -/
def StoresNext (env : KernelEnv) (q : Pool Shared Thread) (i : Nat) (tsc : UInt64)
    (distance : Int32) : Prop :=
  q.threads[i]? = some (.measure ⟨tsc, .average⟩) ∧
    ∃ q', deviceMove env q (.step i) = some (q', ()) ∧
    q'.threads[i]? = some (.measure ⟨tsc, .fifoWrite ⟨distance, tsc⟩ .stepForward⟩)

/-- The moves lead from `p` to `q`. Of the pairs of edges the handler adds those of a distance up
to 400 as samples, and the distance a measurement stores is not the mark of an empty buffer. -/
structure TakesTrueDistances (env : KernelEnv) (p : Pool Shared Thread)
    (moves : List (PoolMove Thread)) (q : Pool Shared Thread) : Prop where
  samples : (addedSamples env p moves).map Int32.toInt =
    (nearDistances (handledEdges env p moves)).map Int.ofNat
  range : ∀ sample ∈ addedSamples env p moves, 0 ≤ sample.toInt ∧ sample.toInt ≤ 400
  stored : ∀ i tsc distance, StoresNext env q i tsc distance → distance ≠ BUFFER_EMPTY

/-- Cut to an `int`, a distance above 400 is above 400 still. -/
def CutAbove (distance : Nat) : Prop :=
  400 < distance → 400 < distance % 2 ^ 32 ∧ distance % 2 ^ 32 < 2 ^ 31

instance (distance : Nat) : Decidable (CutAbove distance) :=
  inferInstanceAs (Decidable (_ → _))

/-- The quotient of the two, cut off towards 0, is -1. -/
def CutsToEmpty (sum total : Int) : Prop :=
  total ≤ -sum ∧ -sum < 2 * total ∨ -total ≤ sum ∧ sum < -(2 * total)

/-- So is that of the sum and the number of the distances, both reduced to an `int`. -/
def WrapsToEmpty (distances : List Nat) : Prop :=
  CutsToEmpty ((distances.sum : Int).bmod (2 ^ 32)) ((distances.length : Int).bmod (2 ^ 32))

instance (sum total : Int) : Decidable (CutsToEmpty sum total) :=
  inferInstanceAs (Decidable (_ ∨ _))

instance (distances : List Nat) : Decidable (WrapsToEmpty distances) :=
  inferInstanceAs (Decidable (CutsToEmpty _ _))

/-! ## The samples -/

theorem pairDistances_eq (edges : List UInt64) : pairDistances edges =
    (edgePairs edges).map fun pulse => distanceOf pulse.rise pulse.fall := by
  induction edges using List.twoStepInduction with
  | nil => rfl
  | singleton irqTime => simp [pairDistances, edgePairs]
  | cons_cons rise fall edges ih _ => rw [pairDistances_cons_cons, ih, edgePairs, List.map_cons]

theorem toInt_ofNat_of_le {distance : Nat} (hnear : distance ≤ 400) :
    (Int32.ofNat distance).toInt = distance :=
  Int32.toInt_ofNat_of_lt (by omega)

theorem ofNat_le_iff (distance : Nat) : Int32.ofNat distance ≤ 400 ↔
    ¬ (400 < distance % 2 ^ 32 ∧ distance % 2 ^ 32 < 2 ^ 31) := by
  have hmax : Int32.toInt 400 = 400 := by decide
  have hsize : Int32.size = 2 ^ 32 := rfl
  rw [Int32.le_iff_toInt_le, hmax, Int32.toInt_ofNat', hsize, Int.bmod_def]
  omega

/-- A distance that is cut to a smaller one adds a sample too many. -/
theorem length_near_le (distances : List Nat) : (distances.filter (· ≤ 400)).length ≤
    ((distances.map Int32.ofNat).filter (· ≤ 400)).length := by
  rw [← List.countP_eq_length_filter, ← List.countP_eq_length_filter, List.countP_map]
  refine List.countP_mono_left fun distance _ hnear => ?_
  have hle : distance ≤ 400 := of_decide_eq_true hnear
  exact decide_eq_true ((ofNat_le_iff distance).mpr (by omega))

theorem samples_eq_iff (distances : List Nat) :
    ((distances.map Int32.ofNat).filter (· ≤ 400)).map Int32.toInt =
        (distances.filter (· ≤ 400)).map Int.ofNat ↔ ∀ distance ∈ distances, CutAbove distance := by
  induction distances with
  | nil => simp
  | cons distance distances ih =>
    rw [List.forall_mem_cons, ← ih, List.map_cons]
    by_cases hnear : distance ≤ 400
    · have hcut : Int32.ofNat distance ≤ 400 := (ofNat_le_iff distance).mpr (by omega)
      have habove : CutAbove distance := fun hfar => absurd hnear (not_le.mpr hfar)
      simp [hcut, hnear, toInt_ofNat_of_le hnear, habove]
    · by_cases hcut : Int32.ofNat distance ≤ 400
      · -- one sample more than there are distances
        have hnot : ¬ CutAbove distance := fun habove =>
          (ofNat_le_iff distance).mp hcut (habove (not_le.mp hnear))
        simp only [List.filter_cons, hcut, hnear, decide_true, decide_false, if_true,
          Bool.false_eq_true, if_false]
        refine iff_of_false (fun heq => ?_) fun h => hnot h.1
        have hlength := congrArg List.length heq
        have hle := length_near_le distances
        rw [List.map_cons, List.length_cons, List.length_map, List.length_map] at hlength
        omega
      · have habove : CutAbove distance := fun _ => not_not.mp (mt (ofNat_le_iff distance).mpr hcut)
        simp [hcut, hnear, habove]

/-! ## The distance stored -/

theorem tdiv_eq_one_iff {a b : Int} (ha : 0 ≤ a) (hb : 0 < b) :
    a.tdiv b = 1 ↔ b ≤ a ∧ a < 2 * b := by
  rw [Int.tdiv_eq_ediv_of_nonneg ha, Int.ediv_eq_iff_of_pos hb]
  omega

theorem tdiv_eq_neg_one_iff (a b : Int) : a.tdiv b = -1 ↔ CutsToEmpty a b := by
  have hneg : a.tdiv b = -1 ↔ (-a).tdiv b = 1 := by
    rw [Int.neg_tdiv]
    omega
  have hswap : (-a).tdiv b = a.tdiv (-b) := by rw [Int.neg_tdiv, Int.tdiv_neg]
  unfold CutsToEmpty
  rcases lt_trichotomy b 0 with hb | rfl | hb
  · rcases lt_or_ge a 0 with ha | ha
    · have hsame : a.tdiv b = (-a).tdiv (-b) := (Int.neg_tdiv_neg a b).symm
      have hpos := Int.tdiv_nonneg (a := -a) (b := -b) (by omega) (by omega)
      omega
    · rw [hneg, hswap, tdiv_eq_one_iff ha (by omega)]
      omega
  · simp
  · rcases lt_or_ge a 0 with ha | ha
    · rw [hneg, tdiv_eq_one_iff (by omega) hb]
      omega
    · have hpos := Int.tdiv_nonneg ha hb.le
      omega

theorem toInt_div_of_not_traps {sum total : Int32} (h : ¬ Traps sum total) :
    (sum / total).toInt = sum.toInt.tdiv total.toInt := by
  by_cases htotal : total = -1
  · exact Int32.toInt_div_of_ne_left _ _ fun hsum => h (.inr ⟨hsum, htotal⟩)
  · exact Int32.toInt_div_of_ne_right _ _ htotal

/-- The average is stored as the mark of an empty buffer exactly when the sums wrap so. -/
theorem average_eq_empty_iff {irqData : Hcsr04IrqData} {distances : List Nat}
    (hsum : irqData.sampleSum = Int32.ofInt (distances.sum : Int))
    (htotal : irqData.totalSamples = Int32.ofNat distances.length) :
    averageDistance irqData = some BUFFER_EMPTY ↔ WrapsToEmpty distances := by
  have hs : irqData.sampleSum.toInt = (distances.sum : Int).bmod (2 ^ 32) := by
    rw [hsum, Int32.toInt_ofInt]
    rfl
  have ht : irqData.totalSamples.toInt = (distances.length : Int).bmod (2 ^ 32) := by
    rw [htotal, Int32.toInt_ofNat']
    rfl
  have hempty : BUFFER_EMPTY.toInt = -1 := by decide
  have hwraps : WrapsToEmpty distances ↔
      irqData.sampleSum.toInt.tdiv irqData.totalSamples.toInt = -1 := by
    rw [tdiv_eq_neg_one_iff, hs, ht]
    exact Iff.rfl
  rw [averageDistance_eq_some_iff, hwraps]
  by_cases htraps : Traps irqData.sampleSum irqData.totalSamples
  · refine iff_of_false (fun h => h.1 htraps) ?_
    rcases htraps with htrap | ⟨hmin, hminus⟩
    · rw [htrap]
      simp
    · rw [hmin, hminus]
      decide
  · rw [and_iff_right htraps, ← Int32.toInt_inj, hempty, toInt_div_of_not_traps htraps]

/-! ## The main result -/

/-- In every run of a fresh device the handler takes the true distances up to 400, and no
measurement is about to store the mark of an empty buffer, exactly when the distances above 400
are above 400 as an `int` too, and no measurement averages sums that wrap to the mark. -/
theorem takes_true_distances_iff {env : KernelEnv} {p q : Pool Shared Thread}
    {moves : List (PoolMove Thread)} {os : List Unit} (hfresh : FreshEcho p.shared.device.irqData)
    (hrun : run (deviceMove env) p moves = some (q, os))
    (hordered : ∀ pulse ∈ edgePairs (handledEdges env p moves), pulse.rise ≤ pulse.fall) :
    TakesTrueDistances env p moves q ↔
      (∀ pulse ∈ edgePairs (handledEdges env p moves), CutAbove pulse.distance) ∧
        ((∃ (i : Nat) (tsc : UInt64), q.threads[i]? = some (.measure ⟨tsc, .average⟩)) →
          ¬ WrapsToEmpty (nearDistances (handledEdges env p moves))) := by
  have hadded : addedSamples env p moves = acceptedPairs (handledEdges env p moves) := by
    rw [addedSamples_eq hrun, hfresh.accepted]
  have hdata : q.shared.device.irqData =
      (handledEdges env p moves).foldl takeEdge p.shared.device.irqData := irqData_of_run hrun
  have hfolded := hfresh.foldedInPairs (handledEdges env p moves)
  generalize hedges : handledEdges env p moves = edges at hadded hdata hfolded hordered ⊢
  rw [← hdata] at hfolded
  have haccepted : acceptedPairs edges =
      (((edgePairs edges).map Pulse.distance).map Int32.ofNat).filter (· ≤ 400) := by
    rw [acceptedPairs, pairDistances_eq, List.map_map]
    exact congrArg _
      (List.map_congr_left fun pulse hmem => distanceOf_eq_ofNat (hordered pulse hmem))
  have hsamples : (addedSamples env p moves).map Int32.toInt = (nearDistances edges).map Int.ofNat ↔
      ∀ pulse ∈ edgePairs edges, CutAbove pulse.distance := by
    rw [hadded, haccepted, nearDistances, samples_eq_iff, List.forall_mem_map]
  -- with the true samples, a measurement at its average divides their sum by their number
  have hstores : (addedSamples env p moves).map Int32.toInt = (nearDistances edges).map Int.ofNat →
      ∀ i tsc, q.threads[i]? = some (.measure ⟨tsc, .average⟩) →
        ((∀ distance, StoresNext env q i tsc distance → distance ≠ BUFFER_EMPTY) ↔
          ¬ WrapsToEmpty (nearDistances edges)) := by
    intro htrue i tsc hq
    rw [hadded] at htrue
    have hsum := hfolded.sampleSum
    rw [htrue] at hsum
    have hlength : (acceptedPairs edges).length = (nearDistances edges).length := by
      simpa using congrArg List.length htrue
    have hempty := average_eq_empty_iff
      (hsum.trans (congrArg Int32.ofInt (Nat.cast_list_sum (R := Int) (nearDistances edges)).symm))
      (hlength ▸ hfolded.totalSamples)
    rw [← hempty]
    constructor
    · intro hall haverage
      exact hall BUFFER_EMPTY ⟨hq, (average_step_iff hq).mpr haverage⟩ rfl
    · rintro hne distance ⟨-, hstore⟩ rfl
      exact hne ((average_step_iff hq).mp hstore)
  constructor
  · intro h
    have htrue := h.samples
    rw [hedges] at htrue
    refine ⟨hsamples.mp htrue, ?_⟩
    rintro ⟨i, tsc, hq⟩
    exact (hstores htrue i tsc hq).mp fun distance => h.stored i tsc distance
  · rintro ⟨habove, hwraps⟩
    have htrue := hsamples.mpr habove
    refine ⟨by rw [hedges]; exact htrue, fun sample hmem => ?_, fun i tsc distance hstore => ?_⟩
    · have hmem' : sample.toInt ∈ (nearDistances edges).map Int.ofNat := by
        rw [← htrue]
        exact List.mem_map_of_mem hmem
      obtain ⟨distance, hnear, heq⟩ := List.mem_map.mp hmem'
      have hle : distance ≤ 400 := of_decide_eq_true (List.mem_filter.mp hnear).2
      rw [← heq, Int.ofNat_eq_natCast]
      omega
    · exact (hstores htrue i tsc hstore.1).mpr (hwraps ⟨i, tsc, hstore.1⟩) distance hstore

/-- Echoes of 100, 401 and 200 cm. -/
theorem takes_true_distances_iff_rejected : ∃ q os,
    run (deviceMove grantAll) (idle configuredDevice) (threeEchoes 2320000 9303200 4640000) =
      some (q, os) ∧
    TakesTrueDistances grantAll (idle configuredDevice) (threeEchoes 2320000 9303200 4640000)
      q := by
  obtain ⟨q, os, hrun⟩ : ∃ q os, run (deviceMove grantAll) (idle configuredDevice)
      (threeEchoes 2320000 9303200 4640000) = some (q, os) := ⟨_, _, rfl⟩
  have hedges : handledEdges grantAll (idle configuredDevice)
      (threeEchoes 2320000 9303200 4640000) = [0, 2320000, 0, 9303200, 0, 4640000] := rfl
  have hiff := takes_true_distances_iff freshEcho_configuredDevice hrun
  rw [hedges] at hiff
  exact ⟨q, os, hrun, (hiff (by decide)).mpr ⟨by decide, fun _ => by decide⟩⟩

/-- Three gaps of 99643241244000 ticks are taken for samples of -1, and -1 is stored. -/
theorem not_takes_true_distances :
    ¬ ∀ (env : KernelEnv) (blank : Int32 → Hcsr04Device) (minorLeft : Int32 → Int32)
      (ops : List MiscOp) (minor : Int32) (moves : List (PoolMove Thread))
      (q : Pool Shared Thread) (os : List Unit),
      let p := idle ((afterOps (hcsr04Init blank minorLeft) ops).device minor)
      run (deviceMove env) p moves = some (q, os) →
      (∀ pulse ∈ edgePairs (handledEdges env p moves), pulse.rise ≤ pulse.fall) →
      TakesTrueDistances env p moves q := by
  intro hall
  obtain ⟨q, os, hrun, hq, haverage, hedges⟩ : ∃ q os,
      run (deviceMove grantAll) (idle configuredDevice)
        (threeEchoes 99643241244000 99643241244000 99643241244000) = some (q, os) ∧
      q.threads[1]? = some (.measure ⟨7, .average⟩) ∧
      averageDistance q.shared.device.irqData = some BUFFER_EMPTY ∧
      handledEdges grantAll (idle configuredDevice)
        (threeEchoes 99643241244000 99643241244000 99643241244000) =
          [0, 99643241244000, 0, 99643241244000, 0, 99643241244000] :=
    ⟨_, _, rfl, rfl, by decide, rfl⟩
  have htrue := hall grantAll (fun _ => blankDevice) (fun _ => 0)
    [(5, .openFile), (5, .configPins grantAll 3 2), (5, .setParameters 1 1)] 5 _ q os hrun
  exact (htrue (hedges ▸ by decide)).stored 1 7 BUFFER_EMPTY
    ⟨hq, (average_step_iff hq).mpr haverage⟩ rfl

end KernelDrivers.Hcsr04
