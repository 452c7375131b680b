import KernelDrivers.Hcsr04.Resync
import Mathlib.Algebra.Ring.Int.Defs
import Mathlib.Data.List.Induction
import Mathlib.Order.Bounds.Basic

/-!
# Edges folded in pairs

From an initialised device the handler takes the edges two at a time. Each pair is a distance, and
the accepted distances are counted, summed up and compared with the extremes, which start at 0.
-/

namespace KernelDrivers.Hcsr04
open Lib

/-! ## An initialised device -/

/-- The interrupt data of an initialised device, whatever was configured since. -/
def FreshEcho (irqData : Hcsr04IrqData) : Prop :=
  ∃ irqNo irqEchoPin irqTriggerPin,
    irqData = { initialIrqData with irqNo, irqEchoPin, irqTriggerPin }

theorem freshEcho_initial : FreshEcho initialIrqData := ⟨_, _, _, rfl⟩

theorem FreshEcho.wirePin {env : KernelEnv} {device : Hcsr04Device} (h : FreshEcho device.irqData)
    (ioFlag : Int32) (pin : Gen2PinConfig) (calls : List KernelCall) :
    FreshEcho (wirePin env device ioFlag pin calls).2.1.irqData := by
  obtain ⟨irqNo, irqEchoPin, irqTriggerPin, hdata⟩ := h
  unfold Hcsr04.wirePin configureInterrupt
  dsimp only
  split_ifs
  · exact ⟨_, _, _, hdata⟩
  · exact ⟨_, _, _, hdata⟩
  · exact ⟨_, _, irqTriggerPin, by rw [hdata]⟩
  · exact ⟨irqNo, irqEchoPin, _, by rw [hdata]⟩

theorem FreshEcho.configurePin {env : KernelEnv} {device : Hcsr04Device}
    (h : FreshEcho device.irqData) (pin : Gen2PinConfig) (calls : List KernelCall) :
    FreshEcho (configurePin env device pin calls).2.1.irqData := by
  rcases hrecord : configureRecord env device.miscMinor (ioFlagOf device pin) pin calls with
    ⟨calls₁, _ | pin₁⟩
  · rw [configurePin_none hrecord]
    exact h
  · rw [configurePin_some hrecord]
    exact h.wirePin _ _ _

theorem FreshEcho.configurePins {device : Hcsr04Device} (h : FreshEcho device.irqData)
    (env : KernelEnv) (pins : List Gen2PinConfig) (calls : List KernelCall) :
    FreshEcho (configurePins env pins device calls).2.1.irqData := by
  induction pins generalizing device calls with
  | nil => exact h
  | cons pin rest ih =>
    by_cases hrole : device.triggerPin = pin.galileoPin ∨ device.echoPin = pin.galileoPin
    · simp only [Hcsr04.configurePins, if_pos hrole]
      split
      · exact h.configurePin pin calls
      · exact ih (h.configurePin pin calls) _
    · simp only [Hcsr04.configurePins, if_neg hrole]
      exact ih h calls

theorem FreshEcho.configPins {s : MiscDriver} (h : ∀ minor, FreshEcho (s.device minor).irqData)
    (env : KernelEnv) (minor param1 param2 : Int32) :
    ∀ other, FreshEcho ((configPinsIoctl env minor param1 param2 s).1.device other).irqData := by
  unfold configPinsIoctl
  split
  · exact h
  · have hreleased : FreshEcho (releaseInterrupt (s.device minor) s.calls).2.irqData := by
      obtain ⟨irqNo, irqEchoPin, irqTriggerPin, hdata⟩ := h minor
      unfold releaseInterrupt
      split
      · exact ⟨_, irqEchoPin, irqTriggerPin, by rw [hdata]⟩
      · exact ⟨_, _, _, hdata⟩
    have hpins := fun (device : Hcsr04Device) (hdevice : FreshEcho device.irqData) =>
      hdevice.configurePins env s.pins (releaseInterrupt (s.device minor) s.calls).1
    refine forall_setDevice (P := fun device => FreshEcho device.irqData) h minor ?_
    split
    · exact hpins _ hreleased
    · exact hpins _ hreleased

theorem FreshEcho.miscOp {s : MiscDriver} (h : ∀ minor, FreshEcho (s.device minor).irqData)
    (op : MiscOp) : ∀ minor, FreshEcho ((miscOp s op).1.device minor).irqData :=
  forall_miscOp (P := fun device => FreshEcho device.irqData) h (fun _ => freshEcho_initial)
    (FreshEcho.configPins h) (fun minor _ _ _ => h minor) op

/-- Until a thread is at work, every device is fresh. -/
theorem freshEcho_afterOps (blank : Int32 → Hcsr04Device) (minorLeft : Int32 → Int32)
    (ops : List MiscOp) (minor : Int32) :
    FreshEcho ((afterOps (hcsr04Init blank minorLeft) ops).device minor).irqData := by
  have hall : ∀ s : MiscDriver, (∀ minor, FreshEcho (s.device minor).irqData) →
      ∀ minor, FreshEcho ((afterOps s ops).device minor).irqData := by
    induction ops with
    | nil => exact fun s h => h
    | cons op ops ih => exact fun s h => ih _ (FreshEcho.miscOp h op)
  exact hall _ (fun _ => freshEcho_initial) minor

theorem freshEcho_configuredDevice : FreshEcho configuredDevice.irqData :=
  freshEcho_afterOps (fun _ => blankDevice) (fun _ => 0)
    [(5, .openFile), (5, .configPins grantAll 3 2), (5, .setParameters 1 1)] 5

/-! ## The pairs -/

/-- The distances of the edges taken two at a time. -/
def pairDistances (edges : List UInt64) : List Int32 :=
  (List.range (edges.length / 2)).map fun i =>
    distanceOf (edges.getD (2 * i) 0) (edges.getD (2 * i + 1) 0)

def acceptedPairs (edges : List UInt64) : List Int32 := (pairDistances edges).filter (· ≤ 400)

theorem pairDistances_cons_cons (rise fall : UInt64) (edges : List UInt64) :
    pairDistances (rise :: fall :: edges) = distanceOf rise fall :: pairDistances edges := by
  have hlength : (rise :: fall :: edges).length / 2 = edges.length / 2 + 1 := by
    simp only [List.length_cons]
    omega
  rw [pairDistances, hlength, List.range_succ_eq_map, List.map_cons, List.map_map]
  rfl

theorem acceptedPairs_cons_cons (rise fall : UInt64) (edges : List UInt64) :
    acceptedPairs (rise :: fall :: edges) =
      (if distanceOf rise fall > 400 then [] else [distanceOf rise fall]) ++
        acceptedPairs edges := by
  rw [acceptedPairs, pairDistances_cons_cons, List.filter_cons]
  by_cases hfar : distanceOf rise fall > 400
  · rw [if_pos hfar, if_neg (by simpa using hfar)]
    rfl
  · rw [if_neg hfar, if_pos (by simpa using hfar)]
    rfl

/-- The handler accepts the pairs. -/
theorem acceptedEchoes_eq_acceptedPairs (edges : List UInt64) :
    acceptedEchoes 0 0 edges = acceptedPairs edges := by
  induction edges using List.twoStepInduction with
  | nil => rfl
  | singleton irqTime => simp [acceptedEchoes, acceptedPairs, pairDistances]
  | cons_cons rise fall edges ih _ =>
    rw [acceptedPairs_cons_cons, ← ih, acceptedEchoes, if_pos rfl, acceptedEchoes,
      if_neg (by decide), if_pos rfl, acceptedEchoes_zero rise 0]

theorem irqEdge_takeEdge_pair {irqData : Hcsr04IrqData} (h : irqData.irqEdge = 0)
    (rise fall : UInt64) : (takeEdge (takeEdge irqData rise) fall).irqEdge = 0 := by
  have hrising : (takeEdge irqData rise).irqEdge = 1 := by
    rw [takeEdge, if_pos h]
  rw [takeEdge_falling hrising]
  exact (countSample_eq _ _).1

/-- The next edge is a falling one after an odd number of edges. -/
theorem irqEdge_eq_mod {irqData : Hcsr04IrqData} (h : irqData.irqEdge = 0) (edges : List UInt64) :
    (edges.foldl takeEdge irqData).irqEdge = Int32.ofNat (edges.length % 2) := by
  induction edges using List.twoStepInduction generalizing irqData with
  | nil => exact h
  | singleton irqTime =>
    rw [List.foldl_cons, List.foldl_nil, takeEdge, if_pos h]
    rfl
  | cons_cons rise fall edges ih _ =>
    have hlength : (rise :: fall :: edges).length % 2 = edges.length % 2 := by
      simp only [List.length_cons]
      omega
    rw [List.foldl_cons, List.foldl_cons, ih (irqEdge_takeEdge_pair h rise fall), hlength]

theorem sumInt_eq_ofInt (samples : List Int32) :
    sumInt samples = Int32.ofInt (samples.map Int32.toInt).sum := by
  induction samples with
  | nil => rfl
  | cons sample samples ih =>
    have hcons : sumInt (sample :: samples) = sample + sumInt samples := rfl
    rw [hcons, ih, List.map_cons, List.sum_cons, Int32.ofInt_add, Int32.ofInt_toInt]

/-! ## The extremes -/

/-- The samples as integers. -/
def values (samples : List Int32) : Set Int := Int32.toInt '' {d | d ∈ samples}

def withZero (samples : List Int32) : Set Int := insert 0 (values samples)

theorem withZero_nil : withZero [] = {0} := by simp [withZero, values]

theorem withZero_concat (samples : List Int32) (sample : Int32) :
    withZero (samples ++ [sample]) = insert sample.toInt (withZero samples) := by
  ext x
  simp only [withZero, values, Set.mem_insert_iff, Set.mem_image, Set.mem_ofPred_eq,
    List.mem_append, List.mem_singleton]
  grind

/-- The two outliers are the extremes of 0 and the samples. -/
structure Extremes (samples : List Int32) (irqData : Hcsr04IrqData) : Prop where
  lowest : IsLeast (withZero samples) irqData.outlierLowest.toInt
  highest : IsGreatest (withZero samples) irqData.outlierHighest.toInt

theorem Extremes.bounds {samples : List Int32} {irqData : Hcsr04IrqData}
    (h : Extremes samples irqData) :
    irqData.outlierLowest.toInt ≤ 0 ∧ 0 ≤ irqData.outlierHighest.toInt :=
  ⟨h.lowest.2 (Set.mem_insert _ _), h.highest.2 (Set.mem_insert _ _)⟩

theorem outliers_countSample (irqData : Hcsr04IrqData) {distance : Int32}
    (hnear : ¬ distance > 400)
    (hbounds : irqData.outlierLowest.toInt ≤ 0 ∧ 0 ≤ irqData.outlierHighest.toInt) :
    (countSample irqData distance).outlierLowest.toInt =
        min distance.toInt irqData.outlierLowest.toInt ∧
      (countSample irqData distance).outlierHighest.toInt =
        max distance.toInt irqData.outlierHighest.toInt := by
  rw [countSample, if_neg hnear]
  dsimp only
  by_cases hhigh : irqData.outlierHighest.toInt < distance.toInt
  · -- the second test is not made, and would fail
    have hlow : irqData.outlierLowest.toInt ≤ distance.toInt := by omega
    rw [if_pos (Int32.lt_iff_toInt_lt.mpr hhigh)]
    exact ⟨(min_eq_right hlow).symm, (max_eq_left hhigh.le).symm⟩
  · rw [if_neg (mt Int32.lt_iff_toInt_lt.mp hhigh)]
    by_cases hlow : distance.toInt < irqData.outlierLowest.toInt
    · rw [if_pos (Int32.lt_iff_toInt_lt.mpr hlow)]
      exact ⟨(min_eq_left hlow.le).symm, (max_eq_right (not_lt.mp hhigh)).symm⟩
    · rw [if_neg (mt Int32.lt_iff_toInt_lt.mp hlow)]
      exact ⟨(min_eq_right (not_lt.mp hlow)).symm, (max_eq_right (not_lt.mp hhigh)).symm⟩

theorem Extremes.takeEdge {samples : List Int32} {irqData : Hcsr04IrqData}
    (h : Extremes samples irqData) (irqTime : UInt64) :
    Extremes (samples ++ (sampleOf irqData irqTime).toList) (takeEdge irqData irqTime) := by
  by_cases hfalling : irqData.irqEdge = 1
  · rw [takeEdge_falling hfalling, sampleOf_falling hfalling]
    by_cases hfar : distanceOf irqData.risingEdgeTime irqTime > 400
    · rw [if_pos hfar, List.append_nil, countSample, if_pos hfar]
      exact ⟨h.lowest, h.highest⟩
    · obtain ⟨hlowest, hhighest⟩ := outliers_countSample
        { irqData with fallingEdgeTime := irqTime, irqEdge := 0 } hfar h.bounds
      rw [if_neg hfar]
      constructor
      · rw [hlowest, withZero_concat]
        exact h.lowest.insert _
      · rw [hhighest, withZero_concat]
        exact h.highest.insert _
  · have hnone : sampleOf irqData irqTime = none := if_neg fun h => hfalling h.1
    rw [hnone, Hcsr04.takeEdge, if_neg hfalling, Option.toList_none, List.append_nil]
    split_ifs
    · exact ⟨h.lowest, h.highest⟩
    · exact h

theorem Extremes.foldl {samples : List Int32} {irqData : Hcsr04IrqData}
    (h : Extremes samples irqData) (edges : List UInt64) :
    Extremes (samples ++ irqData.accepted edges) (edges.foldl Hcsr04.takeEdge irqData) := by
  induction edges generalizing samples irqData with
  | nil => rwa [Hcsr04IrqData.accepted, acceptedEchoes, List.append_nil]
  | cons irqTime edges ih =>
    rw [accepted_cons, ← List.append_assoc, List.foldl_cons]
    exact ih (h.takeEdge irqTime)

theorem FreshEcho.extremes {irqData : Hcsr04IrqData} (h : FreshEcho irqData) :
    Extremes [] irqData := by
  obtain ⟨irqNo, irqEchoPin, irqTriggerPin, rfl⟩ := h
  have hzero : Int32.toInt 0 = 0 := by decide
  constructor
  · rw [withZero_nil]
    exact hzero ▸ isLeast_singleton
  · rw [withZero_nil]
    exact hzero ▸ isGreatest_singleton

/-! ## The main result -/

theorem FreshEcho.accepted {irqData : Hcsr04IrqData} (h : FreshEcho irqData)
    (edges : List UInt64) : irqData.accepted edges = acceptedPairs edges := by
  obtain ⟨irqNo, irqEchoPin, irqTriggerPin, rfl⟩ := h
  exact acceptedEchoes_eq_acceptedPairs edges

/-- What the edges leave, in closed form. -/
structure FoldedInPairs (edges : List UInt64) (irqData : Hcsr04IrqData) : Prop
    extends Extremes (acceptedPairs edges) irqData where
  irqEdge : irqData.irqEdge = Int32.ofNat (edges.length % 2)
  totalSamples : irqData.totalSamples = Int32.ofNat (acceptedPairs edges).length
  sampleSum : irqData.sampleSum = Int32.ofInt ((acceptedPairs edges).map Int32.toInt).sum

theorem FreshEcho.foldedInPairs {irqData : Hcsr04IrqData} (h : FreshEcho irqData)
    (edges : List UInt64) : FoldedInPairs edges (edges.foldl takeEdge irqData) := by
  obtain ⟨htotal, hsum, -⟩ := foldl_takeEdge irqData edges
  have hextremes := h.extremes.foldl edges
  rw [h.accepted] at htotal hsum hextremes
  obtain ⟨irqNo, irqEchoPin, irqTriggerPin, rfl⟩ := h
  constructor
  · exact hextremes
  · exact irqEdge_eq_mod rfl edges
  · rw [htotal]
    exact Int32.zero_add _
  · rw [hsum, sumInt_eq_ofInt]
    exact Int32.zero_add _

/-- Any edges can come to an initialised device that has its interrupt. Once they are handled,
whatever else the threads did, they are folded in pairs. -/
theorem folded_in_pairs {env : KernelEnv} {p : Pool Shared Thread}
    (hfresh : FreshEcho p.shared.device.irqData) (edges : List UInt64) :
    (p.shared.device.irqData.irqNo ≠ NO_VALUE → ∃ q, ReachesWith env p edges q) ∧
      ∀ q, ReachesWith env p edges q → FoldedInPairs edges q.shared.device.irqData := by
  constructor
  · intro hconfigured
    obtain ⟨q, hreach, -⟩ := reaches_edges env hconfigured edges
    exact ⟨q, hreach⟩
  · intro q hreach
    rw [hreach.irqData]
    exact hfresh.foldedInPairs edges

/-- Two pairs, of which the second is too far apart, and a rising edge. -/
theorem folded_in_pairs_rejected : ∃ q,
    ReachesWith grantAll (idle configuredDevice) [0, 2320000, 0, 9303200, 5] q ∧
    q.shared.device.irqData.irqEdge = 1 ∧ q.shared.device.irqData.totalSamples = 1 ∧
    q.shared.device.irqData.sampleSum = 100 := by
  have hfresh : FreshEcho (idle configuredDevice).shared.device.irqData :=
    freshEcho_configuredDevice
  obtain ⟨q, hreach⟩ := (folded_in_pairs hfresh [0, 2320000, 0, 9303200, 5]).1 (by decide)
  have hfolded := (folded_in_pairs hfresh [0, 2320000, 0, 9303200, 5]).2 q hreach
  have hpairs : acceptedPairs [0, 2320000, 0, 9303200, 5] = [100] := by decide
  refine ⟨q, hreach, hfolded.irqEdge, ?_, ?_⟩
  · rw [hfolded.totalSamples, hpairs]
    rfl
  · rw [hfolded.sampleSum, hpairs]
    decide

end KernelDrivers.Hcsr04
