import KernelDrivers.Hcsr04.TrueDistance
import KernelDrivers.Platform.Driver
import KernelDrivers.Platform.Echoes

/-!
# The distances of the two handlers

The misc driver divides the width of an echo by 23200. The platform driver subtracts the other way
round, so that the difference wraps, and takes the remainder of the division. So the two count the
same samples, and their sums differ by what the remainders exceed the quotients.
-/

namespace KernelDrivers.Platform
open Lib Hcsr04

/-! ## The property and its condition -/

/-- The handlers leave the same sum and number of samples. -/
structure SameSums (irqData irqData' : Hcsr04IrqData) : Prop where
  totalSamples : irqData'.totalSamples = irqData.totalSamples
  sampleSum : irqData'.sampleSum = irqData.sampleSum

/-- The remainder of 2 ^ 64 by 23200. -/
def wrapRemainder : Int := 18816

/-- By how much the platform driver's distance exceeds the true one, for an echo of this width. -/
def excess (width : Nat) : Int :=
  if width = 0 then 0 else (wrapRemainder - width) % 23200 - width / 23200

/-! ## The platform driver's sums -/

theorem distanceOf_eq_ofInt {pulse : Pulse} (horder : pulse.rise ≤ pulse.fall) :
    distanceOf pulse.rise pulse.fall =
      Int32.ofInt ((pulse.width / 23200 : Nat) + excess pulse.width) := by
  have hle : pulse.rise.toNat ≤ pulse.fall.toNat := horder
  have hlt := pulse.fall.toNat_lt
  have hticks : (((pulse.rise - pulse.fall) % 23200).toNat : Int) =
      (pulse.width / 23200 : Nat) + excess pulse.width := by
    rw [UInt64.toNat_mod, UInt64.toNat_sub]
    have hdivisor : (23200 : UInt64).toNat = 23200 := rfl
    rw [hdivisor, excess, wrapRemainder, Pulse.width]
    split
    · omega
    · omega
  rw [distanceOf, ← hticks, Int32.ofInt_eq_ofNat, ← UInt32.toInt32_ofNat', UInt32.ofNat_uInt64ToNat]

theorem takeEdge_pair {irqData : Hcsr04IrqData} (h : irqData.irqEdge = 0) (rise fall : UInt64) :
    (takeEdge (takeEdge irqData rise) fall).irqEdge = 0 ∧
      (takeEdge (takeEdge irqData rise) fall).totalSamples = irqData.totalSamples + 1 ∧
      (takeEdge (takeEdge irqData rise) fall).sampleSum =
        irqData.sampleSum + distanceOf rise fall := by
  have hrising : takeEdge irqData rise = { irqData with risingEdgeTime := rise, irqEdge := 1 } := by
    rw [takeEdge, if_pos h]
  rw [hrising, takeEdge, if_neg (show ¬ (1 : Int32) = 0 by decide), if_pos rfl, countSample]
  dsimp only
  split_ifs <;> exact ⟨rfl, rfl, rfl⟩

/-- Every pair of edges is a sample. -/
theorem foldl_takeEdge_pairs {irqData : Hcsr04IrqData} (h : irqData.irqEdge = 0)
    (edges : List UInt64) :
    (edges.foldl takeEdge irqData).totalSamples =
        irqData.totalSamples + Int32.ofNat (edgePairs edges).length ∧
      (edges.foldl takeEdge irqData).sampleSum = irqData.sampleSum +
        sumInt ((edgePairs edges).map fun pulse => distanceOf pulse.rise pulse.fall) := by
  induction edges using List.twoStepInduction generalizing irqData with
  | nil => simp [edgePairs, sumInt]
  | singleton irqTime => simp [edgePairs, sumInt, takeEdge, h]
  | cons_cons rise fall edges ih _ =>
    obtain ⟨hedge, htotal, hsum⟩ := takeEdge_pair h rise fall
    obtain ⟨htotal', hsum'⟩ := ih hedge
    have hcons : ∀ (x : Int32) xs, sumInt (x :: xs) = x + sumInt xs := fun _ _ => rfl
    rw [List.foldl_cons, List.foldl_cons, htotal', hsum', htotal, hsum, edgePairs, List.map_cons,
      hcons, List.length_cons, Int32.ofNat_add]
    grind

/-! ## The main result -/

theorem sumInt_map_ofInt (distances : List Int) :
    sumInt (distances.map Int32.ofInt) = Int32.ofInt distances.sum := by
  induction distances with
  | nil => rfl
  | cons distance distances ih =>
    have hcons : ∀ (x : Int32) xs, sumInt (x :: xs) = x + sumInt xs := fun _ _ => rfl
    rw [List.map_cons, hcons, ih, List.sum_cons, Int32.ofInt_add]

/-- Below 400 cm the misc driver accepts every pair. -/
theorem acceptedPairs_eq {edges : List UInt64}
    (hordered : ∀ pulse ∈ edgePairs edges, pulse.rise ≤ pulse.fall)
    (hwidths : ∀ pulse ∈ edgePairs edges, pulse.width ≤ 400 * 23200) :
    acceptedPairs edges =
      (edgePairs edges).map fun pulse => Int32.ofInt (pulse.width / 23200 : Nat) := by
  have hdistance : pairDistances edges =
      (edgePairs edges).map fun pulse => Int32.ofInt (pulse.width / 23200 : Nat) := by
    rw [pairDistances_eq]
    refine List.map_congr_left fun pulse hmem => ?_
    rw [distanceOf_eq_ofNat (hordered pulse hmem), Int32.ofInt_eq_ofNat]
  rw [acceptedPairs, hdistance, List.filter_eq_self]
  intro distance hmem
  obtain ⟨pulse, hpulse, rfl⟩ := List.mem_map.mp hmem
  have hnear := hwidths pulse hpulse
  rw [Int32.ofInt_eq_ofNat, decide_eq_true_iff, ofNat_le_iff]
  omega

/-- From the same sums, the two handlers leave the same number of samples, and sums that differ by
what the platform driver's distances exceed the others. -/
theorem foldl_takeEdge_both {irqData irqData' : Hcsr04IrqData} (hfresh : FreshEcho irqData)
    (hfresh' : FreshEcho irqData') {edges : List UInt64}
    (hordered : ∀ pulse ∈ edgePairs edges, pulse.rise ≤ pulse.fall)
    (hwidths : ∀ pulse ∈ edgePairs edges, pulse.width ≤ 400 * 23200) :
    (edges.foldl takeEdge irqData').totalSamples =
        (edges.foldl Hcsr04.takeEdge irqData).totalSamples ∧
      (edges.foldl takeEdge irqData').sampleSum =
        (edges.foldl Hcsr04.takeEdge irqData).sampleSum +
          Int32.ofInt ((edgePairs edges).map fun pulse => excess pulse.width).sum := by
  obtain ⟨htotal, hsum, -⟩ := Hcsr04.foldl_takeEdge irqData edges
  rw [hfresh.accepted, acceptedPairs_eq hordered hwidths] at htotal hsum
  obtain ⟨irqNo, irqEchoPin, irqTriggerPin, rfl⟩ := hfresh'
  obtain ⟨htotal', hsum'⟩ :=
    @foldl_takeEdge_pairs { initialIrqData with irqNo, irqEchoPin, irqTriggerPin } rfl edges
  obtain ⟨irqNo', irqEchoPin', irqTriggerPin', rfl⟩ := hfresh
  have hdistances : ((edgePairs edges).map fun pulse => distanceOf pulse.rise pulse.fall) =
      ((edgePairs edges).map fun pulse =>
        ((pulse.width / 23200 : Nat) : Int) + excess pulse.width).map Int32.ofInt := by
    rw [List.map_map]
    exact List.map_congr_left fun pulse hmem => distanceOf_eq_ofInt (hordered pulse hmem)
  have hmap : ((edgePairs edges).map fun pulse => Int32.ofInt (pulse.width / 23200 : Nat)) =
      ((edgePairs edges).map fun pulse => ((pulse.width / 23200 : Nat) : Int)).map Int32.ofInt := by
    rw [List.map_map]
    rfl
  rw [htotal, htotal', hsum, hsum', hdistances, hmap, sumInt_map_ofInt, sumInt_map_ofInt,
    List.sum_map_add, Int32.ofInt_add, List.length_map, List.length_map]
  exact ⟨rfl, (Int32.add_assoc _ _ _).symm⟩

theorem edgePairs_ordered {edges : List UInt64} (h : edges.Pairwise (· ≤ ·)) :
    ∀ pulse ∈ edgePairs edges, pulse.rise ≤ pulse.fall := by
  induction edges using List.twoStepInduction with
  | nil => exact nofun
  | singleton => exact nofun
  | cons_cons rise fall edges ih _ =>
    rw [List.pairwise_cons, List.pairwise_cons] at h
    exact List.forall_mem_cons.mpr ⟨h.1 fall List.mem_cons_self, ih h.2.2⟩

theorem ofInt_eq_zero_iff (x : Int) : Int32.ofInt x = 0 ↔ (2 ^ 32 : Int) ∣ x := by
  rw [Int32.ofInt_eq_iff_bmod_eq_toInt]
  exact Int.dvd_iff_bmod_eq_zero.symm

/-- From fresh devices, the same edges up to 400 cm apart leave the same sums in both drivers
exactly when what the platform driver's distances exceed the true ones adds up to a multiple of
2 ^ 32. -/
theorem same_sums_iff {env env' : KernelEnv} {p q : Pool Shared Hcsr04.Thread}
    {p' q' : Pool Shared Thread} {edges : List UInt64}
    (hfresh : FreshEcho p.shared.device.irqData) (hfresh' : FreshEcho p'.shared.device.irqData)
    (hmisc : ReachesWith env p edges q)
    (hplatform : Reaches (threadStep env') threadStart echoEvent p' (edges.map .edge) q')
    (hordered : edges.Pairwise (· ≤ ·))
    (hwidths : ∀ pulse ∈ edgePairs edges, pulse.width ≤ 400 * 23200) :
    SameSums q.shared.device.irqData q'.shared.device.irqData ↔
      (2 ^ 32 : Int) ∣ ((edgePairs edges).map fun pulse => excess pulse.width).sum := by
  have hdata : q.shared.device.irqData = edges.foldl Hcsr04.takeEdge p.shared.device.irqData :=
    hmisc.irqData
  have hdata' : q'.shared.device.irqData = edges.foldl takeEdge p'.shared.device.irqData := by
    obtain ⟨moves, os, hrun, hevents⟩ := hplatform
    rw [irqData_of_run hrun, show echoEvents env' p' moves = _ from hevents, List.foldl_map]
    rfl
  obtain ⟨htotal, hsum⟩ :=
    foldl_takeEdge_both hfresh hfresh' (edgePairs_ordered hordered) hwidths
  rw [hdata, hdata', ← ofInt_eq_zero_iff]
  constructor
  · intro h
    have hsame := hsum.symm.trans h.sampleSum
    grind
  · intro hzero
    exact ⟨htotal, by rw [hsum, hzero, Int32.add_zero]⟩

/-! ## One echo in both drivers -/

/-- A device of the platform driver, configured through its file. -/
def listeningDevice : Hcsr04Device :=
  (configPinsIoctl grantAll 3 2 (initializeDevice blankDevice) (populateGen2PinsData fun _ => 0)
    []).2.1

theorem freshEcho_listeningDevice : FreshEcho listeningDevice.irqData := ⟨61, 61, 62, rfl⟩

/-- An edge at 0 and one at `width`. -/
def hearEcho (width : UInt64) : List (PoolMove Thread) :=
  [.start (.irq ⟨0, .edge⟩), .step 0, .start (.irq ⟨width, .edge⟩), .step 1]

/-- The remainder of -18816 is 0, and so is the distance. -/
theorem same_sums_iff_near : ∃ q q',
    ReachesWith grantAll (Hcsr04.idle configuredDevice) [0, 18816] q ∧
    Reaches (threadStep grantAll) threadStart echoEvent (idle listeningDevice)
      ([0, 18816].map .edge) q' ∧
    SameSums q.shared.device.irqData q'.shared.device.irqData := by
  obtain ⟨q, hmisc, -⟩ :=
    @reaches_edges grantAll (Hcsr04.idle configuredDevice) (by decide) [0, 18816]
  obtain ⟨q', hplatform⟩ : ∃ q', Reaches (threadStep grantAll) threadStart echoEvent
      (idle listeningDevice) ([0, 18816].map .edge) q' := ⟨_, hearEcho 18816, _, rfl, rfl⟩
  have hiff := same_sums_iff freshEcho_configuredDevice freshEcho_listeningDevice hmisc hplatform
    (by decide) (by decide)
  exact ⟨q, q', hmisc, hplatform, hiff.mpr (by decide)⟩

/-- An echo of 100 cm is a sample of 100 in the misc driver and one of 18816 in the other. -/
theorem not_same_sums : ¬ ∀ (env env' : KernelEnv) (p q : Pool Shared Hcsr04.Thread)
    (p' q' : Pool Shared Thread) (edges : List UInt64),
    FreshEcho p.shared.device.irqData → FreshEcho p'.shared.device.irqData →
    ReachesWith env p edges q →
    Reaches (threadStep env') threadStart echoEvent p' (edges.map .edge) q' →
    edges.Pairwise (· ≤ ·) → (∀ pulse ∈ edgePairs edges, pulse.width ≤ 400 * 23200) →
    SameSums q.shared.device.irqData q'.shared.device.irqData := by
  intro hall
  obtain ⟨q, hmisc, -⟩ :=
    @reaches_edges grantAll (Hcsr04.idle configuredDevice) (by decide) [0, 2320000]
  obtain ⟨q', hplatform, hsum'⟩ : ∃ q', Reaches (threadStep grantAll) threadStart echoEvent
      (idle listeningDevice) ([0, 2320000].map .edge) q' ∧
      q'.shared.device.irqData.sampleSum = 18816 :=
    ⟨_, ⟨hearEcho 2320000, _, rfl, rfl⟩, by decide⟩
  have hsame := hall grantAll grantAll _ q _ q' [0, 2320000] freshEcho_configuredDevice
    freshEcho_listeningDevice hmisc hplatform (by decide) (by decide)
  have hsum : q.shared.device.irqData.sampleSum = 100 := by
    rw [hmisc.irqData]
    decide
  exact absurd (hsum'.symm.trans (hsame.sampleSum.trans hsum)) (by decide)

end KernelDrivers.Platform
