import KernelDrivers.Hcsr04.TriggerPulse
import KernelDrivers.Platform.Divisor

/-!
# The number of triggers

The misc driver adds 2 to `m` before its loop and compares with `<`. The platform driver adds 2 in
the test of the loop and compares with `<=`, so it triggers once more. It never ends when `m + 2`
is the greatest `int`.
-/

namespace KernelDrivers.Platform
open Lib Hcsr04

/-! ## The iterations of a measurement -/

/-- Measurement `i` is about to trigger. -/
def Starts (p : Pool Shared Thread) (i : Nat) : Prop :=
  p.At (fun tsc => .measure ⟨tsc, .start⟩) i

/-- Measurement `i` has ended its triggers. -/
def Collected (p : Pool Shared Thread) (i : Nat) : Prop :=
  p.At (fun tsc => .measure ⟨tsc, .average⟩) i

def triggerEvent (_ : Shared) : Thread → Option Unit
  | .measure ⟨_, .triggerHigh _ _⟩ => some ()
  | _ => none

/-- The triggers of measurement `i`. -/
def triggers (env : KernelEnv) : Nat → Pool Shared Thread → List (PoolMove Thread) → Nat :=
  ownEventCount (threadStep env) threadStart triggerEvent

/-- Measurement `i` can come to its average, and triggers `n` times whenever it does. -/
def Triggers (env : KernelEnv) : Pool Shared Thread → Nat → Nat → Prop :=
  MakesUntil (threadStep env) threadStart triggerEvent fun tsc => .measure ⟨tsc, .average⟩

/-- A measurement between its triggers has made `n` of them; the last iteration is that with
`m + 2`, unless no `int` is greater. -/
def MeasurePc.Made (m : Int32) : MeasurePc → Nat → Prop
  | .lock, n | .start, n => n = 0
  | .loop samplesCollected totalSamples, n => totalSamples = m ∧
    ((m + 2).toInt = 2 ^ 31 - 1 ∨ samplesCollected.toInt = n ∧
      (n = 0 ∨ (n : Int) ≤ (m + 2).toInt + 1))
  | .triggerHigh samplesCollected totalSamples, n => totalSamples = m ∧
    ((m + 2).toInt = 2 ^ 31 - 1 ∨ samplesCollected.toInt = n ∧ (n : Int) ≤ (m + 2).toInt)
  | .triggerLow samplesCollected totalSamples, n | .collect samplesCollected totalSamples, n =>
    totalSamples = m ∧ ((m + 2).toInt = 2 ^ 31 - 1 ∨
      samplesCollected.toInt + 1 = n ∧ (n : Int) ≤ (m + 2).toInt + 1)
  | _, n => (m + 2).toInt ≠ 2 ^ 31 - 1 ∧ n = ((m + 2).toInt + 1).toNat

theorem toInt_add_one {samplesCollected : Int32} (h : samplesCollected.toInt + 1 < 2 ^ 31) :
    (samplesCollected + 1).toInt = samplesCollected.toInt + 1 := by
  have hone : Int32.toInt 1 = 1 := by decide
  have hmin := samplesCollected.le_toInt
  rw [Int32.toInt_add, hone]
  apply Int.bmod_eq_of_le <;> omega

theorem hcsr04ThreadWrite_made {env : KernelEnv} {s s' : Shared} {thread thread' : Measurement}
    {n : Nat} (hmade : thread.pc.Made s.device.m n)
    (h : hcsr04ThreadWrite env thread s = some (s', thread')) :
    thread'.pc.Made s.device.m (n + (triggerEvent s (.measure thread)).toList.length) := by
  have hzero : Int32.toInt 0 = 0 := by decide
  cases hcsr04ThreadWrite_cases h with
  | lock hlock =>
    obtain ⟨-, rfl⟩ := Shared.lock_eq_some hlock
    exact hmade
  | start =>
    obtain rfl : n = 0 := hmade
    exact ⟨rfl, .inr ⟨hzero, .inl rfl⟩⟩
  | more hmore =>
    obtain ⟨rfl, hcount⟩ := hmade
    rw [Int32.le_iff_toInt_le] at hmore
    rcases hcount with hlast | ⟨hn, -⟩
    · exact ⟨rfl, .inl hlast⟩
    · exact ⟨rfl, .inr ⟨hn, hn ▸ hmore⟩⟩
  | @done tsc samplesCollected totalSamples hdone =>
    obtain ⟨rfl, hcount⟩ := hmade
    rw [Int32.le_iff_toInt_le] at hdone
    have hmax := samplesCollected.toInt_lt
    rcases hcount with hlast | ⟨hn, hle⟩
    · omega
    · refine ⟨by omega, ?_⟩
      change n = _
      omega
  | triggerHigh =>
    obtain ⟨rfl, hcount⟩ := hmade
    rcases hcount with hlast | ⟨hn, hle⟩
    · exact ⟨rfl, .inl hlast⟩
    · refine ⟨rfl, .inr ?_⟩
      simp only [triggerEvent, Option.toList_some, List.length_singleton]
      omega
  | @collect tsc samplesCollected totalSamples =>
    obtain ⟨rfl, hcount⟩ := hmade
    refine ⟨rfl, ?_⟩
    by_cases hlast : (s.device.m + 2).toInt = 2 ^ 31 - 1
    · exact .inl hlast
    · obtain ⟨hn, hle⟩ := hcount.resolve_left hlast
      have hmax := (s.device.m + 2).toInt_lt
      have hnext : (samplesCollected + 1).toInt = samplesCollected.toInt + 1 :=
        toInt_add_one (by omega)
      exact .inr ⟨hnext.trans hn, .inr hle⟩
  | triggerLow | trap | average | fifoWrite | clearInProgress | unlock | up => exact hmade

theorem Thread.made_step {env : KernelEnv} {s s' : Shared} {t t' : Thread} {es : List Unit}
    (hmade : ∃ thread, t = .measure thread ∧ thread.pc.Made s.device.m es.length)
    (h : threadStep env t s = some (s', t')) :
    ∃ thread, t' = .measure thread ∧
      thread.pc.Made s.device.m (es ++ (triggerEvent s t).toList).length := by
  obtain ⟨thread, rfl, hmade⟩ := hmade
  obtain ⟨⟨s₁, thread'⟩, hthread, heq⟩ := Option.map_eq_some_iff.mp h
  obtain ⟨rfl, rfl⟩ := Prod.mk.inj heq
  refine ⟨thread', rfl, ?_⟩
  rw [List.length_append]
  exact hcsr04ThreadWrite_made hmade hthread

theorem deviceMove_m {env : KernelEnv} {p q : Pool Shared Thread} {move : PoolMove Thread}
    (hmove : deviceMove env p move = some (q, ())) : q.shared.device.m = p.shared.device.m := by
  cases move with
  | start t =>
    obtain ⟨s, hstart, rfl⟩ := poolMove_start_eq_some.mp hmove
    rw [(threadStart_effect hstart).2]
  | step i =>
    obtain ⟨t, s, t', -, hstep, rfl⟩ := poolMove_step_eq_some.mp hmove
    exact (threadStep_effect hstep).m

/-- Before its average a measurement has triggered `m + 3` times, if `m + 2` is not negative. -/
theorem triggers_eq {env : KernelEnv} {p q : Pool Shared Thread} {i : Nat}
    {moves : List (PoolMove Thread)} {os : List Unit} (hstarts : Starts p i)
    (hrun : run (deviceMove env) p moves = some (q, os)) (hq : Collected q i) :
    (p.shared.device.m + 2).toInt ≠ 2 ^ 31 - 1 ∧
      triggers env i p moves = ((p.shared.device.m + 2).toInt + 1).toNat := by
  obtain ⟨tsc, ht⟩ := hstarts
  obtain ⟨tsc', ht'⟩ := hq
  let K : Thread → List Unit → Prop := fun t es =>
    ∃ thread, t = .measure thread ∧ thread.pc.Made p.shared.device.m es.length
  have hown : ∀ t s t' s' es, s.device.m = p.shared.device.m → K t es →
      threadStep env t s = some (s', t') → K t' (es ++ (triggerEvent s t).toList) := by
    intro t s t' s' es hm hmade hstep
    simp only [K] at hmade ⊢
    rw [← hm] at hmade ⊢
    exact Thread.made_step hmade hstep
  have hnone : K (.measure ⟨tsc, .start⟩) [] := ⟨_, rfl, rfl⟩
  obtain ⟨t', hthread, thread, rfl, hmade⟩ := run_own_events triggerEvent
    (fun p q move hm hmove => (deviceMove_m hmove).trans hm) hown ht rfl hnone hrun
  obtain rfl := Thread.measure.inj (Option.some.inj (ht'.symm.trans hthread))
  exact hmade

/-! ## Measurements that end -/

/-- Some run leads from `p` to `q`. -/
def CanReach (env : KernelEnv) (p q : Pool Shared Thread) : Prop :=
  ∃ moves os, run (deviceMove env) p moves = some (q, os)

theorem CanReach.trans {env : KernelEnv} {p q r : Pool Shared Thread} (h : CanReach env p q)
    (h' : CanReach env q r) : CanReach env p r := by
  obtain ⟨moves, os, hrun⟩ := h
  obtain ⟨moves', os', hrun'⟩ := h'
  exact ⟨_, _, run_trans _ hrun hrun'⟩

theorem canReach_measure (env : KernelEnv) {p : Pool Shared Thread} {i : Nat}
    {thread thread' : Measurement} {s : Shared} (ht : p.threads[i]? = some (.measure thread))
    (hstep : hcsr04ThreadWrite env thread p.shared = some (s, thread')) :
    ∃ q, CanReach env p q ∧ q.threads[i]? = some (.measure thread') := by
  have hlt : i < p.threads.length := (List.getElem?_eq_some_iff.mp ht).1
  have hthread : threadStep env (.measure thread) p.shared = some (s, .measure thread') := by
    rw [threadStep, hstep]
    rfl
  exact ⟨_, ⟨_, _, run_singleton _ (poolMove_step_eq_some.mpr ⟨_, _, _, ht, hthread, rfl⟩)⟩,
    by simp [hlt]⟩

/-- One iteration. -/
theorem canReach_next (env : KernelEnv) {p : Pool Shared Thread} {i : Nat} {tsc : UInt64}
    {samplesCollected totalSamples : Int32}
    (ht : p.threads[i]? = some (.measure ⟨tsc, .loop samplesCollected totalSamples⟩))
    (hmore : samplesCollected ≤ totalSamples + 2) :
    ∃ q, CanReach env p q ∧
      q.threads[i]? = some (.measure ⟨tsc, .loop (samplesCollected + 1) totalSamples⟩) := by
  obtain ⟨q₁, hreach₁, hq₁⟩ := canReach_measure env ht rfl
  rw [if_pos hmore] at hq₁
  obtain ⟨q₂, hreach₂, hq₂⟩ := canReach_measure env hq₁ rfl
  obtain ⟨q₃, hreach₃, hq₃⟩ := canReach_measure env hq₂ rfl
  obtain ⟨q, hreach, hq⟩ := canReach_measure env hq₃ rfl
  exact ⟨q, ((hreach₁.trans hreach₂).trans hreach₃).trans hreach, hq⟩

/-- The loop ends when some `int` is greater than `m + 2`. -/
theorem canReach_average (env : KernelEnv) {tsc : UInt64} {totalSamples : Int32}
    (hlast : (totalSamples + 2).toInt ≠ 2 ^ 31 - 1) (n : Nat) {p : Pool Shared Thread} {i : Nat}
    {samplesCollected : Int32}
    (hn : ((totalSamples + 2).toInt + 1 - samplesCollected.toInt).toNat = n)
    (ht : p.threads[i]? = some (.measure ⟨tsc, .loop samplesCollected totalSamples⟩)) :
    ∃ q, CanReach env p q ∧ Collected q i := by
  have hmax := (totalSamples + 2).toInt_lt
  induction n generalizing p samplesCollected with
  | zero =>
    obtain ⟨q, hreach, hq⟩ := canReach_measure env ht rfl
    rw [if_neg (by rw [Int32.le_iff_toInt_le]; omega)] at hq
    exact ⟨q, hreach, tsc, hq⟩
  | succ n ih =>
    have hmore : samplesCollected ≤ totalSamples + 2 := by
      rw [Int32.le_iff_toInt_le]
      omega
    obtain ⟨q₁, hreach₁, hq₁⟩ := canReach_next env ht hmore
    have hnext : (samplesCollected + 1).toInt = samplesCollected.toInt + 1 :=
      toInt_add_one (by omega)
    obtain ⟨q, hreach, hq⟩ := ih (by omega) hq₁
    exact ⟨q, hreach₁.trans hreach, hq⟩

/-- A measurement triggers `m + 3` times, when `m + 2` is neither negative nor the greatest
`int`. -/
theorem triggers_iff {env : KernelEnv} {p : Pool Shared Thread} {i : Nat} (h : Starts p i)
    (n : Nat) : Triggers env p i n ↔
      (p.shared.device.m + 2).toInt ≠ 2 ^ 31 - 1 ∧
        n = ((p.shared.device.m + 2).toInt + 1).toNat := by
  refine makesUntil_iff (fun hlast => ?_) (fun hrun hq => triggers_eq h hrun hq) n
  obtain ⟨tsc, ht⟩ := h
  obtain ⟨q₁, hreach₁, hq₁⟩ := canReach_measure env ht rfl
  obtain ⟨q, hreach, hq⟩ := canReach_average env hlast _ rfl hq₁
  obtain ⟨moves, os, hrun⟩ := hreach₁.trans hreach
  exact ⟨moves, q, os, hrun, hq⟩

/-! ## The main result -/

/-- For every accepted `m` the misc driver triggers `m + 2` times exactly when that is an `int`.
The platform driver never does: it triggers `m + 3` times when that is an `int`. -/
theorem trigger_counts {env env' : KernelEnv} {p : Pool Shared Hcsr04.Thread}
    {p' : Pool Shared Thread} {i i' : Nat} {m : Int32} (hpos : 0 < m)
    (hstarts : Hcsr04.Starts p i) (hm : p.shared.device.m = m) (hstarts' : Starts p' i')
    (hm' : p'.shared.device.m = m) :
    (Hcsr04.Triggers env p i (m.toInt + 2).toNat ↔ m.toInt ≤ 2 ^ 31 - 3) ∧
      ¬ Triggers env' p' i' (m.toInt + 2).toNat ∧
      (Triggers env' p' i' (m.toInt + 3).toNat ↔ m.toInt ≤ 2 ^ 31 - 4) := by
  have hlt := m.toInt_lt
  have hzero : Int32.toInt 0 = 0 := by decide
  rw [Int32.lt_iff_toInt_lt, hzero] at hpos
  have hadd := toInt_add_two hpos
  rw [Hcsr04.triggers_iff hstarts, triggers_iff hstarts', triggers_iff hstarts', hm, hm', hadd]
  split <;> omega

/-- A probed device with its parameters set. -/
def parametersSet (blank : Hcsr04Device) (m delta : Int32) : Hcsr04Device :=
  (setParametersIoctl m delta (initializeDevice blank)).1

theorem starts_parametersSet : ∃ p os,
    run (deviceMove grantAll) (idle (parametersSet blankDevice 1 1)) (enableMeasurement 1) =
      some (p, os) ∧ Starts p 1 ∧ p.shared.device.m = 1 :=
  ⟨_, _, rfl, ⟨7, rfl⟩, by decide⟩

theorem starts_configuredDevice : ∃ p os,
    run (Hcsr04.deviceMove grantAll) (Hcsr04.idle configuredDevice)
        (firstMeasurement ++ Hcsr04.stepsOf 1 1) = some (p, os) ∧
      Hcsr04.Starts p 1 ∧ p.shared.device.m = 1 :=
  ⟨_, _, rfl, ⟨8, rfl⟩, by decide⟩

/-- With `m` 1 the misc driver triggers 3 times and the platform driver 4 times. -/
theorem trigger_counts_one : ∃ p p', Hcsr04.Triggers grantAll p 1 3 ∧ ¬ Triggers grantAll p' 1 3 ∧
    Triggers grantAll p' 1 4 := by
  obtain ⟨p, -, -, hstarts, hm⟩ := starts_configuredDevice
  obtain ⟨p', -, -, hstarts', hm'⟩ := starts_parametersSet
  have hcounts := @trigger_counts grantAll grantAll p p' 1 1 1 (by decide) hstarts hm hstarts' hm'
  exact ⟨p, p', hcounts.1.mpr (by decide), hcounts.2.1, hcounts.2.2.mpr (by decide)⟩

theorem not_trigger_counts_alike : ¬ ∀ (env env' : KernelEnv) (blank : Int32 → Hcsr04Device)
    (minorLeft : Int32 → Int32) (ops : List MiscOp) (minor : Int32) (blank' : Hcsr04Device)
    (m delta : Int32) (moves : List (PoolMove Hcsr04.Thread)) (moves' : List (PoolMove Thread))
    (p : Pool Shared Hcsr04.Thread) (p' : Pool Shared Thread) (os os' : List Unit) (i i' : Nat),
    0 < m → 0 < delta →
    run (Hcsr04.deviceMove env)
      (Hcsr04.idle ((afterOps (Hcsr04.hcsr04Init blank minorLeft) ops).device minor)) moves =
        some (p, os) →
    Hcsr04.Starts p i → p.shared.device.m = m →
    run (deviceMove env') (idle (parametersSet blank' m delta)) moves' = some (p', os') →
    Starts p' i' →
    Hcsr04.Triggers env p i (m.toInt + 2).toNat ∧ Triggers env' p' i' (m.toInt + 2).toNat := by
  intro hall
  obtain ⟨p, os, hrun, hstarts, hm⟩ := starts_configuredDevice
  obtain ⟨p', os', hrun', hstarts', hm'⟩ := starts_parametersSet
  have hthree := (hall _ _ _ _ _ _ _ _ _ _ _ p p' os os' 1 1 (by decide) (by decide) hrun hstarts
    hm hrun' hstarts').2
  rw [triggers_iff hstarts', hm'] at hthree
  exact absurd hthree.2 (by decide)

end KernelDrivers.Platform
