import Mathlib.Data.Finset.Basic
import Mathlib.Data.Finset.Lattice.Lemmas
import Mathlib.Data.Finset.Card

/-!
# Accounting for acquired resources

A log records every request for a resource, with its outcome, and every release, newest
first. `held` is what the log leaves acquired. A log is `Legal` when nothing is requested
while held and nothing is released while not held; it then grants as often as it releases and
still holds. Requesting several resources and giving
back the ones already acquired at the first refusal changes what is held by all or nothing.
-/

namespace KernelDrivers.Lib

variable {ρ : Type*} [DecidableEq ρ]

inductive Event (ρ : Type*) where
  | request (r : ρ) (granted : Bool)
  | release (r : ρ)
  deriving DecidableEq, Repr

/-- The resources a log, newest event first, leaves acquired. -/
def held : List (Event ρ) → Finset ρ
  | [] => ∅
  | .request r true :: log => insert r (held log)
  | .request _ false :: log => held log
  | .release r :: log => (held log).erase r

/-- No request of a held resource and no release of one that is not held. -/
def Legal : List (Event ρ) → Prop
  | [] => True
  | .request r _ :: log => r ∉ held log ∧ Legal log
  | .release r :: log => r ∈ held log ∧ Legal log

/-- No request of a resource that is held. -/
def RequestsFree : List (Event ρ) → Prop
  | [] => True
  | .request r _ :: log => r ∉ held log ∧ RequestsFree log
  | .release _ :: log => RequestsFree log

/-- No release of a resource that is not held. -/
def ReleasesHeld : List (Event ρ) → Prop
  | [] => True
  | .request _ _ :: log => ReleasesHeld log
  | .release r :: log => r ∈ held log ∧ ReleasesHeld log

@[simp] theorem held_granted (r : ρ) (log : List (Event ρ)) :
    held (.request r true :: log) = insert r (held log) := rfl
@[simp] theorem held_refused (r : ρ) (log : List (Event ρ)) :
    held (.request r false :: log) = held log := rfl
@[simp] theorem held_release (r : ρ) (log : List (Event ρ)) :
    held (.release r :: log) = (held log).erase r := rfl

/-! ## Counting -/

/-- The number of requests granted. -/
def grants : List (Event ρ) → Nat
  | [] => 0
  | .request _ true :: log => grants log + 1
  | _ :: log => grants log

def releases : List (Event ρ) → Nat
  | [] => 0
  | .release _ :: log => releases log + 1
  | _ :: log => releases log

/-- In a legal log every grant that was not released is held, and counted once. -/
theorem Legal.grants_eq {log : List (Event ρ)} (h : Legal log) :
    grants log = releases log + (held log).card := by
  induction log with
  | nil => rfl
  | cons e log ih =>
    match e, h with
    | .request r true, h =>
      have hlog := ih h.2
      rw [held_granted, Finset.card_insert_of_notMem h.1]
      simp only [grants, releases]
      omega
    | .request r false, h => exact ih h.2
    | .release r, h =>
      have hlog := ih h.2
      have hpos : 0 < (held log).card := Finset.card_pos.mpr ⟨r, h.1⟩
      rw [held_release, Finset.card_erase_of_mem h.1]
      simp only [grants, releases]
      omega

/-! ## Several resources -/

/-- Release resources, the first of the list first. -/
def releaseAll : List ρ → List (Event ρ) → List (Event ρ)
  | [], log => log
  | r :: rs, log => releaseAll rs (.release r :: log)

/-- Request resources one after the other. At the first refusal those of `acquired` and those
acquired since are released. -/
def acquireAll (grant : ρ → Bool) (acquired : List ρ) :
    List ρ → List (Event ρ) → List (Event ρ) × Bool
  | [], log => (log, true)
  | r :: rs, log =>
    if grant r then acquireAll grant (acquired ++ [r]) rs (.request r true :: log)
    else (releaseAll acquired (.request r false :: log), false)

omit [DecidableEq ρ] in
theorem releaseAll_append (rs rs' : List ρ) (log : List (Event ρ)) :
    releaseAll (rs ++ rs') log = releaseAll rs' (releaseAll rs log) := by
  induction rs generalizing log with
  | nil => rfl
  | cons r rs ih => exact ih (.release r :: log)

omit [DecidableEq ρ] in
theorem release_mem_releaseAll {r : ρ} {rs : List ρ} {log : List (Event ρ)} :
    .release r ∈ releaseAll rs log ↔ r ∈ rs ∨ .release r ∈ log := by
  induction rs generalizing log with
  | nil => simp [releaseAll]
  | cons q rs ih => simp [releaseAll, ih, or_left_comm, or_assoc]

/-- Whatever was held, what is released is not. -/
theorem held_releaseAll (rs : List ρ) (log : List (Event ρ)) :
    held (releaseAll rs log) = held log \ rs.toFinset := by
  induction rs generalizing log with
  | nil => simp [releaseAll]
  | cons r rs ih =>
    rw [releaseAll, ih, held_release, List.toFinset_cons]
    grind

theorem releaseAll_spec {rs : List ρ} {log : List (Event ρ)} (hnodup : rs.Nodup)
    (hheld : ∀ r ∈ rs, r ∈ held log) (hlegal : Legal log) :
    Legal (releaseAll rs log) ∧ held (releaseAll rs log) = held log \ rs.toFinset := by
  refine ⟨?_, held_releaseAll rs log⟩
  induction rs generalizing log with
  | nil => exact hlegal
  | cons r rs ih =>
    obtain ⟨hr, hnodup'⟩ := List.nodup_cons.mp hnodup
    have hheld' : ∀ q ∈ rs, q ∈ held (.release r :: log) := by
      intro q hq
      have hne : q ≠ r := fun h => hr (h ▸ hq)
      exact Finset.mem_erase.mpr ⟨hne, hheld q (List.mem_cons_of_mem r hq)⟩
    exact ih hnodup' hheld' ⟨hheld r List.mem_cons_self, hlegal⟩

/-- A refusal gives back what was acquired before it. -/
theorem acquireAll_spec {grant : ρ → Bool} {acquired rs : List ρ} {log : List (Event ρ)}
    (hnodup : (acquired ++ rs).Nodup) (hacquired : ∀ r ∈ acquired, r ∈ held log)
    (hfree : ∀ r ∈ rs, r ∉ held log) (hlegal : Legal log) :
    Legal (acquireAll grant acquired rs log).1 ∧
      held (acquireAll grant acquired rs log).1 =
        if (acquireAll grant acquired rs log).2 then held log ∪ rs.toFinset
        else held log \ acquired.toFinset := by
  induction rs generalizing acquired log with
  | nil => exact ⟨hlegal, by simp [acquireAll]⟩
  | cons r rs ih =>
    have hr : r ∉ held log := hfree r List.mem_cons_self
    have happend : acquired ++ [r] ++ rs = acquired ++ r :: rs := by simp
    cases hg : grant r with
    | true =>
      have hstep : acquireAll grant acquired (r :: rs) log =
          acquireAll grant (acquired ++ [r]) rs (.request r true :: log) := by
        simp [acquireAll, hg]
      have hacquired' : ∀ q ∈ acquired ++ [r], q ∈ held (.request r true :: log) := by
        intro q hq
        rw [held_granted, Finset.mem_insert]
        rcases List.mem_append.mp hq with h | h
        · exact .inr (hacquired q h)
        · exact .inl (List.mem_singleton.mp h)
      have hfree' : ∀ q ∈ rs, q ∉ held (.request r true :: log) := by
        intro q hq
        have hne : q ≠ r := by
          rintro rfl
          exact (List.nodup_cons.mp (List.nodup_append.mp hnodup).2.1).1 hq
        simpa [hne] using hfree q (List.mem_cons_of_mem r hq)
      obtain ⟨hlegal', hheld'⟩ := ih (happend ▸ hnodup) hacquired' hfree' ⟨hr, hlegal⟩
      rw [hstep]
      refine ⟨hlegal', hheld'.trans ?_⟩
      rw [held_granted]
      split
      · rw [List.toFinset_cons, Finset.insert_union, Finset.union_insert]
      · ext q
        by_cases hq : q = r
        · simp [hq, hr]
        · simp [hq]
    | false =>
      have hnodup' : acquired.Nodup := (List.nodup_append.mp hnodup).1
      have hrefused : ∀ q ∈ acquired, q ∈ held (.request r false :: log) := hacquired
      simpa [acquireAll, hg] using releaseAll_spec hnodup' hrefused ⟨hr, hlegal⟩

/-- All or nothing. -/
theorem acquireAll_nil_spec (grant : ρ → Bool) {rs : List ρ} {log : List (Event ρ)}
    (hnodup : rs.Nodup) (hfree : ∀ r ∈ rs, r ∉ held log) (hlegal : Legal log) :
    Legal (acquireAll grant [] rs log).1 ∧
      held (acquireAll grant [] rs log).1 =
        if (acquireAll grant [] rs log).2 then held log ∪ rs.toFinset else held log := by
  have hnone : ∀ r ∈ ([] : List ρ), r ∈ held log := by simp
  have hnodup' : ([] ++ rs).Nodup := hnodup
  obtain ⟨hlegal', hheld⟩ := acquireAll_spec hnodup' hnone hfree hlegal
  exact ⟨hlegal', by simpa using hheld⟩

end KernelDrivers.Lib
