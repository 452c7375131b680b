import KernelDrivers.Lib.Accounting

/-!
# Setting up and tearing down

A set-up requests its resources one after the other. It ends at a refusal that stops it, with what
it was granted so far, and goes on after one that does not. In a sequence of lives every life has
resources of its own, so what the lives leave adds up.
-/

namespace KernelDrivers.Lib

variable {ρ ε ω : Type*}

/-- A request for a resource, and the end that the error of a refusal brings the set-up to, unless
it goes on. -/
structure Request (ρ ε ω : Type*) where
  resource : ρ
  onRefusal : Option (ε → ω)

/-- The answer to a request is an error or none. -/
def setUp (answer : ρ → Option ε) :
    List (Request ρ ε ω) → List (Event ρ) → List (Event ρ) × Option ω
  | [], log => (log, none)
  | q :: qs, log =>
    match answer q.resource, q.onRefusal with
    | none, _ => setUp answer qs (.request q.resource true :: log)
    | some error, some give => (.request q.resource false :: log, some (give error))
    | some _, none => setUp answer qs (.request q.resource false :: log)

/-- The resources that a set-up is granted. -/
def granted (answer : ρ → Option ε) : List (Request ρ ε ω) → List ρ
  | [] => []
  | q :: qs =>
    match answer q.resource, q.onRefusal with
    | none, _ => q.resource :: granted answer qs
    | some _, some _ => []
    | some _, none => granted answer qs

section SetUp

variable [DecidableEq ρ] {answer : ρ → Option ε}

omit [DecidableEq ρ] in
theorem granted_sublist (answer : ρ → Option ε) (qs : List (Request ρ ε ω)) :
    (granted answer qs).Sublist (qs.map Request.resource) := by
  induction qs with
  | nil => exact .slnil
  | cons q qs ih =>
    cases hanswer : answer q.resource with
    | none => simpa [granted, hanswer] using ih
    | some error =>
      cases hgive : q.onRefusal with
      | none => simpa [granted, hanswer, hgive] using ih.cons q.resource
      | some give => simp [granted, hanswer, hgive]

theorem held_setUp (answer : ρ → Option ε) (qs : List (Request ρ ε ω)) (log : List (Event ρ)) :
    held (setUp answer qs log).1 = held log ∪ (granted answer qs).toFinset := by
  induction qs generalizing log with
  | nil => simp [setUp, granted]
  | cons q qs ih =>
    cases hanswer : answer q.resource with
    | none => simp [setUp, granted, hanswer, ih, Finset.insert_union, Finset.union_insert]
    | some error => cases hgive : q.onRefusal <;> simp [setUp, granted, hanswer, hgive, ih]

/-- Resources that are not held are requested. -/
theorem legal_setUp {qs : List (Request ρ ε ω)} {log : List (Event ρ)}
    (hnodup : (qs.map Request.resource).Nodup)
    (hfree : ∀ r ∈ qs.map Request.resource, r ∉ held log) (hlegal : Legal log) :
    Legal (setUp answer qs log).1 := by
  induction qs generalizing log with
  | nil => exact hlegal
  | cons q qs ih =>
    obtain ⟨hq, hnodup⟩ := List.nodup_cons.mp hnodup
    obtain ⟨hhead, hfree⟩ := List.forall_mem_cons.mp hfree
    cases hanswer : answer q.resource with
    | none =>
      simp only [setUp, hanswer]
      refine ih hnodup (fun r hr => ?_) ⟨hhead, hlegal⟩
      have hne : r ≠ q.resource := fun h => hq (h ▸ hr)
      simpa [hne] using hfree r hr
    | some error =>
      cases hgive : q.onRefusal with
      | none =>
        simp only [setUp, hanswer, hgive]
        exact ih hnodup hfree ⟨hhead, hlegal⟩
      | some give =>
        simp only [setUp, hanswer, hgive]
        exact ⟨hhead, hlegal⟩

omit [DecidableEq ρ] in
/-- The set-up comes to its end when no refusal stops it. -/
theorem setUp_eq_none_iff {qs : List (Request ρ ε ω)} {log : List (Event ρ)} :
    (setUp answer qs log).2 = none ↔
      ∀ q ∈ qs, q.onRefusal ≠ none → answer q.resource = none := by
  induction qs generalizing log with
  | nil => simp [setUp]
  | cons q qs ih =>
    rw [List.forall_mem_cons]
    cases hanswer : answer q.resource with
    | none => simp [setUp, hanswer, ih]
    | some error => cases hgive : q.onRefusal <;> simp [setUp, hanswer, hgive, ih]

omit [DecidableEq ρ] in
theorem mem_granted_of_succeeds {qs : List (Request ρ ε ω)}
    (h : ∀ q ∈ qs, q.onRefusal ≠ none → answer q.resource = none) {r : ρ} :
    r ∈ granted answer qs ↔ r ∈ qs.map Request.resource ∧ answer r = none := by
  induction qs with
  | nil => simp [granted]
  | cons q qs ih =>
    obtain ⟨hq, hqs⟩ := List.forall_mem_cons.mp h
    cases hanswer : answer q.resource with
    | none => grind [granted]
    | some error =>
      have hpassed : q.onRefusal = none := by
        by_contra hne
        exact absurd (hq hne) (by simp [hanswer])
      grind [granted]

omit [DecidableEq ρ] in
/-- A set-up that stops keeps what it was granted before. -/
theorem setUp_stops {before : List (Request ρ ε ω)} {q : Request ρ ε ω} {error : ε} {give : ε → ω}
    (after : List (Request ρ ε ω))
    (hbefore : ∀ p ∈ before, p.onRefusal ≠ none → answer p.resource = none)
    (hq : answer q.resource = some error) (hgive : q.onRefusal = some give)
    (log : List (Event ρ)) :
    (setUp answer (before ++ q :: after) log).2 = some (give error) ∧
      granted answer (before ++ q :: after) = granted answer before := by
  induction before generalizing log with
  | nil => simp [setUp, granted, hq, hgive]
  | cons p before ih =>
    obtain ⟨hp, hbefore⟩ := List.forall_mem_cons.mp hbefore
    cases hanswer : answer p.resource with
    | none => simpa [setUp, granted, hanswer] using ih hbefore _
    | some refusal =>
      have hpassed : p.onRefusal = none := by
        by_contra hne
        exact absurd (hp hne) (by simp [hanswer])
      simpa [setUp, granted, hanswer, hpassed] using ih hbefore _

/-- A legal release of several resources gives back each of them once, and they were held. -/
theorem legal_releaseAll_iff {rs : List ρ} {log : List (Event ρ)} :
    Legal (releaseAll rs log) ↔ rs.Nodup ∧ (∀ r ∈ rs, r ∈ held log) ∧ Legal log := by
  induction rs generalizing log with
  | nil => simp [releaseAll]
  | cons r rs ih =>
    rw [releaseAll, ih, List.nodup_cons, List.forall_mem_cons, held_release]
    change _ ∧ _ ∧ r ∈ held log ∧ Legal log ↔ _
    simp only [Finset.mem_erase]
    constructor
    · rintro ⟨hnodup, hrest, hr, hlegal⟩
      exact ⟨⟨fun hmem => (hrest r hmem).1 rfl, hnodup⟩, ⟨hr, fun q hq => (hrest q hq).2⟩, hlegal⟩
    · rintro ⟨⟨hr, hnodup⟩, ⟨hhead, hrest⟩, hlegal⟩
      exact ⟨hnodup, fun q hq => ⟨fun h => hr (h ▸ hq), hrest q hq⟩, hhead, hlegal⟩

end SetUp

/-! ## Lives -/

/-- The event about the resource of a life. -/
def Event.ofLife (life : Nat) : Event ρ → Event (Nat × ρ)
  | .request r granted => .request (life, r) granted
  | .release r => .release (life, r)

/-- The log of lives one after the other, counted from a number on. -/
def livesFrom {α : Type*} (log : α → List (Event ρ)) :
    Nat → List α → List (Event (Nat × ρ)) → List (Event (Nat × ρ))
  | _, [], before => before
  | k, x :: xs, before => livesFrom log (k + 1) xs ((log x).map (Event.ofLife k) ++ before)

def lives {α : Type*} (log : α → List (Event ρ)) (xs : List α) : List (Event (Nat × ρ)) :=
  livesFrom log 0 xs []

section Lives

variable {α : Type*} [DecidableEq ρ]

/-- Whatever is held belongs to one of the first `k` lives. -/
@[grind] def Earlier (k : Nat) (before : List (Event (Nat × ρ))) : Prop :=
  ∀ j r, (j, r) ∈ held before → j < k

/-- A life adds what it leaves, and is as legal as on its own. -/
theorem held_ofLife {k : Nat} {before : List (Event (Nat × ρ))} (hbefore : Earlier k before)
    (log : List (Event ρ)) (j : Nat) (r : ρ) :
    (j, r) ∈ held (log.map (Event.ofLife k) ++ before) ↔
      (j = k ∧ r ∈ held log) ∨ (j, r) ∈ held before := by
  induction log with
  | nil => simp [held]
  | cons e log ih =>
    match e with
    | .request q true => grind [Event.ofLife, held]
    | .request q false => grind [Event.ofLife, held]
    | .release q => grind [Event.ofLife, held]

theorem legal_ofLife {k : Nat} {before : List (Event (Nat × ρ))} (hbefore : Earlier k before)
    (log : List (Event ρ)) :
    Legal (log.map (Event.ofLife k) ++ before) ↔ Legal log ∧ Legal before := by
  have hmem : ∀ log r, (k, r) ∈ held (log.map (Event.ofLife k) ++ before) ↔ r ∈ held log := by
    intro log r
    have hnot : (k, r) ∉ held before := fun h => absurd (hbefore k r h) (lt_irrefl k)
    simp [held_ofLife hbefore, hnot]
  induction log with
  | nil => simp [Legal]
  | cons e log ih =>
    match e with
    | .request q g => exact (and_congr (not_congr (hmem log q)) ih).trans and_assoc.symm
    | .release q => exact (and_congr (hmem log q) ih).trans and_assoc.symm

theorem Earlier.next {k : Nat} {before : List (Event (Nat × ρ))} (h : Earlier k before)
    (log : List (Event ρ)) : Earlier (k + 1) (log.map (Event.ofLife k) ++ before) := by
  intro j r hmem
  rcases (held_ofLife h log j r).mp hmem with ⟨rfl, -⟩ | hold
  · exact Nat.lt_succ_self j
  · exact Nat.lt_succ_of_lt (h j r hold)

theorem livesFrom_spec (log : α → List (Event ρ)) {k : Nat} {before : List (Event (Nat × ρ))}
    (h : Earlier k before) (xs : List α) :
    (∀ j r, (j, r) ∈ held (livesFrom log k xs before) ↔
        (∃ i x, xs[i]? = some x ∧ j = k + i ∧ r ∈ held (log x)) ∨ (j, r) ∈ held before) ∧
      (Legal (livesFrom log k xs before) ↔ (∀ x ∈ xs, Legal (log x)) ∧ Legal before) := by
  induction xs generalizing k before with
  | nil => simp [livesFrom]
  | cons x xs ih =>
    obtain ⟨hheld, hlegal⟩ := ih (h.next (log x))
    constructor
    · intro j r
      rw [livesFrom, hheld, held_ofLife h]
      constructor
      · rintro (⟨i, y, hy, rfl, hr⟩ | ⟨rfl, hr⟩ | hr)
        · exact .inl ⟨i + 1, y, hy, by omega, hr⟩
        · exact .inl ⟨0, x, rfl, rfl, hr⟩
        · exact .inr hr
      · rintro (⟨_ | i, y, hy, rfl, hr⟩ | hr)
        · obtain rfl := Option.some.inj hy
          exact .inr (.inl ⟨rfl, hr⟩)
        · exact .inl ⟨i, y, hy, by omega, hr⟩
        · exact .inr (.inr hr)
    · rw [livesFrom, hlegal, legal_ofLife h, List.forall_mem_cons]
      tauto

/-- Each life leaves what it would leave as the only one. -/
theorem lives_spec (log : α → List (Event ρ)) (xs : List α) :
    (∀ k r, (k, r) ∈ held (lives log xs) ↔ ∃ x, xs[k]? = some x ∧ r ∈ held (log x)) ∧
      (Legal (lives log xs) ↔ ∀ x ∈ xs, Legal (log x)) := by
  have hnone : Earlier (ρ := ρ) 0 [] := fun j r hmem => absurd hmem (Finset.notMem_empty _)
  obtain ⟨hheld, hlegal⟩ := livesFrom_spec log hnone xs
  refine ⟨fun k r => (hheld k r).trans ?_, hlegal.trans (and_iff_left trivial)⟩
  simp [held]

end Lives

end KernelDrivers.Lib
