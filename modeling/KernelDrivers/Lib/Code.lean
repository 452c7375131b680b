import KernelDrivers.Lib.Run

/-!
# Code interrupted between its statements

The body of a call is a tree of statements. A statement takes effect at once, or waits in the
states where it is not enabled; what follows it depends on the state it was executed in. Calls
are made one at a time, and a handler may run between any two statements.
-/

namespace KernelDrivers.Lib

variable {σ ρ κ η ω : Type*}

inductive Code (σ ρ : Type*) where
  | ret (r : ρ)
  /-- Executed in `s`, the statement `f` leaves `f s`, and `k s` follows it. -/
  | act (f : σ → Option σ) (k : σ → Code σ ρ)

namespace Code

/-- A statement that is always enabled. -/
def assign (f : σ → σ) (c : Code σ ρ) : Code σ ρ := .act (fun s => some (f s)) fun _ => c

/-- `if` over the state, as a statement of its own. -/
def test (p : σ → Bool) (c d : Code σ ρ) : Code σ ρ := .act some fun s => if p s then c else d

/-- Executing the code with nothing in between. -/
def exec : Code σ ρ → σ → Option (σ × ρ)
  | .ret r, s => some (s, r)
  | .act f k, s => (f s).bind (k s).exec

@[simp] theorem exec_ret (r : ρ) (s : σ) : (ret r : Code σ ρ).exec s = some (s, r) := rfl

@[simp] theorem exec_assign (f : σ → σ) (c : Code σ ρ) (s : σ) :
    (assign f c).exec s = c.exec (f s) := rfl

@[simp] theorem exec_test (p : σ → Bool) (c d : Code σ ρ) (s : σ) :
    (test p c d).exec s = if p s then c.exec s else d.exec s := by
  cases h : p s <;> simp [test, exec, h]

/-- Every statement of the code keeps `I`. -/
def Keeps (I : σ → Prop) : Code σ ρ → Prop
  | .ret _ => True
  | .act f k => ∀ s, I s → (∀ s', f s = some s' → I s') ∧ (k s).Keeps I

@[simp] theorem keeps_ret (I : σ → Prop) (r : ρ) : (ret r : Code σ ρ).Keeps I := trivial

theorem keeps_assign {I : σ → Prop} {f : σ → σ} {c : Code σ ρ} (hf : ∀ s, I s → I (f s))
    (hc : c.Keeps I) : (assign f c).Keeps I := by
  intro s hs
  refine ⟨?_, hc⟩
  rintro s' ⟨⟩
  exact hf s hs

theorem keeps_test {I : σ → Prop} {p : σ → Bool} {c d : Code σ ρ} (hc : c.Keeps I)
    (hd : d.Keeps I) : (test p c d).Keeps I := by
  intro s hs
  refine ⟨?_, ?_⟩
  · rintro s' ⟨⟩
    exact hs
  · cases h : p s <;> simpa [h]

/-- What every statement keeps, the code keeps when it runs to its end. -/
theorem Keeps.exec {I : σ → Prop} {c : Code σ ρ} (hc : c.Keeps I) {s t : σ} {r : ρ} (hs : I s)
    (h : c.exec s = some (t, r)) : I t := by
  induction c generalizing s with
  | ret r₀ =>
    obtain ⟨rfl, -⟩ : s = t ∧ r₀ = r := by simpa using h
    exact hs
  | act f k ih =>
    obtain ⟨s₁, hf, hk⟩ := Option.bind_eq_some_iff.mp h
    obtain ⟨hstep, hrest⟩ := hc s hs
    exact ih s hrest (hstep s₁ hf) hk

/-- Executing statements of the code leads from `s` before `c` to `t` before `d`. -/
inductive Steps : σ → Code σ ρ → σ → Code σ ρ → Prop
  | refl (s : σ) (c : Code σ ρ) : Steps s c s c
  | head {s s' t : σ} {f : σ → Option σ} {k : σ → Code σ ρ} {d : Code σ ρ} :
      f s = some s' → Steps s' (k s) t d → Steps s (.act f k) t d

/-- Code that runs to its end passes through its statements. -/
theorem Steps.of_exec {c : Code σ ρ} {s s' : σ} {r : ρ} (h : c.exec s = some (s', r)) :
    Steps s c s' (.ret r) := by
  induction c generalizing s with
  | ret r₀ =>
    obtain ⟨rfl, rfl⟩ : s = s' ∧ r₀ = r := by simpa using h
    exact .refl s _
  | act f k ih =>
    obtain ⟨s₁, hf, hk⟩ := Option.bind_eq_some_iff.mp h
    exact .head hf (ih s hk)

/-- Started in a state of `J`, the code runs to its end and ends in one. -/
def Ends (J : σ → Prop) (c : Code σ ρ) : Prop :=
  ∀ s, J s → ∃ s' r, c.exec s = some (s', r) ∧ J s'

theorem ends_ret (J : σ → Prop) (r : ρ) : (ret r : Code σ ρ).Ends J := fun s hs => ⟨s, r, rfl, hs⟩

theorem ends_assign {J : σ → Prop} {f : σ → σ} {c : Code σ ρ} (hf : ∀ s, J s → J (f s))
    (hc : c.Ends J) : (assign f c).Ends J :=
  fun s hs => hc (f s) (hf s hs)

theorem ends_test {J : σ → Prop} {p : σ → Bool} {c d : Code σ ρ} (hc : c.Ends J)
    (hd : d.Ends J) : (test p c d).Ends J := by
  intro s hs
  cases h : p s
  · simpa [h] using hd s hs
  · simpa [h] using hc s hs

end Code

/-! ## Calls and interrupts -/

/-- The state, and what is left of the call in progress. -/
structure Config (σ ρ : Type*) where
  state : σ
  current : Option (Code σ ρ)

inductive Move (κ η : Type*) where
  | call (c : κ)
  | step
  | interrupt (h : η)

/-- The calls a list of moves makes. -/
def callsOf (moves : List (Move κ η)) : List κ :=
  moves.filterMap fun
    | .call c => some c
    | _ => none

@[simp] theorem callsOf_nil : callsOf ([] : List (Move κ η)) = [] := rfl
@[simp] theorem callsOf_call (c : κ) (moves : List (Move κ η)) :
    callsOf (.call c :: moves) = c :: callsOf moves := rfl
@[simp] theorem callsOf_step (moves : List (Move κ η)) :
    callsOf (.step :: moves) = callsOf moves := rfl
@[simp] theorem callsOf_interrupt (h : η) (moves : List (Move κ η)) :
    callsOf (.interrupt h :: moves) = callsOf moves := rfl
@[simp] theorem callsOf_append (moves moves' : List (Move κ η)) :
    callsOf (moves ++ moves') = callsOf moves ++ callsOf moves' :=
  List.filterMap_append

section Interrupted

variable (code : κ → Code σ ρ) (handler : η → σ → Option (σ × ω))

/-- A call starts when none is in progress. An interrupt is handled at any time the handler
can run, and answers with what the handler observed. -/
def move : Config σ ρ → Move κ η → Option (Config σ ρ × Option ω)
  | ⟨s, none⟩, .call c => some (⟨s, some (code c)⟩, none)
  | ⟨s, some (.ret _)⟩, .step => some (⟨s, none⟩, none)
  | ⟨s, some (.act f k)⟩, .step => (f s).map fun s' => (⟨s', some (k s)⟩, none)
  | ⟨s, current⟩, .interrupt h => (handler h s).map fun (s', o) => (⟨s', current⟩, some o)
  | _, _ => none

theorem move_interrupt (cfg : Config σ ρ) (h : η) : move code handler cfg (.interrupt h) =
    (handler h cfg.state).map fun (s', o) => (⟨s', cfg.current⟩, some o) := by
  obtain ⟨s, _ | _ | _⟩ := cfg <;> rfl

/-- A configuration whose state satisfies `I` and whose pending code keeps it. -/
def Config.Keeps (I : σ → Prop) (cfg : Config σ ρ) : Prop :=
  I cfg.state ∧ ∀ c, cfg.current = some c → c.Keeps I

variable {code handler}

theorem move_keeps {I : σ → Prop} {P : ω → Prop}
    (hhandler : ∀ h s s' o, I s → handler h s = some (s', o) → I s' ∧ P o)
    {cfg cfg' : Config σ ρ} {m : Move κ η} {o : Option ω}
    (hcode : ∀ c ∈ callsOf [m], (code c).Keeps I) (hcfg : cfg.Keeps I)
    (h : move code handler cfg m = some (cfg', o)) :
    cfg'.Keeps I ∧ ∀ x, o = some x → P x := by
  obtain ⟨s, current⟩ := cfg
  obtain ⟨hI, hcur⟩ := hcfg
  cases m with
  | call c =>
    cases current with
    | some d => cases d <;> simp [move] at h
    | none =>
      obtain ⟨rfl, rfl⟩ := by simpa [move] using h
      refine ⟨⟨hI, ?_⟩, nofun⟩
      rintro _ ⟨⟩
      exact hcode c (by simp)
  | step =>
    cases current with
    | none => simp [move] at h
    | some d =>
      cases d with
      | ret r =>
        obtain ⟨rfl, rfl⟩ := by simpa [move] using h
        exact ⟨⟨hI, nofun⟩, nofun⟩
      | act f k =>
        obtain ⟨s', hf, hc⟩ := Option.map_eq_some_iff.mp h
        obtain ⟨rfl, rfl⟩ := Prod.mk.inj hc
        obtain ⟨hstep, hrest⟩ := hcur _ rfl s hI
        refine ⟨⟨hstep s' hf, ?_⟩, nofun⟩
        rintro _ ⟨⟩
        exact hrest
  | interrupt i =>
    rw [move_interrupt] at h
    obtain ⟨⟨s', x⟩, hx, hc⟩ := Option.map_eq_some_iff.mp h
    obtain ⟨rfl, rfl⟩ := Prod.mk.inj hc
    obtain ⟨hI', hP⟩ := hhandler i s s' x hI hx
    refine ⟨⟨hI', hcur⟩, ?_⟩
    rintro _ ⟨⟩
    exact hP

/-- Invariant rule: when the code of every call made and the handler keep `I`, every handler
run of the whole run starts from it. -/
theorem run_move_keeps {I : σ → Prop} {P : ω → Prop}
    (hhandler : ∀ h s s' o, I s → handler h s = some (s', o) → I s' ∧ P o)
    {cfg cfg' : Config σ ρ} {moves : List (Move κ η)} {os : List (Option ω)}
    (hcode : ∀ c ∈ callsOf moves, (code c).Keeps I) (hcfg : cfg.Keeps I)
    (hrun : run (move code handler) cfg moves = some (cfg', os)) :
    cfg'.Keeps I ∧ ∀ x, some x ∈ os → P x := by
  induction moves generalizing cfg os with
  | nil =>
    obtain ⟨rfl, rfl⟩ : cfg = cfg' ∧ [] = os := by simpa using hrun
    exact ⟨hcfg, by simp⟩
  | cons m moves ih =>
    obtain ⟨cfg₁, o, os', hm, htail, rfl⟩ := run_cons_eq_some.mp hrun
    have hsplit : callsOf (m :: moves) = callsOf [m] ++ callsOf moves :=
      callsOf_append [m] moves
    rw [hsplit] at hcode
    obtain ⟨hcfg₁, ho⟩ := move_keeps hhandler
      (fun c hc => hcode c (List.mem_append_left _ hc)) hcfg hm
    obtain ⟨hcfg', hos⟩ := ih (fun c hc => hcode c (List.mem_append_right _ hc)) hcfg₁ htail
    refine ⟨hcfg', fun x hx => ?_⟩
    rcases List.mem_cons.mp hx with h | h
    · exact ho x h.symm
    · exact hos x h

variable (code handler)

/-- The statements of a call can be executed with no interrupt in between. -/
theorem Code.Steps.run {s t : σ} {c d : Code σ ρ} (h : Code.Steps s c t d) :
    ∃ moves os, callsOf moves = [] ∧
      Lib.run (move code handler) ⟨s, some c⟩ moves = some (⟨t, some d⟩, os) := by
  induction h with
  | refl s c => exact ⟨[], [], rfl, rfl⟩
  | @head s s' t f k d hf _ ih =>
    obtain ⟨moves, os, hcalls, hrun⟩ := ih
    refine ⟨.step :: moves, none :: os, by simpa using hcalls, ?_⟩
    exact run_cons_eq_some.mpr ⟨_, none, os, by simp [move, hf], hrun, rfl⟩

/-- Calls can be made one after the other to their ends, when each of them ends from every
state in which the one before it may leave the system. -/
theorem run_calls {J : σ → Prop} (calls : List κ)
    (hends : ∀ c ∈ calls, (code c).Ends J)
    {s : σ} (hs : J s) :
    ∃ moves s' os, callsOf moves = calls ∧ J s' ∧
      run (move code handler) ⟨s, none⟩ moves = some (⟨s', none⟩, os) := by
  induction calls generalizing s with
  | nil => exact ⟨[], s, [], rfl, hs, rfl⟩
  | cons c calls ih =>
    obtain ⟨s₁, r, hc, hs₁⟩ := hends c (by simp) s hs
    obtain ⟨steps, os₁, hcalls₁, hsteps⟩ :=
      (Code.Steps.of_exec hc).run code handler
    obtain ⟨moves, s', os, hcalls, hs', hrun⟩ := ih (fun d hd => hends d (by simp [hd])) hs₁
    refine ⟨[.call c] ++ (steps ++ ([.step] ++ moves)), s', _, ?_, hs',
      run_trans _ (run_singleton _ rfl)
        (run_trans _ hsteps (run_trans _ (run_singleton _ rfl) hrun))⟩
    simp [hcalls₁, hcalls]

end Interrupted

end KernelDrivers.Lib
