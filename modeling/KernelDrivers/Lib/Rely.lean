import KernelDrivers.Lib.Code

/-!
# What holds along interrupted code

`Keeps` asks of every statement that it keeps a property from any state that has it. Where a
statement counts on what the call has done before it, the property holds along the code only:
`Safe` follows the code from a state, and between two statements an interrupt may change the
state as a relation allows.
-/

namespace KernelDrivers.Lib

variable {σ ρ κ η ω : Type*}

namespace Code

/-- Every statement keeps `I`, also those behind a state that does not have it. -/
def AlwaysKeeps (I : σ → Prop) : Code σ ρ → Prop
  | .ret _ => True
  | .act f k => (∀ s s', I s → f s = some s' → I s') ∧ ∀ s, (k s).AlwaysKeeps I

theorem AlwaysKeeps.keeps {I : σ → Prop} {c : Code σ ρ} (h : c.AlwaysKeeps I) : c.Keeps I := by
  induction c with
  | ret r => trivial
  | act f k ih => exact fun s hs => ⟨fun s' => h.1 s s' hs, ih s (h.2 s)⟩

theorem alwaysKeeps_ret (I : σ → Prop) (r : ρ) : (ret r : Code σ ρ).AlwaysKeeps I := trivial

theorem alwaysKeeps_assign {I : σ → Prop} {f : σ → σ} {c : Code σ ρ} (hf : ∀ s, I s → I (f s))
    (hc : c.AlwaysKeeps I) : (assign f c).AlwaysKeeps I := by
  refine ⟨?_, fun _ => hc⟩
  rintro s s' hs ⟨⟩
  exact hf s hs

theorem alwaysKeeps_test {I : σ → Prop} {p : σ → Bool} {c d : Code σ ρ} (hc : c.AlwaysKeeps I)
    (hd : d.AlwaysKeeps I) : (test p c d).AlwaysKeeps I := by
  refine ⟨?_, fun s => ?_⟩
  · rintro s s' hs ⟨⟩
    exact hs
  · cases h : p s
    · simpa [h] using hd
    · simpa [h] using hc

/-- From `s` on, every state between the statements has `I`. -/
def Safe (Rely : σ → σ → Prop) (I : σ → Prop) : Code σ ρ → σ → Prop
  | .ret _, s => I s
  | .act f k, s => I s ∧ ∀ s' s'', Rely s s' → f s' = some s'' → (k s').Safe Rely I s''

theorem Safe.now {Rely : σ → σ → Prop} {I : σ → Prop} {c : Code σ ρ} {s : σ}
    (h : c.Safe Rely I s) : I s := by
  cases c with
  | ret r => exact h
  | act f k => exact h.1

/-- An interrupt leaves the code safe. -/
theorem Safe.rely {Rely : σ → σ → Prop} (htrans : ∀ s t u, Rely s t → Rely t u → Rely s u)
    {I : σ → Prop} (hI : ∀ s s', I s → Rely s s' → I s') {c : Code σ ρ} {s s' : σ}
    (h : c.Safe Rely I s) (hs : Rely s s') : c.Safe Rely I s' := by
  cases c with
  | ret r => exact hI s s' h hs
  | act f k => exact ⟨hI s s' h.1 hs, fun t u ht => h.2 t u (htrans s s' t hs ht)⟩

/-- Code that keeps a stronger property is safe from where that one holds. -/
theorem AlwaysKeeps.safe {Rely : σ → σ → Prop} {I J : σ → Prop} (hJI : ∀ s, J s → I s)
    (hJ : ∀ s s', J s → Rely s s' → J s') {c : Code σ ρ} (hc : c.AlwaysKeeps J) {s : σ} (hs : J s) :
    c.Safe Rely I s := by
  induction c generalizing s with
  | ret r => exact hJI s hs
  | act f k ih =>
    refine ⟨hJI s hs, fun s' s'' hrely hf => ?_⟩
    exact ih s' (hc.2 s') (hc.1 s' s'' (hJ s s' hs hrely) hf)

theorem safe_assign {Rely : σ → σ → Prop} {I : σ → Prop} {f : σ → σ} {c : Code σ ρ} {s : σ}
    (hs : I s) (hc : ∀ s', Rely s s' → c.Safe Rely I (f s')) : (assign f c).Safe Rely I s := by
  refine ⟨hs, ?_⟩
  rintro s' s'' hrely ⟨⟩
  exact hc s' hrely

theorem safe_test {Rely : σ → σ → Prop} {I : σ → Prop} {p : σ → Bool} {c d : Code σ ρ} {s : σ}
    (hs : I s) (hc : ∀ s', Rely s s' → p s' = true → c.Safe Rely I s')
    (hd : ∀ s', Rely s s' → p s' = false → d.Safe Rely I s') : (test p c d).Safe Rely I s := by
  refine ⟨hs, ?_⟩
  rintro s' s'' hrely ⟨⟩
  cases h : p s'
  · simpa [h] using hd s' hrely h
  · simpa [h] using hc s' hrely h

end Code

section Interrupted

variable {code : κ → Code σ ρ} {handler : η → σ → Option (σ × ω)}

/-- The pending code always keeps `I`. -/
def Config.AlwaysKeeps (I : σ → Prop) (cfg : Config σ ρ) : Prop :=
  ∀ c, cfg.current = some c → c.AlwaysKeeps I

theorem run_move_alwaysKeeps {I : σ → Prop} (hcode : ∀ c, (code c).AlwaysKeeps I)
    {cfg cfg' : Config σ ρ} {moves : List (Move κ η)} {os : List (Option ω)}
    (hcfg : cfg.AlwaysKeeps I) (hrun : run (move code handler) cfg moves = some (cfg', os)) :
    cfg'.AlwaysKeeps I := by
  refine run_along _ (fun cfg m cfg' o hcfg _ hmove => ?_) hcfg (along_true _ _ _) hrun
  obtain ⟨s, current⟩ := cfg
  cases m with
  | call c =>
    cases current with
    | some d => cases d <;> simp [move] at hmove
    | none =>
      obtain ⟨rfl, -⟩ := by simpa [move] using hmove
      rintro _ ⟨⟩
      exact hcode c
  | step =>
    cases current with
    | none => simp [move] at hmove
    | some d =>
      cases d with
      | ret r =>
        obtain ⟨rfl, -⟩ := by simpa [move] using hmove
        intro c hc
        cases hc
      | act f k =>
        obtain ⟨s', hf, hc⟩ := Option.map_eq_some_iff.mp hmove
        obtain ⟨rfl, -⟩ := Prod.mk.inj hc
        rintro _ ⟨⟩
        exact (hcfg _ rfl).2 s
  | interrupt i =>
    rw [move_interrupt] at hmove
    obtain ⟨⟨s', x⟩, hx, hc⟩ := Option.map_eq_some_iff.mp hmove
    obtain ⟨rfl, -⟩ := Prod.mk.inj hc
    exact hcfg

/-- The state has `I`, and the pending code is safe. -/
def Config.Safe (Rely : σ → σ → Prop) (I : σ → Prop) (cfg : Config σ ρ) : Prop :=
  I cfg.state ∧ ∀ c, cfg.current = some c → c.Safe Rely I cfg.state

/-- Invariant rule: when every call is safe from every state of `I`, and the handler changes the
state as `Rely` allows, `I` holds at every point of every run. -/
theorem run_move_safe {Rely : σ → σ → Prop} (hrefl : ∀ s, Rely s s)
    (htrans : ∀ s t u, Rely s t → Rely t u → Rely s u) {I : σ → Prop}
    (hI : ∀ s s', I s → Rely s s' → I s') (hcode : ∀ c s, I s → (code c).Safe Rely I s)
    (hhandler : ∀ h s s' o, handler h s = some (s', o) → Rely s s') {cfg cfg' : Config σ ρ}
    {moves : List (Move κ η)} {os : List (Option ω)} (hcfg : cfg.Safe Rely I)
    (hrun : run (move code handler) cfg moves = some (cfg', os)) : cfg'.Safe Rely I := by
  refine run_along _ (fun cfg m cfg' o hcfg _ hmove => ?_) hcfg (along_true _ _ _) hrun
  obtain ⟨s, current⟩ := cfg
  obtain ⟨hs, hcurrent⟩ := hcfg
  cases m with
  | call c =>
    cases current with
    | some d => cases d <;> simp [move] at hmove
    | none =>
      obtain ⟨rfl, -⟩ := by simpa [move] using hmove
      refine ⟨hs, ?_⟩
      rintro _ ⟨⟩
      exact hcode c s hs
  | step =>
    cases current with
    | none => simp [move] at hmove
    | some d =>
      cases d with
      | ret r =>
        obtain ⟨rfl, -⟩ := by simpa [move] using hmove
        exact ⟨hs, fun c hc => by cases hc⟩
      | act f k =>
        obtain ⟨s', hf, hc⟩ := Option.map_eq_some_iff.mp hmove
        obtain ⟨rfl, -⟩ := Prod.mk.inj hc
        have hrest := (hcurrent _ rfl).2 s s' (hrefl s) hf
        refine ⟨hrest.now, ?_⟩
        rintro _ ⟨⟩
        exact hrest
  | interrupt i =>
    rw [move_interrupt] at hmove
    obtain ⟨⟨s', x⟩, hx, hc⟩ := Option.map_eq_some_iff.mp hmove
    obtain ⟨rfl, -⟩ := Prod.mk.inj hc
    have hrely := hhandler i s s' x hx
    exact ⟨hI s s' hs hrely, fun c hc => (hcurrent c hc).rely htrans hI hrely⟩

end Interrupted

end KernelDrivers.Lib
