import KernelDrivers.Ws2812.WholeFrames

/-!
# Calls that race

Calls that race leave on an LED any colour whose bits each are the bit of some call, and nothing
else.
-/

namespace KernelDrivers.Ws2812.Interleaved
open Lib

@[simp] theorem startedCalls_append (moves moves' : List (PoolMove Thread)) :
    startedCalls (moves ++ moves') = startedCalls moves ++ startedCalls moves' :=
  List.filterMap_append

theorem startedCalls_start (calls : List Call) :
    startedCalls (calls.map fun call => .start (enter call)) = calls := by
  induction calls with
  | nil => rfl
  | cons call calls ih => exact congrArg (call :: ·) ih

theorem startedCalls_steps (ks : List Nat) :
    startedCalls (ks.map fun k => .step k) = [] := by
  induction ks with
  | nil => rfl
  | cons k ks ih => exact ih

/-- The threads of the calls, each at its place. -/
def placed (calls : List Call) (pc : Nat → Pc) : List Thread :=
  calls.mapIdx fun k call => ⟨call, pc k⟩

section Racing

variable {φ : Type} {d : SymbolDriver φ} {calls : List Call} {pc : Nat → Pc} {s s' : Shared φ}

theorem placed_getElem? {k : Nat} {call : Call} (hk : calls[k]? = some call) :
    (placed calls pc)[k]? = some ⟨call, pc k⟩ := by
  simp [placed, hk]

theorem placed_set {k : Nat} {call : Call} (hk : calls[k]? = some call) (place : Pc) :
    (placed calls pc).set k ⟨call, place⟩ = placed calls (Function.update pc k place) := by
  obtain ⟨hlt, hget⟩ := List.getElem?_eq_some_iff.mp hk
  refine List.ext_getElem? fun m => ?_
  by_cases hm : m = k
  · subst hm
    simp [placed, hlt, hget]
  · simp [placed, List.getElem?_set_ne (Ne.symm hm), Function.update_of_ne hm]

theorem placed_congr {pc' : Nat → Pc} (h : ∀ k < calls.length, pc k = pc' k) :
    placed calls pc = placed calls pc' := by
  refine List.ext_getElem (by simp [placed]) fun k hk _ => ?_
  simpa [placed] using h k (by simpa [placed] using hk)

theorem placed_statement {k : Nat} {call : Call} (hk : calls[k]? = some call) {place : Pc}
    (h : Statement d s ⟨call, pc k⟩ s' ⟨call, place⟩) :
    callsMove d ⟨s, placed calls pc⟩ (.step k) =
      some (⟨s', placed calls (Function.update pc k place)⟩, ()) :=
  poolMove_step_eq_some.mpr
    ⟨_, s', _, placed_getElem? hk, step_of_statement h, by rw [placed_set hk]⟩

/-- All calls start. -/
theorem run_start (d : SymbolDriver φ) (calls : List Call) (s : Shared φ) : ∃ os,
    run (callsMove d) ⟨s, []⟩ (calls.map fun call => .start (enter call)) =
      some (⟨s, placed calls fun _ => .setColor 0⟩, os) := by
  suffices h : ∀ ts : List Thread, ∃ os,
      run (callsMove d) ⟨s, ts⟩ (calls.map fun call => .start (enter call)) =
        some (⟨s, ts ++ calls.map enter⟩, os) by
    obtain ⟨os, hrun⟩ := h []
    have hplaced : calls.map enter = placed calls fun _ => .setColor 0 :=
      List.ext_getElem (by simp [placed]) fun k _ _ => by simp [placed, enter]
    exact ⟨os, by rw [hrun, hplaced]; rfl⟩
  induction calls with
  | nil => exact fun ts => ⟨[], by simp⟩
  | cons call calls ih =>
    intro ts
    obtain ⟨os, hrun⟩ := ih (ts ++ [enter call])
    have hmove : callsMove d ⟨s, ts⟩ (.start (enter call)) =
        some (⟨s, ts ++ [enter call]⟩, ()) :=
      poolMove_start_eq_some.mpr ⟨s, if_pos rfl, rfl⟩
    refine ⟨() :: os, ?_⟩
    rw [List.map_cons, run_cons_of_some _ hmove, hrun]
    simp

/-- Some of the calls store their byte in one column, and the other columns are kept. -/
theorem run_round {j : Fin 24} {ks : List Nat} (hnodup : ks.Nodup)
    (hks : ∀ k ∈ ks, k < calls.length ∧ pc k = .setColor j) : ∃ row os,
    run (callsMove d) ⟨s, placed calls pc⟩ (ks.map fun k => .step k) =
      some (⟨s.setScratch row, placed calls fun k => if k ∈ ks then afterColor j else pc k⟩, os) ∧
    ∀ j' ≠ j, row j' = s.pixels.singleLedData j' := by
  induction ks generalizing pc s with
  | nil => exact ⟨s.pixels.singleLedData, [], by simp [Shared.setScratch], fun _ _ => rfl⟩
  | cons k ks ih =>
    obtain ⟨hk, hnodup⟩ := List.nodup_cons.mp hnodup
    obtain ⟨hlt, hpc⟩ := hks k List.mem_cons_self
    have hget : calls[k]? = some calls[k] := List.getElem?_eq_getElem hlt
    have hstatement := Statement.setColor (d := d) (s := s) calls[k] j
    rw [← hpc] at hstatement
    have hmove := placed_statement hget hstatement
    have hrest : ∀ m ∈ ks, m < calls.length ∧
        Function.update pc k (afterColor j) m = .setColor j := by
      intro m hm
      have hne : m ≠ k := fun h => hk (h ▸ hm)
      rw [Function.update_of_ne hne]
      exact hks m (List.mem_cons_of_mem k hm)
    obtain ⟨row, os, hrun, hkept⟩ := ih hnodup hrest
    refine ⟨row, () :: os, ?_, fun j' hj' => ?_⟩
    · rw [List.map_cons, run_cons_of_some _ hmove, hrun]
      have hplaced : placed calls (fun m => if m ∈ ks then afterColor j
          else Function.update pc k (afterColor j) m) =
          placed calls fun m => if m ∈ k :: ks then afterColor j else pc m := by
        refine placed_congr fun m _ => ?_
        by_cases hm : m = k
        · subst hm
          simp [hk]
        · simp [hm]
      rw [hplaced]
      rfl
    · rw [hkept j' hj']
      simp [Shared.setScratch, hj']

/-- Every call stores its byte in the column, and the chosen one does so last. -/
theorem run_column {j : Fin 24} {last : Call} (hlast : last ∈ calls) (s : Shared φ) :
    ∃ moves row os, startedCalls moves = [] ∧
      run (callsMove d) ⟨s, placed calls fun _ => colorPc j⟩ moves =
        some (⟨s.setScratch row, placed calls fun _ => colorPc (j + 1)⟩, os) ∧
      row j = last.byteAt d j ∧ ∀ j' ≠ j, row j' = s.pixels.singleLedData j' := by
  obtain ⟨k, hk⟩ := List.mem_iff_getElem?.mp hlast
  have hpc : colorPc j = .setColor j := if_pos j.isLt
  rw [hpc, ← afterColor_eq]
  let others := (List.range calls.length).filter (· ≠ k)
  have hothers : ∀ m, m ∈ others ↔ m < calls.length ∧ m ≠ k := by simp [others]
  let pc : Nat → Pc := fun m => if m ∈ others then afterColor j else .setColor j
  obtain ⟨row, os, hrun, hkept⟩ := @run_round _ d calls (fun _ => .setColor j) s j others
    (List.nodup_range.filter _) fun m hm => ⟨((hothers m).mp hm).1, rfl⟩
  have hpck : pc k = .setColor j := if_neg fun h => ((hothers k).mp h).2 rfl
  have hstatement := Statement.setColor (d := d) (s := s.setScratch row) last j
  rw [← hpck] at hstatement
  have hmove := placed_statement hk hstatement
  have hplaced : placed calls (Function.update pc k (afterColor j)) =
      placed calls fun _ => afterColor j := by
    refine placed_congr fun m hm => ?_
    by_cases hmk : m = k
    · subst hmk
      simp
    · rw [Function.update_of_ne hmk]
      exact if_pos ((hothers m).mpr ⟨hm, hmk⟩)
  rw [hplaced] at hmove
  refine ⟨_, Function.update row j (last.byteAt d j), _, ?_,
    run_trans _ hrun (run_singleton _ hmove), by simp, fun j' hj' => ?_⟩
  · rw [startedCalls_append, startedCalls_steps]
    rfl
  · rw [Function.update_of_ne hj']
    exact hkept j' hj'

/-- The loops of `set_color` can leave any choice of the calls' bytes in the scratch row. -/
theorem run_colors {choice : Fin 24 → Call} (hchoice : ∀ j, choice j ∈ calls) (s : Shared φ) :
    ∃ moves row os, startedCalls moves = [] ∧
      run (callsMove d) ⟨s, placed calls fun _ => .setColor 0⟩ moves =
        some (⟨s.setScratch row, placed calls fun _ => .load 0 0⟩, os) ∧
      ∀ j, row j = (choice j).byteAt d j := by
  suffices h : ∀ n ≤ 24, ∃ moves row os, startedCalls moves = [] ∧
      run (callsMove d) ⟨s, placed calls fun _ => .setColor 0⟩ moves =
        some (⟨s.setScratch row, placed calls fun _ => colorPc n⟩, os) ∧
      ∀ j : Fin 24, j.val < n → row j = (choice j).byteAt d j by
    obtain ⟨moves, row, os, hstarted, hrun, hrow⟩ := h 24 le_rfl
    exact ⟨moves, row, os, hstarted, hrun, fun j => hrow j j.isLt⟩
  intro n hn
  induction n with
  | zero =>
    exact ⟨[], s.pixels.singleLedData, [], rfl, rfl, fun j hj => absurd hj (Nat.not_lt_zero _)⟩
  | succ n ih =>
    obtain ⟨moves, row, os, hstarted, hrun, hrow⟩ := ih (by omega)
    obtain ⟨moves', row', os', hstarted', hrun', hnew, hkept⟩ :=
      run_column (j := ⟨n, hn⟩) (hchoice ⟨n, hn⟩) (s.setScratch row)
    refine ⟨moves ++ moves', row', os ++ os', ?_, run_trans _ hrun hrun', fun j hj => ?_⟩
    · rw [startedCalls_append, hstarted, hstarted']
      rfl
    · by_cases hjn : j = ⟨n, hn⟩
      · rw [hjn]
        exact hnew
      · have hne : j.val ≠ n := fun h => hjn (Fin.ext h)
        exact (hkept j hjn).trans (hrow j (by omega))

/-- The calls then finish one after the other, and each row they copy to is the scratch row. -/
theorem run_finish (hon : ∀ call ∈ calls, call.OnStrip) (hfree : s.locked = false) :
    ∃ moves s' os, startedCalls moves = [] ∧
      run (callsMove d) ⟨s, placed calls fun _ => .load 0 0⟩ moves =
        some (⟨s', placed calls fun _ => .returned⟩, os) ∧
      ∀ call ∈ calls, ∀ i, call.Addresses i →
        s'.pixels.ledsPixelData i = s.pixels.singleLedData := by
  suffices h : ∀ n ≤ calls.length, ∃ moves s' os, startedCalls moves = [] ∧
      run (callsMove d) ⟨s, placed calls fun _ => .load 0 0⟩ moves =
        some (⟨s', placed calls fun k => if k < n then .returned else .load 0 0⟩, os) ∧
      s'.locked = false ∧ s'.pixels.singleLedData = s.pixels.singleLedData ∧
      ∀ call ∈ calls.take n, ∀ i, call.Addresses i →
        s'.pixels.ledsPixelData i = s.pixels.singleLedData by
    obtain ⟨moves, s', os, hstarted, hrun, -, -, hrows⟩ := h calls.length le_rfl
    have hplaced : placed calls (fun k => if k < calls.length then .returned else .load 0 0) =
        placed calls fun _ => .returned := placed_congr fun k hk => if_pos hk
    rw [List.take_length] at hrows
    exact ⟨moves, s', os, hstarted, by rw [hrun, hplaced], hrows⟩
  intro n hn
  induction n with
  | zero => exact ⟨[], s, [], rfl, rfl, hfree, rfl, by simp⟩
  | succ n ih =>
    obtain ⟨moves, s₁, os, hstarted, hrun, hfree₁, hscratch, hrows⟩ := ih (by omega)
    have hget : calls[n]? = some calls[n] := List.getElem?_eq_getElem hn
    have halone := alone_finish d (hon calls[n] (List.getElem_mem hn)) hfree₁
    have hthread : (placed calls fun k => if k < n then .returned else .load 0 0)[n]? =
        some (id ⟨calls[n], .load 0 0⟩) := by
      rw [placed_getElem? hget, if_neg (Nat.lt_irrefl n)]
      rfl
    obtain ⟨m, os', hrun'⟩ :=
      @run_alone_at _ _ _ (step d) start (step d) id (step_id d) _ n _ _ hthread halone
    have hplaced : (placed calls fun k => if k < n then .returned else .load 0 0).set n
        ⟨calls[n], .returned⟩ =
        placed calls fun k => if k < n + 1 then .returned else .load 0 0 := by
      rw [placed_set hget]
      refine placed_congr fun k _ => ?_
      grind
    refine ⟨moves ++ List.replicate m (.step n), s₁.finished d calls[n], os ++ os', ?_, ?_, rfl,
      hscratch, fun call hcall i haddr => ?_⟩
    · have hsteps := startedCalls_steps (List.replicate m n)
      rw [List.map_replicate] at hsteps
      rw [startedCalls_append, hstarted, hsteps]
      rfl
    · rw [id, hplaced] at hrun'
      exact run_trans _ hrun hrun'
    · simp only [Shared.finished, Call.painted, hscratch]
      split
      · rfl
      · rw [List.take_add_one, hget] at hcall
        rcases List.mem_append.mp hcall with hcall | hcall
        · exact hrows call hcall i haddr
        · obtain rfl : call = calls[n] := by simpa using hcall
          exact absurd haddr ‹_›

end Racing

/-- Every call that was started has its thread. -/
theorem started_of_run {φ : Type} {d : SymbolDriver φ} {s₀ : Shared φ}
    {moves : List (PoolMove Thread)} {q : Pool (Shared φ) Thread} {os : List Unit}
    (hrun : run (callsMove d) ⟨s₀, []⟩ moves = some (q, os)) :
    q.threads.map Thread.call = startedCalls moves := by
  refine @run_history _ _ _ _ (fun q moves => q.threads.map Thread.call = startedCalls moves) _ rfl
    (fun moves p os move q o _ hp hmove => ?_) _ _ _ hrun
  rw [startedCalls_append, ← hp]
  cases move with
  | start t =>
    obtain ⟨s, -, rfl⟩ := poolMove_start_eq_some.mp hmove
    simp [startedCalls]
  | step k =>
    obtain ⟨t, s, t', ht, hst, rfl⟩ := poolMove_step_eq_some.mp hmove
    have hcall : t'.call = t.call := by
      cases statement_of_step hst <;> rfl
    have hself : (p.threads.map Thread.call)[k]? = some t.call := by simp [ht]
    rw [List.map_set, hcall, set_eq_self hself]
    simp [startedCalls]

/-- What calls that race can leave on an LED that one of them sets: any colour of which each bit
is that bit of the colour of some call, also of one that does not set this LED, and no other. -/
theorem race_leaves_iff {s₀ : Shared Symbol} (hfree : s₀.locked = false) {calls : List Call}
    (hon : ∀ call ∈ calls, call.OnStrip) {i : Fin 16} (haddr : ∃ call ∈ calls, call.Addresses i)
    (row : CArray 24 UInt8) :
    (∃ moves q os, startedCalls moves = calls ∧
      run (callsMove bitBangSymbols) ⟨s₀, []⟩ moves = some (q, os) ∧
      (∀ t ∈ q.threads, t.pc = .returned) ∧ q.shared.pixels.ledsPixelData i = row) ↔
    ∀ j, ∃ call ∈ calls, row j = call.bytes bitBangSymbols j := by
  constructor
  · rintro ⟨moves, q, os, rfl, hrun, hreturned, rfl⟩ j
    obtain ⟨call, hcall, haddr⟩ := haddr
    rw [← started_of_run hrun] at hcall
    obtain ⟨t, ht, rfl⟩ := List.mem_map.mp hcall
    have hstored : t.Stored i j := by
      have hlt := t.call.counterAt_lt i
      have hj := j.isLt
      refine ⟨haddr, ?_⟩
      simp only [Thread.copied, hreturned t ht]
      omega
    obtain ⟨call, hcall, hbyte⟩ := ((stripInv_of_run hrun).knows t ht).rows i j hstored
    exact ⟨call, hcall, hbyte.symm⟩
  · intro hrow
    obtain ⟨call, hcall, haddr⟩ := haddr
    choose choice hchoice hbyte using hrow
    obtain ⟨os₀, hstart⟩ := run_start bitBangSymbols calls s₀
    obtain ⟨moves₁, row', os₁, hstarted₁, hrun₁, hmixed⟩ := run_colors hchoice s₀
    obtain ⟨moves₂, s₂, os₂, hstarted₂, hrun₂, hrows⟩ :=
      run_finish (s := s₀.setScratch row') hon hfree
    refine ⟨_, _, _, ?_, run_trans _ hstart (run_trans _ hrun₁ hrun₂), ?_, ?_⟩
    · rw [startedCalls_append, startedCalls_append, startedCalls_start, hstarted₁, hstarted₂]
      simp
    · intro t ht
      obtain ⟨k, hk⟩ := List.mem_iff_getElem?.mp ht
      simp only [placed, List.getElem?_mapIdx] at hk
      obtain ⟨call', -, rfl⟩ := Option.map_eq_some_iff.mp hk
      rfl
    · rw [hrows call hcall i haddr]
      funext j
      exact (hmixed j).trans (hbyte j).symm

/-- A white write to LED 3 and a reset can leave LED 7 with one bit lit. -/
theorem race_leaves_iff_write_and_reset :
    ∃ moves q os, startedCalls moves = [.write ⟨3, 255, 255, 255⟩, .reset] ∧
      run (callsMove bitBangSymbols) ⟨loaded, []⟩ moves = some (q, os) ∧
      (∀ t ∈ q.threads, t.pc = .returned) ∧
      q.shared.pixels.ledsPixelData 7 = fun j => if j.val = 0 then 1 else 0 := by
  have hon : ∀ call ∈ [.write ⟨3, 255, 255, 255⟩, .reset], Call.OnStrip call := by
    intro call hcall
    rcases List.mem_cons.mp hcall with rfl | hcall
    · exact ⟨by decide, by decide⟩
    · obtain rfl := List.mem_singleton.mp hcall
      trivial
  refine (race_leaves_iff rfl hon ⟨.reset, by simp, trivial⟩ _).mpr fun j => ?_
  by_cases hj : j.val = 0
  · refine ⟨.write ⟨3, 255, 255, 255⟩, by simp, ?_⟩
    obtain rfl : j = ⟨0, by decide⟩ := Fin.ext hj
    decide
  · refine ⟨.reset, by simp, ?_⟩
    rw [bytes_reset]
    exact if_neg hj

end KernelDrivers.Ws2812.Interleaved
