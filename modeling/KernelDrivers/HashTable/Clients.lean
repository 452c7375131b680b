import KernelDrivers.HashTable.Sessions

/-!
# Several processes on one device

The tables belong to the device. A file sees the entries another file has written, and loses
all of them when another process opens the device, which initialises the table of the files
already open, or releases it, which empties that table.
-/

namespace KernelDrivers.HashTable
open Lib

variable {hashMin : Int32 → Fin 128}

/-- An open and a release leave an empty table. -/
def Call.empties : Call → Bool
  | .openFile | .releaseFile => true
  | _ => false

/-- Nobody writes the key and the file stays open. -/
def Undisturbed (id : Nat) (m : Minor) (k : Int32) (ops : List SessionOp) : Prop :=
  ∀ op ∈ ops, op ≠ (id, m, .releaseFile) ∧ ∀ d, op.2.2 ≠ .writeFile ⟨k, d⟩

theorem contents_callStep {t : ObjectTable} (h : TableInv hashMin t) {k : Int32} {c : Call}
    (hc : ∀ d, c ≠ .writeFile ⟨k, d⟩) :
    contents hashMin (callStep hashMin t c).1 k =
      if c.empties then none else contents hashMin t k := by
  cases c with
  | openFile => rfl
  | writeFile obj =>
    have hk : k ≠ obj.key := by
      rintro rfl
      exact hc obj.data rfl
    rw [contents_write h, Function.update_of_ne hk]
    rfl
  | readFile buf => rfl
  | dump arg => rfl
  | releaseFile => rfl

/-- An operation that does not write the key keeps the entry or empties the table. -/
theorem entry_step {s s' : Session} {op : SessionOp} {reply : Reply}
    (h : s.WellFormed hashMin) (hop : sessionOp hashMin s op = some (s', reply)) {k : Int32}
    (hk : ∀ d, op.2.2 ≠ .writeFile ⟨k, d⟩) :
    s'.entry hashMin k = if op.2.2.empties then none else s.entry hashMin k := by
  cases sessionOp_cases h hop with
  | opened id m hnew =>
    rw [Session.entry, open_currentDevNo, open_view, Function.update_self]
    rfl
  | called id m c t s₁ hc hfile ht hop₁ hcur hview =>
    have hbefore : s.entry hashMin k = contents hashMin t k := by
      rw [Session.entry, ht, Option.bind_some]
    rw [hbefore, Session.entry, hcur, hview, Function.update_self, Option.bind_some]
    exact contents_callStep (h.tables _ t ht) hk

/-- A file stays open until it is released. -/
theorem stays_open {s s' : Session} {op : SessionOp} {reply : Reply}
    (hop : sessionOp hashMin s op = some (s', reply)) {id : Nat} {m : Minor}
    (hfile : (id, m) ∈ s.files) (hne : op ≠ (id, m, .releaseFile)) : (id, m) ∈ s'.files := by
  obtain ⟨-, t, -, rfl⟩ := sessionOp_eq_some.mp hop
  obtain ⟨id', m', c⟩ := op
  cases c with
  | openFile => exact List.mem_cons_of_mem _ hfile
  | writeFile obj => exact hfile
  | readFile buf => exact hfile
  | dump arg => exact hfile
  | releaseFile =>
    have hfile' : (id, m) ≠ (id', m') := by
      intro h
      obtain ⟨rfl, rfl⟩ := Prod.mk.inj h
      exact hne rfl
    exact (List.mem_erase_of_ne hfile').mpr hfile

/-- While nobody writes the key, the entry is what it was unless the table was emptied. -/
theorem entry_run {s s' : Session} {ops : List SessionOp} {replies : List Reply}
    (h : s.WellFormed hashMin) (hrun : run (sessionOp hashMin) s ops = some (s', replies))
    {id : Nat} {m : Minor} {k : Int32} (hops : Undisturbed id m k ops)
    (hfile : (id, m) ∈ s.files) :
    s'.WellFormed hashMin ∧ (id, m) ∈ s'.files ∧ s'.entry hashMin k =
      if ops.any fun op => op.2.2.empties then none else s.entry hashMin k := by
  induction ops generalizing s replies with
  | nil =>
    obtain ⟨rfl, -⟩ : s = s' ∧ [] = replies := by simpa using hrun
    exact ⟨h, hfile, rfl⟩
  | cons op ops ih =>
    obtain ⟨s₁, reply, replies', hop, htail, -⟩ := run_cons_eq_some.mp hrun
    obtain ⟨hne, hk⟩ := hops op List.mem_cons_self
    obtain ⟨hs', hfile', hentry⟩ := ih (h.step hop) htail
      (fun op' hop' => hops op' (List.mem_cons_of_mem op hop')) (stays_open hop hfile hne)
    refine ⟨hs', hfile', hentry.trans ?_⟩
    rw [entry_step h hop hk, List.any_cons]
    cases op.2.2.empties with
    | false => rfl
    | true => simp

/-- A write of nonzero data stores the entry. -/
theorem entry_written {s s' : Session} {id : Nat} {m : Minor} {obj : HtObject} {reply : Reply}
    (h : s.WellFormed hashMin)
    (hop : sessionOp hashMin s (id, m, .writeFile obj) = some (s', reply))
    (hd : obj.data ≠ 0) :
    (id, m) ∈ s'.files ∧ s'.entry hashMin obj.key = some obj.data := by
  cases sessionOp_cases h hop with
  | called _ _ _ t s₁ hc hfile ht hop₁ hcur hview =>
    refine ⟨hfile, ?_⟩
    rw [Session.entry, hcur, hview, Function.update_self, Option.bind_some,
      contents_write (h.tables _ t ht), Function.update_self, if_neg hd]

/-- A read through an open file answers the entry of its key. -/
theorem session_read {s : Session} {id : Nat} {m : Minor} (h : s.WellFormed hashMin)
    (hfile : (id, m) ∈ s.files) (buf : HtObject) :
    sessionOp hashMin s (id, m, .readFile buf) =
      some (s, .object (answer (s.entry hashMin buf.key) buf).1
        (answer (s.entry hashMin buf.key) buf).2) := by
  have hallows : s.Allows (id, m, .readFile buf) := hfile
  obtain ⟨t, ht⟩ := h.finds hallows nofun
  obtain ⟨tbl, htbl, rfl⟩ := Option.map_eq_some_iff.mp ht
  have hentry : s.entry hashMin buf.key = contents hashMin tbl.objects buf.key := by
    rw [Session.entry, ht, Option.bind_some]
  have hread : ht530DrvDriverRead hashMin buf s.state =
      some (s.state, answer (s.entry hashMin buf.key) buf) := by
    simp [ht530DrvDriverRead, htbl, readTable_eq, readChain_eq (h.tables _ _ ht), hentry]
  refine sessionOp_eq_some.mpr ⟨hfile, s.state, ?_, rfl⟩
  simp [fileOp, hread]

/-- An entry written through a file is what a later read through that file answers, as long as
nobody writes its key and the file stays open, exactly when nobody opens or releases the device
in between. -/
theorem entry_kept_iff {before between : List SessionOp} {id : Nat} {m : Minor}
    {k d : Int32} {s : Session} {replies : List Reply}
    (hrun : run (sessionOp hashMin) sessionInit
      (before ++ (id, m, .writeFile ⟨k, d⟩) :: between) = some (s, replies))
    (hd : d ≠ 0) (hbetween : Undisturbed id m k between) (x : Int32) :
    (∃ s', sessionOp hashMin s (id, m, .readFile ⟨k, x⟩) = some (s', .object 1 ⟨k, d⟩)) ↔
      ∀ op ∈ between, op.2.2 ≠ .openFile ∧ op.2.2 ≠ .releaseFile := by
  rw [run_append] at hrun
  obtain ⟨⟨s₀, replies₀⟩, hbefore, hrest⟩ := Option.bind_eq_some_iff.mp hrun
  obtain ⟨⟨s₁, replies₁⟩, hafter, he⟩ := Option.map_eq_some_iff.mp hrest
  obtain ⟨rfl, -⟩ := Prod.mk.inj he
  obtain ⟨s₂, reply, replies₂, hwrite, htail, -⟩ := run_cons_eq_some.mp hafter
  have hs₀ : s₀.WellFormed hashMin := wellFormed_run hbefore
  obtain ⟨hfile₂, hentry₂⟩ := entry_written hs₀ hwrite hd
  obtain ⟨hs₁, hfile₁, hentry₁⟩ := entry_run (hs₀.step hwrite) htail hbetween hfile₂
  have hempties : (between.any fun op => op.2.2.empties) = false ↔
      ∀ op ∈ between, op.2.2 ≠ .openFile ∧ op.2.2 ≠ .releaseFile := by
    rw [List.any_eq_false]
    refine forall₂_congr fun op _ => ?_
    cases op.2.2 <;> simp [Call.empties]
  have hread := session_read hs₁ hfile₁ ⟨k, x⟩
  rw [hentry₁, hentry₂] at hread
  rw [← hempties, hread]
  cases between.any fun op => op.2.2.empties with
  | false => simp [answer]
  | true => simp [answer, EINVAL]

/-- Two clients of the first device. What the first writes is there after the second has written
and read. -/
theorem entry_kept_iff_two_clients :
    ∃ s replies, run (sessionOp hashMin7) sessionInit ([(0, 0, .openFile), (1, 0, .openFile)] ++
        (0, 0, .writeFile ⟨1, 5⟩) :: [(1, 0, .writeFile ⟨2, 7⟩), (1, 0, .readFile ⟨1, 0⟩)]) =
      some (s, replies) ∧
      ∃ s', sessionOp hashMin7 s (0, 0, .readFile ⟨1, 0⟩) = some (s', .object 1 ⟨1, 5⟩) := by
  obtain ⟨s, replies, hrun⟩ : ∃ s replies, run (sessionOp hashMin7) sessionInit
      ([(0, 0, .openFile), (1, 0, .openFile)] ++
        (0, 0, .writeFile ⟨1, 5⟩) :: [(1, 0, .writeFile ⟨2, 7⟩), (1, 0, .readFile ⟨1, 0⟩)]) =
      some (s, replies) := ⟨_, _, rfl⟩
  exact ⟨s, replies, hrun, (entry_kept_iff hrun (by decide) (by simp [Undisturbed]) 0).mpr
    (by simp)⟩

/-- Entries written on a device are lost by no open and no release of another process. -/
def EntriesKept (hashMin : Int32 → Fin 128) (m : Minor) : Prop :=
  ∀ (before between : List SessionOp) (id : Nat) (k d : Int32) (s : Session)
    (replies : List Reply), (∀ op ∈ before ++ between, op.2.1 = m) →
    run (sessionOp hashMin) sessionInit
      (before ++ (id, m, .writeFile ⟨k, d⟩) :: between) = some (s, replies) →
    d ≠ 0 → Undisturbed id m k between → ∀ x,
    ∃ s', sessionOp hashMin s (id, m, .readFile ⟨k, x⟩) = some (s', .object 1 ⟨k, d⟩)

/-- The second client's open empties the table under the first client's file. -/
theorem not_entriesKept : ¬ EntriesKept hashMin7 0 := by
  intro h
  obtain ⟨s, replies, hrun⟩ : ∃ s replies, run (sessionOp hashMin7) sessionInit
      ([(0, 0, .openFile)] ++ (0, 0, .writeFile ⟨1, 5⟩) :: [(1, 0, .openFile)]) =
      some (s, replies) := ⟨_, _, rfl⟩
  obtain ⟨s', hread⟩ := h _ _ 0 1 5 s replies (by simp) hrun (by decide)
    (by simp [Undisturbed]) 0
  have hreply : ((run (sessionOp hashMin7) sessionInit
      ([(0, 0, .openFile)] ++ (0, 0, .writeFile ⟨1, 5⟩) :: [(1, 0, .openFile)])).bind fun r =>
        (sessionOp hashMin7 r.1 (0, 0, .readFile ⟨1, 0⟩)).map Prod.snd) =
      some (.object (-EINVAL) ⟨1, -1⟩) := rfl
  rw [hrun, Option.bind_some, hread] at hreply
  simp [EINVAL] at hreply

end KernelDrivers.HashTable
