import KernelDrivers.HashTable.Table
import KernelDrivers.Lib.Unwinding

/-!
# Two files on the two minors

The driver stores no table in a file: an operation acts on the table of the last open. So two
files are isolated from each other in the runs where every operation comes while its own minor
was the last one opened, and not in general.
-/

namespace KernelDrivers.HashTable
open Lib

/-- A `DUMP` for whose bucket the search finds no key up to 128. It is refused before a table is
chosen. -/
def RefusedDump (hashMin : Int32 → Fin 128) : Call → Prop
  | .dump arg => 128 < findNbkt hashMin arg.n 1000000 0
  | _ => False

/-- Every operation other than an open and a refused `DUMP` is made on the minor opened last;
`last` is the minor opened last before the list. -/
def Aligned (hashMin : Int32 → Fin 128) : Option Minor → List FileOp → Prop
  | _, [] => True
  | _, (m, .openFile) :: ops => Aligned hashMin (some m) ops
  | last, (m, c) :: ops => (RefusedDump hashMin c ∨ last = some m) ∧ Aligned hashMin last ops

/-- Two files on different minors do not notice each other. -/
structure Isolated (hashMin : Int32 → Fin 128) (ops : List FileOp) : Prop where
  /-- Each file's results are those of the run without the other file's operations. -/
  results : ∃ s replies, run (fileOp hashMin) ht530DrvDriverInit ops = some (s, replies) ∧
    ∀ m, ∃ t, run (fileOp hashMin) ht530DrvDriverInit (ops.filter fun op => op.1 = m) =
      some (t, outputsOf Prod.fst m ops replies)
  /-- An operation on a file of minor `m` changes no other table; its result and its effect
  are the same whatever the other table holds. A release empties table `m`. -/
  ownTable : ∀ before m c after, ops = before ++ (m, c) :: after →
    ∀ s replies, run (fileOp hashMin) ht530DrvDriverInit before = some (s, replies) →
      ∃ s' reply, fileOp hashMin s (m, c) = some (s', reply) ∧
        (∀ m', m' ≠ m → s'.view m' = s.view m') ∧
        (∀ t, t.currentDevNo = s.currentDevNo → t.view m = s.view m →
          ∃ t', fileOp hashMin t (m, c) = some (t', reply) ∧ t'.view m = s'.view m) ∧
        (c = .releaseFile → s'.view m = some fun _ => [])

variable {hashMin : Int32 → Fin 128}

/-! ## The side condition along a run -/

/-- An operation acts on the table of its own minor, if it acts on a table at all. -/
def OnOwnTable (hashMin : Int32 → Fin 128) (s : HtState) (op : FileOp) : Prop :=
  op.2 ≠ .openFile → ¬ RefusedDump hashMin op.2 →
    s.currentDevNo = op.1 ∧ ∃ t, s.view op.1 = some t

theorem fileOp_open (s : HtState) (m : Minor) :
    fileOp hashMin s (m, .openFile) = some (ht530DrvDriverOpen m s, .status 0) := rfl

/-- A refused `DUMP` has one answer, whatever the driver's state, and changes nothing. -/
theorem fileOp_refused {c : Call} (h : RefusedDump hashMin c) :
    ∃ reply, ∀ s m, fileOp hashMin s (m, c) = some (s, reply) := by
  cases c with
  | dump arg =>
    refine ⟨.dumped (-EINVAL) arg, fun s m => ?_⟩
    have hnbkt : findNbkt hashMin arg.n 1000000 0 > 128 := h
    simp only [fileOp, ht530DrvDriverIoctl, hnbkt, if_true, Option.map_some]
  | openFile | writeFile | readFile | releaseFile => exact h.elim

/-- One operation on its own table: the reply and the new table come from `callStep`. -/
theorem fileOp_own (hashMin : Int32 → Fin 128) {s : HtState} {m : Minor} {c : Call}
    (hc : c ≠ .openFile) (hr : ¬ RefusedDump hashMin c)
    (h : OnOwnTable hashMin s (m, c)) : ∃ t s', s.view m = some t ∧
      fileOp hashMin s (m, c) = some (s', (callStep hashMin t c).2) ∧
      s'.currentDevNo = m ∧
      s'.view = Function.update s.view m (some (callStep hashMin t c).1) := by
  obtain ⟨rfl, t, ht⟩ := h hc hr
  obtain ⟨s', hop, hcur, hview⟩ := fileOp_refines ht s.currentDevNo hc
  exact ⟨t, s', ht, hop, hcur, hview⟩

/-- In an aligned run every operation acts on its own table. -/
theorem Aligned.along {last : Option Minor} {ops : List FileOp}
    (h : Aligned hashMin last ops)
    {s : HtState} (hs : ∀ m, last = some m → s.currentDevNo = m ∧ ∃ t, s.view m = some t) :
    Along (fileOp hashMin) (OnOwnTable hashMin) s ops := by
  induction ops generalizing last s with
  | nil => trivial
  | cons op ops ih =>
    obtain ⟨m, c⟩ := op
    by_cases hc : c = .openFile
    · subst hc
      refine ⟨fun hne => absurd rfl hne, fun s' o hop => ?_⟩
      obtain ⟨rfl, -⟩ : ht530DrvDriverOpen m s = s' ∧ _ := by simpa [fileOp_open] using hop
      have htail : Aligned hashMin (some m) ops := h
      refine ih htail ?_
      rintro m' ⟨⟩
      exact ⟨open_currentDevNo m s, _, by rw [open_view, Function.update_self]⟩
    · have hcons : (RefusedDump hashMin c ∨ last = some m) ∧ Aligned hashMin last ops := by
        cases c <;> first | exact absurd rfl hc | exact h
      obtain ⟨hlast, htail⟩ := hcons
      have hown : OnOwnTable hashMin s (m, c) := fun _ hr => hs m (hlast.resolve_left hr)
      refine ⟨hown, fun s' o hop => ih htail ?_⟩
      by_cases hr : RefusedDump hashMin c
      · obtain ⟨reply, hop'⟩ := fileOp_refused hr
        obtain ⟨rfl, -⟩ : s = s' ∧ _ := by simpa [hop'] using hop
        exact hs
      · obtain ⟨t, s₁, ht, hop', hcur, hview⟩ := fileOp_own hashMin hc hr hown
        obtain ⟨rfl, -⟩ : s₁ = s' ∧ _ := by simpa [hop'] using hop
        intro m' hm'
        obtain rfl : m = m' := by simpa [hlast.resolve_left hr] using hm'
        exact ⟨hcur, _, by rw [hview, Function.update_self]⟩

/-! ## Isolation -/

/-- The file of minor `m` cannot tell the two states apart. The second state is one of a run
with operations of that file only, so once the table is initialised `m` is selected. -/
def LooksSame (m : Minor) (s t : HtState) : Prop :=
  s.view m = t.view m ∧ ∀ tbl, t.view m = some tbl → t.currentDevNo = m

theorem looksSame_init (m : Minor) : LooksSame m ht530DrvDriverInit ht530DrvDriverInit := by
  refine ⟨rfl, fun tbl h => ?_⟩
  simp [HtState.view, HtState.tableOf, ht530DrvDriverInit] at h

theorem LooksSame.own {s t : HtState} {op : FileOp} (hown : OnOwnTable hashMin s op)
    (h : LooksSame op.1 s t) : ∃ s' t' o, fileOp hashMin s op = some (s', o) ∧
      fileOp hashMin t op = some (t', o) ∧ LooksSame op.1 s' t' := by
  obtain ⟨m, c⟩ := op
  by_cases hc : c = .openFile
  · subst hc
    refine ⟨_, _, _, fileOp_open s m, fileOp_open t m, ?_, fun _ _ => open_currentDevNo m t⟩
    rw [open_view, open_view, Function.update_self, Function.update_self]
  by_cases hr : RefusedDump hashMin c
  · obtain ⟨reply, hop⟩ := fileOp_refused hr
    exact ⟨s, t, reply, hop s m, hop t m, h⟩
  · obtain ⟨tbl, s', hs, hop, -, hview⟩ := fileOp_own hashMin hc hr hown
    have ht : t.view m = some tbl := h.1.symm.trans hs
    obtain ⟨tbl', t', ht', hop', hcur', hview'⟩ :=
      fileOp_own hashMin (s := t) hc hr fun _ _ => ⟨h.2 tbl ht, tbl, ht⟩
    obtain rfl : tbl = tbl' := Option.some.inj (ht.symm.trans ht')
    refine ⟨s', t', _, hop, hop', ?_, fun _ _ => hcur'⟩
    rw [hview, hview', Function.update_self, Function.update_self]

/-- An operation on its own table leaves the other table's view alone. -/
theorem view_other {s s' : HtState} {op : FileOp} {o : Reply} (hown : OnOwnTable hashMin s op)
    (hop : fileOp hashMin s op = some (s', o)) {m : Minor} (hm : m ≠ op.1) :
    s'.view m = s.view m := by
  obtain ⟨m', c⟩ := op
  by_cases hc : c = .openFile
  · subst hc
    obtain ⟨rfl, -⟩ : ht530DrvDriverOpen m' s = s' ∧ _ := by simpa [fileOp_open] using hop
    rw [open_view, Function.update_of_ne hm]
  by_cases hr : RefusedDump hashMin c
  · obtain ⟨reply, hop'⟩ := fileOp_refused hr
    obtain ⟨rfl, -⟩ : s = s' ∧ _ := by simpa [hop'] using hop
    rfl
  · obtain ⟨_, s₁, -, hop', -, hview⟩ := fileOp_own hashMin hc hr hown
    obtain ⟨rfl, -⟩ : s₁ = s' ∧ _ := by simpa [hop'] using hop
    rw [hview, Function.update_of_ne hm]

/-- An operation on its own table has a result, and reads that table only. -/
theorem reads_own (hashMin : Int32 → Fin 128) {s : HtState} {m : Minor} {c : Call}
    (hown : OnOwnTable hashMin s (m, c)) :
    ∃ s' reply, fileOp hashMin s (m, c) = some (s', reply) ∧
      (∀ t, t.currentDevNo = s.currentDevNo → t.view m = s.view m →
        ∃ t', fileOp hashMin t (m, c) = some (t', reply) ∧ t'.view m = s'.view m) ∧
      (c = .releaseFile → s'.view m = some fun _ => []) := by
  by_cases hc : c = .openFile
  · subst hc
    refine ⟨_, _, fileOp_open s m, fun t _ _ => ⟨_, fileOp_open t m, ?_⟩, nofun⟩
    rw [open_view, open_view, Function.update_self, Function.update_self]
  by_cases hr : RefusedDump hashMin c
  · obtain ⟨reply, hop⟩ := fileOp_refused hr
    refine ⟨s, reply, hop s m, fun t _ ht => ⟨t, hop t m, ht⟩, ?_⟩
    rintro rfl
    exact hr.elim
  · obtain ⟨tbl, s', hs, hop, -, hview⟩ := fileOp_own hashMin hc hr hown
    refine ⟨s', _, hop, fun t hcur ht => ?_, ?_⟩
    · obtain ⟨tbl', t', ht', hop', -, hview'⟩ :=
        fileOp_own hashMin (s := t) hc hr
          fun _ _ => ⟨hcur.trans (hown hc hr).1, tbl, ht.trans hs⟩
      obtain rfl : tbl = tbl' := Option.some.inj ((ht.trans hs).symm.trans ht')
      exact ⟨t', hop', by rw [hview, hview', Function.update_self, Function.update_self]⟩
    · rintro rfl
      rw [hview, Function.update_self]
      rfl

theorem run_defined {s : HtState} {ops : List FileOp}
    (h : Along (fileOp hashMin) (OnOwnTable hashMin) s ops) :
    ∃ t replies, run (fileOp hashMin) s ops = some (t, replies) := by
  induction ops generalizing s with
  | nil => exact ⟨s, [], rfl⟩
  | cons op ops ih =>
    obtain ⟨s', reply, hop, -⟩ := reads_own hashMin (m := op.1) (c := op.2) h.1
    obtain ⟨t, replies, hrun⟩ := ih (h.2 s' reply hop)
    exact ⟨t, _, run_cons_eq_some.mpr ⟨s', reply, replies, hop, hrun, rfl⟩⟩

/-- Aligned runs isolate the two files. -/
theorem isolated_of_aligned (hashMin : Int32 → Fin 128) (ops : List FileOp)
    (h : Aligned hashMin none ops) : Isolated hashMin ops := by
  have hok : Along (fileOp hashMin) (OnOwnTable hashMin) ht530DrvDriverInit ops := h.along nofun
  constructor
  · obtain ⟨s, replies, hrun⟩ := run_defined hok
    refine ⟨s, replies, hrun, fun m => ?_⟩
    exact run_filter (fileOp hashMin) Prod.fst (fun s t op hown hsim => hsim.own hown)
      (fun s t op u s' o hown hu hop hsim => ⟨(view_other hown hop hu).trans hsim.1, hsim.2⟩)
      (looksSame_init m) hok hrun
  · rintro before m c after rfl s replies hrun
    have hown := (hok.of_append _ hrun).1
    obtain ⟨s', reply, hop, hreads, hrelease⟩ := reads_own hashMin hown
    exact ⟨s', reply, hop, fun m' hm' => view_other hown hop hm', hreads, hrelease⟩

/-- One file is closed before the other is opened. -/
theorem isolated_one_after_the_other :
    Isolated (fun k => Fin.ofNat 128 k.toInt.toNat)
      [(0, .openFile), (0, .writeFile ⟨1, 5⟩), (0, .readFile ⟨1, 0⟩), (0, .releaseFile),
        (1, .openFile), (1, .readFile ⟨1, 0⟩), (1, .releaseFile)] :=
  isolated_of_aligned _ _ (by simp [Aligned])

/-- Both devices are opened before either is used, as the test program does. What is written
through the first file goes to the second table. -/
theorem not_isolated_both_open :
    ¬ Isolated (fun _ => 0) [(0, .openFile), (1, .openFile), (0, .writeFile ⟨1, 5⟩),
      (1, .readFile ⟨1, 0⟩)] := by
  rintro ⟨⟨s, replies, hrun, hresults⟩, -⟩
  obtain ⟨t, ht⟩ := hresults 1
  have hrun' : (run (fileOp fun _ => 0) ht530DrvDriverInit [(0, .openFile), (1, .openFile),
      (0, .writeFile ⟨1, 5⟩), (1, .readFile ⟨1, 0⟩)]).map (·.2) =
        some [.status 0, .status 0, .status 1, .object 1 ⟨1, 5⟩] := rfl
  have ht' : (run (fileOp fun _ => 0) ht530DrvDriverInit
      [(1, .openFile), (1, .readFile ⟨1, 0⟩)]).map (·.2) =
        some [.status 0, .object (-EINVAL) ⟨1, -1⟩] := rfl
  obtain rfl : replies = _ := by simpa [hrun] using hrun'
  simp [outputsOf] at ht
  rw [ht] at ht'
  simp at ht'

end KernelDrivers.HashTable
