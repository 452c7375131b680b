import KernelDrivers.HashTable.FiniteMap
import KernelDrivers.HashTable.Minors

/-!
# Runs with any number of files

A file is opened on a minor, used, and released once. A session is the driver together with
the files that are open on it. The driver does not look at the file: a call through any file
acts on the table of the last open, whichever file made it. While a file is open that table is
initialised, and every initialised table is well formed. This holds for every bucket function;
`hashMin7` is the one of the kernel.
-/

namespace KernelDrivers.HashTable
open Lib

def GOLDEN_RATIO_PRIME_32 : UInt32 := 0x9e370001

/-- `hash_32` of the kernel: the high bits of the product. -/
def hash32 (val bits : UInt32) : UInt32 := (val * GOLDEN_RATIO_PRIME_32) >>> (32 - bits)

theorem hash32_lt (val : UInt32) : (hash32 val 7).toNat < 128 := by
  have hbits : (32 - 7 : UInt32) = 25 := rfl
  have hlt := (val * GOLDEN_RATIO_PRIME_32).toNat_lt
  rw [hash32, hbits, UInt32.toNat_shiftRight, Nat.shiftRight_eq_div_pow]
  simp
  omega

/-- `hash_min(key, 7)`. -/
def hashMin7 (key : Int32) : Fin 128 := ⟨(hash32 key.toUInt32 7).toNat, hash32_lt _⟩

/-- The driver and the files open on it, each with the minor it was opened on. -/
structure Session where
  state : HtState
  files : List (Nat × Minor)

/-- A call through the file with the given number. -/
abbrev SessionOp := Nat × FileOp

def sessionInit : Session := ⟨ht530DrvDriverInit, []⟩

/-- A file is opened under a number that is not in use, and used on the minor it was opened on. -/
def Session.Allows (s : Session) : SessionOp → Prop
  | (id, _, .openFile) => id ∉ s.files.map Prod.fst
  | (id, m, _) => (id, m) ∈ s.files

instance (s : Session) : (op : SessionOp) → Decidable (s.Allows op)
  | (id, _, .openFile) => inferInstanceAs (Decidable (id ∉ s.files.map Prod.fst))
  | (id, m, .writeFile _) => inferInstanceAs (Decidable ((id, m) ∈ s.files))
  | (id, m, .readFile _) => inferInstanceAs (Decidable ((id, m) ∈ s.files))
  | (id, m, .dump _) => inferInstanceAs (Decidable ((id, m) ∈ s.files))
  | (id, m, .releaseFile) => inferInstanceAs (Decidable ((id, m) ∈ s.files))

def Session.filesAfter (s : Session) : SessionOp → List (Nat × Minor)
  | (id, m, .openFile) => (id, m) :: s.files
  | (id, m, .releaseFile) => s.files.erase (id, m)
  | _ => s.files

def sessionOp (hashMin : Int32 → Fin 128) (s : Session) (op : SessionOp) :
    Option (Session × Reply) :=
  if s.Allows op then
    (fileOp hashMin s.state op.2).map fun (t, reply) => (⟨t, s.filesAfter op⟩, reply)
  else none

/-- The data stored under a key in the table that is selected. -/
def Session.entry (hashMin : Int32 → Fin 128) (s : Session) (k : Int32) : Option Int32 :=
  (s.state.view s.state.currentDevNo).bind fun t => contents hashMin t k

variable {hashMin : Int32 → Fin 128}

theorem sessionOp_eq_some {s s' : Session} {op : SessionOp} {reply : Reply} :
    sessionOp hashMin s op = some (s', reply) ↔
      s.Allows op ∧ ∃ t, fileOp hashMin s.state op.2 = some (t, reply) ∧
        s' = ⟨t, s.filesAfter op⟩ := by
  unfold sessionOp
  by_cases hallows : s.Allows op
  · simp only [hallows, if_true, true_and, Option.map_eq_some_iff, Prod.exists]
    constructor
    · rintro ⟨t, reply', hop, he⟩
      obtain ⟨rfl, rfl⟩ := Prod.mk.inj he
      exact ⟨t, hop, rfl⟩
    · rintro ⟨t, hop, rfl⟩
      exact ⟨t, reply, hop, rfl⟩
  · simp [hallows]

/-! ## What a call needs and keeps -/

/-- The table selected is initialised while a file is open, and every initialised table is well
formed. -/
structure Session.WellFormed (hashMin : Int32 → Fin 128) (s : Session) : Prop where
  selected : s.files ≠ [] → ∃ t, s.state.view s.state.currentDevNo = some t
  tables : ∀ m t, s.state.view m = some t → TableInv hashMin t

theorem wellFormed_init : sessionInit.WellFormed hashMin where
  selected h := absurd rfl h
  tables m t h := by
    simp [sessionInit, HtState.view, HtState.tableOf, ht530DrvDriverInit] at h

theorem TableInv.callStep {t : ObjectTable} (h : TableInv hashMin t) (c : Call) :
    TableInv hashMin (callStep hashMin t c).1 := by
  cases c with
  | openFile => exact tableInv_empty
  | writeFile obj => exact h.write obj
  | readFile buf => exact h
  | dump arg => exact h
  | releaseFile => exact tableInv_empty

/-- A call through an open file finds a table to act on. -/
theorem Session.WellFormed.finds {s : Session} (h : s.WellFormed hashMin) {op : SessionOp}
    (hallows : s.Allows op) (hc : op.2.2 ≠ .openFile) :
    ∃ t, s.state.view s.state.currentDevNo = some t := by
  obtain ⟨id, m, c⟩ := op
  refine h.selected fun hnone => ?_
  cases c <;> simp_all [Session.Allows]

/-- What an allowed operation does to the tables and the open files. -/
inductive SessionStep (hashMin : Int32 → Fin 128) (s : Session) :
    SessionOp → Session → Reply → Prop
  | opened (id : Nat) (m : Minor) (hnew : id ∉ s.files.map Prod.fst) :
    SessionStep hashMin s (id, m, .openFile)
      ⟨ht530DrvDriverOpen m s.state, (id, m) :: s.files⟩ (.status 0)
  | called (id : Nat) (m : Minor) (c : Call) (t : ObjectTable) (s' : HtState)
    (hc : c ≠ .openFile) (hfile : (id, m) ∈ s.files)
    (ht : s.state.view s.state.currentDevNo = some t)
    (hop : fileOp hashMin s.state (m, c) = some (s', (callStep hashMin t c).2))
    (hcur : s'.currentDevNo = s.state.currentDevNo)
    (hview : s'.view = Function.update s.state.view s.state.currentDevNo
      (some (callStep hashMin t c).1)) :
    SessionStep hashMin s (id, m, c) ⟨s', s.filesAfter (id, m, c)⟩ (callStep hashMin t c).2

theorem allows_call {s : Session} {id : Nat} {m : Minor} {c : Call} (hc : c ≠ .openFile) :
    s.Allows (id, m, c) ↔ (id, m) ∈ s.files := by
  cases c <;> first | exact absurd rfl hc | exact Iff.rfl

theorem sessionOp_cases {s s' : Session} {op : SessionOp} {reply : Reply}
    (h : s.WellFormed hashMin) (hop : sessionOp hashMin s op = some (s', reply)) :
    SessionStep hashMin s op s' reply := by
  obtain ⟨hallows, t, hfile, rfl⟩ := sessionOp_eq_some.mp hop
  obtain ⟨id, m, c⟩ := op
  by_cases hc : c = .openFile
  · subst hc
    obtain ⟨rfl, rfl⟩ : ht530DrvDriverOpen m s.state = t ∧ .status 0 = reply := by
      simpa [fileOp_open] using hfile
    exact .opened id m hallows
  · obtain ⟨tbl, htbl⟩ := h.finds hallows hc
    obtain ⟨s₁, hop₁, hcur, hview⟩ := @fileOp_refines hashMin _ _ htbl m _ hc
    obtain ⟨rfl, rfl⟩ : s₁ = t ∧ (callStep hashMin tbl c).2 = reply := by
      simpa [hop₁] using hfile
    exact .called id m c tbl s₁ hc ((allows_call hc).mp hallows) htbl hop₁ hcur hview

/-- Every operation keeps the session well formed. -/
theorem Session.WellFormed.step {s s' : Session} {op : SessionOp} {reply : Reply}
    (h : s.WellFormed hashMin) (hop : sessionOp hashMin s op = some (s', reply)) :
    s'.WellFormed hashMin := by
  cases sessionOp_cases h hop with
  | opened id m hnew =>
    refine ⟨fun _ => ⟨_, by rw [open_currentDevNo, open_view, Function.update_self]⟩, ?_⟩
    intro m' t ht
    rw [open_view] at ht
    by_cases hm : m' = m
    · subst hm
      obtain rfl : (fun _ => []) = t := by simpa using ht
      exact tableInv_empty
    · exact h.tables m' t (by rwa [Function.update_of_ne hm] at ht)
  | called id m c t s₁ hc hfile ht hop₁ hcur hview =>
    refine ⟨fun _ => ⟨_, by rw [hcur, hview, Function.update_self]⟩, ?_⟩
    intro m' t' ht'
    rw [hview] at ht'
    by_cases hm : m' = s.state.currentDevNo
    · subst hm
      obtain rfl : (HashTable.callStep hashMin t c).1 = t' := by simpa using ht'
      exact (h.tables _ t ht).callStep c
    · exact h.tables m' t' (by rwa [Function.update_of_ne hm] at ht')

theorem wellFormed_run {ops : List SessionOp} {s : Session} {replies : List Reply}
    (hrun : run (sessionOp hashMin) sessionInit ops = some (s, replies)) :
    s.WellFormed hashMin :=
  run_along (sessionOp hashMin) (fun _ _ _ _ h _ hop => h.step hop)
    wellFormed_init (along_true _ _ _) hrun

/-! ## The representation invariant -/

/-- The nodes linked in a table, bucket after bucket. -/
def Hashtable.linked (t : Hashtable) : List HtNode := (List.finRange 128).flatMap t

theorem mem_linked {t : Hashtable} {node : HtNode} : node ∈ t.linked ↔ ∃ bkt, node ∈ t bkt := by
  simp [Hashtable.linked]

/-- Every node is in the bucket of its key, no two nodes have one key and no data is zero. -/
structure Hashtable.Represents (hashMin : Int32 → Fin 128) (t : Hashtable) : Prop where
  inBucket : ∀ bkt, ∀ node ∈ t bkt, hashMin node.htObj.key = bkt
  distinct : DistinctKeys (fun node => node.htObj.key) t.linked
  nonzero : ∀ node ∈ t.linked, node.htObj.data ≠ 0

/-- Keys of different buckets differ, so distinct keys in each chain are distinct in the table. -/
theorem TableInv.represents {t : Hashtable} (h : TableInv hashMin t.objects) :
    t.Represents hashMin := by
  have hin : ∀ bkt, ∀ node ∈ t bkt, hashMin node.htObj.key = bkt := fun bkt node hnode =>
    h.inBucket bkt node.htObj (List.mem_map_of_mem hnode)
  refine ⟨hin, ?_, fun node hnode => ?_⟩
  · unfold DistinctKeys Hashtable.linked
    rw [List.map_flatMap, List.nodup_flatMap]
    refine ⟨fun bkt _ => ?_, (List.nodup_finRange 128).imp fun {b b'} hne => ?_⟩
    · have hchain := h.distinct bkt
      rwa [DistinctKeys, Hashtable.objects, List.map_map] at hchain
    · intro key hkey hkey'
      obtain ⟨node, hnode, rfl⟩ := List.mem_map.mp hkey
      obtain ⟨node', hnode', hsame⟩ := List.mem_map.mp hkey'
      apply hne
      rw [← hin b node hnode, ← hin b' node' hnode', hsame]
  · obtain ⟨bkt, hmem⟩ := mem_linked.mp hnode
    exact h.nonzero bkt node.htObj (List.mem_map_of_mem hmem)

/-- Whatever files are open and whatever was done through them, an allowed operation has a
result, a call acts on an initialised table, and every initialised table is represented
correctly. -/
theorem tables_represented {ops : List SessionOp} {s : Session} {replies : List Reply}
    (hrun : run (sessionOp hashMin) sessionInit ops = some (s, replies)) :
    (∀ op, s.Allows op → (∃ s' reply, sessionOp hashMin s op = some (s', reply)) ∧
      (op.2.2 ≠ .openFile → ∃ t, s.state.tableOf s.state.currentDevNo = some t)) ∧
    ∀ m t, s.state.tableOf m = some t → t.Represents hashMin := by
  have h := wellFormed_run hrun
  constructor
  · rintro ⟨id, m, c⟩ hallows
    by_cases hc : c = .openFile
    · subst hc
      have hop := @fileOp_open hashMin s.state m
      exact ⟨⟨_, _, sessionOp_eq_some.mpr ⟨hallows, _, hop, rfl⟩⟩, fun hne => absurd rfl hne⟩
    · obtain ⟨tbl, htbl⟩ := h.finds hallows hc
      obtain ⟨s', hop, -⟩ := @fileOp_refines hashMin _ _ htbl m _ hc
      refine ⟨⟨_, _, sessionOp_eq_some.mpr ⟨hallows, _, hop, rfl⟩⟩, fun _ => ?_⟩
      obtain ⟨t, ht, -⟩ := Option.map_eq_some_iff.mp htbl
      exact ⟨t, ht⟩
  · intro m t ht
    exact (h.tables m t.objects (by simp [HtState.view, ht])).represents

/-- Two files on the first minor and one on the second: the state after each has written and
one was released. -/
theorem tables_represented_three_files :
    ∃ s : Session, (∃ t, s.state.tableOf 1 = some t ∧ t.Represents hashMin7) ∧
      s.files = [(2, 1), (0, 0)] := by
  have hrun : ∃ s replies, run (sessionOp hashMin7) sessionInit
      [(0, 0, .openFile), (1, 0, .openFile), (0, 0, .writeFile ⟨1, 5⟩), (2, 1, .openFile),
        (2, 1, .writeFile ⟨7, 3⟩), (1, 0, .releaseFile), (0, 0, .writeFile ⟨2, 9⟩)] =
      some (s, replies) ∧ s.files = [(2, 1), (0, 0)] ∧ (s.state.tableOf 1).isSome :=
    ⟨_, _, rfl, rfl, rfl⟩
  obtain ⟨s, replies, hrun, hfiles, hsome⟩ := hrun
  obtain ⟨t, ht⟩ := Option.isSome_iff_exists.mp hsome
  exact ⟨s, ⟨t, ht, (tables_represented hrun).2 1 t ht⟩, hfiles⟩

end KernelDrivers.HashTable
