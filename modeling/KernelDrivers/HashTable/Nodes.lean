import KernelDrivers.HashTable.Sessions
import Mathlib.Data.List.Perm.Basic

/-!
# Nodes allocated and nodes linked

Every write allocates a node. A node is freed only by a release, which frees the nodes linked
in the selected table. So the nodes in use are the linked ones as long as every write links its
node, no open drops a chain, and the last release finds nothing in the other table.
-/

namespace KernelDrivers.HashTable
open Lib

def Hashtable.addrs (t : Hashtable) : List Nat := t.linked.map (·.addr)

/-- The addresses of the nodes linked in the table of a minor. -/
def HtState.linkedOf (s : HtState) (m : Minor) : List Nat := (s.tableOf m).elim [] Hashtable.addrs

def HtState.linked (s : HtState) : List Nat := (List.finRange 2).flatMap s.linkedOf

/-- Nodes are conserved: those allocated and not freed are those linked. -/
structure Conserved (s : Session) : Prop where
  outstanding : held s.state.nodes = s.state.linked.toFinset
  distinct : s.state.linked.Nodup
  /-- Allocations minus frees is the number of linked nodes. -/
  balance : grants s.state.nodes = releases s.state.nodes + s.state.linked.length
  /-- No node is freed twice. -/
  legal : Legal s.state.nodes
  freed : ∀ a, .release a ∈ s.state.nodes → a ∉ s.state.linked
  /-- Without an open file nothing is outstanding. -/
  closed : s.files = [] → held s.state.nodes = ∅

/-! ## The nodes of a table -/

theorem mem_linked_update {t : Hashtable} {bkt : Fin 128} {xs : List HtNode} {node : HtNode}
    (h : node ∈ Hashtable.linked (Function.update t bkt xs)) : node ∈ xs ∨ node ∈ t.linked := by
  obtain ⟨bkt', hmem⟩ := mem_linked.mp h
  by_cases hb : bkt' = bkt
  · subst hb
    exact .inl (by simpa using hmem)
  · exact .inr (mem_linked.mpr ⟨bkt', by rwa [Function.update_of_ne hb] at hmem⟩)

/-- A node pushed on one chain is one more node of the table. -/
theorem flatMap_push_perm {t : Hashtable} {bkt : Fin 128} (node : HtNode) {bkts : List (Fin 128)}
    (hnodup : bkts.Nodup) (hmem : bkt ∈ bkts) :
    (bkts.flatMap (Function.update t bkt (node :: t bkt))).Perm (node :: bkts.flatMap t) := by
  induction bkts with
  | nil => simp at hmem
  | cons b bkts ih =>
    obtain ⟨hb, hnodup'⟩ := List.nodup_cons.mp hnodup
    rw [List.flatMap_cons, List.flatMap_cons]
    by_cases hbkt : b = bkt
    · subst hbkt
      have hrest : bkts.flatMap (Function.update t b (node :: t b)) = bkts.flatMap t := by
        refine List.flatMap_congr fun b' hb' => Function.update_of_ne ?_ _ _
        rintro rfl
        exact hb hb'
      rw [Function.update_self, hrest, List.cons_append]
    · rw [Function.update_of_ne hbkt]
      have hmem' : bkt ∈ bkts := (List.mem_cons.mp hmem).resolve_left (Ne.symm hbkt)
      exact ((ih hnodup' hmem').append_left _).trans List.perm_middle

theorem linked_push_perm (t : Hashtable) (bkt : Fin 128) (node : HtNode) :
    (Hashtable.linked (Function.update t bkt (node :: t bkt))).Perm (node :: t.linked) :=
  flatMap_push_perm node (List.nodup_finRange 128) (List.mem_finRange bkt)

@[simp] theorem addrs_hashInit : hashInit.addrs = [] := by
  simp [Hashtable.addrs, Hashtable.linked, hashInit]

/-! ## Writing -/

section Writing

variable {hashMin : Int32 → Fin 128}

/-- A node the write links is one that was linked, at the same address, or the new one. The new
one is linked only with data, and when its key was absent. -/
theorem addr_writeTable {node : HtNode} {t : Hashtable} {a : Nat}
    (h : a ∈ (writeTable hashMin node t).addrs) :
    a ∈ t.addrs ∨ node.htObj.data ≠ 0 ∧ contents hashMin t.objects node.htObj.key = none := by
  obtain ⟨n, hn, rfl⟩ := List.mem_map.mp h
  have hold : ∀ {n' : HtNode}, n' ∈ t.linked → n'.addr ∈ t.addrs := List.mem_map_of_mem
  unfold writeTable at hn
  by_cases hdata : node.htObj.data = 0
  · have hbody : deleteBody node = fun s a =>
        if decide (a.htObj.key = node.htObj.key) then (s, .unlink) else (s, .keep a) := by
      funext s a
      simp [deleteBody]
    rw [if_pos hdata, hbody, walk_unlink] at hn
    rcases mem_linked_update hn with hn | hn
    · exact .inl (hold (mem_linked.mpr ⟨_, List.mem_of_mem_eraseP hn⟩))
    · exact .inl (hold hn)
  · rw [if_neg hdata] at hn
    by_cases hany : ∃ n ∈ t (hashMin node.htObj.key), n.htObj.key = node.htObj.key
    · have hfound : ((t (hashMin node.htObj.key)).map (·.htObj)).any
          (fun o => o.key = node.htObj.key) = true := by simpa using hany
      simp only [walk_updateBody, Bool.false_or, hfound, if_true] at hn
      rcases mem_linked_update hn with hn | hn
      · obtain ⟨n', hn', rfl⟩ := List.mem_map.mp hn
        refine .inl ?_
        have haddr := hold (mem_linked.mpr ⟨_, hn'⟩)
        split <;> exact haddr
      · exact .inl (hold hn)
    · refine .inr ⟨hdata, ?_⟩
      have habsent : lookup HtObject.key node.htObj.key
          (t.objects (hashMin node.htObj.key)) = none := by
        rw [lookup_eq_none]
        simpa [Hashtable.objects] using hany
      simp [contents, habsent]

/-- A write of data under an absent key links the new node and moves no other. -/
theorem addrs_writeTable_perm {node : HtNode} {t : Hashtable} (hdata : node.htObj.data ≠ 0)
    (hkey : contents hashMin t.objects node.htObj.key = none) :
    (writeTable hashMin node t).addrs.Perm (node.addr :: t.addrs) := by
  have habsent : ∀ n ∈ t (hashMin node.htObj.key), n.htObj.key ≠ node.htObj.key := by
    have hnone := lookup_eq_none.mp (Option.map_eq_none_iff.mp hkey)
    simpa [Hashtable.objects] using hnone
  have hpush : writeTable hashMin node t =
      Function.update t (hashMin node.htObj.key) (node :: t (hashMin node.htObj.key)) := by
    simp [writeTable, hdata, walk_updateBody_absent habsent, hashAdd]
  rw [hpush]
  exact (linked_push_perm t _ node).map _

end Writing

/-! ## Freeing a table -/

theorem foldl_freeNode (bkt : Fin 128) (xs : List HtNode) (v : Hashtable × List (Event Nat)) :
    (xs.foldl (freeNode bkt) v).2 = releaseAll (xs.map (·.addr)) v.2 ∧
      ∀ b ≠ bkt, (xs.foldl (freeNode bkt) v).1 b = v.1 b := by
  induction xs generalizing v with
  | nil => exact ⟨rfl, fun _ _ => rfl⟩
  | cons n xs ih =>
    obtain ⟨hlog, hother⟩ := ih (freeNode bkt v n)
    refine ⟨hlog, fun b hb => (hother b hb).trans ?_⟩
    exact Function.update_of_ne hb _ _

theorem foldl_freeBucket {t : Hashtable} {bkts : List (Fin 128)} (hnodup : bkts.Nodup)
    (v : Hashtable × List (Event Nat)) (hv : ∀ bkt ∈ bkts, v.1 bkt = t bkt) :
    (bkts.foldl (fun v bkt => (v.1 bkt).foldl (freeNode bkt) v) v).2 =
      releaseAll ((bkts.flatMap t).map (·.addr)) v.2 := by
  induction bkts generalizing v with
  | nil => rfl
  | cons b bkts ih =>
    obtain ⟨hb, hnodup'⟩ := List.nodup_cons.mp hnodup
    obtain ⟨hlog, hother⟩ := foldl_freeNode b (v.1 b) v
    rw [List.foldl_cons, ih hnodup', hlog, hv b List.mem_cons_self, List.flatMap_cons,
      List.map_append, releaseAll_append]
    intro bkt hbkt
    have hne : bkt ≠ b := fun h => hb (h ▸ hbkt)
    rw [hother bkt hne, hv bkt (List.mem_cons_of_mem b hbkt)]

/-- A release frees the nodes of the table, each once. -/
theorem nodes_kfreeTable (s : HtState) (t : Hashtable) :
    (s.kfreeTable t).nodes = releaseAll t.addrs s.nodes := by
  unfold HtState.kfreeTable
  by_cases hempty : ∀ bkt, t bkt = []
  · have hnone : t.linked = [] := by simpa [Hashtable.linked] using hempty
    simp [hempty, Hashtable.addrs, hnone, releaseAll]
  · simp only [hempty, if_false, freeTable]
    exact foldl_freeBucket (List.nodup_finRange 128) (t, s.nodes) fun _ _ => rfl

/-! ## What an operation does to the nodes -/

@[simp] theorem nodes_setTableOf (s : HtState) (m : Minor) (t : Hashtable) :
    (s.setTableOf m t).nodes = s.nodes := by
  unfold HtState.setTableOf
  split <;> rfl

@[simp] theorem fresh_setTableOf (s : HtState) (m : Minor) (t : Hashtable) :
    (s.setTableOf m t).fresh = s.fresh := by
  unfold HtState.setTableOf
  split <;> rfl

@[simp] theorem linkedOf_setTableOf (s : HtState) (m : Minor) (t : Hashtable) :
    (s.setTableOf m t).linkedOf m = t.addrs := by
  simp [HtState.linkedOf]

theorem linkedOf_setTableOf_ne (s : HtState) {m m' : Minor} (h : m' ≠ m) (t : Hashtable) :
    (s.setTableOf m t).linkedOf m' = s.linkedOf m' := by
  simp [HtState.linkedOf, tableOf_setTableOf_ne s h]

/-- The other minor. -/
def Minor.other (m : Minor) : Minor := m.rev

theorem Minor.other_ne : ∀ m : Minor, m.other ≠ m := by decide

theorem linked_perm (s : HtState) (m : Minor) :
    s.linked.Perm (s.linkedOf m ++ s.linkedOf m.other) := by
  have hlinked : s.linked = s.linkedOf 0 ++ s.linkedOf 1 := by
    simp [HtState.linked, List.finRange_succ]
  rw [hlinked]
  match m with
  | 0 => exact .refl _
  | 1 => exact List.perm_append_comm

theorem linked_setTableOf (s : HtState) (m : Minor) (t : Hashtable) :
    (s.setTableOf m t).linked.Perm (t.addrs ++ s.linkedOf m.other) := by
  have hperm := linked_perm (s.setTableOf m t) m
  rwa [linkedOf_setTableOf, linkedOf_setTableOf_ne s m.other_ne] at hperm

section Steps

variable {hashMin : Int32 → Fin 128}

/-- What an operation does to the driver. -/
inductive FileStep (hashMin : Int32 → Fin 128) (s : HtState) : FileOp → HtState → Prop
  | opened (m : Minor) : FileStep hashMin s (m, .openFile) (ht530DrvDriverOpen m s)
  | written (m : Minor) (obj : HtObject) (t : Hashtable)
    (ht : s.tableOf s.currentDevNo = some t) :
    FileStep hashMin s (m, .writeFile obj)
      ((s.kmallocNode obj).2.setTableOf s.currentDevNo (writeTable hashMin ⟨s.fresh, obj⟩ t))
  | unchanged (m : Minor) (c : Call) (hc : (∃ buf, c = .readFile buf) ∨ ∃ arg, c = .dump arg) :
    FileStep hashMin s (m, c) s
  | released (m : Minor) (t : Hashtable) (ht : s.tableOf s.currentDevNo = some t) :
    FileStep hashMin s (m, .releaseFile) ((s.kfreeTable t).setTableOf s.currentDevNo hashInit)

theorem fileOp_cases {s s' : HtState} {op : FileOp} {reply : Reply}
    (h : fileOp hashMin s op = some (s', reply)) : FileStep hashMin s op s' := by
  obtain ⟨m, c⟩ := op
  cases c with
  | openFile =>
    obtain ⟨rfl, -⟩ : ht530DrvDriverOpen m s = s' ∧ _ := by simpa [fileOp] using h
    exact .opened m
  | writeFile obj =>
    obtain ⟨⟨s₁, ret⟩, hop, he⟩ := Option.map_eq_some_iff.mp h
    obtain ⟨t, ht, he'⟩ := Option.map_eq_some_iff.mp hop
    obtain ⟨rfl, -⟩ := Prod.mk.inj he
    obtain ⟨rfl, -⟩ := Prod.mk.inj he'
    exact .written m obj t ht
  | readFile buf =>
    obtain ⟨⟨s₁, ret⟩, hop, he⟩ := Option.map_eq_some_iff.mp h
    obtain ⟨t, ht, he'⟩ := Option.map_eq_some_iff.mp hop
    obtain ⟨rfl, -⟩ := Prod.mk.inj he
    obtain ⟨rfl, -⟩ := Prod.mk.inj he'
    exact .unchanged m _ (.inl ⟨buf, rfl⟩)
  | dump arg =>
    obtain ⟨⟨s₁, ret⟩, hop, he⟩ := Option.map_eq_some_iff.mp h
    obtain ⟨rfl, -⟩ := Prod.mk.inj he
    have hsame : s = s₁ := by
      simp only [ht530DrvDriverIoctl] at hop
      split at hop
      · exact (Prod.mk.inj (Option.some.inj hop)).1
      · obtain ⟨t, ht, he'⟩ := Option.map_eq_some_iff.mp hop
        exact (Prod.mk.inj he').1
    exact hsame ▸ .unchanged m _ (.inr ⟨arg, rfl⟩)
  | releaseFile =>
    obtain ⟨⟨s₁, ret⟩, hop, he⟩ := Option.map_eq_some_iff.mp h
    obtain ⟨t, ht, he'⟩ := Option.map_eq_some_iff.mp hop
    obtain ⟨rfl, -⟩ := Prod.mk.inj he
    obtain ⟨rfl, -⟩ := Prod.mk.inj he'
    exact .released m t ht

/-! ## Conservation along a run -/

/-- An open finds no linked node in its table, a write links the node it allocates, and the
release of the last file finds no linked node in the other table. -/
def KeepsNodes (hashMin : Int32 → Fin 128) (s : Session) (op : SessionOp) : Prop :=
  match op.2 with
  | (m, .openFile) => s.state.linkedOf m = []
  | (_, .writeFile obj) => obj.data ≠ 0 ∧ s.entry hashMin obj.key = none
  | (_, .releaseFile) =>
    s.filesAfter op = [] → s.state.linkedOf s.state.currentDevNo.other = []
  | _ => True

instance (hashMin : Int32 → Fin 128) (s : Session) :
    (op : SessionOp) → Decidable (KeepsNodes hashMin s op)
  | (_, m, .openFile) => inferInstanceAs (Decidable (s.state.linkedOf m = []))
  | (_, _, .writeFile obj) =>
    inferInstanceAs (Decidable (obj.data ≠ 0 ∧ s.entry hashMin obj.key = none))
  | (_, _, .readFile _) => isTrue trivial
  | (_, _, .dump _) => isTrue trivial
  | (id, m, .releaseFile) =>
    inferInstanceAs (Decidable (s.filesAfter (id, m, .releaseFile) = [] →
      s.state.linkedOf s.state.currentDevNo.other = []))

/-- New nodes get new addresses. -/
structure NodeInv (s : Session) : Prop where
  conserved : Conserved s
  linkedBound : ∀ a ∈ s.state.linked, a < s.state.fresh
  freedBound : ∀ a, .release a ∈ s.state.nodes → a < s.state.fresh

theorem Conserved.of_outstanding {s : Session} {linked : List Nat}
    (hlinked : s.state.linked.Perm linked) (houtstanding : held s.state.nodes = linked.toFinset)
    (hdistinct : linked.Nodup) (hlegal : Legal s.state.nodes)
    (hfreed : ∀ a, .release a ∈ s.state.nodes → a ∉ linked)
    (hclosed : s.files = [] → linked = []) : Conserved s where
  outstanding := houtstanding.trans (List.toFinset_eq_of_perm _ _ hlinked.symm)
  distinct := hlinked.nodup_iff.mpr hdistinct
  balance := by
    rw [hlegal.grants_eq, houtstanding, List.toFinset_card_of_nodup hdistinct,
      hlinked.length_eq]
  legal := hlegal
  freed := fun a ha hmem => hfreed a ha (hlinked.mem_iff.mp hmem)
  closed := fun hfiles => by rw [houtstanding, hclosed hfiles, List.toFinset_nil]

theorem nodeInv_init : NodeInv sessionInit where
  conserved := .of_outstanding (.refl _) rfl List.nodup_nil trivial nofun fun _ => rfl
  linkedBound := nofun
  freedBound := nofun

/-- An open of a table without nodes. -/
theorem NodeInv.opened {s : Session} (h : NodeInv s) {m : Minor}
    (hempty : s.state.linkedOf m = []) (id : Nat) :
    NodeInv ⟨ht530DrvDriverOpen m s.state, (id, m) :: s.files⟩ := by
  have hlinked : (ht530DrvDriverOpen m s.state).linked.Perm s.state.linked := by
    have hafter := linked_setTableOf { s.state with currentDevNo := m } m hashInit
    have hbefore := linked_perm s.state m
    rw [hempty] at hbefore
    rw [addrs_hashInit] at hafter
    exact hafter.trans hbefore.symm
  have hnodes : (ht530DrvDriverOpen m s.state).nodes = s.state.nodes := nodes_setTableOf _ _ _
  have hfresh : (ht530DrvDriverOpen m s.state).fresh = s.state.fresh := fresh_setTableOf _ _ _
  refine ⟨.of_outstanding hlinked ?_ h.conserved.distinct ?_ ?_ nofun, ?_, ?_⟩
  · rw [hnodes]
    exact h.conserved.outstanding
  · rw [hnodes]
    exact h.conserved.legal
  · rw [hnodes]
    exact h.conserved.freed
  · intro a ha
    rw [hfresh]
    exact h.linkedBound a (hlinked.mem_iff.mp ha)
  · intro a ha
    rw [hnodes] at ha
    rw [hfresh]
    exact h.freedBound a ha

/-- The state a write leaves. -/
theorem linked_written (s : HtState) (obj : HtObject) (t : Hashtable) :
    ((s.kmallocNode obj).2.setTableOf s.currentDevNo t).linked.Perm
      (t.addrs ++ s.linkedOf s.currentDevNo.other) :=
  linked_setTableOf _ _ _

theorem linked_selected {s : HtState} {t : Hashtable} (ht : s.tableOf s.currentDevNo = some t) :
    s.linked.Perm (t.addrs ++ s.linkedOf s.currentDevNo.other) := by
  have hperm := linked_perm s s.currentDevNo
  have hsel : s.linkedOf s.currentDevNo = t.addrs := by simp [HtState.linkedOf, ht]
  rwa [hsel] at hperm

theorem entry_selected {s : Session} {t : Hashtable}
    (ht : s.state.tableOf s.state.currentDevNo = some t) (k : Int32) :
    s.entry hashMin k = contents hashMin t.objects k := by
  simp [Session.entry, HtState.view, ht]

/-- A write that links its node. -/
theorem NodeInv.written {s : Session} (h : NodeInv s) {t : Hashtable}
    (ht : s.state.tableOf s.state.currentDevNo = some t) {obj : HtObject} (hdata : obj.data ≠ 0)
    (hkey : s.entry hashMin obj.key = none) {files : List (Nat × Minor)} (hfiles : files ≠ []) :
    NodeInv ⟨(s.state.kmallocNode obj).2.setTableOf s.state.currentDevNo
      (writeTable hashMin ⟨s.state.fresh, obj⟩ t), files⟩ := by
  rw [entry_selected ht] at hkey
  have hnew : s.state.fresh ∉ s.state.linked := fun hmem =>
    absurd (h.linkedBound _ hmem) (Nat.lt_irrefl _)
  have hlinked : ((s.state.kmallocNode obj).2.setTableOf s.state.currentDevNo
      (writeTable hashMin ⟨s.state.fresh, obj⟩ t)).linked.Perm
        (s.state.fresh :: s.state.linked) := by
    refine (linked_written s.state obj _).trans ?_
    have hpush : (writeTable hashMin ⟨s.state.fresh, obj⟩ t).addrs.Perm
        (s.state.fresh :: t.addrs) := addrs_writeTable_perm hdata hkey
    exact (hpush.append_right (s.state.linkedOf s.state.currentDevNo.other)).trans
      ((linked_selected ht).symm.cons _)
  refine ⟨.of_outstanding hlinked ?_ ?_ ?_ ?_ fun hnone => absurd hnone hfiles, ?_, ?_⟩
  · rw [nodes_setTableOf, List.toFinset_cons, ← h.conserved.outstanding]
    rfl
  · exact List.nodup_cons.mpr ⟨hnew, h.conserved.distinct⟩
  · rw [nodes_setTableOf]
    refine ⟨?_, h.conserved.legal⟩
    rw [h.conserved.outstanding, List.mem_toFinset]
    exact hnew
  · intro a ha hmem
    rw [nodes_setTableOf] at ha
    have ha' : .release a ∈ s.state.nodes := by simpa [HtState.kmallocNode] using ha
    rcases List.mem_cons.mp hmem with rfl | hmem
    · exact absurd (h.freedBound _ ha') (Nat.lt_irrefl _)
    · exact h.conserved.freed a ha' hmem
  · intro a ha
    rw [fresh_setTableOf]
    rcases List.mem_cons.mp (hlinked.mem_iff.mp ha) with rfl | ha
    · exact Nat.lt_succ_self _
    · exact Nat.lt_succ_of_lt (h.linkedBound a ha)
  · intro a ha
    rw [nodes_setTableOf] at ha
    rw [fresh_setTableOf]
    have ha' : .release a ∈ s.state.nodes := by simpa [HtState.kmallocNode] using ha
    exact Nat.lt_succ_of_lt (h.freedBound a ha')

theorem linked_released (s : HtState) (t : Hashtable) :
    ((s.kfreeTable t).setTableOf s.currentDevNo hashInit).linked.Perm
      (s.linkedOf s.currentDevNo.other) := by
  have hperm := linked_setTableOf (s.kfreeTable t) s.currentDevNo hashInit
  rwa [addrs_hashInit] at hperm

/-- A release after which a file is open or nothing is linked. -/
theorem NodeInv.released {s : Session} (h : NodeInv s) {t : Hashtable}
    (ht : s.state.tableOf s.state.currentDevNo = some t) {files : List (Nat × Minor)}
    (hclosed : files = [] → s.state.linkedOf s.state.currentDevNo.other = []) :
    NodeInv ⟨(s.state.kfreeTable t).setTableOf s.state.currentDevNo hashInit, files⟩ := by
  have hbefore := linked_selected ht
  have hafter := linked_released s.state t
  have hdistinct := hbefore.nodup_iff.mp h.conserved.distinct
  obtain ⟨hfreed, hkept, hapart⟩ := List.nodup_append.mp hdistinct
  have hheld : held s.state.nodes =
      (t.addrs ++ s.state.linkedOf s.state.currentDevNo.other).toFinset :=
    h.conserved.outstanding.trans (List.toFinset_eq_of_perm _ _ hbefore)
  have hall : ∀ a ∈ t.addrs, a ∈ held s.state.nodes := by
    intro a ha
    simp [hheld, ha]
  obtain ⟨hlegal, hrest⟩ := releaseAll_spec hfreed hall h.conserved.legal
  refine ⟨.of_outstanding hafter ?_ hkept ?_ ?_ hclosed, ?_, ?_⟩
  · rw [nodes_setTableOf, nodes_kfreeTable, hrest, hheld, List.toFinset_append]
    refine Finset.union_sdiff_cancel_left (Finset.disjoint_left.mpr fun a ha ha' => ?_)
    exact hapart a (List.mem_toFinset.mp ha) a (List.mem_toFinset.mp ha') rfl
  · rw [nodes_setTableOf, nodes_kfreeTable]
    exact hlegal
  · intro a ha hmem
    rw [nodes_setTableOf, nodes_kfreeTable, release_mem_releaseAll] at ha
    rcases ha with ha | ha
    · exact hapart a ha a hmem rfl
    · exact h.conserved.freed a ha (hbefore.mem_iff.mpr (List.mem_append_right _ hmem))
  · intro a ha
    rw [fresh_setTableOf]
    have hmem := hafter.mem_iff.mp ha
    exact h.linkedBound a (hbefore.mem_iff.mpr (List.mem_append_right _ hmem))
  · intro a ha
    rw [nodes_setTableOf, nodes_kfreeTable, release_mem_releaseAll] at ha
    rw [fresh_setTableOf]
    rcases ha with ha | ha
    · exact h.linkedBound a (hbefore.mem_iff.mpr (List.mem_append_left _ ha))
    · exact h.freedBound a ha

/-- An operation that satisfies the condition keeps the invariant. -/
theorem NodeInv.step {s s' : Session} {op : SessionOp} {reply : Reply} (h : NodeInv s)
    (hop : sessionOp hashMin s op = some (s', reply)) (hok : KeepsNodes hashMin s op) :
    NodeInv s' := by
  obtain ⟨hallows, t, hfile, rfl⟩ := sessionOp_eq_some.mp hop
  obtain ⟨id, m, c⟩ := op
  cases fileOp_cases hfile with
  | opened => exact h.opened hok id
  | written _ obj tbl ht =>
    have hfiles : s.files ≠ [] := List.ne_nil_of_mem (show (id, m) ∈ s.files from hallows)
    exact h.written ht hok.1 hok.2 hfiles
  | unchanged _ c hc =>
    obtain ⟨buf, rfl⟩ | ⟨arg, rfl⟩ := hc
    · exact h
    · exact h
  | released _ tbl ht => exact h.released ht hok

/-- An operation that does not satisfy it breaks conservation. -/
theorem NodeInv.keepsNodes {s s' : Session} {op : SessionOp} {reply : Reply} (h : NodeInv s)
    (hop : sessionOp hashMin s op = some (s', reply)) (hs' : Conserved s') :
    KeepsNodes hashMin s op := by
  obtain ⟨hallows, t, hfile, rfl⟩ := sessionOp_eq_some.mp hop
  obtain ⟨id, m, c⟩ := op
  cases fileOp_cases hfile with
  | opened =>
    have hbefore := linked_perm s.state m
    have hafter := linked_setTableOf { s.state with currentDevNo := m } m hashInit
    rw [addrs_hashInit] at hafter
    refine List.eq_nil_iff_forall_not_mem.mpr fun a ha => ?_
    have hheld : a ∈ held s.state.nodes := by
      rw [h.conserved.outstanding, List.mem_toFinset, hbefore.mem_iff]
      exact List.mem_append_left _ ha
    have hlinked : a ∈ (ht530DrvDriverOpen m s.state).linked := by
      rw [← List.mem_toFinset, ← hs'.outstanding]
      simpa [ht530DrvDriverOpen] using hheld
    have hdistinct := hbefore.nodup_iff.mp h.conserved.distinct
    exact (List.nodup_append.mp hdistinct).2.2 a ha a (hafter.mem_iff.mp hlinked) rfl
  | written _ obj tbl ht =>
    have hbefore := linked_selected ht
    have hnew : s.state.fresh ∈ (writeTable hashMin ⟨s.state.fresh, obj⟩ tbl).addrs ++
        s.state.linkedOf s.state.currentDevNo.other := by
      rw [← (linked_written s.state obj _).mem_iff, ← List.mem_toFinset, ← hs'.outstanding,
        nodes_setTableOf]
      exact Finset.mem_insert_self _ _
    have hold : s.state.fresh ∉ tbl.addrs ++ s.state.linkedOf s.state.currentDevNo.other := by
      intro hmem
      exact absurd (h.linkedBound _ (hbefore.mem_iff.mpr hmem)) (Nat.lt_irrefl _)
    rw [List.mem_append, not_or] at hold
    have hadded := (List.mem_append.mp hnew).resolve_right hold.2
    obtain ⟨hdata, hkey⟩ := (addr_writeTable hadded).resolve_left hold.1
    exact ⟨hdata, (entry_selected ht obj.key).trans hkey⟩
  | unchanged _ c hc =>
    obtain ⟨buf, rfl⟩ | ⟨arg, rfl⟩ := hc
    · trivial
    · trivial
  | released _ tbl ht =>
    intro hfiles
    have hnone := hs'.closed hfiles
    rw [hs'.outstanding, List.toFinset_eq_empty_iff] at hnone
    exact List.Perm.eq_nil (hnone ▸ (linked_released s.state tbl).symm)

/-- Nodes are conserved in every state of a run exactly when every operation of the run links
the node it allocates and leaves no linked node behind. -/
theorem conserved_iff {ops : List SessionOp} {s : Session} {replies : List Reply}
    (hrun : run (sessionOp hashMin) sessionInit ops = some (s, replies)) :
    (∀ before u replies', before <+: ops →
      run (sessionOp hashMin) sessionInit before = some (u, replies') → Conserved u) ↔
      Along (sessionOp hashMin) (KeepsNodes hashMin) sessionInit ops :=
  always_iff_along _ (fun _ h => h.conserved) (fun _ _ _ _ h hop hok => h.step hop hok)
    (fun _ _ _ _ h hop hs' => h.keepsNodes hop hs') nodeInv_init hrun

/-- Two entries, freed when their file is released. -/
theorem conserved_iff_two_entries :
    ∃ s replies, run (sessionOp hashMin7) sessionInit
        [(0, 0, .openFile), (0, 0, .writeFile ⟨1, 5⟩), (0, 0, .writeFile ⟨2, 7⟩),
          (0, 0, .releaseFile)] = some (s, replies) ∧
      releases s.state.nodes = 2 ∧ Conserved s := by
  obtain ⟨s, replies, hrun, hfreed⟩ : ∃ s replies, run (sessionOp hashMin7) sessionInit
        [(0, 0, .openFile), (0, 0, .writeFile ⟨1, 5⟩), (0, 0, .writeFile ⟨2, 7⟩),
          (0, 0, .releaseFile)] = some (s, replies) ∧
      releases s.state.nodes = 2 := ⟨_, _, rfl, by decide +kernel⟩
  have hok : Along (sessionOp hashMin7) (KeepsNodes hashMin7) sessionInit
      [(0, 0, .openFile), (0, 0, .writeFile ⟨1, 5⟩), (0, 0, .writeFile ⟨2, 7⟩),
        (0, 0, .releaseFile)] := by decide +kernel
  exact ⟨s, replies, hrun, hfreed,
    (conserved_iff hrun).mpr hok _ s replies (List.prefix_refl _) hrun⟩

/-- Nodes are conserved in every state reached. -/
def NodesConserved (hashMin : Int32 → Fin 128) : Prop :=
  ∀ (ops : List SessionOp) (s : Session) (replies : List Reply),
    run (sessionOp hashMin) sessionInit ops = some (s, replies) → Conserved s

/-- The second write updates the first one's node and drops its own. -/
theorem not_nodesConserved : ¬ NodesConserved hashMin7 := by
  intro h
  obtain ⟨s, replies, hrun, hgrants, hreleases, hlinked⟩ : ∃ s replies,
      run (sessionOp hashMin7) sessionInit
        [(0, 0, .openFile), (0, 0, .writeFile ⟨1, 5⟩), (0, 0, .writeFile ⟨1, 6⟩)] =
        some (s, replies) ∧ grants s.state.nodes = 2 ∧ releases s.state.nodes = 0 ∧
      s.state.linked = [0] := ⟨_, _, rfl, by decide, by decide, by decide⟩
  have hbalance := (h _ s replies hrun).balance
  simp [hgrants, hreleases, hlinked] at hbalance

end Steps

end KernelDrivers.HashTable
