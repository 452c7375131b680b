import KernelDrivers.HashTable.Driver
import KernelDrivers.Lib.Keyed

/-!
# The tables as chains of objects

What a file sees of a table is the objects in its chains, not the addresses of the nodes.
`callStep` is the effect of a call on one such table. `fileOp_refines` shows that the driver
performs it on the table `current_dev_no` selects and leaves the other table alone.
-/

namespace KernelDrivers.HashTable
open Lib

abbrev ObjectTable := Fin 128 → List HtObject

def Hashtable.objects (t : Hashtable) : ObjectTable := fun bkt => (t bkt).map (·.htObj)

/-- What the files can see of the driver's tables. -/
def HtState.view (s : HtState) (m : Minor) : Option ObjectTable :=
  (s.tableOf m).map Hashtable.objects

theorem view_setTableOf (s : HtState) (m : Minor) (t : Hashtable) :
    (s.setTableOf m t).view = Function.update s.view m (some t.objects) := by
  funext m'
  by_cases h : m' = m
  · subst h
    simp [HtState.view]
  · simp [HtState.view, h, tableOf_setTableOf_ne]

theorem objects_update (t : Hashtable) (bkt : Fin 128) (xs : List HtNode) :
    Hashtable.objects (Function.update t bkt xs) =
      Function.update t.objects bkt (xs.map (·.htObj)) := by
  funext bkt'
  by_cases h : bkt' = bkt
  · subst h
    simp [Hashtable.objects]
  · simp [Hashtable.objects, h]

/-! ## Calls on a table of objects -/

/-- A written object in its bucket: removed, changed in place, or pushed at the head. -/
def writeChain (obj : HtObject) (xs : List HtObject) : List HtObject :=
  if obj.data = 0 then xs.eraseP fun o => o.key = obj.key
  else if xs.any fun o => o.key = obj.key then
    xs.map fun o => if o.key = obj.key then { o with data := obj.data } else o
  else obj :: xs

def readObject (v : HtObject × Bool) (o : HtObject) : HtObject × Bool :=
  if o.key = v.1.key then ({ v.1 with data := o.data }, true) else v

def readChain (buf : HtObject) (xs : List HtObject) : Int32 × HtObject :=
  let (htData, flag) := xs.foldl readObject (buf, false)
  if flag then (1, htData) else (-EINVAL, { htData with data := -1 })

def dumpObject (v : Nat × (Fin 8 → HtObject)) (o : HtObject) :
    (Nat × (Fin 8 → HtObject)) × Visit HtObject :=
  if h : v.1 < 8 then ((v.1 + 1, Function.update v.2 ⟨v.1, h⟩ o), .keep o) else (v, .leave o)

variable (hashMin : Int32 → Fin 128)

def dumpReply (arg : DumpArg) (t : ObjectTable) : Int32 × DumpArg :=
  let nbkt := findNbkt hashMin arg.n 1000000 0
  if nbkt > 128 then (-EINVAL, arg)
  else
    let copied := (walk dumpObject (0, arg.objectArray) (t (hashMin (Int32.ofNat nbkt)))).1.2
    (0, { arg with objectArray := copied })

/-- The effect of a call on the table it acts on, and its reply. -/
def callStep (t : ObjectTable) : Call → ObjectTable × Reply
  | .openFile => (fun _ => [], .status 0)
  | .writeFile obj =>
    (Function.update t (hashMin obj.key) (writeChain obj (t (hashMin obj.key))), .status 1)
  | .readFile buf =>
    let (ret, obj) := readChain buf (t (hashMin buf.key))
    (t, .object ret obj)
  | .dump arg =>
    let (ret, arg') := dumpReply hashMin arg t
    (t, .dumped ret arg')
  | .releaseFile => (fun _ => [], .status 0)

/-! ## The driver's loops on the objects -/

theorem walk_deleteBody (node : HtNode) (xs : List HtNode) :
    (walk (deleteBody node) () xs).2.map (·.htObj) =
      (xs.map (·.htObj)).eraseP fun o => o.key = node.htObj.key := by
  have hbody : deleteBody node = fun s a =>
      if decide (a.htObj.key = node.htObj.key) then (s, .unlink) else (s, .keep a) := by
    funext s a
    simp [deleteBody]
  rw [hbody, walk_unlink, List.eraseP_map]
  rfl

theorem walk_updateBody (node : HtNode) (flag : Bool) (xs : List HtNode) :
    walk (updateBody node) flag xs =
      (flag || (xs.map (·.htObj)).any fun o => o.key = node.htObj.key,
        xs.map fun n => if n.htObj.key = node.htObj.key then
          { n with htObj.data := node.htObj.data } else n) := by
  have hbody : updateBody node = fun s a => (s || decide (a.htObj.key = node.htObj.key),
      .keep (if a.htObj.key = node.htObj.key then
        { a with htObj.data := node.htObj.data } else a)) := by
    funext s a
    by_cases h : a.htObj.key = node.htObj.key <;> simp [updateBody, h]
  rw [hbody, walk_keep]
  congr 1
  induction xs generalizing flag with
  | nil => simp
  | cons a xs ih => simp [ih, Bool.or_assoc]

/-- Without a node of the written key the update loop finds nothing and changes nothing. -/
theorem walk_updateBody_absent {node : HtNode} {xs : List HtNode}
    (h : ∀ n ∈ xs, n.htObj.key ≠ node.htObj.key) :
    walk (updateBody node) false xs = (false, xs) := by
  rw [walk_updateBody]
  refine Prod.ext ?_ ((List.map_congr_left fun n hn => if_neg (h n hn)).trans (List.map_id _))
  simpa using h

theorem objects_updated (node : HtNode) (xs : List HtNode) :
    (xs.map fun n => if n.htObj.key = node.htObj.key then
        { n with htObj.data := node.htObj.data } else n).map (·.htObj) =
      (xs.map (·.htObj)).map fun o =>
        if o.key = node.htObj.key then { o with data := node.htObj.data } else o := by
  simp only [List.map_map]
  refine List.map_congr_left fun n _ => ?_
  by_cases h : n.htObj.key = node.htObj.key <;> simp [h]

theorem walk_readBody (v : HtObject × Bool) (xs : List HtNode) :
    (walk readBody v xs).1 = (xs.map (·.htObj)).foldl readObject v := by
  have hbody : readBody = fun v a => (readObject v a.htObj, .keep a) := by
    funext v a
    by_cases h : v.1.key = a.htObj.key <;> simp [readBody, readObject, h, Ne.symm]
  have hwalk := walk_keep (fun v (a : HtNode) => readObject v a.htObj) (fun a => a) v xs
  rw [hbody, hwalk, List.foldl_map]

theorem walk_dumpBody (v : Nat × (Fin 8 → HtObject)) (xs : List HtNode) :
    (walk dumpBody v xs).1 = (walk dumpObject v (xs.map (·.htObj))).1 := by
  rw [walk_map (·.htObj) dumpBody dumpObject]
  intro s a
  by_cases h : s.1 < 8 <;> simp [dumpBody, dumpObject, h]

/-! ## The driver on the table it selects -/

section Refinement

variable {hashMin}

theorem objects_writeTable (node : HtNode) (t : Hashtable) :
    (writeTable hashMin node t).objects =
      Function.update t.objects (hashMin node.htObj.key)
        (writeChain node.htObj (t.objects (hashMin node.htObj.key))) := by
  unfold writeTable writeChain Hashtable.objects
  by_cases hdata : node.htObj.data = 0
  · simp only [hdata, if_true, ← walk_deleteBody]
    exact objects_update _ _ _
  · rw [if_neg hdata, if_neg hdata]
    by_cases hany : ∃ n ∈ t (hashMin node.htObj.key), n.htObj.key = node.htObj.key
    · have hfound : ((t (hashMin node.htObj.key)).map (·.htObj)).any
          (fun o => o.key = node.htObj.key) = true := by simpa using hany
      simp only [walk_updateBody, Bool.false_or, hfound, if_true]
      rw [← objects_updated]
      exact objects_update _ _ _
    · have habsent : ∀ n ∈ t (hashMin node.htObj.key), n.htObj.key ≠ node.htObj.key := by
        simpa using hany
      have hfound : ((t (hashMin node.htObj.key)).map (·.htObj)).any
          (fun o => o.key = node.htObj.key) = false := by simpa using hany
      simp only [walk_updateBody_absent habsent, hfound, Function.update_eq_self]
      exact objects_update _ _ _

theorem readTable_eq (buf : HtObject) (t : Hashtable) :
    readTable hashMin buf t = readChain buf (t.objects (hashMin buf.key)) := by
  unfold readTable readChain
  split
  · next hempty => simp [Hashtable.objects, hempty]
  · simp only [walk_readBody]
    rfl

/-- Every call other than an open acts on the selected table as `callStep` does, and on
nothing else a file can see. -/
theorem fileOp_refines {s : HtState} {t : ObjectTable} (h : s.view s.currentDevNo = some t)
    (m : Minor) {c : Call} (hc : c ≠ .openFile) :
    ∃ s', fileOp hashMin s (m, c) = some (s', (callStep hashMin t c).2) ∧
      s'.currentDevNo = s.currentDevNo ∧
      s'.view = Function.update s.view s.currentDevNo (some (callStep hashMin t c).1) := by
  obtain ⟨tbl, htbl, rfl⟩ := Option.map_eq_some_iff.mp h
  have hsame : Function.update s.view s.currentDevNo (some tbl.objects) = s.view := by
    rw [← h, Function.update_eq_self]
  cases c with
  | openFile => exact absurd rfl hc
  | writeFile obj =>
    refine ⟨(s.kmallocNode obj).2.setTableOf s.currentDevNo
      (writeTable hashMin (s.kmallocNode obj).1 tbl), ?_, by simp, ?_⟩
    · simp [fileOp, ht530DrvDriverWrite, htbl, callStep]
    · rw [view_setTableOf, objects_writeTable]
      rfl
  | readFile buf =>
    refine ⟨s, by simp [fileOp, ht530DrvDriverRead, htbl, readTable_eq, callStep], rfl, ?_⟩
    simpa [callStep] using hsame.symm
  | dump arg =>
    refine ⟨s, ?_, rfl, by simpa [callStep] using hsame.symm⟩
    simp only [fileOp, ht530DrvDriverIoctl, htbl, callStep, dumpReply]
    split
    · rfl
    · simp only [Option.map_some, walk_dumpBody]
      rfl
  | releaseFile =>
    refine ⟨(s.kfreeTable tbl).setTableOf s.currentDevNo hashInit, ?_,
      currentDevNo_setTableOf _ _ _, view_setTableOf _ _ _⟩
    simp [fileOp, ht530DrvDriverRelease, htbl, callStep]

theorem open_view (m : Minor) (s : HtState) :
    (ht530DrvDriverOpen m s).view = Function.update s.view m (some fun _ => []) :=
  view_setTableOf _ _ _

@[simp] theorem open_currentDevNo (m : Minor) (s : HtState) :
    (ht530DrvDriverOpen m s).currentDevNo = m := by
  simp [ht530DrvDriverOpen]

end Refinement

end KernelDrivers.HashTable
