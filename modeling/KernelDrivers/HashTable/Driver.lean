import KernelDrivers.Lib.Run
import KernelDrivers.Lib.Chain
import KernelDrivers.Lib.Accounting
import Mathlib.Data.List.FinRange

/-!
# The hash table driver

The driver of `Hash Table Driver/Hash_Driver.c` (`Kprobe/Hash_Driver.c` is the same file).
One `struct ht530_dev` holds the two tables of the two minors. Every file operation picks
its table by the global `current_dev_no`, which only an open assigns.

The bucket function stands for `hash_min(key, 7)`. Allocations whose result the code does
not check are taken to succeed, and so are the copies from and to the user.
-/

namespace KernelDrivers.HashTable
open Lib

def EINVAL : Int32 := 22

/-- `ht_object_t`. -/
structure HtObject where
  key : Int32
  data : Int32
  deriving DecidableEq, Repr

/-- `struct ht_node`, with the address `kmalloc` gave it. -/
structure HtNode where
  addr : Nat
  htObj : HtObject
  deriving DecidableEq, Repr

/-- `DECLARE_HASHTABLE(name, 7)`: 128 chains. -/
abbrev Hashtable := Fin 128 → List HtNode

/-- The driver registers two minors, 0 for `ht530-1` and 1 for `ht530-2`. -/
abbrev Minor := Fin 2

/-- `struct dump_arg`: the bucket asked for and eight objects to fill in. -/
structure DumpArg where
  n : Int32
  objectArray : Fin 8 → HtObject

/-- The module's globals. A table is `none` until `hash_init` reaches it: its heads are then
what `kmalloc` found in memory. `nodes` logs the nodes allocated and freed. -/
structure HtState where
  currentDevNo : Minor
  ht530Tbl0 : Option Hashtable
  ht530Tbl1 : Option Hashtable
  fresh : Nat
  nodes : List (Event Nat)

/-- The state `ht530_drv_driver_init` leaves: `current_dev_no` is zero as a static. -/
def ht530DrvDriverInit : HtState := ⟨0, none, none, 0, []⟩

/-- The table of a minor: `MINOR(current_dev_no)==0` selects the first. -/
def HtState.tableOf (s : HtState) (m : Minor) : Option Hashtable :=
  if m = 0 then s.ht530Tbl0 else s.ht530Tbl1

def HtState.setTableOf (s : HtState) (m : Minor) (t : Hashtable) : HtState :=
  if m = 0 then { s with ht530Tbl0 := some t } else { s with ht530Tbl1 := some t }

@[simp] theorem tableOf_setTableOf (s : HtState) (m : Minor) (t : Hashtable) :
    (s.setTableOf m t).tableOf m = some t := by
  unfold HtState.setTableOf HtState.tableOf
  split <;> rfl

theorem minor_eq_zero : ∀ {m m' : Minor}, m ≠ 0 → m' ≠ m → m' = 0 := by decide

theorem tableOf_setTableOf_ne (s : HtState) {m m' : Minor} (h : m' ≠ m) (t : Hashtable) :
    (s.setTableOf m t).tableOf m' = s.tableOf m' := by
  unfold HtState.setTableOf HtState.tableOf
  by_cases hm : m = 0
  · simp [hm, hm ▸ h]
  · simp [hm, minor_eq_zero hm h]

@[simp] theorem currentDevNo_setTableOf (s : HtState) (m : Minor) (t : Hashtable) :
    (s.setTableOf m t).currentDevNo = s.currentDevNo := by
  unfold HtState.setTableOf
  split <;> rfl

/-- `hash_init`: every head is empty. Nodes still linked are not freed. -/
def hashInit : Hashtable := fun _ => []

/-- `kmalloc` of a node, filled with the object copied from the user. -/
def HtState.kmallocNode (s : HtState) (obj : HtObject) : HtNode × HtState :=
  (⟨s.fresh, obj⟩, { s with fresh := s.fresh + 1, nodes := .request s.fresh true :: s.nodes })

@[simp] theorem tableOf_kmallocNode (s : HtState) (obj : HtObject) (m : Minor) :
    (s.kmallocNode obj).2.tableOf m = s.tableOf m := rfl
@[simp] theorem currentDevNo_kmallocNode (s : HtState) (obj : HtObject) :
    (s.kmallocNode obj).2.currentDevNo = s.currentDevNo := rfl

def ht530DrvDriverOpen (minor : Minor) (s : HtState) : HtState :=
  ({ s with currentDevNo := minor }).setTableOf minor hashInit

section Operations

variable (hashMin : Int32 → Fin 128)

/-- `hash_add`: push at the head of the key's bucket. -/
def hashAdd (t : Hashtable) (node : HtNode) : Hashtable :=
  Function.update t (hashMin node.htObj.key) (node :: t (hashMin node.htObj.key))

/-- The body of the delete loop: `hash_del` on a node with the written key. -/
def deleteBody (node : HtNode) (_ : Unit) (nodeIter : HtNode) : Unit × Visit HtNode :=
  if nodeIter.htObj.key = node.htObj.key then ((), .unlink) else ((), .keep nodeIter)

/-- The body of the update loop: it does not leave the loop at a match. -/
def updateBody (node : HtNode) (flag : Bool) (nodeIter : HtNode) : Bool × Visit HtNode :=
  if nodeIter.htObj.key = node.htObj.key then
    (true, .keep { nodeIter with htObj.data := node.htObj.data })
  else (flag, .keep nodeIter)

/-- The part of the write between the choice of the table and the return. -/
def writeTable (node : HtNode) (t : Hashtable) : Hashtable :=
  let bkt := hashMin node.htObj.key
  if node.htObj.data = 0 then
    Function.update t bkt (walk (deleteBody node) () (t bkt)).2
  else
    let (flag, chain) := walk (updateBody node) false (t bkt)
    let t := Function.update t bkt chain
    if flag then t else hashAdd hashMin t node

/-- The node is allocated first. It is linked only when no node has its key; the delete and
the update path drop it. -/
def ht530DrvDriverWrite (htTemp : HtObject) (s : HtState) : Option (HtState × Int32) :=
  let (node, s) := s.kmallocNode htTemp
  (s.tableOf s.currentDevNo).map fun t =>
    (s.setTableOf s.currentDevNo (writeTable hashMin node t), 1)

/-- The body of the read loop: the object keeps the data of the last match. -/
def readBody (v : HtObject × Bool) (node : HtNode) : (HtObject × Bool) × Visit HtNode :=
  if v.1.key = node.htObj.key then (({ v.1 with data := node.htObj.data }, true), .keep node)
  else (v, .keep node)

/-- The part of the read between the choice of the table and the return. An empty bucket is
answered before the loop. -/
def readTable (htData : HtObject) (t : Hashtable) : Int32 × HtObject :=
  if t (hashMin htData.key) = [] then (-EINVAL, { htData with data := -1 })
  else
    let ((htData, flag), _) := walk readBody (htData, false) (t (hashMin htData.key))
    if flag then (1, htData) else (-EINVAL, { htData with data := -1 })

/-- `htData` is what the user's buffer holds; the result is what it holds on return. -/
def ht530DrvDriverRead (htData : HtObject) (s : HtState) :
    Option (HtState × Int32 × HtObject) :=
  (s.tableOf s.currentDevNo).map fun t => (s, readTable hashMin htData t)

/-- `kfree` of a node that `hash_del` has unlinked from its bucket. -/
def freeNode (bkt : Fin 128) (v : Hashtable × List (Event Nat)) (node : HtNode) :
    Hashtable × List (Event Nat) :=
  (Function.update v.1 bkt ((v.1 bkt).erase node), .release node.addr :: v.2)

/-- `hash_for_each_safe` over the whole table. The next node is saved before the body, so the
walk of a bucket is over the chain it started with. -/
def freeTable (t : Hashtable) (nodes : List (Event Nat)) : Hashtable × List (Event Nat) :=
  (List.finRange 128).foldl (fun v bkt => (v.1 bkt).foldl (freeNode bkt) v) (t, nodes)

/-- `if(!hash_empty(tbl))` the nodes are freed. -/
def HtState.kfreeTable (s : HtState) (t : Hashtable) : HtState :=
  { s with nodes := if ∀ bkt, t bkt = [] then s.nodes else (freeTable t s.nodes).2 }

def ht530DrvDriverRelease (s : HtState) : Option (HtState × Int32) :=
  (s.tableOf s.currentDevNo).map fun t =>
    ((s.kfreeTable t).setTableOf s.currentDevNo hashInit, 0)

/-- The search for a key whose bucket is `n`, from `nbkt` on. -/
def findNbkt (n : Int32) : Nat → Nat → Nat
  | 0, nbkt => nbkt
  | fuel + 1, nbkt =>
    if Int32.ofNat (hashMin (Int32.ofNat nbkt)) = n then nbkt else findNbkt n fuel (nbkt + 1)

/-- The body of the dump loop: copy out while fewer than eight objects are. -/
def dumpBody (v : Nat × (Fin 8 → HtObject)) (node : HtNode) :
    (Nat × (Fin 8 → HtObject)) × Visit HtNode :=
  if h : v.1 < 8 then ((v.1 + 1, Function.update v.2 ⟨v.1, h⟩ node.htObj), .keep node)
  else (v, .leave node)

inductive IoctlNum where
  | dump
  | other
  deriving DecidableEq, Repr

/-- `DUMP` fills in `object_array` and leaves the field `n` as the user set it. The copy of
`val` goes to the address of the kernel's own argument and reaches no user. -/
def ht530DrvDriverIoctl (ioctlnum : IoctlNum) (dArg : DumpArg) (s : HtState) :
    Option (HtState × Int32 × DumpArg) :=
  match ioctlnum with
  | .other => some (s, -EINVAL, dArg)
  | .dump =>
    let nbkt := findNbkt hashMin dArg.n 1000000 0
    if nbkt > 128 then some (s, -EINVAL, dArg)
    else
      (s.tableOf s.currentDevNo).map fun t =>
        let ((_, objects), _) :=
          walk dumpBody (0, dArg.objectArray) (t (hashMin (Int32.ofNat nbkt)))
        (s, 0, { dArg with objectArray := objects })

end Operations

/-! ## Files -/

/-- A call made through a file of the driver. -/
inductive Call where
  | openFile
  | writeFile (obj : HtObject)
  | readFile (obj : HtObject)
  | dump (arg : DumpArg)
  | releaseFile

/-- What the caller gets back: the return value and what its buffer holds. -/
inductive Reply where
  | status (ret : Int32)
  | object (ret : Int32) (obj : HtObject)
  | dumped (ret : Int32) (arg : DumpArg)

/-- A call together with the minor its file was opened on. Only an open looks at the minor. -/
abbrev FileOp := Minor × Call

def fileOp (hashMin : Int32 → Fin 128) (s : HtState) (op : FileOp) : Option (HtState × Reply) :=
  match op.2 with
  | .openFile => some (ht530DrvDriverOpen op.1 s, .status 0)
  | .writeFile obj => (ht530DrvDriverWrite hashMin obj s).map fun (t, ret) => (t, .status ret)
  | .readFile obj =>
    (ht530DrvDriverRead hashMin obj s).map fun (t, ret, obj') => (t, .object ret obj')
  | .dump arg =>
    (ht530DrvDriverIoctl hashMin .dump arg s).map fun (t, ret, arg') => (t, .dumped ret arg')
  | .releaseFile => (ht530DrvDriverRelease s).map fun (t, ret) => (t, .status ret)

end KernelDrivers.HashTable
