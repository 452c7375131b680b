import KernelDrivers.HashTable.DumpReply
import KernelDrivers.HashTable.Workers

/-!
# The test program on the driver

`main` opens both devices before it creates its threads, and the driver directs every call to the
device opened last. So for the threads the two files are one dictionary, in every interleaving,
and the first device stays empty. The dumps at the end ask for bucket 8 each time: they print one
line 256 times.
-/

namespace KernelDrivers.HashTable
open Lib

/-! ## The calls as the driver gets them -/

/-- The device of a file. -/
def TableFile.minor : TableFile → Minor
  | .fdWrite1 => ⟨0, Nat.zero_lt_two⟩
  | .fdWrite2 => ⟨1, Nat.one_lt_two⟩

def mainOpens : List FileOp :=
  [(TableFile.fdWrite1.minor, .openFile), (TableFile.fdWrite2.minor, .openFile)]

/-- Before a read the program sets the key of its object. The data is what `malloc` left. -/
inductive TableCall.Makes : TableCall → FileOp → Prop
  | write (file : TableFile) (htNode : HtObject) :
      Makes (.write file htNode) (file.minor, .writeFile htNode)
  | read (file : TableFile) (key data : Int32) :
      Makes (.read file key) (file.minor, .readFile ⟨key, data⟩)

/-- A line of `read_hash_table`: the table, the key, and the data if it is found. -/
structure Line where
  file : TableFile
  key : Int32
  data : Option Int32
  deriving DecidableEq, Repr

/-- The end of `read_hash_table`. It does not look at the value returned. -/
def printFound (file : TableFile) (htNode : HtObject) : Line :=
  ⟨file, htNode.key, if htNode.data = -1 then none else some htNode.data⟩

def printReply : TableCall → Reply → Option Line
  | .read file _, .object _ htNode => some (printFound file htNode)
  | _, _ => none

/-- What the program prints for the replies to its calls. -/
def printedLines : List TableCall → List Reply → List Line
  | call :: calls, reply :: replies =>
    (printReply call reply).toList ++ printedLines calls replies
  | _, _ => []

def WorkerEvent.calls : WorkerEvent → List TableCall
  | .filled calls | .operated calls => calls

/-! ## One dictionary -/

abbrev Dictionary := Int32 → Option Int32

namespace Dictionary

/-- A write. Zero erases. -/
def put (d : Dictionary) (htNode : HtObject) : Dictionary :=
  Function.update d htNode.key (if htNode.data = 0 then none else some htNode.data)

def afterCall (d : Dictionary) : TableCall → Dictionary
  | .write _ htNode => d.put htNode
  | .read _ _ => d

/-- What is printed of a dictionary. -/
def line (d : Dictionary) : TableCall → Option Line
  | .write _ _ => none
  | .read file key => some ⟨file, key, d key⟩

/-- What is printed for the calls, whichever file they use. -/
def lines (d : Dictionary) : List TableCall → List Line
  | [] => []
  | call :: calls => (d.line call).toList ++ lines (d.afterCall call) calls

end Dictionary

section Serving

variable {hashMin : Int32 → Fin 128}

/-- The driver after both opens: the second table is the dictionary, and it holds no -1. -/
structure Serves (hashMin : Int32 → Fin 128) (s : HtState) (d : Dictionary) : Prop where
  currentDevNo : s.currentDevNo = 1
  first : s.view 0 = some fun _ => []
  second : ∃ t, s.view 1 = some t ∧ TableInv hashMin t ∧ contents hashMin t = d
  found : ∀ key, d key ≠ some (-1)

theorem serves_opens (hashMin : Int32 → Fin 128) :
    ∃ s, run (fileOp hashMin) ht530DrvDriverInit mainOpens = some (s, [.status 0, .status 0]) ∧
      Serves hashMin s fun _ => none := by
  refine ⟨_, rfl, rfl, rfl, ⟨fun _ => [], rfl, tableInv_empty, rfl⟩, ?_⟩
  simp

/-- A call through either file acts on the dictionary. -/
theorem Serves.call {s : HtState} {d : Dictionary} (h : Serves hashMin s d) {call : TableCall}
    {op : FileOp} (hop : call.Makes op) (hdata : ∀ file htNode, call = .write file htNode →
      htNode.data ≠ -1) :
    ∃ s' reply, fileOp hashMin s op = some (s', reply) ∧ Serves hashMin s' (d.afterCall call) ∧
      printReply call reply = d.line call := by
  obtain ⟨t, ht, hinv, rfl⟩ := h.second
  have hview : s.view s.currentDevNo = some t := h.currentDevNo ▸ ht
  cases hop with
  | write file htNode =>
    have hwrite : Call.writeFile htNode ≠ .openFile := by simp
    obtain ⟨s', hfile, hcur, hview'⟩ := fileOp_refines hview file.minor hwrite
    refine ⟨s', _, hfile, ⟨hcur.trans h.currentDevNo, ?_, ?_, ?_⟩, rfl⟩
    · rw [hview', h.currentDevNo, Function.update_of_ne (by decide), h.first]
    · refine ⟨_, ?_, hinv.write htNode, contents_write hinv htNode⟩
      rw [hview', h.currentDevNo, Function.update_self]
    · intro key
      have hne := hdata file htNode rfl
      have hfound := h.found key
      simp only [Dictionary.afterCall, Dictionary.put, Function.update_apply]
      grind
  | read file key data =>
    have hread : Call.readFile ⟨key, data⟩ ≠ .openFile := by simp
    obtain ⟨s', hfile, hcur, hview'⟩ := fileOp_refines hview file.minor hread
    refine ⟨s', _, hfile, ⟨hcur.trans h.currentDevNo, ?_, ?_, h.found⟩, ?_⟩
    · rw [hview', h.currentDevNo, Function.update_of_ne (by decide), h.first]
    · refine ⟨t, ?_, hinv, rfl⟩
      rw [hview', h.currentDevNo, Function.update_self]
      rfl
    · have hfound := h.found key
      simp only [callStep, readChain_eq hinv, printReply, Dictionary.line]
      cases hkey : contents hashMin t key with
      | none => simp [answer, printFound]
      | some stored =>
        have hne : stored ≠ -1 := fun heq => hfound (heq ▸ hkey)
        simp [answer, printFound, hne]

/-- A run of calls, in the order in which they are made. -/
theorem Serves.run {calls : List TableCall} {ops : List FileOp}
    (hops : List.Forall₂ TableCall.Makes calls ops)
    (hdata : ∀ file htNode, .write file htNode ∈ calls → htNode.data ≠ -1) {s : HtState}
    {d : Dictionary} (h : Serves hashMin s d) :
    ∃ s' replies, Lib.run (fileOp hashMin) s ops = some (s', replies) ∧
      Serves hashMin s' (calls.foldl Dictionary.afterCall d) ∧
      printedLines calls replies = d.lines calls := by
  induction hops generalizing s d with
  | nil => exact ⟨s, [], rfl, h, rfl⟩
  | cons hop hops ih =>
    obtain ⟨s₁, reply, hfile, hserves, hprint⟩ := h.call hop fun file htNode hcall =>
      hdata file htNode (hcall ▸ List.mem_cons_self)
    obtain ⟨s', replies, hrun, hserves', hlines⟩ := ih
      (fun file htNode hmem => hdata file htNode (List.mem_cons_of_mem _ hmem)) hserves
    refine ⟨s', reply :: replies, run_cons_eq_some.mpr ⟨s₁, reply, replies, hfile, hrun, rfl⟩,
      hserves', ?_⟩
    rw [printedLines, hprint, hlines, Dictionary.lines]

end Serving

/-! ## The bodies of the threads -/

/-- What a body calls: a write whose entry is read back, or a read alone. Deleting writes 0. -/
inductive Body : List TableCall → Prop
  | put (file : TableFile) (htNode : HtObject)
      (hkey : 0 ≤ htNode.key.toInt ∧ htNode.key.toInt < 200)
      (hdata : 0 ≤ htNode.data.toInt ∧ htNode.data.toInt < 200) :
      Body [.write file htNode, .read file htNode.key]
  | search (file : TableFile) (key : Int32) (hkey : 0 ≤ key.toInt ∧ key.toInt < 200) :
      Body [.read file key]

section Bodies

variable {ω : Type} {libc : Libc ω}

/-- `rand() % 200` of a `rand` that answers no negative number. -/
theorem mod_200 {x : Int32} (h : 0 ≤ x.toInt) :
    0 ≤ (x % 200).toInt ∧ (x % 200).toInt < 200 := by
  have h200 : (200 : Int32).toInt = 200 := rfl
  rw [Int32.toInt_mod, h200, Int.tmod_eq_emod_of_nonneg h]
  omega

theorem body_underLock {operation : ω → List TableCall × ω}
    (hoperation : ∀ w, Body (operation w).1)
    {count : WorkerGlobals ω → Option (WorkerGlobals ω)} {s s' : WorkerGlobals ω}
    {calls : List TableCall}
    (h : underLock libc operation count s = some (s', some calls)) : Body calls := by
  simp only [underLock] at h
  split at h
  next => cases h
  next =>
    obtain ⟨s₁, -, heq⟩ := Option.map_eq_some_iff.mp h
    obtain ⟨-, hcalls⟩ := Prod.mk.inj heq
    exact Option.some.inj hcalls ▸ hoperation _

variable (hrand : ∀ w, 0 ≤ (libc.rand w).1.toInt)
include hrand

theorem body_add (w : ω) : Body (addToHashTable libc w).1 :=
  .put _ _ (mod_200 (hrand _)) (mod_200 (hrand _))

theorem body_operate (w : ω) : Body (operateOnHashTable libc w).1 := by
  have hzero : 0 ≤ (0 : Int32).toInt ∧ (0 : Int32).toInt < 200 := by decide
  simp only [operateOnHashTable]
  split
  · exact .search _ _ (mod_200 (hrand _))
  · split
    · exact body_add hrand _
    · exact .put _ _ (mod_200 (hrand _)) hzero

theorem body_workerEvent {s : WorkerGlobals ω} {t : Worker} {e : WorkerEvent}
    (h : workerEvent libc s t = some e) : Body e.calls := by
  cases t with
  | addData =>
    obtain ⟨⟨s', calls⟩, hbody, hcalls⟩ := Option.bind_eq_some_iff.mp h
    obtain ⟨calls, rfl, rfl⟩ := Option.map_eq_some_iff.mp hcalls
    exact body_underLock (body_add hrand) hbody
  | operate =>
    obtain ⟨⟨s', calls⟩, hbody, hcalls⟩ := Option.bind_eq_some_iff.mp h
    obtain ⟨calls, rfl, rfl⟩ := Option.map_eq_some_iff.mp hcalls
    exact body_underLock (body_operate hrand) hbody
  | testData | testOperations | finished => cases h

/-- Every event of a run is a body. -/
theorem body_events {N : Nat} {w : ω} {moves : List (PoolMove Worker)} {os : List Unit}
    {p : Pool (WorkerGlobals ω) Worker}
    (hrun : run (workersMove libc N) (workersInit w) moves = some (p, os)) :
    ∀ e ∈ poolEvents (threadFunction libc) (pthreadCreate N) (workerEvent libc) (workersInit w)
      moves, Body e.calls := by
  refine run_pool_events (workerEvent libc) (fun _ es => ∀ e ∈ es, Body e.calls) ?_ ?_ nofun hrun
  · intro p es i t s' t' hes _ _ e he
    rcases List.mem_append.mp he with he | he
    · exact hes e he
    · exact body_workerEvent hrand (Option.mem_toList.mp he)
  · intro p es t s' hes _
    exact hes

end Bodies

/-- The calls of a run of the threads, in the order in which they are made. -/
def callsOf {ω : Type} (libc : Libc ω) (numberOfThreads : Nat) (w : ω)
    (moves : List (PoolMove Worker)) : List TableCall :=
  (poolEvents (threadFunction libc) (pthreadCreate numberOfThreads) (workerEvent libc)
    (workersInit w) moves).flatMap WorkerEvent.calls

theorem Body.data_ne {calls : List TableCall} (h : Body calls) {file : TableFile}
    {htNode : HtObject} (hmem : .write file htNode ∈ calls) : htNode.data ≠ -1 := by
  have hminus : (-1 : Int32).toInt = -1 := rfl
  cases h with
  | put file' htNode' hkey hdata =>
    obtain ⟨-, rfl⟩ : file = file' ∧ htNode = htNode' := by simpa using hmem
    rintro heq
    rw [heq] at hdata
    omega
  | search file' key hkey => simp at hmem

/-- A body prints one line: the entry it has written, if it has written one. -/
theorem Body.line {calls : List TableCall} (h : Body calls) (d : Dictionary) :
    ∃ line, d.lines calls = [line] ∧ ∀ file htNode rest, calls = .write file htNode :: rest →
      line = ⟨file, htNode.key, if htNode.data = 0 then none else some htNode.data⟩ := by
  cases h with
  | put file htNode hkey hdata =>
    refine ⟨_, rfl, ?_⟩
    rintro file' htNode' rest heq
    obtain ⟨⟨rfl, rfl⟩, -⟩ : (file = file' ∧ htNode = htNode') ∧ _ = rest := by simpa using heq
    simp [Dictionary.afterCall, Dictionary.put]
  | search file key hkey => exact ⟨_, rfl, nofun⟩

theorem Body.written {calls rest : List TableCall} (h : Body calls) {file : TableFile}
    {htNode : HtObject} (hcalls : calls = .write file htNode :: rest) :
    (0 ≤ htNode.key.toInt ∧ htNode.key.toInt < 200) ∧
      0 ≤ htNode.data.toInt ∧ htNode.data.toInt < 200 := by
  cases h with
  | put file' htNode' hkey hdata =>
    obtain ⟨⟨-, rfl⟩, -⟩ : (file' = file ∧ htNode' = htNode) ∧ _ = rest := by simpa using hcalls
    exact ⟨hkey, hdata⟩
  | search file' key hkey => simp at hcalls

theorem Dictionary.lines_append (d : Dictionary) (calls calls' : List TableCall) :
    d.lines (calls ++ calls') = d.lines calls ++ lines (calls.foldl afterCall d) calls' := by
  induction calls generalizing d with
  | nil => rfl
  | cons call calls ih => simp [lines, ih]

theorem lines_bodies {es : List WorkerEvent} (hes : ∀ e ∈ es, Body e.calls) (d : Dictionary) :
    (d.lines (es.flatMap WorkerEvent.calls)).length = es.length ∧
      ∀ (i : Nat) e file htNode rest, es[i]? = some e → e.calls = .write file htNode :: rest →
        (d.lines (es.flatMap WorkerEvent.calls))[i]? =
          some ⟨file, htNode.key, if htNode.data = 0 then none else some htNode.data⟩ := by
  induction es generalizing d with
  | nil => exact ⟨rfl, nofun⟩
  | cons e es ih =>
    obtain ⟨line, hline, hwritten⟩ := (hes e List.mem_cons_self).line d
    obtain ⟨hlength, hlines⟩ := ih (fun e he => hes e (List.mem_cons_of_mem _ he))
      (e.calls.foldl Dictionary.afterCall d)
    rw [List.flatMap_cons, Dictionary.lines_append, hline]
    refine ⟨by simp [hlength], ?_⟩
    rintro (_ | i) e' file htNode rest he hcalls
    · obtain rfl : e = e' := by simpa using he
      simp [hwritten file htNode rest hcalls]
    · exact hlines i e' file htNode rest he hcalls

/-- A library whose `rand` always gives the same answer. -/
def libcConst (x : Int32) : Libc Unit := ⟨fun w => (x, w), fun w => (0, w)⟩

theorem libcConst_rand {x : Int32} (h : 0 ≤ x.toInt) (w : Unit) :
    0 ≤ ((libcConst x).rand w).1.toInt := h

/-- One thread, up to the end of its first body. -/
def oneAddition : List (PoolMove Worker) := [.start .testData, .step 0, .step 0]

def oneAdditionOps (x : Int32) : List FileOp :=
  [((fileOf (x % 2)).minor, .writeFile ⟨x % 200, x % 200⟩),
    ((fileOf (x % 2)).minor, .readFile ⟨x % 200, 0⟩)]

theorem oneAddition_run (x : Int32) :
    ∃ p os, run (workersMove (libcConst x) 1) (workersInit ()) oneAddition = some (p, os) ∧
      List.Forall₂ TableCall.Makes (callsOf (libcConst x) 1 () oneAddition) (oneAdditionOps x) :=
  ⟨_, _, rfl, .cons (.write _ _) (.cons (.read _ _ _) .nil)⟩

section Program

variable {ω : Type} {libc : Libc ω} {N : Nat} {w : ω} {moves : List (PoolMove Worker)}
  {os : List Unit} {p : Pool (WorkerGlobals ω) Worker}

/-- Where the driver is whenever the threads are stopped. -/
theorem serves_threads (hashMin : Int32 → Fin 128) (hrand : ∀ w, 0 ≤ (libc.rand w).1.toInt)
    (hrun : run (workersMove libc N) (workersInit w) moves = some (p, os)) {ops : List FileOp}
    (hops : List.Forall₂ TableCall.Makes (callsOf libc N w moves) ops) :
    ∃ s replies, run (fileOp hashMin) ht530DrvDriverInit (mainOpens ++ ops) =
        some (s, .status 0 :: .status 0 :: replies) ∧
      Serves hashMin s ((callsOf libc N w moves).foldl Dictionary.afterCall fun _ => none) ∧
      printedLines (callsOf libc N w moves) replies =
        Dictionary.lines (fun _ => none) (callsOf libc N w moves) := by
  have hdata : ∀ file htNode, .write file htNode ∈ callsOf libc N w moves →
      htNode.data ≠ -1 := by
    intro file htNode hmem
    obtain ⟨e, he, hcall⟩ := List.mem_flatMap.mp hmem
    exact (body_events hrand hrun e he).data_ne hcall
  obtain ⟨s₀, hopens, hserves⟩ := serves_opens hashMin
  obtain ⟨s, replies, hcalls, hserves', hlines⟩ := hserves.run hops hdata
  exact ⟨s, replies, run_trans _ hopens hcalls, hserves', hlines⟩

/-- In every interleaving of the threads, what the program prints for its calls is what one
dictionary holds at each of them, though half of the calls are made through either file, and the
first device stays empty. -/
theorem prints_one_dictionary (hashMin : Int32 → Fin 128)
    (hrand : ∀ w, 0 ≤ (libc.rand w).1.toInt)
    (hrun : run (workersMove libc N) (workersInit w) moves = some (p, os)) {ops : List FileOp}
    (hops : List.Forall₂ TableCall.Makes (callsOf libc N w moves) ops) :
    ∃ s replies, run (fileOp hashMin) ht530DrvDriverInit (mainOpens ++ ops) =
        some (s, .status 0 :: .status 0 :: replies) ∧
      printedLines (callsOf libc N w moves) replies =
        Dictionary.lines (fun _ => none) (callsOf libc N w moves) ∧
      s.view 0 = some fun _ => [] := by
  obtain ⟨s, replies, hfile, hserves, hlines⟩ := serves_threads hashMin hrand hrun hops
  exact ⟨s, replies, hfile, hlines, hserves.first⟩

theorem prints_one_dictionary_addition :
    ∃ s replies, run (fileOp fun _ => 0) ht530DrvDriverInit (mainOpens ++ oneAdditionOps 1) =
        some (s, .status 0 :: .status 0 :: replies) ∧
      printedLines (callsOf (libcConst 1) 1 () oneAddition) replies =
        [⟨.fdWrite1, 1, some 1⟩] ∧
      s.view 0 = some fun _ => [] := by
  obtain ⟨p, os, hrun, hops⟩ := oneAddition_run 1
  exact prints_one_dictionary _ (libcConst_rand (by decide)) hrun hops

/-- Each body prints one line. After a write, whose key and data are below 200, this is the entry
written, and that nothing is found after a deletion or an addition of 0, whatever the other threads
do. -/
theorem prints_what_it_wrote (hashMin : Int32 → Fin 128)
    (hrand : ∀ w, 0 ≤ (libc.rand w).1.toInt)
    (hrun : run (workersMove libc N) (workersInit w) moves = some (p, os)) {ops : List FileOp}
    (hops : List.Forall₂ TableCall.Makes (callsOf libc N w moves) ops) :
    ∃ s replies, run (fileOp hashMin) ht530DrvDriverInit (mainOpens ++ ops) =
        some (s, .status 0 :: .status 0 :: replies) ∧
      (printedLines (callsOf libc N w moves) replies).length =
        (poolEvents (threadFunction libc) (pthreadCreate N) (workerEvent libc) (workersInit w)
          moves).length ∧
      ∀ (i : Nat) e file htNode rest,
        (poolEvents (threadFunction libc) (pthreadCreate N) (workerEvent libc) (workersInit w)
          moves)[i]? = some e → e.calls = .write file htNode :: rest →
        (0 ≤ htNode.key.toInt ∧ htNode.key.toInt < 200) ∧
        (0 ≤ htNode.data.toInt ∧ htNode.data.toInt < 200) ∧
        (printedLines (callsOf libc N w moves) replies)[i]? =
          some ⟨file, htNode.key, if htNode.data = 0 then none else some htNode.data⟩ := by
  obtain ⟨s, replies, hfile, hserves, hlines⟩ := serves_threads hashMin hrand hrun hops
  have hbodies := body_events hrand hrun
  obtain ⟨hlength, hwritten⟩ := lines_bodies hbodies fun _ => none
  refine ⟨s, replies, hfile, ?_, fun i e file htNode rest he hcalls => ?_⟩
  · rw [hlines]
    exact hlength
  · obtain ⟨hkey, hdata⟩ := (hbodies e (List.mem_of_getElem? he)).written hcalls
    refine ⟨hkey, hdata, ?_⟩
    rw [hlines]
    exact hwritten i e file htNode rest he hcalls

theorem prints_what_it_wrote_addition :
    ∃ s replies, run (fileOp fun _ => 0) ht530DrvDriverInit (mainOpens ++ oneAdditionOps 1) =
        some (s, .status 0 :: .status 0 :: replies) ∧
      (printedLines (callsOf (libcConst 1) 1 () oneAddition) replies)[0]? =
        some ⟨.fdWrite1, 1, some 1⟩ := by
  obtain ⟨p, os, hrun, hops⟩ := oneAddition_run 1
  obtain ⟨s, replies, hfile, -, hwritten⟩ :=
    prints_what_it_wrote (fun _ => 0) (libcConst_rand (by decide)) hrun hops
  exact ⟨s, replies, hfile, (hwritten 0 _ .fdWrite1 ⟨1, 1⟩ _ rfl rfl).2.2⟩

end Program

/-! ## The dumps -/

/-- A turn of a dump loop. All turns share the block `darg`, and the result of the `ioctl` is not
looked at. -/
def dumpLine (hashMin : Int32 → Fin 128) (v : HtState × DumpArg) (file : TableFile) :
    Option ((HtState × DumpArg) × List HtObject) :=
  (fileOp hashMin v.1 (file.minor, .dump (lineRequest v.2))).bind fun
    | (s, .dumped _ darg) => (printedEntries darg).map fun entries => ((s, darg), entries)
    | _ => none

/-- The two dump loops. -/
def mainDumps : List TableFile := .replicate 128 .fdWrite1 ++ .replicate 128 .fdWrite2

def mainCloses : List FileOp :=
  [(TableFile.fdWrite1.minor, .releaseFile), (TableFile.fdWrite2.minor, .releaseFile)]

/-- Objects behind the last one copied are kept. -/
theorem walk_dumpObject_kept {xs : List HtObject} {c : Nat} (objects : Fin 8 → HtObject)
    {i : Fin 8} (hi : c + xs.length ≤ i) :
    (walk dumpObject (c, objects) xs).1.2 i = objects i := by
  induction xs generalizing c objects with
  | nil => rfl
  | cons o xs ih =>
    rw [List.length_cons] at hi
    have hlt : c < 8 := by omega
    have hstep : (walk dumpObject (c, objects) (o :: xs)).1 =
        (walk dumpObject (c + 1, Function.update objects ⟨c, hlt⟩ o) xs).1 := by
      simp [walk, dumpObject, hlt]
    rw [hstep, ih _ (by omega)]
    exact Function.update_of_ne (Fin.ne_of_gt (by simp [Fin.lt_def]; omega)) _ _

/-- The objects after a dump. -/
theorem walk_dumpObject_apply (objects : Fin 8 → HtObject) (xs : List HtObject) (i : Fin 8) :
    (walk dumpObject (0, objects) xs).1.2 i = xs[(i : Nat)]?.getD (objects i) := by
  obtain ⟨-, -, hcopied⟩ := @walk_dumpObject xs 0 (Nat.zero_le 8) objects
  by_cases hi : i < xs.length
  · have hget := hcopied i (by omega) hi
    simp only [Nat.zero_add, Fin.eta] at hget
    rw [hget, List.getElem?_eq_getElem hi, Option.getD_some]
  · rw [walk_dumpObject_kept objects (by omega), List.getElem?_eq_none (by omega), Option.getD_none]

/-- A line of eight objects. -/
theorem printedEntries_eight (objects : Fin 8 → HtObject) :
    printedEntries ⟨8, objects⟩ = some (List.ofFn objects) := by
  have hcopy : (walk dumpObject (0, objects) (List.ofFn objects)).1.2 = objects := by
    funext i
    rw [walk_dumpObject_apply, List.getElem?_eq_getElem (by rw [List.length_ofFn]; exact i.isLt),
      List.getElem_ofFn, Option.getD_some]
  have hlength : (8 : Int32).toInt.toNat = min 8 (List.ofFn objects).length := by
    rw [List.length_ofFn]
    rfl
  have hprint := @printedEntries_eq (List.ofFn objects) objects 8 hlength
  rw [hcopy] at hprint
  rw [hprint, List.take_of_length_le (by simp)]

/-- What a dump leaves: the first objects of the bucket, and behind them what was there. -/
theorem ofFn_walk_dumpObject (objects : Fin 8 → HtObject) (xs : List HtObject) :
    List.ofFn (walk dumpObject (0, objects) xs).1.2 =
      xs.take 8 ++ (List.ofFn objects).drop xs.length := by
  refine List.ext_getElem (by simp; omega) fun i hi hi' => ?_
  rw [List.getElem_ofFn, walk_dumpObject_apply, List.getElem_append]
  grind

/-- A second dump of the bucket into the same block finds it as the first has left it. -/
theorem walk_dumpObject_again (objects : Fin 8 → HtObject) (xs : List HtObject) :
    (walk dumpObject (0, (walk dumpObject (0, objects) xs).1.2) xs).1.2 =
      (walk dumpObject (0, objects) xs).1.2 := by
  funext i
  simp only [walk_dumpObject_apply]
  grind

theorem dumpLine_eq {s : HtState} {t : ObjectTable} (ht : s.view s.currentDevNo = some t)
    (darg : DumpArg) (file : TableFile) :
    dumpLine hashMin7 (s, darg) file =
      some ((s, ⟨8, (walk dumpObject (0, darg.objectArray) (t 8)).1.2⟩),
        (t 8).take 8 ++ (List.ofFn darg.objectArray).drop (t 8).length) := by
  have hreply := @dumpReply_bucket 8 (by decide) darg.objectArray t
  have hop : fileOp hashMin7 s (file.minor, .dump (lineRequest darg)) =
      some (s, .dumped (dumpReply hashMin7 (lineRequest darg) t).1
        (dumpReply hashMin7 (lineRequest darg) t).2) := by
    obtain ⟨tbl, htbl, rfl⟩ := Option.map_eq_some_iff.mp ht
    simp only [fileOp, ht530DrvDriverIoctl, htbl, dumpReply]
    split
    · rfl
    · simp only [Option.map_some, walk_dumpBody]
      rfl
  have hrequest : dumpReply hashMin7 (lineRequest darg) t =
      (0, ⟨8, (walk dumpObject (0, darg.objectArray) (t 8)).1.2⟩) := hreply
  rw [dumpLine, hop, hrequest, Option.bind_some]
  simp only [printedEntries_eight, Option.map_some, ofFn_walk_dumpObject]

theorem run_dumpLine {s : HtState} {t : ObjectTable} (ht : s.view s.currentDevNo = some t)
    (darg : DumpArg) (files : List TableFile) :
    ∃ darg', run (dumpLine hashMin7) (s, darg) files = some ((s, darg'),
      .replicate files.length
        ((t 8).take 8 ++ (List.ofFn darg.objectArray).drop (t 8).length)) := by
  induction files generalizing darg with
  | nil => exact ⟨darg, rfl⟩
  | cons file files ih =>
    obtain ⟨darg', hrun⟩ := ih ⟨8, (walk dumpObject (0, darg.objectArray) (t 8)).1.2⟩
    -- what the next dump finds behind the objects is what this one has left there
    have hsame : (t 8).take 8 ++
        (List.ofFn (walk dumpObject (0, darg.objectArray) (t 8)).1.2).drop (t 8).length =
          (t 8).take 8 ++ (List.ofFn darg.objectArray).drop (t 8).length := by
      rw [← ofFn_walk_dumpObject, walk_dumpObject_again, ofFn_walk_dumpObject]
    rw [hsame] at hrun
    exact ⟨darg', run_cons_eq_some.mpr ⟨_, _, _, dumpLine_eq ht darg file, hrun, rfl⟩⟩

section Program

variable {ω : Type} {libc : Libc ω} {N : Nat} {w : ω} {moves : List (PoolMove Worker)}
  {os : List Unit} {p : Pool (WorkerGlobals ω) Worker}

/-- Whatever the threads have done, the 256 lines of the two dumps are the same one: up to eight
objects of bucket 8 of the second table, and behind them what `malloc` left in the block. The
dumps change nothing, and after both files are closed both tables are empty. -/
theorem dumps_print_one_line (hrand : ∀ w, 0 ≤ (libc.rand w).1.toInt)
    (hrun : run (workersMove libc N) (workersInit w) moves = some (p, os)) {ops : List FileOp}
    (hops : List.Forall₂ TableCall.Makes (callsOf libc N w moves) ops) (darg : DumpArg) :
    ∃ s replies t darg' s', run (fileOp hashMin7) ht530DrvDriverInit (mainOpens ++ ops) =
        some (s, replies) ∧ s.view 1 = some t ∧
      run (dumpLine hashMin7) (s, darg) mainDumps = some ((s, darg'),
        .replicate 256 ((t 8).take 8 ++ (List.ofFn darg.objectArray).drop (t 8).length)) ∧
      run (fileOp hashMin7) s mainCloses = some (s', [.status 0, .status 0]) ∧
      s'.view = fun _ => some fun _ => [] := by
  obtain ⟨s, replies, hfile, hserves, -⟩ := serves_threads hashMin7 hrand hrun hops
  obtain ⟨t, ht, -⟩ := hserves.second
  have hview : s.view s.currentDevNo = some t := hserves.currentDevNo ▸ ht
  obtain ⟨darg', hdumps⟩ := run_dumpLine hview darg mainDumps
  have hlength : mainDumps.length = 256 := by
    rw [mainDumps, List.length_append, List.length_replicate, List.length_replicate]
  rw [hlength] at hdumps
  have hrelease : Call.releaseFile ≠ .openFile := nofun
  obtain ⟨s₁, hfirst, hcur, hview₁⟩ := fileOp_refines hview TableFile.fdWrite1.minor hrelease
  have hempty : s₁.view s₁.currentDevNo = some fun _ => [] := by
    rw [hcur, hview₁, Function.update_self]
    rfl
  obtain ⟨s₂, hsecond, hcur₂, hview₂⟩ := fileOp_refines hempty TableFile.fdWrite2.minor hrelease
  refine ⟨s, _, t, darg', s₂, hfile, ht, hdumps,
    run_cons_eq_some.mpr ⟨s₁, _, _, hfirst, run_singleton _ hsecond, rfl⟩, ?_⟩
  funext m
  rw [hview₂, hcur, hserves.currentDevNo]
  by_cases hm : m = 1
  · rw [hm, Function.update_self]
    rfl
  · obtain rfl : m = 0 := minor_eq_zero (by decide) hm
    rw [Function.update_of_ne hm, hview₁, hserves.currentDevNo, Function.update_of_ne hm,
      hserves.first]

/-- The thread adds the key 26, whose bucket is 8. -/
theorem dumps_print_one_line_addition :
    ∃ s replies darg' s', run (fileOp hashMin7) ht530DrvDriverInit
        (mainOpens ++ oneAdditionOps 26) = some (s, replies) ∧
      run (dumpLine hashMin7) (s, ⟨0, fun _ => ⟨0, 0⟩⟩) mainDumps = some ((s, darg'),
        .replicate 256 (⟨26, 26⟩ :: .replicate 7 ⟨0, 0⟩)) ∧
      run (fileOp hashMin7) s mainCloses = some (s', [.status 0, .status 0]) ∧
      s'.view = fun _ => some fun _ => [] := by
  obtain ⟨p, os, hrun, hops⟩ := oneAddition_run 26
  obtain ⟨s, replies, t, darg', s', hfile, ht, hdumps, hcloses⟩ :=
    dumps_print_one_line (libcConst_rand (by decide)) hrun hops ⟨0, fun _ => ⟨0, 0⟩⟩
  have hbucket : (run (fileOp hashMin7) ht530DrvDriverInit (mainOpens ++ oneAdditionOps 26)).bind
      (fun r => (r.1.view 1).map fun t => t 8) = some [⟨26, 26⟩] := rfl
  rw [hfile, Option.bind_some, ht] at hbucket
  have hchain : t 8 = [⟨26, 26⟩] := Option.some.inj hbucket
  rw [hchain] at hdumps
  exact ⟨s, replies, darg', s', hfile, hdumps, hcloses⟩

end Program

end KernelDrivers.HashTable
