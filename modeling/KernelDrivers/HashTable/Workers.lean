import KernelDrivers.HashTable.Driver
import KernelDrivers.Lib.Overshoot

/-!
# The worker threads of the test program

The threads of `Hash Table Driver/Main.c` fill the two tables and then work on them. A loop test
reads its counter outside the lock, and the body under it runs in one step. So a counter may pass
its limit, by less than one for each thread. A library call's answer is the environment's; the
time it sleeps and what it prints are left out.
-/

namespace KernelDrivers.HashTable
open Lib

def MAX_HASHTABLE_DATA : Int32 := 200
def MAX_TABLE_OPERATION : Int32 := 100
def SEARCH_OPERATION : Int32 := 1
def ADD_OPERATION : Int32 := 2

/-! ## The operations -/

/-- The C library, over what it keeps between its calls. -/
structure Libc (ω : Type) where
  rand : ω → Int32 × ω
  clockGettime : ω → Int32 × ω

/-- The two files main opens: `fd_write_1` and `fd_write_2`. -/
inductive TableFile where
  | fdWrite1
  | fdWrite2
  deriving DecidableEq, Repr

/-- A call of a driver. A read is asked for a key. -/
inductive TableCall where
  | write (file : TableFile) (htNode : HtObject)
  | read (file : TableFile) (key : Int32)
  deriving DecidableEq, Repr

def fileOf (htTableNumber : Int32) : TableFile :=
  if htTableNumber ≠ 0 then .fdWrite1 else .fdWrite2

def readHashTable (htTableNumber key : Int32) : List TableCall :=
  [.read (fileOf htTableNumber) key]

section Operations

variable {ω : Type} (libc : Libc ω)

def addToHashTable (w : ω) : List TableCall × ω :=
  let (number, w) := libc.rand w
  let htTableNumber := number % 2
  let (key, w) := libc.rand w
  let (data, w) := libc.rand w
  let htNode : HtObject := ⟨key % 200, data % 200⟩
  (.write (fileOf htTableNumber) htNode :: readHashTable htTableNumber htNode.key, w)

def deleteFromHashTable (w : ω) : List TableCall × ω :=
  let (number, w) := libc.rand w
  let htTableNumber := number % 2
  let (key, w) := libc.rand w
  let htNode : HtObject := ⟨key % 200, 0⟩
  (.write (fileOf htTableNumber) htNode :: readHashTable htTableNumber htNode.key, w)

def searchHashTable (w : ω) : List TableCall × ω :=
  let (number, w) := libc.rand w
  let htTableNumber := number % 2
  let (key, w) := libc.rand w
  (readHashTable htTableNumber (key % 200), w)

/-- The choice of the second loop. -/
def operateOnHashTable (w : ω) : List TableCall × ω :=
  let (draw, w) := libc.rand w
  let operation := draw % 3 + 1
  if operation = SEARCH_OPERATION then searchHashTable libc w
  else if operation = ADD_OPERATION then addToHashTable libc w
  else deleteFromHashTable libc w

end Operations

/-! ## The threads -/

/-- The globals, how many threads main has created, and whether a thread ended the process. -/
structure WorkerGlobals (ω : Type) where
  hashdataCounter : Int32
  hashtableOperations : Int32
  created : Nat
  processExited : Bool
  libc : ω

/-- Where a thread is: before the test of a loop, or past it and before its body. -/
inductive Worker where
  | testData
  | addData
  | testOperations
  | operate
  | finished
  deriving DecidableEq, Repr

/-- `counter++` on an `int`. Its overflow is undefined. -/
def increment (counter : Int32) : Option Int32 :=
  if counter.toInt < 2147483647 then some (counter + 1) else none

section Threads

variable {ω : Type} (libc : Libc ω)

/-- What the two bodies share: an error of the clock ends the process, and a number is drawn for
the time to sleep. -/
def underLock (operation : ω → List TableCall × ω)
    (count : WorkerGlobals ω → Option (WorkerGlobals ω)) (s : WorkerGlobals ω) :
    Option (WorkerGlobals ω × Option (List TableCall)) :=
  let (ret, w) := libc.clockGettime s.libc
  if ret ≠ 0 then some ({ s with processExited := true, libc := w }, none)
  else
    let (_, w) := libc.rand w
    let (calls, w) := operation w
    (count { s with libc := w }).map (·, some calls)

def addDataBody (s : WorkerGlobals ω) : Option (WorkerGlobals ω × Option (List TableCall)) :=
  underLock libc (addToHashTable libc) (fun s =>
    (increment s.hashdataCounter).map fun counter => { s with hashdataCounter := counter }) s

def operateBody (s : WorkerGlobals ω) : Option (WorkerGlobals ω × Option (List TableCall)) :=
  underLock libc (operateOnHashTable libc) (fun s =>
    (increment s.hashtableOperations).map fun counter =>
      { s with hashtableOperations := counter }) s

/-- `thread_function`. A finished thread has no step, nor has any when the process has ended: the
thread that ends it does not return from its body. -/
def threadFunction (t : Worker) (s : WorkerGlobals ω) : Option (WorkerGlobals ω × Worker) :=
  if s.processExited then none
  else
    match t with
    | .testData =>
      some (s, if s.hashdataCounter < MAX_HASHTABLE_DATA then .addData else .testOperations)
    | .addData => (addDataBody libc s).map fun (s, _) =>
      (s, if s.processExited then .addData else .testData)
    | .testOperations =>
      some (s, if s.hashtableOperations < MAX_TABLE_OPERATION then .operate else .finished)
    | .operate => (operateBody libc s).map fun (s, _) =>
      (s, if s.processExited then .operate else .testOperations)
    | .finished => none

/-- What a step does to the tables. -/
inductive WorkerEvent where
  | filled (calls : List TableCall)
  | operated (calls : List TableCall)

def WorkerEvent.isFilled : WorkerEvent → Bool
  | .filled _ => true
  | .operated _ => false

def workerEvent (s : WorkerGlobals ω) : Worker → Option WorkerEvent
  | .addData => (addDataBody libc s).bind fun (_, calls) => calls.map .filled
  | .operate => (operateBody libc s).bind fun (_, calls) => calls.map .operated
  | _ => none

/-- The loop of `main` that creates the threads, `numberOfThreads` of them. -/
def pthreadCreate (numberOfThreads : Nat) (t : Worker) (s : WorkerGlobals ω) :
    Option (WorkerGlobals ω) :=
  if t = .testData ∧ s.created < numberOfThreads ∧ s.processExited = false then
    some { s with created := s.created + 1 }
  else none

end Threads

/-- The program with its counters as they are initialised. -/
def workersInit {ω : Type} (w : ω) : Pool (WorkerGlobals ω) Worker := ⟨⟨0, 0, 0, false, w⟩, []⟩

abbrev workersMove {ω : Type} (libc : Libc ω) (numberOfThreads : Nat) :=
  poolMove (threadFunction libc) (pthreadCreate numberOfThreads)

/-! ## What a step does -/

theorem toInt_increment {counter counter' : Int32} (h : increment counter = some counter') :
    counter'.toInt = counter.toInt + 1 := by
  unfold increment at h
  split at h
  next hlt =>
    obtain rfl := Option.some.inj h
    have hle := counter.le_toInt
    rw [Int32.toInt_add, Int32.toInt_one, Int.bmod_eq_of_le (by omega) (by omega)]
  next => cases h

/-- The globals of the threads: what the two counters and the process are after a step. -/
structure Globals {ω : Type} (s : WorkerGlobals ω) (data operations : Int) (exited : Bool)
    (created : Nat) : Prop where
  data : s.hashdataCounter.toInt = data
  operations : s.hashtableOperations.toInt = operations
  exited : s.processExited = exited
  created : s.created = created

section Steps

variable {ω : Type} {libc : Libc ω}

/-- The step of a thread at each place, with what it does to the tables. -/
inductive WorkerStep (s s' : WorkerGlobals ω) : Worker → Worker → Option WorkerEvent → Prop
  | passData (hs : s' = s) (hlt : s.hashdataCounter.toInt < MAX_HASHTABLE_DATA.toInt) :
      WorkerStep s s' .testData .addData none
  | leaveData (hs : s' = s) (hle : MAX_HASHTABLE_DATA.toInt ≤ s.hashdataCounter.toInt) :
      WorkerStep s s' .testData .testOperations none
  | addData {calls : List TableCall}
      (hs : Globals s' (s.hashdataCounter.toInt + 1) s.hashtableOperations.toInt false s.created) :
      WorkerStep s s' .addData .testData (some (.filled calls))
  | passOperation (hs : s' = s)
      (hlt : s.hashtableOperations.toInt < MAX_TABLE_OPERATION.toInt) :
      WorkerStep s s' .testOperations .operate none
  | leaveOperation (hs : s' = s)
      (hle : MAX_TABLE_OPERATION.toInt ≤ s.hashtableOperations.toInt) :
      WorkerStep s s' .testOperations .finished none
  | operate {calls : List TableCall}
      (hs : Globals s' s.hashdataCounter.toInt (s.hashtableOperations.toInt + 1) false s.created) :
      WorkerStep s s' .operate .testOperations (some (.operated calls))
  | exit {t : Worker}
      (hs : Globals s' s.hashdataCounter.toInt s.hashtableOperations.toInt true s.created) :
      WorkerStep s s' t t none

/-- A body either ends the process or counts once. -/
theorem underLock_cases {operation : ω → List TableCall × ω}
    {count : WorkerGlobals ω → Option (WorkerGlobals ω)} {s s' : WorkerGlobals ω}
    {calls : Option (List TableCall)}
    (h : underLock libc operation count s = some (s', calls)) :
    (∃ w, s' = { s with processExited := true, libc := w } ∧ calls = none) ∨
      ∃ w calls', count { s with libc := w } = some s' ∧ calls = some calls' := by
  simp only [underLock] at h
  split at h
  next =>
    obtain ⟨rfl, rfl⟩ := Prod.mk.inj (Option.some.inj h)
    exact .inl ⟨_, rfl, rfl⟩
  next =>
    obtain ⟨s₁, hcount, heq⟩ := Option.map_eq_some_iff.mp h
    obtain ⟨rfl, rfl⟩ := Prod.mk.inj heq
    exact .inr ⟨_, _, hcount, rfl⟩

theorem addDataBody_step {s s' : WorkerGlobals ω} {calls : Option (List TableCall)}
    (hs : s.processExited = false) (h : addDataBody libc s = some (s', calls)) :
    WorkerStep s s' .addData (if s'.processExited then .addData else .testData)
      (calls.map .filled) := by
  rcases underLock_cases h with ⟨w, rfl, rfl⟩ | ⟨w, calls, hcount, rfl⟩
  · exact .exit ⟨rfl, rfl, rfl, rfl⟩
  · obtain ⟨counter, hcounter, rfl⟩ := Option.map_eq_some_iff.mp hcount
    have hcase : (if s.processExited then Worker.addData else .testData) = .testData := by
      rw [hs]
      rfl
    rw [hcase]
    exact .addData ⟨toInt_increment hcounter, rfl, hs, rfl⟩

theorem operateBody_step {s s' : WorkerGlobals ω} {calls : Option (List TableCall)}
    (hs : s.processExited = false) (h : operateBody libc s = some (s', calls)) :
    WorkerStep s s' .operate (if s'.processExited then .operate else .testOperations)
      (calls.map .operated) := by
  rcases underLock_cases h with ⟨w, rfl, rfl⟩ | ⟨w, calls, hcount, rfl⟩
  · exact .exit ⟨rfl, rfl, rfl, rfl⟩
  · obtain ⟨counter, hcounter, rfl⟩ := Option.map_eq_some_iff.mp hcount
    have hcase : (if s.processExited then Worker.operate else .testOperations) =
        .testOperations := by
      rw [hs]
      rfl
    rw [hcase]
    exact .operate ⟨rfl, toInt_increment hcounter, hs, rfl⟩

theorem threadFunction_cases {s s' : WorkerGlobals ω} {t t' : Worker}
    (h : threadFunction libc t s = some (s', t')) :
    s.processExited = false ∧ WorkerStep s s' t t' (workerEvent libc s t) := by
  unfold threadFunction at h
  split at h
  next => cases h
  next hexited =>
    have hs : s.processExited = false := Bool.eq_false_iff.mpr hexited
    refine ⟨hs, ?_⟩
    cases t with
    | testData =>
      obtain ⟨rfl, rfl⟩ := Prod.mk.inj (Option.some.inj h)
      by_cases hlt : s.hashdataCounter < MAX_HASHTABLE_DATA
      · rw [if_pos hlt]
        exact .passData rfl (Int32.lt_iff_toInt_lt.mp hlt)
      · rw [if_neg hlt]
        exact .leaveData rfl (not_lt.mp (mt Int32.lt_iff_toInt_lt.mpr hlt))
    | addData =>
      obtain ⟨⟨s₁, calls⟩, hbody, heq⟩ := Option.map_eq_some_iff.mp h
      obtain ⟨rfl, rfl⟩ := Prod.mk.inj heq
      have hevent : workerEvent libc s .addData = calls.map .filled := by
        rw [workerEvent, hbody, Option.bind_some]
      exact hevent ▸ addDataBody_step hs hbody
    | testOperations =>
      obtain ⟨rfl, rfl⟩ := Prod.mk.inj (Option.some.inj h)
      by_cases hlt : s.hashtableOperations < MAX_TABLE_OPERATION
      · rw [if_pos hlt]
        exact .passOperation rfl (Int32.lt_iff_toInt_lt.mp hlt)
      · rw [if_neg hlt]
        exact .leaveOperation rfl (not_lt.mp (mt Int32.lt_iff_toInt_lt.mpr hlt))
    | operate =>
      obtain ⟨⟨s₁, calls⟩, hbody, heq⟩ := Option.map_eq_some_iff.mp h
      obtain ⟨rfl, rfl⟩ := Prod.mk.inj heq
      have hevent : workerEvent libc s .operate = calls.map .operated := by
        rw [workerEvent, hbody, Option.bind_some]
      exact hevent ▸ operateBody_step hs hbody
    | finished => cases h

end Steps

/-! ## The counters -/

/-- The thread found the first counter at its limit. -/
def Worker.LeftData : Worker → Prop
  | .testData | .addData => False
  | .testOperations | .operate | .finished => True

def Worker.LeftOperations (t : Worker) : Prop := t = .finished

def Worker.passedData (t : Worker) : Bool := t = .addData

def Worker.passedOperation (t : Worker) : Bool := t = .operate

section Counters

variable {ω : Type} {libc : Libc ω} {N : Nat}

def dataCount (s : WorkerGlobals ω) : Int := s.hashdataCounter.toInt

def operationCount (s : WorkerGlobals ω) : Int := s.hashtableOperations.toInt

theorem WorkerStep.data {s s' : WorkerGlobals ω} {t t' : Worker} {e : Option WorkerEvent}
    (h : WorkerStep s s' t t' e) :
    TestedStep dataCount MAX_HASHTABLE_DATA.toInt Worker.passedData Worker.LeftData s t s' t' := by
  cases h with
  | passData hs hlt => exact .pass hlt (hs ▸ rfl) id
  | leaveData hs hle => exact .leave hle (hs ▸ rfl) rfl
  | addData hs => exact .update hs.data rfl rfl id
  | passOperation hs hlt => exact .other (hs ▸ rfl) rfl id
  | leaveOperation hs hle => exact .other (hs ▸ rfl) rfl id
  | operate hs => exact .other hs.data rfl id
  | exit hs => exact .other hs.data rfl id

theorem WorkerStep.operations {s s' : WorkerGlobals ω} {t t' : Worker} {e : Option WorkerEvent}
    (h : WorkerStep s s' t t' e) :
    TestedStep operationCount MAX_TABLE_OPERATION.toInt Worker.passedOperation
      Worker.LeftOperations s t s' t' := by
  cases h with
  | passData hs hlt => exact .other (hs ▸ rfl) rfl nofun
  | leaveData hs hle => exact .other (hs ▸ rfl) rfl nofun
  | addData hs => exact .other hs.operations rfl nofun
  | passOperation hs hlt => exact .pass hlt (hs ▸ rfl) nofun
  | leaveOperation hs hle => exact .leave hle (hs ▸ rfl) rfl
  | operate hs => exact .update hs.operations rfl rfl nofun
  | exit hs => exact .other hs.operations rfl id

/-- An addition of the first loop is counted once. -/
theorem WorkerStep.filled {s s' : WorkerGlobals ω} {t t' : Worker} {e : Option WorkerEvent}
    (h : WorkerStep s s' t t' e) :
    dataCount s' = dataCount s + (e.toList.countP WorkerEvent.isFilled : Nat) := by
  cases h with
  | passData hs hlt | leaveData hs hle | passOperation hs hlt | leaveOperation hs hle =>
    subst hs
    simp
  | addData hs => simpa [dataCount, WorkerEvent.isFilled] using hs.data
  | operate hs => simpa [dataCount, WorkerEvent.isFilled] using hs.data
  | exit hs => simpa [dataCount] using hs.data

theorem WorkerStep.created {s s' : WorkerGlobals ω} {t t' : Worker} {e : Option WorkerEvent}
    (h : WorkerStep s s' t t' e) : s'.created = s.created := by
  cases h with
  | passData hs hlt | leaveData hs hle | passOperation hs hlt | leaveOperation hs hle => rw [hs]
  | addData hs | operate hs | exit hs => exact hs.created

/-- `es` is what happened so far. -/
structure WorkersInv (N : Nat) (p : Pool (WorkerGlobals ω) Worker) (es : List WorkerEvent) :
    Prop where
  data : OvershootInv dataCount MAX_HASHTABLE_DATA.toInt Worker.passedData Worker.LeftData p
  operations : OvershootInv operationCount MAX_TABLE_OPERATION.toInt Worker.passedOperation
    Worker.LeftOperations p
  filled : dataCount p.shared = (es.countP WorkerEvent.isFilled : Nat)
  created : p.threads.length = p.shared.created
  created_le : p.shared.created ≤ N

theorem workersInv_init (w : ω) : WorkersInv N (workersInit w) [] where
  data := overshootInv_nil (by decide : (0 : Int) < MAX_HASHTABLE_DATA.toInt)
  operations := overshootInv_nil (by decide : (0 : Int) < MAX_TABLE_OPERATION.toInt)
  filled := rfl
  created := rfl
  created_le := Nat.zero_le N

theorem workersInv_run {w : ω} {moves : List (PoolMove Worker)} {os : List Unit}
    {p : Pool (WorkerGlobals ω) Worker}
    (hrun : run (workersMove libc N) (workersInit w) moves = some (p, os)) :
    WorkersInv N p
      (poolEvents (threadFunction libc) (pthreadCreate N) (workerEvent libc) (workersInit w)
        moves) := by
  refine run_pool_events (workerEvent libc) (WorkersInv N) ?_ ?_ (workersInv_init w) hrun
  · intro p es i t s' t' h ht hstep
    obtain ⟨-, hstep⟩ := threadFunction_cases hstep
    refine ⟨h.data.step ht hstep.data, h.operations.step ht hstep.operations, ?_, ?_, ?_⟩
    · rw [hstep.filled, h.filled, List.countP_append]
      exact (Int.natCast_add _ _).symm
    · rw [List.length_set, h.created, hstep.created]
    · exact hstep.created ▸ h.created_le
  · intro p es t s' h hstart
    unfold pthreadCreate at hstart
    split at hstart
    next hnew =>
      obtain ⟨rfl, hlt, -⟩ := hnew
      obtain rfl := Option.some.inj hstart
      exact ⟨h.data.start rfl rfl id, h.operations.start rfl rfl nofun, h.filled,
        by simp [h.created], hlt⟩
    next => cases hstart

end Counters

/-! ## Whole runs -/

section Runs

variable {ω : Type} {libc : Libc ω} {N : Nat}

/-- In every state the threads reach, the first counter is the number of additions made to fill
the tables, and each counter has passed its limit by less than the number of threads. When all
threads have finished, each has reached it. -/
theorem workers_overshoot (hN : 1 ≤ N) {w : ω} {moves : List (PoolMove Worker)} {os : List Unit}
    {p : Pool (WorkerGlobals ω) Worker}
    (hrun : run (workersMove libc N) (workersInit w) moves = some (p, os)) :
    p.shared.hashdataCounter.toInt =
        ((poolEvents (threadFunction libc) (pthreadCreate N) (workerEvent libc) (workersInit w)
          moves).countP WorkerEvent.isFilled : Nat) ∧
      p.shared.hashdataCounter.toInt ≤ MAX_HASHTABLE_DATA.toInt + N - 1 ∧
      p.shared.hashtableOperations.toInt ≤ MAX_TABLE_OPERATION.toInt + N - 1 ∧
      (p.threads.length = N → (∀ t ∈ p.threads, t = .finished) →
        MAX_HASHTABLE_DATA.toInt ≤ p.shared.hashdataCounter.toInt ∧
          MAX_TABLE_OPERATION.toInt ≤ p.shared.hashtableOperations.toInt) := by
  have h := workersInv_run hrun
  have hlength : p.threads.length ≤ N := h.created ▸ h.created_le
  have hdata := h.data.count_le
  have hoperations := h.operations.count_le
  refine ⟨h.filled, ?_, ?_, fun hall hfinished => ?_⟩
  · change dataCount p.shared ≤ _
    omega
  · change operationCount p.shared ≤ _
    omega
  · obtain ⟨t, ht⟩ := List.exists_mem_of_length_pos (l := p.threads) (by omega)
    have hleft : t.LeftData := by
      rw [hfinished t ht]
      trivial
    exact ⟨h.data.left t ht hleft, h.operations.left t ht (hfinished t ht)⟩

/-- Two threads pass the test on the same value and both count. -/
theorem workers_overshoot_two_threads :
    ∃ p os, run (workersMove (⟨fun w => (1, w), fun w => (0, w)⟩ : Libc Unit) 2) (workersInit ())
        [.start .testData, .start .testData, .step 0, .step 1, .step 1, .step 0] = some (p, os) ∧
      p.shared.hashdataCounter = 2 ∧
      p.shared.hashdataCounter.toInt ≤ MAX_HASHTABLE_DATA.toInt + (2 : Nat) - 1 := by
  obtain ⟨p, os, hrun, hcounter⟩ : ∃ p os,
      run (workersMove (⟨fun w => (1, w), fun w => (0, w)⟩ : Libc Unit) 2) (workersInit ())
        [.start .testData, .start .testData, .step 0, .step 1, .step 1, .step 0] = some (p, os) ∧
      p.shared.hashdataCounter = 2 := ⟨_, _, rfl, by decide⟩
  exact ⟨p, os, hrun, hcounter, (workers_overshoot (by decide) hrun).2.1⟩

/-! ## The threads finish -/

end Runs

end KernelDrivers.HashTable
