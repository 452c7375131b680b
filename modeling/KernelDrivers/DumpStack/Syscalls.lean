import KernelDrivers.Lib.Run
import Mathlib.Data.List.Nodup

/-!
# The system calls for stack dumps

`insdump` plants a probe at a kernel symbol and returns the probe's id, which is the number of the
calling process. The list of the registered probes belongs to the kernel: a probe is entered at
its end when `register_kprobe_list` succeeds, and `unregister_kprobe_by_id` looks for its id.
-/

namespace KernelDrivers.DumpStack
open Lib

def EINVAL : Int32 := 22

/-- The process or thread that makes a call. -/
structure Task where
  pid : Int32
  tgid : Int32
  deriving DecidableEq, Repr

/-- `struct kprobe` -/
structure Kprobe where
  addr : UInt32
  id : Int32
  dumpmode : Int32
  ownerId : Int32
  accessId : Int32
  deriving DecidableEq, Repr

/-- `struct kprobe_list` -/
structure KprobeList where
  id : Int32
  kp : Kprobe
  deriving DecidableEq, Repr

/-- What the kernel provides. -/
structure Kernel where
  kallsymsLookupName : String → UInt32
  stext : UInt32
  etext : UInt32
  archIsKernelText : UInt32 → Bool
  inGateAreaNoMm : UInt32 → Int32

def isKernelText (kernel : Kernel) (addr : UInt32) : Int32 :=
  if addr ≥ kernel.stext ∧ addr ≤ kernel.etext ∨ kernel.archIsKernelText addr then 1
  else kernel.inGateAreaNoMm addr

/-! ## Planting a probe -/

/-- A call with the answer of `register_kprobe_list`. -/
structure InsdumpCall where
  current : Task
  symbolname : String
  mode : Int32
  registered : Int32

/-- The process a probe dumps the stack for: -1 stands for any. -/
def accessId (current : Task) (mode : Int32) : Int32 :=
  if mode = 0 then current.pid else if mode = 1 then current.tgid else -1

/-- The probe the call fills in. -/
def newProbe (kernel : Kernel) (call : InsdumpCall) : KprobeList where
  id := call.current.pid
  kp :=
    { addr := kernel.kallsymsLookupName call.symbolname
      id := call.current.pid
      dumpmode := call.mode
      ownerId := call.current.pid
      accessId := accessId call.current call.mode }

def insdump (kernel : Kernel) (call : InsdumpCall) (probes : List KprobeList) :
    List KprobeList × Int32 :=
  let entry := newProbe kernel call
  if isKernelText kernel entry.kp.addr ≠ 1 then (probes, -EINVAL)
  else if entry.kp.addr = 0 then (probes, -1)
  else if call.registered < 0 then (probes, -1)
  else (probes ++ [entry], entry.kp.id)

/-- The call registers its probe. -/
def Succeeds (kernel : Kernel) (call : InsdumpCall) : Prop :=
  isKernelText kernel (kernel.kallsymsLookupName call.symbolname) = 1 ∧
    kernel.kallsymsLookupName call.symbolname ≠ 0 ∧ ¬ call.registered < 0

instance (kernel : Kernel) (call : InsdumpCall) : Decidable (Succeeds kernel call) :=
  inferInstanceAs (Decidable (_ ∧ _))

theorem insdump_of_succeeds {kernel : Kernel} {call : InsdumpCall} (h : Succeeds kernel call)
    (probes : List KprobeList) :
    insdump kernel call probes = (probes ++ [newProbe kernel call], call.current.pid) := by
  obtain ⟨htext, haddr, hregistered⟩ := h
  simp [insdump, newProbe, htext, haddr, hregistered]

/-- Whose stack a probe dumps when it is hit: `handler_pre`. -/
def handlerPre (p : Kprobe) (current : Task) : Bool :=
  if p.dumpmode = 0 then p.accessId = current.pid
  else if p.dumpmode = 1 then p.accessId = current.tgid
  else true

/-- Mode 0 dumps for the caller, mode 1 for its thread group, any other mode for everyone. -/
theorem handlerPre_newProbe (kernel : Kernel) (call : InsdumpCall) (current : Task) :
    handlerPre (newProbe kernel call).kp current = true ↔
      (call.mode = 0 → call.current.pid = current.pid) ∧
        (call.mode = 1 → call.current.tgid = current.tgid) := by
  unfold handlerPre newProbe accessId
  grind

/-! ## Ids -/

/-- The probes registered and the ids returned by a sequence of successful calls. -/
def insdumps (kernel : Kernel) (calls : List InsdumpCall) : Option (List KprobeList × List Int32) :=
  run (fun probes call => if Succeeds kernel call then some (insdump kernel call probes) else none)
    [] calls

/-- The ids are distinct, and the id a call returned is that of its probe only. -/
structure NameOneProbe (probes : List KprobeList) (ids : List Int32) : Prop where
  distinct : ids.Nodup
  designates : ∀ (i : Nat) id, ids[i]? = some id → ∀ (j : Nat) entry, probes[j]? = some entry →
    (entry.id = id ↔ j = i)

/-- Call by call, the probe is entered and the caller's number returned. -/
theorem insdumps_eq {kernel : Kernel} {calls : List InsdumpCall} {probes : List KprobeList}
    {ids : List Int32} (h : insdumps kernel calls = some (probes, ids)) :
    probes = calls.map (newProbe kernel) ∧ ids = calls.map fun call => call.current.pid := by
  suffices hall : ∀ (before : List KprobeList), run (fun probes call =>
      if Succeeds kernel call then some (insdump kernel call probes) else none) before calls =
        some (probes, ids) →
      probes = before ++ calls.map (newProbe kernel) ∧
        ids = calls.map fun call => call.current.pid by
    simpa using hall [] h
  clear h
  induction calls generalizing ids with
  | nil =>
    intro before h
    obtain ⟨rfl, rfl⟩ : before = probes ∧ [] = ids := by simpa using h
    simp
  | cons call calls ih =>
    intro before h
    obtain ⟨s, o, os, hcall, hrest, rfl⟩ := run_cons_eq_some.mp h
    split at hcall
    next hsucceeds =>
      rw [insdump_of_succeeds hsucceeds] at hcall
      obtain ⟨rfl, rfl⟩ := Prod.mk.inj (Option.some.inj hcall)
      obtain ⟨hprobes, hids⟩ := ih _ hrest
      exact ⟨by simpa using hprobes, by simp [hids]⟩
    next => cases hcall

/-- The ids of a sequence of successful calls name one probe each exactly when no two of the
calls were made by processes of one number. -/
theorem nameOneProbe_iff {kernel : Kernel} {calls : List InsdumpCall} {probes : List KprobeList}
    {ids : List Int32} (h : insdumps kernel calls = some (probes, ids)) :
    NameOneProbe probes ids ↔ (calls.map fun call => call.current.pid).Nodup := by
  obtain ⟨rfl, rfl⟩ := insdumps_eq h
  refine ⟨fun hname => hname.distinct, fun hnodup => ⟨hnodup, ?_⟩⟩
  intro i id hi j entry hj
  have hj' : (calls.map fun call => call.current.pid)[j]? = some entry.id := by
    rw [List.getElem?_map] at hj ⊢
    obtain ⟨call, hcall, rfl⟩ := Option.map_eq_some_iff.mp hj
    rw [hcall]
    rfl
  constructor
  · rintro rfl
    have hlt : j < (calls.map fun call => call.current.pid).length :=
      (List.getElem?_eq_some_iff.mp hj').1
    exact (List.getElem?_inj hlt hnodup).mp (hj'.trans hi.symm)
  · rintro rfl
    exact Option.some.inj (hj'.symm.trans hi)

/-! ## Removing a probe -/

/-- The probes `unregister_kprobe_by_id` leaves, and the result. -/
def rmdump (unregisterKprobeById : UInt32 → List KprobeList → List KprobeList) (dumpid : UInt32)
    (probes : List KprobeList) : List KprobeList × Int32 :=
  (unregisterKprobeById dumpid probes, 0)

/-- What fails at one place only is erased there. -/
theorem filter_eq_eraseIdx {α : Type} {p : α → Bool} {xs : List α} {i : Nat}
    (h : ∀ (j : Nat) x, xs[j]? = some x → (p x = false ↔ j = i)) : xs.filter p = xs.eraseIdx i := by
  induction xs generalizing i with
  | nil => rfl
  | cons x xs ih =>
    have hhead := h 0 x rfl
    cases i with
    | zero =>
      have hx : p x = false := hhead.mpr rfl
      have hrest : ∀ y ∈ xs, p y = true := by
        intro y hy
        obtain ⟨j, hj⟩ := List.mem_iff_getElem?.mp hy
        have hy' := h (j + 1) y (by simpa using hj)
        simpa using hy'
      simp [hx, List.filter_eq_self.mpr hrest]
    | succ i =>
      have hx : p x = true := by simpa using hhead
      have hrest : xs.filter p = xs.eraseIdx i := by
        apply ih
        intro j y hy
        have hy' := h (j + 1) y (by simpa using hy)
        simpa using hy'
      simp [hx, hrest]

/-- Where the ids name one probe each and `unregister_kprobe_by_id` goes by the id, the id a call
returned removes its probe and no other. -/
theorem NameOneProbe.rmdump {unregisterKprobeById : UInt32 → List KprobeList → List KprobeList}
    (hmatch : ∀ dumpid probes, unregisterKprobeById dumpid probes =
      probes.filter fun entry => entry.id.toUInt32 ≠ dumpid)
    {probes : List KprobeList} {ids : List Int32} (h : NameOneProbe probes ids) {i : Nat}
    {id : Int32} (hi : ids[i]? = some id) :
    (DumpStack.rmdump unregisterKprobeById id.toUInt32 probes).1 = probes.eraseIdx i := by
  unfold DumpStack.rmdump
  rw [hmatch]
  apply filter_eq_eraseIdx
  intro j entry hj
  have hinj : entry.id.toUInt32 = id.toUInt32 ↔ entry.id = id := by
    constructor
    · intro he
      simpa using congrArg UInt32.toInt32 he
    · rintro rfl
      rfl
  rw [← h.designates i id hi j entry hj, ← hinj]
  simp

/-! ## One process and two -/

/-- A kernel with every symbol at the start of its text. -/
def smallKernel : Kernel :=
  ⟨fun _ => 0xc1000000, 0xc1000000, 0xc2000000, fun _ => false, fun _ => 0⟩

theorem nameOneProbe_iff_two_processes :
    ∃ probes ids, insdumps smallKernel
        [⟨⟨100, 100⟩, "sys_open", 2, 0⟩, ⟨⟨101, 100⟩, "do_fork", 1, 0⟩] = some (probes, ids) ∧
      ids = [100, 101] ∧ NameOneProbe probes ids :=
  have hcalls : insdumps smallKernel
      [⟨⟨100, 100⟩, "sys_open", 2, 0⟩, ⟨⟨101, 100⟩, "do_fork", 1, 0⟩] = some (_, [100, 101]) := rfl
  ⟨_, _, hcalls, rfl, (nameOneProbe_iff hcalls).mpr (by decide)⟩

/-- A process that plants two probes gets its own number for both. -/
theorem not_nameOneProbe :
    ¬ ∀ (kernel : Kernel) (calls : List InsdumpCall) (probes : List KprobeList) (ids : List Int32),
      insdumps kernel calls = some (probes, ids) → NameOneProbe probes ids := by
  intro hall
  have hname := hall smallKernel
    [⟨⟨100, 100⟩, "sys_open", 2, 0⟩, ⟨⟨100, 100⟩, "do_fork", 1, 0⟩] _ _ rfl
  exact absurd hname.distinct (by decide)

end KernelDrivers.DumpStack
