import KernelDrivers.DumpStack.Syscalls

/-!
# Whose stack is dumped

Processes plant and remove probes in any order, and any of them may hit a probe in between. A
probe planted in mode 0 dumps the stack of its planter only, and one planted in mode 1 that of the
planter's thread group, however the other calls fall. The list of probes is the kernel's: of its
functions it is used that they remove probes and enter none.
-/

namespace KernelDrivers.DumpStack
open Lib

/-! ## Runs of the system calls -/

/-- The kernel's functions on its list of probes. -/
structure ProbeLists where
  unregisterKprobeById : UInt32 → List KprobeList → List KprobeList
  removeActiveKprobes : Task → List KprobeList → List KprobeList
  getActiveKprobes : List KprobeList → Int32

/-- They enter no probe. -/
structure ProbeLists.OnlyRemoves (lists : ProbeLists) : Prop where
  unregisterKprobeById : ∀ dumpid probes, lists.unregisterKprobeById dumpid probes ⊆ probes
  removeActiveKprobes : ∀ current probes, lists.removeActiveKprobes current probes ⊆ probes

/-- A system call, or an instruction at `addr` that a process comes to. -/
inductive ProbeOp where
  | insdump (call : InsdumpCall)
  | rmdump (dumpid : UInt32)
  | removeActiveKprobes (current : Task)
  | activeKprobes
  | hit (addr : UInt32) (current : Task)

/-- What a call returns, or the probes that dump the stack. -/
inductive ProbeResult where
  | returned (ret : Int32)
  | dumped (entries : List KprobeList)

/-- Every probe at the address runs `handler_pre`. -/
def dumpers (probes : List KprobeList) (addr : UInt32) (current : Task) : List KprobeList :=
  probes.filter fun entry => entry.kp.addr = addr ∧ handlerPre entry.kp current

def probeOp (kernel : Kernel) (lists : ProbeLists) (probes : List KprobeList) :
    ProbeOp → List KprobeList × ProbeResult
  | .insdump call =>
    let (probes, ret) := insdump kernel call probes
    (probes, .returned ret)
  | .rmdump dumpid =>
    let (probes, ret) := rmdump lists.unregisterKprobeById dumpid probes
    (probes, .returned ret)
  | .removeActiveKprobes current => (lists.removeActiveKprobes current probes, .returned 0)
  | .activeKprobes => (probes, .returned (lists.getActiveKprobes probes))
  | .hit addr current => (probes, .dumped (dumpers probes addr current))

def probeRun (kernel : Kernel) (lists : ProbeLists) (ops : List ProbeOp) :
    Option (List KprobeList × List ProbeResult) :=
  run (fun probes op => some (probeOp kernel lists probes op)) [] ops

section Runs

variable {kernel : Kernel} {lists : ProbeLists}

/-! ## Where the probes come from -/

/-- The probe of a call that was made and succeeded. -/
def Planted (kernel : Kernel) (ops : List ProbeOp) (entry : KprobeList) : Prop :=
  ∃ call, .insdump call ∈ ops ∧ Succeeds kernel call ∧ entry = newProbe kernel call

theorem Planted.mono {ops ops' : List ProbeOp} (hsub : ops ⊆ ops') {entry : KprobeList}
    (h : Planted kernel ops entry) : Planted kernel ops' entry := by
  obtain ⟨call, hcall, hplanted⟩ := h
  exact ⟨call, hsub hcall, hplanted⟩

/-- A call that does not succeed changes nothing. -/
theorem insdump_cases (kernel : Kernel) (call : InsdumpCall) (probes : List KprobeList) :
    Succeeds kernel call ∧
        insdump kernel call probes = (probes ++ [newProbe kernel call], call.current.pid) ∨
      ¬ Succeeds kernel call ∧ ∃ ret, insdump kernel call probes = (probes, ret) := by
  by_cases hsucceeds : Succeeds kernel call
  · exact .inl ⟨hsucceeds, insdump_of_succeeds hsucceeds probes⟩
  · refine .inr ⟨hsucceeds, ?_⟩
    by_cases htext : isKernelText kernel (kernel.kallsymsLookupName call.symbolname) = 1
    · by_cases haddr : kernel.kallsymsLookupName call.symbolname = 0
      · exact ⟨-1, by simp [insdump, newProbe, haddr, haddr ▸ htext]⟩
      · have hregistered : call.registered < 0 := by
          by_contra hregistered
          exact hsucceeds ⟨htext, haddr, hregistered⟩
        exact ⟨-1, by simp [insdump, newProbe, htext, haddr, hregistered]⟩
    · exact ⟨-EINVAL, by simp [insdump, newProbe, htext]⟩

/-- A step enters at most the probe of its own call. -/
theorem mem_probeOp (hlists : lists.OnlyRemoves) {probes : List KprobeList} {op : ProbeOp}
    {entry : KprobeList} (h : entry ∈ (probeOp kernel lists probes op).1) :
    entry ∈ probes ∨ Planted kernel [op] entry := by
  cases op with
  | insdump call =>
    rcases insdump_cases kernel call probes with ⟨hsucceeds, hcall⟩ | ⟨-, ret, hcall⟩
    · simp only [probeOp, hcall, List.mem_append, List.mem_singleton] at h
      exact h.imp_right fun hentry => ⟨call, List.mem_singleton_self _, hsucceeds, hentry⟩
    · simp only [probeOp, hcall] at h
      exact .inl h
  | rmdump dumpid => exact .inl (hlists.unregisterKprobeById dumpid probes h)
  | removeActiveKprobes current => exact .inl (hlists.removeActiveKprobes current probes h)
  | activeKprobes | hit => exact .inl h

/-- Every probe in the list is that of a successful call made so far. -/
theorem planted_run (hlists : lists.OnlyRemoves) {ops : List ProbeOp} {probes : List KprobeList}
    {results : List ProbeResult} (hrun : probeRun kernel lists ops = some (probes, results)) :
    ∀ entry ∈ probes, Planted kernel ops entry := by
  suffices hall : ∀ before {start : List KprobeList} {ops : List ProbeOp}
      {results : List ProbeResult}, (∀ entry ∈ start, Planted kernel before entry) →
      run (fun probes op => some (probeOp kernel lists probes op)) start ops =
        some (probes, results) →
      ∀ entry ∈ probes, Planted kernel (before ++ ops) entry by
    exact hall [] (fun entry hentry => absurd hentry List.not_mem_nil) hrun
  intro before start ops results hstart hrun
  induction ops generalizing before start results with
  | nil =>
    obtain ⟨rfl, -⟩ : start = probes ∧ [] = results := by simpa using hrun
    rwa [List.append_nil]
  | cons op ops ih =>
    obtain ⟨next, result, results, hop, hrest, -⟩ := run_cons_eq_some.mp hrun
    obtain rfl : (probeOp kernel lists start op).1 = next := by
      rw [Option.some.inj hop]
    have hnext : ∀ entry ∈ (probeOp kernel lists start op).1,
        Planted kernel (before ++ [op]) entry := by
      intro entry hentry
      rcases mem_probeOp hlists hentry with hold | hnew
      · exact (hstart entry hold).mono (List.subset_append_left _ _)
      · exact hnew.mono (List.subset_append_right _ _)
    have hall := ih (before ++ [op]) hnext hrest
    rwa [List.append_assoc] at hall

/-! ## Who is dumped -/

/-- In every run of the system calls by any processes, every probe in the list was planted by a
successful call before. It dumps the stack of a process that comes to an address exactly when it
was planted there, in mode 0 by the process itself, in mode 1 by one of its thread group. -/
theorem dumped_by_permission (hlists : lists.OnlyRemoves) {ops : List ProbeOp}
    {probes : List KprobeList} {results : List ProbeResult}
    (hrun : probeRun kernel lists ops = some (probes, results)) (addr : UInt32) (current : Task) :
    ∃ entries, (probeOp kernel lists probes (.hit addr current)).2 = .dumped entries ∧
      entries ⊆ probes ∧
      ∀ entry ∈ probes, ∃ call, .insdump call ∈ ops ∧ Succeeds kernel call ∧
        entry = newProbe kernel call ∧
        (entry ∈ entries ↔ kernel.kallsymsLookupName call.symbolname = addr ∧
          (call.mode = 0 → call.current.pid = current.pid) ∧
          (call.mode = 1 → call.current.tgid = current.tgid)) := by
  refine ⟨_, rfl, List.filter_subset_self _, fun entry hentry => ?_⟩
  obtain ⟨call, hcall, hsucceeds, rfl⟩ := planted_run hlists hrun entry hentry
  refine ⟨call, hcall, hsucceeds, rfl, ?_⟩
  rw [dumpers, List.mem_filter, and_iff_right hentry, decide_eq_true_iff,
    handlerPre_newProbe kernel call current]
  exact Iff.rfl

end Runs

/-- Lists that go by the number of the process. -/
def listsById : ProbeLists where
  unregisterKprobeById dumpid probes := probes.filter fun entry => entry.id.toUInt32 ≠ dumpid
  removeActiveKprobes current probes := probes.filter fun entry => entry.id ≠ current.pid
  getActiveKprobes probes := Int32.ofNat probes.length

theorem listsById_onlyRemoves : listsById.OnlyRemoves where
  unregisterKprobeById _ _ := List.filter_subset_self _
  removeActiveKprobes _ _ := List.filter_subset_self _

/-- A process probes a function for itself, and its child calls it. -/
def probedForItself : List ProbeOp :=
  [.insdump ⟨⟨100, 100⟩, "get_active_kprobes", 0, 0⟩, .hit 0xc1000000 ⟨101, 101⟩, .rmdump 7,
    .activeKprobes]

/-- Then it calls the function itself. -/
theorem dumped_by_permission_itself :
    ∃ probes results entries, probeRun smallKernel listsById probedForItself =
        some (probes, results) ∧ probes.length = 1 ∧
      (probeOp smallKernel listsById probes (.hit 0xc1000000 ⟨100, 100⟩)).2 = .dumped entries ∧
      entries ⊆ probes ∧
      ∀ entry ∈ probes, ∃ call, .insdump call ∈ probedForItself ∧ Succeeds smallKernel call ∧
        entry = newProbe smallKernel call ∧
        (entry ∈ entries ↔ smallKernel.kallsymsLookupName call.symbolname = 0xc1000000 ∧
          (call.mode = 0 → call.current.pid = 100) ∧
          (call.mode = 1 → call.current.tgid = 100)) := by
  obtain ⟨probes, results, hrun, hlength⟩ : ∃ probes results,
      probeRun smallKernel listsById probedForItself = some (probes, results) ∧
        probes.length = 1 := ⟨_, _, rfl, by decide⟩
  obtain ⟨entries, hdumped⟩ :=
    dumped_by_permission listsById_onlyRemoves hrun 0xc1000000 ⟨100, 100⟩
  exact ⟨probes, results, entries, hrun, hlength, hdumped⟩

end KernelDrivers.DumpStack
