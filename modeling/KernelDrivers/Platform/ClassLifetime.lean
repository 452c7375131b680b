import KernelDrivers.Lib.Run
import KernelDrivers.Platform.Driver

/-!
# The class over hot-plug

`first` tells whether a probe creates the class and `device_found` whether a remove destroys it.
The first is never set again, and `class_unregister` is followed by `class_destroy`, which
unregisters the class once more. So the class is in order in the runs in which no remove takes
the last device away.
-/

namespace KernelDrivers.Platform
open Lib Hcsr04

/-! ## Hot-plugging -/

/-- The driver, and the names of the devices probed and not yet removed. -/
structure HotPlugged where
  driver : Driver
  probed : List Nat

def unplugged : HotPlugged := ⟨moduleLoad, []⟩

/-- A class that is asked for is created, and only a probed device is removed. -/
def Permitted (s : HotPlugged) : DriverOp → Prop
  | .probe env _ => s.driver.first = 1 → env.classCreated = true
  | .remove name => name ∈ s.probed
  | .device _ _ => True

instance (s : HotPlugged) (op : DriverOp) : Decidable (Permitted s op) :=
  match op with
  | .probe env _ => inferInstanceAs (Decidable (s.driver.first = 1 → env.classCreated = true))
  | .remove name => inferInstanceAs (Decidable (name ∈ s.probed))
  | .device _ _ => isTrue trivial

def probedAfter (probed : List Nat) : DriverOp → List Nat
  | .probe _ name => name :: probed
  | .remove name => probed.erase name
  | .device _ _ => probed

def hotPlug (s : HotPlugged) (op : DriverOp) : Option (HotPlugged × Int32) :=
  if Permitted s op then
    (driverOp s.driver op).map fun (driver, ret) => (⟨driver, probedAfter s.probed op⟩, ret)
  else none

theorem hotPlug_eq_some {s s' : HotPlugged} {op : DriverOp} {ret : Int32}
    (h : hotPlug s op = some (s', ret)) : Permitted s op ∧
      driverOp s.driver op = some (s'.driver, ret) ∧ s'.probed = probedAfter s.probed op := by
  unfold hotPlug at h
  split at h
  next hpermitted =>
    obtain ⟨⟨driver, r⟩, hop, heq⟩ := Option.map_eq_some_iff.mp h
    obtain ⟨rfl, rfl⟩ := Prod.mk.inj heq
    exact ⟨hpermitted, hop, rfl⟩
  next => cases h

/-! ## A class in order -/

namespace ClassCall

/-- The class that a call puts a device into, or takes one from. -/
def uses : ClassCall → Option (Option Nat)
  | deviceCreate cl _ | deviceDestroy cl _ => some cl
  | _ => none

/-- `class_destroy` unregisters the class it is given, as `class_unregister` does. -/
def unregisters (c : Nat) : ClassCall → Bool
  | classUnregister cl | classDestroy cl => cl = some c
  | _ => false

theorem not_unregisters_of_uses {call : ClassCall} {cl : Option Nat} (h : call.uses = some cl)
    (c : Nat) : call.unregisters c = false := by
  cases call <;> first | rfl | cases h

end ClassCall

/-- The class was created, and was not destroyed since. -/
def Live (classCalls : List ClassCall) (cl : Option Nat) : Prop :=
  ∃ c, cl = some c ∧ .classCreate c ∈ classCalls ∧
    ∀ call ∈ classCalls, call.unregisters c = false

def UsesLive (classCalls : List ClassCall) : Prop :=
  ∀ before call cl, before ++ [call] <+: classCalls → call.uses = some cl → Live before cl

/-- A class is unregistered at most once, and once when all devices are gone. -/
structure ClassInOrder (s : HotPlugged) : Prop where
  usesLive : UsesLive s.driver.classCalls
  once : ∀ c, .classCreate c ∈ s.driver.classCalls →
    s.driver.classCalls.countP (·.unregisters c) ≤ 1 ∧
      (s.probed = [] → s.driver.classCalls.countP (·.unregisters c) = 1)

/-- No remove is made while `device_found` is 1. -/
def LeavesSome (s : HotPlugged) : DriverOp → Prop
  | .remove _ => s.driver.deviceFound ≠ 1
  | _ => True

instance (s : HotPlugged) (op : DriverOp) : Decidable (LeavesSome s op) :=
  match op with
  | .remove _ => inferInstanceAs (Decidable (s.driver.deviceFound ≠ 1))
  | .probe _ _ | .device _ _ => isTrue trivial

theorem usesLive_nil : UsesLive [] := by
  intro before call cl hpre
  exact absurd (List.prefix_nil.mp hpre) (by simp)

theorem UsesLive.concat {classCalls : List ClassCall} (h : UsesLive classCalls) {call : ClassCall}
    (hcall : ∀ cl, call.uses = some cl → Live classCalls cl) : UsesLive (classCalls ++ [call]) := by
  intro before call' cl hpre huses
  rcases List.prefix_concat_iff.mp hpre with heq | hpre
  · obtain ⟨rfl, rfl⟩ := List.append_singleton_inj.mp heq
    exact hcall cl huses
  · exact h before call' cl hpre huses

theorem Live.concat {classCalls : List ClassCall} {cl : Option Nat} (h : Live classCalls cl)
    {call : ClassCall} (hcall : ∀ c, call.unregisters c = false) :
    Live (classCalls ++ [call]) cl := by
  obtain ⟨c, rfl, hcreated, hkept⟩ := h
  refine ⟨c, rfl, List.mem_append_left _ hcreated, fun call' hmem => ?_⟩
  rcases List.mem_append.mp hmem with hmem | hmem
  · exact hkept call' hmem
  · rw [List.mem_singleton.mp hmem]
    exact hcall c

/-! ## Calls that only use the class -/

/-- From `s` to `s'` the class is used, and nothing else about it changes. -/
structure OnlyUses (s s' : Driver) : Prop where
  cl : s'.cl = s.cl
  first : s'.first = s.first
  deviceFound : s'.deviceFound = s.deviceFound
  classCalls : ∃ used, s'.classCalls = s.classCalls ++ used ∧
    ∀ call ∈ used, call.uses = some s.cl

namespace OnlyUses

theorem atDevice {s s' : Driver} {key : DeviceKey}
    {f : Hcsr04Device → List Gen2PinConfig → List KernelCall →
      Option (List KernelCall × Hcsr04Device × List Gen2PinConfig × Int32)} {ret : Int32}
    (h : s.atDevice key f = some (s', ret)) : OnlyUses s s' := by
  obtain ⟨d, calls, device, pins, -, -, rfl⟩ := Driver.atDevice_eq_some h
  exact ⟨rfl, rfl, rfl, [], by simp, by simp⟩

theorem hcsr04Init (env : ProbeEnv) (name : Nat) (s : Driver) :
    OnlyUses s (hcsr04Init env name s).1 := by
  obtain ⟨d, heq⟩ := hcsr04Init_eq env name s
  rw [heq]
  refine ⟨rfl, rfl, rfl, _, rfl, fun call hmem => ?_⟩
  rcases List.mem_cons.mp hmem with rfl | hmem
  · rfl
  · split at hmem
    · exact absurd hmem List.not_mem_nil
    · rw [List.mem_singleton.mp hmem]
      rfl

theorem hcsr04Exit (name : Nat) (s : Driver) : OnlyUses s (hcsr04Exit name s) := by
  simp only [Platform.hcsr04Exit, deleteDevices_eq]
  refine ⟨rfl, rfl, rfl, _, rfl, fun call hmem => ?_⟩
  obtain ⟨d, -, rfl⟩ := List.mem_map.mp hmem
  rfl

end OnlyUses

/-- Using the class keeps it in order. -/
theorem UsesLive.append {classCalls used : List ClassCall} {cl : Option Nat}
    (h : UsesLive classCalls) (hlive : Live classCalls cl)
    (hused : ∀ call ∈ used, call.uses = some cl) :
    UsesLive (classCalls ++ used) ∧ Live (classCalls ++ used) cl := by
  induction used generalizing classCalls with
  | nil => simpa using ⟨h, hlive⟩
  | cons call used ih =>
    have huses : call.uses = some cl := hused call List.mem_cons_self
    rw [List.append_cons]
    refine ih (h.concat fun cl' hcl' => ?_) (hlive.concat (ClassCall.not_unregisters_of_uses huses))
      fun call' hmem => hused call' (List.mem_cons_of_mem _ hmem)
    obtain rfl : cl = cl' := by simpa [huses] using hcl'
    exact hlive

/-! ## One operation -/

/-- Class `c`, the only one ever created, is there for the next device. -/
structure ClassReady (c : Nat) (s : Driver) : Prop where
  first : s.first ≠ 1
  cl : s.cl = some c
  live : Live s.classCalls (some c)
  usesLive : UsesLive s.classCalls
  only : ∀ d, .classCreate d ∈ s.classCalls → d = c

theorem ClassReady.onlyUses {c : Nat} {s s' : Driver} (h : ClassReady c s) (huses : OnlyUses s s') :
    ClassReady c s' := by
  obtain ⟨used, heq, hused⟩ := huses.classCalls
  rw [h.cl] at hused
  obtain ⟨husesLive, hlive⟩ := h.usesLive.append h.live hused
  rw [← heq] at husesLive hlive
  refine ⟨huses.first ▸ h.first, huses.cl.trans h.cl, hlive, husesLive, fun d hd => ?_⟩
  rw [heq] at hd
  rcases List.mem_append.mp hd with hd | hd
  · exact h.only d hd
  · exact absurd (hused _ hd) nofun

/-- Before the first probe, and while some device is there. -/
inductive ClassInv (s : HotPlugged) : Prop where
  | none (first : s.driver.first = 1) (deviceFound : s.driver.deviceFound = 0)
      (classCalls : s.driver.classCalls = []) (probed : s.probed = [])
  | ready {c : Nat} (ready : ClassReady c s.driver)
      (deviceFound : s.driver.deviceFound = Int32.ofNat s.probed.length) (probed : s.probed ≠ [])

theorem ClassInv.classInOrder {s : HotPlugged} (h : ClassInv s) : ClassInOrder s := by
  cases h with
  | none _ _ classCalls _ =>
    exact ⟨classCalls ▸ usesLive_nil, fun d hd => absurd (classCalls ▸ hd) List.not_mem_nil⟩
  | @ready c ready _ probed =>
    refine ⟨ready.usesLive, fun d hd => ?_⟩
    obtain ⟨c', hc', -, hkept⟩ := ready.live
    obtain rfl := Option.some.inj hc'
    obtain rfl := ready.only d hd
    have hnone : s.driver.classCalls.countP (·.unregisters d) = 0 :=
      List.countP_eq_zero.mpr fun call hmem => by simpa using hkept call hmem
    exact ⟨by omega, fun hprobed => absurd hprobed probed⟩

/-- The first probe creates the class. -/
theorem ClassReady.create {s : Driver} (h : s.classCalls = []) {c : Nat} {t : Driver}
    (ht : t.classCalls = s.classCalls ++ [.classCreate c]) (hcl : t.cl = some c)
    (hfirst : t.first = 0) : ClassReady c t := by
  rw [h, List.nil_append] at ht
  have hnone : UsesLive ([] ++ [ClassCall.classCreate c]) := usesLive_nil.concat nofun
  refine ⟨by rw [hfirst]; decide, hcl, ht ▸ ⟨c, rfl, List.mem_singleton_self _, ?_⟩, ht ▸ hnone, ?_⟩
  · intro call hmem
    rw [List.mem_singleton.mp hmem]
    rfl
  · intro d hd
    rw [ht] at hd
    exact ClassCall.classCreate.inj (List.mem_singleton.mp hd)

theorem ClassInv.probe {s : HotPlugged} (h : ClassInv s) {env : ProbeEnv} {name : Nat}
    (hcreated : s.driver.first = 1 → env.classCreated = true) :
    ClassInv ⟨(pdriverProbe env name s.driver).1, name :: s.probed⟩ := by
  cases h with
  | none first deviceFound classCalls probed =>
    rw [pdriverProbe_first name first (hcreated first)]
    have huses := OnlyUses.hcsr04Init env name { s.driver with
      cl := some s.driver.createdClasses
      first := 0
      deviceFound := s.driver.deviceFound + 1
      devices := []
      pins := populateGen2PinsData env.minorLeft
      classCalls := s.driver.classCalls ++ [.classCreate s.driver.createdClasses] }
    refine .ready ((ClassReady.create classCalls rfl rfl rfl).onlyUses huses) ?_ nofun
    rw [huses.deviceFound, probed]
    exact congrArg (· + 1) deviceFound
  | ready ready deviceFound probed =>
    rw [pdriverProbe_later env name ready.first]
    have huses := OnlyUses.hcsr04Init env name
      { s.driver with deviceFound := s.driver.deviceFound + 1 }
    have hready : ClassReady _ { s.driver with deviceFound := s.driver.deviceFound + 1 } :=
      ⟨ready.first, ready.cl, ready.live, ready.usesLive, ready.only⟩
    refine .ready (hready.onlyUses huses) ?_ nofun
    rw [huses.deviceFound, List.length_cons, Int32.ofNat_add, ← deviceFound]
    rfl

theorem length_eq_one_of_erase {probed : List Nat} {name : Nat} (hmem : name ∈ probed)
    (h : probed.erase name = []) : probed.length = 1 := by
  have hlength := List.length_erase_of_mem hmem
  have hpos := List.length_pos_of_mem hmem
  rw [h, List.length_nil] at hlength
  omega

/-- A remove after which some device is left. -/
theorem ClassInv.remove {s : HotPlugged} (h : ClassInv s) {name : Nat} (hmem : name ∈ s.probed)
    (hleaves : s.driver.deviceFound ≠ 1) :
    ClassInv ⟨(pdriverRemove name s.driver).1, s.probed.erase name⟩ := by
  cases h with
  | none _ _ _ probed => exact absurd (probed ▸ hmem) List.not_mem_nil
  | ready ready deviceFound probed =>
    have huses := OnlyUses.hcsr04Exit name s.driver
    have hzero : (hcsr04Exit name s.driver).deviceFound - 1 ≠ 0 := by
      rw [huses.deviceFound]
      intro hzero
      exact hleaves (Int32.sub_eq_iff_eq_add.mp hzero)
    simp only [pdriverRemove, if_neg hzero]
    have hready := ready.onlyUses huses
    refine .ready ⟨hready.first, hready.cl, hready.live, hready.usesLive, hready.only⟩ ?_ ?_
    · have hlength := List.length_erase_of_mem hmem
      have hpos := List.length_pos_of_mem hmem
      have hsucc : s.probed.length = (s.probed.erase name).length + 1 := by omega
      rw [huses.deviceFound, deviceFound, hsucc, Int32.ofNat_add]
      exact Int32.add_sub_cancel _ _
    · intro hnone
      rw [length_eq_one_of_erase hmem hnone] at deviceFound
      exact hleaves deviceFound

/-- The remove of the last device unregisters the class twice. -/
theorem ClassInv.not_classInOrder {s : HotPlugged} (h : ClassInv s) {name : Nat}
    (hmem : name ∈ s.probed) (hlast : s.driver.deviceFound = 1) (probed : List Nat) :
    ¬ ClassInOrder ⟨(pdriverRemove name s.driver).1, probed⟩ := by
  cases h with
  | none _ _ _ probed => exact absurd (probed ▸ hmem) List.not_mem_nil
  | @ready c ready deviceFound _ =>
    have huses := OnlyUses.hcsr04Exit name s.driver
    have hready := ready.onlyUses huses
    obtain ⟨c', hc', hcreated, -⟩ := hready.live
    obtain rfl := Option.some.inj hc'
    have hzero : (hcsr04Exit name s.driver).deviceFound - 1 = 0 := by
      rw [huses.deviceFound, hlast]
      rfl
    intro horder
    have honce := (horder.once c (by
      simp only [pdriverRemove, if_pos hzero, Driver.logClass]
      simpa using hcreated)).1
    simp [pdriverRemove, hzero, Driver.logClass, hready.cl, ClassCall.unregisters] at honce

theorem ClassInv.device {s : HotPlugged} (h : ClassInv s) {key : DeviceKey} {call : DeviceCall}
    {driver : Driver} {ret : Int32}
    (hcall : s.driver.atDevice key call.effect = some (driver, ret)) :
    ClassInv ⟨driver, s.probed⟩ := by
  cases h with
  | none first deviceFound classCalls probed =>
    obtain ⟨d, calls, device, pins, -, -, rfl⟩ := Driver.atDevice_eq_some hcall
    exact .none first deviceFound classCalls probed
  | ready ready deviceFound probed =>
    have huses := OnlyUses.atDevice hcall
    exact .ready (ready.onlyUses huses) (huses.deviceFound.trans deviceFound) probed

/-- Exactly the operations that leave some device keep the class in order. -/
theorem ClassInv.step {s s' : HotPlugged} (h : ClassInv s) {op : DriverOp} {ret : Int32}
    (hop : hotPlug s op = some (s', ret)) :
    (LeavesSome s op → ClassInv s') ∧ (ClassInOrder s' → LeavesSome s op) := by
  obtain ⟨hpermitted, hdriver, hprobed⟩ := hotPlug_eq_some hop
  obtain ⟨driver, probed⟩ := s'
  obtain rfl : probed = probedAfter s.probed op := hprobed
  cases op with
  | probe env name =>
    obtain rfl : (pdriverProbe env name s.driver).1 = driver :=
      congrArg Prod.fst (Option.some.inj hdriver)
    exact ⟨fun _ => h.probe hpermitted, fun _ => trivial⟩
  | remove name =>
    obtain rfl : (pdriverRemove name s.driver).1 = driver :=
      congrArg Prod.fst (Option.some.inj hdriver)
    exact ⟨h.remove hpermitted, fun horder hlast => h.not_classInOrder hpermitted hlast _ horder⟩
  | device key call => exact ⟨fun _ => h.device hdriver, fun _ => trivial⟩

/-! ## The main result -/

/-- In every state of a run the class is in order exactly when each remove of the run leaves some
device. -/
theorem classInOrder_iff {ops : List DriverOp} {s : HotPlugged} {rets : List Int32}
    (hrun : run hotPlug unplugged ops = some (s, rets)) :
    (∀ before t rets', before <+: ops → run hotPlug unplugged before = some (t, rets') →
      ClassInOrder t) ↔ Along hotPlug LeavesSome unplugged ops := by
  have hstart : ClassInv unplugged := .none rfl rfl rfl rfl
  exact always_iff_along hotPlug (fun s h => ClassInv.classInOrder h)
    (fun s op s' ret h hop => (ClassInv.step h hop).1)
    (fun s op s' ret h hop => (ClassInv.step h hop).2) hstart hrun

/-- One device stays while another one comes and goes. -/
theorem classInOrder_iff_one_stays :
    ∃ s rets, run hotPlug unplugged [.probe (probeEnv 5) 1, .probe (probeEnv 6) 2, .remove 2,
      .probe (probeEnv 6) 3] = some (s, rets) ∧ ClassInOrder s := by
  have hstays : Along hotPlug LeavesSome unplugged [.probe (probeEnv 5) 1, .probe (probeEnv 6) 2,
      .remove 2, .probe (probeEnv 6) 3] := by decide
  exact ⟨_, _, rfl, (classInOrder_iff rfl).mpr hstays _ _ _ List.prefix_rfl rfl⟩

/-- The only device goes, and its class is unregistered twice. -/
theorem not_classInOrder : ¬ ∀ (ops : List DriverOp) (s : HotPlugged) (rets : List Int32),
    run hotPlug unplugged ops = some (s, rets) → ClassInOrder s := by
  intro hall
  have horder := hall [.probe (probeEnv 5) 1, .remove 1] _ _ rfl
  exact absurd (horder.once 0 (by decide)).1 (by decide)

end KernelDrivers.Platform
