import KernelDrivers.Lib.Setup
import Mathlib.Data.Finset.Insert

/-!
# The lives of the character drivers

The hash table driver, Mprobe and the two WS2812 drivers register a character device when they are
loaded. None of them gives anything back when its load fails. The exits of the first two give
back what their loads took. Those of the other two give back a region of two device numbers where
they took one, and a second device.
-/

namespace KernelDrivers.CharDrivers
open Lib

/-! ## What the kernel hands out -/

/-- A region of device numbers has a first minor number and a count. -/
inductive Resource where
  | chrdevRegion (firstMinor count : Nat)
  | memory
  | deviceClass
  | cdev
  | device (minor : Nat)
  | spiDriver
  | pciDevice
  | ioMapping
  deriving DecidableEq

def ENOMEM : Int32 := 12

/-- What the kernel answers to the requests of one load, a refusal with its negative error code.
For the SPI driver also whether the bus has a device of its name, and for the bit-banging one
whether an `ioread32` through a mapping that was refused is fatal or only warns. `class_create` is
granted: no driver sees its refusal, and every exit goes on to use the class. -/
structure Answers where
  refusal : Resource → Option Int32
  devicePresent : Bool
  unmappedReadFatal : Bool
  negative : ∀ r error, refusal r = some error → error < 0
  classGranted : refusal .deviceClass = none

/-- How an init function that is stopped ends. It dies where it dereferences what it was refused. -/
inductive InitEnd where
  | returned (ret : Int32)
  | died

/-- The driver returns a number of its own when it is refused the resource. -/
def orReturn (resource : Resource) (ret : Int32) : Request Resource Int32 InitEnd :=
  ⟨resource, some fun _ => .returned ret⟩

/-- `ret = …; if(ret) return ret;` -/
def orReturnError (resource : Resource) : Request Resource Int32 InitEnd :=
  ⟨resource, some .returned⟩

/-- The driver uses the pointer it gets, which is `NULL` when it is refused the resource. -/
def orDie (resource : Resource) : Request Resource Int32 InitEnd :=
  ⟨resource, some fun _ => .died⟩

/-- The driver reads through what it was refused, which kills it where such a read is fatal. -/
def orDieIf (fatal : Bool) (resource : Resource) : Request Resource Int32 InitEnd :=
  ⟨resource, if fatal then some fun _ => .died else none⟩

/-- The driver does not look at the answer, or only prints it, or takes the error pointer of a
refusal for a success because it is not `NULL`. -/
def orGoOn (resource : Resource) : Request Resource Int32 InitEnd := ⟨resource, none⟩

/-- A driver with the requests of its init function and the releases of its exit function. -/
structure CharDriver where
  requests : List (Request Resource Int32 InitEnd)
  releases : List Resource
  requestsNodup : (requests.map Request.resource).Nodup
  releasesNodup : releases.Nodup

/-- `ht530_drv_driver_init`, `ht530_drv_driver_exit` -/
def ht530Driver : CharDriver where
  requests := [orReturn (.chrdevRegion 0 2) (-1), orReturn .memory (-ENOMEM), orReturn .cdev (-1),
    orGoOn .deviceClass, orGoOn (.device 0), orGoOn (.device 1)]
  releases := [.cdev, .device 0, .device 1, .memory, .deviceClass, .chrdevRegion 0 2]
  requestsNodup := by decide
  releasesNodup := by decide

/-- `mprobe_driver_init`, `mprobe_driver_exit` -/
def mprobeDriver : CharDriver where
  requests := [orReturn (.chrdevRegion 0 1) (-1), orReturn .memory (-ENOMEM), orGoOn .deviceClass,
    orReturn .cdev 1, orGoOn (.device 0)]
  releases := [.chrdevRegion 0 1, .cdev, .device 0, .memory, .deviceClass]
  requestsNodup := by decide
  releasesNodup := by decide

/-- `ws2812_driver_init`, `ws2812_driver_exit` -/
def ws2812Driver (unmappedReadFatal : Bool) : CharDriver where
  requests := [orReturn (.chrdevRegion 0 1) (-1), orGoOn .deviceClass, orReturnError .cdev,
    orGoOn (.device 0), orDie .pciDevice, orDieIf unmappedReadFatal .ioMapping]
  releases := [.cdev, .device 0, .device 1, .deviceClass, .chrdevRegion 0 2]
  requestsNodup := by simp [orReturn, orReturnError, orDie, orDieIf, orGoOn]
  releasesNodup := by decide

/-- The kernel keeps a module unless its init function returns a negative number, and does not
unload one whose init function died. -/
def reachesExit : Option InitEnd → Bool
  | none => true
  | some (.returned ret) => 0 ≤ ret
  | some .died => false

/-- A load, and an unload if the module comes to it. -/
def CharDriver.life (driver : CharDriver) (answers : Answers) : List (Event Resource) :=
  let loaded := setUp answers.refusal driver.requests []
  if reachesExit loaded.2 then releaseAll driver.releases loaded.1 else loaded.1

/-! ## The SPI driver -/

/-- `spi_probe` -/
def spiProbe : List (Request Resource Int32 InitEnd) :=
  [orReturn (.chrdevRegion 0 1) (-1), orGoOn .deviceClass, orReturnError .cdev,
    orGoOn (.device 0)]

/-- What `spidriver_exit` does after `spi_unregister_driver`. -/
def spiReleases : List Resource :=
  [.cdev, .device 0, .device 1, .deviceClass, .chrdevRegion 0 2]

/-- `spi_remove`, which the bus calls for a device that is bound. -/
def spiRemove (bound : Bool) (log : List (Event Resource)) : List (Event Resource) :=
  if bound then .release (.device 0) :: log else log

/-- `spidriver_init` registers the driver and is kept whatever the probe of the device returns. A
device is bound if its probe succeeds. `spidriver_exit` dies in `reset_leds` when no device was
probed, and otherwise goes on to `spi_unregister_driver`. -/
def spiLife (answers : Answers) : List (Event Resource) :=
  let loaded := setUp answers.refusal [orReturn .spiDriver (-1)] []
  if reachesExit loaded.2 && answers.devicePresent then
    let probed := setUp answers.refusal spiProbe loaded.1
    releaseAll spiReleases (.release .spiDriver :: spiRemove probed.2.isNone probed.1)
  else loaded.1

/-! ## What the lives leave -/

/-- The modules that register a character device. -/
inductive CharModule where
  | ht530
  | mprobe
  | ws2812
  | spi

def CharModule.life : CharModule → Answers → List (Event Resource)
  | .ht530 => ht530Driver.life
  | .mprobe => mprobeDriver.life
  | .ws2812 => fun answers => (ws2812Driver answers.unmappedReadFatal).life answers
  | .spi => spiLife

def Answers.grants (answers : Answers) (r : Resource) : Bool := (answers.refusal r).isNone

/-- What one life leaves. -/
def CharModule.leaves (answers : Answers) : CharModule → Finset Resource
  | .ht530 =>
    if !answers.grants (.chrdevRegion 0 2) then ∅
    else if !answers.grants .memory then {.chrdevRegion 0 2}
    else if !answers.grants .cdev then {.chrdevRegion 0 2, .memory}
    else ∅
  | .mprobe =>
    if answers.grants (.chrdevRegion 0 1) && !answers.grants .memory then {.chrdevRegion 0 1}
    else ∅
  | .ws2812 =>
    if !answers.grants (.chrdevRegion 0 1) then ∅
    else if !answers.grants .cdev then {.chrdevRegion 0 1, .deviceClass}
    else if !answers.grants .pciDevice then
      ({.chrdevRegion 0 1, .deviceClass, .cdev, .device 0} : Finset Resource).filter
        fun r => answers.grants r
    else if !answers.grants .ioMapping && answers.unmappedReadFatal then
      ({.chrdevRegion 0 1, .deviceClass, .cdev, .device 0, .pciDevice} : Finset Resource).filter
        fun r => answers.grants r
    else ({.chrdevRegion 0 1, .pciDevice, .ioMapping} : Finset Resource).filter
      fun r => answers.grants r
  | .spi =>
    if !answers.grants .spiDriver then ∅
    else if !answers.devicePresent then {.spiDriver}
    else if answers.grants (.chrdevRegion 0 1) then {.chrdevRegion 0 1} else ∅

/-- Whether one life releases only what it holds. -/
def CharModule.orderly (answers : Answers) : CharModule → Bool
  | .ht530 =>
    !answers.grants (.chrdevRegion 0 2) || !answers.grants .memory || !answers.grants .cdev ||
      (answers.grants (.device 0) && answers.grants (.device 1))
  | .mprobe =>
    !answers.grants (.chrdevRegion 0 1) || !answers.grants .memory ||
      (answers.grants .cdev && answers.grants (.device 0))
  | .ws2812 =>
    !answers.grants (.chrdevRegion 0 1) || !answers.grants .cdev || !answers.grants .pciDevice ||
      (!answers.grants .ioMapping && answers.unmappedReadFatal)
  | .spi => !answers.grants .spiDriver || !answers.devicePresent

section Life

variable {driver : CharDriver} {answers : Answers}

theorem grants_iff {r : Resource} : answers.grants r = true ↔ answers.refusal r = none :=
  Option.isNone_iff_eq_none

theorem refused_of_not_grants {r : Resource} (h : answers.grants r = false) :
    ∃ error, answers.refusal r = some error ∧ error < 0 := by
  cases hr : answers.refusal r with
  | none => exact absurd (grants_iff.mpr hr) (by simp [h])
  | some error => exact ⟨error, rfl, answers.negative r error hr⟩

theorem legal_load (driver : CharDriver) (answers : Answers) :
    Legal (setUp answers.refusal driver.requests []).1 :=
  legal_setUp driver.requestsNodup (fun _ _ => Finset.notMem_empty _) trivial

theorem reachesExit_of_succeeds (h : ∀ q ∈ driver.requests, q.onRefusal ≠ none →
    answers.refusal q.resource = none) :
    reachesExit (setUp answers.refusal driver.requests []).2 = true := by
  rw [setUp_eq_none_iff.mpr h]
  rfl

theorem grants_class : answers.grants .deviceClass = true := grants_iff.mpr answers.classGranted

/-- A life without an unload leaves all that its load was granted. -/
theorem life_unreached
    (hreaches : reachesExit (setUp answers.refusal driver.requests []).2 = false) :
    held (driver.life answers) = (granted answers.refusal driver.requests).toFinset ∧
      Legal (driver.life answers) := by
  have hheld := held_setUp answers.refusal driver.requests []
  rw [CharDriver.life]
  simp only [hreaches, Bool.false_eq_true, if_false]
  refine ⟨?_, legal_load driver answers⟩
  rw [hheld]
  exact Finset.empty_union _

/-- A load that stops at a refusal leaves what it was granted before. -/
theorem life_stopped {before after : List (Request Resource Int32 InitEnd)}
    {q : Request Resource Int32 InitEnd} {error : Int32} {give : Int32 → InitEnd}
    (hrequests : driver.requests = before ++ q :: after)
    (hbefore : ∀ p ∈ before, p.onRefusal ≠ none → answers.refusal p.resource = none)
    (hq : answers.refusal q.resource = some error) (hgive : q.onRefusal = some give)
    (hend : reachesExit (some (give error)) = false) :
    held (driver.life answers) =
        (before.map Request.resource).toFinset.filter (fun r => answers.grants r) ∧
      Legal (driver.life answers) := by
  obtain ⟨hret, hgranted⟩ := setUp_stops after hbefore hq hgive []
  rw [← hrequests] at hret hgranted
  obtain ⟨hheld, hlegal⟩ := @life_unreached driver answers (hret ▸ hend)
  refine ⟨hheld.trans ?_, hlegal⟩
  ext r
  rw [hgranted, List.mem_toFinset, mem_granted_of_succeeds hbefore, Finset.mem_filter,
    List.mem_toFinset, grants_iff]

/-- A module that was kept leaves what its exit does not name. -/
theorem life_kept (hreaches : reachesExit (setUp answers.refusal driver.requests []).2 = true) :
    held (driver.life answers) =
        (granted answers.refusal driver.requests).toFinset \ driver.releases.toFinset ∧
      (Legal (driver.life answers) ↔
        ∀ r ∈ driver.releases, r ∈ granted answers.refusal driver.requests) := by
  have hlegal := legal_load driver answers
  have hheld := held_setUp answers.refusal driver.requests []
  rw [CharDriver.life]
  simp only [if_pos hreaches]
  rw [held_releaseAll, legal_releaseAll_iff, hheld]
  simp [held, driver.releasesNodup, hlegal]

/-- An exit that names every resource of the load leaves nothing. -/
theorem held_life_of_subset
    (hreaches : reachesExit (setUp answers.refusal driver.requests []).2 = true)
    (hsub : driver.requests.map Request.resource ⊆ driver.releases) :
    held (driver.life answers) = ∅ := by
  rw [(life_kept hreaches).1, Finset.sdiff_eq_empty_iff_subset]
  intro r hr
  have hgranted :=
    (granted_sublist answers.refusal driver.requests).subset (List.mem_toFinset.mp hr)
  exact List.mem_toFinset.mpr (hsub hgranted)

end Life

/-! ## The four modules -/

section Modules

variable (answers : Answers)

theorem ht530_life :
    held (ht530Driver.life answers) = CharModule.ht530.leaves answers ∧
      (Legal (ht530Driver.life answers) ↔ CharModule.ht530.orderly answers = true) := by
  cases hregion : answers.grants (.chrdevRegion 0 2) with
  | false =>
    obtain ⟨error, herror, -⟩ := refused_of_not_grants hregion
    obtain ⟨hheld, hlegal⟩ := @life_stopped ht530Driver answers [] _ _ error _ rfl
      (by simp) herror rfl rfl
    simp [CharModule.leaves, CharModule.orderly, hregion, hheld, hlegal]
  | true =>
  have hregion' := grants_iff.mp hregion
  cases hmemory : answers.grants .memory with
  | false =>
    obtain ⟨error, herror, -⟩ := refused_of_not_grants hmemory
    obtain ⟨hheld, hlegal⟩ := @life_stopped ht530Driver answers
      [orReturn (.chrdevRegion 0 2) (-1)] _ _ error _ rfl
      (by simpa [orReturn] using hregion') herror rfl rfl
    simp [CharModule.leaves, CharModule.orderly, hregion, hmemory, hheld, hlegal, orReturn]
  | true =>
  have hmemory' := grants_iff.mp hmemory
  cases hcdev : answers.grants .cdev with
  | false =>
    obtain ⟨error, herror, -⟩ := refused_of_not_grants hcdev
    obtain ⟨hheld, hlegal⟩ := @life_stopped ht530Driver answers
      [orReturn (.chrdevRegion 0 2) (-1), orReturn .memory (-ENOMEM)] _ _ error _ rfl
      (by simpa [orReturn] using ⟨hregion', hmemory'⟩) herror rfl rfl
    simp [CharModule.leaves, CharModule.orderly, hregion, hmemory, hcdev, hheld, hlegal, orReturn]
  | true =>
    have hcdev' := grants_iff.mp hcdev
    have hloads : ∀ q ∈ ht530Driver.requests, q.onRefusal ≠ none →
        answers.refusal q.resource = none := by
      simp [ht530Driver, orReturn, orGoOn, hregion', hmemory', hcdev']
    have hreaches := reachesExit_of_succeeds hloads
    have hheld := held_life_of_subset hreaches (by decide)
    have hlegal := (life_kept hreaches).2
    simp only [mem_granted_of_succeeds hloads, ← grants_iff] at hlegal
    refine ⟨?_, hlegal.trans ?_⟩
    · simp [CharModule.leaves, hregion, hmemory, hcdev, hheld]
    · simp [ht530Driver, orReturn, orGoOn, CharModule.orderly, hregion, hmemory, hcdev,
        grants_class]

/-- The module is kept when `cdev_add` fails, and its exit then deletes a device that was not
added. -/
theorem mprobe_life :
    held (mprobeDriver.life answers) = CharModule.mprobe.leaves answers ∧
      (Legal (mprobeDriver.life answers) ↔ CharModule.mprobe.orderly answers = true) := by
  cases hregion : answers.grants (.chrdevRegion 0 1) with
  | false =>
    obtain ⟨error, herror, -⟩ := refused_of_not_grants hregion
    obtain ⟨hheld, hlegal⟩ := @life_stopped mprobeDriver answers [] _ _ error _ rfl
      (by simp) herror rfl rfl
    simp [CharModule.leaves, CharModule.orderly, hregion, hheld, hlegal]
  | true =>
  have hregion' := grants_iff.mp hregion
  cases hmemory : answers.grants .memory with
  | false =>
    obtain ⟨error, herror, -⟩ := refused_of_not_grants hmemory
    obtain ⟨hheld, hlegal⟩ := @life_stopped mprobeDriver answers
      [orReturn (.chrdevRegion 0 1) (-1)] _ _ error _ rfl
      (by simpa [orReturn] using hregion') herror rfl rfl
    simp [CharModule.leaves, CharModule.orderly, hregion, hmemory, hheld, hlegal, orReturn]
  | true =>
    have hmemory' := grants_iff.mp hmemory
    have hleaves : CharModule.mprobe.leaves answers = ∅ := by
      simp [CharModule.leaves, hregion, hmemory]
    cases hcdev : answers.grants .cdev with
    | false =>
      obtain ⟨error, herror, -⟩ := refused_of_not_grants hcdev
      have hset : (setUp answers.refusal mprobeDriver.requests []).2 = some (.returned 1) ∧
          Resource.cdev ∉ granted answers.refusal mprobeDriver.requests := by
        simp [mprobeDriver, orReturn, orGoOn, setUp, granted, hregion', hmemory',
          answers.classGranted, herror]
      have hreaches : reachesExit (setUp answers.refusal mprobeDriver.requests []).2 = true := by
        rw [hset.1]
        decide
      have hlegal := (life_kept hreaches).2
      refine ⟨hleaves ▸ held_life_of_subset hreaches (by decide), ?_⟩
      refine iff_of_false (fun h => hset.2 (hlegal.mp h .cdev (by decide))) ?_
      simp [CharModule.orderly, hregion, hmemory, hcdev]
    | true =>
      have hcdev' := grants_iff.mp hcdev
      have hloads : ∀ q ∈ mprobeDriver.requests, q.onRefusal ≠ none →
          answers.refusal q.resource = none := by
        simp [mprobeDriver, orReturn, orGoOn, hregion', hmemory', hcdev']
      have hreaches := reachesExit_of_succeeds hloads
      have hlegal := (life_kept hreaches).2
      simp only [mem_granted_of_succeeds hloads, ← grants_iff] at hlegal
      refine ⟨hleaves ▸ held_life_of_subset hreaches (by decide),
        hlegal.trans ?_⟩
      simp [mprobeDriver, orReturn, orGoOn, CharModule.orderly, hregion, hmemory, hcdev,
        grants_class]

theorem ws2812_life :
    held (CharModule.ws2812.life answers) = CharModule.ws2812.leaves answers ∧
      (Legal (CharModule.ws2812.life answers) ↔ CharModule.ws2812.orderly answers = true) := by
  let driver := ws2812Driver answers.unmappedReadFatal
  cases hregion : answers.grants (.chrdevRegion 0 1) with
  | false =>
    obtain ⟨error, herror, -⟩ := refused_of_not_grants hregion
    obtain ⟨hheld, hlegal⟩ := @life_stopped driver answers [] _ _ error _ rfl
      (by simp) herror rfl rfl
    refine ⟨hheld.trans ?_, iff_of_true hlegal (by simp [CharModule.orderly, hregion])⟩
    simp [CharModule.leaves, hregion]
  | true =>
  have hregion' := grants_iff.mp hregion
  cases hcdev : answers.grants .cdev with
  | false =>
    obtain ⟨error, herror, hnegative⟩ := refused_of_not_grants hcdev
    obtain ⟨hheld, hlegal⟩ := @life_stopped driver answers
      [orReturn (.chrdevRegion 0 1) (-1), orGoOn .deviceClass] _ _ error _ rfl
      (by simpa [orReturn, orGoOn] using hregion') herror rfl
      (by simpa [reachesExit] using hnegative)
    refine ⟨hheld.trans ?_, iff_of_true hlegal (by simp [CharModule.orderly, hcdev])⟩
    simp [CharModule.leaves, hregion, hcdev, orReturn, orGoOn, Finset.filter_insert,
      Finset.filter_singleton, grants_class]
  | true =>
  have hcdev' := grants_iff.mp hcdev
  cases hpci : answers.grants .pciDevice with
  | false =>
    -- the init function dies, whatever it was answered about the device before
    obtain ⟨error, herror, -⟩ := refused_of_not_grants hpci
    obtain ⟨hheld, hlegal⟩ := @life_stopped driver answers
      [orReturn (.chrdevRegion 0 1) (-1), orGoOn .deviceClass, orReturnError .cdev,
        orGoOn (.device 0)] _ _ error _ rfl
      (by simpa [orReturn, orReturnError, orGoOn] using ⟨hregion', hcdev'⟩) herror rfl rfl
    refine ⟨hheld.trans ?_, iff_of_true hlegal (by simp [CharModule.orderly, hpci])⟩
    simp [CharModule.leaves, hregion, hcdev, hpci, orReturn, orReturnError, orGoOn]
  | true =>
  have hpci' := grants_iff.mp hpci
  cases hmapped : !answers.grants .ioMapping && answers.unmappedReadFatal with
  | true =>
    obtain ⟨hmapping, hfatal⟩ : answers.grants .ioMapping = false ∧
      answers.unmappedReadFatal = true := by simpa using hmapped
    obtain ⟨error, herror, -⟩ := refused_of_not_grants hmapping
    obtain ⟨hheld, hlegal⟩ := @life_stopped driver answers
      [orReturn (.chrdevRegion 0 1) (-1), orGoOn .deviceClass, orReturnError .cdev,
        orGoOn (.device 0), orDie .pciDevice] [] _ error _ rfl
      (by simpa [orReturn, orReturnError, orDie, orGoOn] using ⟨hregion', hcdev', hpci'⟩) herror
      (if_pos hfatal) rfl
    refine ⟨hheld.trans ?_, iff_of_true hlegal (by simp [CharModule.orderly, hmapping, hfatal])⟩
    simp [CharModule.leaves, hregion, hcdev, hpci, hmapping, hfatal, orReturn, orReturnError, orDie,
      orGoOn]
  | false =>
    have hmapping : answers.unmappedReadFatal = true → answers.refusal .ioMapping = none :=
      fun hfatal => grants_iff.mp (by simpa [hfatal] using hmapped)
    have hloads : ∀ q ∈ driver.requests, q.onRefusal ≠ none →
        answers.refusal q.resource = none := by
      simpa [driver, ws2812Driver, orReturn, orReturnError, orDie, orDieIf, orGoOn, hregion',
        hcdev', hpci'] using hmapping
    have hreaches := reachesExit_of_succeeds hloads
    obtain ⟨hheld, hlegal⟩ := life_kept hreaches
    refine ⟨hheld.trans ?_, iff_of_false (fun h => ?_) ?_⟩
    · ext r
      simp only [Finset.mem_sdiff, List.mem_toFinset, mem_granted_of_succeeds hloads, ← grants_iff]
      simp [driver, ws2812Driver, orReturn, orReturnError, orDie, orDieIf, orGoOn,
        CharModule.leaves, hregion, hcdev, hpci, hmapped]
      grind
    · have hregion₂ := (mem_granted_of_succeeds hloads).mp
        (hlegal.mp h (.chrdevRegion 0 2) (by simp [driver, ws2812Driver]))
      exact absurd hregion₂.1 (by simp [driver, ws2812Driver, orReturn, orReturnError, orDie,
        orDieIf, orGoOn])
    · simp [CharModule.orderly, hregion, hcdev, hpci, hmapped]

/-- A probe comes to hold the region if it is granted, and otherwise only what the exit of the
module names. -/
theorem mem_granted_spiProbe {r : Resource} (h : r ∈ granted answers.refusal spiProbe) :
    (r = .chrdevRegion 0 1 ∧ answers.grants (.chrdevRegion 0 1) = true) ∨
      (r ∈ spiReleases ∧ r ≠ .chrdevRegion 0 2) := by
  have hmem := (granted_sublist answers.refusal spiProbe).subset h
  simp only [spiProbe, orReturn, orReturnError, orGoOn, List.map_cons, List.map_nil, List.mem_cons,
    List.not_mem_nil, or_false] at hmem
  rcases hmem with rfl | rfl | rfl | rfl
  · left
    cases hregion : answers.refusal (.chrdevRegion 0 1) with
    | none => exact ⟨rfl, grants_iff.mpr hregion⟩
    | some error => simp [spiProbe, orReturn, granted, hregion] at h
  · exact .inr (by decide)
  · exact .inr (by decide)
  · exact .inr (by decide)

theorem region_mem_granted_spiProbe (h : answers.grants (.chrdevRegion 0 1) = true) :
    Resource.chrdevRegion 0 1 ∈ granted answers.refusal spiProbe := by
  simp [spiProbe, orReturn, granted, grants_iff.mp h]

theorem mem_held_spiRemove {bound : Bool} {log : List (Event Resource)} {r : Resource} :
    r ∈ held (spiRemove bound log) ↔ (bound = true → r ≠ .device 0) ∧ r ∈ held log := by
  cases bound <;> simp [spiRemove]

theorem spi_life :
    held (spiLife answers) = CharModule.spi.leaves answers ∧
      (Legal (spiLife answers) ↔ CharModule.spi.orderly answers = true) := by
  cases hdriver : answers.grants .spiDriver with
  | false =>
    obtain ⟨error, herror, -⟩ := refused_of_not_grants hdriver
    simp [spiLife, setUp, orReturn, reachesExit, herror, CharModule.leaves, CharModule.orderly,
      hdriver, held, Legal]
  | true =>
  have hloaded : setUp answers.refusal [orReturn .spiDriver (-1)] [] =
      ([.request .spiDriver true], none) := by simp [setUp, orReturn, grants_iff.mp hdriver]
  cases hpresent : answers.devicePresent with
  | false =>
    simp [spiLife, hloaded, reachesExit, CharModule.leaves, CharModule.orderly, hdriver, hpresent,
      held, Legal]
  | true =>
    let probed := setUp answers.refusal spiProbe [.request .spiDriver true]
    have hlife : spiLife answers = releaseAll spiReleases
        (.release .spiDriver :: spiRemove probed.2.isNone probed.1) := by
      simp only [spiLife, hloaded, reachesExit, hpresent, Bool.and_true, if_true, probed]
    have hmem : ∀ r, r ∈ held (.release .spiDriver :: spiRemove probed.2.isNone probed.1) ↔
        r ≠ .spiDriver ∧ (probed.2.isNone = true → r ≠ .device 0) ∧
          (r = .spiDriver ∨ r ∈ granted answers.refusal spiProbe) := by
      intro r
      rw [held_release, Finset.mem_erase, mem_held_spiRemove, held_setUp]
      simp [held]
    rw [hlife, held_releaseAll, legal_releaseAll_iff]
    constructor
    · ext r
      have hleaves : r ∈ CharModule.spi.leaves answers ↔ r = .chrdevRegion 0 1 ∧
          answers.grants (.chrdevRegion 0 1) = true := by
        simp only [CharModule.leaves, hdriver, hpresent]
        grind
      rw [Finset.mem_sdiff, hmem, List.mem_toFinset, hleaves]
      constructor
      · rintro ⟨⟨hne, -, hdriver | hgranted⟩, hkept⟩
        · exact absurd hdriver hne
        · rcases mem_granted_spiProbe answers hgranted with ⟨rfl, hregion⟩ | ⟨hreleased, -⟩
          · exact ⟨rfl, hregion⟩
          · exact absurd hreleased hkept
      · rintro ⟨rfl, hregion⟩
        have hgranted := region_mem_granted_spiProbe answers hregion
        exact ⟨⟨by simp, fun _ => by simp, .inr hgranted⟩, by decide⟩
    · refine iff_of_false (fun h => ?_) (by simp [CharModule.orderly, hdriver, hpresent])
      have hregion := (hmem _).mp (h.2.1 (.chrdevRegion 0 2) (by decide))
      rcases hregion.2.2 with hdriver | hgranted
      · cases hdriver
      · rcases mem_granted_spiProbe answers hgranted with ⟨heq, -⟩ | ⟨-, hne⟩
        · cases heq
        · exact hne rfl

/-- One life of each module. -/
theorem life_spec (m : CharModule) : held (m.life answers) = m.leaves answers ∧
    (Legal (m.life answers) ↔ m.orderly answers = true) := by
  cases m with
  | ht530 => exact ht530_life answers
  | mprobe => exact mprobe_life answers
  | ws2812 => exact ws2812_life answers
  | spi => exact spi_life answers

end Modules

/-- Loaded and unloaded any number of times, with any answers of the kernel, a module leaves what
each of its lives leaves, and it releases only what it holds exactly when each of them does. -/
theorem lives_leave (m : CharModule) (answers : List Answers) :
    (∀ k r, (k, r) ∈ held (lives m.life answers) ↔
        ∃ a, answers[k]? = some a ∧ r ∈ m.leaves a) ∧
      (Legal (lives m.life answers) ↔ ∀ a ∈ answers, m.orderly a = true) := by
  obtain ⟨hheld, hlegal⟩ := lives_spec m.life answers
  constructor
  · intro k r
    simp only [hheld, (life_spec _ m).1]
  · simp only [hlegal, (life_spec _ m).2]

end KernelDrivers.CharDrivers
