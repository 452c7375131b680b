import KernelDrivers.Ws2812.BitBang
import KernelDrivers.Lib.Accounting

/-!
# The lines of the drivers

Both drivers request three GPIO lines when they are loaded, free them and request them anew at
every `RESET`, and free them when they are unloaded. None of them remembers whether its last
configuration succeeded. The bit-banging driver gives back what it was granted when a line is
refused, and the SPI driver keeps it. The delay test takes the lines of the bit-banging driver,
in the same way, from its load to its unload, and has no `RESET`: its life is one without calls.
-/

namespace KernelDrivers.Ws2812
open Lib

/-- What the kernel answers to `gpio_request`. -/
abbrev Answers := Int32 → Int32

/-- `gpio_request` of one line, newest event first. -/
def requestLine (gpioRequest : Answers) (pin : Int32) (log : List (Event Int32)) :
    List (Event Int32) :=
  .request pin (gpioRequest pin = 0) :: log

/-- `gpio_free` -/
def releasePin (pin : Int32) (log : List (Event Int32)) : List (Event Int32) := .release pin :: log

/-! ## The two drivers -/

namespace BitBang

/-- The three configurations of `ws2812_driver_init`, of its `reset_gpios` and of
`delay_test_init`, whose functions return 0 whatever the kernel answers. -/
def configureLines (gpioRequest : Answers) (log : List (Event Int32)) : List (Event Int32) :=
  let log := requestLine gpioRequest BOARD_IO_PIN log
  if gpioRequest BOARD_IO_PIN ≠ 0 then log
  else
    let log := requestLine gpioRequest LEVEL_SHIFTER log
    if gpioRequest LEVEL_SHIFTER ≠ 0 then releasePin BOARD_IO_PIN log
    else
      let log := requestLine gpioRequest PINMUX_1 log
      if gpioRequest PINMUX_1 ≠ 0 then releasePin LEVEL_SHIFTER (releasePin BOARD_IO_PIN log)
      else log

def resetGpios (gpioRequest : Answers) (log : List (Event Int32)) : List (Event Int32) :=
  configureLines gpioRequest
    (releasePin PINMUX_1 (releasePin LEVEL_SHIFTER (releasePin BOARD_IO_PIN log)))

/-- The lines' part of `ws2812_driver_exit` and of `delay_test_exit`. -/
def driverExit (log : List (Event Int32)) : List (Event Int32) :=
  releasePin PINMUX_1 (releasePin LEVEL_SHIFTER (releasePin BOARD_IO_PIN log))

end BitBang

namespace Spi

/-- The results of the three configurations are not looked at. -/
def configureLines (gpioRequest : Answers) (log : List (Event Int32)) : List (Event Int32) :=
  requestLine gpioRequest 72 (requestLine gpioRequest 44 (requestLine gpioRequest 24 log))

def resetGpios (gpioRequest : Answers) (log : List (Event Int32)) : List (Event Int32) :=
  configureLines gpioRequest (releasePin 72 (releasePin 24 (releasePin 44 log)))

/-- The lines' part of `spidriver_exit`. It comes after the dark frame, so a device was probed. -/
def driverExit (log : List (Event Int32)) : List (Event Int32) :=
  releasePin 72 (releasePin 44 (releasePin 24 log))

end Spi

/-! ## The life of a driver -/

/-- What a driver does to its lines. -/
structure LineDriver where
  configureLines : Answers → List (Event Int32) → List (Event Int32)
  resetGpios : Answers → List (Event Int32) → List (Event Int32)
  driverExit : List (Event Int32) → List (Event Int32)

def bitBangLines : LineDriver := ⟨BitBang.configureLines, BitBang.resetGpios, BitBang.driverExit⟩

def spiLines : LineDriver := ⟨Spi.configureLines, Spi.resetGpios, Spi.driverExit⟩

namespace LineDriver

variable (d : LineDriver)

/-- A call of the device file, with what the kernel answers if it requests lines. -/
def wsOp (log : List (Event Int32)) : WsOp × Answers → List (Event Int32)
  | (.ioctl ioctlnum, gpioRequest) => if ioctlnum = RESET then d.resetGpios gpioRequest log else log
  | _ => log

/-- The log after the driver was loaded and its device file called. -/
def afterOps (loaded : Answers) (ops : List (WsOp × Answers)) : List (Event Int32) :=
  ops.foldl d.wsOp (d.configureLines loaded [])

end LineDriver

/-- The answers of the configurations that the calls make. -/
def resets (ops : List (WsOp × Answers)) : List Answers :=
  ops.filterMap fun
    | (.ioctl ioctlnum, gpioRequest) => if ioctlnum = RESET then some gpioRequest else none
    | _ => none

/-- The answers of the last configuration. -/
def lastAnswers (loaded : Answers) (ops : List (WsOp × Answers)) : Answers :=
  (resets ops).getLastD loaded

/-- A driver that takes `lines` and, of these, has `kept` after a configuration with the given
answers. -/
structure LineDriver.Lawful (d : LineDriver) (lines : Finset Int32)
    (kept : Answers → Finset Int32) : Prop where
  configured : ∀ gpioRequest {log}, held log = ∅ →
    held (d.configureLines gpioRequest log) = kept gpioRequest ∧
      (RequestsFree (d.configureLines gpioRequest log) ↔ RequestsFree log) ∧
      (ReleasesHeld (d.configureLines gpioRequest log) ↔ ReleasesHeld log)
  reset : ∀ gpioRequest {log}, held log ⊆ lines →
    held (d.resetGpios gpioRequest log) = kept gpioRequest ∧
      (RequestsFree (d.resetGpios gpioRequest log) ↔ RequestsFree log) ∧
      (ReleasesHeld (d.resetGpios gpioRequest log) ↔ held log = lines ∧ ReleasesHeld log)
  exited : ∀ {log}, held log ⊆ lines →
    held (d.driverExit log) = ∅ ∧ (RequestsFree (d.driverExit log) ↔ RequestsFree log) ∧
      (ReleasesHeld (d.driverExit log) ↔ held log = lines ∧ ReleasesHeld log)
  kept_subset : ∀ gpioRequest, kept gpioRequest ⊆ lines

section Life

variable {d : LineDriver} {lines : Finset Int32} {kept : Answers → Finset Int32}

theorem resets_cons (op : WsOp × Answers) (ops : List (WsOp × Answers)) :
    resets (op :: ops) = resets [op] ++ resets ops := by
  rw [resets, resets, resets, ← List.filterMap_append]
  rfl

/-- A call either configures the lines or leaves the log alone. -/
theorem LineDriver.wsOp_cases (d : LineDriver) (log : List (Event Int32)) (op : WsOp × Answers) :
    (∃ gpioRequest, d.wsOp log op = d.resetGpios gpioRequest log ∧ resets [op] = [gpioRequest]) ∨
      d.wsOp log op = log ∧ resets [op] = [] := by
  obtain ⟨op, gpioRequest⟩ := op
  cases op with
  | ioctl ioctlnum =>
    by_cases hreset : ioctlnum = RESET
    · exact .inl ⟨gpioRequest, by simp [wsOp, hreset], by simp [resets, hreset]⟩
    · exact .inr ⟨by simp [wsOp, hreset], by simp [resets, hreset]⟩
  | openFile | write | release => exact .inr ⟨rfl, rfl⟩

/-- From a log that holds what a configuration with the answers `last` leaves. -/
theorem LineDriver.Lawful.ops (h : d.Lawful lines kept) {log : List (Event Int32)}
    {last : Answers} (hlog : held log = kept last) (ops : List (WsOp × Answers)) :
    held (ops.foldl d.wsOp log) = kept ((resets ops).getLastD last) ∧
      (RequestsFree (d.driverExit (ops.foldl d.wsOp log)) ↔ RequestsFree log) ∧
      (ReleasesHeld (d.driverExit (ops.foldl d.wsOp log)) ↔
        ReleasesHeld log ∧ ∀ gpioRequest ∈ last :: resets ops, kept gpioRequest = lines) := by
  induction ops generalizing log last with
  | nil =>
    obtain ⟨-, hfree, hreleases⟩ := h.exited (hlog ▸ h.kept_subset last)
    refine ⟨hlog, hfree, hreleases.trans ?_⟩
    rw [hlog]
    simp [resets, and_comm]
  | cons op ops ih =>
    rw [List.foldl_cons, resets_cons]
    rcases d.wsOp_cases log op with ⟨gpioRequest, hop, hresets⟩ | ⟨hop, hresets⟩
    · obtain ⟨hheld, hfree, hreleases⟩ := h.reset gpioRequest (hlog ▸ h.kept_subset last)
      obtain ⟨hheld', hfree', hreleases'⟩ := ih hheld
      rw [hop, hresets]
      refine ⟨?_, hfree'.trans hfree, hreleases'.trans ?_⟩
      · rw [hheld', List.singleton_append, List.getLastD_cons]
      · rw [hreleases, hlog, List.singleton_append]
        simp only [List.forall_mem_cons]
        tauto
    · rw [hop, hresets, List.nil_append]
      exact ih hlog

/-- The life of a driver that follows its rules. -/
theorem LineDriver.Lawful.life (h : d.Lawful lines kept) (loaded : Answers)
    (ops : List (WsOp × Answers)) :
    held (d.afterOps loaded ops) = kept (lastAnswers loaded ops) ∧
      held (d.driverExit (d.afterOps loaded ops)) = ∅ ∧
      RequestsFree (d.driverExit (d.afterOps loaded ops)) ∧
      (ReleasesHeld (d.driverExit (d.afterOps loaded ops)) ↔
        ∀ gpioRequest ∈ loaded :: resets ops, kept gpioRequest = lines) := by
  have hempty : held ([] : List (Event Int32)) = ∅ := rfl
  obtain ⟨hloaded, hfree, hreleases⟩ := h.configured loaded hempty
  obtain ⟨hheld, hfree', hreleases'⟩ := h.ops hloaded ops
  refine ⟨hheld, (h.exited ?_).1, hfree'.mpr (hfree.mpr trivial), hreleases'.trans ?_⟩
  · rw [afterOps, hheld]
    exact h.kept_subset _
  · rw [hreleases]
    exact and_iff_right trivial

end Life

/-! ## The lines of each driver -/

def BitBang.lines : Finset Int32 := {BOARD_IO_PIN, LEVEL_SHIFTER, PINMUX_1}

def Spi.lines : Finset Int32 := {24, 44, 72}

/-- All or none. -/
def BitBang.kept (gpioRequest : Answers) : Finset Int32 :=
  if gpioRequest BOARD_IO_PIN = 0 ∧ gpioRequest LEVEL_SHIFTER = 0 ∧ gpioRequest PINMUX_1 = 0
  then BitBang.lines else ∅

/-- Those that were granted. -/
def Spi.kept (gpioRequest : Answers) : Finset Int32 :=
  Spi.lines.filter fun pin => gpioRequest pin = 0

@[grind =] theorem held_requestLine (gpioRequest : Answers) (pin : Int32)
    (log : List (Event Int32)) :
    held (requestLine gpioRequest pin log) =
      if gpioRequest pin = 0 then insert pin (held log) else held log := by
  by_cases h : gpioRequest pin = 0 <;> simp [requestLine, h]

@[grind =] theorem requestsFree_requestLine {gpioRequest : Answers} {pin : Int32}
    {log : List (Event Int32)} :
    RequestsFree (requestLine gpioRequest pin log) ↔ pin ∉ held log ∧ RequestsFree log := Iff.rfl

@[grind =] theorem releasesHeld_requestLine {gpioRequest : Answers} {pin : Int32}
    {log : List (Event Int32)} :
    ReleasesHeld (requestLine gpioRequest pin log) ↔ ReleasesHeld log := Iff.rfl

@[grind =] theorem held_releasePin (pin : Int32) (log : List (Event Int32)) :
    held (releasePin pin log) = (held log).erase pin := rfl

@[grind =] theorem requestsFree_releasePin {pin : Int32} {log : List (Event Int32)} :
    RequestsFree (releasePin pin log) ↔ RequestsFree log := Iff.rfl

@[grind =] theorem releasesHeld_releasePin {pin : Int32} {log : List (Event Int32)} :
    ReleasesHeld (releasePin pin log) ↔ pin ∈ held log ∧ ReleasesHeld log := Iff.rfl

/-- Three lines are freed, in whatever order. -/
theorem free_lines {lines : Finset Int32} {a b c : Int32} (hlines : lines = {a, b, c})
    (hab : a ≠ b) (hac : a ≠ c) (hbc : b ≠ c) {log : List (Event Int32)}
    (h : held log ⊆ lines) :
    held (releasePin c (releasePin b (releasePin a log))) = ∅ ∧
      (RequestsFree (releasePin c (releasePin b (releasePin a log))) ↔ RequestsFree log) ∧
      (ReleasesHeld (releasePin c (releasePin b (releasePin a log))) ↔
        held log = lines ∧ ReleasesHeld log) := by
  subst hlines
  refine ⟨?_, Iff.rfl, ?_⟩
  · refine Finset.eq_empty_of_forall_notMem fun pin hpin => ?_
    simp only [held_releasePin, Finset.mem_erase] at hpin
    have hline := h hpin.2.2.2
    grind
  · rw [releasesHeld_releasePin, releasesHeld_releasePin, releasesHeld_releasePin]
    simp only [held_releasePin]
    grind

/-- Lines that are freed and configured anew. -/
theorem reset_lines {lines : Finset Int32} {kept : Answers → Finset Int32} {a b c : Int32}
    (hlines : lines = {a, b, c}) (hab : a ≠ b) (hac : a ≠ c) (hbc : b ≠ c)
    {configureLines : Answers → List (Event Int32) → List (Event Int32)}
    (hconfigured : ∀ gpioRequest {log}, held log = ∅ →
      held (configureLines gpioRequest log) = kept gpioRequest ∧
        (RequestsFree (configureLines gpioRequest log) ↔ RequestsFree log) ∧
        (ReleasesHeld (configureLines gpioRequest log) ↔ ReleasesHeld log))
    (gpioRequest : Answers) {log : List (Event Int32)} (h : held log ⊆ lines) :
    held (configureLines gpioRequest (releasePin c (releasePin b (releasePin a log)))) =
        kept gpioRequest ∧
      (RequestsFree (configureLines gpioRequest
        (releasePin c (releasePin b (releasePin a log)))) ↔ RequestsFree log) ∧
      (ReleasesHeld (configureLines gpioRequest
        (releasePin c (releasePin b (releasePin a log)))) ↔
          held log = lines ∧ ReleasesHeld log) := by
  obtain ⟨hempty, hfree, hreleases⟩ := free_lines hlines hab hac hbc h
  obtain ⟨hheld, hfree', hreleases'⟩ := hconfigured gpioRequest hempty
  exact ⟨hheld, hfree'.trans hfree, hreleases'.trans hreleases⟩

theorem Spi.configureLines_spec (gpioRequest : Answers) {log : List (Event Int32)}
    (h : held log = ∅) : held (Spi.configureLines gpioRequest log) = Spi.kept gpioRequest ∧
      (RequestsFree (Spi.configureLines gpioRequest log) ↔ RequestsFree log) ∧
      (ReleasesHeld (Spi.configureLines gpioRequest log) ↔ ReleasesHeld log) := by
  refine ⟨?_, ?_, Iff.rfl⟩
  · rw [Spi.configureLines, held_requestLine, held_requestLine, held_requestLine, h]
    unfold Spi.kept Spi.lines
    grind
  · rw [Spi.configureLines]
    grind

theorem BitBang.configureLines_spec (gpioRequest : Answers) {log : List (Event Int32)}
    (h : held log = ∅) :
    held (BitBang.configureLines gpioRequest log) = BitBang.kept gpioRequest ∧
      (RequestsFree (BitBang.configureLines gpioRequest log) ↔ RequestsFree log) ∧
      (ReleasesHeld (BitBang.configureLines gpioRequest log) ↔ ReleasesHeld log) := by
  have hpins : BOARD_IO_PIN ≠ LEVEL_SHIFTER ∧ BOARD_IO_PIN ≠ PINMUX_1 ∧
      LEVEL_SHIFTER ≠ PINMUX_1 := by decide
  obtain ⟨h12, h13, h23⟩ := hpins
  rw [BitBang.kept]
  by_cases hboard : gpioRequest BOARD_IO_PIN = 0
  · by_cases hshifter : gpioRequest LEVEL_SHIFTER = 0
    · by_cases hmux : gpioRequest PINMUX_1 = 0
      · simp only [configureLines, hboard, hshifter, hmux, ne_eq, not_true_eq_false, if_false]
        grind [lines]
      · simp only [configureLines, hboard, hshifter, hmux, ne_eq, not_true_eq_false, if_false]
        grind
    · simp only [configureLines, hboard, hshifter, ne_eq, not_true_eq_false, if_false]
      grind
  · simp only [configureLines, hboard]
    grind

theorem spiLines_lawful : spiLines.Lawful Spi.lines Spi.kept where
  configured := Spi.configureLines_spec
  reset := reset_lines (by decide) (by decide) (by decide) (by decide) Spi.configureLines_spec
  exited := free_lines rfl (by decide) (by decide) (by decide)
  kept_subset _ := Finset.filter_subset _ _

theorem bitBangLines_lawful : bitBangLines.Lawful BitBang.lines BitBang.kept where
  configured := BitBang.configureLines_spec
  reset := reset_lines rfl (by decide) (by decide) (by decide) BitBang.configureLines_spec
  exited := free_lines rfl (by decide) (by decide) (by decide)
  kept_subset gpioRequest := by
    unfold BitBang.kept
    split
    · exact Finset.Subset.rfl
    · exact Finset.empty_subset _

theorem BitBang.kept_eq_lines {gpioRequest : Answers} :
    BitBang.kept gpioRequest = BitBang.lines ↔ ∀ pin ∈ BitBang.lines, gpioRequest pin = 0 := by
  have hall : (∀ pin ∈ BitBang.lines, gpioRequest pin = 0) ↔ gpioRequest BOARD_IO_PIN = 0 ∧
      gpioRequest LEVEL_SHIFTER = 0 ∧ gpioRequest PINMUX_1 = 0 := by
    simp [BitBang.lines]
  rw [hall, kept]
  split
  next hgranted => exact iff_of_true rfl hgranted
  next hrefused => exact iff_of_false (by decide) hrefused

theorem Spi.kept_eq_lines {gpioRequest : Answers} :
    Spi.kept gpioRequest = Spi.lines ↔ ∀ pin ∈ Spi.lines, gpioRequest pin = 0 :=
  Finset.filter_eq_self

/-! ## What the drivers hold -/

/-- Through every life of the bit-banging driver: it holds its three lines when its last
configuration was granted all of them and none otherwise, none after it is unloaded; it never
requests a line it holds, and it frees a line it does not hold exactly when some configuration was
refused one. -/
theorem bitBang_holds_all_or_none (loaded : Answers) (ops : List (WsOp × Answers)) :
    held (bitBangLines.afterOps loaded ops) =
        (if lastAnswers loaded ops BOARD_IO_PIN = 0 ∧ lastAnswers loaded ops LEVEL_SHIFTER = 0 ∧
            lastAnswers loaded ops PINMUX_1 = 0
          then {BOARD_IO_PIN, LEVEL_SHIFTER, PINMUX_1} else ∅) ∧
      held (BitBang.driverExit (bitBangLines.afterOps loaded ops)) = ∅ ∧
      RequestsFree (BitBang.driverExit (bitBangLines.afterOps loaded ops)) ∧
      (ReleasesHeld (BitBang.driverExit (bitBangLines.afterOps loaded ops)) ↔
        ∀ gpioRequest ∈ loaded :: resets ops, ∀ pin ∈ BitBang.lines, gpioRequest pin = 0) := by
  obtain ⟨hheld, hexit, hfree, hreleases⟩ := bitBangLines_lawful.life loaded ops
  refine ⟨hheld, hexit, hfree, hreleases.trans ?_⟩
  exact forall₂_congr fun _ _ => BitBang.kept_eq_lines

/-- The SPI driver holds those of its lines that its last configuration was granted; it never
requests a line it holds, and it frees a line it does not hold exactly when some configuration was
refused one. -/
theorem spi_holds_granted (loaded : Answers) (ops : List (WsOp × Answers)) :
    held (spiLines.afterOps loaded ops) =
        Spi.lines.filter (fun pin => lastAnswers loaded ops pin = 0) ∧
      held (Spi.driverExit (spiLines.afterOps loaded ops)) = ∅ ∧
      RequestsFree (Spi.driverExit (spiLines.afterOps loaded ops)) ∧
      (ReleasesHeld (Spi.driverExit (spiLines.afterOps loaded ops)) ↔
        ∀ gpioRequest ∈ loaded :: resets ops, ∀ pin ∈ Spi.lines, gpioRequest pin = 0) := by
  obtain ⟨hheld, hexit, hfree, hreleases⟩ := spiLines_lawful.life loaded ops
  refine ⟨hheld, hexit, hfree, hreleases.trans ?_⟩
  exact forall₂_congr fun _ _ => Spi.kept_eq_lines

end KernelDrivers.Ws2812
