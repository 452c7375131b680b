import KernelDrivers.Platform.PinTable
import KernelDrivers.Platform.Removal

/-!
# Lines requested through the table

A write to `trigger_pin` or `echo_pin` requests the lines of a column and records them nowhere.
The exit of a device frees the lines of the configured records, and no others. So the lines that
are written are given back exactly when they are lines of configured records as well.
-/

namespace KernelDrivers.Platform
open Lib Hcsr04

/-! ## Writes of pin numbers -/

inductive PinField where
  | triggerPin
  | echoPin
  deriving DecidableEq

/-- A write of the number of a column. -/
structure PinWrite where
  devAdd : UInt32
  field : PinField
  env : KernelEnv
  pin : Int32
  count : Int32
  inTable : InTable pin

def PinWrite.op (w : PinWrite) : DriverOp :=
  .device (.devAdd w.devAdd) (match w.field with
    | .triggerPin => .storeTriggerPin w.env (some w.pin) w.count
    | .echoPin => .storeEchoPin w.env (some w.pin) w.count)

/-- The lines of a column. -/
def columnLines (pin : Int32) : List Int32 :=
  (List.finRange 4).filterMap fun i =>
    ((gpioCtrl i).load pin.toInt).filter fun line => line ≠ -1

/-- No later write goes to the same field of the device. -/
def LastWrite (writes : List PinWrite) (w : PinWrite) : Prop :=
  ∃ before after, writes = before ++ w :: after ∧
    ∀ w' ∈ after, ¬ (w'.devAdd = w.devAdd ∧ w'.field = w.field)

/-- After the writes the lines of the pins written last are held, and after the removes no line
of a pin that was written is. -/
structure LinesGivenBack (writes : List PinWrite) (written removed : Driver) : Prop where
  held : ∀ w, LastWrite writes w → ∀ line ∈ columnLines w.pin, line ∈ heldLines written.calls
  freed : ∀ w ∈ writes, ∀ line ∈ columnLines w.pin, line ∉ heldLines removed.calls

/-- The kernel grants the line to the write. -/
def PinWrite.Grants (w : PinWrite) (line : Int32) : Prop :=
  line ∈ columnLines w.pin ∧ w.env.grants line = true

/-- The line was held before, or one of the writes is granted it. -/
def Obtained (s : Driver) (writes : List PinWrite) (line : Int32) : Prop :=
  line ∈ heldLines s.calls ∨ ∃ w ∈ writes, w.Grants line

/-- The lines of the pins written last are obtained, and the lines that are obtained are those of
configured records. -/
structure OfRecords (s : Driver) (writes : List PinWrite) : Prop where
  last : ∀ w, LastWrite writes w → ∀ line ∈ columnLines w.pin, Obtained s writes line
  recorded : ∀ w ∈ writes, ∀ line ∈ columnLines w.pin, Obtained s writes line →
    line ∈ configuredLines s.pins

/-! ## The writes -/

theorem mem_columnLines {pin line : Int32} : line ∈ columnLines pin ↔
    line ≠ -1 ∧ ∃ i : Fin 4, (gpioCtrl i).load pin.toInt = some line := by
  simp [columnLines, Option.filter_eq_some_iff, and_comm]

theorem heldLines_pinConfig2 (env : KernelEnv) (pin ioFlag : Int32) (val : Bool)
    (calls : List KernelCall) : heldLines (pinConfig2 env pin ioFlag val 1 calls).1 =
      if env.grants pin then insert pin (heldLines calls) else heldLines calls := by
  by_cases hret : env.gpioRequest pin = 0
  · unfold pinConfig2
    dsimp only
    split_ifs <;>
      simp_all [heldLines, gpioEvents_cons, gpioEvent, KernelEnv.grants]
  · simp [pinConfig2, hret, heldLines, gpioEvents_cons, gpioEvent, KernelEnv.grants]

/-- The loop obtains the lines of the column that the kernel grants. -/
theorem configureColumn_held (env : KernelEnv) (ioFlag : Int32) {pin : Int32} (hin : InTable pin)
    (calls : List KernelCall) : ∃ calls', configureColumn env ioFlag pin calls = some calls' ∧
      ∀ line, line ∈ heldLines calls' ↔
        line ∈ heldLines calls ∨ line ∈ columnLines pin ∧ env.grants line = true := by
  -- after `i` rows, the lines of those rows
  let I : Nat → List KernelCall → Prop := fun i calls' => ∀ line, line ∈ heldLines calls' ↔
    line ∈ heldLines calls ∨
      (line ≠ -1 ∧ ∃ r : Fin 4, r.val < i ∧ (gpioCtrl r).load pin.toInt = some line) ∧
        env.grants line = true
  have hrow : ∀ i calls', 0 ≤ i → i < 0 + 4 → I i calls' → ∃ calls'',
      (((gpioCtrl.load i).bind (CArray.load · pin.toInt)).map fun pinNo =>
        if pinNo ≠ -1 then
          (pinConfig2 env pinNo (if pinNo ≥ 64 then 4 else ioFlag) false 1 calls').1
        else calls') = some calls'' ∧ I (i + 1) calls'' := by
    intro i calls' _ hi hI
    let r : Fin 4 := ⟨i, hi⟩
    have hload : gpioCtrl.load i = some (gpioCtrl r) := CArray.load_fin gpioCtrl r
    have hpin : (gpioCtrl r).load pin.toInt =
        some (gpioCtrl r ⟨pin.toInt.toNat, by have := hin.2; omega⟩) := dif_pos hin
    refine ⟨_, by rw [hload, Option.bind_some, hpin, Option.map_some], fun line => ?_⟩
    generalize gpioCtrl r ⟨pin.toInt.toNat, _⟩ = pinNo at hpin ⊢
    have hrows : (∃ r' : Fin 4, r'.val < i + 1 ∧ (gpioCtrl r').load pin.toInt = some line) ↔
        (∃ r' : Fin 4, r'.val < i ∧ (gpioCtrl r').load pin.toInt = some line) ∨ pinNo = line := by
      constructor
      · rintro ⟨r', hr', hline⟩
        rcases Nat.lt_succ_iff_lt_or_eq.mp hr' with hlt | heq
        · exact .inl ⟨r', hlt, hline⟩
        · obtain rfl : r' = r := Fin.ext heq
          exact .inr (Option.some.inj (hpin.symm.trans hline))
      · rintro (⟨r', hr', hline⟩ | rfl)
        · exact ⟨r', Nat.lt_succ_of_lt hr', hline⟩
        · exact ⟨r, Nat.lt_succ_self i, hpin⟩
    rw [hrows]
    split
    next hsome =>
      rw [heldLines_pinConfig2]
      have hI' := hI line
      split <;> grind
    next hnone =>
      have hI' := hI line
      grind
  have hstart : I 0 calls := by simp [I]
  obtain ⟨calls', hcalls, hheld⟩ := forRange_invariant I hrow hstart
  refine ⟨calls', hcalls, fun line => (hheld line).trans ?_⟩
  rw [mem_columnLines]
  simp

/-- A write obtains lines, and touches neither the records nor the list of devices. -/
theorem PinWrite.op_spec {s s' : Driver} {w : PinWrite} {ret : Int32}
    (h : driverOp s w.op = some (s', ret)) :
    s'.pins = s.pins ∧ s'.devices ≠ [] ∧
      ∀ line, line ∈ heldLines s'.calls ↔ line ∈ heldLines s.calls ∨ w.Grants line := by
  obtain ⟨devAdd, field, env, pin, count, hin⟩ := w
  obtain ⟨ioFlag, hioFlag⟩ : ∃ ioFlag : Int32,
      ioFlag = match field with | .triggerPin => 1 | .echoPin => 0 := ⟨_, rfl⟩
  obtain ⟨calls₁, hcolumn, hheld⟩ := configureColumn_held env ioFlag hin s.calls
  obtain ⟨d, calls, device, pins, hfind, heffect, rfl⟩ := Driver.atDevice_eq_some h
  have hsame : calls₁ = calls ∧ s.pins = pins := by
    cases field
    all_goals
      obtain rfl := hioFlag
      simp only [DeviceCall.effect, triggerPinStore, echoPinStore, scanInto, Option.getD_some,
        hcolumn, Option.map_some, Option.some_inj, Prod.mk.injEq] at heffect
      exact ⟨heffect.1, heffect.2.2.1⟩
  obtain ⟨rfl, rfl⟩ := hsame
  refine ⟨rfl, ?_, hheld⟩
  have hmem := List.mem_of_find?_eq_some hfind
  exact List.ne_nil_of_length_pos (by simpa using List.length_pos_of_mem hmem)

theorem obtained_cons {s : Driver} {w : PinWrite} {writes : List PinWrite} {line : Int32} :
    Obtained s (w :: writes) line ↔ (line ∈ heldLines s.calls ∨ w.Grants line) ∨
      ∃ w' ∈ writes, w'.Grants line := by
  rw [Obtained, List.exists_mem_cons_iff, or_assoc]

theorem run_writes {s s' : Driver} {writes : List PinWrite} {rets : List Int32}
    (h : run driverOp s (writes.map PinWrite.op) = some (s', rets)) :
    s'.pins = s.pins ∧ (writes ≠ [] → s'.devices ≠ []) ∧
      ∀ line, line ∈ heldLines s'.calls ↔ Obtained s writes line := by
  induction writes generalizing s rets with
  | nil =>
    obtain ⟨rfl, -⟩ := Prod.mk.inj (Option.some.inj h)
    exact ⟨rfl, fun hne => absurd rfl hne, by simp [Obtained]⟩
  | cons w writes ih =>
    obtain ⟨s₁, ret, rets', hop, hrest, rfl⟩ := run_cons_eq_some.mp h
    obtain ⟨hpins, hdevices, hheld⟩ := w.op_spec hop
    obtain ⟨hpins', hdevices', hheld'⟩ := ih hrest
    refine ⟨hpins'.trans hpins, fun _ => ?_, fun line => ?_⟩
    · by_cases hwrites : writes = []
      · subst hwrites
        obtain ⟨rfl, -⟩ := Prod.mk.inj (Option.some.inj hrest)
        exact hdevices
      · exact hdevices' hwrites
    · rw [hheld', Obtained, hheld, obtained_cons]

/-! ## The removes -/

/-- The exit frees the lines of the configured records. -/
theorem releaseAllGpioPins_held (pins : List Gen2PinConfig) (freed : List Int32)
    (calls : List KernelCall) :
    heldLines (releaseAllGpioPins pins freed calls).1 = heldLines calls \ configuredLines pins ∧
      ∀ pin ∈ (releaseAllGpioPins pins freed calls).2.1, pin.isPinConfigured = 0 := by
  induction pins generalizing freed calls with
  | nil => simp [releaseAllGpioPins, configuredLines]
  | cons pin rest ih =>
    by_cases hpin : pin.isPinConfigured ≠ 0
    · obtain ⟨hheld, hrest⟩ := ih (pin.galileoPin :: freed) (releaseGpioPin pin calls).1
      simp only [releaseAllGpioPins, if_pos hpin]
      refine ⟨hheld.trans ?_, List.forall_mem_cons.mpr ⟨rfl, hrest⟩⟩
      rw [heldLines, releaseGpioPin_events, held_releaseAll, configuredLines_cons, if_pos hpin]
      exact sdiff_sdiff_left
    · obtain ⟨hheld, hrest⟩ := ih freed calls
      simp only [releaseAllGpioPins, if_neg hpin]
      refine ⟨hheld.trans ?_, List.forall_mem_cons.mpr ⟨not_not.mp hpin, hrest⟩⟩
      rw [configuredLines_cons, if_neg hpin, Finset.empty_union]

theorem pdriverRemove_held (name : Nat) (s : Driver) :
    heldLines (pdriverRemove name s).1.calls = heldLines s.calls \ configuredLines s.pins ∧
      configuredLines (pdriverRemove name s).1.pins = ∅ := by
  obtain ⟨hcalls, hpins, -⟩ := pdriverRemove_pins name s
  obtain ⟨hheld, hnone⟩ := releaseAllGpioPins_held s.pins s.freed s.calls
  rw [hcalls, hpins]
  refine ⟨hheld, ?_⟩
  rw [configuredLines, List.filter_eq_nil_iff.mpr fun pin hmem => by simp [hnone pin hmem]]
  rfl

/-- The first of the removes frees them, and the others free nothing. -/
theorem run_removes {s s' : Driver} {names : List Nat} {rets : List Int32}
    (h : run driverOp s (names.map .remove) = some (s', rets)) (line : Int32) :
    line ∈ heldLines s'.calls ↔
      line ∈ heldLines s.calls ∧ (names ≠ [] → line ∉ configuredLines s.pins) := by
  induction names generalizing s rets with
  | nil =>
    obtain ⟨rfl, -⟩ := Prod.mk.inj (Option.some.inj h)
    simp
  | cons name names ih =>
    obtain ⟨s₁, ret, rets', hop, hrest, rfl⟩ := run_cons_eq_some.mp h
    obtain rfl : (pdriverRemove name s).1 = s₁ := congrArg Prod.fst (Option.some.inj hop)
    obtain ⟨hheld, hnone⟩ := pdriverRemove_held name s
    rw [ih hrest, hheld, hnone]
    simp

/-! ## The condition -/

/-- Every pin of the table has a linux line. -/
theorem exists_mem_columnLines {pin : Int32} (h : InTable pin) :
    ∃ line, line ∈ columnLines pin := by
  have hlinux : ∀ c : Fin 14, gpioCtrl 3 c ≠ -1 := by decide
  have hlt : pin.toInt.toNat < 14 := by
    have := h.2
    omega
  exact ⟨_, mem_columnLines.mpr ⟨hlinux ⟨pin.toInt.toNat, hlt⟩, 3, dif_pos h⟩⟩

theorem exists_lastWrite {writes : List PinWrite} (h : writes ≠ []) :
    ∃ w, LastWrite writes w ∧ w ∈ writes :=
  ⟨writes.getLast h, ⟨writes.dropLast, [], (List.dropLast_append_getLast h).symm, nofun⟩,
    List.getLast_mem h⟩

/-- Where no record is configured, as for devices that were only probed, the lines of the last
write are those of no record. -/
theorem not_ofRecords_of_unconfigured {s : Driver} (h : ∀ pin ∈ s.pins, pin.isPinConfigured = 0)
    {writes : List PinWrite} (hne : writes ≠ []) : ¬ OfRecords s writes := by
  rintro ⟨hlast, hrecorded⟩
  obtain ⟨w, hw, hmem⟩ := exists_lastWrite hne
  obtain ⟨line, hline⟩ := exists_mem_columnLines w.inTable
  have hconfigured := hrecorded w hmem line hline (hlast w hw line hline)
  simp only [configuredLines, List.mem_toFinset, List.mem_flatMap, List.mem_filter] at hconfigured
  obtain ⟨pin, ⟨hpin, hset⟩, -⟩ := hconfigured
  exact of_decide_eq_true hset (h pin hpin)

/-! ## The main result -/

/-- From every state, writes of pin numbers and then removes of every device give the lines back
exactly when the pins written last obtain their lines, and the lines obtained are those of
records that `CONFIG_PINS` configured. -/
theorem lines_given_back_iff {s written removed : Driver} {writes : List PinWrite}
    {rets : List Int32} (hwrites : run driverOp s (writes.map PinWrite.op) = some (written, rets))
    {names : List Nat} (hnames : ∀ d ∈ written.devices, d.name ∈ names) {rets' : List Int32}
    (hremoves : run driverOp written (names.map .remove) = some (removed, rets')) :
    LinesGivenBack writes written removed ↔ OfRecords s writes := by
  obtain ⟨hpins, hdevices, hheld⟩ := run_writes hwrites
  have hremoved : ∀ w ∈ writes, ∀ line, line ∉ heldLines removed.calls ↔
      (Obtained s writes line → line ∈ configuredLines s.pins) := by
    intro w hmem line
    have hsome : names ≠ [] := by
      rintro rfl
      obtain ⟨d, hd⟩ := List.exists_mem_of_ne_nil _ (hdevices (List.ne_nil_of_mem hmem))
      exact List.not_mem_nil (hnames d hd)
    rw [run_removes hremoves, hheld, hpins]
    simp [hsome]
  constructor
  · rintro ⟨hlast, hfreed⟩
    exact ⟨fun w hw line hline => (hheld line).mp (hlast w hw line hline),
      fun w hw line hline => (hremoved w hw line).mp (hfreed w hw line hline)⟩
  · rintro ⟨hlast, hrecorded⟩
    exact ⟨fun w hw line hline => (hheld line).mpr (hlast w hw line hline),
      fun w hw line hline => (hremoved w hw line).mpr (hrecorded w hw line hline)⟩

/-- A write of pin 4 to the trigger pin of the first device. -/
def writeFour (env : KernelEnv) : PinWrite := ⟨0, .triggerPin, env, 4, 2, by decide⟩

theorem mem_columnLines_four {line : Int32} (h : line ∈ columnLines 4) : line = 36 ∨ line = 6 := by
  have hlines : columnLines 4 = [36, 6] := by decide
  simpa [hlines] using h

/-- A kernel that grants nothing. -/
def grantNone : KernelEnv := ⟨fun _ => EINVAL, fun line => line, fun _ => EINVAL⟩

theorem lastWrite_singleton {v w : PinWrite} (h : LastWrite [v] w) : w = v := by
  obtain ⟨before, after, heq, -⟩ := h
  have hmem : w ∈ [v] := by
    rw [heq]
    exact List.mem_append_right _ List.mem_cons_self
  exact List.mem_singleton.mp hmem

/-- The lines of pin 4 are those of its record, which is configured. -/
theorem lines_given_back_iff_configured : ∃ s written removed rets rets' rets'',
    run driverOp moduleLoad [.probe (probeEnv 5) 1, .device (.minor 5) (.configPins grantAll 4 2)] =
      some (s, rets) ∧
    run driverOp s ([writeFour grantNone].map PinWrite.op) = some (written, rets') ∧
    run driverOp written ([1].map .remove) = some (removed, rets'') ∧
    LinesGivenBack [writeFour grantNone] written removed := by
  obtain ⟨s, written, removed, rets, rets', rets'', hrun, hwrites, hremoves, hnames, hheld,
      hrecorded⟩ : ∃ s written removed rets rets' rets'',
      run driverOp moduleLoad
        [.probe (probeEnv 5) 1, .device (.minor 5) (.configPins grantAll 4 2)] = some (s, rets) ∧
      run driverOp s ([writeFour grantNone].map PinWrite.op) = some (written, rets') ∧
      run driverOp written ([1].map .remove) = some (removed, rets'') ∧
      (∀ d ∈ written.devices, d.name ∈ [1]) ∧
      (36 ∈ heldLines s.calls ∧ 6 ∈ heldLines s.calls) ∧
      36 ∈ configuredLines s.pins ∧ 6 ∈ configuredLines s.pins :=
    ⟨_, _, _, _, _, _, rfl, rfl, rfl, by decide, by decide, by decide⟩
  refine ⟨s, written, removed, rets, rets', rets'', hrun, hwrites, hremoves,
    (lines_given_back_iff hwrites hnames hremoves).mpr ⟨fun w hw line hline => ?_,
      fun w hw line hline _ => ?_⟩⟩
  · obtain rfl := lastWrite_singleton hw
    rcases mem_columnLines_four hline with rfl | rfl
    · exact .inl hheld.1
    · exact .inl hheld.2
  · obtain rfl := List.mem_singleton.mp hw
    rcases mem_columnLines_four hline with rfl | rfl
    · exact hrecorded.1
    · exact hrecorded.2

/-- Line 6, which pin 4 of a device that was probed obtained, stays when the device is removed. -/
theorem not_lines_given_back : ¬ ∀ (before : List DriverOp) (writes : List PinWrite)
    (names : List Nat) (s written removed : Driver) (rets rets' rets'' : List Int32),
    run driverOp moduleLoad before = some (s, rets) →
    run driverOp s (writes.map PinWrite.op) = some (written, rets') →
    (∀ d ∈ written.devices, d.name ∈ names) →
    run driverOp written (names.map .remove) = some (removed, rets'') →
    LinesGivenBack writes written removed := by
  intro hall
  obtain ⟨s, written, removed, rets, rets', rets'', hrun, hwrites, hremoves, hnames, hcolumn,
      hheld⟩ : ∃ s written removed rets rets' rets'',
      run driverOp moduleLoad [.probe (probeEnv 5) 1] = some (s, rets) ∧
      run driverOp s ([writeFour grantAll].map PinWrite.op) = some (written, rets') ∧
      run driverOp written ([1].map .remove) = some (removed, rets'') ∧
      (∀ d ∈ written.devices, d.name ∈ [1]) ∧ 6 ∈ columnLines 4 ∧ 6 ∈ heldLines removed.calls :=
    ⟨_, _, _, _, _, _, rfl, rfl, rfl, by decide, by decide, by decide⟩
  have hback := hall _ _ _ _ _ _ _ _ _ hrun hwrites hnames hremoves
  exact hback.freed _ List.mem_cons_self 6 hcolumn hheld

end KernelDrivers.Platform
