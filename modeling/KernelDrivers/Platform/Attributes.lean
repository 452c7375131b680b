import KernelDrivers.Hcsr04.SampleBuffer
import KernelDrivers.Lib.Decimal
import KernelDrivers.Platform.PinTable

/-!
# The texts of the attributes

An attribute is read and written as a decimal number. What the four settings of a device show can
be written back, to this device or another one, and sets it up alike. Reading the distance takes a
sample out of the buffer, without the lock.
-/

namespace KernelDrivers.Platform
open Lib Hcsr04

/-! ## Numbers as texts -/

def PAGE_SIZE : Nat := 4096

/-- `snprintf(buf, PAGE_SIZE, "%d\n", x)` -/
def snprintf (x : Int32) : List Char := (printDecimal x.toInt ++ ['\n']).take (PAGE_SIZE - 1)

/-- The number that `sscanf(buf, "%d", ..)` reads, if it reads one. More digits than an `int` has
wrap around. -/
def sscanf (buf : List Char) : Option Int32 := (scanDecimal buf).map Int32.ofInt

/-- No number is cut off. -/
theorem snprintf_eq (x : Int32) : snprintf x = printDecimal x.toInt ++ ['\n'] := by
  have hlow := x.le_toInt
  have hhigh := x.toInt_lt
  have hlength := @length_printDecimal_le x.toInt 10 (by decide) (by omega)
  refine List.take_of_length_le ?_
  rw [List.length_append, PAGE_SIZE]
  have hone : ['\n'].length = 1 := rfl
  omega

@[simp] theorem sscanf_snprintf (x : Int32) : sscanf (snprintf x) = some x := by
  have hends : Ends ['\n'] := by
    rintro c ⟨⟩
    rfl
  rw [snprintf_eq, sscanf, scanDecimal_print x.toInt hends, Option.map_some, Int32.ofInt_toInt]

/-! ## Settings -/

def triggerPinShow (device : Hcsr04Device) : List Char := snprintf device.triggerPin

def echoPinShow (device : Hcsr04Device) : List Char := snprintf device.echoPin

def noOfSamplesShow (device : Hcsr04Device) : List Char := snprintf device.m

def deltaShow (device : Hcsr04Device) : List Char := snprintf device.delta

/-- The texts of a device's settings. -/
structure Settings where
  triggerPin : List Char
  echoPin : List Char
  noOfSamples : List Char
  delta : List Char

def showSettings (device : Hcsr04Device) : Settings :=
  ⟨triggerPinShow device, echoPinShow device, noOfSamplesShow device, deltaShow device⟩

/-- The settings are written one after the other. -/
def storeSettings (env : KernelEnv) (settings : Settings) (device : Hcsr04Device)
    (calls : List KernelCall) : Option (List KernelCall × Hcsr04Device) :=
  (triggerPinStore env (sscanf settings.triggerPin) device calls).bind fun (calls, device) =>
  (echoPinStore env (sscanf settings.echoPin) device calls).map fun (calls, device) =>
    (calls, deltaStore (sscanf settings.delta)
      (noOfSamplesStore (sscanf settings.noOfSamples) device))

/-- The settings that one device shows set up another one alike, whatever it was set to, and
request the lines of the two pins. This is defined for pins of the table, and then the other
device shows the same. -/
theorem restore_settings (env : KernelEnv) (device other : Hcsr04Device)
    (calls : List KernelCall) :
    storeSettings env (showSettings device) other calls =
        ((configureColumn env 1 device.triggerPin calls).bind
          (configureColumn env 0 device.echoPin)).map (·, { other with
            triggerPin := device.triggerPin, echoPin := device.echoPin
            m := device.m, delta := device.delta }) ∧
      ((storeSettings env (showSettings device) other calls).isSome ↔
        InTable device.triggerPin ∧ InTable device.echoPin) ∧
      ∀ calls' other', storeSettings env (showSettings device) other calls =
        some (calls', other') → showSettings other' = showSettings device := by
  have hstore : storeSettings env (showSettings device) other calls =
      ((configureColumn env 1 device.triggerPin calls).bind
        (configureColumn env 0 device.echoPin)).map (·, { other with
          triggerPin := device.triggerPin, echoPin := device.echoPin
          m := device.m, delta := device.delta }) := by
    simp only [storeSettings, showSettings, triggerPinShow, echoPinShow, noOfSamplesShow,
      deltaShow, sscanf_snprintf, triggerPinStore, echoPinStore, noOfSamplesStore, deltaStore,
      scanInto, Option.getD_some]
    cases configureColumn env 1 device.triggerPin calls with
    | none => rfl
    | some calls₁ =>
      simp only [Option.map_some, Option.bind_some, Option.map_map]
      rfl
  refine ⟨hstore, ?_, fun calls' other' h => ?_⟩
  · rw [hstore, Option.isSome_map]
    have htrigger := @configureColumn_isSome env 1 device.triggerPin calls
    cases hcolumn : configureColumn env 1 device.triggerPin calls with
    | none =>
      rw [hcolumn] at htrigger
      exact iff_of_false Bool.false_ne_true fun h =>
        Bool.false_ne_true (htrigger.mpr h.1)
    | some calls₁ =>
      rw [hcolumn] at htrigger
      rw [Option.bind_some, configureColumn_isSome]
      exact (and_iff_right (htrigger.mp rfl)).symm
  · rw [hstore] at h
    obtain ⟨calls₁, -, heq⟩ := Option.map_eq_some_iff.mp h
    obtain ⟨-, rfl⟩ := Prod.mk.inj heq
    rfl

/-! ## The distance -/

/-- `distance_show` takes a sample, and takes no lock. -/
def distanceShow (device : Hcsr04Device) : Option (Hcsr04Device × List Char) :=
  (fifoRead device).map fun (device, buffer) => (device, snprintf buffer.distance)

/-- What is shown of a stack of samples, read after read. -/
theorem show_distances {device : Hcsr04Device} {top : Fin 5} {unread : List FifoBuffer}
    (h : Holds device top unread) (n : Nat) :
    ∃ device' texts, run (fun d (_ : Unit) => distanceShow d) device (.replicate n ()) =
        some (device', texts) ∧
      texts = ((unread.map FifoBuffer.distance ++ .replicate n BUFFER_EMPTY).take n).map
        snprintf := by
  induction n generalizing device top unread with
  | zero => exact ⟨device, [], rfl, by simp⟩
  | succ n ih =>
    cases unread with
    | nil =>
      obtain ⟨device', texts, hrun, rfl⟩ := ih h
      refine ⟨device', _, run_cons_eq_some.mpr ⟨device, snprintf BUFFER_EMPTY, _, ?_, hrun, rfl⟩,
        ?_⟩
      · rw [distanceShow, h.read_empty]
        rfl
      · simp [List.replicate_succ]
    | cons newest older =>
      obtain ⟨device₁, hread, h₁⟩ := h.read_newest
      obtain ⟨device', texts, hrun, rfl⟩ := ih h₁
      refine ⟨device', _,
        run_cons_eq_some.mpr ⟨device₁, snprintf newest.distance, _, ?_, hrun, rfl⟩, ?_⟩
      · rw [distanceShow, hread]
        rfl
      · simp [List.replicate_succ', ← List.append_assoc, List.take_append]

/-- After any measurements and reads of a device, reading the attribute again and again shows the
samples that nobody has read, newest first, and then -1 for ever. -/
theorem shows_unread_distances (device : Hcsr04Device) {ops : List FifoOp} (hops : Storable ops)
    (n : Nat) :
    ∃ d replies unread d' texts, run fifoOp (initializeDevice device) ops = some (d, replies) ∧
      run (fun u op => some (unreadOp u op)) [] ops = some (unread, replies) ∧
      run (fun d (_ : Unit) => distanceShow d) d (.replicate n ()) = some (d', texts) ∧
      texts.map sscanf =
        (unread.map (fun sample => some sample.distance) ++ .replicate n (some (-1))).take n := by
  obtain ⟨d, top, replies, unread, hrun, hstack, hd⟩ := (holds_initializeDevice device).run hops
  obtain ⟨d', texts, hshow, rfl⟩ := show_distances hd n
  refine ⟨d, replies, unread, d', _, hrun, hstack, hshow, ?_⟩
  rw [List.map_map]
  have hscan : sscanf ∘ snprintf = some := funext sscanf_snprintf
  rw [hscan, List.map_take, List.map_append, List.map_map, List.map_replicate]
  rfl

theorem shows_unread_distances_two :
    ∃ d replies unread d' texts, run fifoOp (initializeDevice blankDevice)
        [.write ⟨7, 1⟩, .write ⟨9, 2⟩] = some (d, replies) ∧
      run (fun u op => some (unreadOp u op)) [] [.write ⟨7, 1⟩, .write ⟨9, 2⟩] =
        some (unread, replies) ∧
      run (fun d (_ : Unit) => distanceShow d) d (.replicate 3 ()) = some (d', texts) ∧
      texts.map sscanf =
        (unread.map (fun sample => some sample.distance) ++ .replicate 3 (some (-1))).take 3 :=
  shows_unread_distances blankDevice (by simp [Storable, NO_TSC]) 3

end KernelDrivers.Platform
