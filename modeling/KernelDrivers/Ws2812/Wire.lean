import KernelDrivers.Lib.Words
import KernelDrivers.Ws2812.Spi

/-!
# The symbols on the wire

The device module sets words of 16 bits and the driver hands over a buffer of bytes. The SPI core
takes the buffer as words of the machine, which is little-endian, and shifts out each word with
its most significant bit first. So the two symbols of a word change places, and a frame reaches
the strip in order exactly when they are equal in every word.
-/

namespace KernelDrivers.Ws2812
open Lib

/-! ## The device module -/

def MY_BUS_NUM : Int16 := 1
def SPI_MODE_0 : UInt8 := 0
def ENODEV : Int32 := 19

/-- `struct spi_board_info` -/
structure SpiBoardInfo where
  modalias : String
  maxSpeedHz : UInt32
  busNum : Int16
  chipSelect : UInt16
  mode : UInt8
  deriving DecidableEq

def spiDeviceInfo : SpiBoardInfo := ⟨"WS2812", 6666666, MY_BUS_NUM, 1, SPI_MODE_0⟩

/-- `struct spi_device` -/
structure SpiDevice where
  info : SpiBoardInfo
  bitsPerWord : UInt8
  deriving DecidableEq

/-- The device that stays registered and the value returned. The parameters are the answers of
`spi_busnum_to_master`, of `spi_new_device` and of `spi_setup`. -/
def spiInit (busnumToMaster : Int16 → Bool) (newDevice : SpiBoardInfo → Bool)
    (spiSetup : SpiDevice → Int32) : Option SpiDevice × Int32 :=
  if !busnumToMaster spiDeviceInfo.busNum then (none, -ENODEV)
  else if !newDevice spiDeviceInfo then (none, -ENODEV)
  else
    let spi : SpiDevice := ⟨spiDeviceInfo, 16⟩
    if spiSetup spi ≠ 0 then (none, -ENODEV) else (some spi, 0)

/-- What the SPI core does with a buffer, in words of whole bytes. -/
def SpiDevice.mosi (spi : SpiDevice) (buffer : List UInt8) : List Bool :=
  onLine (spi.bitsPerWord.toNat / 8) buffer

theorem bitsPerWord_of_spiInit {busnumToMaster : Int16 → Bool} {newDevice : SpiBoardInfo → Bool}
    {spiSetup : SpiDevice → Int32} {device : SpiDevice}
    (h : spiInit busnumToMaster newDevice spiSetup = (some device, 0)) :
    device.bitsPerWord = 16 := by
  unfold spiInit at h
  split at h
  · cases h
  · split at h
    · cases h
    · dsimp only at h
      split at h
      · cases h
      · obtain ⟨rfl, -⟩ := by simpa using h
        rfl

/-! ## Frames in order -/

/-- The bytes of a frame are on the wire one after the other: row by row, and in each row by
index. -/
def SpiDevice.InOrder (device : SpiDevice) (frame : List UInt8) : Prop :=
  device.mosi frame = frame.flatMap byteBits

/-- Every frame of the answers is on the wire in order. -/
def SpiDevice.AllInOrder (device : SpiDevice) (outs : List (List (List UInt8) × Int32)) : Prop :=
  ∀ out ∈ outs, ∀ frame ∈ out.1, device.InOrder frame

/-- The bits sent in one word are equal. -/
def SamePairs (intensity : Int32) : Prop :=
  ∀ j < 4, intensity.toBitVec.toNat.testBit (2 * j) = intensity.toBitVec.toNat.testBit (2 * j + 1)

instance (intensity : Int32) : Decidable (SamePairs intensity) :=
  inferInstanceAs (Decidable (∀ j < 4, _))

structure LedData.Paired (info : LedData) : Prop where
  green : SamePairs info.greenIntensity
  red : SamePairs info.redIntensity
  blue : SamePairs info.blueIntensity

/-! ## Rows of pairs -/

def PairedRow (row : Fin 24 → Bool) : Prop :=
  ∀ j : Fin 12, row ⟨2 * j, by omega⟩ = row ⟨2 * j + 1, by omega⟩

def Picture.Paired (p : Picture) : Prop := ∀ i, PairedRow (p i)

/-- Two neighbours at `first + 2 * j` are the pair number `first / 2 + j`. -/
theorem PairedRow.eq_next {row : Fin 24 → Bool} (h : PairedRow row) {first j : Nat}
    (heven : first % 2 = 0) (hj : first + 2 * j + 1 < 24) :
    row ⟨first + 2 * j, by omega⟩ = row ⟨first + (2 * j + 1), by omega⟩ := by
  have hpair := h ⟨first / 2 + j, by omega⟩
  have hindex : 2 * (first / 2 + j) = first + 2 * j := by omega
  simpa only [hindex, Nat.add_assoc] using hpair

theorem pairedRow_bits_iff (info : LedData) : PairedRow info.bits ↔ info.Paired := by
  constructor
  · intro h
    refine ⟨fun j hj => ?_, fun j hj => ?_, fun j hj => ?_⟩
    · rw [← info.bits_green (by omega), ← info.bits_green (by omega)]
      exact h ⟨j, by omega⟩
    · rw [← info.bits_red (by omega), ← info.bits_red (by omega)]
      exact h.eq_next rfl (by omega)
    · rw [← info.bits_blue (by omega), ← info.bits_blue (by omega)]
      exact h.eq_next rfl (by omega)
  · rintro h ⟨j, hj⟩
    by_cases hgreen : j < 4
    · have hpair := h.green j hgreen
      rwa [← info.bits_green (by omega), ← info.bits_green (by omega)] at hpair
    · by_cases hred : j < 8
      · obtain ⟨k, rfl⟩ : ∃ k, j = 4 + k := Nat.exists_eq_add_of_le (by omega)
        have hpair := h.red k (by omega)
        rw [← info.bits_red (by omega), ← info.bits_red (by omega)] at hpair
        simpa only [Nat.mul_add, Nat.add_assoc] using hpair
      · obtain ⟨k, rfl⟩ : ∃ k, j = 8 + k := Nat.exists_eq_add_of_le (by omega)
        have hpair := h.blue k (by omega)
        rw [← info.bits_blue (by omega), ← info.bits_blue (by omega)] at hpair
        simpa only [Nat.mul_add, Nat.add_assoc] using hpair

/-- A frame sent with words of 16 bits. -/
theorem inOrder_rows_iff {device : SpiDevice} (hword : device.bitsPerWord = 16) (p : Picture) :
    device.InOrder (rowMajor (p.rows spi)) ↔ p.Paired := by
  have hbytes : device.bitsPerWord.toNat / 8 = 2 := by
    rw [hword]
    rfl
  have hlength : (rowMajor (p.rows spi)).length = 2 * 192 := rowMajor_length _
  have hbyte : ∀ b c : Bool, (if b then spi.setBit1 else spi.setBit0) =
      (if c then spi.setBit1 else spi.setBit0) ↔ b = c := by decide
  have hpair : ∀ (i : Fin 16) (j : Fin 12), (rowMajor (p.rows spi))[2 * (12 * i.val + j.val)]? =
      (rowMajor (p.rows spi))[2 * (12 * i.val + j.val) + 1]? ↔
        p i ⟨2 * j, by omega⟩ = p i ⟨2 * j + 1, by omega⟩ := by
    intro i j
    have hfirst := rowMajor_getElem? (p.rows spi) i ⟨2 * j, by omega⟩
    have hsecond := rowMajor_getElem? (p.rows spi) i ⟨2 * j + 1, by omega⟩
    rw [show 2 * (12 * i.val + j.val) = 24 * i.val + 2 * j.val by omega, hfirst, Nat.add_assoc,
      hsecond, Option.some_inj]
    exact hbyte _ _
  rw [SpiDevice.InOrder, SpiDevice.mosi, hbytes, onLine_eq_iff (by omega) hlength,
    forall_wordsOf_two_iff hlength]
  constructor
  · exact fun h i j => (hpair i j).mp (h _ (by omega))
  · intro h m hm
    have hm' := (hpair ⟨m / 12, by omega⟩ ⟨m % 12, by omega⟩).mpr (h _ _)
    rwa [show 12 * (m / 12) + m % 12 = m from Nat.div_add_mod m 12] at hm'

/-! ## Runs after a reset -/

/-- One call on a paired picture. -/
theorem answer_inOrder_iff {device : SpiDevice} (hword : device.bitsPerWord = 16) {p : Picture}
    (hp : p.Paired) (op : WsOp) :
    (∀ frame ∈ ((p.after op).answer spi op).1, device.InOrder frame) ↔ (p.after op).Paired := by
  have hframe := inOrder_rows_iff hword (p.after op)
  cases op with
  | openFile => exact iff_of_true (by simp [Picture.answer]) hp
  | write info => simpa [Picture.answer, spi, spiWriteAsyncMessage] using hframe
  | ioctl ioctlnum =>
    by_cases hreset : ioctlnum = RESET
    · simpa [Picture.answer, hreset, spi, spiWrite] using hframe
    · exact iff_of_true (by simp [Picture.answer, hreset]) (by simpa [Picture.after, hreset])
  | release => simpa [Picture.answer, spi, spiWrite] using hframe

theorem paired_dark : dark.Paired := fun _ _ => rfl

/-- What a call leaves of a paired picture. -/
theorem paired_after_iff {p : Picture} (hp : p.Paired) {op : WsOp} (hon : OnStrip [op]) :
    (p.after op).Paired ↔ ∀ info, op = .write info → info.Paired := by
  cases op with
  | openFile => exact iff_of_true hp (by simp)
  | write info =>
    have hinfo := hon info List.mem_cons_self
    have hwritten : (p.after (.write info)).Paired ↔ info.Paired := by
      rw [← pairedRow_bits_iff]
      constructor
      · intro h
        obtain ⟨led, hled⟩ : ∃ led : Fin 16, info.ledNumber.toInt = (led : Nat) :=
          CArray.exists_fin hinfo
        simpa [Picture.after, hled] using h led
      · intro h i
        by_cases hi : info.ledNumber.toInt = (i : Nat)
        · simpa [Picture.after, hi] using h
        · simpa [Picture.after, hi] using hp i
    rw [hwritten]
    grind
  | ioctl ioctlnum =>
    refine iff_of_true ?_ (by simp)
    by_cases hreset : ioctlnum = RESET
    · simpa [Picture.after, hreset] using paired_dark
    · simpa [Picture.after, hreset] using hp
  | release => exact iff_of_true paired_dark (by simp)

theorem answers_inOrder_iff {device : SpiDevice} (hword : device.bitsPerWord = 16) {p : Picture}
    (hp : p.Paired) {ops : List WsOp} (hon : OnStrip ops) :
    device.AllInOrder (p.answers spi ops) ↔ ∀ info, .write info ∈ ops → info.Paired := by
  induction ops generalizing p with
  | nil => simp [SpiDevice.AllInOrder, Picture.answers]
  | cons op ops ih =>
    have hfirst : OnStrip [op] := fun info hmem =>
      hon info (List.mem_cons.mpr (.inl (List.mem_singleton.mp hmem)))
    have hrest : OnStrip ops := fun info hmem => hon info (List.mem_cons_of_mem _ hmem)
    have hstep := (answer_inOrder_iff hword hp op).trans (paired_after_iff hp hfirst)
    have hcons : device.AllInOrder (p.answers spi (op :: ops)) ↔
        (∀ info, op = .write info → info.Paired) ∧
          device.AllInOrder ((p.after op).answers spi ops) := by
      rw [← hstep, SpiDevice.AllInOrder, Picture.answers, List.forall_mem_cons]
      rfl
    rw [hcons]
    constructor
    · rintro ⟨hop, hops⟩ info hmem
      rcases List.mem_cons.mp hmem with heq | hmem
      · exact hop info heq.symm
      · exact (ih ((paired_after_iff hp hfirst).mpr hop) hrest).mp hops info hmem
    · intro hall
      have hop : ∀ info, op = .write info → info.Paired := fun info heq =>
        hall info (heq ▸ List.mem_cons_self)
      refine ⟨hop, (ih ((paired_after_iff hp hfirst).mpr hop) hrest).mpr ?_⟩
      exact fun info hmem => hall info (List.mem_cons_of_mem _ hmem)

/-- On the device of the module, the frames sent from a reset on are on the wire in order exactly
when every write among the calls is of paired intensities. -/
theorem allInOrder_iff {busnumToMaster : Int16 → Bool} {newDevice : SpiBoardInfo → Bool}
    {spiSetup : SpiDevice → Int32} {device : SpiDevice}
    (hinit : spiInit busnumToMaster newDevice spiSetup = (some device, 0)) {s t : Pixels}
    {ops : List WsOp} {outs : List (List (List UInt8) × Int32)}
    (hrun : run Spi.wsOp s (.ioctl RESET :: ops) = some (t, outs)) :
    device.AllInOrder outs ↔ ∀ info, .write info ∈ ops → info.Paired := by
  have hon : OnStrip (.ioctl RESET :: ops) := onStrip_of_run spi hrun
  obtain ⟨t', hrun'⟩ := run_reset_eq spi s fun info hmem => hon info (List.mem_cons_of_mem _ hmem)
  obtain ⟨-, rfl⟩ : t = t' ∧ outs = dark.answers spi (.ioctl RESET :: ops) := by
    simpa [hrun] using hrun'
  rw [answers_inOrder_iff (bitsPerWord_of_spiInit hinit) paired_dark hon]
  simp

/-- The LED 3 in red and some blue. -/
theorem allInOrder_iff_paired_write :
    ∃ t outs, run Spi.wsOp initialPixels [.ioctl RESET, .write ⟨3, 255, 0, 0x33⟩] =
      some (t, outs) ∧ (SpiDevice.mk spiDeviceInfo 16).AllInOrder outs := by
  have hwrite : ∀ info, .write info ∈ [WsOp.write ⟨3, 255, 0, 0x33⟩] →
      info = ⟨3, 255, 0, 0x33⟩ := by simp
  have hon : OnStrip [.write ⟨3, 255, 0, 0x33⟩] := by
    intro info hmem
    rw [hwrite info hmem]
    decide
  have hinit : spiInit (fun _ => true) (fun _ => true) (fun _ => 0) =
      (some ⟨spiDeviceInfo, 16⟩, 0) := rfl
  obtain ⟨t, hrun⟩ := run_reset_eq spi initialPixels hon
  refine ⟨t, _, hrun, (allInOrder_iff hinit hrun).mpr fun info hmem => ?_⟩
  rw [hwrite info hmem]
  exact ⟨by decide, by decide, by decide⟩

/-- The LED 0 in the darkest green: the symbols of bits 0 and 1 change places. -/
theorem not_allInOrder :
    ¬ ∀ device s t ops outs,
      spiInit (fun _ => true) (fun _ => true) (fun _ => 0) = (some device, 0) →
      run Spi.wsOp s (.ioctl RESET :: ops) = some (t, outs) → device.AllInOrder outs := by
  intro h
  have hwrite : ∀ info, .write info ∈ [WsOp.ioctl RESET, .write ⟨0, 0, 1, 0⟩] →
      info = ⟨0, 0, 1, 0⟩ := by simp
  have hon : OnStrip [.ioctl RESET, .write ⟨0, 0, 1, 0⟩] := by
    intro info hmem
    rw [hwrite info hmem]
    decide
  obtain ⟨t, hrun⟩ := run_reset_eq spi initialPixels fun info hmem =>
    hon info (List.mem_cons_of_mem (.ioctl RESET) hmem)
  have hsent := h ⟨spiDeviceInfo, 16⟩ initialPixels t _ _ rfl hrun
  have hpaired := (answers_inOrder_iff rfl paired_dark hon).mp hsent ⟨0, 0, 1, 0⟩ (by simp)
  exact absurd hpaired.green (by decide)

end KernelDrivers.Ws2812
