import Mathlib.Data.List.TakeWhile
import Muxponder.KursHelper
import Muxponder.Lib.Crc

/-!
# The Checksum of the KURS Protocol

`calc_crc16` and `get_crc16_ascii` of `kurs_helper.c` are two loops over one table: that of the
sender ends with the string, and that of the loader takes a number of bytes, with a register of 32
bits and a `char` that is signed. Both divide by the polynomial `0xA001`, bit by bit from the lowest
bit of a byte on, so what holds of such divisions holds of them.

## Main results

* `crc16Tab_eq`: the table.
* `crc16_divides`: the loops are the division.
* `calcCrc16_burst`: what the checksum is sure to detect.
-/

namespace Muxponder

open Crc

/-! ### The loops -/

/-- `(crc ^ m) & 0xFF`, with the sign of a `char` extended. -/
def crcIndex (crc : UInt32) (m : UInt8) : Fin 256 :=
  ((crc ^^^ m.toInt8.toInt32.toUInt32) &&& 0xFF).toUInt8.toFin

/-- `calc_crc_value` as the loop of `get_crc16_ascii` calls it: its remainder has 16 bits, and the
variable it is kept in has 32. -/
def asciiStep (crc : UInt32) (m : UInt8) : UInt32 :=
  ((crc.toUInt16 >>> 8) ^^^ crc16Tab.get (crcIndex crc.toUInt16.toUInt32 m)).toUInt32

/-- The loop, from the index `i` on. -/
def asciiLoop (size : ℕ) : ℕ → UInt32 → List UInt8 → UInt32
  | _, crc, [] => crc
  | i, crc, m :: buf =>
    if m ≠ 0 ∧ i < size then asciiLoop size (i + 1) (asciiStep crc m) buf else crc

/-- `get_crc16_ascii`, as its loop computes it. -/
def getCrc16AsciiLoop (buf : List UInt8) (size : UInt16) : UInt16 :=
  (asciiLoop size.toNat 0 0 buf).toUInt16

/-- The body of the loop of `calc_crc16`. -/
def calcStep (crc : UInt32) (m : UInt8) : UInt32 :=
  (crc >>> 8) ^^^ (crc16Tab.get (crcIndex crc m)).toUInt32

/-- The loop. -/
def calcLoop : ℕ → UInt32 → List UInt8 → UInt32
  | 0, crc, _ | _, crc, [] => crc
  | dwSize + 1, crc, m :: buf => calcLoop dwSize (calcStep crc m) buf

/-- `calc_crc16`, as its loop computes it. -/
def calcCrc16Loop (buf : List UInt8) (dwSize : UInt32) : UInt16 :=
  (calcLoop dwSize.toNat 0 buf).toUInt16

/-- The index is the lowest byte of the sum. -/
theorem crcIndex_eq (crc : UInt32) (m : UInt8) : crcIndex crc m = (crc.toUInt8 ^^^ m).toFin := by
  have hlow : (m.toBitVec.signExtend 32).setWidth 8 = m.toBitVec := by
    refine BitVec.eq_of_getLsbD_eq fun i hi => ?_
    have h32 : i < 32 := by omega
    simp [hi, h32, BitVec.getElem_signExtend]
  have hmask : ∀ x : BitVec 8, x &&& 255#8 = x := fun x => BitVec.and_allOnes
  have hbyte : ((crc ^^^ m.toInt8.toInt32.toUInt32) &&& 0xFF).toUInt8 = crc.toUInt8 ^^^ m := by
    apply UInt8.toBitVec_inj.mp
    simp [hlow, hmask]
  rw [crcIndex, hbyte]

/-- The step of `get_crc16_ascii` is `calc_crc_value`. -/
theorem asciiStep_eq (crc : UInt16) (m : UInt8) :
    asciiStep crc.toUInt32 m = (calcCrcValue m crc).toUInt32 := by
  rw [asciiStep, crcIndex_eq, calcCrcValue]
  simp

/-- So is that of `calc_crc16`. -/
theorem calcStep_eq (crc : UInt16) (m : UInt8) :
    calcStep crc.toUInt32 m = (calcCrcValue m crc).toUInt32 := by
  rw [calcStep, crcIndex_eq, calcCrcValue]
  simp

/-- The loop takes the characters in front of the terminator. -/
theorem asciiLoop_eq (size i : ℕ) (crc : UInt16) (buf : List UInt8) :
    asciiLoop size i crc.toUInt32 buf =
      (((buf.take (size - i)).takeWhile (· ≠ 0)).foldl (fun crc m => calcCrcValue m crc)
        crc).toUInt32 := by
  induction buf generalizing i crc with
  | nil => simp [asciiLoop]
  | cons m buf ih =>
      rw [asciiLoop, asciiStep_eq, ih]
      by_cases hi : i < size
      · obtain ⟨k, hk⟩ : ∃ k, size - i = k + 1 := ⟨size - i - 1, by omega⟩
        have hrest : size - (i + 1) = k := by omega
        rw [hk, hrest, List.take_succ_cons]
        by_cases hm : m = 0 <;> simp [hm, hi]
      · have hnone : size - i = 0 := by omega
        simp [hi, hnone]

/-- **The checksum of a string** is that of its loop. -/
theorem getCrc16AsciiLoop_eq (buf : List UInt8) (size : UInt16) :
    getCrc16AsciiLoop buf size = getCrc16Ascii buf size.toNat := by
  have hsize : size.toNat % 2 ^ 16 = size.toNat := Nat.mod_eq_of_lt size.toNat_lt
  have hloop := asciiLoop_eq size.toNat 0 0 buf
  rw [Nat.sub_zero] at hloop
  rw [getCrc16Ascii, hsize]
  exact (congrArg UInt32.toUInt16 hloop).trans (UInt16.toUInt16_toUInt32 _)

/-- The loop takes so many bytes. -/
theorem calcLoop_eq (n : ℕ) (crc : UInt16) (buf : List UInt8) : calcLoop n crc.toUInt32 buf =
    ((buf.take n).foldl (fun crc m => calcCrcValue m crc) crc).toUInt32 := by
  induction buf generalizing n crc with
  | nil => cases n <;> simp [calcLoop]
  | cons m buf ih =>
      cases n with
      | zero => rfl
      | succ n => rw [calcLoop, calcStep_eq, ih, List.take_succ_cons, List.foldl_cons]

/-- **The checksum of bytes** is that of its loop. -/
theorem calcCrc16Loop_eq (buf : List UInt8) (dwSize : UInt32) :
    calcCrc16Loop buf dwSize = calcCrc16 buf dwSize.toNat :=
  (congrArg UInt32.toUInt16 (calcLoop_eq dwSize.toNat 0 buf)).trans (UInt16.toUInt16_toUInt32 _)

/-! ### The division -/

/-- The polynomial, the lowest coefficient first. -/
def CRC16_POLYNOMIAL : BitVec 16 := 0xA001

/-- The remainder of a string of bytes, bit by bit. -/
def plainCrc16 (buf : List UInt8) : UInt16 := ⟨remainder CRC16_POLYNOMIAL 0 buf⟩

/-- **The table** is what is left of each byte. -/
theorem crc16Tab_eq (m : UInt8) : (crc16Tab.get m.toFin).toBitVec =
    (shift CRC16_POLYNOMIAL)^[8] (m.toBitVec.setWidth 16) := by
  have htable : ∀ i : Fin 256, (crc16Tab.get i).toBitVec =
      (shift CRC16_POLYNOMIAL)^[8] (BitVec.setWidth 16 (BitVec.ofFin (w := 8) i)) := by
    decide +kernel
  exact htable m.toFin

/-- One more character. -/
theorem calcCrcValue_eq (m : UInt8) (crc : UInt16) :
    (calcCrcValue m crc).toBitVec = byte CRC16_POLYNOMIAL crc.toBitVec m := by
  have htable := byte_eq_table (by decide) crc16Tab_eq crc.toBitVec m
  rw [htable, calcCrcValue]
  simp

/-- The checksum is the remainder. -/
theorem calcCrc16_eq (buf : List UInt8) (n : ℕ) : calcCrc16 buf n = plainCrc16 (buf.take n) := by
  have hfold : ∀ (crc : UInt16) (buf : List UInt8),
      (buf.foldl (fun crc m => calcCrcValue m crc) crc).toBitVec =
        buf.foldl (byte CRC16_POLYNOMIAL) crc.toBitVec := by
    intro crc buf
    induction buf generalizing crc with
    | nil => rfl
    | cons m buf ih => rw [List.foldl_cons, ih, calcCrcValue_eq, List.foldl_cons]
  apply UInt16.toBitVec_inj.mp
  rw [calcCrc16, hfold, plainCrc16, remainder_eq_foldl (by decide)]
  rfl

/-- The characters of a string that its checksum takes. -/
def nulFree (buf : List UInt8) (size : ℕ) : List UInt8 := (buf.take size).takeWhile (· ≠ 0)

/-- **The loops divide by the polynomial**, bit by bit: that of the loader the bytes that it is
given, and that of the sender those in front of the first terminator, so they agree where there is
none. -/
theorem crc16_divides :
    (∀ buf dwSize, calcCrc16Loop buf dwSize = plainCrc16 (buf.take dwSize.toNat)) ∧
    (∀ buf size, getCrc16AsciiLoop buf size =
      calcCrc16Loop (nulFree buf size.toNat) (UInt32.ofNat (nulFree buf size.toNat).length)) ∧
    ∀ buf size, 0 ∉ buf → getCrc16AsciiLoop buf size = calcCrc16Loop buf size.toUInt32 := by
  have hascii : ∀ buf (size : UInt16),
      getCrc16AsciiLoop buf size = plainCrc16 (nulFree buf size.toNat) := by
    intro buf size
    have hall : nulFree buf size.toNat = (nulFree buf size.toNat).take
        (nulFree buf size.toNat).length := List.take_length.symm
    rw [getCrc16AsciiLoop_eq, hall, ← calcCrc16_eq, getCrc16Ascii, calcCrc16, ← hall, nulFree,
      Nat.mod_eq_of_lt size.toNat_lt]
  refine ⟨fun buf dwSize => ?_, fun buf size => ?_, fun buf size h0 => ?_⟩
  · rw [calcCrc16Loop_eq, calcCrc16_eq]
  · have hlen : (nulFree buf size.toNat).length ≤ size.toNat := by
      have htake : (nulFree buf size.toNat).length ≤ (buf.take size.toNat).length :=
        (List.takeWhile_sublist _).length_le
      rw [List.length_take] at htake
      omega
    have hsize := size.toNat_lt
    have hfits : (nulFree buf size.toNat).length < 2 ^ 32 := by omega
    rw [hascii, calcCrc16Loop_eq, UInt32.toNat_ofNat_of_lt' hfits, calcCrc16_eq, List.take_length]
  · have hfree : nulFree buf size.toNat = buf.take size.toNat := by
      rw [nulFree, List.takeWhile_eq_self_iff]
      intro m hm
      have hne : m ≠ 0 := ne_of_mem_of_not_mem (List.mem_of_mem_take hm) h0
      simpa using hne
    rw [hascii, hfree, calcCrc16Loop_eq, calcCrc16_eq, UInt16.toNat_toUInt32]

/-- So they do on two characters. -/
theorem crc16_divides_two :
    getCrc16AsciiLoop [0x72, 0x33] 2 = calcCrc16Loop [0x72, 0x33] 2 :=
  crc16_divides.2.2 [0x72, 0x33] 2 (by decide)

/-! ### What is detected -/

/-- Strings of bytes that differ only within a window of 16 bits, from the bit `start` on. -/
def DifferWithin (start : ℕ) (buf buf' : List UInt8) : Prop :=
  ∀ k, k < start ∨ start + 16 ≤ k → (messageBits buf)[k]? = (messageBits buf')[k]?

/-- **A burst of 16 bits is detected**, and so is every change of two adjacent characters. -/
theorem calcCrc16_burst :
    (∀ buf buf', buf.length = buf'.length → buf ≠ buf' → (∃ start, DifferWithin start buf buf') →
      calcCrc16 buf buf.length ≠ calcCrc16 buf' buf'.length) ∧
    ∀ pre post m₁ m₂ m₁' m₂', (m₁, m₂) ≠ (m₁', m₂') →
      calcCrc16 (pre ++ m₁ :: m₂ :: post) (pre.length + 2 + post.length) ≠
        calcCrc16 (pre ++ m₁' :: m₂' :: post) (pre.length + 2 + post.length) := by
  have hpoly : CRC16_POLYNOMIAL.msb = true := by decide
  have hbits : ∀ buf buf' : List UInt8, calcCrc16 buf buf.length = calcCrc16 buf' buf'.length →
      bits CRC16_POLYNOMIAL 0 (messageBits buf) = bits CRC16_POLYNOMIAL 0 (messageBits buf') := by
    intro buf buf' h
    rw [calcCrc16_eq, calcCrc16_eq, List.take_length, List.take_length] at h
    exact congrArg UInt16.toBitVec h
  constructor
  · rintro buf buf' hlen hne ⟨start, hsame⟩ h
    refine bits_ne_of_window hpoly ?_ (mt messageBits_injective hne) hsame (hbits buf buf' h)
    rw [messageBits_length, messageBits_length, hlen]
  · intro pre post m₁ m₂ m₁' m₂' hne h
    have hsplit : ∀ m m', messageBits (pre ++ m :: m' :: post) =
        messageBits pre ++ messageBits [m, m'] ++ messageBits post := by
      intro m m'
      simp [messageBits]
    have hlen : ∀ m m', pre.length + 2 + post.length = (pre ++ m :: m' :: post).length := by
      intro m m'
      simp only [List.length_append, List.length_cons]
      omega
    have hwindow := hbits (pre ++ m₁ :: m₂ :: post) (pre ++ m₁' :: m₂' :: post) (by
      rw [← hlen, ← hlen]
      exact h)
    rw [hsplit, hsplit] at hwindow
    have hwidth : (messageBits [m₁, m₂]).length = 16 := messageBits_length _
    have hsame : (messageBits [m₁, m₂]).length = (messageBits [m₁', m₂']).length := rfl
    refine bits_ne_of_burst hpoly hsame hwidth.le ?_ hwindow
    intro heq
    obtain ⟨rfl, rfl⟩ : m₁ = m₁' ∧ m₂ = m₂' := by simpa using messageBits_injective heq
    exact hne rfl

/-- Two digits that have changed places are detected either way. -/
theorem calcCrc16_burst_swap :
    calcCrc16 [0x31, 0x32] 2 ≠ calcCrc16 [0x32, 0x31] 2 ∧
      calcCrc16 [0x31, 0x32] (0 + 2 + 0) ≠ calcCrc16 [0x32, 0x31] (0 + 2 + 0) := by
  refine ⟨calcCrc16_burst.1 [0x31, 0x32] [0x32, 0x31] rfl (by decide) ⟨0, ?_⟩,
    calcCrc16_burst.2 [] [] 0x31 0x32 0x32 0x31 (by decide)⟩
  intro k hk
  have hbeyond : 16 ≤ k := by omega
  rw [List.getElem?_eq_none (by simpa [messageBits_length] using hbeyond),
    List.getElem?_eq_none (by simpa [messageBits_length] using hbeyond)]

end Muxponder
