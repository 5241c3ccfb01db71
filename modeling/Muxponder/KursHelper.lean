import Muxponder.Lib.Digits
import Muxponder.Lib.CString

/-!
# KURS Helpers

The checksums and number parsers of `kurs_helper.c`. The parsers of numbers are scanners
that differ in their digits, their overflow guard and what they pass over; `char` is
signed, so characters from `0x80` on compare below every digit.

## Main results

* `str4HexToU16_wordToHexStr`: a checksum written in four digits reads back.
* `strToU16_value`, `strToU32Def_value`, `strToU32_value`: plain decimal digits are read as
  their value; `StrToU32` needs to be told that they fit in 32 bits.
-/

namespace Muxponder

open Digits

set_option maxRecDepth 4000 in
/-- The values of the checksum of one byte. -/
def crc16Tab : Vector UInt16 256 :=
  ⟨#[
    0x0000, 0xC0C1, 0xC181, 0x0140, 0xC301, 0x03C0, 0x0280, 0xC241, 0xC601, 0x06C0, 0x0780,
    0xC741, 0x0500, 0xC5C1, 0xC481, 0x0440, 0xCC01, 0x0CC0, 0x0D80, 0xCD41, 0x0F00, 0xCFC1,
    0xCE81, 0x0E40, 0x0A00, 0xCAC1, 0xCB81, 0x0B40, 0xC901, 0x09C0, 0x0880, 0xC841, 0xD801,
    0x18C0, 0x1980, 0xD941, 0x1B00, 0xDBC1, 0xDA81, 0x1A40, 0x1E00, 0xDEC1, 0xDF81, 0x1F40,
    0xDD01, 0x1DC0, 0x1C80, 0xDC41, 0x1400, 0xD4C1, 0xD581, 0x1540, 0xD701, 0x17C0, 0x1680,
    0xD641, 0xD201, 0x12C0, 0x1380, 0xD341, 0x1100, 0xD1C1, 0xD081, 0x1040, 0xF001, 0x30C0,
    0x3180, 0xF141, 0x3300, 0xF3C1, 0xF281, 0x3240, 0x3600, 0xF6C1, 0xF781, 0x3740, 0xF501,
    0x35C0, 0x3480, 0xF441, 0x3C00, 0xFCC1, 0xFD81, 0x3D40, 0xFF01, 0x3FC0, 0x3E80, 0xFE41,
    0xFA01, 0x3AC0, 0x3B80, 0xFB41, 0x3900, 0xF9C1, 0xF881, 0x3840, 0x2800, 0xE8C1, 0xE981,
    0x2940, 0xEB01, 0x2BC0, 0x2A80, 0xEA41, 0xEE01, 0x2EC0, 0x2F80, 0xEF41, 0x2D00, 0xEDC1,
    0xEC81, 0x2C40, 0xE401, 0x24C0, 0x2580, 0xE541, 0x2700, 0xE7C1, 0xE681, 0x2640, 0x2200,
    0xE2C1, 0xE381, 0x2340, 0xE101, 0x21C0, 0x2080, 0xE041, 0xA001, 0x60C0, 0x6180, 0xA141,
    0x6300, 0xA3C1, 0xA281, 0x6240, 0x6600, 0xA6C1, 0xA781, 0x6740, 0xA501, 0x65C0, 0x6480,
    0xA441, 0x6C00, 0xACC1, 0xAD81, 0x6D40, 0xAF01, 0x6FC0, 0x6E80, 0xAE41, 0xAA01, 0x6AC0,
    0x6B80, 0xAB41, 0x6900, 0xA9C1, 0xA881, 0x6840, 0x7800, 0xB8C1, 0xB981, 0x7940, 0xBB01,
    0x7BC0, 0x7A80, 0xBA41, 0xBE01, 0x7EC0, 0x7F80, 0xBF41, 0x7D00, 0xBDC1, 0xBC81, 0x7C40,
    0xB401, 0x74C0, 0x7580, 0xB541, 0x7700, 0xB7C1, 0xB681, 0x7640, 0x7200, 0xB2C1, 0xB381,
    0x7340, 0xB101, 0x71C0, 0x7080, 0xB041, 0x5000, 0x90C1, 0x9181, 0x5140, 0x9301, 0x53C0,
    0x5280, 0x9241, 0x9601, 0x56C0, 0x5780, 0x9741, 0x5500, 0x95C1, 0x9481, 0x5440, 0x9C01,
    0x5CC0, 0x5D80, 0x9D41, 0x5F00, 0x9FC1, 0x9E81, 0x5E40, 0x5A00, 0x9AC1, 0x9B81, 0x5B40,
    0x9901, 0x59C0, 0x5880, 0x9841, 0x8801, 0x48C0, 0x4980, 0x8941, 0x4B00, 0x8BC1, 0x8A81,
    0x4A40, 0x4E00, 0x8EC1, 0x8F81, 0x4F40, 0x8D01, 0x4DC0, 0x4C80, 0x8C41, 0x4400, 0x84C1,
    0x8581, 0x4540, 0x8701, 0x47C0, 0x4680, 0x8641, 0x8201, 0x42C0, 0x4380, 0x8341, 0x4100,
    0x81C1, 0x8081, 0x4040], rfl⟩

/-- `calc_crc_value`: the checksum after one more character. -/
def calcCrcValue (m : UInt8) (crc : UInt16) : UInt16 :=
  (crc >>> 8) ^^^ crc16Tab.get (crc ^^^ m.toUInt16).toUInt8.toFin

/-- `get_crc16_ascii`: the checksum of a string, up to its terminator or `size`. -/
def getCrc16Ascii (buf : List UInt8) (size : ℕ) : UInt16 :=
  ((buf.take (size % 2 ^ 16)).takeWhile (· ≠ 0)).foldl (fun crc m => calcCrcValue m crc) 0

/-- `calc_crc16`: the checksum of `dwSize` bytes. -/
def calcCrc16 (buf : List UInt8) (dwSize : ℕ) : UInt16 :=
  (buf.take dwSize).foldl (fun crc m => calcCrcValue m crc) 0

/-- `'6' <= *str` on signed characters. -/
def fromSix (ch : UInt8) : Bool := decide (0x36 ≤ ch ∧ ch < 0x80)

/-- The scanner of `StrToU16`. -/
def strToU16Scanner : Scanner where
  digit := decValue
  base := 10
  width := 32
  overflow := fun tm _ => decide (0xFFFF < tm)
  maxDigits := none
  skips := false

/-- `StrToU16`. -/
def strToU16 (str : List UInt8) : Option (Option UInt16) :=
  (strToU16Scanner.scan 0 0 false str).map (Option.map UInt16.ofNat)

/-- The scanner of `StrToU32Def`. -/
def strToU32DefScanner : Scanner where
  digit := decValue
  base := 10
  width := 32
  overflow := fun tm ch => decide (429496729 < tm) || (decide (tm = 429496729) && fromSix ch)
  maxDigits := none
  skips := false

/-- `StrToU32Def`. -/
def strToU32Def (str : List UInt8) (dflt : UInt32) : Option UInt32 :=
  (strToU32DefScanner.scan 0 0 false str).map fun r => (r.map UInt32.ofNat).getD dflt

/-- The scanner of `StrToU32`. -/
def strToU32Scanner : Scanner where
  digit := decValue
  base := 10
  width := 32
  overflow := fun tm ch => decide (tm = 429496729) && fromSix ch
  maxDigits := some 10
  skips := true

/-- `StrToU32`. -/
def strToU32 (str : List UInt8) : Option (Option UInt32) :=
  (strToU32Scanner.scan 0 0 false str).map (Option.map UInt32.ofNat)

/-- The scanner of `Str4HexToU16`. -/
def str4HexToU16Scanner : Scanner where
  digit := hexValue
  base := 16
  width := 16
  overflow := fun tm ch => decide (tm = 6553) && fromSix ch
  maxDigits := some 5
  skips := true

/-- `Str4HexToU16`. -/
def str4HexToU16 (str : List UInt8) : Option (Option UInt16) :=
  (str4HexToU16Scanner.scan 0 0 false str).map (Option.map UInt16.ofNat)

/-- `Str2HexToU8`: exactly two hexadecimal digits. -/
def str2HexToU8 (str : List UInt8) : Option UInt8 :=
  (readHex 2 0 str).map UInt8.ofNat

/-- `Str8HexToU32`: exactly eight hexadecimal digits. -/
def str8HexToU32 (str : List UInt8) : Option UInt32 :=
  (readHex 8 0 str).map UInt32.ofNat

/-- `StrHexToU32`: the first eight hexadecimal digits. -/
def strHexToU32 (str : List UInt8) : Option UInt32 :=
  (readHex 8 0 str).map UInt32.ofNat

/-! ### Decimal numbers -/

section Decimal

variable {s ds pre rest : List UInt8} {c : UInt8}

/-- The terminator is no digit. -/
theorem decValue_zero : decValue 0 = none := rfl

/-- Nor is it a blank. -/
theorem zero_ne_blank : (0 : UInt8) ≠ 0x20 := by decide

/-- `StrToU16` comes to an end on every string. -/
theorem strToU16_isSome (h : 0 ∈ s) : (strToU16 s).isSome = true := by
  obtain ⟨pre, rest, rfl⟩ := List.append_of_mem h
  rw [strToU16, Option.isSome_map]
  exact Scanner.scan_isSome decValue_zero zero_ne_blank (Or.inr (Or.inl rfl))

/-- `StrToU32Def` comes to an end on every string. -/
theorem strToU32Def_isSome {dflt : UInt32} (h : 0 ∈ s) :
    (strToU32Def s dflt).isSome = true := by
  obtain ⟨pre, rest, rfl⟩ := List.append_of_mem h
  rw [strToU32Def, Option.isSome_map]
  exact Scanner.scan_isSome decValue_zero zero_ne_blank (Or.inr (Or.inl rfl))

/-- `StrToU32` comes to an end on a string with a digit; it looks for one across the
terminator. -/
theorem strToU32_isSome (h : ∃ ch ∈ pre, ch ≠ 0x20 ∧ (decValue ch).isSome = true) :
    (strToU32 (pre ++ 0 :: rest)).isSome = true := by
  rw [strToU32, Option.isSome_map]
  exact Scanner.scan_isSome decValue_zero zero_ne_blank (Or.inr (Or.inr h))

/-- Where `StrToU32Def` does not return its default there is a digit. -/
theorem exists_digit_of_strToU32Def {v dflt : UInt32}
    (h : strToU32Def (pre ++ 0 :: rest) dflt = some v) (hne : v ≠ dflt) :
    ∃ ch ∈ pre, ch ≠ 0x20 ∧ (decValue ch).isSome = true := by
  rw [strToU32Def] at h
  obtain ⟨r, hr, hv⟩ := Option.map_eq_some_iff.mp h
  cases r with
  | none => exact absurd hv.symm hne
  | some n => exact Scanner.exists_digit_of_scan rfl decValue_zero zero_ne_blank hr

/-- `StrToU16` reads plain digits as their value, which it returns only below 65536. -/
theorem strToU16_value {v : UInt16} (hds : IsDecimal ds) (hc : decValue c = none)
    (h : strToU16 (ds ++ c :: rest) = some (some v)) : v.toNat = decimal ds := by
  rw [strToU16] at h
  obtain ⟨r, hr, hv⟩ := Option.map_eq_some_iff.mp h
  obtain ⟨n, rfl, rfl⟩ := Option.map_eq_some_iff.mp hv
  obtain ⟨ch, hov⟩ := Scanner.overflow_of_scan hr
  have hn : n = decimal ds := by
    refine Scanner.scan_value (by simp [strToU16Scanner]) rfl ?_ hds.2 hc le_rfl hr
      (Or.inr hds.1)
    rintro tm ch d hov hd -
    have htm : tm ≤ 0xFFFF := by simpa [strToU16Scanner] using hov
    have hd := (decValue_lt hd).1
    change tm * 10 + d < 2 ^ 32
    omega
  have hle : n ≤ 0xFFFF := by simpa [strToU16Scanner] using hov
  rw [UInt16.toNat_ofNat_of_lt' (Nat.lt_succ_of_le hle), hn]

/-- `StrToU32Def` reads plain digits as their value, or returns its default. -/
theorem strToU32Def_value {v dflt : UInt32} (hds : IsDecimal ds) (hc : decValue c = none)
    (h : strToU32Def (ds ++ c :: rest) dflt = some v) (hne : v ≠ dflt) :
    v.toNat = decimal ds := by
  rw [strToU32Def] at h
  obtain ⟨r, hr, hv⟩ := Option.map_eq_some_iff.mp h
  cases r with
  | none => exact absurd hv.symm hne
  | some n =>
      obtain rfl : UInt32.ofNat n = v := hv
      obtain ⟨ch, hov⟩ := Scanner.overflow_of_scan hr
      have hn : n = decimal ds := by
        refine Scanner.scan_value (by simp [strToU32DefScanner]) rfl ?_ hds.2 hc le_rfl hr
          (Or.inr hds.1)
        rintro tm ch d hov hd -
        obtain ⟨hd10, hch⟩ := decValue_lt hd
        simp only [strToU32DefScanner, fromSix, UInt8.le_iff_toNat_le, UInt8.lt_iff_toNat_lt,
          UInt8.reduceToNat, Bool.or_eq_false_iff, decide_eq_false_iff_not,
          Bool.and_eq_false_iff, not_lt, not_and] at hov
        change tm * 10 + d < 2 ^ 32
        omega
      have hle : n ≤ 429496729 := by
        simp only [strToU32DefScanner, Bool.or_eq_false_iff, decide_eq_false_iff_not] at hov
        omega
      rw [UInt32.toNat_ofNat_of_lt' (lt_of_le_of_lt hle (by decide)), hn]

/-- `StrToU32Def` reads every number below its guard. -/
theorem strToU32Def_decimal {dflt : UInt32} (hds : IsDecimal ds) (hc : decValue c = none)
    (hlt : decimal ds < 429496729) :
    strToU32Def (ds ++ c :: rest) dflt = some (UInt32.ofNat (decimal ds)) := by
  have hguard : ∀ n ≤ 429496728, ∀ ch, strToU32DefScanner.overflow n ch = false := by
    intro n hn ch
    simp only [strToU32DefScanner, Bool.or_eq_false_iff, Bool.and_eq_false_iff,
      decide_eq_false_iff_not]
    omega
  have hscan : strToU32DefScanner.scan 0 0 false (ds ++ c :: rest) = some (some (decimal ds)) :=
    Scanner.scan_eq_value (by simp [strToU32DefScanner]) rfl rfl hguard
      (by simp [strToU32DefScanner]) hds.2 hc (Nat.le_of_lt_succ hlt) (Or.inr hds.1)
  rw [strToU32Def, hscan]
  rfl

/-- `StrToU32` reads plain digits as their value, if that fits in 32 bits: its guard lets
ten digits from 4294967300 on wrap around. -/
theorem strToU32_value {v : UInt32} (hds : IsDecimal ds) (hlt : decimal ds < 2 ^ 32)
    (hc : decValue c = none) (h : strToU32 (ds ++ c :: rest) = some (some v)) :
    v = UInt32.ofNat (decimal ds) := by
  rw [strToU32] at h
  obtain ⟨r, hr, hv⟩ := Option.map_eq_some_iff.mp h
  obtain ⟨n, rfl, rfl⟩ := Option.map_eq_some_iff.mp hv
  have hn : n = decimal ds := by
    refine Scanner.scan_value (by simp [strToU32Scanner]) rfl ?_ hds.2 hc le_rfl hr
      (Or.inr hds.1)
    intro tm ch d _ _ hle
    exact lt_of_le_of_lt hle hlt
  rw [hn]

example : strToU32 (CString.ascii "4294967300;") = some (some 4) := by decide

end Decimal

/-- `UintToHexStr`. -/
def uintToHexStr (dwVal : UInt32) : List UInt8 := writeHex 8 dwVal.toNat

/-- `WordToHexStr`. -/
def wordToHexStr (wVal : UInt16) : List UInt8 := writeHex 4 wVal.toNat

/-! ### Numbers read back -/

/-- A character below `'6'` passes the guard of `Str4HexToU16`, and so does every
character behind fewer than four digits. -/
theorem str4HexToU16_overflow {tm : ℕ} {ch : UInt8} (h : tm < 16 ^ 3 ∨ ch < 0x36) :
    str4HexToU16Scanner.overflow tm ch = false := by
  simp only [str4HexToU16Scanner, fromSix, Bool.and_eq_false_iff, decide_eq_false_iff_not]
  rcases h with h | h
  · left
    omega
  · right
    rintro ⟨h6, -⟩
    exact absurd h (UInt8.not_lt.mpr h6)

/-- One more digit of a checksum. -/
theorem str4HexToU16_digit {tm cnt d : ℕ} {detect : Bool} {s : List UInt8} (hd : d < 16)
    (htm : tm < 16 ^ 3) (hcnt : cnt < 5) :
    str4HexToU16Scanner.scan tm cnt detect (hexDigit d :: s) =
      str4HexToU16Scanner.scan (tm * 16 + d) (cnt + 1) true s := by
  have hblank : hexDigit d ≠ 0x20 := by
    intro h
    have := (hexDigit_range hd).1
    rw [h] at this
    exact absurd this (by decide)
  have hmax : ∀ m ∈ str4HexToU16Scanner.maxDigits, cnt < m := by
    rintro m hm
    obtain rfl : 5 = m := by simpa [str4HexToU16Scanner] using hm
    exact hcnt
  rw [Scanner.scan_digit (str4HexToU16_overflow (Or.inl htm)) hblank (hexValue_hexDigit hd)
    hmax]
  have hmod : (tm * 16 + d) % 2 ^ 16 = tm * 16 + d := Nat.mod_eq_of_lt (by omega)
  exact congrArg (fun tm => str4HexToU16Scanner.scan tm (cnt + 1) true s) hmod

/-- **A checksum written in four digits reads back** in front of the end of the packet. -/
theorem str4HexToU16_wordToHexStr (w : UInt16) (rest : List UInt8) :
    str4HexToU16 (wordToHexStr w ++ 0x0D :: rest) = some (some w) := by
  obtain ⟨v, hv⟩ : ∃ v, w.toNat = v := ⟨_, rfl⟩
  have hlt : v < 2 ^ 16 := hv ▸ w.toNat_lt
  have hdigits : wordToHexStr w =
      [hexDigit (v / 4096 % 16), hexDigit (v / 256 % 16), hexDigit (v / 16 % 16),
        hexDigit (v % 16)] := by
    simp [wordToHexStr, hv, writeHex, Nat.div_div_eq_div_mul]
  have hmod : ∀ n, n % 16 < 16 := fun n => Nat.mod_lt _ (by omega)
  rw [hdigits, str4HexToU16]
  simp only [List.cons_append, List.nil_append]
  rw [str4HexToU16_digit (hmod _) (by omega) (by omega),
    str4HexToU16_digit (hmod _) (by omega) (by omega),
    str4HexToU16_digit (hmod _) (by omega) (by omega),
    str4HexToU16_digit (hmod _) (by omega) (by omega),
    Scanner.scan_stop (str4HexToU16_overflow (Or.inr (by decide))) (by decide)]
  have hsum : (((0 * 16 + v / 4096 % 16) * 16 + v / 256 % 16) * 16 + v / 16 % 16) * 16 +
      v % 16 = w.toNat := by omega
  rw [hsum, Option.map_some, Option.map_some, UInt16.ofNat_toNat]

/-- An address written in eight digits reads back. -/
theorem str8HexToU32_uintToHexStr (a : UInt32) (rest : List UInt8) :
    str8HexToU32 (uintToHexStr a ++ rest) = some a := by
  have ha : a.toNat < 16 ^ 8 := a.toNat_lt
  rw [str8HexToU32, uintToHexStr, readHex_prefix (writeHex_length _ _), readHex_writeHex ha]
  simp

/-- A byte written in two digits reads back. -/
theorem str2HexToU8_writeHex (b : UInt8) (rest : List UInt8) :
    str2HexToU8 (writeHex 2 b.toNat ++ rest) = some b := by
  have hb : b.toNat < 16 ^ 2 := b.toNat_lt
  rw [str2HexToU8, readHex_prefix (writeHex_length _ _), readHex_writeHex hb]
  simp

end Muxponder
