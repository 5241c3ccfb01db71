import Muxponder.Lib.CString
import Mathlib.Data.Nat.Log
import Mathlib.Data.UInt
import Mathlib.Tactic.NormNum
import Mathlib.Tactic.Positivity
import Mathlib.Tactic.Ring

/-!
# Printed Numbers

The texts that `sprintf` makes of numbers: `%u` and `%d` in decimal digits, `%.8x`, and
`%.pf` of a single-precision `float`, whose value is rounded exactly, ties to even. Each
text has a width that is read off the number alone.

## Main results

* `unsigned_length`, `integer_length`, `fixed_length`: the widths of the texts.
* `fixedWidth_le`: no `float` takes more than 39 digits in front of its point.
-/

namespace Printf

open CString

/-- `%u` -/
def unsigned (n : ℕ) : List UInt8 := ascii (toString n)

/-- The width of `%u`. -/
def unsignedWidth (n : ℕ) : ℕ := Nat.log 10 n + 1

/-- `%d` -/
def integer (z : ℤ) : List UInt8 :=
  if z < 0 then 0x2D :: unsigned z.natAbs else unsigned z.natAbs

/-- The width of `%d`. -/
def integerWidth (z : ℤ) : ℕ := (if z < 0 then 1 else 0) + unsignedWidth z.natAbs

/-- Digits with zeros in front of them, up to a width. -/
def padded (p n : ℕ) : List UInt8 := List.replicate (p - unsignedWidth n) 0x30 ++ unsigned n

/-- `%.8x`: eight hexadecimal digits in lower case. -/
def hexWord (n : ℕ) : List UInt8 :=
  (List.range 8).map fun k => UInt8.ofNat (Nat.digitChar (n / 16 ^ (7 - k) % 16)).toNat

/-! ### Single-precision numbers -/

/-- The sign bit. -/
def negative (bits : UInt32) : Bool := 2 ^ 31 ≤ bits.toNat

/-- The exponent field; 255 is left to infinities and NaNs. -/
def exponent (bits : UInt32) : ℕ := bits.toNat / 2 ^ 23 % 256

/-- The fraction field. -/
def fraction (bits : UInt32) : ℕ := bits.toNat % 2 ^ 23

/-- The significand, in units of `2 ^ (max exponent 1 - 150)`. -/
def significand (bits : UInt32) : ℕ :=
  if exponent bits = 0 then fraction bits else 2 ^ 23 + fraction bits

/-- Division rounded to nearest, ties to even. -/
def roundDiv (n d : ℕ) : ℕ :=
  if d < 2 * (n % d) ∨ (2 * (n % d) = d ∧ n / d % 2 = 1) then n / d + 1 else n / d

/-- The absolute value in units of the last of `p` decimals. -/
def scaled (p : ℕ) (bits : UInt32) : ℕ :=
  roundDiv (significand bits * 2 ^ max (exponent bits) 1 * 10 ^ p) (2 ^ 150)

/-- The sign of a `float`. -/
def sign (bits : UInt32) : List UInt8 := if negative bits then [0x2D] else []

/-- The digits of an absolute value, for a precision that is not 0. -/
def magnitude (p : ℕ) (bits : UInt32) : List UInt8 :=
  if exponent bits = 255 then (if fraction bits = 0 then ascii "inf" else ascii "nan")
  else unsigned (scaled p bits / 10 ^ p) ++ 0x2E :: padded p (scaled p bits % 10 ^ p)

/-- The width of an absolute value. -/
def magnitudeWidth (p : ℕ) (bits : UInt32) : ℕ :=
  if exponent bits = 255 then 3 else unsignedWidth (scaled p bits / 10 ^ p) + 1 + p

/-- `%.pf` -/
def fixed (p : ℕ) (bits : UInt32) : List UInt8 := sign bits ++ magnitude p bits

/-- The width of `%.pf`. -/
def fixedWidth (p : ℕ) (bits : UInt32) : ℕ :=
  (if negative bits then 1 else 0) + magnitudeWidth p bits

/-! ### Characters -/

section Characters

variable {n p : ℕ} {z : ℤ} {bits : UInt32} {ch : UInt8}

/-- A decimal number is printed in digits. -/
theorem mem_unsigned (h : ch ∈ unsigned n) : 0x30 ≤ ch.toNat ∧ ch.toNat ≤ 0x39 := by
  rw [unsigned, ascii, Nat.toString_eq_ofList_toDigits, String.toList_ofList] at h
  obtain ⟨d, hd, rfl⟩ := List.mem_map.mp h
  have hdigit := Nat.isDigit_of_mem_toDigits (by omega) (by omega) hd
  simp only [Char.isDigit, Bool.and_eq_true, decide_eq_true_eq, UInt32.le_iff_toNat_le] at hdigit
  have hlow : '0'.val.toNat = 0x30 := rfl
  have hhigh : '9'.val.toNat = 0x39 := rfl
  have hval : d.val.toNat = d.toNat := rfl
  rw [UInt8.toNat_ofNat']
  omega

/-- A decimal number is printed without a character that is no digit. -/
theorem not_mem_unsigned (h : ¬ (0x30 ≤ ch.toNat ∧ ch.toNat ≤ 0x39)) : ch ∉ unsigned n :=
  fun hmem => h (mem_unsigned hmem)

/-- No decimal number has a terminator in it. -/
@[simp] theorem nul_not_mem_unsigned : 0 ∉ unsigned n := not_mem_unsigned (by simp)

/-- A signed number is printed in digits and a sign. -/
theorem mem_integer (h : ch ∈ integer z) : ch = 0x2D ∨ 0x30 ≤ ch.toNat ∧ ch.toNat ≤ 0x39 := by
  rw [integer] at h
  split at h
  · exact (List.mem_cons.mp h).imp_right mem_unsigned
  · exact Or.inr (mem_unsigned h)

/-- No signed number has a terminator in it. -/
@[simp] theorem nul_not_mem_integer : 0 ∉ integer z := fun h => by
  rcases mem_integer h with h | h
  · exact absurd h (by decide)
  · simp at h

/-- No hexadecimal number has a terminator in it. -/
@[simp] theorem nul_not_mem_hexWord : 0 ∉ hexWord n := by
  have hchar : ∀ d : Fin 16, UInt8.ofNat (Nat.digitChar d).toNat ≠ 0 := by decide
  intro h
  obtain ⟨k, -, hk⟩ := List.mem_map.mp h
  exact hchar ⟨n / 16 ^ (7 - k) % 16, Nat.mod_lt _ (by omega)⟩ hk

/-- No `float` is printed with a terminator in it. -/
@[simp] theorem nul_not_mem_fixed : 0 ∉ fixed p bits := by
  intro h
  rcases List.mem_append.mp h with h | h
  · rw [sign] at h
    split at h <;> simp at h
  · rw [magnitude] at h
    split at h
    · split at h <;> exact absurd h (by decide)
    · rcases List.mem_append.mp h with h | h
      · exact nul_not_mem_unsigned h
      rcases List.mem_cons.mp h with h | h
      · exact absurd h (by decide)
      rcases List.mem_append.mp h with h | h
      · exact absurd (List.eq_of_mem_replicate h) (by decide)
      · exact nul_not_mem_unsigned h

end Characters

/-! ### Widths -/

variable {n k p : ℕ} {z : ℤ} {bits : UInt32}

/-- A number of `k` digits. -/
theorem unsignedWidth_le_iff (hk : 0 < k) : unsignedWidth n ≤ k ↔ n < 10 ^ k := by
  rcases eq_or_ne n 0 with rfl | hn
  · simp only [unsignedWidth, Nat.log_zero_right]
    exact iff_of_true hk (by positivity)
  · rw [unsignedWidth, Nat.add_one_le_iff, Nat.log_lt_iff_lt_pow (by omega) hn]

/-- No number is printed as nothing. -/
theorem unsignedWidth_pos (n : ℕ) : 0 < unsignedWidth n := Nat.succ_pos _

/-- The width of digits is their number. -/
@[simp] theorem unsigned_length (n : ℕ) : (unsigned n).length = unsignedWidth n := by
  have hlen : (unsigned n).length = (Nat.toDigits 10 n).length := by
    rw [unsigned, ascii, List.length_map, Nat.toString_eq_ofList_toDigits, String.toList_ofList]
  have hpos : 0 < (Nat.toDigits 10 n).length := Nat.length_toDigits_pos
  rw [hlen]
  refine le_antisymm ?_ ?_
  · rw [Nat.length_toDigits_le_iff (by omega) (unsignedWidth_pos n)]
    exact (unsignedWidth_le_iff (unsignedWidth_pos n)).mp le_rfl
  · rw [unsignedWidth_le_iff hpos]
    exact (Nat.length_toDigits_le_iff (by omega) hpos).mp le_rfl

/-- The width of a signed number, with its sign. -/
@[simp] theorem integer_length (z : ℤ) : (integer z).length = integerWidth z := by
  rw [integer, integerWidth]
  split
  · rw [List.length_cons, unsigned_length, Nat.add_comm]
  · rw [unsigned_length, Nat.zero_add]

/-- A number without a sign. -/
@[simp] theorem integerWidth_natCast (n : ℕ) : integerWidth n = unsignedWidth n := by
  rw [integerWidth, if_neg (by omega), Nat.zero_add, Int.natAbs_natCast]

/-- Padding reaches its width, for a number that fits. -/
theorem padded_length (hp : 0 < p) (hn : n < 10 ^ p) : (padded p n).length = p := by
  have hle := (unsignedWidth_le_iff hp).mpr hn
  rw [padded, List.length_append, List.length_replicate, unsigned_length]
  omega

/-- Eight digits are printed. -/
@[simp] theorem hexWord_length (n : ℕ) : (hexWord n).length = 8 := by
  rw [hexWord, List.length_map, List.length_range]

/-- The width of a printed absolute value. -/
theorem magnitude_length (hp : 0 < p) : (magnitude p bits).length = magnitudeWidth p bits := by
  rw [magnitude, magnitudeWidth]
  split
  · split <;> rfl
  · have hmod : scaled p bits % 10 ^ p < 10 ^ p := Nat.mod_lt _ (by positivity)
    rw [List.length_append, List.length_cons, unsigned_length, padded_length hp hmod]
    omega

/-- The width of a printed `float`. -/
theorem fixed_length (hp : 0 < p) : (fixed p bits).length = fixedWidth p bits := by
  rw [fixed, fixedWidth, List.length_append, magnitude_length hp, sign]
  split <;> rfl

/-- Rounding comes to at most one more. -/
theorem roundDiv_le (n d : ℕ) : roundDiv n d ≤ n / d + 1 := by
  rw [roundDiv]
  split <;> omega

/-- A finite value stays below `2 ^ 128`, in units of any decimal. -/
theorem scaled_le (hexp : exponent bits ≠ 255) : scaled p bits ≤ 2 ^ 128 * 10 ^ p := by
  have hfrac : fraction bits < 2 ^ 23 := Nat.mod_lt _ (by omega)
  have hsig : significand bits < 2 ^ 24 := by
    rw [significand]
    split <;> omega
  have hmax : max (exponent bits) 1 ≤ 254 := by
    have hlt : exponent bits < 256 := Nat.mod_lt _ (by omega)
    omega
  have hval : significand bits * 2 ^ max (exponent bits) 1 * 10 ^ p
      < 2 ^ 150 * (2 ^ 128 * 10 ^ p) := by
    calc significand bits * 2 ^ max (exponent bits) 1 * 10 ^ p
        ≤ significand bits * 2 ^ 254 * 10 ^ p :=
          Nat.mul_le_mul_right _ (Nat.mul_le_mul_left _ (Nat.pow_le_pow_right (by omega) hmax))
      _ < 2 ^ 24 * 2 ^ 254 * 10 ^ p :=
          Nat.mul_lt_mul_of_pos_right (Nat.mul_lt_mul_of_pos_right hsig (by positivity))
            (by positivity)
      _ = 2 ^ 150 * (2 ^ 128 * 10 ^ p) := by ring
  have hdiv := Nat.div_lt_of_lt_mul hval
  have hround := roundDiv_le (significand bits * 2 ^ max (exponent bits) 1 * 10 ^ p) (2 ^ 150)
  rw [scaled]
  omega

/-- **The widest `float`**: a sign, 39 digits, the point and the decimals. -/
theorem fixedWidth_le (hp : 0 < p) : fixedWidth p bits ≤ 41 + p := by
  have hmag : magnitudeWidth p bits ≤ 40 + p := by
    rw [magnitudeWidth]
    split
    · omega
    next hexp =>
      have hint : unsignedWidth (scaled p bits / 10 ^ p) ≤ 39 := by
        rw [unsignedWidth_le_iff (by omega)]
        calc scaled p bits / 10 ^ p ≤ 2 ^ 128 :=
              Nat.div_le_of_le_mul (by rw [Nat.mul_comm]; exact scaled_le hexp)
          _ < 10 ^ 39 := by norm_num
      omega
  rw [fixedWidth]
  split <;> omega

end Printf
