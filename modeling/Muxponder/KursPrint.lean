import Muxponder.KursSetParam
import Muxponder.Lib.Printf

/-!
# Values in Print

The texts that the replies show of the parameters: `sprintf_u32` and `sprintf_s32` of
`kurs_helper.c`, which subtract one decimal place after the other, and
`GetStrParamValueItem` of `kurs_core.c`. A descriptor now has its two remaining fields, the
colour record and the format.

## Main results

* `sprintfU32_eq`: the subtraction loops print `%u`.
* `getStrParamValueItem_length`: the width of a value, by its type.
* `valueWidth_le`: how wide a value can be.
-/

namespace Muxponder

open Memory CString Printf Digits

/-- `format`: the format of the tables is `"%.1f"`. -/
inductive Format
  | tenths
  deriving DecidableEq, Repr

/-- `profile_param_t` with all its fields. Only numbers of type `DC_FLOAT` have a format
other than `NULL`. -/
structure SectionParam extends ProfileParam where
  dAdd : Option UInt32
  format : Option Format
  formatFloat : format ≠ none → type = .float

/-! ### Decimal places -/

/-- The decimal places above the units, in the order in which they are printed. -/
def places : ℕ → List ℕ
  | 0 => []
  | k + 1 => 10 ^ (k + 1) :: places k

/-- A digit. -/
def digitChar (nom : ℕ) : UInt8 := 0x30 + UInt8.ofNat (nom &&& 0x0F)

/-- The subtraction loops: `nom` counts how often a place can be subtracted, and zeros are
printed only behind another digit (`add`). -/
def printPlaces : List ℕ → ℕ → Bool → List UInt8
  | [], v, _ => [digitChar v]
  | place :: rest, v, add =>
      let nom := v / place
      let add := add || nom ≠ 0
      (if add then [digitChar nom] else []) ++ printPlaces rest (v % place) add

/-- `sprintf_u32` -/
def sprintfU32 (v : UInt32) : List UInt8 := printPlaces (places 9) v.toNat false

/-- The value `sprintf_s32` goes on with behind the sign. The least of all numbers is its
own opposite, and from a negative number no place can be subtracted. -/
def s32Magnitude (v : UInt32) : ℕ :=
  (if v.toInt32 < 0 then -v.toInt32 else v.toInt32).toNatClampNeg

/-- `sprintf_s32` -/
def sprintfS32 (v : UInt32) : List UInt8 :=
  (if v.toInt32 < 0 then [0x2D] else []) ++ printPlaces (places 9) (s32Magnitude v) false

example : places 9 = [1000000000, 100000000, 10000000, 1000000, 100000, 10000, 1000, 100, 10] :=
  rfl

/-- A digit as the library prints it. -/
theorem ascii_digitChar {d : ℕ} (hd : d < 10) :
    UInt8.ofNat (Nat.digitChar d).toNat = digitChar d := by
  have h : ∀ d : Fin 10, UInt8.ofNat (Nat.digitChar d).toNat = digitChar d := by decide
  exact h ⟨d, hd⟩

/-- The last digit stands at the end. -/
theorem unsigned_eq (n : ℕ) :
    unsigned n = (if n < 10 then [] else unsigned (n / 10)) ++ [digitChar (n % 10)] := by
  have hdigits : ∀ n, unsigned n = (Nat.toDigits 10 n).map fun ch => UInt8.ofNat ch.toNat := by
    intro n
    rw [unsigned, ascii, Nat.toString_eq_ofList_toDigits, String.toList_ofList]
  rw [hdigits, hdigits, Nat.toDigits_eq_if (by omega)]
  split
  next hlt => simp [Nat.mod_eq_of_lt hlt, ascii_digitChar hlt]
  · simp [ascii_digitChar (Nat.mod_lt n (by omega : 0 < 10))]

/-- A digit reads back. -/
theorem decValue_digitChar {d : ℕ} (hd : d < 10) : decValue (digitChar d) = some d := by
  have h : ∀ d : Fin 10, decValue (digitChar d) = some d := by decide
  exact h ⟨d, hd⟩

/-- A printed number has digits alone. -/
theorem isDecimal_unsigned (n : ℕ) : IsDecimal (unsigned n) := by
  constructor
  · intro hnil
    have hpos := unsignedWidth_pos n
    rw [← unsigned_length, hnil] at hpos
    simp at hpos
  · intro ch hch
    have hrange := mem_unsigned hch
    rw [decValue, if_pos]
    · rfl
    · simpa [UInt8.le_iff_toNat_le] using hrange

/-- **A printed number reads back.** -/
theorem decimal_unsigned (n : ℕ) : decimal (unsigned n) = n := by
  induction n using Nat.strong_induction_on with
  | _ n ih =>
      have hlast := decValue_digitChar (Nat.mod_lt n (by omega : 0 < 10))
      rw [unsigned_eq, decimal, value_append]
      split
      next hlt => simp [value, decValue_digitChar hlt, Nat.mod_eq_of_lt hlt]
      · have hinit : value decValue 10 0 (unsigned (n / 10)) = n / 10 := ih (n / 10) (by omega)
        rw [hinit]
        simp only [value, List.foldl_cons, List.foldl_nil, hlast, Option.getD_some]
        omega

/-- Behind the first place the same loops print a tenth of the number and its last
digit. -/
theorem printPlaces_succ {k v : ℕ} {add : Bool} (hv : v < 10 ^ (k + 2)) :
    printPlaces (places (k + 1)) v add =
      (if add = false ∧ v / 10 = 0 then [] else printPlaces (places k) (v / 10) add) ++
        [digitChar (v % 10)] := by
  induction k generalizing v add with
  | zero =>
      cases add <;> by_cases h0 : v / 10 = 0 <;> simp [places, printPlaces, h0]
  | succ k ih =>
      have hplace : 10 ^ (k + 2) = 10 * 10 ^ (k + 1) := by rw [pow_succ, Nat.mul_comm]
      have hnom : v / 10 ^ (k + 2) = v / 10 / 10 ^ (k + 1) := by
        rw [hplace, Nat.div_div_eq_div_mul]
      have hrest : v % 10 ^ (k + 2) / 10 = v / 10 % 10 ^ (k + 1) := by
        rw [hplace, Nat.mod_mul_right_div_self]
      have hlast : v % 10 ^ (k + 2) % 10 = v % 10 := by
        rw [hplace, Nat.mod_mul_right_mod]
      have hlt : v % 10 ^ (k + 2) < 10 ^ (k + 2) := Nat.mod_lt _ (by positivity)
      rw [places, printPlaces, ih hlt, hrest, hlast, hnom, places, printPlaces]
      -- the first digit of the tenth is that of the number
      cases add with
      | true => simp
      | false =>
          by_cases htop : v / 10 / 10 ^ (k + 1) = 0
          · have hsmall : v / 10 % 10 ^ (k + 1) = v / 10 :=
              Nat.mod_eq_of_lt ((Nat.div_eq_zero_iff_lt (by positivity)).mp htop)
            by_cases h0 : v / 10 = 0 <;> simp [htop, hsmall, h0]
          · have h0 : v / 10 ≠ 0 := fun h => htop (by rw [h, Nat.zero_div])
            simp [htop, h0]

/-- The loops print a number without leading zeros. -/
theorem printPlaces_eq {k v : ℕ} (hv : v < 10 ^ (k + 1)) :
    printPlaces (places k) v false = unsigned v := by
  induction k generalizing v with
  | zero =>
      have hlt : v < 10 := by simpa using hv
      rw [unsigned_eq, if_pos hlt, Nat.mod_eq_of_lt hlt]
      rfl
  | succ k ih =>
      have hdiv : v / 10 < 10 ^ (k + 1) := by
        rw [pow_succ] at hv
        omega
      rw [printPlaces_succ hv, unsigned_eq v, ih hdiv]
      by_cases hlt : v < 10
      · rw [if_pos ⟨rfl, by omega⟩, if_pos hlt]
      · rw [if_neg (by omega), if_neg hlt]

/-- **`sprintf_u32` prints `%u`.** -/
theorem sprintfU32_eq (v : UInt32) : sprintfU32 v = unsigned v.toNat := by
  have hv := v.toNat_lt
  exact printPlaces_eq (by omega)

/-- The value behind the sign is one of 32 bits. -/
theorem s32Magnitude_lt (v : UInt32) : s32Magnitude v < 2 ^ 32 := by
  have hbound : ∀ i : Int32, i.toNatClampNeg < 2 ^ 32 := by
    intro i
    have hi := i.toInt_lt
    rw [Int32.toNatClampNeg]
    omega
  exact hbound _

/-- `sprintf_s32` prints the sign and the value behind it. -/
theorem sprintfS32_eq (v : UInt32) :
    sprintfS32 v = (if v.toInt32 < 0 then [0x2D] else []) ++ unsigned (s32Magnitude v) := by
  have hv := s32Magnitude_lt v
  rw [sprintfS32, printPlaces_eq (by omega)]

/-! ### `GetStrParamValueItem` -/

/-- The decimals of a format, for `NULL` those of `%f`. -/
def precision : Option Format → ℕ
  | some .tenths => 1
  | none => 6

/-- `%u.%u.%u.%u` of the bytes of an address, the last one first. -/
def ipText (m : Mem) (a : UInt32) : List UInt8 :=
  let byte (k : UInt32) := unsigned (m (a + k)).toNat
  byte 3 ++ 0x2E :: (byte 2 ++ 0x2E :: (byte 1 ++ 0x2E :: byte 0))

/-- `GetStrParamValueItem`. A text is copied up to the last byte of its variable, whose
place is taken by the terminator. -/
def getStrParamValueItem (param : SectionParam) (m : Mem) : List UInt8 :=
  if param.data = 0 then []
  else match param.type with
    | .u64 => unsigned (m.load64 param.data).toNat
    | .bool | .u32 | .enum | .bitmsk => sprintfU32 (m.load32 param.data)
    | .s32 => sprintfS32 (m.load32 param.data)
    | .hex => hexWord (m.load32 param.data).toNat
    | .oid | .str => m.cstr param.data (param.dSize.toNat - 1)
    | .float => fixed (precision param.format) (m.load32 param.data)
    | .ip => ipText m param.data
    | .inc | .na => []

/-- The width of a value: its digits, those of its parts, or the characters of its text. -/
def valueWidth (param : SectionParam) (m : Mem) : ℕ :=
  if param.data = 0 then 0
  else match param.type with
    | .u64 => unsignedWidth (m.load64 param.data).toNat
    | .bool | .u32 | .enum | .bitmsk => unsignedWidth (m.load32 param.data).toNat
    | .s32 =>
        (if (m.load32 param.data).toInt32 < 0 then 1 else 0) +
          unsignedWidth (s32Magnitude (m.load32 param.data))
    | .hex => 8
    | .oid | .str => (m.cstr param.data (param.dSize.toNat - 1)).length
    | .float => fixedWidth (precision param.format) (m.load32 param.data)
    | .ip => ((List.range 4).map fun k =>
        unsignedWidth (m (param.data + UInt32.ofNat k)).toNat).sum + 3
    | .inc | .na => 0

variable {param : SectionParam} {m : Mem}

/-- A format has decimals. -/
theorem precision_pos (f : Option Format) : 0 < precision f := by
  rcases f with _ | _ <;> simp [precision]

/-- **The width of a printed value.** -/
theorem getStrParamValueItem_length :
    (getStrParamValueItem param m).length = valueWidth param m := by
  rw [getStrParamValueItem, valueWidth]
  split
  · rfl
  cases param.type with
  | u64 => exact unsigned_length _
  | bool | u32 | enum | bitmsk => rw [sprintfU32_eq, unsigned_length]
  | s32 =>
      rw [sprintfS32_eq, List.length_append, unsigned_length]
      split <;> rfl
  | hex => exact hexWord_length _
  | oid | str => rfl
  | float => exact fixed_length (precision_pos _)
  | ip =>
      simp only [ipText, List.length_append, List.length_cons, unsigned_length]
      simp [List.range_succ]
      omega
  | inc | na => rfl

/-- **How wide a value can be**: a text fills its variable but for the terminator, and no
number takes more than 47 characters. -/
theorem valueWidth_le {n : ℕ}
    (hsize : param.type = .str ∨ param.type = .oid → param.dSize.toNat ≤ n) :
    valueWidth param m ≤ max 47 (n - 1) := by
  have hunsigned : ∀ n : ℕ, n < 2 ^ 64 → unsignedWidth n ≤ 20 := fun n hn =>
    (unsignedWidth_le_iff (by omega)).mpr (by omega)
  rw [valueWidth]
  split
  · omega
  cases htype : param.type with
  | u64 => exact le_max_of_le_left ((hunsigned _ (UInt64.toNat_lt _)).trans (by omega))
  | bool | u32 | enum | bitmsk =>
      have hv := (m.load32 param.data).toNat_lt
      exact le_max_of_le_left ((hunsigned _ (by omega)).trans (by omega))
  | s32 =>
      have hv := s32Magnitude_lt (m.load32 param.data)
      have hwidth := hunsigned _ (show s32Magnitude (m.load32 param.data) < 2 ^ 64 by omega)
      refine le_max_of_le_left ?_
      dsimp only
      split <;> omega
  | hex => exact le_max_of_le_left (show 8 ≤ 47 by omega)
  | oid | str =>
      have hfits := hsize (by simp [htype])
      have hlen := cstr_length_le m param.data (param.dSize.toNat - 1)
      exact le_max_of_le_right (hlen.trans (by omega))
  | float =>
      refine le_max_of_le_left ((fixedWidth_le (precision_pos _)).trans ?_)
      rcases param.format with _ | _ <;> simp [precision]
  | ip =>
      have hbyte : ∀ a : UInt32, unsignedWidth (m a).toNat ≤ 3 := fun a =>
        (unsignedWidth_le_iff (by omega)).mpr (lt_trans (m a).toNat_lt (by omega))
      refine le_max_of_le_left ?_
      simp only [List.range_succ, List.range_zero, List.nil_append, List.cons_append,
        List.map_cons, List.map_nil, List.sum_cons, List.sum_nil]
      have h0 := hbyte (param.data + UInt32.ofNat 0)
      have h1 := hbyte (param.data + UInt32.ofNat 1)
      have h2 := hbyte (param.data + UInt32.ofNat 2)
      have h3 := hbyte (param.data + UInt32.ofNat 3)
      omega
  | inc | na => exact Nat.zero_le _

end Muxponder
