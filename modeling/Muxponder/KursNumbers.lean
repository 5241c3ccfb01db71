import Mathlib.Data.List.TakeWhile
import Muxponder.KursPrint
import Muxponder.KursSetParam

/-!
# What the Number Parsers Accept

`StrToU32`, `StrToU32Def` and `Str4HexToU16` on any string. Each of them has a guard against
overflow that looks at the next character whatever it is, and two of them pass over any character
in front of the first digit, the terminator included. So each differs from the parser that it is
meant to be, and it is said here where.

A parser that reads behind the terminator depends on what stands there; where nothing does, it has
no result.

## Main results

* `strToU32_digits`, `scan_literal`: what the parsers make of digits, and of a string.
* `strToU32_exact_iff`, `strToU32Def_exact_iff`, `str4HexToU16_exact_iff`: the strings that are
  parsed as they should be.
* `strToU32_sprintfU32_iff`: the one number that does not read back.
-/

namespace Muxponder

open Digits CString Printf

/-! ### Strings and the digits in them -/

/-- The digits that a string starts with. -/
def leadingDigits (s : List UInt8) : List UInt8 := s.takeWhile isDigit

/-- The character behind them, which is the terminator where there is none. -/
def behindDigits (s : List UInt8) : UInt8 := (s.dropWhile isDigit).headD 0

/-- A string without the blanks it starts with. -/
def behindBlanks (s : List UInt8) : List UInt8 := s.dropWhile (· = 0x20)

/-- A string from its first digit on. -/
def fromDigit (s : List UInt8) : List UInt8 := s.dropWhile fun ch => !isDigit ch

/-- The number that a string is, behind its blanks: its digits, if there are any. -/
def literal (s : List UInt8) : Option ℕ :=
  let ds := leadingDigits (behindBlanks s)
  if ds = [] then none else some (decimal ds)

variable {s ds rest : List UInt8} {c ch : UInt8} {dflt : UInt32}

/-- The leading digits are digits. -/
theorem leadingDigits_digits : ∀ ch ∈ leadingDigits s, (decValue ch).isSome = true := by
  intro ch hch
  have hdigit : isDigit ch = true := List.mem_takeWhile_imp hch
  exact hdigit

/-- A terminated string is its leading digits, and what stands behind them is none. -/
theorem split_leadingDigits : decValue (behindDigits s) = none ∧
    ∃ rest', s ++ 0 :: rest = leadingDigits s ++ behindDigits s :: rest' := by
  have hsplit : leadingDigits s ++ s.dropWhile isDigit = s := List.takeWhile_append_dropWhile
  cases hs : s.dropWhile isDigit with
  | nil =>
      rw [hs, List.append_nil] at hsplit
      rw [behindDigits, hs, hsplit]
      exact ⟨rfl, rest, rfl⟩
  | cons c tail =>
      have hc : ¬ isDigit c = true := by
        have hhead := List.head_dropWhile_not isDigit (l := s) (by simp [hs])
        simpa [hs] using hhead
      rw [behindDigits, hs]
      refine ⟨by simpa [isDigit] using hc, tail ++ 0 :: rest, ?_⟩
      rw [hs] at hsplit
      exact (congrArg (· ++ 0 :: rest) hsplit).symm.trans (by simp)

/-- Up to nine digits are read without more ado. -/
theorem scan_nine {S : Scanner} {es t : List UInt8} (hdigit : S.digit = decValue)
    (hbase : S.base = 10) (hwidth : S.width = 32)
    (hov : ∀ n < 10 ^ 8, ∀ ch, S.overflow n ch = false) (hmax : ∀ m ∈ S.maxDigits, 9 < m)
    (hes : IsDecimal es) (hlen : es.length ≤ 9) :
    S.scan 0 0 false (es ++ t) = S.scan (decimal es) es.length true t := by
  have hclear : ∀ pre ch post, es = pre ++ ch :: post →
      S.overflow (value S.digit S.base 0 pre) ch = false ∧
        value S.digit S.base 0 (pre ++ [ch]) < 2 ^ S.width ∧
        ∀ m ∈ S.maxDigits, 0 + pre.length < m := by
    rintro pre ch post rfl
    rw [List.length_append, List.length_cons] at hlen
    rw [hdigit, hbase, hwidth]
    have hpre : decimal pre < 10 ^ 8 :=
      decimal_lt.trans_le (Nat.pow_le_pow_right (by omega) (by omega))
    have hone : decimal (pre ++ [ch]) < 10 ^ 9 := by
      refine decimal_lt.trans_le (Nat.pow_le_pow_right (by omega) ?_)
      rw [List.length_append, List.length_singleton]
      omega
    refine ⟨hov _ hpre ch, lt_trans hone (by norm_num), fun m hm => ?_⟩
    have hm := hmax m hm
    omega
  have hblank : S.digit 0x20 = none := by
    rw [hdigit]
    rfl
  have hall : ∀ ch ∈ es, (S.digit ch).isSome = true := by
    rw [hdigit]
    exact hes.2
  rw [Scanner.scan_digits hblank hall hclear (Or.inr hes.1), hdigit, hbase, Nat.zero_add]

/-! ### `StrToU32` -/

/-- The digits that `StrToU32` rejects, with the character behind them: too many, too large with
the first nine at its limit, or brought to that limit with a character behind them that compares
above `'5'`. -/
def U32Rejects (ds : List UInt8) (c : UInt8) : Prop :=
  10 < ds.length ∨ (2 ^ 32 ≤ decimal ds ∧ decimal ds / 10 = 429496729) ∨
    (decimal ds % 2 ^ 32 = 429496729 ∧ fromSix c = true)

instance : Decidable (U32Rejects ds c) := inferInstanceAs (Decidable (_ ∨ _ ∨ _))

/-- A digit that compares above `'5'` is six at least. -/
theorem fromSix_digit {d : ℕ} (hd : decValue ch = some d) : fromSix ch = true ↔ 6 ≤ d := by
  obtain ⟨hlt, hch⟩ := decValue_lt hd
  simp only [fromSix, UInt8.le_iff_toNat_le, UInt8.lt_iff_toNat_lt, UInt8.reduceToNat, hch,
    decide_eq_true_eq]
  omega

/-- One more digit. -/
theorem decimal_snoc {d : ℕ} (hd : decValue ch = some d) :
    decimal (ds ++ [ch]) = decimal ds * 10 + d := by
  rw [decimal, value_append]
  simp [value, hd]

/-- `StrToU32` ends behind the digits, unless their number has come to its limit and the character
there compares above `'5'`. -/
theorem strToU32_stop {tm cnt : ℕ} (hc : decValue c = none) :
    strToU32Scanner.scan tm cnt true (c :: rest) =
      if tm = 429496729 ∧ fromSix c = true then some none else some (some tm) := by
  have hguard : strToU32Scanner.overflow tm c = decide (tm = 429496729 ∧ fromSix c = true) := by
    simp [strToU32Scanner]
  have hdigit : strToU32Scanner.digit c = none := hc
  rw [Scanner.scan, hguard]
  simp [hdigit]

/-- It reads up to nine digits. -/
theorem strToU32_nine {es t : List UInt8} (hes : IsDecimal es) (hlen : es.length ≤ 9) :
    strToU32Scanner.scan 0 0 false (es ++ t) =
      strToU32Scanner.scan (decimal es) es.length true t := by
  refine scan_nine rfl rfl rfl (fun n hn ch => ?_) (by simp [strToU32Scanner]) hes hlen
  have hne : n ≠ 429496729 := by omega
  simp [strToU32Scanner, hne]

/-- The tenth digit is rejected where it takes the limit past 32 bits, and read modulo `2 ^ 32`
elsewhere. -/
theorem strToU32_tenth {tm d : ℕ} {t : List UInt8} (hd : decValue ch = some d) :
    strToU32Scanner.scan tm 9 true (ch :: t) =
      if tm = 429496729 ∧ 6 ≤ d then some none
      else strToU32Scanner.scan ((tm * 10 + d) % 2 ^ 32) 10 true t := by
  have hguard : strToU32Scanner.overflow tm ch = decide (tm = 429496729 ∧ 6 ≤ d) := by
    simp [strToU32Scanner, ← fromSix_digit hd]
  by_cases hfull : tm = 429496729 ∧ 6 ≤ d
  · rw [Scanner.scan, hguard, if_pos (decide_eq_true hfull), if_pos hfull]
  · have hlimit : ∀ m ∈ strToU32Scanner.maxDigits, 9 < m := by simp [strToU32Scanner]
    have hblank : ch ≠ 0x20 := by
      rintro rfl
      cases hd
    rw [Scanner.scan_digit (hguard.trans (decide_eq_false hfull)) hblank hd hlimit, if_neg hfull]
    rfl

/-- The eleventh is always rejected. -/
theorem strToU32_eleventh {tm d : ℕ} {t : List UInt8} (hd : decValue ch = some d) :
    strToU32Scanner.scan tm 10 true (ch :: t) = some none := by
  have hdigit : strToU32Scanner.digit ch = some d := hd
  have hlimit : ∃ m ∈ strToU32Scanner.maxDigits, m < 10 + 1 := ⟨10, rfl, by omega⟩
  rw [Scanner.scan]
  simp only [hdigit, if_pos hlimit]
  simp

/-- More than nine digits are nine, and at least one behind them. -/
theorem exists_tenth (h : 9 < ds.length) :
    ∃ es ch more, ds = es ++ ch :: more ∧ es.length = 9 :=
  ⟨ds.take 9, ds[9], ds.drop 10, by rw [List.cons_getElem_drop_succ, List.take_append_drop],
    by rw [List.length_take]; omega⟩

/-- **What `StrToU32` makes of digits.** -/
theorem strToU32_digits (hds : IsDecimal ds) (hc : decValue c = none) :
    strToU32Scanner.scan 0 0 false (ds ++ c :: rest) =
      if U32Rejects ds c then some none else some (some (decimal ds % 2 ^ 32)) := by
  rcases Nat.lt_or_ge 9 ds.length with hmany | hfew
  · obtain ⟨es, ch, more, rfl, hnine⟩ := exists_tenth hmany
    have hes : IsDecimal es :=
      ⟨List.ne_nil_of_length_eq_add_one hnine, fun x hx => hds.2 x (List.mem_append_left _ hx)⟩
    have hlt : decimal es < 10 ^ 9 := hnine ▸ decimal_lt
    obtain ⟨d, hd⟩ := Option.isSome_iff_exists.mp (hds.2 ch (by simp))
    have hd10 := (decValue_lt hd).1
    rw [List.append_assoc, List.cons_append, strToU32_nine hes hnine.le, hnine, strToU32_tenth hd]
    rcases more with _ | ⟨ch', more⟩
    · -- ten digits: the guard in front of the last is that of the number in front of the rest
      have hten : ¬ 10 < (es ++ [ch]).length := by simp [hnine]
      have hlarge : 2 ^ 32 ≤ decimal es * 10 + d ∧ (decimal es * 10 + d) / 10 = 429496729 ↔
          decimal es = 429496729 ∧ 6 ≤ d := by omega
      rw [List.nil_append, strToU32_stop hc]
      simp only [U32Rejects, decimal_snoc hd, hten, hlarge, false_or]
      by_cases hfull : decimal es = 429496729 ∧ 6 ≤ d
      · rw [if_pos hfull, if_pos (Or.inl hfull)]
      · rw [if_neg hfull]
        simp only [hfull, false_or]
    · obtain ⟨d', hd'⟩ := Option.isSome_iff_exists.mp (hds.2 ch' (by simp))
      have hrejects : U32Rejects (es ++ ch :: ch' :: more) c := by
        left
        simp only [List.length_append, List.length_cons]
        omega
      rw [if_pos hrejects, List.cons_append, strToU32_eleventh hd', ite_self]
  · have hlt : decimal ds < 10 ^ 9 :=
      decimal_lt.trans_le (Nat.pow_le_pow_right (by omega) hfew)
    have hten : ¬ 10 < ds.length := by omega
    have hsmall : ¬ 2 ^ 32 ≤ decimal ds := by omega
    have hmod : decimal ds % 2 ^ 32 = decimal ds := Nat.mod_eq_of_lt (by omega)
    rw [strToU32_nine hds hfew, strToU32_stop hc]
    simp only [U32Rejects, hten, hsmall, hmod, false_and, false_or]

/-- **A printed number reads back in front of a semicolon**, but for the one at the limit of the
guard. -/
theorem strToU32_sprintfU32_iff (v : UInt32) (rest : List UInt8) :
    strToU32 (sprintfU32 v ++ 0x3B :: rest) = some (some v) ↔ v ≠ 429496729 := by
  have hlt := v.toNat_lt
  have hfew : ¬ 10 < (unsigned v.toNat).length := by
    rw [unsigned_length, not_lt, unsignedWidth_le_iff (by omega)]
    omega
  have hsmall : ¬ 2 ^ 32 ≤ v.toNat := by omega
  have hrejects : U32Rejects (unsigned v.toNat) 0x3B ↔ v = 429496729 := by
    have hsix : fromSix 0x3B = true := rfl
    simp only [U32Rejects, hfew, hsmall, hsix, decimal_unsigned, Nat.mod_eq_of_lt hlt, false_and,
      false_or, and_true]
    exact ⟨fun h => UInt32.toNat_inj.mp h, fun h => congrArg UInt32.toNat h⟩
  rw [strToU32, sprintfU32_eq, strToU32_digits (isDecimal_unsigned _) rfl, decimal_unsigned,
    Nat.mod_eq_of_lt hlt]
  by_cases hv : v = 429496729
  · rw [if_pos (hrejects.mpr hv)]
    simp [hv]
  · rw [if_neg (mt hrejects.mp hv)]
    simp [hv]

/-- The number is rejected. -/
theorem strToU32_limit_rejected :
    sprintfU32 429496729 = ascii "429496729" ∧
    strToU32 (sprintfU32 429496729 ++ 0x3B :: [0x0D, 0]) = some none ∧
    ¬ ∀ v rest, strToU32 (sprintfU32 v ++ 0x3B :: rest) = some (some v) := by
  have hnone : strToU32 (sprintfU32 429496729 ++ 0x3B :: [0x0D, 0]) = some none := rfl
  refine ⟨rfl, hnone, fun h => ?_⟩
  rw [h 429496729] at hnone
  cases hnone

/-- A number below the limit. -/
def u32Literal (s : List UInt8) : Option UInt32 :=
  ((literal s).filter (· < 2 ^ 32)).map UInt32.ofNat

theorem u32_filter {n : ℕ} : ((some n).filter (· < 2 ^ 32)).map UInt32.ofNat =
    if 2 ^ 32 ≤ n then none else some (UInt32.ofNat n) := by
  by_cases hlarge : 2 ^ 32 ≤ n
  · rw [if_pos hlarge, Option.filter_some, if_neg (by simpa using hlarge)]
    rfl
  · rw [if_neg hlarge, Option.filter_some, if_pos (by simpa using hlarge)]
    rfl

/-- `StrToU32` parses a string as it should, whatever stands behind its terminator. -/
def StrToU32Exact (s : Str) : Prop :=
  ∀ rest, strToU32 (s.mem rest) = some (u32Literal s.chars)

/-- What stands in front of the first digit is none. -/
theorem split_fromDigit : ∃ junk, s = junk ++ fromDigit s ∧ ∀ ch ∈ junk, decValue ch = none := by
  refine ⟨s.takeWhile fun ch => !isDigit ch, List.takeWhile_append_dropWhile.symm, ?_⟩
  intro ch hch
  have hdigit : (!isDigit ch) = true := List.mem_takeWhile_imp (p := fun ch => !isDigit ch) hch
  simpa [isDigit] using hdigit

/-- A string has leading digits from its first digit on, if it has one. -/
theorem leadingDigits_fromDigit : leadingDigits (fromDigit s) = [] ↔ fromDigit s = [] := by
  cases ht : fromDigit s with
  | nil => simp [leadingDigits]
  | cons ch tail =>
      have hdrop : s.dropWhile (fun ch => !isDigit ch) = ch :: tail := ht
      have hhead := List.head_dropWhile_not (fun ch => !isDigit ch) (l := s) (by simp [hdrop])
      have hdigit : isDigit ch = true := by simpa [hdrop] using hhead
      simp [leadingDigits, hdigit]

/-- A string is a number where nothing but blanks stands in front of its first digit. -/
theorem literal_eq : literal s =
    if fromDigit s = behindBlanks s ∧ leadingDigits (fromDigit s) ≠ [] then
      some (decimal (leadingDigits (fromDigit s)))
    else none := by
  induction s with
  | nil => rfl
  | cons ch s ih =>
      by_cases hblank : ch = 0x20
      · have hdigit : isDigit ch = false := by
          rw [hblank]
          rfl
        have hskip : behindBlanks (ch :: s) = behindBlanks s ∧
            fromDigit (ch :: s) = fromDigit s := by
          simp [behindBlanks, fromDigit, hblank, hblank ▸ hdigit]
        rw [literal, hskip.1, hskip.2, ← ih, literal]
      · have hstay : behindBlanks (ch :: s) = ch :: s := by simp [behindBlanks, hblank]
        rw [literal, hstay]
        by_cases hdigit : isDigit ch = true
        · have hfrom : fromDigit (ch :: s) = ch :: s := by simp [fromDigit, hdigit]
          rw [hfrom]
          simp
        · have hnone : leadingDigits (ch :: s) = [] := by simp [leadingDigits, hdigit]
          have hfrom : fromDigit (ch :: s) ≠ ch :: s := by
            intro heq
            have hdigits := leadingDigits_fromDigit (s := ch :: s)
            rw [heq] at hdigits
            simp [hnone] at hdigits
          simp [hnone, hfrom]

/-- `StrToU32` on a string with a digit. -/
theorem strToU32_eq (hdigit : fromDigit s ≠ []) : strToU32 (s ++ 0 :: rest) =
    if U32Rejects (leadingDigits (fromDigit s)) (behindDigits (fromDigit s)) then some none
    else some (some (UInt32.ofNat (decimal (leadingDigits (fromDigit s))))) := by
  obtain ⟨junk, hs, hjunk⟩ := split_fromDigit (s := s)
  obtain ⟨hc, rest', hrest'⟩ := (split_leadingDigits : _ ∧ ∃ rest', fromDigit s ++ 0 :: rest = _)
  have hmem : s ++ 0 :: rest = junk ++ (leadingDigits (fromDigit s) ++
      behindDigits (fromDigit s) :: rest') := by
    rw [← hrest', ← List.append_assoc, ← hs]
  have hds : IsDecimal (leadingDigits (fromDigit s)) :=
    ⟨mt leadingDigits_fromDigit.mp hdigit, leadingDigits_digits⟩
  rw [strToU32, hmem, Scanner.scan_skip rfl (fun _ _ => rfl) hjunk, strToU32_digits hds hc]
  split
  · rfl
  · rw [Option.map_some, Option.map_some, UInt32.ofNat_mod_size]

/-- On a string without a digit it reads behind the terminator. -/
theorem strToU32_none (hdigit : fromDigit s = []) : strToU32 (s ++ [0]) = none := by
  obtain ⟨junk, hs, hjunk⟩ := split_fromDigit (s := s)
  rw [hdigit, List.append_nil] at hs
  subst hs
  have hskip : ∀ ch ∈ s ++ [0], decValue ch = none := by
    intro ch hch
    rcases List.mem_append.mp hch with h | h
    · exact hjunk ch h
    · rw [List.mem_singleton.mp h]
      rfl
  rw [strToU32, ← List.append_nil (s ++ [0]), Scanner.scan_skip rfl (fun _ _ => rfl) hskip]
  rfl

/-- Two ways to reject a number agree. -/
theorem rejects_iff {α : Type} {p q : Prop} [Decidable p] [Decidable q] {v : α} :
    (if p then some none else some (some v)) = some (if q then none else some v) ↔ (p ↔ q) := by
  by_cases hp : p <;> by_cases hq : q <;> simp [hp, hq]

/-- **The strings that `StrToU32` parses as it should**: those with a digit whose first digits it
rejects exactly where something else than blanks is in front of them or their value takes more
than 32 bits. -/
theorem strToU32_exact_iff (s : Str) : StrToU32Exact s ↔
    fromDigit s.chars ≠ [] ∧
      (U32Rejects (leadingDigits (fromDigit s.chars)) (behindDigits (fromDigit s.chars)) ↔
        fromDigit s.chars ≠ behindBlanks s.chars ∨
          2 ^ 32 ≤ decimal (leadingDigits (fromDigit s.chars))) := by
  by_cases hdigit : fromDigit s.chars = []
  · refine iff_of_false (fun hexact => ?_) fun h => h.1 hdigit
    have hnone := strToU32_none hdigit
    rw [← Str.mem, hexact []] at hnone
    cases hnone
  · have hdigits : leadingDigits (fromDigit s.chars) ≠ [] :=
      mt leadingDigits_fromDigit.mp hdigit
    have hliteral : u32Literal s.chars =
        if fromDigit s.chars ≠ behindBlanks s.chars ∨
            2 ^ 32 ≤ decimal (leadingDigits (fromDigit s.chars)) then none
        else some (UInt32.ofNat (decimal (leadingDigits (fromDigit s.chars)))) := by
      rw [u32Literal, literal_eq]
      by_cases hblanks : fromDigit s.chars = behindBlanks s.chars
      · rw [if_pos ⟨hblanks, hdigits⟩, u32_filter]
        simp only [ne_eq, hblanks, not_true_eq_false, false_or]
      · rw [if_neg fun h => hblanks h.1, if_pos (Or.inl hblanks)]
        rfl
    rw [StrToU32Exact, hliteral]
    simp only [Str.mem, strToU32_eq hdigit, forall_const, rejects_iff]
    exact (and_iff_right hdigit).symm

/-- A number behind a letter is accepted, one of ten digits wraps around, and without a digit the
parser reads behind the terminator. -/
theorem strToU32_not_exact :
    (∀ s : Str, s.chars = ascii "x7" → ¬ StrToU32Exact s) ∧
    (∀ s : Str, s.chars = ascii "4294967300" → ¬ StrToU32Exact s) ∧
    (∀ s : Str, s.chars = ascii "no" → ¬ StrToU32Exact s) ∧ ∃ s : Str, ¬ StrToU32Exact s := by
  have hletter : ∀ s : Str, s.chars = ascii "x7" → ¬ StrToU32Exact s := by
    intro s hs hexact
    have hread := hexact []
    rw [Str.mem, hs] at hread
    exact absurd hread (by decide)
  have hwrap : ∀ s : Str, s.chars = ascii "4294967300" → ¬ StrToU32Exact s := by
    intro s hs hexact
    have hread := hexact []
    rw [Str.mem, hs] at hread
    exact absurd hread (by decide)
  have hbehind : ∀ s : Str, s.chars = ascii "no" → ¬ StrToU32Exact s := by
    intro s hs hexact
    have hread := hexact []
    rw [Str.mem, hs] at hread
    exact absurd hread (by decide)
  exact ⟨hletter, hwrap, hbehind, ⟨ascii "x7", by decide⟩, hletter _ rfl⟩

/-! ### `StrToU32Def` -/

/-- The numbers that `StrToU32Def` gives up on, with the character behind them. -/
def U32DefRejects (n : ℕ) (c : UInt8) : Prop :=
  429496729 < n ∨ (n = 429496729 ∧ fromSix c = true)

instance {n : ℕ} : Decidable (U32DefRejects n c) := inferInstanceAs (Decidable (_ ∨ _))

/-- The guard of `StrToU32Def`. -/
theorem strToU32Def_guarded : strToU32DefScanner.Guarded U32DefRejects where
  base_pos := by decide
  blank := rfl
  unlimited := rfl
  overflow_iff n ch := by simp [strToU32DefScanner, U32DefRejects]
  kept n ch d m c hd hrejects hm := by
    have hm : n * 10 + d ≤ m := hm
    left
    rcases hrejects with hlarge | ⟨rfl, -⟩ <;> omega
  fits n ch d hd hpass := by
    have hd10 := (decValue_lt hd).1
    have hsix := fromSix_digit hd
    change n * 10 + d < 2 ^ 32
    rw [U32DefRejects, hsix] at hpass
    omega

/-- `StrToU32Def` parses a string as it should, whatever stands behind its terminator: the number
it starts with, if that takes no more than 32 bits, and the default otherwise. -/
def StrToU32DefExact (s : Str) (dflt : UInt32) : Prop :=
  ∀ rest, strToU32Def (s.mem rest) dflt = some ((u32Literal s.chars).getD dflt)

/-- The blanks are passed over. -/
theorem split_behindBlanks : ∃ blanks, s = blanks ++ behindBlanks s ∧ ∀ ch ∈ blanks, ch = 0x20 := by
  refine ⟨s.takeWhile (· = 0x20), List.takeWhile_append_dropWhile.symm, ?_⟩
  intro ch hch
  have hblank := List.mem_takeWhile_imp hch
  simpa using hblank

/-- What stands behind the blanks is no blank. -/
theorem behindBlanks_ne (hds : leadingDigits (behindBlanks s) = []) :
    behindDigits (behindBlanks s) ≠ 0x20 := by
  cases hs : behindBlanks s with
  | nil => exact fun h => by cases h
  | cons ch tail =>
      have hdrop : s.dropWhile (· = 0x20) = ch :: tail := hs
      have hhead := List.head_dropWhile_not (· = 0x20) (l := s) (by simp [hdrop])
      have hblank : ch ≠ 0x20 := by simpa [hdrop] using hhead
      have hdigit : isDigit ch = false := by
        rw [hs] at hds
        by_contra h
        simp [leadingDigits, h] at hds
      simpa [behindDigits, hdigit] using hblank

/-- **A guarded scanner on a string**: it reads the digits behind the blanks, if there are any. -/
theorem scan_literal {S : Scanner} {R : ℕ → UInt8 → Prop} [∀ n ch, Decidable (R n ch)]
    (hS : S.Guarded R) (hdigit : S.digit = decValue) (hbase : S.base = 10)
    (hskips : S.skips = false) (hstart : ¬ R 0 0x20) : S.scan 0 0 false (s ++ 0 :: rest) =
      some (if leadingDigits (behindBlanks s) = [] ∨
          R (decimal (leadingDigits (behindBlanks s))) (behindDigits (behindBlanks s)) then none
        else some (decimal (leadingDigits (behindBlanks s)))) := by
  obtain ⟨blanks, hs, hblanks⟩ := split_behindBlanks (s := s)
  obtain ⟨hc, rest', hrest'⟩ := (split_leadingDigits : _ ∧ ∃ rest', behindBlanks s ++ 0 :: rest = _)
  have hmem : s ++ 0 :: rest = blanks ++ (behindBlanks s ++ 0 :: rest) := by
    rw [← List.append_assoc, ← hs]
  have hfirst : S.overflow 0 0x20 = false :=
    Bool.eq_false_iff.mpr (mt (hS.overflow_iff 0 0x20).mp hstart)
  rw [← hdigit] at hc
  rw [hmem, Scanner.scan_blanks hfirst hblanks]
  by_cases hds : leadingDigits (behindBlanks s) = []
  · rw [if_pos (Or.inl hds)]
    refine Scanner.scan_eq_none hskips hc (?_ : _ = behindDigits (behindBlanks s) :: rest')
    rw [hrest', hds, List.nil_append, List.dropWhile_cons_of_neg]
    simpa using behindBlanks_ne hds
  · have hdigits : ∀ ch ∈ leadingDigits (behindBlanks s), (S.digit ch).isSome = true := by
      rw [hdigit]
      exact leadingDigits_digits
    rw [hrest', hS.scan_digits hdigits hc (Or.inr hds), hdigit, hbase]
    simp only [hds, false_or]
    split <;> rfl

/-- `StrToU32Def` on a string. -/
theorem strToU32Def_eq : strToU32Def (s ++ 0 :: rest) dflt =
    some (if leadingDigits (behindBlanks s) = [] ∨
        U32DefRejects (decimal (leadingDigits (behindBlanks s))) (behindDigits (behindBlanks s))
        then dflt
      else UInt32.ofNat (decimal (leadingDigits (behindBlanks s)))) := by
  rw [strToU32Def, scan_literal strToU32Def_guarded rfl rfl rfl (by decide), Option.map_some]
  split <;> rfl

/-- **The strings that `StrToU32Def` parses as it should**: where it gives up on a number that takes
no more than 32 bits, the default has to be that number. -/
theorem strToU32Def_exact_iff (s : Str) (dflt : UInt32) : StrToU32DefExact s dflt ↔
    leadingDigits (behindBlanks s.chars) = [] ∨
      2 ^ 32 ≤ decimal (leadingDigits (behindBlanks s.chars)) ∨
      ¬ U32DefRejects (decimal (leadingDigits (behindBlanks s.chars)))
        (behindDigits (behindBlanks s.chars)) ∨
      dflt.toNat = decimal (leadingDigits (behindBlanks s.chars)) := by
  simp only [StrToU32DefExact, Str.mem, strToU32Def_eq, forall_const, Option.some.injEq, u32Literal,
    literal]
  by_cases hds : leadingDigits (behindBlanks s.chars) = []
  · simp [hds]
  obtain ⟨n, hn⟩ : ∃ n, decimal (leadingDigits (behindBlanks s.chars)) = n := ⟨_, rfl⟩
  simp only [hds, hn, if_false, false_or]
  rw [u32_filter]
  by_cases hlarge : 2 ^ 32 ≤ n
  · have hrejects : U32DefRejects n (behindDigits (behindBlanks s.chars)) := by
      left
      omega
    rw [if_pos hrejects, if_pos hlarge]
    exact iff_of_true rfl (Or.inl hlarge)
  · have hvalue : (UInt32.ofNat n).toNat = n := UInt32.toNat_ofNat_of_lt' (not_le.mp hlarge)
    by_cases hrejects : U32DefRejects n (behindDigits (behindBlanks s.chars))
    · rw [if_pos hrejects, if_neg hlarge, Option.getD_some, ← UInt32.toNat_inj, hvalue]
      tauto
    · rw [if_neg hrejects, if_neg hlarge]
      exact iff_of_true rfl (Or.inr (Or.inl hrejects))

/-- The largest number of 32 bits is not read. -/
theorem strToU32Def_not_exact :
    strToU32Def (ascii "4294967295;" ++ [0]) 7 = some 7 ∧
    ∃ s : Str, s.chars = ascii "4294967295;" ∧ ¬ StrToU32DefExact s 7 := by
  have hread : strToU32Def (ascii "4294967295;" ++ [0]) 7 = some 7 := rfl
  refine ⟨hread, ⟨ascii "4294967295;", by decide⟩, rfl, fun hexact => ?_⟩
  have hvalue := hexact []
  rw [Str.mem, hread] at hvalue
  exact absurd hvalue (by decide)

/-! ### `Str4HexToU16` -/

/-- A request of the reprogramming that is long enough to have a checksum, without its end. -/
structure CrcFrame where
  chars : List UInt8
  length_le : 6 ≤ chars.length
  noEnd : 0x0D ∉ chars
  noNul : 0 ∉ chars

/-- The frame in memory, with its end and what stands behind that. -/
def CrcFrame.mem (f : CrcFrame) (rest : List UInt8) : List UInt8 := f.chars ++ 0x0D :: 0 :: rest

/-- Its last four characters. -/
def CrcFrame.crc (f : CrcFrame) : List UInt8 := f.chars.drop (f.chars.length - 4)

/-- `Str4HexToU16` parses the checksum of a frame as it should: at its place, found by its end, it
reads four hexadecimal digits as their value and nothing else, whatever stands behind the frame. -/
def CrcFrame.Exact (f : CrcFrame) : Prop :=
  ∀ rest, ∃ dwLen, strchr 0x0D (f.mem rest) = some (some dwLen) ∧
    str4HexToU16 ((f.mem rest).drop (dwLen - 4)) =
      some ((readHex 4 0 f.crc).map UInt16.ofNat)

/-- The last characters of a frame are four. -/
theorem crc_length (f : CrcFrame) : f.crc.length = 4 := by
  have hlen := f.length_le
  rw [CrcFrame.crc, List.length_drop]
  omega

/-- The parser starts at them. -/
theorem crc_place (f : CrcFrame) : strchr 0x0D (f.mem rest) = some (some f.chars.length) ∧
    (f.mem rest).drop (f.chars.length - 4) = f.crc ++ 0x0D :: 0 :: rest := by
  refine ⟨strchr_append f.noEnd f.noNul, ?_⟩
  rw [CrcFrame.mem, List.drop_append_of_le_length (by omega)]
  rfl

/-- Up to four characters in front of the end are never rejected. -/
theorem str4HexToU16_taken {tm cnt : ℕ} {detect : Bool} (htm : tm < 16 ^ cnt)
    (hlen : cnt + s.length ≤ 4) :
    str4HexToU16Scanner.scan tm cnt detect (s ++ [0x0D, 0]) ≠ some none := by
  induction s generalizing tm cnt detect with
  | nil =>
      have hend : ∀ ch < 0x36, str4HexToU16Scanner.overflow tm ch = false := fun ch hch =>
        str4HexToU16_overflow (Or.inr hch)
      have hcr : str4HexToU16Scanner.digit 0x0D = none := rfl
      have hnul : str4HexToU16Scanner.digit 0 = none := rfl
      have hskips : str4HexToU16Scanner.skips = true := rfl
      cases detect with
      | true =>
          rw [List.nil_append, Scanner.scan_stop (hend _ (by decide)) hcr]
          simp
      | false =>
          simp [Scanner.scan, hend 0x0D (by decide), hend 0 (by decide), hcr, hnul, hskips]
  | cons ch s ih =>
      rw [List.length_cons] at hlen
      have hguard : str4HexToU16Scanner.overflow tm ch = false := str4HexToU16_overflow
        (Or.inl (htm.trans_le (Nat.pow_le_pow_right (by omega) (by omega))))
      rw [List.cons_append, Scanner.scan, hguard, if_neg (by simp)]
      split
      · exact ih htm (by omega)
      split
      next d hd =>
        have hd16 : d < 16 := hexValue_lt hd
        have hlimit : ¬ ∃ m ∈ str4HexToU16Scanner.maxDigits, m < cnt + 1 := by
          rintro ⟨m, hm, hlt⟩
          obtain rfl : 5 = m := Option.some.inj hm
          omega
        rw [if_neg hlimit]
        refine ih ?_ (by omega)
        have hle : (tm * 16 + d) % 2 ^ 16 ≤ tm * 16 + d := Nat.mod_le _ _
        calc (tm * 16 + d) % 2 ^ 16 ≤ tm * 16 + d := hle
          _ < 16 ^ cnt * 16 := by omega
          _ = 16 ^ (cnt + 1) := (pow_succ 16 cnt).symm
      next hd =>
        split
        · simp
        · exact ih htm (by omega)

/-- Four hexadecimal digits are read as their value. -/
theorem str4HexToU16_digits (hds : ∀ ch ∈ ds, (hexValue ch).isSome = true) (hlen : ds.length = 4) :
    str4HexToU16 (ds ++ 0x0D :: rest) = some (some (UInt16.ofNat (value hexValue 16 0 ds))) := by
  have hclear : ∀ pre ch post, ds = pre ++ ch :: post →
      str4HexToU16Scanner.overflow (value hexValue 16 0 pre) ch = false ∧
        value hexValue 16 0 (pre ++ [ch]) < 2 ^ 16 ∧
        ∀ m ∈ str4HexToU16Scanner.maxDigits, 0 + pre.length < m := by
    rintro pre ch post rfl
    rw [List.length_append, List.length_cons] at hlen
    refine ⟨str4HexToU16_overflow (Or.inl ?_), ?_, ?_⟩
    · exact hexadecimal_lt.trans_le (Nat.pow_le_pow_right (by omega) (by omega))
    · refine hexadecimal_lt.trans_le (Nat.pow_le_pow_right (by omega : 0 < 16) (?_ : _ ≤ 4))
      rw [List.length_append, List.length_singleton]
      omega
    · intro m hm
      obtain rfl : 5 = m := Option.some.inj hm
      omega
  have hne : ds ≠ [] := by
    rintro rfl
    cases hlen
  have hscan : str4HexToU16Scanner.scan 0 0 false (ds ++ 0x0D :: rest) =
      str4HexToU16Scanner.scan (value hexValue 16 0 ds) (0 + ds.length) true (0x0D :: rest) :=
    Scanner.scan_digits rfl hds hclear (Or.inr hne)
  rw [str4HexToU16, hscan, Scanner.scan_stop (str4HexToU16_overflow (Or.inr (by decide))) rfl]
  rfl

/-- **The frames whose checksum is parsed as it should be**: those that end with four hexadecimal
digits. -/
theorem str4HexToU16_exact_iff (f : CrcFrame) :
    f.Exact ↔ ∀ ch ∈ f.crc, (hexValue ch).isSome = true := by
  have hlen := crc_length f
  constructor
  · intro hexact
    obtain ⟨dwLen, hfound, hread⟩ := hexact []
    obtain rfl : f.chars.length = dwLen := by simpa [(crc_place f).1] using hfound
    rw [(crc_place f).2] at hread
    by_contra hnot
    have hnone : readHex 4 0 f.crc = none := by
      rw [← Option.not_isSome_iff_eq_none, readHex_isSome_iff, List.take_of_length_le (by omega)]
      exact fun h => hnot h.2
    have htaken : str4HexToU16Scanner.scan 0 0 false (f.crc ++ [0x0D, 0]) ≠ some none :=
      str4HexToU16_taken (by omega) (by omega)
    rw [hnone, Option.map_none, str4HexToU16] at hread
    obtain ⟨r, hr, hrnone⟩ := Option.map_eq_some_iff.mp hread
    rw [Option.map_eq_none_iff.mp hrnone] at hr
    exact htaken hr
  · intro hds rest
    refine ⟨_, (crc_place f).1, ?_⟩
    rw [(crc_place f).2, str4HexToU16_digits hds hlen, ← List.append_nil f.crc,
      readHex_eq_value hlen hds, List.append_nil]
    rfl

/-- A frame with a letter in the place of its first digit. -/
def letterFrame : CrcFrame where
  chars := ascii "@CUg12F"
  length_le := by decide
  noEnd := by decide
  noNul := by decide

/-- The three digits behind the letter are accepted, and without any digit the parser reads behind
the end of the frame. -/
theorem str4HexToU16_not_exact :
    str4HexToU16 ((letterFrame.mem []).drop (7 - 4)) = some (some 0x12F) ∧
    str4HexToU16 (ascii "wxyz" ++ [0x0D, 0]) = none ∧ ¬ letterFrame.Exact := by
  have hread : str4HexToU16 ((letterFrame.mem []).drop (7 - 4)) = some (some 0x12F) := rfl
  refine ⟨hread, rfl, fun hexact => ?_⟩
  obtain ⟨dwLen, hfound, hvalue⟩ := hexact []
  obtain rfl : 7 = dwLen := Option.some.inj (Option.some.inj hfound)
  rw [hread] at hvalue
  exact absurd hvalue (by decide)

end Muxponder
