import Muxponder.KursNumbers
import Muxponder.Lib.Region

/-!
# Decimal Numbers, as the Loops Read and Write Them

`StrToU16`, `sprintf_u32` and `sprintf_s32` of `kurs_helper.c` character by character: a scan whose
counter `i` is never advanced, so that its end rests on its guard and on the terminator, and nine
places that are counted by subtraction, each stored behind the one before, with a flag that is set
at the first digit.

## Main results

* `strToU16_exact`: `StrToU16` accepts the numbers of 16 bits, and no other string.
* `sprintfS32_canonical_iff`: the number whose opposite is itself is not printed.
-/

namespace Muxponder

open Digits CString Printf Memory

/-! ### `StrToU16` -/

/-- The loop of `StrToU16`, and what is in `rez` when it returns. The characters are those from
`str` on. -/
def strToU16Loop (rez : UInt16) (i : Int8) (tm32 : UInt32) (detect : Bool) (str : List UInt8) :
    Option (UInt8 × UInt16) :=
  if 10 ≤ i ∨ 0x0FFFF < tm32 then some (0, rez)
  else
    match str with
    | [] => none
    | ch :: str =>
        if detect = false ∧ ch = 0x20 then strToU16Loop rez i tm32 detect str
        else if 0x30 ≤ ch ∧ ch ≤ 0x39 then
          strToU16Loop rez i (tm32 * 10 + (ch &&& 0x0F).toUInt32) true str
        else if detect then some (1, tm32.toUInt16)
        else some (0, rez)

/-- The result of a scan, where a failed one leaves `rez` alone. -/
def u16Result (rez : UInt16) : Option UInt16 → UInt8 × UInt16
  | none => (0, rez)
  | some v => (1, v)

/-- The lower half of a digit is its value. -/
theorem digit_and {ch : UInt8} {d : ℕ} (hd : decValue ch = some d) : (ch &&& 0x0F).toNat = d := by
  obtain ⟨hlt, hch⟩ := decValue_lt hd
  have hall : ∀ d : Fin 10, (UInt8.ofNat (0x30 + d) &&& 0x0F).toNat = d := by decide
  have hdigit := hall ⟨d, hlt⟩
  rw [← hch, UInt8.ofNat_toNat] at hdigit
  exact hdigit

/-- The loop gives up as the scan does. -/
theorem u16_overflow {tm32 : UInt32} {ch : UInt8} :
    strToU16Scanner.overflow tm32.toNat ch = true ↔ (10 ≤ (0 : Int8) ∨ 0x0FFFF < tm32) := by
  have hi : ¬ 10 ≤ (0 : Int8) := by decide
  simp [strToU16Scanner, hi, UInt32.lt_iff_toNat_lt]

/-- A digit is one by its place among the characters. -/
theorem u16_digit {ch : UInt8} : (0x30 ≤ ch ∧ ch ≤ 0x39) ↔ (decValue ch).isSome = true := by
  rw [decValue]
  split
  next h => exact iff_of_true h rfl
  next h => exact iff_of_false h (by simp)

/-- The loop is the scan. -/
theorem strToU16Loop_eq_scan (rez : UInt16) (s rest : List UInt8) (tm32 : UInt32) (detect : Bool)
    (cnt : ℕ) : strToU16Loop rez 0 tm32 detect (s ++ 0 :: rest) =
      (strToU16Scanner.scan tm32.toNat cnt detect (s ++ 0 :: rest)).map fun r =>
        u16Result rez (r.map UInt16.ofNat) := by
  have hskips : strToU16Scanner.skips = false := rfl
  induction s generalizing tm32 detect cnt with
  | nil =>
      have hnul : strToU16Scanner.digit 0 = none := rfl
      have hblank : ¬ (detect = false ∧ (0 : UInt8) = 0x20) := fun h => absurd h.2 (by decide)
      have hdigit : ¬ ((0x30 : UInt8) ≤ 0 ∧ (0 : UInt8) ≤ 0x39) := by decide
      rw [List.nil_append, strToU16Loop, Scanner.scan, if_neg hblank, if_neg hblank, if_neg hdigit]
      by_cases hfull : 10 ≤ (0 : Int8) ∨ 0x0FFFF < tm32
      · rw [if_pos hfull, if_pos (u16_overflow.mpr hfull)]
        rfl
      · rw [if_neg hfull, if_neg (mt u16_overflow.mp hfull)]
        cases detect with
        | true => simp [hnul, u16Result]
        | false => simp [hnul, hskips, u16Result]
  | cons ch s ih =>
      rw [List.cons_append, strToU16Loop, Scanner.scan]
      by_cases hfull : 10 ≤ (0 : Int8) ∨ 0x0FFFF < tm32
      · rw [if_pos hfull, if_pos (u16_overflow.mpr hfull)]
        rfl
      rw [if_neg hfull, if_neg (mt u16_overflow.mp hfull)]
      by_cases hblank : detect = false ∧ ch = 0x20
      · rw [if_pos hblank, if_pos hblank]
        exact ih tm32 detect cnt
      rw [if_neg hblank, if_neg hblank]
      cases hd : decValue ch with
      | none =>
          have hno : strToU16Scanner.digit ch = none := hd
          have hdigit : ¬ (0x30 ≤ ch ∧ ch ≤ 0x39) := by simp [u16_digit, hd]
          rw [if_neg hdigit]
          cases detect with
          | true => simp [hno, u16Result]
          | false => simp [hno, hskips, u16Result]
      | some d =>
          have hsome : strToU16Scanner.digit ch = some d := hd
          have hdigit : 0x30 ≤ ch ∧ ch ≤ 0x39 := by simp [u16_digit, hd]
          have hlimit : ¬ ∃ m ∈ strToU16Scanner.maxDigits, m < cnt + 1 := by
            rintro ⟨m, hm, -⟩
            cases hm
          have hstep : (tm32.toNat * 10 + d) % 2 ^ 32 =
              (tm32 * 10 + (ch &&& 0x0F).toUInt32).toNat := by
            rw [UInt32.toNat_add, UInt32.toNat_mul, UInt8.toNat_toUInt32, digit_and hd]
            simp
          rw [if_pos hdigit]
          simp only [hsome]
          rw [if_neg hlimit]
          exact (ih _ true (cnt + 1)).trans (by rw [← hstep]; rfl)

/-- **`StrToU16`, as its loop computes it.** -/
theorem strToU16Loop_eq (rez : UInt16) (s rest : List UInt8) :
    strToU16Loop rez 0 0 false (s ++ 0 :: rest) =
      (strToU16 (s ++ 0 :: rest)).map (u16Result rez) := by
  rw [strToU16Loop_eq_scan rez s rest 0 false 0, strToU16, Option.map_map]
  rfl

/-- The guard of `StrToU16`. -/
theorem strToU16_guarded : strToU16Scanner.Guarded fun n _ => 0xFFFF < n where
  base_pos := by decide
  blank := rfl
  unlimited := rfl
  overflow_iff n ch := by simp [strToU16Scanner]
  kept n ch d m c hd hlarge hm := by
    have hm : n * 10 + d ≤ m := hm
    change 0xFFFF < m
    omega
  fits n ch d hd hsmall := by
    have hd10 := (decValue_lt hd).1
    change n * 10 + d < 2 ^ 32
    omega

/-- A string starts with blanks and then, as far as its digits go, with the number `n`. -/
def StartsWithNumber (s : List UInt8) (n : ℕ) : Prop :=
  ∃ blanks ds tail, s = blanks ++ (ds ++ tail) ∧ (∀ ch ∈ blanks, ch = 0x20) ∧ IsDecimal ds ∧
    (∀ ch ∈ tail.head?, decValue ch = none) ∧ decimal ds = n

/-- Its blanks and its digits are where they are looked for. -/
theorem startsWithNumber_iff {s : List UInt8} {n : ℕ} : StartsWithNumber s n ↔
    leadingDigits (behindBlanks s) ≠ [] ∧ decimal (leadingDigits (behindBlanks s)) = n := by
  constructor
  · rintro ⟨blanks, ds, tail, rfl, hblanks, hds, htail, rfl⟩
    have hbehind : behindBlanks (blanks ++ (ds ++ tail)) = ds ++ tail := by
      rw [behindBlanks, List.dropWhile_append_of_pos fun ch hch => by simpa using hblanks ch hch]
      obtain ⟨ch, ds, rfl⟩ := List.exists_cons_of_ne_nil hds.1
      have hch : ch ≠ 0x20 := by
        rintro rfl
        cases hds.2 0x20 List.mem_cons_self
      rw [List.cons_append, List.dropWhile_cons_of_neg (by simpa using hch)]
    have hleading : leadingDigits (ds ++ tail) = ds := by
      rw [leadingDigits, List.takeWhile_append_of_pos (p := isDigit) hds.2]
      cases tail with
      | nil => simp
      | cons ch tail =>
          have hch : isDigit ch = false := by simpa [isDigit] using htail ch rfl
          rw [List.takeWhile_cons_of_neg (by simp [hch]), List.append_nil]
    rw [hbehind, hleading]
    exact ⟨hds.1, rfl⟩
  · rintro ⟨hds, rfl⟩
    obtain ⟨blanks, hs, hblanks⟩ := split_behindBlanks (s := s)
    refine ⟨blanks, leadingDigits (behindBlanks s), (behindBlanks s).dropWhile isDigit, ?_, hblanks,
      ⟨hds, leadingDigits_digits⟩, fun ch hch => ?_, rfl⟩
    · rw [leadingDigits, List.takeWhile_append_dropWhile]
      exact hs
    · obtain ⟨hstop, -⟩ : _ ∧ ∃ rest', behindBlanks s ++ 0 :: [] = _ := split_leadingDigits
      rw [behindDigits, List.headD_eq_head?_getD, Option.mem_def.mp hch] at hstop
      exact hstop

/-- **`StrToU16` accepts the numbers of 16 bits**, with any blanks and zeros in front of them, and
no other string. What stands behind the terminator is not read, and where it returns 0 the result is
as it was. -/
theorem strToU16_exact (s : Str) (rez : UInt16) : ∃ ret rez',
    (∀ rest, strToU16Loop rez 0 0 false (s.mem rest) = some (ret, rez')) ∧
    (ret = 1 ↔ ∃ n ≤ 65535, StartsWithNumber s.chars n) ∧
    (∀ n ≤ 65535, StartsWithNumber s.chars n → rez'.toNat = n) ∧
    (ret ≠ 1 → ret = 0 ∧ rez' = rez) := by
  have hscan : ∀ rest, strToU16Loop rez 0 0 false (s.mem rest) =
      some (u16Result rez (if leadingDigits (behindBlanks s.chars) = [] ∨
          0xFFFF < decimal (leadingDigits (behindBlanks s.chars)) then none
        else some (UInt16.ofNat (decimal (leadingDigits (behindBlanks s.chars)))))) := by
    intro rest
    rw [Str.mem, strToU16Loop_eq, strToU16, scan_literal strToU16_guarded rfl rfl rfl (by decide)]
    split <;> rfl
  simp only [startsWithNumber_iff]
  by_cases hrejects : leadingDigits (behindBlanks s.chars) = [] ∨
      0xFFFF < decimal (leadingDigits (behindBlanks s.chars))
  · refine ⟨0, rez, fun rest => ?_, ?_, ?_, fun _ => ⟨rfl, rfl⟩⟩
    · rw [hscan, if_pos hrejects]
      rfl
    · refine iff_of_false (by decide) ?_
      rintro ⟨n, hn, hds, rfl⟩
      rcases hrejects with h | h
      · exact hds h
      · omega
    · rintro n hn ⟨hds, rfl⟩
      rcases hrejects with h | h
      · exact absurd h hds
      · omega
  · obtain ⟨hds, hsmall⟩ := not_or.mp hrejects
    refine ⟨1, UInt16.ofNat (decimal (leadingDigits (behindBlanks s.chars))), fun rest => ?_, ?_,
      ?_, fun h => absurd rfl h⟩
    · rw [hscan, if_neg hrejects]
      rfl
    · exact iff_of_true rfl ⟨_, by omega, hds, rfl⟩
    · rintro n hn ⟨-, rfl⟩
      rw [UInt16.toNat_ofNat_of_lt' (by rw [UInt16.size]; omega)]

/-! ### The printing loops -/

/-- What the loops keep: the memory, the pointer `s`, the flag `add`, and what is left of `v`. -/
structure Printer where
  mem : Mem
  s : UInt32
  add : Bool
  v : ℤ

/-- `*s++ = ch`. -/
def Printer.put (p : Printer) (ch : UInt8) : Printer :=
  { p with mem := p.mem.store8 p.s ch, s := p.s + 1 }

/-- `while (v >= place) { nom++; v -= place; }` -/
def countPlace (place : ℤ) (nom : UInt8) (v : ℤ) : UInt8 × ℤ :=
  if 0 < place ∧ place ≤ v then countPlace place (nom + 1) (v - place) else (nom, v)
termination_by v.toNat

/-- One of the nine places. -/
def Printer.stage (p : Printer) (place : ℕ) : Printer :=
  let count := countPlace place 0 p.v
  let add := if count.1 ≠ 0 then true else p.add
  let p' : Printer := { p with add := add, v := count.2 }
  if add then p'.put (0x30 + (count.1 &&& 0x0F)) else p'

/-- The last digit and the terminator. -/
def Printer.finish (p : Printer) : Printer :=
  let p' := p.put (0x30 + (UInt8.ofNat (p.v % 256).toNat &&& 0x0F))
  { p' with mem := p'.mem.store8 p'.s 0 }

/-- `sprintf_u32`: the memory it leaves, and the length that it returns. -/
def sprintfU32Loop (m : Mem) (s : UInt32) (v : UInt32) : Mem × UInt16 :=
  let p := ((places 9).foldl Printer.stage ⟨m, s, false, v.toNat⟩).finish
  (p.mem, (p.s - s).toUInt16)

/-- `sprintf_s32`. A `long` has 32 bits, and the opposite of the least of them is itself. -/
def sprintfS32Loop (m : Mem) (s : UInt32) (v : Int32) : Mem × UInt16 :=
  let p : Printer := ⟨m, s, false, v.toInt⟩
  let signed := if v < 0 then { p.put 0x2D with v := (-v).toInt } else p
  let p := ((places 9).foldl Printer.stage signed).finish
  (p.mem, (p.s - s).toUInt16)

/-- Characters stored behind each other. -/
def puts (m : Mem) (s : UInt32) : List UInt8 → Mem
  | [] => m
  | ch :: text => puts (m.store8 s ch) (s + 1) text

/-- The subtractions are a division. -/
theorem countPlace_eq {place : ℕ} (hplace : 0 < place) (nom : UInt8) (v : ℕ) :
    countPlace place nom v = (nom + UInt8.ofNat (v / place), ((v % place : ℕ) : ℤ)) := by
  induction v using Nat.strong_induction_on generalizing nom with
  | _ v ih =>
      rw [countPlace]
      by_cases h : place ≤ v
      · have hsub : (v : ℤ) - place = ((v - place : ℕ) : ℤ) := by omega
        have hdiv : v / place = (v - place) / place + 1 := Nat.div_eq_sub_div hplace h
        rw [if_pos (by omega), hsub, ih (v - place) (by omega), hdiv, ← Nat.mod_eq_sub_mod h,
          UInt8.ofNat_add, UInt8.add_assoc, UInt8.add_comm 1]
        rfl
      · have hlt : v < place := by omega
        rw [if_neg (by omega), Nat.div_eq_of_lt hlt, Nat.mod_eq_of_lt hlt]
        simp

/-- From a negative number nothing is subtracted. -/
theorem countPlace_neg {place v : ℤ} (hv : v < 0) (nom : UInt8) :
    countPlace place nom v = (nom, v) := by
  rw [countPlace, if_neg (by omega)]

/-- **A place is a digit**, printed behind another digit or where it is not 0. -/
theorem stage_eq {p : Printer} {place v : ℕ} (hv : p.v = v) (hlt : v < 10 * place) :
    p.stage place =
      let add := p.add || decide (v / place ≠ 0)
      let text := if add then [digitChar (v / place)] else []
      ⟨puts p.mem p.s text, p.s + UInt32.ofNat text.length, add, ((v % place : ℕ) : ℤ)⟩ := by
  have hplace : 0 < place := by omega
  have hnom : v / place < 10 := Nat.div_lt_of_lt_mul (by omega)
  have hzero : UInt8.ofNat (v / place) ≠ 0 ↔ v / place ≠ 0 := by
    rw [ne_eq, ← UInt8.toNat_inj, UInt8.toNat_ofNat_of_lt' (by rw [UInt8.size]; omega)]
    rfl
  have hdigit : 0x30 + (UInt8.ofNat (v / place) &&& 0x0F) = digitChar (v / place) := by
    have hall : ∀ d : Fin 10, 0x30 + (UInt8.ofNat d &&& 0x0F) = digitChar d := by decide
    exact hall ⟨v / place, hnom⟩
  rw [Printer.stage, hv, countPlace_eq hplace, UInt8.zero_add, hdigit]
  by_cases h0 : v / place = 0
  · cases hadd : p.add <;> simp [h0, Printer.put, puts]
  · simp [h0, hzero, Printer.put, puts]

/-- Characters behind others. -/
theorem puts_append (m : Mem) (s : UInt32) (text text' : List UInt8) :
    puts m s (text ++ text') = puts (puts m s text) (s + UInt32.ofNat text.length) text' := by
  induction text generalizing m s with
  | nil => simp [puts]
  | cons ch text ih =>
      have hadd : s + UInt32.ofNat (text.length + 1) = s + 1 + UInt32.ofNat text.length := by
        rw [UInt32.ofNat_add, add_comm (UInt32.ofNat text.length), add_assoc]
        rfl
      rw [List.cons_append, puts, ih, puts, List.length_cons, hadd]

/-- **The places of a number**, from the pointer on: the text, its terminator, and the pointer
behind the text. -/
theorem finish_places {k v : ℕ} {p : Printer} (hv : p.v = v) (hlt : v < 10 ^ (k + 1)) :
    (((places k).foldl Printer.stage p).finish).mem =
        puts p.mem p.s (printPlaces (places k) v p.add ++ [0]) ∧
      (((places k).foldl Printer.stage p).finish).s =
        p.s + UInt32.ofNat (printPlaces (places k) v p.add).length := by
  induction k generalizing p v with
  | zero =>
      have hall : ∀ d : Fin 10, 0x30 + (UInt8.ofNat ((d : ℕ) % 256 : ℤ).toNat &&& 0x0F) =
          digitChar d := by decide
      have hdigit : 0x30 + (UInt8.ofNat (p.v % 256).toNat &&& 0x0F) = digitChar v := by
        rw [hv]
        exact hall ⟨v, by simpa using hlt⟩
      constructor
      · simp [places, Printer.finish, Printer.put, hdigit, printPlaces, puts]
      · rfl
  | succ k ih =>
      have hplace : v < 10 * 10 ^ (k + 1) := by
        rw [pow_succ] at hlt
        omega
      have hrest : v % 10 ^ (k + 1) < 10 ^ (k + 1) := Nat.mod_lt _ (by positivity)
      rw [places, List.foldl_cons, stage_eq hv hplace, printPlaces]
      obtain ⟨hmem, hs⟩ := ih (v := v % 10 ^ (k + 1)) (p := ⟨_, _, _, _⟩) rfl hrest
      refine ⟨hmem.trans ?_, hs.trans ?_⟩
      · dsimp only
        rw [List.append_assoc]
        exact (puts_append ..).symm
      · dsimp only
        rw [List.length_append, UInt32.ofNat_add, add_assoc]

/-- A negative number is printed as its last digit. -/
theorem stages_neg {ps : List ℕ} {p : Printer} (hv : p.v < 0) (hadd : p.add = false) :
    ps.foldl Printer.stage p = p := by
  have hstage : ∀ place, p.stage place = p := by
    obtain ⟨m, s, add, v⟩ := p
    obtain rfl : add = false := hadd
    intro place
    rw [Printer.stage, countPlace_neg hv]
    rfl
  induction ps with
  | nil => rfl
  | cons place ps ih => rw [List.foldl_cons, hstage, ih]

/-- Characters stored behind each other are copied at once. -/
theorem puts_eq_blit {m : Mem} {s : UInt32} {text : List UInt8} (hlen : text.length < 2 ^ 32) :
    puts m s text = m.blit s text := by
  induction text generalizing m s with
  | nil => rfl
  | cons ch text ih =>
      rw [List.length_cons] at hlen
      funext x
      rw [puts, ih (by omega)]
      by_cases hx : x = s
      · have hlast : (x - (s + 1)).toNat = 2 ^ 32 - 1 := by
          rw [hx, sub_add_cancel_left]
          rfl
        rw [blit_of_le (by omega)]
        simp [hx, Mem.store8, Mem.blit]
      · have hne : (x - s).toNat ≠ 0 := by
          intro h0
          exact hx (sub_eq_zero.mp (UInt32.toNat_inj.mp h0))
        have hnext : (x - s).toNat = (x - (s + 1)).toNat + 1 := by
          have hlt := (x - s).toNat_lt
          have hsub : (x - s - 1).toNat = (2 ^ 32 - 1 + (x - s).toNat) % 2 ^ 32 :=
            UInt32.toNat_sub (x - s) 1
          rw [← sub_sub, hsub]
          omega
        rw [Mem.blit, Mem.blit, hnext, store8_of_ne hx]
        rfl

/-- Every number but the least has an opposite. -/
theorem toInt_neg_of_ne {v : Int32} (hmin : v ≠ Int32.minValue) : (-v).toInt = -v.toInt := by
  have hle := v.le_toInt
  have hlt := v.toInt_lt
  have hne : v.toInt ≠ -2 ^ 31 := fun h => hmin (Int32.toInt_inj.mp h)
  rw [Int32.toInt_neg, Int.bmod_eq_of_le (by omega) (by omega)]

/-- The opposite of a negative number is not negative, but for the least of them. -/
theorem neg_nonneg_or {v : Int32} (hv : v < 0) : 0 ≤ -v ∨ -v = Int32.minValue := by
  by_cases hmin : v = Int32.minValue
  · right
    rw [hmin]
    rfl
  · left
    have hlt : v.toInt < 0 := by simpa [Int32.lt_iff_toInt_lt] using hv
    rw [Int32.le_iff_toInt_le, toInt_neg_of_ne hmin]
    change 0 ≤ _
    omega

/-- The magnitude of every number but the least. -/
theorem s32Magnitude_eq {v : Int32} (hmin : v ≠ Int32.minValue) :
    s32Magnitude v.toUInt32 = v.toInt.natAbs := by
  rw [s32Magnitude, Int32.toInt32_toUInt32]
  by_cases hneg : v < 0
  · have hlt : v.toInt < 0 := by simpa [Int32.lt_iff_toInt_lt] using hneg
    rw [if_pos hneg, Int32.toNatClampNeg, toInt_neg_of_ne hmin]
    omega
  · have hle : 0 ≤ v.toInt := by simpa [Int32.lt_iff_toInt_lt] using hneg
    rw [if_neg hneg, Int32.toNatClampNeg]
    omega

/-- **The places of a magnitude**, which for the least number is the digit 0. -/
theorem finish_magnitude {v : Int32} {p : Printer} (hadd : p.add = false) (hv : p.v = v.toInt)
    (hnonneg : 0 ≤ v ∨ v = Int32.minValue) :
    (((places 9).foldl Printer.stage p).finish).mem =
        puts p.mem p.s (printPlaces (places 9) v.toNatClampNeg false ++ [0]) ∧
      (((places 9).foldl Printer.stage p).finish).s =
        p.s + UInt32.ofNat (printPlaces (places 9) v.toNatClampNeg false).length := by
  rcases hnonneg with hpos | rfl
  · have hnat : p.v = (v.toNatClampNeg : ℤ) := by
      have hle : 0 ≤ v.toInt := by simpa [Int32.le_iff_toInt_le] using hpos
      rw [hv, Int32.toNatClampNeg, Int.toNat_of_nonneg hle]
    have hlt := v.toNatClampNeg_lt
    have hplaces := finish_places (k := 9) hnat (by omega)
    rw [hadd] at hplaces
    exact hplaces
  · have hmin : Int32.minValue.toInt = -2 ^ 31 := rfl
    rw [stages_neg (by omega) hadd, Printer.finish, hv]
    exact ⟨rfl, rfl⟩

/-- The length of a printed number. -/
theorem length_sprintfU32 (v : UInt32) : (sprintfU32 v).length ≤ 10 := by
  have hv := v.toNat_lt
  rw [sprintfU32_eq, unsigned_length, unsignedWidth_le_iff (by omega)]
  omega

/-- And of one with a sign. -/
theorem length_sprintfS32 (v : UInt32) : (sprintfS32 v).length ≤ 11 := by
  have hv := s32Magnitude_lt v
  have hwidth : unsignedWidth (s32Magnitude v) ≤ 10 := by
    rw [unsignedWidth_le_iff (by omega)]
    omega
  rw [sprintfS32_eq, List.length_append, unsigned_length]
  split <;> simp only [List.length_cons, List.length_nil] <;> omega

/-- **`sprintf_u32` stores the digits of its number**, with a terminator. -/
theorem sprintfU32Loop_eq (m : Mem) (s : UInt32) (v : UInt32) : sprintfU32Loop m s v =
    (m.blit s (sprintfU32 v ++ [0]), UInt16.ofNat (sprintfU32 v).length) := by
  have hlt := v.toNat_lt
  have hlen := length_sprintfU32 v
  obtain ⟨hmem, hs⟩ := finish_places (k := 9) (p := ⟨m, s, false, v.toNat⟩) rfl (by omega)
  refine Prod.ext ?_ ?_
  · refine hmem.trans (puts_eq_blit ?_)
    change (sprintfU32 v ++ [0]).length < _
    rw [List.length_append, List.length_singleton]
    omega
  · refine (congrArg (fun x => (x - s).toUInt16) hs).trans ?_
    dsimp only
    rw [add_sub_cancel_left, UInt32.toUInt16_ofNat']
    rfl

/-- **`sprintf_s32` stores the sign** and the digits of the magnitude. -/
theorem sprintfS32Loop_eq (m : Mem) (s : UInt32) (v : UInt32) : sprintfS32Loop m s v.toInt32 =
    (m.blit s (sprintfS32 v ++ [0]), UInt16.ofNat (sprintfS32 v).length) := by
  have hlen := length_sprintfS32 v
  have hstored : ∀ r : Printer, r.mem = puts m s (sprintfS32 v ++ [0]) →
      r.s = s + UInt32.ofNat (sprintfS32 v).length →
      (r.mem, (r.s - s).toUInt16) =
        (m.blit s (sprintfS32 v ++ [0]), UInt16.ofNat (sprintfS32 v).length) := by
    intro r hmem hs
    rw [hmem, hs, add_sub_cancel_left, UInt32.toUInt16_ofNat', puts_eq_blit]
    rw [List.length_append, List.length_singleton]
    omega
  rw [sprintfS32Loop]
  by_cases hneg : v.toInt32 < 0
  · have htext : sprintfS32 v =
        0x2D :: printPlaces (places 9) (-v.toInt32).toNatClampNeg false := by
      rw [sprintfS32, s32Magnitude, if_pos hneg, if_pos hneg]
      rfl
    obtain ⟨hmem, hs⟩ := finish_magnitude
      (p := { (Printer.mk m s false v.toInt32.toInt).put 0x2D with v := (-v.toInt32).toInt })
      rfl rfl (neg_nonneg_or hneg)
    rw [if_pos hneg]
    refine hstored _ ?_ ?_
    · rw [hmem, htext]
      rfl
    · rw [hs, htext, List.length_cons, Nat.add_comm, UInt32.ofNat_add, ← add_assoc]
      rfl
  · have htext : sprintfS32 v = printPlaces (places 9) v.toInt32.toNatClampNeg false := by
      rw [sprintfS32, s32Magnitude, if_neg hneg, if_neg hneg]
      rfl
    obtain ⟨hmem, hs⟩ := finish_magnitude (p := ⟨m, s, false, v.toInt32.toInt⟩) rfl rfl
      (.inl (Int32.not_lt.mp hneg))
    rw [if_neg hneg]
    exact hstored _ (hmem.trans (by rw [htext])) (hs.trans (by rw [htext]))

/-! ### Canonical texts -/

/-- The shortest digits of a number. -/
def ShortestDecimal (ds : List UInt8) (n : ℕ) : Prop :=
  IsDecimal ds ∧ decimal ds = n ∧ ∀ ds', IsDecimal ds' → decimal ds' = n → ds.length ≤ ds'.length

/-- The shortest digits of a signed number, behind its sign. -/
def SignedDecimal (text : List UInt8) (z : ℤ) : Prop :=
  if z < 0 then ∃ ds, text = 0x2D :: ds ∧ ShortestDecimal ds z.natAbs
  else ShortestDecimal text z.natAbs

/-- A text is written at `s`: it is held there with its terminator, its length is returned, and
nothing behind the terminator has changed. -/
def Writes (r : Mem × UInt16) (m : Mem) (s : UInt32) (text : List UInt8) : Prop :=
  r.1.HoldsText s text ∧ r.2.toNat = text.length ∧ ∀ x, text.length < (x - s).toNat → r.1 x = m x

/-- `%u` is the shortest text. -/
theorem shortestDecimal_unsigned (n : ℕ) : ShortestDecimal (unsigned n) n := by
  refine ⟨isDecimal_unsigned n, decimal_unsigned n, fun ds hds hn => ?_⟩
  have hpos : 0 < ds.length := List.length_pos_of_ne_nil hds.1
  rw [unsigned_length, unsignedWidth_le_iff hpos, ← hn]
  exact decimal_lt

/-- A text is written once. -/
theorem Writes.text_eq {r : Mem × UInt16} {m : Mem} {s : UInt32} {text text' : List UInt8}
    (h : Writes r m s text) (h' : Writes r m s text') : text = text' := by
  have hlen : text.length = text'.length := h.2.1.symm.trans h'.2.1
  refine List.ext_getElem hlen fun k hk hk' => ?_
  have hchar := h.1.1 k hk
  rw [h'.1.1 k hk'] at hchar
  exact hchar.symm

/-- A text that is copied with its terminator is written. -/
theorem writes_blit (m : Mem) (s : UInt32) {text : List UInt8} (hlen : text.length < 2 ^ 16) :
    Writes (m.blit s (text ++ [0]), UInt16.ofNat text.length) m s text := by
  have hbyte : ∀ k ≤ text.length,
      m.blit s (text ++ [0]) (s + UInt32.ofNat k) = (text ++ [0]).getD k 0 := by
    intro k hk
    have hin : k < (text ++ [0]).length := by
      rw [List.length_append, List.length_singleton]
      omega
    rw [Mem.blit, add_ofNat_sub (by omega), List.getD_eq_getElem _ _ hin,
      List.getD_eq_getElem _ _ hin]
  refine ⟨⟨fun k hk => ?_, ?_⟩, UInt16.toNat_ofNat_of_lt' hlen, fun x hx => blit_of_le ?_⟩
  · refine (hbyte k hk.le).trans ?_
    simp [List.getD_eq_getElem?_getD, List.getElem?_append_left hk, hk]
  · refine (hbyte _ le_rfl).trans ?_
    simp
  · rw [List.length_append, List.length_singleton]
    omega

/-- Every signed number is written as its sign and magnitude. -/
theorem sprintfS32_writes (m : Mem) (s : UInt32) (w : Int32) :
    Writes (sprintfS32Loop m s w) m s (sprintfS32 w.toUInt32) := by
  have hlen := length_sprintfS32 w.toUInt32
  have hloop := sprintfS32Loop_eq m s w.toUInt32
  rw [Int32.toInt32_toUInt32] at hloop
  rw [hloop]
  exact writes_blit m s (by omega)

/-- The least number has no magnitude in its text. -/
theorem sprintfS32_minValue : sprintfS32 Int32.minValue.toUInt32 = ascii "-0" := by decide

/-- Its text is not canonical. -/
theorem not_signedDecimal_minValue : ¬ SignedDecimal (ascii "-0") Int32.minValue.toInt := by
  have hneg : Int32.minValue.toInt < 0 := by decide
  rw [SignedDecimal, if_pos hneg]
  rintro ⟨ds, hds, -, hvalue, -⟩
  obtain rfl : [0x30] = ds := (List.cons.inj hds).2
  exact absurd hvalue (by decide)

/-- **The number that is not printed**: every unsigned number is printed as it should be, and so is
every signed one but the least, whose opposite is negative. -/
theorem sprintfS32_canonical_iff (m : Mem) (s v : UInt32) (w : Int32) :
    ((∃ text, Writes (sprintfU32Loop m s v) m s text ∧ ShortestDecimal text v.toNat) ∧
      ∃ text, Writes (sprintfS32Loop m s w) m s text ∧ SignedDecimal text w.toInt) ↔
      w ≠ Int32.minValue := by
  constructor
  · rintro ⟨-, text, htext, hsigned⟩ rfl
    obtain rfl := (sprintfS32_writes m s Int32.minValue).text_eq htext
    rw [sprintfS32_minValue] at hsigned
    exact not_signedDecimal_minValue hsigned
  · intro hne
    have hlen := length_sprintfU32 v
    have hneg : w < 0 ↔ w.toInt < 0 := by simp [Int32.lt_iff_toInt_lt]
    refine ⟨⟨sprintfU32 v, ?_, ?_⟩, _, sprintfS32_writes m s w, ?_⟩
    · rw [sprintfU32Loop_eq]
      exact writes_blit m s (by omega)
    · rw [sprintfU32_eq]
      exact shortestDecimal_unsigned _
    · rw [sprintfS32_eq, s32Magnitude_eq hne, Int32.toInt32_toUInt32, SignedDecimal]
      by_cases h : w < 0
      · rw [if_pos h, if_pos (hneg.mp h)]
        exact ⟨_, rfl, shortestDecimal_unsigned _⟩
      · rw [if_neg h, if_neg (mt hneg.mpr h)]
        exact shortestDecimal_unsigned _

/-- It is printed as `-0`. -/
theorem sprintfS32_least :
    Writes (sprintfS32Loop (fun _ => 0xFF) 0x1000 Int32.minValue) (fun _ => 0xFF) 0x1000
      (ascii "-0") ∧
    ¬ ∀ m s w, ∃ text, Writes (sprintfS32Loop m s w) m s text ∧ SignedDecimal text w.toInt := by
  have hwrites := sprintfS32_writes (fun _ => 0xFF) 0x1000 Int32.minValue
  rw [sprintfS32_minValue] at hwrites
  refine ⟨hwrites, fun h => ?_⟩
  obtain ⟨text, htext, hsigned⟩ := h (fun _ => 0xFF) 0x1000 Int32.minValue
  obtain rfl := hwrites.text_eq htext
  exact not_signedDecimal_minValue hsigned

end Muxponder
