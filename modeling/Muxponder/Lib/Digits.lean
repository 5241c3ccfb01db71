import Mathlib.Data.List.Basic
import Mathlib.Data.List.Induction
import Mathlib.Tactic.Ring

/-!
# Numbers in Character Strings

Readers and writers of numbers in byte strings, as embedded C code has them. A string is
the memory behind a pointer; a reader that runs off the end of that memory has no defined
result, which is `none`. An inner `none` is a reader's own failure.

* `readHex n` reads exactly `n` hexadecimal digits, `writeHex n` writes them;
* a `Scanner` looks for the first digit and reads to the first character that is none,
  with a guard against overflow and a limit on the digits.

## Main results

* `readHex_writeHex`: a written number reads back.
* `writeHex_value`: the value of hexadecimal digits is written as these digits.
* `Scanner.scan_digit`, `Scanner.scan_stop`: a scanner reads the digits up to the end of
  the number.
* `Scanner.scan_value`: what a scanner reads from plain digits is their value.
* `Scanner.scan_isSome`: a scanner comes to an end where a number does.
-/

namespace Digits

/-- The value of a decimal digit. -/
def decValue (ch : UInt8) : Option ℕ :=
  if 0x30 ≤ ch ∧ ch ≤ 0x39 then some (ch.toNat - 0x30) else none

/-- The value of a hexadecimal digit of either case. -/
def hexValue (ch : UInt8) : Option ℕ :=
  if 0x30 ≤ ch ∧ ch ≤ 0x39 then some (ch.toNat - 0x30)
  else if 0x41 ≤ ch ∧ ch ≤ 0x46 then some (ch.toNat - 0x41 + 10)
  else if 0x61 ≤ ch ∧ ch ≤ 0x66 then some (ch.toNat - 0x61 + 10)
  else none

/-- The upper-case hexadecimal digit of a value below sixteen. -/
def hexDigit (d : ℕ) : UInt8 :=
  if 9 < d then UInt8.ofNat (0x41 - 10 + d) else UInt8.ofNat (0x30 + d)

/-- A letter in upper case, and any other character as it is. -/
def upperCase (ch : UInt8) : UInt8 := if 0x61 ≤ ch ∧ ch ≤ 0x7A then ch - 0x20 else ch

/-! ### A fixed number of hexadecimal digits -/

/-- Reading exactly `n` hexadecimal digits, most significant first, onto `acc`. -/
def readHex : ℕ → ℕ → List UInt8 → Option ℕ
  | 0, acc, _ => some acc
  | _ + 1, _, [] => none
  | n + 1, acc, ch :: s => (hexValue ch).bind fun d => readHex n (acc * 16 + d) s

/-- The last `n` hexadecimal digits of a number, most significant first. -/
def writeHex : ℕ → ℕ → List UInt8
  | 0, _ => []
  | n + 1, v => writeHex n (v / 16) ++ [hexDigit (v % 16)]

/-- A digit has its value. -/
theorem hexValue_hexDigit {d : ℕ} (hd : d < 16) : hexValue (hexDigit d) = some d := by
  have h : ∀ d : Fin 16, hexValue (hexDigit d) = some d.val := by decide
  exact h ⟨d, hd⟩

/-- The number of digits written. -/
@[simp] theorem writeHex_length (n v : ℕ) : (writeHex n v).length = n := by
  induction n generalizing v with
  | zero => rfl
  | succ n ih => rw [writeHex, List.length_append, ih, List.length_singleton]

/-- Only digits are written. -/
theorem mem_writeHex {n v : ℕ} {ch : UInt8} (h : ch ∈ writeHex n v) :
    ∃ d < 16, ch = hexDigit d := by
  induction n generalizing v with
  | zero => simp [writeHex] at h
  | succ n ih =>
      rw [writeHex, List.mem_append, List.mem_singleton] at h
      rcases h with h | rfl
      · exact ih h
      · exact ⟨v % 16, Nat.mod_lt _ (by omega), rfl⟩

/-- A hexadecimal digit is a letter or a decimal digit. -/
theorem hexDigit_range {d : ℕ} (hd : d < 16) :
    0x30 ≤ (hexDigit d).toNat ∧ (hexDigit d).toNat ≤ 0x46 := by
  have h : ∀ d : Fin 16, 0x30 ≤ (hexDigit d).toNat ∧ (hexDigit d).toNat ≤ 0x46 := by decide
  exact h ⟨d, hd⟩

/-- Reading continues behind the digits already read. -/
theorem readHex_append {n m acc : ℕ} {s t : List UInt8} (hs : s.length = n) :
    readHex (n + m) acc (s ++ t) = (readHex n acc s).bind fun a => readHex m a t := by
  induction n generalizing acc s with
  | zero =>
      obtain rfl := List.eq_nil_of_length_eq_zero hs
      simp [readHex]
  | succ n ih =>
      rcases s with _ | ⟨ch, s⟩
      · simp at hs
      · have hs' : s.length = n := by simpa using hs
        rw [List.cons_append, Nat.add_right_comm, readHex, readHex, Option.bind_assoc]
        exact congrArg _ (funext fun d => ih hs')

/-- What stands behind the digits is not read. -/
theorem readHex_prefix {n acc : ℕ} {s t : List UInt8} (hs : s.length = n) :
    readHex n acc (s ++ t) = readHex n acc s := by
  have h : readHex (n + 0) acc (s ++ t) = (readHex n acc s).bind fun a => readHex 0 a t :=
    readHex_append hs
  simpa [readHex] using h

/-- **A written number reads back.** -/
theorem readHex_writeHex {n v acc : ℕ} (hv : v < 16 ^ n) :
    readHex n acc (writeHex n v) = some (acc * 16 ^ n + v) := by
  induction n generalizing v with
  | zero =>
      obtain rfl : v = 0 := by simpa using hv
      simp [readHex]
  | succ n ih =>
      have hdiv : v / 16 < 16 ^ n := by
        rw [pow_succ] at hv
        omega
      have hmod : v % 16 < 16 := Nat.mod_lt _ (by omega)
      rw [writeHex, readHex_append (writeHex_length n _), ih hdiv]
      simp only [Option.bind_some, readHex, hexValue_hexDigit hmod, Option.some.injEq]
      have hsplit := Nat.div_add_mod v 16
      calc (acc * 16 ^ n + v / 16) * 16 + v % 16
          = acc * (16 ^ n * 16) + (16 * (v / 16) + v % 16) := by ring
        _ = acc * 16 ^ (n + 1) + v := by rw [hsplit, pow_succ]

/-- Reading succeeds exactly on `n` hexadecimal digits. -/
theorem readHex_isSome_iff {n acc : ℕ} {s : List UInt8} :
    (readHex n acc s).isSome = true ↔
      n ≤ s.length ∧ ∀ ch ∈ s.take n, (hexValue ch).isSome = true := by
  induction n generalizing acc s with
  | zero => simp [readHex]
  | succ n ih =>
      rcases s with _ | ⟨ch, s⟩
      · simp [readHex]
      · cases hd : hexValue ch with
        | none => simp [readHex, hd]
        | some d => simp [readHex, hd, ih]

/-! ### Scanning for a number -/

/-- A scanner: the digits it knows, their base, the width of its accumulator, the guard
that gives up before a character, the limit on the digits, and whether it passes over
any character before the first digit or over blanks alone. -/
structure Scanner where
  digit : UInt8 → Option ℕ
  base : ℕ
  width : ℕ
  overflow : ℕ → UInt8 → Bool
  maxDigits : Option ℕ
  skips : Bool

/-- Scanning with the number `tm` read so far, from `cnt` digits. -/
def Scanner.scan (S : Scanner) : ℕ → ℕ → Bool → List UInt8 → Option (Option ℕ)
  | _, _, _, [] => none
  | tm, cnt, detect, ch :: s =>
      if S.overflow tm ch then some none
      else if detect = false ∧ ch = 0x20 then S.scan tm cnt detect s
      else match S.digit ch with
        | some d =>
            if ∃ m ∈ S.maxDigits, m < cnt + 1 then some none
            else S.scan ((tm * S.base + d) % 2 ^ S.width) (cnt + 1) true s
        | none =>
            if detect then some (some tm)
            else if S.skips then S.scan tm cnt detect s
            else some none

variable {S : Scanner} {tm cnt d : ℕ} {detect : Bool} {ch : UInt8} {s : List UInt8}

/-- A scanner takes a digit its guard and its limit let through. -/
theorem Scanner.scan_digit (hov : S.overflow tm ch = false) (hblank : ch ≠ 0x20)
    (hd : S.digit ch = some d) (hmax : ∀ m ∈ S.maxDigits, cnt < m) :
    S.scan tm cnt detect (ch :: s) =
      S.scan ((tm * S.base + d) % 2 ^ S.width) (cnt + 1) true s := by
  have hlimit : ¬ ∃ m ∈ S.maxDigits, m < cnt + 1 := by
    rintro ⟨m, hm, hlt⟩
    have := hmax m hm
    omega
  rw [Scanner.scan, if_neg (by simp [hov]), if_neg (by simp [hblank])]
  simp only [hd]
  rw [if_neg hlimit]

/-- A scanner that has read a digit ends at the first character that is none. -/
theorem Scanner.scan_stop (hov : S.overflow tm ch = false) (hd : S.digit ch = none) :
    S.scan tm cnt true (ch :: s) = some (some tm) := by
  rw [Scanner.scan, if_neg (by simp [hov]), if_neg (by simp)]
  simp only [hd, if_true]

/-- The value of digits behind the number `n`. -/
def value (digit : UInt8 → Option ℕ) (base n : ℕ) (ds : List UInt8) : ℕ :=
  ds.foldl (fun n ch => n * base + (digit ch).getD 0) n

/-- Only digits, and at least one. -/
def IsNumber (digit : UInt8 → Option ℕ) (ds : List UInt8) : Prop :=
  ds ≠ [] ∧ ∀ ch ∈ ds, (digit ch).isSome = true

instance (digit : UInt8 → Option ℕ) (ds : List UInt8) : Decidable (IsNumber digit ds) :=
  inferInstanceAs (Decidable (_ ∧ _))

/-- The value of decimal digits. -/
abbrev decimal (ds : List UInt8) : ℕ := value decValue 10 0 ds

/-- Only decimal digits, and at least one. -/
abbrev IsDecimal (ds : List UInt8) : Prop := IsNumber decValue ds

/-- A decimal digit is below ten. -/
theorem decValue_lt {ch : UInt8} {d : ℕ} (h : decValue ch = some d) :
    d < 10 ∧ ch.toNat = 0x30 + d := by
  rw [decValue] at h
  split at h
  · next hrange =>
      have hlow : (0x30 : UInt8).toNat ≤ ch.toNat := UInt8.le_iff_toNat_le.mp hrange.1
      have hhigh : ch.toNat ≤ (0x39 : UInt8).toNat := UInt8.le_iff_toNat_le.mp hrange.2
      obtain rfl := Option.some.inj h
      simp only [UInt8.reduceToNat] at hlow hhigh
      omega
  · simp at h

/-- A hexadecimal digit is below sixteen. -/
theorem hexValue_lt {ch : UInt8} {d : ℕ} (h : hexValue ch = some d) : d < 16 := by
  simp only [hexValue, UInt8.le_iff_toNat_le, UInt8.reduceToNat] at h
  split at h
  · have hd := Option.some.inj h
    omega
  split at h
  · have hd := Option.some.inj h
    omega
  split at h
  · have hd := Option.some.inj h
    omega
  · cases h

/-- More digits make a number no smaller. -/
theorem le_value {digit : UInt8 → Option ℕ} {base : ℕ} (hbase : 1 ≤ base) (n : ℕ)
    (ds : List UInt8) : n ≤ value digit base n ds := by
  induction ds generalizing n with
  | nil => exact le_rfl
  | cons ch ds ih =>
      calc n ≤ n * base := Nat.le_mul_of_pos_right n hbase
        _ ≤ n * base + (digit ch).getD 0 := Nat.le_add_right _ _
        _ ≤ value digit base n (ch :: ds) := ih _

/-- A fixed number of hexadecimal digits is read as their value. -/
theorem readHex_eq_value {n acc : ℕ} {ds rest : List UInt8} (hlen : ds.length = n)
    (hds : ∀ ch ∈ ds, (hexValue ch).isSome = true) :
    readHex n acc (ds ++ rest) = some (value hexValue 16 acc ds) := by
  induction ds generalizing n acc with
  | nil =>
      subst hlen
      rfl
  | cons ch ds ih =>
      subst hlen
      obtain ⟨d, hd⟩ := Option.isSome_iff_exists.mp (hds ch List.mem_cons_self)
      rw [List.cons_append, List.length_cons, readHex, hd, Option.bind_some,
        ih rfl fun x hx => hds x (List.mem_cons_of_mem _ hx)]
      simp [value, hd]

/-- **What a scanner reads from plain digits is their value**, as long as its guard keeps
the accumulator in its width. -/
theorem Scanner.scan_value {N v : ℕ} {c : UInt8} {ds rest : List UInt8} (hbase : 1 ≤ S.base)
    (hblank : S.digit 0x20 = none)
    (hguard : ∀ tm ch d, S.overflow tm ch = false → S.digit ch = some d →
      tm * S.base + d ≤ N → tm * S.base + d < 2 ^ S.width)
    (hds : ∀ ch ∈ ds, (S.digit ch).isSome = true) (hc : S.digit c = none)
    (hN : value S.digit S.base tm ds ≤ N)
    (h : S.scan tm cnt detect (ds ++ c :: rest) = some (some v))
    (hstart : detect = true ∨ ds ≠ []) : v = value S.digit S.base tm ds := by
  induction ds generalizing tm cnt detect with
  | nil =>
      obtain rfl : detect = true := hstart.resolve_right (fun hne => hne rfl)
      rw [List.nil_append, Scanner.scan] at h
      cases hov : S.overflow tm c with
      | true => simp [hov] at h
      | false =>
          have hv : tm = v := by simpa [hov, hc] using h
          exact hv.symm
  | cons ch ds ih =>
      obtain ⟨d, hd⟩ := Option.isSome_iff_exists.mp (hds ch List.mem_cons_self)
      have hch : ch ≠ 0x20 := by
        rintro rfl
        rw [hblank] at hd
        exact absurd hd (by simp)
      rw [List.cons_append, Scanner.scan] at h
      cases hov : S.overflow tm ch with
      | true => simp [hov] at h
      | false =>
          simp only [hov, Bool.false_eq_true, if_false, hch, and_false, hd] at h
          by_cases hmax : ∃ m ∈ S.maxDigits, m < cnt + 1
          · rw [if_pos hmax] at h
            simp at h
          rw [if_neg hmax] at h
          have hstep : value S.digit S.base tm (ch :: ds) =
              value S.digit S.base (tm * S.base + d) ds := by simp [value, hd]
          rw [hstep] at hN ⊢
          have hfit : tm * S.base + d < 2 ^ S.width :=
            hguard tm ch d hov hd ((le_value hbase _ _).trans hN)
          rw [Nat.mod_eq_of_lt hfit] at h
          exact ih (fun x hx => hds x (List.mem_cons_of_mem _ hx)) hN h (Or.inl rfl)

/-- Digits are read behind one another. -/
theorem value_append {digit : UInt8 → Option ℕ} {base n : ℕ} {ds es : List UInt8} :
    value digit base n (ds ++ es) = value digit base (value digit base n ds) es :=
  List.foldl_append

/-- A scanner without a limit on the digits reads a number that its guard lets through. -/
theorem Scanner.scan_eq_value {N : ℕ} {c : UInt8} {ds rest : List UInt8} (hbase : 1 ≤ S.base)
    (hblank : S.digit 0x20 = none) (hmax : S.maxDigits = none)
    (hguard : ∀ n ≤ N, ∀ ch, S.overflow n ch = false) (hwidth : N < 2 ^ S.width)
    (hds : ∀ ch ∈ ds, (S.digit ch).isSome = true) (hc : S.digit c = none)
    (hN : value S.digit S.base tm ds ≤ N) (hstart : detect = true ∨ ds ≠ []) :
    S.scan tm cnt detect (ds ++ c :: rest) = some (some (value S.digit S.base tm ds)) := by
  induction ds generalizing tm cnt detect with
  | nil =>
      obtain rfl : detect = true := hstart.resolve_right (fun hne => hne rfl)
      exact Scanner.scan_stop (hguard tm hN c) hc
  | cons ch ds ih =>
      obtain ⟨d, hd⟩ := Option.isSome_iff_exists.mp (hds ch List.mem_cons_self)
      have hch : ch ≠ 0x20 := by
        rintro rfl
        rw [hblank] at hd
        exact absurd hd (by simp)
      have hstep : value S.digit S.base tm (ch :: ds) =
          value S.digit S.base (tm * S.base + d) ds := by simp [value, hd]
      rw [hstep] at hN ⊢
      have htm : tm ≤ N := by
        calc tm ≤ tm * S.base := Nat.le_mul_of_pos_right tm hbase
          _ ≤ tm * S.base + d := Nat.le_add_right _ _
          _ ≤ N := (le_value hbase _ _).trans hN
      have hfit : tm * S.base + d < 2 ^ S.width :=
        lt_of_le_of_lt ((le_value hbase _ _).trans hN) hwidth
      rw [List.cons_append, Scanner.scan_digit (hguard tm htm ch) hch hd (by simp [hmax]),
        Nat.mod_eq_of_lt hfit]
      exact ih (fun x hx => hds x (List.mem_cons_of_mem _ hx)) hN (Or.inl rfl)

/-- A scanner without a limit on the digits whose guard `R` keeps the number in its width, and
which more digits do not get past. -/
structure Scanner.Guarded (S : Scanner) (R : ℕ → UInt8 → Prop) : Prop where
  base_pos : 1 ≤ S.base
  blank : S.digit 0x20 = none
  unlimited : S.maxDigits = none
  overflow_iff : ∀ n ch, S.overflow n ch = true ↔ R n ch
  kept : ∀ n ch d m c, S.digit ch = some d → R n ch → n * S.base + d ≤ m → R m c
  fits : ∀ n ch d, S.digit ch = some d → ¬ R n ch → n * S.base + d < 2 ^ S.width

/-- **What a guarded scanner makes of digits**: it rejects them exactly where its guard rejects
their value in front of the character behind them. -/
theorem Scanner.Guarded.scan_digits {R : ℕ → UInt8 → Prop} [∀ n ch, Decidable (R n ch)] {c : UInt8}
    {ds rest : List UInt8} (hS : S.Guarded R) (hds : ∀ ch ∈ ds, (S.digit ch).isSome = true)
    (hc : S.digit c = none) (hstart : detect = true ∨ ds ≠ []) :
    S.scan tm cnt detect (ds ++ c :: rest) =
      if R (value S.digit S.base tm ds) c then some none
      else some (some (value S.digit S.base tm ds)) := by
  induction ds generalizing tm cnt detect with
  | nil =>
      obtain rfl : detect = true := hstart.resolve_right fun hne => hne rfl
      have hvalue : value S.digit S.base tm [] = tm := rfl
      rw [hvalue, List.nil_append]
      by_cases hrejects : R tm c
      · rw [Scanner.scan, if_pos ((hS.overflow_iff tm c).mpr hrejects), if_pos hrejects]
      · have hpass : S.overflow tm c = false :=
          Bool.eq_false_iff.mpr (mt (hS.overflow_iff tm c).mp hrejects)
        rw [Scanner.scan_stop hpass hc, if_neg hrejects]
  | cons ch ds ih =>
      obtain ⟨d, hd⟩ := Option.isSome_iff_exists.mp (hds ch List.mem_cons_self)
      have hvalue : value S.digit S.base tm (ch :: ds) =
          value S.digit S.base (tm * S.base + d) ds := by simp [value, hd]
      rw [hvalue, List.cons_append]
      by_cases hrejects : R tm ch
      · rw [Scanner.scan, if_pos ((hS.overflow_iff tm ch).mpr hrejects),
          if_pos (hS.kept tm ch d _ c hd hrejects (le_value hS.base_pos _ _))]
      · have hpass : S.overflow tm ch = false :=
          Bool.eq_false_iff.mpr (mt (hS.overflow_iff tm ch).mp hrejects)
        have hne : ch ≠ 0x20 := by
          rintro rfl
          rw [hS.blank] at hd
          cases hd
        rw [Scanner.scan_digit hpass hne hd (by simp [hS.unlimited]),
          Nat.mod_eq_of_lt (hS.fits tm ch d hd hrejects)]
        exact ih (fun x hx => hds x (List.mem_cons_of_mem _ hx)) (Or.inl rfl)

/-- The guard has let the number through that a scanner returns. -/
theorem Scanner.overflow_of_scan {v : ℕ} (h : S.scan tm cnt detect s = some (some v)) :
    ∃ ch, S.overflow v ch = false := by
  induction s generalizing tm cnt detect with
  | nil => simp [Scanner.scan] at h
  | cons ch s ih =>
      rw [Scanner.scan] at h
      split at h
      · simp at h
      next hov =>
        split at h
        · exact ih h
        split at h
        · split at h
          · simp at h
          · exact ih h
        · split at h
          · obtain rfl : tm = v := by simpa using h
            exact ⟨ch, by simpa using hov⟩
          split at h
          · exact ih h
          · simp at h

/-- A scanner comes to an end at a character that ends its number. -/
theorem Scanner.scan_isSome {c : UInt8} {pre rest : List UInt8} (hc : S.digit c = none)
    (hcb : c ≠ 0x20) (hstart : detect = true ∨ S.skips = false ∨
      ∃ ch ∈ pre, ch ≠ 0x20 ∧ (S.digit ch).isSome = true) :
    (S.scan tm cnt detect (pre ++ c :: rest)).isSome = true := by
  induction pre generalizing tm cnt detect with
  | nil =>
      rw [List.nil_append, Scanner.scan]
      rcases hstart with rfl | hs | ⟨ch, hch, -⟩
      · simp [hc, hcb, apply_ite Option.isSome]
      · simp [hc, hcb, hs, apply_ite Option.isSome]
      · simp at hch
  | cons a pre ih =>
      rw [List.cons_append, Scanner.scan]
      split
      · rfl
      split
      · next hblank =>
          refine ih (hstart.imp_right (Or.imp_right ?_))
          rintro ⟨ch, hch, hne, hd⟩
          exact ⟨ch, (List.mem_cons.mp hch).resolve_left (fun h => hne (h.trans hblank.2)),
            hne, hd⟩
      split
      · split
        · rfl
        · exact ih (Or.inl rfl)
      · next hnone =>
          split
          · rfl
          split
          · next hdet hskip =>
              refine ih (hstart.imp_right (Or.imp_right ?_))
              rintro ⟨ch, hch, hne, hd⟩
              refine ⟨ch, (List.mem_cons.mp hch).resolve_left ?_, hne, hd⟩
              rintro rfl
              rw [hnone] at hd
              exact absurd hd (by simp)
          · rfl

/-- A scanner that passes over blanks alone fails at any other character that is no
digit. -/
theorem Scanner.scan_eq_none {rest : List UInt8} (hskip : S.skips = false)
    (hd : S.digit ch = none) (hs : s.dropWhile (· = 0x20) = ch :: rest) :
    S.scan tm cnt false s = some none := by
  induction s with
  | nil => simp at hs
  | cons a s ih =>
      rw [Scanner.scan]
      split
      · rfl
      by_cases ha : a = 0x20
      · rw [if_pos ⟨rfl, ha⟩]
        exact ih (by simpa [ha] using hs)
      · obtain ⟨rfl, rfl⟩ : a = ch ∧ s = rest := by simpa [ha] using hs
        rw [if_neg (fun h => ha h.2)]
        simp [hd, hskip]

/-- A scanner that passes over blanks alone reads a number only where a digit stands. -/
theorem Scanner.exists_digit_of_scan {v : ℕ} {c : UInt8} {pre rest : List UInt8}
    (hskip : S.skips = false) (hc : S.digit c = none) (hcb : c ≠ 0x20)
    (h : S.scan tm cnt false (pre ++ c :: rest) = some (some v)) :
    ∃ ch ∈ pre, ch ≠ 0x20 ∧ (S.digit ch).isSome = true := by
  induction pre generalizing tm cnt with
  | nil =>
      rw [List.nil_append, Scanner.scan] at h
      simp [hc, hcb, hskip] at h
  | cons a pre ih =>
      rw [List.cons_append, Scanner.scan] at h
      split at h
      · simp at h
      split at h
      · obtain ⟨ch, hch, hd⟩ := ih h
        exact ⟨ch, List.mem_cons_of_mem _ hch, hd⟩
      · next hblank =>
          have hne : a ≠ 0x20 := fun ha => hblank ⟨rfl, ha⟩
          split at h
          · next d hd => exact ⟨a, List.mem_cons_self, hne, by simp [hd]⟩
          · simp [hskip] at h

/-- Digits behind a number leave it below a power of the base. -/
theorem value_lt {digit : UInt8 → Option ℕ} {base n : ℕ} {ds : List UInt8} (hbase : 1 ≤ base)
    (hdigit : ∀ ch d, digit ch = some d → d < base) :
    value digit base n ds < (n + 1) * base ^ ds.length := by
  induction ds generalizing n with
  | nil => simp [value]
  | cons ch ds ih =>
      have hd : (digit ch).getD 0 < base := by
        cases hch : digit ch with
        | none => exact hbase
        | some d => exact hdigit ch d hch
      calc value digit base n (ch :: ds)
          < (n * base + (digit ch).getD 0 + 1) * base ^ ds.length := ih
        _ ≤ ((n + 1) * base) * base ^ ds.length := by
          refine Nat.mul_le_mul_right _ ?_
          rw [Nat.add_mul]
          omega
        _ = (n + 1) * base ^ (ch :: ds).length := by
          rw [List.length_cons, pow_succ]
          ring

/-- The value of a number is below the power of the base that its length says. -/
theorem decimal_lt {ds : List UInt8} : decimal ds < 10 ^ ds.length := by
  have hlt : value decValue 10 0 ds < (0 + 1) * 10 ^ ds.length :=
    value_lt (by omega) fun ch d hd => (decValue_lt hd).1
  simpa using hlt

/-- A hexadecimal digit is the digit of its value, in upper case. -/
theorem hexDigit_of_hexValue {ch : UInt8} {d : ℕ} (h : hexValue ch = some d) :
    hexDigit d = upperCase ch := by
  rw [hexDigit, upperCase]
  simp only [hexValue, UInt8.le_iff_toNat_le, UInt8.reduceToNat] at h ⊢
  apply UInt8.toNat_inj.mp
  split at h
  · obtain rfl := Option.some.inj h
    rw [if_neg (by omega), if_neg (by omega), UInt8.toNat_ofNat']
    omega
  split at h
  · obtain rfl := Option.some.inj h
    rw [if_pos (by omega), if_neg (by omega), UInt8.toNat_ofNat']
    omega
  split at h
  · obtain rfl := Option.some.inj h
    have hsub : (ch - 0x20).toNat = ch.toNat - 0x20 :=
      UInt8.toNat_sub_of_le ch 0x20 (UInt8.le_iff_toNat_le.mpr (by simp; omega))
    rw [if_pos (by omega), if_pos (by omega), UInt8.toNat_ofNat', hsub]
    omega
  · cases h

/-- **Writing the value of hexadecimal digits reproduces them**, in upper case. Digits that stood
in front of them do not matter. -/
theorem writeHex_value {n : ℕ} {ds : List UInt8} (hds : ∀ ch ∈ ds, (hexValue ch).isSome = true) :
    writeHex ds.length (value hexValue 16 n ds) = ds.map upperCase := by
  induction ds using List.reverseRecOn with
  | nil => rfl
  | append_singleton ds ch ih =>
      obtain ⟨d, hd⟩ := Option.isSome_iff_exists.mp (hds ch (by simp))
      have hlt : d < 16 := hexValue_lt hd
      have hlast : value hexValue 16 n (ds ++ [ch]) = value hexValue 16 n ds * 16 + d := by
        simp [value, hd]
      have hfront : (value hexValue 16 n ds * 16 + d) / 16 = value hexValue 16 n ds := by omega
      have hdigit : (value hexValue 16 n ds * 16 + d) % 16 = d := by omega
      rw [List.length_append, List.length_singleton, writeHex, hlast, hfront, hdigit,
        ih fun x hx => hds x (List.mem_append_left _ hx), hexDigit_of_hexValue hd, List.map_append,
        List.map_singleton]

/-- Hexadecimal digits have a value below the power of sixteen that their number says. -/
theorem hexadecimal_lt {ds : List UInt8} : value hexValue 16 0 ds < 16 ^ ds.length := by
  have hlt : value hexValue 16 0 ds < (0 + 1) * 16 ^ ds.length :=
    value_lt (by omega) fun ch d hd => hexValue_lt hd
  simpa using hlt

/-- A scanner goes through digits that its guard, its limit and its width let through. -/
theorem Scanner.scan_digits {ds : List UInt8} (hblank : S.digit 0x20 = none)
    (hds : ∀ ch ∈ ds, (S.digit ch).isSome = true)
    (hclear : ∀ pre ch post, ds = pre ++ ch :: post →
      S.overflow (value S.digit S.base tm pre) ch = false ∧
        value S.digit S.base tm (pre ++ [ch]) < 2 ^ S.width ∧
        ∀ m ∈ S.maxDigits, cnt + pre.length < m)
    (hstart : detect = true ∨ ds ≠ []) :
    S.scan tm cnt detect (ds ++ s) =
      S.scan (value S.digit S.base tm ds) (cnt + ds.length) true s := by
  induction ds generalizing tm cnt detect with
  | nil =>
      obtain rfl : detect = true := hstart.resolve_right fun hne => hne rfl
      rfl
  | cons ch ds ih =>
      obtain ⟨d, hd⟩ := Option.isSome_iff_exists.mp (hds ch List.mem_cons_self)
      have hfirst : S.overflow tm ch = false ∧ value S.digit S.base tm [ch] < 2 ^ S.width ∧
          ∀ m ∈ S.maxDigits, cnt < m := hclear [] ch ds rfl
      obtain ⟨hov, hfit, hmax⟩ := hfirst
      have hch : ch ≠ 0x20 := by
        rintro rfl
        rw [hblank] at hd
        exact absurd hd (by simp)
      have hstep : value S.digit S.base tm [ch] = tm * S.base + d := by simp [value, hd]
      have hrest : ∀ es, value S.digit S.base (tm * S.base + d) es =
          value S.digit S.base tm (ch :: es) := by
        intro es
        simp [value, hd]
      rw [hstep] at hfit
      rw [List.cons_append, Scanner.scan_digit hov hch hd hmax, Nat.mod_eq_of_lt hfit,
        ih (fun x hx => hds x (List.mem_cons_of_mem _ hx)) ?_ (Or.inl rfl), hrest,
        List.length_cons, Nat.add_assoc, Nat.add_comm 1]
      rintro pre x post rfl
      obtain ⟨hov', hfit', hmax'⟩ := hclear (ch :: pre) x post rfl
      refine ⟨by rwa [hrest], by rwa [hrest], fun m hm => ?_⟩
      have hlen := hmax' m hm
      rw [List.length_cons] at hlen
      omega

/-- A scanner that passes over any character passes over all of them in front of a digit. -/
theorem Scanner.scan_skip {junk : List UInt8} (hskips : S.skips = true)
    (hov : ∀ ch ∈ junk, S.overflow tm ch = false) (hd : ∀ ch ∈ junk, S.digit ch = none) :
    S.scan tm cnt false (junk ++ s) = S.scan tm cnt false s := by
  induction junk with
  | nil => rfl
  | cons ch junk ih =>
      have hrest : S.scan tm cnt false (junk ++ s) = S.scan tm cnt false s :=
        ih (fun x hx => hov x (List.mem_cons_of_mem _ hx)) fun x hx =>
          hd x (List.mem_cons_of_mem _ hx)
      rw [List.cons_append, Scanner.scan, hov ch List.mem_cons_self]
      simp only [hd ch List.mem_cons_self, hskips, hrest]
      simp

/-- Any scanner passes over blanks. -/
theorem Scanner.scan_blanks {blanks : List UInt8} (hov : S.overflow tm 0x20 = false)
    (hblanks : ∀ ch ∈ blanks, ch = 0x20) :
    S.scan tm cnt false (blanks ++ s) = S.scan tm cnt false s := by
  induction blanks with
  | nil => rfl
  | cons ch blanks ih =>
      obtain rfl := hblanks ch List.mem_cons_self
      rw [List.cons_append, Scanner.scan, hov, if_neg (by simp), if_pos ⟨rfl, rfl⟩]
      exact ih fun x hx => hblanks x (List.mem_cons_of_mem _ hx)

end Digits
