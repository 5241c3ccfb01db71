import Mathlib.Data.List.Basic

/-!
# C Strings

A pointer to characters is the memory behind it, a `List UInt8`. A search that runs off
the end of that memory has no defined result, which is `none`; an inner `none` is the
null pointer.

## Main results

* `strchr_eq_some_iff`, `strrchr_eq_some_iff`: what a character found says about the
  memory.
* `strchr_isSome`, `strrchr_isSome`: a search of a terminated string has a result.
-/

namespace CString

/-- The characters of a literal, without its terminator. -/
def ascii (s : String) : List UInt8 := s.toList.map fun ch => UInt8.ofNat ch.toNat

/-- `strchr`: the index of the first `c` of the string. -/
def strchr (c : UInt8) : List UInt8 → Option (Option ℕ)
  | [] => none
  | a :: s =>
      if a = c then some (some 0) else if a = 0 then some none
      else (strchr c s).map (Option.map (· + 1))

/-- `strrchr`: the index of the last `c` of the string, for a `c` that is no terminator. -/
def strrchr (c : UInt8) : List UInt8 → Option (Option ℕ)
  | [] => none
  | a :: s =>
      if a = 0 then some none
      else (strrchr c s).map fun
        | some i => some (i + 1)
        | none => if a = c then some 0 else none

/-- A string: characters with no terminator among them. -/
structure Str where
  chars : List UInt8
  noNul : 0 ∉ chars

/-- The memory that a pointer to a string leads to, with `rest` behind the terminator. -/
def Str.mem (s : Str) (rest : List UInt8) : List UInt8 := s.chars ++ 0 :: rest

/-- `!strncmp(s, lit, strlen(lit))` for a literal: the string starts with it. -/
def startsWith (lit : String) (s : List UInt8) : Bool := (ascii lit).isPrefixOf s

/-- A character is found at the end of a stretch without it and without a terminator. -/
theorem strchr_append {c : UInt8} {pre rest : List UInt8} (hc : c ∉ pre) (h0 : 0 ∉ pre) :
    strchr c (pre ++ c :: rest) = some (some pre.length) := by
  induction pre with
  | nil => simp [strchr]
  | cons a pre ih =>
      obtain ⟨hac, hc⟩ : c ≠ a ∧ c ∉ pre := by simpa using hc
      obtain ⟨ha0, h0⟩ : 0 ≠ a ∧ 0 ∉ pre := by simpa using h0
      rw [List.cons_append, strchr, if_neg hac.symm, if_neg ha0.symm, ih hc h0]
      simp

/-- **Where a character is found**: the memory before it has neither the character nor a
terminator. -/
theorem strchr_eq_some_iff {c : UInt8} {s : List UInt8} {i : ℕ} :
    strchr c s = some (some i) ↔
      ∃ pre rest, s = pre ++ c :: rest ∧ pre.length = i ∧ c ∉ pre ∧ 0 ∉ pre := by
  constructor
  · intro h
    induction s generalizing i with
    | nil => simp [strchr] at h
    | cons a s ih =>
        rw [strchr] at h
        rcases eq_or_ne a c with rfl | hac
        · rw [if_pos rfl] at h
          obtain rfl : 0 = i := by simpa using h
          exact ⟨[], s, rfl, rfl, by simp, by simp⟩
        rcases eq_or_ne a 0 with rfl | ha0
        · rw [if_neg hac, if_pos rfl] at h
          simp at h
        · rw [if_neg hac, if_neg ha0] at h
          obtain ⟨r, hr, hi⟩ := Option.map_eq_some_iff.mp h
          obtain ⟨j, rfl, rfl⟩ := Option.map_eq_some_iff.mp hi
          obtain ⟨pre, rest, rfl, rfl, hc, h0⟩ := ih hr
          exact ⟨a :: pre, rest, rfl, rfl, by simp [hac.symm, hc], by simp [ha0.symm, h0]⟩
  · rintro ⟨pre, rest, rfl, rfl, hc, h0⟩
    exact strchr_append hc h0

/-- A string is cut at its first separator in one way. -/
theorem split_unique {c : UInt8} {pre pre' x y : List UInt8}
    (h : pre ++ c :: x = pre' ++ c :: y) (hpre : c ∉ pre) (hpre' : c ∉ pre') :
    pre = pre' ∧ x = y := by
  rcases List.append_eq_append_iff.mp h with ⟨z, rfl, hz⟩ | ⟨z, rfl, hz⟩
  · cases z with
    | nil => exact ⟨by simp, (List.cons.inj hz).2⟩
    | cons b z => exact absurd (by simp [(List.cons.inj hz).1]) hpre'
  · cases z with
    | nil => exact ⟨by simp, (List.cons.inj hz).2.symm⟩
    | cons b z => exact absurd (by simp [(List.cons.inj hz).1]) hpre

/-- A string is cut at its last separator in one way. -/
theorem split_last_unique {c : UInt8} {pre pre' x y : List UInt8}
    (h : pre ++ c :: x = pre' ++ c :: y) (hx : c ∉ x) (hy : c ∉ y) : pre = pre' ∧ x = y := by
  rcases List.append_eq_append_iff.mp h with ⟨z, rfl, hz⟩ | ⟨z, rfl, hz⟩
  · cases z with
    | nil => exact ⟨by simp, (List.cons.inj hz).2⟩
    | cons b z => exact absurd (by simp [(List.cons.inj hz).2]) hx
  · cases z with
    | nil => exact ⟨by simp, (List.cons.inj hz).2.symm⟩
    | cons b z => exact absurd (by simp [(List.cons.inj hz).2]) hy

/-- A search of a terminated string has a result. -/
theorem strchr_isSome {c : UInt8} {s : List UInt8} (h : 0 ∈ s) : (strchr c s).isSome := by
  induction s with
  | nil => simp at h
  | cons a s ih =>
      rw [strchr]
      rcases eq_or_ne a c with hac | hac
      · simp [hac]
      rcases eq_or_ne a 0 with rfl | ha0
      · simp [hac]
      · have hs : 0 ∈ s := (List.mem_cons.mp h).resolve_left (Ne.symm ha0)
        simpa [hac, ha0] using ih hs

/-- A search from the end of a terminated string has a result. -/
theorem strrchr_isSome {c : UInt8} {s : List UInt8} (h : 0 ∈ s) : (strrchr c s).isSome := by
  induction s with
  | nil => simp at h
  | cons a s ih =>
      rw [strrchr]
      rcases eq_or_ne a 0 with rfl | ha0
      · simp
      · have hs : 0 ∈ s := (List.mem_cons.mp h).resolve_left (Ne.symm ha0)
        simpa [ha0] using ih hs

/-- A character that is not found does not stand in front of the terminator. -/
theorem strrchr_eq_none {c : UInt8} {s : List UInt8} (h : strrchr c s = some none) :
    ∃ post rest, s = post ++ 0 :: rest ∧ c ∉ post ∧ 0 ∉ post := by
  induction s with
  | nil => simp [strrchr] at h
  | cons a s ih =>
      rw [strrchr] at h
      rcases eq_or_ne a 0 with rfl | ha0
      · exact ⟨[], s, rfl, by simp, by simp⟩
      rw [if_neg ha0] at h
      obtain ⟨r, hr, hi⟩ := Option.map_eq_some_iff.mp h
      cases r with
      | some j => simp at hi
      | none =>
          rcases eq_or_ne a c with hac | hac
          · simp [hac] at hi
          obtain ⟨post, rest, rfl, hc, h0⟩ := ih hr
          exact ⟨a :: post, rest, rfl, by simp [hac.symm, hc], by simp [ha0.symm, h0]⟩

/-- No character of a stretch up to the terminator is found. -/
theorem strrchr_terminated {c : UInt8} {pre rest : List UInt8} (hc : c ∉ pre) (h0 : 0 ∉ pre) :
    strrchr c (pre ++ 0 :: rest) = some none := by
  induction pre with
  | nil => simp [strrchr]
  | cons a pre ih =>
      obtain ⟨hac, hc⟩ : c ≠ a ∧ c ∉ pre := by simpa using hc
      obtain ⟨ha0, h0⟩ : 0 ≠ a ∧ 0 ∉ pre := by simpa using h0
      rw [List.cons_append, strrchr, if_neg ha0.symm, ih hc h0]
      simp [hac.symm]

/-- The last of the characters is found. -/
theorem strrchr_append {c : UInt8} {pre post rest : List UInt8} (hc0 : c ≠ 0)
    (h0 : 0 ∉ pre) (hc : c ∉ post) (h0' : 0 ∉ post) :
    strrchr c (pre ++ c :: (post ++ 0 :: rest)) = some (some pre.length) := by
  induction pre with
  | nil => simp [strrchr, if_neg hc0, strrchr_terminated hc h0']
  | cons a pre ih =>
      obtain ⟨ha0, h0⟩ : 0 ≠ a ∧ 0 ∉ pre := by simpa using h0
      rw [List.cons_append, strrchr, if_neg ha0.symm, ih h0]
      simp

/-- **Where the last of the characters is found**: none follows up to the terminator. -/
theorem strrchr_eq_some_iff {c : UInt8} {s : List UInt8} {i : ℕ} (hc0 : c ≠ 0) :
    strrchr c s = some (some i) ↔
      ∃ pre post rest, s = pre ++ c :: (post ++ 0 :: rest) ∧ pre.length = i ∧ 0 ∉ pre ∧
        c ∉ post ∧ 0 ∉ post := by
  constructor
  · intro h
    induction s generalizing i with
    | nil => simp [strrchr] at h
    | cons a s ih =>
        rw [strrchr] at h
        rcases eq_or_ne a 0 with rfl | ha0
        · simp at h
        rw [if_neg ha0] at h
        obtain ⟨r, hr, hi⟩ := Option.map_eq_some_iff.mp h
        cases r with
        | some j =>
            obtain rfl : j + 1 = i := by simpa using hi
            obtain ⟨pre, post, rest, rfl, rfl, h0, hc, h0'⟩ := ih hr
            exact ⟨a :: pre, post, rest, rfl, rfl, by simp [ha0.symm, h0], hc, h0'⟩
        | none =>
            rcases eq_or_ne a c with rfl | hac
            · obtain rfl : 0 = i := by simpa using hi
              obtain ⟨post, rest, rfl, hc, h0⟩ := strrchr_eq_none hr
              exact ⟨[], post, rest, rfl, rfl, by simp, hc, h0⟩
            · simp [hac] at hi
  · rintro ⟨pre, post, rest, rfl, rfl, h0, hc, h0'⟩
    exact strrchr_append hc0 h0 hc h0'

/-- A string is cut at its last separator in one way. -/
theorem last_unique {c : UInt8} {upto upto' post post' rest rest' : List UInt8} (hc0 : c ≠ 0)
    (h : upto ++ c :: (post ++ 0 :: rest) = upto' ++ c :: (post' ++ 0 :: rest'))
    (hupto : 0 ∉ upto) (hupto' : 0 ∉ upto') (hpost : c ∉ post ∧ 0 ∉ post)
    (hpost' : c ∉ post' ∧ 0 ∉ post') : upto = upto' ∧ post = post' ∧ rest = rest' := by
  have hfound : strrchr c (upto ++ c :: (post ++ 0 :: rest)) = some (some upto'.length) := by
    rw [h]
    exact strrchr_append hc0 hupto' hpost'.1 hpost'.2
  rw [strrchr_append hc0 hupto hpost.1 hpost.2] at hfound
  obtain ⟨rfl, hrest⟩ := List.append_inj h (by simpa using hfound)
  exact ⟨rfl, split_unique (List.cons.inj hrest).2 hpost.2 hpost'.2⟩

/-- What stands behind any `c` of a string goes on up to the last one. -/
theorem behind_last {c : UInt8} {pre data upto post rest : List UInt8} (hc0 : c ≠ 0)
    (hs : pre ++ c :: data = upto ++ c :: (post ++ 0 :: rest)) (hpre : 0 ∉ pre)
    (hupto : 0 ∉ upto) (hpost : c ∉ post) :
    ∃ mid, 0 ∉ mid ∧ data = mid ++ (post ++ 0 :: rest) := by
  rcases List.append_eq_append_iff.mp hs with ⟨mid, rfl, htail⟩ | ⟨mid, rfl, htail⟩
  · cases mid with
    | nil => exact ⟨[], by simp, (List.cons.inj htail).2⟩
    | cons a mid =>
        obtain ⟨rfl, rfl⟩ := List.cons.inj htail
        exact ⟨mid ++ [c], by simp_all [Ne.symm hc0], by simp⟩
  · cases mid with
    | nil => exact ⟨[], by simp, (List.cons.inj htail).2.symm⟩
    | cons a mid =>
        have hmid : post ++ 0 :: rest = mid ++ c :: data := (List.cons.inj htail).2
        have h0 : 0 ∉ mid := fun h => hpre (by simp [h])
        -- `c` would stand in `post`, or the terminator in front of it
        rcases List.append_eq_append_iff.mp hmid with ⟨x, rfl, hx⟩ | ⟨x, rfl, hx⟩
        · cases x with
          | nil => exact absurd (List.cons.inj hx).1.symm hc0
          | cons b x => exact absurd (by simp [(List.cons.inj hx).1]) h0
        · cases x with
          | nil => exact absurd (List.cons.inj hx).1 hc0
          | cons b x => exact absurd (by simp [(List.cons.inj hx).1]) hpost

end CString
