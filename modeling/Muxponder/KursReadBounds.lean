import Mathlib.Data.List.TakeWhile
import Muxponder.KursReplyBound

/-!
# What a Read Request Comes To

`HandleKursRdStrValueAndColor` and `HandleKursRdProfile` of `kurs_core.c` parse a number
with the default -1 and compare it, as a signed number, with the ranges of the tables. A
section number that names no section with parameters should be answered with `;NA`, and a
line number that names no line with `0;NA`. The code leaves `section_index` at 0 for the
first kind, and takes -1 for the number of a line.

## Main results

* `readRequests_bounded_iff`: for which requests the two handlers answer so, whatever the
  variables hold.
-/

namespace Muxponder

open Memory CString Digits Printf

variable {L : Layout} {T : KursTables L} {S : KursState} {c : KursCall} {n : UInt32}

/-! ### The answers -/

/-- A number stands in the request, perhaps one that does not fit. -/
def KursCall.hasNumber (c : KursCall) : Bool :=
  ((c.strRx.drop 2).dropWhile (· = 0x20)).head?.any fun ch => (decValue ch).isSome

/-- The section with parameters that a number names. -/
def KursSections.named (T : KursSections) (n : UInt32) : Option (Fin PROFILE_SECTION_COUNT) :=
  (namedSection (asInt n)).filter T.filled

/-- The values of a section in a reply. -/
def sectionPrint {L : Layout} (T : KursTables L) (S : KursState) (c : KursCall) (n : UInt32)
    (i : Fin PROFILE_SECTION_COUNT) : KursState × List UInt8 :=
  let shown := showSection L c (c.colored n) (T.params i) S
  (shown.1, c.checked (integer (asInt n) ++ (shown.2 ++ [SEMICOLON])))

/-- A request for a section is answered with the values of the section it names, and with
`;NA` where its number names none. A request without a number may stay without a reply. -/
def SectionAnswered {L : Layout} (T : KursTables L) (S : KursState) (c : KursCall) : Prop :=
  ∃ n, c.number = some n ∧
    match T.named n with
    | some i => handleKursRdStrValueAndColor T S c = some (sectionPrint T S c n i)
    | none =>
        handleKursRdStrValueAndColor T S c =
            some (S, c.checked (integer (asInt n) ++ (ascii ";NA" ++ [SEMICOLON]))) ∨
          c.hasNumber = false ∧ handleKursRdStrValueAndColor T S c = some (S, [])

/-- The line that a number names: 1 to `line_count`. -/
def namedLine {L : Layout} (T : KursTables L) (n : UInt32) : Option ℕ :=
  if 1 ≤ asInt n ∧ asInt n ≤ T.lineCount.toNat then some ((asInt n).toNat - 1) else none

/-- A request for a line is answered with the line it names, with the number of lines for
the number 0, and with `0;NA` where it names none. -/
def LineAnswered {L : Layout} (T : KursTables L) (S : KursState) (c : KursCall) : Prop :=
  ∃ n, c.number = some n ∧
    handleKursRdProfile T S c = some (S, c.checked
      ((match namedLine T n with
        | some k => integer (asInt n) ++ SEMICOLON :: T.text k
        | none =>
            if n = 0 then integer 0 ++ SEMICOLON :: unsigned T.lineCount.toNat
            else ascii "0;NA") ++ [SEMICOLON]))

/-! ### Numbers -/

/-- A request without a digit has no number for the code. -/
theorem number_of_hasNumber_eq_false (h : c.hasNumber = false) :
    c.number = some 0xFFFFFFFF := by
  have hterm := strRx_drop_terminated (c := c)
  have hne : (c.strRx.drop 2).dropWhile (· = 0x20) ≠ [] := by
    intro hnil
    have hblank := List.dropWhile_eq_nil_iff.mp hnil 0 hterm
    simp at hblank
  obtain ⟨ch, rest, hs⟩ := List.exists_cons_of_ne_nil hne
  have hd : decValue ch = none := by
    rw [KursCall.hasNumber, hs] at h
    simpa using h
  have hscan : strToU32DefScanner.scan 0 0 false (c.strRx.drop 2) = some none :=
    Scanner.scan_eq_none rfl hd hs
  rw [KursCall.number, strToU32Def, hscan]
  rfl

/-- The section whose index is left in `section_index`: the first one for a number that
names none. -/
theorem sectionIndex_named (hn : 0 ≤ asInt n) :
    T.sectionIndex (asInt n) = some ((T.named n).getD 0) := by
  rw [KursSections.sectionIndex, if_neg (by omega), KursSections.named]
  cases hs : namedSection (asInt n) with
  | none => rfl
  | some i => cases hf : T.filled i <;> simp [Option.filter, hf]

/-- A section that is named has parameters. -/
theorem filled_of_named {i : Fin PROFILE_SECTION_COUNT} (h : T.named n = some i) :
    T.filled i = true :=
  (Option.filter_eq_some_iff.mp h).2

/-- What the handler does with a number. -/
theorem handleKursRdStrValueAndColor_eq (hn : c.number = some n) (hne : n ≠ 0xFFFFFFFF) :
    handleKursRdStrValueAndColor T S c =
      some ((readSection T S c n ((T.named n).getD 0)).1,
        c.checked (integer (asInt n) ++
          ((readSection T S c n ((T.named n).getD 0)).2 ++ [SEMICOLON]))) := by
  have hpos : 0 ≤ asInt n := (number_cases hn).resolve_left hne
  rw [handleKursRdStrValueAndColor, hn, Option.bind_some, if_neg hne,
    sectionIndex_named hpos, Option.map_some]
  rfl

/-- The text in front of the last separator is known from a reply. -/
theorem checked_semicolon_inj {x y : List UInt8}
    (h : c.checked (x ++ [SEMICOLON]) = c.checked (y ++ [SEMICOLON])) : x = y := by
  have hcrc : ∀ v : UInt16, SEMICOLON ∉ unsigned v.toNat ++ [KURS_EOP] := by
    intro v hmem
    rcases List.mem_append.mp hmem with hmem | hmem
    · exact not_mem_unsigned (by decide) hmem
    · exact absurd (List.mem_singleton.mp hmem) (by decide)
  have hreply : ∀ t, c.checked (t ++ [SEMICOLON]) = (c.header ++ t) ++ SEMICOLON ::
      (unsigned (getCrc16Ascii (c.header ++ (t ++ [SEMICOLON]))
        (c.header ++ (t ++ [SEMICOLON])).length).toNat ++ [KURS_EOP]) := by
    intro t
    simp [KursCall.checked]
  rw [hreply, hreply] at h
  exact List.append_cancel_left (split_last_unique h (hcrc _) (hcrc _)).1

/-! ### The values of a cleared memory -/

/-- Where no byte of the memory is set, a value is printed as nothing or with a zero in
front. -/
theorem getStrParamValueItem_zero {p : SectionParam} :
    getStrParamValueItem p (fun _ => 0) = [] ∨
      ∃ t, getStrParamValueItem p (fun _ => 0) = 0x30 :: t := by
  have h32 : Mem.load32 (fun _ => 0) p.data = 0 := rfl
  have h64 : Mem.load64 (fun _ => 0) p.data = 0 := rfl
  have hzero : unsigned 0 = [0x30] := rfl
  rw [getStrParamValueItem]
  split
  · exact Or.inl rfl
  cases p.type with
  | u64 =>
      rw [h64]
      exact Or.inr ⟨[], rfl⟩
  | bool | u32 | enum | bitmsk | s32 =>
      rw [h32]
      exact Or.inr ⟨[], rfl⟩
  | hex =>
      rw [h32]
      exact Or.inr ⟨_, rfl⟩
  | oid | str =>
      refine Or.inl (List.takeWhile_eq_nil_iff.mpr fun hpos => ?_)
      simp
  | float =>
      have hfixed : ∀ f, fixed (precision f) 0 = unsigned 0 ++ 0x2E :: padded (precision f) 0 := by
        intro f
        rcases f with _ | _ | _ <;> rfl
      rw [h32]
      dsimp only
      rw [hfixed, hzero]
      exact Or.inr ⟨_, rfl⟩
  | ip =>
      have hip : ipText (fun _ => 0) p.data = unsigned 0 ++ 0x2E :: (unsigned 0 ++ 0x2E ::
          (unsigned 0 ++ 0x2E :: unsigned 0)) := rfl
      dsimp only
      rw [hip, hzero]
      exact Or.inr ⟨_, rfl⟩
  | inc | na => exact Or.inl rfl

/-- A colour in print starts with its separator. -/
theorem showColor_head {lt : UInt32 → UInt32 → Bool} {R : Readings} {p : ProfileParam}
    {A : ParamsT2Add} {m : Mem} :
    (showColor lt R p A m).2 = [] ∨ ∃ t, (showColor lt R p A m).2 = 0x40 :: t := by
  rw [showColor]
  split
  · exact Or.inl rfl
  split
  · exact Or.inr ⟨_, rfl⟩
  split
  · exact Or.inr ⟨_, rfl⟩
  · exact Or.inr ⟨_, rfl⟩

/-- A parameter in print is a separator, a value and a colour, and only the colour changes
its record. -/
theorem showParam_text (L : Layout) (c : KursCall) (colored : Bool) (S : KursState)
    (p : SectionParam) : ∃ color, (color = [] ∨ ∃ t, color = 0x40 :: t) ∧
      (showParam L c colored S p).2 = SEMICOLON ::
        (getStrParamValueItem p (refresh L c.readings p.toProfileParam S.mem) ++ color) ∧
      (showParam L c colored S p).1.mem = refresh L c.readings p.toProfileParam S.mem := by
  rw [showParam]
  cases (if colored then p.dAdd else none) with
  | none => exact ⟨[], Or.inl rfl, by simp, rfl⟩
  | some a => exact ⟨_, showColor_head, rfl, rfl⟩

/-- Every parameter in print has its separator. -/
theorem semicolon_mem_showSection {colored : Bool} {p : SectionParam}
    {ps : List SectionParam} : SEMICOLON ∈ (showSection L c colored (p :: ps) S).2 := by
  obtain ⟨color, -, htext, -⟩ := showParam_text L c colored S p
  simp only [showSection, htext, List.mem_append]
  exact Or.inl List.mem_cons_self

/-- **A section with parameters is not shown as `;NA`** in a memory that stays cleared. -/
theorem showSection_ne_na {colored : Bool} {p : SectionParam} {ps : List SectionParam}
    (hmem : S.mem = fun _ => 0) :
    showSection L c colored (p :: ps) S ≠ (S, ascii ";NA") := by
  intro heq
  obtain ⟨color, hcolor, htext, hafter⟩ := showParam_text L c colored S p
  obtain ⟨hstate, hna⟩ := Prod.mk.inj heq
  have hsplit : (getStrParamValueItem p (refresh L c.readings p.toProfileParam S.mem) ++
      color) ++ (showSection L c colored ps (showParam L c colored S p).1).2 = [0x4E, 0x41] := by
    rw [htext, List.cons_append] at hna
    exact (List.cons.inj hna).2
  cases ps with
  | cons q ps =>
      have hmore : SEMICOLON ∈ [(0x4E : UInt8), 0x41] :=
        hsplit ▸ List.mem_append_right _ semicolon_mem_showSection
      exact absurd hmore (by decide)
  | nil =>
      rw [showSection, List.append_nil] at hsplit
      have hrefresh : refresh L c.readings p.toProfileParam S.mem = fun _ => 0 := by
        rw [← hafter, ← hmem]
        exact congrArg KursState.mem hstate
      rw [hrefresh] at hsplit
      rcases getStrParamValueItem_zero (p := p) with hvalue | ⟨t, hvalue⟩
      · rw [hvalue, List.nil_append] at hsplit
        rcases hcolor with rfl | ⟨t, rfl⟩
        · simp at hsplit
        · simp at hsplit
      · rw [hvalue, List.cons_append] at hsplit
        exact absurd (List.cons.inj hsplit).1 (by decide)

/-! ### The requests that are answered -/

/-- A section that has parameters has a first one. -/
theorem params_of_filled {i : Fin PROFILE_SECTION_COUNT} (h : T.filled i = true) :
    ∃ p ps, T.params i = p :: ps := by
  rw [KursSections.filled, Bool.and_eq_true, decide_eq_true_eq] at h
  obtain ⟨entries, he⟩ := Option.isSome_iff_exists.mp h.1
  have hpos : 0 < (T.sectionParamCount i).toNat := UInt16.lt_iff_toNat_lt.mp h.2
  refine List.exists_cons_of_length_pos ?_
  rw [KursSections.params, he]
  simpa using hpos

/-- **Requests for a section**: a number that cannot be read stays without an answer, and
one that names no section gets the values of the first one. -/
theorem sectionAnswered_iff :
    (∀ S, SectionAnswered T S c) ↔ ∀ n ∈ c.number, c.hasNumber = true →
      n ≠ 0xFFFFFFFF ∧ ((T.named n).isSome = true ∨ T.filled 0 = false) := by
  obtain ⟨n, hn⟩ := number_eq_some (c := c)
  rw [hn]
  simp only [Option.mem_some_iff, forall_eq']
  constructor
  · intro h hnumber
    obtain ⟨n', hn', h⟩ := h zeroState
    obtain rfl : n = n' := Option.some.inj (hn.symm.trans hn')
    have hne : n ≠ 0xFFFFFFFF := by
      rintro rfl
      rw [handleKursRdStrValueAndColor, hn] at h
      rcases h with h | h
      · have hreply := (Prod.mk.inj (Option.some.inj h)).2
        have hlen := congrArg List.length hreply
        rw [checked_length] at hlen
        simp at hlen
      · rw [hnumber] at h
        exact absurd h.1 (by decide)
    refine ⟨hne, ?_⟩
    by_contra hcontra
    rw [not_or, Bool.not_eq_true, Bool.not_eq_false, Option.isSome_eq_false_iff,
      Option.isNone_iff_eq_none] at hcontra
    obtain ⟨hnamed, hfilled⟩ := hcontra
    rw [hnamed, handleKursRdStrValueAndColor_eq hn hne, hnamed] at h
    rcases h with h | h
    · obtain ⟨hstate, hreply⟩ := Prod.mk.inj (Option.some.inj h)
      rw [← List.append_assoc, ← List.append_assoc] at hreply
      have htext := List.append_cancel_left (checked_semicolon_inj hreply)
      obtain ⟨p, ps, hps⟩ := params_of_filled hfilled
      rw [Option.getD_none] at hstate htext
      rw [readSection, if_pos hfilled, hps] at hstate htext
      exact showSection_ne_na rfl (Prod.ext hstate htext)
    · rw [hnumber] at h
      exact absurd h.1 (by decide)
  · intro h S
    refine ⟨n, hn, ?_⟩
    cases hnumber : c.hasNumber with
    | false =>
        obtain rfl : 0xFFFFFFFF = n :=
          Option.some.inj ((number_of_hasNumber_eq_false hnumber).symm.trans hn)
        refine Or.inr ⟨rfl, ?_⟩
        rw [handleKursRdStrValueAndColor, hn]
        rfl
    | true =>
        obtain ⟨hne, hnamed⟩ := h hnumber
        rw [handleKursRdStrValueAndColor_eq hn hne]
        cases hi : T.named n with
        | some i => rw [Option.getD_some, readSection, if_pos (filled_of_named hi)]; rfl
        | none =>
            have hfilled : T.filled 0 = false := hnamed.resolve_left (by simp [hi])
            rw [Option.getD_none, readSection, hfilled]
            exact Or.inl rfl

/-- **Requests for a line**: only -1, for a number that cannot be read, is not answered. -/
theorem lineAnswered_iff :
    (∀ S, LineAnswered T S c) ↔ c.number ≠ some 0xFFFFFFFF := by
  obtain ⟨n, hn⟩ := number_eq_some (c := c)
  constructor
  · intro h hnone
    obtain ⟨_, -, h⟩ := h zeroState
    have hminus : asInt 0xFFFFFFFF = -1 := rfl
    rw [handleKursRdProfile, hnone, Option.bind_some, hminus, lineText, if_neg (by omega),
      if_pos (by omega), if_pos (by omega)] at h
    simp at h
  · intro hne S
    have hpos : 0 ≤ asInt n := (number_cases hn).resolve_left fun h => hne (h ▸ hn)
    refine ⟨n, hn, ?_⟩
    have hzero : asInt n = 0 ↔ n = 0 := by
      have hint : asInt n = n.toBitVec.toInt := rfl
      rw [hint, ← BitVec.toInt_zero (w := 32), BitVec.toInt_inj, ← UInt32.toBitVec_inj]
      rfl
    rw [handleKursRdProfile, hn, Option.bind_some, lineText, namedLine]
    by_cases h0 : n = 0
    · have hfirst : ¬ (1 ≤ asInt n ∧ asInt n ≤ T.lineCount.toNat) := by
        rw [hzero.mpr h0]
        omega
      rw [if_pos (hzero.mpr h0), if_neg hfirst, h0]
      rfl
    have h0' : asInt n ≠ 0 := fun h => h0 (hzero.mp h)
    rw [if_neg h0']
    by_cases hle : asInt n ≤ T.lineCount.toNat
    · rw [if_pos hle, if_neg (by omega), if_pos ⟨by omega, hle⟩]
      rfl
    · rw [if_neg hle, if_neg (fun h => hle h.2)]
      simp only [if_neg h0]
      rfl

/-- **Read requests**: for which requests the values that are printed are those of the
section or line that the request names, and any other number is answered as unknown. -/
theorem readRequests_bounded_iff (T : KursTables L) (c : KursCall) :
    ((∀ S, SectionAnswered T S c) ↔ ∀ n ∈ c.number, c.hasNumber = true →
        n ≠ 0xFFFFFFFF ∧ ((T.named n).isSome = true ∨ T.filled 0 = false)) ∧
      ((∀ S, LineAnswered T S c) ↔ c.number ≠ some 0xFFFFFFFF) :=
  ⟨sectionAnswered_iff, lineAnswered_iff⟩

/-- A request for section 50. -/
def readSection50 : KursRequest := ⟨0x80, ascii "q50", by decide, []⟩

/-- A profile whose first section has one parameter. -/
def firstSections : KursSections where
  parameters := fun i => if i = 0 then some fun _ => enableTxParam else none
  sectionParamCount := fun i => if i = 0 then 1 else 0

/-- The parameters of that profile. -/
theorem firstSections_params {i : Fin PROFILE_SECTION_COUNT} {p : SectionParam}
    (hp : p ∈ firstSections.params i) : p = enableTxParam := by
  rw [KursSections.params, firstSections] at hp
  by_cases hi : i = 0
  · simpa [hi] using hp
  · simp [hi] at hp

/-- The same as tables. -/
def firstTables : KursTables sampleLayout :=
  { settingTables with
    toKursSections := firstSections
    stringFits := by
      intro i p hp htype
      rw [firstSections_params hp] at htype
      simp [enableTxParam] at htype
    section2Fits := Nat.zero_le _
    refreshesScratch := by
      intro i p hp _ a ha
      rw [firstSections_params hp] at ha
      exact Or.inl ha }

/-- There is no section 50, and the request for it gets the value of section 1. A request
for a line without a number reads in front of the lines. -/
theorem readRequests_not_bounded :
    (firstTables.named 50 = none ∧
      handleKursRdStrValueAndColor firstTables zeroState (requestTo idleReadings readSection50) =
        some (sectionPrint firstTables zeroState (requestTo idleReadings readSection50) 50 0) ∧
      ¬ SectionAnswered firstTables zeroState (requestTo idleReadings readSection50)) ∧
    handleKursRdProfile firstTables zeroState (requestTo idleReadings readLine) = none := by
  refine ⟨⟨rfl, rfl, ?_⟩, rfl⟩
  rintro ⟨n, hn, h⟩
  obtain rfl : 50 = n := Option.some.inj hn
  rcases h with h | h
  · have hlen := congrArg List.length (Prod.mk.inj (Option.some.inj h)).2
    exact absurd hlen (by decide)
  · exact absurd h.1 (by decide)

end Muxponder
