import Muxponder.KursWriteGate

/-!
# The Length of a Reply

`kurs_service` has a buffer of 2048 bytes for a reply, which no handler knows of. This
module goes through the handlers whose replies are short: that they come to an end on every
request, and how long their texts can be. The handlers that read a section follow in
`Muxponder.KursReplyBound`.

## Main results

* `checked_fits`: a text of 2039 characters has room, whatever its checksum.
* `setParam_fits`, `setColors_fits_iff`, `safeReprogramming_fits_iff`: the replies of the
  handlers that write.
-/

namespace Muxponder

open Memory CString Digits Printf

/-- The size of `tx_buff`. -/
def TX_BUFF_SIZE : ℕ := 2048

variable {L : Layout} {T : KursTables L} {tps : UInt32} {S S' : KursState} {c : KursCall}
  {r text : List UInt8} {n : UInt32}

/-! ### Lengths of replies -/

/-- The width of a checksum. -/
def checksumWidth (str : List UInt8) : ℕ :=
  unsignedWidth (getCrc16Ascii str str.length).toNat

/-- Every request has an address and a command. -/
theorem header_length : c.header.length = 2 := by
  rw [KursCall.header, List.length_take, KursCall.strRx, KursRequest.chars]
  simp only [List.length_cons, List.length_append]
  omega

/-- A reply with its checksum. -/
theorem checked_length :
    (c.checked text).length = 2 + text.length + checksumWidth (c.header ++ text) + 1 := by
  rw [KursCall.checked, checksumWidth]
  simp only [List.length_append, header_length, unsigned_length, List.length_cons,
    List.length_nil]

/-- A reply without one. -/
theorem plain_length : (c.plain text).length = text.length + 3 := by
  rw [KursCall.plain]
  simp only [List.length_append, header_length, List.length_cons, List.length_nil]
  omega

/-- A number of 16 bits has five digits at most. -/
theorem width_word (v : UInt16) : unsignedWidth v.toNat ≤ 5 :=
  (unsignedWidth_le_iff (by omega)).mpr (lt_trans v.toNat_lt (by omega))

/-- A number of 32 bits has ten digits at most. -/
theorem width_dword (v : UInt32) : unsignedWidth v.toNat ≤ 10 :=
  (unsignedWidth_le_iff (by omega)).mpr (lt_trans v.toNat_lt (by omega))

/-- An `int` has ten digits and a sign at most. -/
theorem width_int (v : UInt32) : integerWidth (asInt v) ≤ 11 := by
  have hlow := v.toInt32.le_toInt
  have hhigh := v.toInt32.toInt_lt
  have hdigits : unsignedWidth (asInt v).natAbs ≤ 10 := by
    rw [unsignedWidth_le_iff (by omega), asInt]
    omega
  rw [integerWidth]
  split <;> omega

/-- A checksum has five digits at most. -/
theorem checksumWidth_le (str : List UInt8) : checksumWidth str ≤ 5 := width_word _

/-- A short text has room for its checksum. -/
theorem checked_fits (h : text.length ≤ 2039) : (c.checked text).length + 1 ≤ TX_BUFF_SIZE := by
  have hcrc := checksumWidth_le (c.header ++ text)
  rw [checked_length, TX_BUFF_SIZE]
  omega

/-- So has a text without one. -/
theorem plain_fits (h : text.length ≤ 2044) : (c.plain text).length + 1 ≤ TX_BUFF_SIZE := by
  rw [plain_length, TX_BUFF_SIZE]
  omega

/-! ### Requests in their buffer -/

/-- A request is terminated behind its end-of-packet character. -/
theorem strRx_terminated : 0 ∈ c.strRx := by
  simp [KursCall.strRx, KursRequest.chars]

/-- The terminator stands behind the second character. -/
theorem strRx_drop_terminated : 0 ∈ c.strRx.drop 2 := by
  rw [KursCall.strRx, KursRequest.chars]
  cases c.request.payload <;> simp

/-- The number of a request is read inside it. -/
theorem number_eq_some : ∃ n, c.number = some n :=
  Option.isSome_iff_exists.mp (strToU32Def_isSome strRx_drop_terminated)

/-- A number below `2 ^ 31` is not negative as an `int`. -/
theorem asInt_nonneg (h : n.toNat < 2 ^ 31) : 0 ≤ asInt n := by
  have hint : asInt n = n.toBitVec.toInt := rfl
  have hnat : n.toBitVec.toNat < 2 ^ 31 := h
  rw [hint, BitVec.toInt_eq_toNat_cond, if_pos (by omega)]
  exact Int.natCast_nonneg _

/-- A number that is read is never negative: the guard of the scanner also stops behind a
number that is too long. -/
theorem number_cases (h : c.number = some n) : n = 0xFFFFFFFF ∨ 0 ≤ asInt n := by
  rw [KursCall.number, strToU32Def] at h
  obtain ⟨r, hr, hn⟩ := Option.map_eq_some_iff.mp h
  cases r with
  | none => exact Or.inl hn.symm
  | some v =>
      obtain ⟨ch, hov⟩ := Scanner.overflow_of_scan hr
      have hv : v ≤ 429496729 := by
        simp only [strToU32DefScanner, Bool.or_eq_false_iff, decide_eq_false_iff_not] at hov
        omega
      obtain rfl : UInt32.ofNat v = n := hn
      have hsize : v < 2 ^ 32 := by omega
      refine Or.inr (asInt_nonneg ?_)
      rw [UInt32.toNat_ofNat_of_lt' hsize]
      omega

/-- A terminated string has a length. -/
theorem strlen_eq_some {s : List UInt8} (h : 0 ∈ s) : ∃ n, strlen s = some n := by
  obtain ⟨pre, rest, rfl, hpre⟩ := List.eq_append_cons_of_mem h
  exact ⟨pre.length, by rw [strlen, strchr_append hpre hpre]; rfl⟩

/-! ### Reading -/

/-- The colours of section 2 have room whatever they are. -/
theorem getColors_fits :
    ∃ S' r, handleKursGetColorDegradeAndFailure T S c = some (S', r) ∧
      r.length + 1 ≤ TX_BUFF_SIZE := by
  obtain ⟨n, hn⟩ := number_eq_some (c := c)
  have hparam : ∀ p, (colorsText S p).length ≤ 12 := by
    intro p
    rw [colorsText]
    split
    · simp [ascii]
    next a _ =>
      have hdegrade := width_word (S.adds a).colorDegrade
      have hfailure := width_word (S.adds a).colorFailure
      simp only [List.length_cons, List.length_append, unsigned_length]
      omega
  have hsum : ∀ ps : List SectionParam,
      (ps.flatMap (colorsText S)).length ≤ 12 * ps.length := by
    intro ps
    induction ps with
    | nil => simp
    | cons p ps ih =>
        have hp := hparam p
        rw [List.flatMap_cons, List.length_append, List.length_cons]
        omega
  have hsection := hsum (T.params 1)
  have hcount := T.section2Fits
  have hint := width_int n
  rw [handleKursGetColorDegradeAndFailure, hn, Option.map_some]
  refine ⟨S, _, rfl, checked_fits ?_⟩
  rw [SECTION_2_COUNT] at hcount
  simp only [List.length_append, integer_length, List.length_cons, List.length_nil]
  split
  · omega
  · have hna : (ascii ";NA").length = 3 := rfl
    omega

/-- A language block has room. -/
theorem readLangPack_fits :
    ∃ S' r, handleKursReadLangPackCommand S c = some (S', r) ∧
      r.length + 1 ≤ TX_BUFF_SIZE := by
  obtain ⟨n, hn⟩ := number_eq_some (c := c)
  have hwidth := width_dword n
  rw [handleKursReadLangPackCommand, hn, Option.map_some]
  refine ⟨S, _, rfl, checked_fits ?_⟩
  simp only [List.length_append, unsigned_length, List.length_cons, List.length_nil]
  split
  · have hsize : LANG_BLOCK_SIZE = 256 := rfl
    rw [List.length_map, Vector.length_toList]
    omega
  · have hna : (ascii "NA").length = 2 := rfl
    omega

/-- The class of the device and its flags have room. -/
theorem extendedRdDeviceClass_fits :
    ∃ S' r, handleKursExtendedRdDeviceClass T S c = some (S', r) ∧
      r.length + 1 ≤ TX_BUFF_SIZE := by
  have hflag : ∀ b, (flagText b).length = 3 := fun b => by cases b <;> rfl
  have hchanged : ∀ k < 12, (changedText L S k).length ≤ 4 := by
    intro k hk
    rw [changedText]
    split
    · simp
    · have hnumber : unsignedWidth (if k ≤ 7 then k + 1 else 91 + k + 1) ≤ 3 :=
        (unsignedWidth_le_iff (by omega)).mpr (by split <;> omega)
      simp only [List.length_append, unsigned_length, List.length_singleton]
      omega
  have hsum : ((List.range PROFILE_SECTION_COUNT).flatMap (changedText L S)).length ≤ 48 := by
    have hall : ∀ k ≤ 12, ((List.range k).flatMap (changedText L S)).length ≤ 4 * k := by
      intro k hk
      induction k with
      | zero => simp
      | succ k ih =>
          have hlast := hchanged k (by omega)
          have hinit := ih (by omega)
          rw [List.range_succ, List.flatMap_append, List.length_append, List.flatMap_singleton]
          omega
    exact hall 12 le_rfl
  have hclass := T.classFits
  refine ⟨S, _, rfl, checked_fits ?_⟩
  simp only [List.length_append, List.length_cons, hflag]
  omega

/-- A literal without an end-of-packet character leaves that one and the terminator behind
it. -/
theorem behind_literal {lit : String} (h : startsWith lit (c.strRx.drop 2) = true)
    (heop : KURS_EOP ∉ ascii lit) (hnul : 0 ∉ ascii lit) (hlit : ascii lit ≠ []) :
    ∃ z, c.strRx.drop 2 = ascii lit ++ (z ++ KURS_EOP :: 0 :: c.request.rest) := by
  obtain ⟨t, ht⟩ := List.isPrefixOf_iff_prefix.mp h
  rw [← ht]
  rw [KursCall.strRx, KursRequest.chars] at ht
  cases hp : c.request.payload with
  | nil =>
      -- the terminator would stand in the literal
      obtain ⟨a, tail, ha⟩ := List.exists_cons_of_ne_nil hlit
      rw [hp, ha] at ht
      obtain rfl : a = 0 := (List.cons.inj ht).1
      exact absurd (ha ▸ List.mem_cons_self) hnul
  | cons cmd payload =>
      rw [hp] at ht
      have htail : ascii lit ++ t = payload ++ KURS_EOP :: 0 :: c.request.rest := ht
      rcases List.append_eq_append_iff.mp htail with ⟨z, rfl, rfl⟩ | ⟨z, hz, hrest⟩
      · exact ⟨z, rfl⟩
      · cases z with
        | nil =>
            obtain rfl : _ = t := hrest
            exact ⟨[], rfl⟩
        | cons b z =>
            obtain ⟨rfl, -⟩ := List.cons.inj hrest
            exact absurd (hz ▸ List.mem_append_right _ List.mem_cons_self) heop

/-- The answers to configuration commands have room. -/
theorem extendedConfigRdWr_fits :
    ∃ S' r, handleKursExtendedConfigRdWr S c = some (S', r) ∧
      r.length + 1 ≤ TX_BUFF_SIZE := by
  have hblock : ∀ name : String, (ascii name).length ≤ 10 → 0 ∈ c.strRx.drop 12 →
      ∃ text, blockText c name = some text ∧ text.length ≤ 2039 := by
    intro name hname h0
    have hnumber : (strToU32Def (c.strRx.drop 12) 0xFFFFFFFF).isSome = true :=
      strToU32Def_isSome h0
    obtain ⟨n, hn⟩ := Option.isSome_iff_exists.mp hnumber
    have hint := width_int n
    have hna : (ascii "NA;").length = 3 := rfl
    refine ⟨_, by rw [blockText, hn]; rfl, ?_⟩
    simp only [List.length_append, List.length_cons, integer_length, List.length_nil]
    omega
  have hdrop : c.strRx.drop 12 = (c.strRx.drop 2).drop 10 := by rw [List.drop_drop]
  have htext : ∃ text, configText c = some text ∧ text.length ≤ 2039 := by
    rw [configText]
    split
    · exact ⟨_, rfl, show 15 ≤ 2039 by omega⟩
    split
    next h =>
      refine hblock "READBLOCK" (show 9 ≤ 10 by omega) ?_
      obtain ⟨z, hz⟩ := behind_literal h (by decide) (by decide) (by decide)
      rw [hdrop, hz]
      cases z <;> simp [ascii]
    split
    · exact ⟨_, rfl, show 14 ≤ 2039 by omega⟩
    split
    · exact ⟨_, rfl, show 16 ≤ 2039 by omega⟩
    split
    next h =>
      refine hblock "WRITEBLOCK" (show 10 ≤ 10 by omega) ?_
      obtain ⟨t, ht⟩ := List.isPrefixOf_iff_prefix.mp h
      rw [hdrop, ← ht]
      simp [ascii]
    split
    · exact ⟨_, rfl, show 17 ≤ 2039 by omega⟩
    · exact ⟨[], rfl, show 0 ≤ 2039 by omega⟩
  obtain ⟨text, htext, hlen⟩ := htext
  exact ⟨S, _, by rw [handleKursExtendedConfigRdWr, htext]; rfl, checked_fits hlen⟩

/-! ### Setting -/

/-- A block is stored from any string. -/
theorem writeBlock_isSome {i : Fin LANG_BLOCK_MAX_CNT} {blockData : List UInt8}
    (h : 0 ∈ blockData) : (writeBlock S i blockData).isSome = true := by
  rw [writeBlock]
  split
  · rw [Option.isSome_map]
    exact strToU32Def_isSome h
  · rfl

/-- A language block is answered in a few characters. -/
theorem writeLangPack_fits :
    ∃ S' r, handleKursWriteLangPackCommand S c = some (S', r) ∧
      r.length + 1 ≤ TX_BUFF_SIZE := by
  obtain ⟨n, hn⟩ := number_eq_some (c := c)
  obtain ⟨found, hfound⟩ :=
    Option.isSome_iff_exists.mp (strchr_isSome (c := SEMICOLON) (strRx_terminated (c := c)))
  have hint := width_int n
  have hanswer : ∀ text : String, (ascii text).length ≤ 4 →
      (c.checked (integer (asInt n) ++ ascii text)).length + 1 ≤ TX_BUFF_SIZE := by
    intro text htext
    refine checked_fits ?_
    rw [List.length_append, integer_length]
    omega
  have hrefused : (if n = 0xFFFFFFFF then c.checked (ascii "0;NA;")
      else c.checked (integer (asInt n) ++ ascii ";NA;")).length + 1 ≤ TX_BUFF_SIZE := by
    split
    · exact checked_fits (show 5 ≤ 2039 by omega)
    · exact hanswer ";NA;" (show 4 ≤ 4 from le_rfl)
  rw [handleKursWriteLangPackCommand, hn, Option.bind_some, hfound, Option.bind_some]
  cases found with
  | none => exact ⟨S, _, rfl, hrefused⟩
  | some k =>
      dsimp only
      split
      next h =>
        have hdata : 0 ∈ c.strRx.drop (k + 1) := strchr_terminated hfound strRx_terminated
        obtain ⟨blockLength, hlen⟩ := strlen_eq_some hdata
        rw [hlen, Option.bind_some]
        split
        · obtain ⟨S', hS'⟩ := Option.isSome_iff_exists.mp
            (writeBlock_isSome (S := S) (i := ⟨n.toNat, h.1⟩) hdata)
          exact ⟨S', _, by rw [hS']; rfl, hanswer ";OK;" (show 4 ≤ 4 from le_rfl)⟩
        · exact ⟨S, _, rfl, hanswer ";NA;" (show 4 ≤ 4 from le_rfl)⟩
      · exact ⟨S, _, rfl, hrefused⟩

/-- A colour request is read inside it. -/
theorem colorFields_isSome : (colorFields c.strRx).isSome = true := by
  have h0 := strRx_terminated (c := c)
  obtain ⟨ok, hok⟩ := Option.isSome_iff_exists.mp (crcMatches_isSome h0)
  obtain ⟨r, hr⟩ := Option.isSome_iff_exists.mp (strToU16_isSome (strRx_drop_terminated (c := c)))
  rw [colorFields, hok, Option.bind_some, hr, Option.bind_some]
  cases r with
  | none => rfl
  | some table =>
  dsimp only
  split
  case isFalse => rfl
  -- a separator, and behind it the item
  obtain ⟨found, hfound⟩ := Option.isSome_iff_exists.mp (strchr_isSome (c := SEMICOLON) h0)
  rw [colorFieldsOf, hfound, Option.bind_some]
  cases found with
  | none => rfl
  | some i =>
  have hitem := strchr_terminated hfound h0
  obtain ⟨r, hr⟩ := Option.isSome_iff_exists.mp (strToU16_isSome hitem)
  dsimp only
  rw [hr, Option.bind_some]
  cases r with
  | none => rfl
  | some item =>
  -- the first colour
  obtain ⟨found, hfound⟩ := Option.isSome_iff_exists.mp (strchr_isSome (c := SEMICOLON) hitem)
  dsimp only
  rw [hfound, Option.bind_some]
  cases found with
  | none => rfl
  | some j =>
  have hcolo1 := strchr_terminated hfound hitem
  obtain ⟨r, hr⟩ := Option.isSome_iff_exists.mp (strToU16_isSome hcolo1)
  dsimp only
  rw [hr, Option.bind_some]
  cases r with
  | none => rfl
  | some degrade =>
  -- and the second
  obtain ⟨found, hfound⟩ := Option.isSome_iff_exists.mp (strchr_isSome (c := SEMICOLON) hcolo1)
  dsimp only
  rw [hfound, Option.bind_some]
  cases found with
  | none => rfl
  | some k =>
      rw [Option.isSome_map]
      exact strToU16_isSome (strchr_terminated hfound hcolo1)

/-- Colours are set and answered wherever the parameter that is set has a record. -/
theorem setColors_fits_iff :
    (∃ S' r, handleKursSetColorDegradeAndFailure T S c = some (S', r) ∧
        r.length + 1 ≤ TX_BUFF_SIZE) ↔
      ∀ F ∈ colorFields c.strRx, F.colors.isSome = true → F.accepted T S = true →
        ((T.colorParam F).bind fun p => p.dAdd).isSome = true := by
  obtain ⟨F, hF⟩ := Option.isSome_iff_exists.mp (colorFields_isSome (c := c))
  have hnumbers : F.text.length ≤ 12 := by
    have htable := width_word F.table
    have hitem := width_word F.item
    rw [ColorFields.text]
    simp only [List.length_append, unsigned_length, List.length_cons, List.length_nil]
    omega
  have hrefused : (c.checked (F.text ++ ascii "NA;")).length + 1 ≤ TX_BUFF_SIZE := by
    have hna : (ascii "NA;").length = 3 := rfl
    exact checked_fits (by rw [List.length_append]; omega)
  rw [handleKursSetColorDegradeAndFailure, hF]
  simp only [Option.bind_some, Option.mem_some_iff, forall_eq']
  cases F.colors with
  | none => exact iff_of_true ⟨S, _, rfl, hrefused⟩ (by simp)
  | some colors =>
      by_cases hacc : F.accepted T S = true
      case neg =>
        simp only [hacc]
        exact iff_of_true ⟨S, _, rfl, hrefused⟩ (by simp)
      simp only [hacc, if_true, Option.isSome_some, forall_const]
      cases hp : T.colorParam F with
      | none => simp
      | some p =>
      cases ha : p.dAdd with
      | none => simp [ha]
      | some a =>
          refine iff_of_true ⟨_, _, by rw [Option.bind_some, ha]; rfl, ?_⟩ (by simp [ha])
          have hdegrade := width_word ((setColors L S a colors).adds a).colorDegrade
          have hfailure := width_word ((setColors L S a colors).adds a).colorFailure
          refine checked_fits ?_
          simp only [List.length_append, List.length_cons, unsigned_length, List.length_nil]
          omega

/-- A request that may be written comes to a descriptor of its section. -/
theorem addressed_mem {strRx data : List UInt8} {F : SetFields} {t : Table} {p : SectionParam}
    {cmd : UInt8} (hreach : Reaches (T.profile S) strRx F data t)
    (hw : writable (T.profile S) cmd F t (t.entries F.index) = true)
    (hp : T.addressed strRx = some p) : p ∈ T.params t.index := by
  have htable := hreach.table
  rw [Profile.table] at htable
  obtain ⟨i, hi, htable⟩ := Option.bind_eq_some_iff.mp htable
  obtain ⟨entries, hentries, htable⟩ := Option.bind_eq_some_iff.mp htable
  obtain ⟨params, hparams, rfl⟩ := Option.map_eq_some_iff.mp hentries
  split at htable
  case isFalse => simp at htable
  obtain rfl := Option.some.inj htable
  rw [KursTables.addressed, hreach.fields, Option.bind_some, hi, Option.bind_some, hparams] at hp
  obtain rfl := Option.some.inj hp
  have hitem : F.item.toNat ≠ 0 ∧ F.item.toNat ≤ (T.sectionParamCount i).toNat := by
    simp only [writable, Bool.and_eq_true, decide_eq_true_eq] at hw
    obtain ⟨⟨⟨⟨-, hzero⟩, hcount⟩, -⟩, -⟩ := hw
    exact ⟨fun h => hzero (UInt16.toNat_inj.mp h), UInt16.le_iff_toNat_le.mp hcount⟩
  rw [KursSections.params, hparams]
  refine List.mem_map.mpr ⟨F.item.toNat - 1, List.mem_range.mpr ?_, ?_⟩
  · dsimp only
    omega
  · have hindex : ((F.item.toNat - 1 : ℕ) : ℤ) = F.index := by
      rw [SetFields.index]
      omega
    rw [hindex]

/-- The value that a set request is answered with is a printed one. -/
theorem answer_length {m : Mem} {o : SetOutcome}
    (h : handleKursSetParamValue (T.env c) L (T.profile S) m c.strRx = some o)
    (ho : o.answer = some text) : text.length ≤ 64 := by
  rcases handleKursSetParamValue_cases h with ⟨F, rfl, -⟩ | ⟨F, data, t, hreach, hset⟩
  · simp [SetFields.refuse] at ho
  rcases setItem_cases hset with ⟨rfl, -⟩ | ⟨size, ok, m', -, hw, -, rfl⟩
  · simp [SetFields.refuse] at ho
  cases ok with
  | false => simp [SetFields.refuse] at ho
  | true =>
      obtain rfl := Option.some.inj ho
      simp only [KursTables.env]
      cases hp : T.addressed c.strRx with
      | none => simp
      | some p =>
          have hmem := addressed_mem hreach hw hp
          rw [Option.map_some, Option.getD_some, getStrParamValueItem_length]
          calc valueWidth p _ ≤ max 47 (PID_LEN - 1) :=
                valueWidth_le fun htype => (T.stringFits t.index p hmem htype).2
            _ = 64 := rfl

/-- A number of 16 bits in the answer to a set request. -/
theorem decimalText_length (v : UInt16) : (decimalText v.toNat).length ≤ 5 :=
  (unsigned_length v.toNat).trans_le (width_word v)

/-- The answer with its checksum and the end of the packet. -/
theorem sealed_length {str : List UInt8} :
    (str ++ decimalText (getCrc16Ascii str str.length).toNat ++ [0x0D]).length ≤
      str.length + 6 := by
  have hcrc := decimalText_length (getCrc16Ascii str str.length)
  rw [List.length_append, List.length_append, List.length_singleton]
  omega

/-- Every set request is answered, and its answer has room. -/
theorem setParam_fits :
    ∃ S' r, handleSetParam T S c = some (S', r) ∧ r.length + 1 ≤ TX_BUFF_SIZE := by
  obtain ⟨chars, rest, hrx, hnul⟩ := List.eq_append_cons_of_mem (strRx_terminated (c := c))
  obtain ⟨o, ho⟩ := Option.isSome_iff_exists.mp
    (handleKursSetParamValue_isSome (E := T.env c) (L := L) (P := T.profile S) (m := S.mem)
      ⟨chars, hnul⟩ rest)
  have ho : handleKursSetParamValue (T.env c) L (T.profile S) S.mem c.strRx = some o := by
    rw [hrx]
    exact ho
  refine ⟨_, _, by rw [handleSetParam, ho]; rfl, ?_⟩
  have hanswer : (o.answer.getD (ascii "NA")).length ≤ 64 := by
    cases ha : o.answer with
    | none => exact show 2 ≤ 64 by omega
    | some text => exact answer_length ho ha
  have htable := decimalText_length o.table
  have hitem := decimalText_length o.item
  have hheader : (c.strRx.take 2).length = 2 := header_length
  refine (Nat.add_le_add_right sealed_length 1).trans ?_
  rw [TX_BUFF_SIZE]
  simp only [List.length_append, List.length_cons, List.length_nil]
  omega

/-! ### Safe reprogramming -/

/-- An answer with its checksum in hexadecimal digits. -/
theorem makeAnswerHEXCRC_length {header : List UInt8} :
    (makeAnswerHEXCRC header text).length = header.length + text.length + 5 := by
  simp only [makeAnswerHEXCRC, wordToHexStr, List.length_append, writeHex_length,
    List.length_singleton]

/-- The words that safe reprogramming answers with. -/
def updateWords : List (List UInt8) :=
  [ascii "OK", ascii "NA", ascii "DISABLESIGNATURE;OK", ascii "EFINISH", ascii "EFINISHSIGN",
    ascii "COMPLETE"]

/-- The texts of safe reprogramming: a word, the configuration, or an address. -/
def UpdateText (text : List UInt8) : Prop :=
  text ∈ blCfg :: updateWords ∨ ∃ a, text = uintToHexStr a

/-- No such text is long. -/
theorem UpdateText.length_le (h : UpdateText text) : text.length ≤ 100 := by
  have hword : ∀ t ∈ blCfg :: updateWords, t.length ≤ 100 := by decide
  rcases h with h | ⟨a, rfl⟩
  · exact hword text h
  · exact (writeHex_length 8 a.toNat).trans_le (by omega)

/-- An answer of safe reprogramming has one of its texts. -/
def Worded (header : List UInt8) (r : Option (RemoteUpdate × UpdateReply)) : Prop :=
  ∃ s' o text, r = some (s', o) ∧ o.reply = makeAnswerHEXCRC header text ∧ UpdateText text

/-- An answer of safe reprogramming: a text of a hundred characters at most. -/
def Answered (header : List UInt8) (r : Option (RemoteUpdate × UpdateReply)) : Prop :=
  ∃ s' o text, r = some (s', o) ∧ o.reply = makeAnswerHEXCRC header text ∧ text.length ≤ 100

/-- The end of a session is answered in a word. -/
theorem finishLoad_worded {s : RemoteUpdate} {u : UpdateCall} {header : List UInt8} :
    Worded header (finishLoad s u header) := by
  obtain ⟨⟨s', o⟩, h⟩ := Option.isSome_iff_exists.mp (finishLoad_isSome s u header)
  rw [h]
  rw [finishLoad] at h
  obtain ⟨w, -, h⟩ := Option.map_eq_some_iff.mp h
  dsimp only at h
  split at h
  · obtain ⟨-, rfl⟩ := Prod.mk.inj h
    exact ⟨s', _, ascii "EFINISH", rfl, rfl, Or.inl (by simp [updateWords])⟩
  split at h
  · obtain ⟨-, rfl⟩ := Prod.mk.inj h
    exact ⟨s', _, ascii "EFINISHSIGN", rfl, rfl, Or.inl (by simp [updateWords])⟩
  · obtain ⟨-, rfl⟩ := Prod.mk.inj h
    exact ⟨s', _, ascii "COMPLETE", rfl, rfl, Or.inl (by simp [updateWords])⟩

/-- A block is answered with an address, or a word. -/
theorem loadBlock_worded {s : RemoteUpdate} {u : UpdateCall} {header str : List UInt8} :
    Worded header (loadBlock tps s u header str) := by
  obtain ⟨⟨s', o⟩, h⟩ := Option.isSome_iff_exists.mp (loadBlock_isSome tps s u header str)
  rw [h]
  rw [loadBlock] at h
  dsimp only at h
  split at h
  · obtain ⟨-, rfl⟩ := Prod.mk.inj (Option.some.inj h)
    exact ⟨s', _, _, rfl, rfl, Or.inr ⟨_, rfl⟩⟩
  obtain ⟨w, -, h⟩ := Option.map_eq_some_iff.mp h
  split at h
  · obtain ⟨-, rfl⟩ := Prod.mk.inj h
    exact ⟨s', _, ascii "EFINISH", rfl, rfl, Or.inl (by simp [updateWords])⟩
  · obtain ⟨-, rfl⟩ := Prod.mk.inj h
    exact ⟨s', _, _, rfl, rfl, Or.inr ⟨_, rfl⟩⟩

/-- Every command of safe reprogramming is answered in one of its texts. -/
theorem handleCommand_worded {s : RemoteUpdate} {u : UpdateCall} {header str : List UInt8} :
    Worded header (handleCommand tps s u header str) := by
  rw [handleCommand]
  split
  · exact ⟨_, _, blCfg, rfl, rfl, Or.inl List.mem_cons_self⟩
  split
  · exact ⟨_, _, ascii "DISABLESIGNATURE;OK", rfl, rfl, Or.inl (by simp [updateWords])⟩
  split
  · exact ⟨_, _, ascii "OK", rfl, rfl, Or.inl (by simp [updateWords])⟩
  split
  · exact ⟨_, _, _, rfl, rfl, Or.inr ⟨_, rfl⟩⟩
  split
  · exact ⟨_, _, ascii "EFINISH", rfl, rfl, Or.inl (by simp [updateWords])⟩
  split
  · exact finishLoad_worded
  split
  · exact loadBlock_worded
  · exact ⟨_, _, ascii "NA", rfl, rfl, Or.inl (by simp [updateWords])⟩

/-- Every command of safe reprogramming is answered. -/
theorem handleCommand_answered {s : RemoteUpdate} {u : UpdateCall} {header str : List UInt8} :
    Answered header (handleCommand tps s u header str) := by
  have hworded : Worded header (handleCommand tps s u header str) := handleCommand_worded
  obtain ⟨s', o, text, h, hreply, htext⟩ := hworded
  exact ⟨s', o, text, h, hreply, htext.length_le⟩

/-- Safe reprogramming answers every request whose checksum it finds the digits of. -/
theorem safeReprogramming_fits_iff :
    (∃ S' r, ((handleKursSafeReprogramming tps S.update c.update).map fun r =>
        ({ S with update := r.1 }, r.2.reply)) = some (S', r) ∧
        r.length + 1 ≤ TX_BUFF_SIZE) ↔ (checkRequest c.strRx).isSome = true := by
  obtain ⟨addr, cmd, rest, hrx⟩ : ∃ addr cmd rest, c.strRx = addr :: cmd :: rest := by
    rw [KursCall.strRx, KursRequest.chars]
    cases c.request.payload with
    | nil => exact ⟨_, _, _, rfl⟩
    | cons a payload => exact ⟨_, _, _, rfl⟩
  have hheader : requestHeader c.update.str_rx = some [addr, cmd] := by
    rw [KursCall.update, hrx]
    rfl
  have hroom : ∀ {text : List UInt8}, text.length ≤ 100 →
      (makeAnswerHEXCRC [addr, cmd] text).length + 1 ≤ TX_BUFF_SIZE := by
    intro text htext
    rw [makeAnswerHEXCRC_length, TX_BUFF_SIZE]
    simp only [List.length_cons, List.length_nil]
    omega
  rw [handleKursSafeReprogramming, hheader, Option.bind_some, KursCall.update]
  cases hcheck : checkRequest c.strRx with
  | none => simp
  | some check =>
      rw [Option.bind_some]
      refine iff_of_true ?_ rfl
      cases check with
      | tooShort => exact ⟨_, _, rfl, hroom (show 2 ≤ 100 by omega)⟩
      | crcMismatch =>
          refine ⟨_, _, rfl, ?_⟩
          dsimp only
          split
          · exact show 1 ≤ 2048 by omega
          · exact hroom (show 2 ≤ 100 by omega)
      | valid str =>
          have hcommand : Answered [addr, cmd]
              (handleCommand tps S.update c.update [addr, cmd] str) := handleCommand_answered
          obtain ⟨s', o, text, ho, hreply, htext⟩ := hcommand
          refine ⟨{ S with update := s' }, o.reply, ?_, by rw [hreply]; exact hroom htext⟩
          rw [KursCall.update] at ho
          dsimp only
          rw [ho]
          rfl

end Muxponder
