import Muxponder.KursSender
import Muxponder.KursLangPack

/-!
# The Checksum of a Reply

The handlers that check a request close their replies in the same way: behind the last
separator stands the checksum of all that precedes it, in decimal digits, and in four
hexadecimal digits for safe reprogramming. The checksum stops at a terminator and its length
is cut to 16 bits, so what has to be shown is that no handler writes a terminator into its
text, whatever values it prints.

## Main results

* `getStrParamValueItem_noNul`, `showSection_noNul`: printed values are strings.
* `crcMatches_checked`, `checkRequest_answer`: a reply passes the checks of a request.
* `reply_selfVerifying`: every reply of these handlers does.
-/

namespace Muxponder

open Memory CString Digits Printf

/-- `DEF_KURS_ADDRESS`: the bit that is set in the start of every packet. -/
def DEF_KURS_ADDRESS : UInt8 := 0x80

/-- The commands whose replies close with a checksum in decimal digits. -/
def KursCommand.checksDecimal : KursCommand → Bool
  | .rdProfileLine | .rdProfileParams | .setProfileParams | .setColorDegradeAndFailure
  | .writeLanguagePack | .readLanguagePack | .getColorDegradeAndFailure => true
  | _ => false

/-- A reply that closes with the checksum of the bytes in front of it. -/
def ClosesWith (digits : UInt16 → List UInt8) (r : List UInt8) : Prop :=
  ∃ str, r = str ++ digits (calcCrc16 str str.length) ++ [KURS_EOP]

/-- A decimal checksum in front of which the last separator stands, behind a string. -/
def Sealed (c : KursCall) (r : List UInt8) : Prop :=
  ∃ text, r = c.checked (text ++ [SEMICOLON]) ∧ 0 ∉ text

variable {L : Layout} {T : KursTables L} {tps : UInt32} {S S' : KursState} {c : KursCall}
  {r text str rest : List UInt8}

/-! ### Checksums read back -/

/-- What stands behind the characters does not change their checksum. -/
theorem getCrc16Ascii_append :
    getCrc16Ascii (str ++ rest) str.length = getCrc16Ascii str str.length := by
  rw [getCrc16Ascii, getCrc16Ascii, List.take_append_of_le_length (Nat.mod_le _ _)]

/-- The checksum of a string is that of all its bytes. -/
theorem getCrc16Ascii_eq (h0 : 0 ∉ str) (hlen : str.length < 2 ^ 16) :
    getCrc16Ascii str str.length = calcCrc16 str str.length := by
  have hall : str.takeWhile (· ≠ 0) = str := by
    rw [List.takeWhile_eq_self_iff]
    intro ch hch
    simpa using ne_of_mem_of_not_mem hch h0
  rw [getCrc16Ascii, calcCrc16, Nat.mod_eq_of_lt hlen, List.take_length, hall]

/-- **A decimal checksum passes the check of a request.** -/
theorem crcMatches_append (h0 : 0 ∉ str) :
    crcMatches (str ++ SEMICOLON ::
      (unsigned (getCrc16Ascii (str ++ [SEMICOLON]) (str.length + 1)).toNat ++
        KURS_EOP :: 0 :: rest)) = some true := by
  obtain ⟨crc, hcrc⟩ : ∃ crc, getCrc16Ascii (str ++ [SEMICOLON]) (str.length + 1) = crc :=
    ⟨_, rfl⟩
  have hlt := crc.toNat_lt
  have hlast : strrchr SEMICOLON (str ++ SEMICOLON :: (unsigned crc.toNat ++ KURS_EOP :: 0 :: rest))
      = some (some str.length) := by
    have hdigits : SEMICOLON ∉ unsigned crc.toNat := not_mem_unsigned (by simp [SEMICOLON])
    have hsplit : strrchr SEMICOLON
        (str ++ SEMICOLON :: (unsigned crc.toNat ++ [KURS_EOP] ++ 0 :: rest)) =
          some (some str.length) :=
      strrchr_append (by simp [SEMICOLON]) h0 (by simp [hdigits, SEMICOLON, KURS_EOP])
        (by simp [KURS_EOP])
    simpa using hsplit
  have hread : strToU32Def (unsigned crc.toNat ++ KURS_EOP :: 0 :: rest) 0xFFFFFFFF =
      some (UInt32.ofNat crc.toNat) := by
    rw [strToU32Def_decimal (isDecimal_unsigned _) rfl (by rw [decimal_unsigned]; omega),
      decimal_unsigned]
  have hdrop : ∀ t, (str ++ SEMICOLON :: t).drop (str.length + 1) = t := by
    intro t
    simp [List.drop_append, List.drop_eq_nil_of_le]
  have hsame : ∀ t, getCrc16Ascii (str ++ SEMICOLON :: t) (str.length + 1) = crc := by
    intro t
    have happend : getCrc16Ascii (str ++ [SEMICOLON] ++ t) (str ++ [SEMICOLON]).length =
        getCrc16Ascii (str ++ [SEMICOLON]) (str ++ [SEMICOLON]).length := getCrc16Ascii_append
    rw [← hcrc]
    simpa using happend
  rw [hcrc, crcMatches, hlast, Option.bind_some]
  dsimp only
  rw [hdrop, hread, hsame]
  simp

/-! ### Strings -/

/-- A value in print is a string. -/
theorem getStrParamValueItem_noNul {p : SectionParam} {m : Mem} :
    0 ∉ getStrParamValueItem p m := by
  rw [getStrParamValueItem]
  split
  · simp
  cases p.type with
  | u64 => exact nul_not_mem_unsigned
  | bool | u32 | enum | bitmsk =>
      dsimp only
      rw [sprintfU32_eq]
      exact nul_not_mem_unsigned
  | s32 =>
      dsimp only
      rw [sprintfS32_eq]
      split <;> simp
  | hex => exact nul_not_mem_hexWord
  | oid | str => exact fun h => by simpa using List.mem_takeWhile_imp h
  | float => exact nul_not_mem_fixed
  | ip => simp [ipText]
  | inc | na => simp

/-- So is a colour. -/
theorem showColor_noNul {lt : UInt32 → UInt32 → Bool} {R : Readings} {p : ProfileParam}
    {A : ParamsT2Add} {m : Mem} : 0 ∉ (showColor lt R p A m).2 := by
  rw [showColor]
  split
  · simp
  split
  · simp
  split <;> simp

/-- A section in print is a string. -/
theorem showSection_noNul {colored : Bool} {ps : List SectionParam} :
    0 ∉ (showSection L c colored ps S).2 := by
  induction ps generalizing S with
  | nil => simp [showSection]
  | cons p ps ih =>
      have hparam : 0 ∉ (showParam L c colored S p).2 := by
        rw [showParam]
        dsimp only
        split
        · simp [SEMICOLON, getStrParamValueItem_noNul]
        · simp [SEMICOLON, getStrParamValueItem_noNul, showColor_noNul]
      simp [showSection, hparam, ih]

/-- The first two bytes of a request that has a command. -/
theorem header_eq : c.header = [c.request.sop, c.strRx.getD 1 0] := by
  rw [KursCall.header, KursCall.strRx, KursRequest.chars]
  cases c.request.payload <;> rfl

/-- They are no terminator, and no end of a packet. -/
theorem header_plain (hsop : DEF_KURS_ADDRESS ≤ c.request.sop) (hcmd : c.command ≠ .unknown) :
    PlainText c.header := by
  have hbyte : ∀ b, b = 0 ∨ b = 0x0D → c.strRx.getD 1 0 ≠ b := by
    rintro b hb heq
    refine hcmd ?_
    rw [KursCall.command, heq]
    rcases hb with rfl | rfl <;> rfl
  have haddress : ∀ b : UInt8, b < 0x80 → c.request.sop ≠ b := by
    rintro b hb rfl
    exact absurd hsop (UInt8.not_le.mpr hb)
  constructor
  · rw [header_eq]
    simp only [List.mem_cons, List.not_mem_nil, or_false, not_or]
    exact ⟨(haddress 0x0D (by decide)).symm, (hbyte 0x0D (Or.inr rfl)).symm⟩
  · rw [header_eq]
    simp only [List.mem_cons, List.not_mem_nil, or_false, not_or]
    exact ⟨(haddress 0 (by decide)).symm, (hbyte 0 (Or.inl rfl)).symm⟩

/-! ### The handlers -/

/-- A line of the profile. -/
theorem rdProfile_sealed (htext : ∀ k < T.lineCount.toNat, 0 ∉ T.text k)
    (h : handleKursRdProfile T S c = some (S', r)) : Sealed c r := by
  obtain ⟨n, -, h⟩ := Option.bind_eq_some_iff.mp h
  obtain ⟨line, hline, h⟩ := Option.map_eq_some_iff.mp h
  obtain ⟨-, rfl⟩ := Prod.mk.inj h
  refine ⟨line, rfl, ?_⟩
  rw [lineText] at hline
  split at hline
  · obtain rfl := Option.some.inj hline
    simp [SEMICOLON]
  next hzero =>
  split at hline
  next hle =>
      split at hline
      · simp at hline
      · obtain rfl := Option.some.inj hline
        have hstring := htext ((asInt n).toNat - 1) (by omega)
        simp [SEMICOLON, hstring]
  · obtain rfl := Option.some.inj hline
    simp [ascii]

/-- The values of a section, which are not sent without a number. -/
theorem rdStrValueAndColor_sealed (h : handleKursRdStrValueAndColor T S c = some (S', r))
    (hne : r ≠ []) : Sealed c r := by
  obtain ⟨n, -, h⟩ := Option.bind_eq_some_iff.mp h
  split at h
  · obtain ⟨-, rfl⟩ := Prod.mk.inj (Option.some.inj h)
    exact absurd rfl hne
  obtain ⟨i, -, h⟩ := Option.map_eq_some_iff.mp h
  obtain ⟨-, rfl⟩ := Prod.mk.inj h
  refine ⟨integer (asInt n) ++ (readSection T S c n i).2, ?_, ?_⟩
  · rw [sectionText, List.append_assoc]
  · rw [readSection]
    split <;> simp [showSection_noNul, ascii]

/-- The value that a set request is answered with is a string. -/
theorem answer_noNul {m : Mem} {o : SetOutcome}
    (h : handleKursSetParamValue (T.env c) L (T.profile S) m c.strRx = some o) :
    0 ∉ o.answer.getD (ascii "NA") := by
  have hna : 0 ∉ ascii "NA" := by simp [ascii]
  rcases handleKursSetParamValue_cases h with ⟨F, rfl, -⟩ | ⟨F, data, t, -, hset⟩
  · exact hna
  rcases setItem_cases hset with ⟨rfl, -⟩ | ⟨size, ok, m', -, -, -, rfl⟩
  · exact hna
  cases ok with
  | false => exact hna
  | true =>
      rw [if_pos rfl, SetFields.accept, Option.getD_some, KursTables.env]
      cases T.addressed c.strRx with
      | none => simp
      | some p => exact getStrParamValueItem_noNul

/-- A set request. -/
theorem setParam_sealed (h : handleSetParam T S c = some (S', r)) : Sealed c r := by
  obtain ⟨o, ho, h⟩ := Option.map_eq_some_iff.mp h
  obtain ⟨-, rfl⟩ := Prod.mk.inj h
  refine ⟨unsigned o.table.toNat ++ SEMICOLON ::
    (unsigned o.item.toNat ++ SEMICOLON :: o.answer.getD (ascii "NA")), ?_, ?_⟩
  · simp [SetOutcome.reply, KursCall.checked, KursCall.header, decimalText, unsigned, KURS_EOP]
  · simp [SEMICOLON, answer_noNul ho]

/-- The numbers in front of a colour reply are a string. -/
theorem colorFields_noNul (F : ColorFields) : 0 ∉ F.text := by
  simp [ColorFields.text, SEMICOLON]

/-- Colours that are set. -/
theorem setColors_sealed (h : handleKursSetColorDegradeAndFailure T S c = some (S', r)) :
    Sealed c r := by
  obtain ⟨F, -, ⟨-, rfl, -⟩ | ⟨colors, p, a, -, -, -, -, -, rfl⟩⟩ := setColors_cases h
  all_goals have hF := colorFields_noNul F
  · exact ⟨F.text ++ ascii "NA", by rw [List.append_assoc]; rfl, by simp [hF, ascii]⟩
  · obtain ⟨A, hA⟩ : ∃ A, S'.adds a = A := ⟨_, rfl⟩
    refine ⟨F.text ++ (unsigned A.colorDegrade.toNat ++ SEMICOLON ::
      unsigned A.colorFailure.toNat), ?_, by simp [hF, SEMICOLON]⟩
    rw [hA]
    simp

/-- Colours that are read. -/
theorem getColors_sealed (h : handleKursGetColorDegradeAndFailure T S c = some (S', r)) :
    Sealed c r := by
  obtain ⟨n, -, h⟩ := Option.map_eq_some_iff.mp h
  obtain ⟨-, rfl⟩ := Prod.mk.inj h
  have hparam : ∀ p, 0 ∉ colorsText S p := by
    intro p
    rw [colorsText]
    split
    · simp [ascii]
    · simp [SEMICOLON]
  have hall : 0 ∉ (T.params 1).flatMap (colorsText S) := by
    rw [List.mem_flatMap]
    rintro ⟨p, -, hp⟩
    exact hparam p hp
  refine ⟨_, by rw [← List.append_assoc], ?_⟩
  split
  · simp [hall]
  · simp [ascii]

/-- A block that is written. -/
theorem writeLangPack_sealed (h : handleKursWriteLangPackCommand S c = some (S', r)) :
    Sealed c r := by
  obtain ⟨n, -, h⟩ := Option.bind_eq_some_iff.mp h
  obtain ⟨found, -, h⟩ := Option.bind_eq_some_iff.mp h
  have hanswer : ∀ lit : String, ascii lit = ascii ";OK;" ∨ ascii lit = ascii ";NA;" →
      Sealed c (c.checked (integer (asInt n) ++ ascii lit)) := by
    rintro lit (hlit | hlit)
    · exact ⟨integer (asInt n) ++ ascii ";OK", by rw [hlit, List.append_assoc]; rfl,
        by simp [ascii]⟩
    · exact ⟨integer (asInt n) ++ ascii ";NA", by rw [hlit, List.append_assoc]; rfl,
        by simp [ascii]⟩
  have hrefused : Sealed c (if n = 0xFFFFFFFF then c.checked (ascii "0;NA;")
      else c.checked (integer (asInt n) ++ ascii ";NA;")) := by
    split
    · exact ⟨ascii "0;NA", rfl, by simp [ascii]⟩
    · exact hanswer ";NA;" (Or.inr rfl)
  cases found with
  | none =>
      obtain ⟨-, rfl⟩ := Prod.mk.inj (Option.some.inj h)
      exact hrefused
  | some k =>
      dsimp only at h
      split at h
      case isFalse =>
        obtain ⟨-, rfl⟩ := Prod.mk.inj (Option.some.inj h)
        exact hrefused
      obtain ⟨blockLength, -, h⟩ := Option.bind_eq_some_iff.mp h
      split at h
      · obtain ⟨S'', -, h⟩ := Option.map_eq_some_iff.mp h
        obtain ⟨-, rfl⟩ := Prod.mk.inj h
        exact hanswer ";OK;" (Or.inl rfl)
      · obtain ⟨-, rfl⟩ := Prod.mk.inj (Option.some.inj h)
        exact hanswer ";NA;" (Or.inr rfl)

/-- A block that is read: the terminators in it are replaced. -/
theorem readLangPack_sealed (h : handleKursReadLangPackCommand S c = some (S', r)) :
    Sealed c r := by
  obtain ⟨n, -, h⟩ := Option.map_eq_some_iff.mp h
  obtain ⟨-, rfl⟩ := Prod.mk.inj h
  refine ⟨_, by rw [← List.cons_append, ← List.append_assoc], ?_⟩
  split
  · have hblock : ∀ block : LangBlock, 0 ∉ block.toList.map (encodeByte n.toNat) := by
      intro block h0
      obtain ⟨ch, -, hch⟩ := List.mem_map.mp h0
      exact encodeByte_ne.2.1 hch
    simp only [List.mem_append, List.mem_cons, nul_not_mem_unsigned, hblock]
    simp [SEMICOLON]
  · simp [ascii, SEMICOLON]

/-- Every reply with a decimal checksum has a separator in front of it. -/
theorem handleRequests_sealed (htext : ∀ k < T.lineCount.toNat, 0 ∉ T.text k)
    (h : kursHandleRequests tps T S c = some (S', r)) (hcmd : c.command.checksDecimal = true)
    (hne : r ≠ []) : Sealed c r := by
  rw [kursHandleRequests] at h
  split at h
  case h_4 => exact rdProfile_sealed htext h
  case h_5 => exact rdStrValueAndColor_sealed h hne
  case h_6 => exact setParam_sealed h
  case h_7 => exact setColors_sealed h
  case h_8 => exact writeLangPack_sealed h
  case h_9 => exact readLangPack_sealed h
  case h_10 => exact getColors_sealed h
  -- the other commands
  all_goals
    next hother => rw [hother] at hcmd; simp [KursCommand.checksDecimal] at hcmd

/-! ### Safe reprogramming -/

/-- The texts of safe reprogramming have neither a terminator nor an end of a packet. -/
theorem UpdateText.plain (h : UpdateText text) : PlainText text := by
  have hword : ∀ t ∈ blCfg :: updateWords, 0x0D ∉ t ∧ 0 ∉ t := by decide
  rcases h with h | ⟨a, rfl⟩
  · exact ⟨(hword text h).1, (hword text h).2⟩
  · exact plainText_writeHex 8 a.toNat

/-- A reply of safe reprogramming is one of its texts with a checksum. -/
theorem safeReprogramming_worded
    (h : ((handleKursSafeReprogramming tps S.update c.update).map fun r =>
      ({ S with update := r.1 }, r.2.reply)) = some (S', r)) (hne : r ≠ []) :
    ∃ text, r = makeAnswerHEXCRC c.header text ∧ UpdateText text := by
  have hna : UpdateText (ascii "NA") := Or.inl (by simp [updateWords])
  have hheader : requestHeader c.update.str_rx = some c.header := by
    rw [header_eq, KursCall.update, KursCall.strRx, KursRequest.chars]
    cases c.request.payload <;> rfl
  obtain ⟨⟨s', o⟩, ho, hmap⟩ := Option.map_eq_some_iff.mp h
  obtain ⟨-, rfl⟩ := Prod.mk.inj hmap
  rw [handleKursSafeReprogramming, hheader, Option.bind_some] at ho
  obtain ⟨check, -, ho⟩ := Option.bind_eq_some_iff.mp ho
  cases check with
  | tooShort =>
      obtain ⟨-, rfl⟩ := Prod.mk.inj (Option.some.inj ho)
      exact ⟨_, rfl, hna⟩
  | crcMismatch =>
      obtain ⟨-, rfl⟩ := Prod.mk.inj (Option.some.inj ho)
      dsimp only at hne ⊢
      split at hne
      · exact absurd rfl hne
      next hstarted => exact ⟨_, if_neg hstarted, hna⟩
  | valid str =>
      have hworded : Worded c.header (handleCommand tps S.update c.update c.header str) :=
        handleCommand_worded
      obtain ⟨s'', o', text, ho', hreply, htext⟩ := hworded
      obtain ⟨-, rfl⟩ := Prod.mk.inj (Option.some.inj (ho.symm.trans ho'))
      exact ⟨text, hreply, htext⟩

/-! ### Replies that verify themselves -/

/-- A reply with a decimal checksum passes the check of a request. -/
theorem sealed_selfVerifying (hnul : 0 ∉ c.header) (h : Sealed c r)
    (hfits : r.length + 1 ≤ TX_BUFF_SIZE) :
    ClosesWith (fun crc => unsigned crc.toNat) r ∧
      ∀ rest, crcMatches (r ++ 0 :: rest) = some true := by
  obtain ⟨text, rfl, htext⟩ := h
  have hstr : 0 ∉ c.header ++ text := by simp [hnul, htext]
  have hlen : (c.header ++ (text ++ [SEMICOLON])).length < 2 ^ 16 := by
    rw [TX_BUFF_SIZE, checked_length] at hfits
    rw [List.length_append, header_length]
    omega
  constructor
  · refine ⟨c.header ++ (text ++ [SEMICOLON]), ?_⟩
    rw [KursCall.checked, getCrc16Ascii_eq (by simpa [SEMICOLON] using hstr) hlen]
  · intro rest
    have hcheck : crcMatches (c.header ++ text ++ SEMICOLON ::
        (unsigned (getCrc16Ascii (c.header ++ text ++ [SEMICOLON])
          ((c.header ++ text).length + 1)).toNat ++ KURS_EOP :: 0 :: rest)) = some true :=
      crcMatches_append hstr
    simpa [KursCall.checked, Nat.add_assoc] using hcheck

/-- So does one with a hexadecimal checksum, in the check of safe reprogramming. -/
theorem answer_selfVerifying {header : List UInt8} (hheader : PlainText header)
    (htwo : 2 ≤ header.length) (htext : PlainText text)
    (hfits : (makeAnswerHEXCRC header text).length + 1 ≤ TX_BUFF_SIZE) :
    ClosesWith wordToHexStr (makeAnswerHEXCRC header text) ∧
      ∀ rest, ∃ str, checkRequest (makeAnswerHEXCRC header text ++ 0 :: rest) =
        some (.valid str) := by
  have hplain := hheader.append htext
  have hlen : (header ++ text).length < 2 ^ 16 := by
    rw [TX_BUFF_SIZE, makeAnswerHEXCRC_length] at hfits
    rw [List.length_append]
    omega
  constructor
  · refine ⟨header ++ text, ?_⟩
    rw [makeAnswerHEXCRC, getCrc16Ascii_eq hplain.noNul hlen]
    rfl
  · intro rest
    have hlo : 2 ≤ (header ++ text).length := by
      rw [List.length_append]
      omega
    have hcheck : ∃ rest', checkRequest (header ++ text ++ wordToHexStr
        (getCrc16Ascii (header ++ text) (header ++ text).length) ++ 0x0D :: 0 :: rest) =
          some (.valid (header ++ text ++ 0 :: rest')) :=
      checkRequest_append hplain.noEop hplain.noNul hlo hlen
    obtain ⟨rest', hcheck⟩ := hcheck
    refine ⟨header ++ text ++ 0 :: rest', ?_⟩
    rw [makeAnswerHEXCRC, List.append_assoc]
    exact hcheck

/-- **Every reply of these handlers verifies itself**: it closes with the checksum of the
bytes in front of it, and the check of a request accepts it. -/
theorem reply_selfVerifying (hsop : DEF_KURS_ADDRESS ≤ c.request.sop)
    (htext : ∀ k < T.lineCount.toNat, 0 ∉ T.text k)
    (h : kursHandleRequests tps T S c = some (S', r)) (hfits : r.length + 1 ≤ TX_BUFF_SIZE)
    (hne : r ≠ []) :
    (c.command.checksDecimal = true →
      ClosesWith (fun crc => unsigned crc.toNat) r ∧
        ∀ rest, crcMatches (r ++ 0 :: rest) = some true) ∧
    (c.command = .safeReprogramming →
      ClosesWith wordToHexStr r ∧
        ∀ rest, ∃ str, checkRequest (r ++ 0 :: rest) = some (.valid str)) := by
  constructor
  · intro hcmd
    have hknown : c.command ≠ .unknown := by
      intro hunknown
      rw [hunknown] at hcmd
      exact absurd hcmd (by simp [KursCommand.checksDecimal])
    exact sealed_selfVerifying (header_plain hsop hknown).noNul
      (handleRequests_sealed htext h hcmd hne) hfits
  · intro hcmd
    rw [kursHandleRequests, hcmd] at h
    obtain ⟨text, rfl, hword⟩ := safeReprogramming_worded h hne
    exact answer_selfVerifying (header_plain hsop (by simp [hcmd])) header_length.ge
      hword.plain hfits

/-- Tables with a line. -/
def lineTables : KursTables sampleLayout :=
  { settingTables with
    text := fun _ => ascii "TX_ENABLE"
    lineCount := 1
    textFits := by simp [ascii, PROFILE_LINE_LENGTH] }

/-- `s1`: read the first line. -/
def readFirstLine : KursRequest := ⟨0x80, ascii "s1", by decide, []⟩

/-- The reply with the first line verifies itself. -/
theorem reply_selfVerifying_line : ∃ S' r,
    kursHandleRequests 0 lineTables zeroState (requestTo idleReadings readFirstLine) =
        some (S', r) ∧
      ClosesWith (fun crc => unsigned crc.toNat) r ∧
      ∀ rest, crcMatches (r ++ 0 :: rest) = some true := by
  have hread : kursHandleRequests 0 lineTables zeroState (requestTo idleReadings readFirstLine) =
      some (zeroState, (requestTo idleReadings readFirstLine).checked
        (ascii "1;TX_ENABLE" ++ [SEMICOLON])) := rfl
  refine ⟨_, _, hread, (reply_selfVerifying (by decide) ?_ hread ?_ ?_).1 rfl⟩
  · intro k _
    simp [lineTables, ascii]
  · exact checked_fits (show 12 ≤ 2039 by omega)
  · simp [KursCall.checked]

end Muxponder
