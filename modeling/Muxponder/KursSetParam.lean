import Muxponder.KursHelper
import Muxponder.KursProfile

/-!
# Setting a Parameter

`HandleKursSetParamValue` of `kurs_core.c` and the conversion it calls,
`SetStrValueItem`. A request reads `addr cmd table;item;value;CRC CR`. Its fields are found
by separate searches for `';'`, and the parsers of numbers are handed the memory from the
start of a field on, without its end.

The descriptor that `T_UK` comes to point to is part of the outcome (`accessed`), and so
is the memory as `SetStrValueItem` leaves it (`stored`), before an accepted value is
refreshed.

## Main results

* `handleKursSetParamValue_isSome`: the handler comes to an end on every string.
* `setFields_data`: what has been read of a request when its value is reached.
-/

namespace Muxponder

open Memory CString Digits

/-- The separator of the fields of a request. -/
abbrev SEMICOLON : UInt8 := 0x3B

/-- `KURS_SET_PROFILE_PARAMS` -/
abbrev KURS_SET_PROFILE_PARAMS : UInt8 := 0x72

/-- `KURS_SET_PROFILE_CALIB_PARAMS` -/
abbrev KURS_SET_PROFILE_CALIB_PARAMS : UInt8 := 0x76

/-! ### Conversions of the C library and of other types -/

/-- `isspace` -/
def isSpace (ch : UInt8) : Bool := ch = 0x20 || (0x09 ≤ ch && ch ≤ 0x0D)

/-- A character that begins a signed number. -/
def signed (s : List UInt8) : Bool := s.head? = some 0x2B || s.head? = some 0x2D

/-- A decimal digit. -/
def isDigit (ch : UInt8) : Bool := (decValue ch).isSome

/-- `atol`, on 32 bits: blanks, a sign, digits, held within the range of a `long`. -/
def atol (str : List UInt8) : UInt32 :=
  let start := str.dropWhile isSpace
  let n : ℤ := value decValue 10 0 ((if signed start then start.tail else start).takeWhile isDigit)
  let v := if start.head? = some 0x2D then -n else n
  (Int32.ofInt (max (-2 ^ 31) (min (2 ^ 31 - 1) v))).toUInt32

/-- `StrToFloat`: the shape of the number is checked up to its delimiter, its value is
that of `atof`. -/
def strToFloat (E : KursEnv) (str : List UInt8) (cDelim : UInt8) : Option UInt32 :=
  let start := str.dropWhile (· = 0x20)
  let s := if signed start then start.tail else start
  if (s.takeWhile isDigit) = [] then none
  else
    let s := s.dropWhile isDigit
    let s := if s.head? = some 0x2E then s.tail else s
    let s := (s.dropWhile isDigit).dropWhile (· = 0x20)
    if s.head? = some cDelim then some (E.atof start) else none

/-- The word that `DC_IP` makes of its uninitialised variables. -/
def ipWord (E : KursEnv) : UInt32 :=
  ((E.tmi.get 0 &&& 0xFF) <<< 24) ||| ((E.tmi.get 1 &&& 0xFF) <<< 16) |||
    ((E.tmi.get 2 &&& 0xFF) <<< 8) ||| (E.tmi.get 3 &&& 0xFF)

/-! ### `SetStrValueItem` -/

/-- The order in which a type compares a value with its limits. -/
def DataType.lt (E : KursEnv) : DataType → UInt32 → UInt32 → Bool
  | .s32, a, b => a.toInt32 < b.toInt32
  | .float, a, b => E.floatCompareLt a b
  | _, a, b => a < b

/-- Neither `tm < *d_min` nor `*d_max < tm`, for the limits there are. -/
def withinLimits (E : KursEnv) (T : ProfileParam) (tm : UInt32) (m : Mem) : Bool :=
  (T.dMin.all fun a => !T.type.lt E tm (m.load32 a)) &&
    (T.dMax.all fun a => !T.type.lt E (m.load32 a) tm)

/-- The callback, where the parameter has one, and the store. -/
def storeWord (E : KursEnv) (L : Layout) (T : ProfileParam) (tm : UInt32) (m : Mem) :
    Bool × Mem :=
  if T.userSet then
    match profileUsersetValue E L T tm m with
    | (true, m') => (true, m'.store32 T.data tm)
    | (false, m') => (false, m')
  else (true, m.store32 T.data tm)

/-- A parsed number is checked against the limits before the callback sees it. -/
def storeParsed (E : KursEnv) (L : Layout) (T : ProfileParam) (m : Mem) :
    Option UInt32 → Bool × Mem
  | none => (false, m)
  | some tm => if withinLimits E T tm m then storeWord E L T tm m else (false, m)

/-- `min(T->d_size - 1, size)`, an `int` that is used as a length and as an index: for an
empty variable it is -1. -/
def copyLength (T : ProfileParam) (size : UInt16) : UInt32 :=
  if T.dSize.toNat ≤ size.toNat then T.dSize.toUInt32 - 1 else size.toUInt32

/-- The copy of a text into its variable: `memset`, `strncpy` and the terminator. -/
def copyText (T : ProfileParam) (str : List UInt8) (size : UInt16) (m : Mem) : Mem :=
  ((m.clear T.data T.dSize.toNat).strncpy T.data str (copyLength T size).toNat).store8
    (T.data + copyLength T size) 0

/-- The callback on a text, which it finds in its variable. -/
def textCallback (E : KursEnv) (L : Layout) (T : ProfileParam) (str : List UInt8)
    (size : UInt16) (m : Mem) : Bool × Mem :=
  let m' := copyText T str size m
  profileUsersetValue E L T (m'.load32 T.data) m'

/-- A text is copied before the callback sees it. -/
def setText (E : KursEnv) (L : Layout) (T : ProfileParam) (str : List UInt8) (size : UInt16)
    (m : Mem) : Bool × Mem :=
  if T.userSet then textCallback E L T str size m else (true, copyText T str size m)

/-- `SetStrValueItem`: whether the value was taken, and the memory. -/
def setStrValueItem (E : KursEnv) (L : Layout) (T : ProfileParam) (str : List UInt8)
    (size : UInt16) (m : Mem) : Option (Bool × Mem) :=
  match T.type with
  | .u32 | .bool | .enum => (strToU32 str).map (storeParsed E L T m)
  | .s32 => some (storeParsed E L T m (some (atol str)))
  | .hex => some (storeParsed E L T m (strHexToU32 str))
  | .oid | .str => some (setText E L T str size m)
  | .float => some (storeParsed E L T m (strToFloat E str SEMICOLON))
  | .ip => some (storeWord E L T (ipWord E) m)
  | _ => some (true, m)

/-! ### The fields of a request -/

/-- What the handler has read of a request: the numbers of the table and of the item, 0
where it came to none, and the memory from the value on, where it found no error. -/
structure SetFields where
  table : UInt16
  item : UInt16
  data : Option (List UInt8)

/-- The checksum behind the last `';'` is that of the characters up to it. -/
def crcMatches (strRx : List UInt8) : Option Bool :=
  (strrchr SEMICOLON strRx).bind fun
    | none => some false
    | some i =>
        (strToU32Def (strRx.drop (i + 1)) 0xFFFFFFFF).map fun crcRead =>
          crcRead = UInt32.ofNat (getCrc16Ascii strRx (i + 1)).toNat

/-- The first part of `HandleKursSetParamValue`: the fields up to the value. -/
def setFields (strRx : List UInt8) : Option SetFields :=
  (crcMatches strRx).bind fun
    | false => some ⟨0, 0, none⟩
    | true =>
        (strToU16 (strRx.drop 2)).bind fun
          | none => some ⟨0, 0, none⟩
          | some table =>
              (strchr SEMICOLON strRx).bind fun
                | none => some ⟨table, 0, none⟩
                | some i =>
                    (strToU16 (strRx.drop (i + 1))).bind fun
                      | none => some ⟨table, 0, none⟩
                      | some item =>
                          (strchr SEMICOLON (strRx.drop (i + 1))).map fun
                            | none => ⟨table, item, none⟩
                            | some j => ⟨table, item, some ((strRx.drop (i + 1)).drop (j + 1))⟩

/-- `size_data`: for a text the characters up to the next `';'`, which has to be there. -/
def dataSize (T : ProfileParam) (data : List UInt8) : Option (Option UInt16) :=
  if T.type = .str ∨ T.type = .oid then
    (strchr SEMICOLON data).map (Option.map UInt16.ofNat)
  else some (some T.dSize)

/-- The checks in front of `SetStrValueItem`: writing is enabled, the item is one of the
table, section 6 has its own command, and the parameter is not read-only. -/
def writable (P : Profile) (cmd : UInt8) (F : SetFields) (t : Table) (T : ProfileParam) :
    Bool :=
  P.setParamEnabled && F.item ≠ 0 && F.item ≤ t.count &&
    ((cmd = KURS_SET_PROFILE_PARAMS && F.table ≠ 6) ||
      (cmd = KURS_SET_PROFILE_CALIB_PARAMS && F.table = 6)) &&
    T.access &&& 0xAA ≠ 0

/-! ### `HandleKursSetParamValue` -/

/-- The outcome of a request: the memory, the numbers and the value of the reply, `none`
for `NA`, the descriptor that was read, and the memory `SetStrValueItem` left. -/
structure SetOutcome where
  mem : Mem
  table : UInt16
  item : UInt16
  answer : Option (List UInt8)
  accessed : Option (Fin PROFILE_SECTION_COUNT × ℤ)
  stored : Mem

/-- The index of the descriptor that `T_UK += item - 1` leads to. -/
def SetFields.index (F : SetFields) : ℤ := F.item.toNat - 1

/-- The `NA` outcome. -/
def SetFields.refuse (F : SetFields) (accessed : Option (Fin PROFILE_SECTION_COUNT × ℤ))
    (m : Mem) : SetOutcome :=
  ⟨m, F.table, F.item, none, accessed, m⟩

/-- The outcome of an accepted value: it is refreshed, printed, and saved. -/
def SetFields.accept (F : SetFields) (E : KursEnv) (L : Layout) (T : ProfileParam)
    (accessed : Option (Fin PROFILE_SECTION_COUNT × ℤ)) (m : Mem) : SetOutcome :=
  let m' := if T.userGet then E.usergetValue T m else m
  ⟨m'.store8 L.save 1, F.table, F.item, some (E.getStrParamValueItem T m'), accessed, m⟩

/-- The second part of `HandleKursSetParamValue`, with a table found. -/
def setItem (E : KursEnv) (L : Layout) (P : Profile) (m : Mem) (cmd : UInt8) (F : SetFields)
    (data : List UInt8) (t : Table) : Option SetOutcome :=
  let T := t.entries F.index
  let accessed := some (t.index, F.index)
  (dataSize T data).bind fun
    | none => some (F.refuse accessed m)
    | some size =>
        if writable P cmd F t T then
          (setStrValueItem E L T data size m).map fun
            | (true, m') => F.accept E L T accessed m'
            | (false, m') => F.refuse accessed m'
        else some (F.refuse accessed m)

/-- **`HandleKursSetParamValue`** -/
def handleKursSetParamValue (E : KursEnv) (L : Layout) (P : Profile) (m : Mem)
    (strRx : List UInt8) : Option SetOutcome :=
  (setFields strRx).bind fun F =>
    match F.data with
    | none => some (F.refuse none m)
    | some data =>
        match P.table F.table with
        | none => some (F.refuse none m)
        | some t => setItem E L P m (strRx.getD 1 0) F data t

/-- A number in decimal digits. -/
def decimalText (n : ℕ) : List UInt8 := ascii (toString n)

/-- The reply: address and command of the request, the numbers, the value and the
checksum. -/
def SetOutcome.reply (o : SetOutcome) (strRx : List UInt8) : List UInt8 :=
  let str := strRx.take 2 ++ decimalText o.table.toNat ++ SEMICOLON ::
    (decimalText o.item.toNat ++ SEMICOLON :: (o.answer.getD (ascii "NA") ++ [SEMICOLON]))
  str ++ decimalText (getCrc16Ascii str str.length).toNat ++ [0x0D]

/-! ### What has been read when the value is reached -/

variable {E : KursEnv} {L : Layout} {P : Profile} {m : Mem} {strRx data : List UInt8}

/-- A checksum as a 32-bit number. -/
theorem crc_toNat (crc : UInt16) : (UInt32.ofNat crc.toNat).toNat = crc.toNat :=
  UInt32.toNat_ofNat_of_lt' (lt_trans crc.toNat_lt (by decide))

/-- A checksum is never the default of its parser. -/
theorem crc_ne_default (crc : UInt16) : UInt32.ofNat crc.toNat ≠ 0xFFFFFFFF := by
  intro hdflt
  have hlt := crc.toNat_lt
  have hnat := congrArg UInt32.toNat hdflt
  rw [crc_toNat] at hnat
  simp only [UInt32.reduceToNat] at hnat
  omega

/-- A checksum that matches stands behind the last `';'` of the string, with a digit in
front of the terminator. -/
theorem crcMatches_true (h : crcMatches strRx = some true) :
    ∃ upto crc rest, strRx = upto ++ SEMICOLON :: (crc ++ 0 :: rest) ∧ 0 ∉ upto ∧
      SEMICOLON ∉ crc ∧ 0 ∉ crc ∧ (∃ ch ∈ crc, ch ≠ 0x20 ∧ (decValue ch).isSome = true) ∧
      strToU32Def (crc ++ 0 :: rest) 0xFFFFFFFF =
        some (UInt32.ofNat (getCrc16Ascii strRx (upto.length + 1)).toNat) := by
  rw [crcMatches] at h
  obtain ⟨r, hr, h⟩ := Option.bind_eq_some_iff.mp h
  cases r with
  | none => simp at h
  | some i =>
      obtain ⟨upto, crc, rest, rfl, rfl, h0, hcrc, hcrc0⟩ :=
        (strrchr_eq_some_iff (by decide)).mp hr
      obtain ⟨v, hv, hmatch⟩ := Option.map_eq_some_iff.mp h
      have hv' : strToU32Def (crc ++ 0 :: rest) 0xFFFFFFFF = some v := by
        simpa [List.drop_append, List.drop_eq_nil_of_le] using hv
      obtain rfl := of_decide_eq_true hmatch
      exact ⟨upto, crc, rest, rfl, h0, hcrc, hcrc0,
        exists_digit_of_strToU32Def hv' (crc_ne_default _), hv'⟩

/-- **The fields behind a value that is reached**: the checksum matches, the numbers of
the table and of the item were read, and the value starts behind the second `';'`. -/
theorem setFields_data {F : SetFields} (h : setFields strRx = some F)
    (hdata : F.data = some data) :
    crcMatches strRx = some true ∧ strToU16 (strRx.drop 2) = some (some F.table) ∧
      ∃ pre mid, strRx = pre ++ SEMICOLON :: (mid ++ SEMICOLON :: data) ∧
        SEMICOLON ∉ pre ∧ 0 ∉ pre ∧ SEMICOLON ∉ mid ∧ 0 ∉ mid ∧
        strToU16 (mid ++ SEMICOLON :: data) = some (some F.item) := by
  rw [setFields] at h
  obtain ⟨ok, hcrc, h⟩ := Option.bind_eq_some_iff.mp h
  cases ok with
  | false =>
      obtain rfl := Option.some.inj h
      simp at hdata
  | true =>
  obtain ⟨r, htable, h⟩ := Option.bind_eq_some_iff.mp h
  cases r with
  | none =>
      obtain rfl := Option.some.inj h
      simp at hdata
  | some table =>
  obtain ⟨r, hfirst, h⟩ := Option.bind_eq_some_iff.mp h
  cases r with
  | none =>
      obtain rfl := Option.some.inj h
      simp at hdata
  | some i =>
  obtain ⟨r, hitem, h⟩ := Option.bind_eq_some_iff.mp h
  cases r with
  | none =>
      obtain rfl := Option.some.inj h
      simp at hdata
  | some item =>
  obtain ⟨r, hsecond, h⟩ := Option.map_eq_some_iff.mp h
  cases r with
  | none =>
      subst h
      simp at hdata
  | some j =>
      subst h
      obtain ⟨pre, behind, rfl, rfl, hpre, hpre0⟩ := strchr_eq_some_iff.mp hfirst
      have hdrop : (pre ++ SEMICOLON :: behind).drop (pre.length + 1) = behind := by
        simp [List.drop_append, List.drop_eq_nil_of_le]
      rw [hdrop] at hsecond hitem hdata
      obtain ⟨mid, behind', rfl, rfl, hmid, hmid0⟩ := strchr_eq_some_iff.mp hsecond
      obtain rfl : behind' = data := by
        simpa [List.drop_append, List.drop_eq_nil_of_le] using hdata
      exact ⟨hcrc, htable, pre, mid, rfl, hpre, hpre0, hmid, hmid0, hitem⟩

/-- Such a value has a digit in front of its terminator: at the latest that of the
checksum. -/
theorem setFields_digit {F : SetFields} (h : setFields strRx = some F)
    (hdata : F.data = some data) :
    ∃ pre rest, data = pre ++ 0 :: rest ∧
      ∃ ch ∈ pre, ch ≠ 0x20 ∧ (decValue ch).isSome = true := by
  obtain ⟨hcrc, -, pre, mid, hsplit, -, hpre0, -, hmid0, -⟩ := setFields_data h hdata
  obtain ⟨upto, crc, rest, hlast, hupto, hcrc', -, ⟨ch, hch, hdigit⟩, -⟩ := crcMatches_true hcrc
  have hboth : (pre ++ SEMICOLON :: mid) ++ SEMICOLON :: data =
      upto ++ SEMICOLON :: (crc ++ 0 :: rest) := by
    rw [← hlast, hsplit, List.append_assoc, List.cons_append]
  obtain ⟨gap, -, rfl⟩ := behind_last (by decide) hboth (by simp [hpre0, hmid0, SEMICOLON]) hupto
    hcrc'
  exact ⟨gap ++ crc, rest, by rw [List.append_assoc], ch, List.mem_append_right _ hch, hdigit⟩

/-! ### The handler comes to an end -/

/-- A checksum is looked for without leaving the string. -/
theorem crcMatches_isSome (h : 0 ∈ strRx) : (crcMatches strRx).isSome = true := by
  rw [crcMatches]
  obtain ⟨r, hr⟩ := Option.isSome_iff_exists.mp (strrchr_isSome (c := SEMICOLON) h)
  rw [hr, Option.bind_some]
  cases r with
  | none => rfl
  | some i =>
      obtain ⟨upto, crc, rest, rfl, rfl, -⟩ := (strrchr_eq_some_iff (by decide)).mp hr
      rw [Option.isSome_map]
      exact strToU32Def_isSome (by simp [List.drop_append, List.drop_eq_nil_of_le])

/-- What follows a separator is terminated if the string is. -/
theorem strchr_terminated {i : ℕ} (h : strchr SEMICOLON strRx = some (some i))
    (h0 : 0 ∈ strRx) : 0 ∈ strRx.drop (i + 1) := by
  obtain ⟨pre, behind, rfl, rfl, -, hpre0⟩ := strchr_eq_some_iff.mp h
  have hbehind : 0 ∈ behind := by simpa [hpre0, SEMICOLON] using h0
  simpa [List.drop_append, List.drop_eq_nil_of_le] using hbehind

/-- The fields of a string are read without leaving it. -/
theorem setFields_isSome (h : 0 ∈ strRx) : (setFields strRx).isSome = true := by
  obtain ⟨ok, hok⟩ := Option.isSome_iff_exists.mp (crcMatches_isSome h)
  rw [setFields, hok, Option.bind_some]
  cases ok with
  | false => rfl
  | true =>
  -- the digit of the checksum stands behind the second character
  have hdrop : 0 ∈ strRx.drop 2 := by
    obtain ⟨upto, crc, rest, rfl, -, -, -, ⟨ch, hch, -⟩, -⟩ := crcMatches_true hok
    obtain ⟨a, crc, rfl⟩ : ∃ a crc', crc = a :: crc' :=
      List.exists_cons_of_ne_nil (List.ne_nil_of_mem hch)
    rcases upto with _ | ⟨b, _ | ⟨b', upto⟩⟩ <;> simp
  obtain ⟨r, hr⟩ := Option.isSome_iff_exists.mp (strToU16_isSome hdrop)
  simp only [hr, Option.bind_some]
  cases r with
  | none => rfl
  | some table =>
  obtain ⟨r, hr⟩ := Option.isSome_iff_exists.mp (strchr_isSome (c := SEMICOLON) h)
  simp only [hr, Option.bind_some]
  cases r with
  | none => rfl
  | some i =>
  have hbehind := strchr_terminated hr h
  obtain ⟨r, hr⟩ := Option.isSome_iff_exists.mp (strToU16_isSome hbehind)
  simp only [hr, Option.bind_some]
  cases r with
  | none => rfl
  | some item =>
      simp only [Option.isSome_map]
      exact strchr_isSome hbehind

/-- `SetStrValueItem` comes to an end on a string with a digit. -/
theorem setStrValueItem_isSome {T : ProfileParam} {size : UInt16} {pre rest : List UInt8}
    (h : ∃ ch ∈ pre, ch ≠ 0x20 ∧ (decValue ch).isSome = true) :
    (setStrValueItem E L T (pre ++ 0 :: rest) size m).isSome = true := by
  rw [setStrValueItem]
  split
  case h_1 => rw [Option.isSome_map]; exact strToU32_isSome h
  case h_2 => rw [Option.isSome_map]; exact strToU32_isSome h
  case h_3 => rw [Option.isSome_map]; exact strToU32_isSome h
  all_goals rfl

/-- **The handler comes to an end on every string.** -/
theorem handleKursSetParamValue_isSome (s : Str) (rest : List UInt8) :
    (handleKursSetParamValue E L P m (s.mem rest)).isSome = true := by
  have hterm : 0 ∈ s.mem rest := by simp [Str.mem]
  obtain ⟨F, hF⟩ := Option.isSome_iff_exists.mp (setFields_isSome hterm)
  rw [handleKursSetParamValue, hF, Option.bind_some]
  cases hdata : F.data with
  | none => rfl
  | some data =>
  cases htable : P.table F.table with
  | none => rfl
  | some t =>
  obtain ⟨pre, behind, rfl, hdigit⟩ := setFields_digit hF hdata
  have hsize : (dataSize (t.entries F.index) (pre ++ 0 :: behind)).isSome = true := by
    rw [dataSize]
    split
    · rw [Option.isSome_map]
      exact strchr_isSome (by simp)
    · rfl
  obtain ⟨r, hr⟩ := Option.isSome_iff_exists.mp hsize
  simp only [setItem, hr, Option.bind_some]
  cases r with
  | none => rfl
  | some size =>
      simp only
      split
      · rw [Option.isSome_map]
        exact setStrValueItem_isSome hdigit
      · rfl

end Muxponder
