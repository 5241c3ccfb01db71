import Muxponder.KursSetAtomicity

/-!
# The Grammar of Set Requests

A set request reads `addr cmd table;item;value;CRC CR`, with the value a literal of the
type of its parameter. The handler never checks this shape: its parsers read from where a
field starts to where their number ends, and `StrToU32` looks for its first digit across
separators. A request without a value has its checksum stored; blanks, further fields and
anything behind a number pass.

What the handler does check is enough for requests of that shape: the numbers it uses are
those of the fields, in range and within the limits, and it stores the value of the field.

## Main results

* `setParam_conforms_iff`: an accepted request conforms exactly if it has the shape.
* `setParam_not_conforms`: a request without a value stores its checksum.
-/

namespace Muxponder

open Memory CString Digits

/-! ### Requests -/

/-- The parts of a set request. -/
structure SetRequest where
  addr : UInt8
  cmd : UInt8
  table : List UInt8
  item : List UInt8
  value : List UInt8
  crc : List UInt8

namespace SetRequest

/-- The characters in front of the table's separator. -/
def head (r : SetRequest) : List UInt8 := r.addr :: r.cmd :: r.table

/-- The request up to its last `';'`. -/
def upto (r : SetRequest) : List UInt8 :=
  r.head ++ SEMICOLON :: (r.item ++ SEMICOLON :: (r.value ++ [SEMICOLON]))

/-- `addr cmd table;item;value;CRC CR` -/
def text (r : SetRequest) : List UInt8 := r.upto ++ (r.crc ++ [0x0D])

/-- A request of one of the two set commands, with decimal numbers, and without `';'` but
for the separators. -/
structure WellFormed (r : SetRequest) : Prop where
  addr : r.addr ≠ SEMICOLON
  cmd : r.cmd = KURS_SET_PROFILE_PARAMS ∨ r.cmd = KURS_SET_PROFILE_CALIB_PARAMS
  table : IsDecimal r.table
  item : IsDecimal r.item
  value : SEMICOLON ∉ r.value
  crc : IsDecimal r.crc

end SetRequest

/-! ### The value of a field -/

/-- What a value field denotes. -/
inductive FieldValue
  | word (v : UInt32)
  | text (s : List UInt8)

/-- The types with a grammar of their own: decimal, hexadecimal and text. -/
def FieldType (T : ProfileParam) : Prop :=
  T.type = .u32 ∨ T.type = .enum ∨ T.type = .bool ∨ T.type = .hex ∨ T.type = .str

/-- **The value a whole field denotes** for a parameter: decimal digits that fit in 32
bits, eight hexadecimal digits, or a text that fits in its variable. -/
def denote (T : ProfileParam) (field : List UInt8) : Option FieldValue :=
  match T.type with
  | .u32 | .enum | .bool =>
      if IsDecimal field ∧ decimal field < 2 ^ 32 then
        some (.word (UInt32.ofNat (decimal field)))
      else none
  | .hex =>
      if field.length = 8 ∧ IsNumber hexValue field then
        some (.word (UInt32.ofNat (value hexValue 16 0 field)))
      else none
  | .str => if field.length < T.dSize.toNat then some (.text field) else none
  | _ => none

/-- A number is within the limits of its parameter. -/
def FieldValue.Within (E : KursEnv) (T : ProfileParam) (m : Mem) : FieldValue → Prop
  | .word v => withinLimits E T v m = true
  | .text _ => True

/-- The variable of a parameter holds a value. -/
def FieldValue.HeldBy (T : ProfileParam) (m : Mem) : FieldValue → Prop
  | .word v => m.load32 T.data = v
  | .text s => m.HoldsText T.data s

/-- The parameter that an outcome's numbers name in a table. -/
def SetOutcome.param (o : SetOutcome) (t : Table) : ProfileParam :=
  t.entries (o.item.toNat - 1)

/-- An accepted request for a parameter, as it should be: it has the shape of a set
request with the table and the item that were set and with its own checksum, its value
field denotes a value within the limits, and that value has been stored. -/
structure Meant (E : KursEnv) (m : Mem) (s : Str) (o : SetOutcome) (t : Table)
    (r : SetRequest) (v : FieldValue) : Prop where
  wellFormed : r.WellFormed
  text : s.chars = r.text
  table : decimal r.table = o.table.toNat
  item : decimal r.item = o.item.toNat ∧ 1 ≤ decimal r.item ∧ decimal r.item ≤ t.count.toNat
  crc : decimal r.crc = (getCrc16Ascii r.upto r.upto.length).toNat
  literal : denote (o.param t) r.value = some v
  within : v.Within E (o.param t) m
  stored : v.HeldBy (o.param t) o.stored

/-- **Conformance**: whatever is accepted names a table, and for a parameter with a
grammar it is meant as it is stored. -/
def Conforms (E : KursEnv) (P : Profile) (m : Mem) (s : Str) (o : SetOutcome) : Prop :=
  o.answer ≠ none → ∃ t, P.table o.table = some t ∧
    (FieldType (o.param t) → ∃ r v, Meant E m s o t r v)

/-! ### What the handler checks -/

/-- A number is taken: it is within the limits, and no callback refuses it. -/
def TakesWord (E : KursEnv) (L : Layout) (T : ProfileParam) (m : Mem) (tm : UInt32) : Prop :=
  withinLimits E T tm m = true ∧
    (T.userSet = true → (profileUsersetValue E L T tm m).1 = true)

/-- The checks of `SetStrValueItem` on what its parsers make of the memory behind the
start of a field. -/
def TakesValue (E : KursEnv) (L : Layout) (T : ProfileParam) (data : List UInt8)
    (size : UInt16) (m : Mem) : Prop :=
  match T.type with
  | .u32 | .enum | .bool => ∃ tm, strToU32 data = some (some tm) ∧ TakesWord E L T m tm
  | .hex => ∃ tm, strHexToU32 data = some tm ∧ TakesWord E L T m tm
  | .str => T.userSet = true → (textCallback E L T data size m).1 = true
  | _ => False

/-- A request for a parameter with a grammar that passes every check of the handler. -/
structure Admitted (E : KursEnv) (L : Layout) (P : Profile) (m : Mem) (strRx : List UInt8)
    (F : SetFields) (data : List UInt8) (t : Table) (size : UInt16) : Prop where
  reaches : Reaches P strRx F data t
  sized : dataSize (t.entries F.index) data = some (some size)
  writable : writable P (strRx.getD 1 0) F t (t.entries F.index) = true
  type : FieldType (t.entries F.index)
  value : TakesValue E L (t.entries F.index) data size m

/-- **The shape that the handler does not check**: three separators with plain numbers in
front of them and a plain literal as the value; a callback of a text leaves the text as it
is. -/
structure Clean (E : KursEnv) (L : Layout) (m : Mem) (s : Str) (T : ProfileParam)
    (data : List UInt8) (size : UInt16) (r : SetRequest) : Prop where
  wellFormed : r.WellFormed
  text : s.chars = r.text
  literal : (denote T r.value).isSome = true
  kept : T.type = .str → T.userSet = true →
    (textCallback E L T data size m).2.HoldsText T.data r.value

section Checks

variable {E : KursEnv} {L : Layout} {P : Profile} {m m' : Mem} {strRx data : List UInt8}
  {F : SetFields} {t : Table} {T : ProfileParam} {o : SetOutcome} {size : UInt16}
  {tm : UInt32} {r : SetRequest} {s : Str}

/-- A number that is taken is stored. -/
theorem storeParsed_taken (h : TakesWord E L T m tm) :
    ∃ m', storeParsed E L T m (some tm) = (true, m') ∧ m'.load32 T.data = tm := by
  obtain ⟨hlim, hcall⟩ := h
  simp only [storeParsed, if_pos hlim, storeWord]
  split
  · next huser =>
      split
      · exact ⟨_, rfl, load32_store32⟩
      · next m' heq =>
          have htrue := hcall huser
          rw [heq] at htrue
          simp at htrue
  · exact ⟨_, rfl, load32_store32⟩

/-- Only a parsed number that is taken is accepted. -/
theorem storeParsed_true {p : Option UInt32} (h : storeParsed E L T m p = (true, m')) :
    ∃ tm, p = some tm ∧ TakesWord E L T m tm ∧ m'.load32 T.data = tm := by
  cases p with
  | none => simp [storeParsed] at h
  | some tm =>
      have htakes : TakesWord E L T m tm := by
        simp only [storeParsed] at h
        split at h
        · next hlim =>
            refine ⟨hlim, fun huser => ?_⟩
            rw [storeWord, if_pos huser] at h
            split at h
            · next heq => rw [heq]
            · simp at h
        · simp at h
      obtain ⟨m'', hm'', hload⟩ := storeParsed_taken htakes
      obtain rfl : m' = m'' := (Prod.mk.inj (h.symm.trans hm'')).2
      exact ⟨tm, rfl, htakes, hload⟩

/-- **What `SetStrValueItem` takes**, for the types with a grammar. -/
theorem setStrValueItem_true_iff (htype : FieldType T) :
    (∃ m', setStrValueItem E L T data size m = some (true, m')) ↔
      TakesValue E L T data size m := by
  have hword : (∃ m', (strToU32 data).map (storeParsed E L T m) = some (true, m')) ↔
      ∃ tm, strToU32 data = some (some tm) ∧ TakesWord E L T m tm := by
    constructor
    · rintro ⟨m', h⟩
      obtain ⟨p, hp, h⟩ := Option.map_eq_some_iff.mp h
      obtain ⟨tm, rfl, htm, -⟩ := storeParsed_true h
      exact ⟨tm, hp, htm⟩
    · rintro ⟨tm, hp, htm⟩
      obtain ⟨m', hm', -⟩ := storeParsed_taken htm
      exact ⟨m', by rw [hp, Option.map_some, hm']⟩
  have hhex : (∃ m', some (storeParsed E L T m (strHexToU32 data)) = some (true, m')) ↔
      ∃ tm, strHexToU32 data = some tm ∧ TakesWord E L T m tm := by
    constructor
    · rintro ⟨m', h⟩
      obtain ⟨tm, hp, htm, -⟩ := storeParsed_true (Option.some.inj h)
      exact ⟨tm, hp, htm⟩
    · rintro ⟨tm, hp, htm⟩
      obtain ⟨m', hm', -⟩ := storeParsed_taken htm
      exact ⟨m', by rw [hp, hm']⟩
  have htext : (∃ m', some (setText E L T data size m) = some (true, m')) ↔
      (T.userSet = true → (textCallback E L T data size m).1 = true) := by
    simp only [Option.some.injEq, setText]
    constructor
    · rintro ⟨m', h⟩ huser
      rw [if_pos huser] at h
      rw [h]
    · intro hcall
      split
      · next huser => exact ⟨_, Prod.ext (hcall huser) rfl⟩
      · exact ⟨_, rfl⟩
  rcases htype with h | h | h | h | h <;>
    simp only [setStrValueItem, TakesValue, h, hword, hhex, htext]

/-- An accepted request has passed the checks, and its outcome has the memory that
`SetStrValueItem` left. -/
theorem setItem_accepted {cmd : UInt8} (h : setItem E L P m cmd F data t = some o)
    (hanswer : o.answer ≠ none) :
    ∃ size, dataSize (t.entries F.index) data = some (some size) ∧
      writable P cmd F t (t.entries F.index) = true ∧
      setStrValueItem E L (t.entries F.index) data size m = some (true, o.stored) := by
  rcases setItem_cases h with ⟨rfl, -⟩ | ⟨size, ok, m', hsize, hw, hstr, rfl⟩
  · exact absurd rfl hanswer
  cases ok with
  | false => exact absurd rfl hanswer
  | true => exact ⟨size, hsize, hw, hstr⟩

/-- The numbers of the reply are those that were read. -/
theorem setItem_numbers {cmd : UInt8} (h : setItem E L P m cmd F data t = some o) :
    o.table = F.table ∧ o.item = F.item := by
  rcases setItem_cases h with ⟨rfl, -⟩ | ⟨size, ok, m', -, -, -, rfl⟩
  · exact ⟨rfl, rfl⟩
  · cases ok <;> exact ⟨rfl, rfl⟩

/-- The parameter of an outcome is the one whose descriptor was read. -/
theorem setItem_param {cmd : UInt8} (h : setItem E L P m cmd F data t = some o) :
    o.param t = t.entries F.index := by
  rw [SetOutcome.param, (setItem_numbers h).2, SetFields.index]

/-- **Acceptance**: the handler accepts a request for a parameter with a grammar exactly
if it is admitted. -/
theorem accepted_iff_admitted (h : setItem E L P m (strRx.getD 1 0) F data t = some o)
    (hreach : Reaches P strRx F data t) (htype : FieldType (t.entries F.index)) :
    o.answer ≠ none ↔ ∃ size, Admitted E L P m strRx F data t size := by
  constructor
  · intro hanswer
    obtain ⟨size, hsize, hw, hstr⟩ := setItem_accepted h hanswer
    exact ⟨size, hreach, hsize, hw, htype, (setStrValueItem_true_iff htype).mp ⟨_, hstr⟩⟩
  · rintro ⟨size, hadm⟩
    obtain ⟨m', hstr⟩ := (setStrValueItem_true_iff htype).mpr hadm.value
    rcases setItem_cases h with ⟨-, hnot⟩ | ⟨size', ok, m'', hsize', -, hstr', rfl⟩
    · have hw := hadm.writable
      rw [hnot size hadm.sized] at hw
      simp at hw
    · obtain rfl : size = size' := by simpa [hadm.sized] using hsize'
      rw [hstr] at hstr'
      obtain ⟨rfl, rfl⟩ := Prod.mk.inj (Option.some.inj hstr')
      simp [SetFields.accept]

/-! ### Requests of the shape -/

/-- What is no digit does not stand in a number. -/
theorem notMem_of_number {digit : UInt8 → Option ℕ} {ds : List UInt8} {c : UInt8}
    (hds : IsNumber digit ds) (hc : digit c = none) : c ∉ ds := by
  intro hmem
  have hsome := hds.2 c hmem
  rw [hc] at hsome
  simp at hsome

/-- A request of the shape behind its first separator. -/
theorem SetRequest.mem_text (htext : s.chars = r.text) (rest : List UInt8) :
    s.mem rest = r.head ++ SEMICOLON :: (r.item ++ SEMICOLON :: (r.value ++ SEMICOLON ::
      (r.crc ++ 0x0D :: 0 :: rest))) := by
  simp [Str.mem, htext, SetRequest.text, SetRequest.upto, List.append_assoc]

/-- A request of the shape is cut at its separators. -/
theorem reaches_fields (hr : r.WellFormed) (htext : s.chars = r.text) {rest : List UInt8}
    (hreach : Reaches P (s.mem rest) F data t) :
    decimal r.table = F.table.toNat ∧ decimal r.item = F.item.toNat ∧
      data = r.value ++ SEMICOLON :: (r.crc ++ 0x0D :: 0 :: rest) := by
  obtain ⟨-, htable, pre, mid, hsplit, hpre, -, hmid, -, hitem⟩ :=
    setFields_data hreach.fields hreach.data
  have hcmd : r.cmd ≠ SEMICOLON := by
    rcases hr.cmd with h | h <;> rw [h] <;> decide
  have hhead : SEMICOLON ∉ r.head := by
    have htab : SEMICOLON ∉ r.table := notMem_of_number hr.table rfl
    simp [SetRequest.head, hr.addr.symm, hcmd.symm, htab]
  rw [SetRequest.mem_text htext] at hsplit
  obtain ⟨rfl, hbehind⟩ := split_unique hsplit hhead hpre
  obtain ⟨rfl, rfl⟩ := split_unique hbehind (notMem_of_number hr.item rfl) hmid
  rw [SetRequest.mem_text htext] at htable
  exact ⟨(strToU16_value hr.table rfl htable).symm, (strToU16_value hr.item rfl hitem).symm,
    rfl⟩

/-- The checksum of a request of the shape, as the handler reads it. -/
theorem reaches_crc (hr : r.WellFormed) (htext : s.chars = r.text) {rest : List UInt8}
    (hreach : Reaches P (s.mem rest) F data t) :
    decimal r.crc = (getCrc16Ascii r.upto r.upto.length).toNat := by
  obtain ⟨hcrc, -⟩ := setFields_data hreach.fields hreach.data
  obtain ⟨upto, crc, rest', hlast, hupto, hsep, hcrc0, -, hread⟩ := crcMatches_true hcrc
  -- both cut the string at its last separator
  obtain ⟨body, hbody⟩ : ∃ body, r.upto = body ++ [SEMICOLON] :=
    ⟨r.head ++ SEMICOLON :: (r.item ++ SEMICOLON :: r.value),
      by simp [SetRequest.upto, List.append_assoc]⟩
  have hmem : s.mem rest = body ++ SEMICOLON :: ((r.crc ++ [0x0D]) ++ 0 :: rest) := by
    simp [Str.mem, htext, SetRequest.text, hbody, List.append_assoc]
  have hnul : 0 ∉ body ∧ 0 ∉ r.crc ++ [0x0D] := by
    have h0 := s.noNul
    rw [htext, SetRequest.text, hbody] at h0
    exact ⟨fun h => h0 (by simp [h]), fun h => h0 (List.mem_append_right _ h)⟩
  have hcrcSep : SEMICOLON ∉ r.crc ++ [0x0D] := by
    have hdigits : SEMICOLON ∉ r.crc := notMem_of_number hr.crc rfl
    simpa [SEMICOLON] using hdigits
  obtain ⟨rfl, rfl, rfl⟩ := last_unique (by decide) (hmem.symm.trans hlast) hnul.1 hupto
    ⟨hcrcSep, hnul.2⟩ ⟨hsep, hcrc0⟩
  have hsame : getCrc16Ascii (s.mem rest) (body.length + 1) =
      getCrc16Ascii r.upto r.upto.length := by
    have hsplit : s.mem rest = r.upto ++ ((r.crc ++ [0x0D]) ++ 0 :: rest) := by
      simp [hmem, hbody]
    have hlen : r.upto.length = body.length + 1 := by simp [hbody]
    rw [getCrc16Ascii, getCrc16Ascii, hsplit, ← hlen,
      List.take_append_of_le_length (Nat.mod_le _ _)]
  rw [hsame, List.append_assoc, List.singleton_append] at hread
  rw [← crc_toNat]
  exact (strToU32Def_value hr.crc rfl hread (crc_ne_default _)).symm

/-- The number of characters that are copied. -/
theorem copyLength_toNat (hpos : 0 < T.dSize.toNat) :
    (copyLength T size).toNat = min (T.dSize.toNat - 1) size.toNat := by
  rw [copyLength]
  split
  · next hle =>
      have hone : (1 : UInt32) ≤ T.dSize.toUInt32 := UInt32.le_iff_toNat_le.mpr hpos
      rw [UInt32.toNat_sub_of_le _ _ hone, UInt16.toNat_toUInt32, UInt32.toNat_one]
      omega
  · rw [UInt16.toNat_toUInt32]
    omega

/-- **What is copied of a text**: as much of it as leaves room for the terminator. -/
theorem copyText_holdsText {field rest : List UInt8} (hpos : 0 < T.dSize.toNat)
    (hlen : field.length < 2 ^ 16) (h0 : 0 ∉ field) :
    (copyText T (field ++ rest) (UInt16.ofNat field.length) m).HoldsText T.data
      (field.take (T.dSize.toNat - 1)) := by
  have hsize : (UInt16.ofNat field.length).toNat = field.length :=
    UInt16.toNat_ofNat_of_lt' hlen
  have htake : (field.take (T.dSize.toNat - 1)).length =
      (copyLength T (UInt16.ofNat field.length)).toNat := by
    rw [copyLength_toNat hpos, hsize, List.length_take]
  have hsplit : field ++ rest = field.take (T.dSize.toNat - 1) ++
      (field.drop (T.dSize.toNat - 1) ++ rest) := by
    rw [← List.append_assoc, List.take_append_drop]
  have hlast : UInt32.ofNat (copyLength T (UInt16.ofNat field.length)).toNat =
      copyLength T (UInt16.ofNat field.length) := UInt32.ofNat_toNat
  have hd := T.dSize.toNat_lt
  have hshort := List.length_take_le (T.dSize.toNat - 1) field
  rw [copyText, hsplit, ← hlast, ← htake, UInt32.toNat_ofNat_of_lt' (by rw [UInt32.size]; omega)]
  exact strncpy_holdsText (fun h => h0 (List.mem_of_mem_take h)) (by omega)

/-- A text shorter than its variable is copied whole. -/
theorem copyText_holds {field rest : List UInt8} (hlen : field.length < T.dSize.toNat)
    (h0 : 0 ∉ field) :
    (copyText T (field ++ rest) (UInt16.ofNat field.length) m).HoldsText T.data field := by
  have hcopied : (copyText T (field ++ rest) (UInt16.ofNat field.length) m).HoldsText T.data
      (field.take (T.dSize.toNat - 1)) :=
    copyText_holdsText (Nat.zero_lt_of_lt hlen) (lt_trans hlen T.dSize.toNat_lt) h0
  rwa [List.take_of_length_le (by omega)] at hcopied

/-- A number that is accepted is within the limits and stored. -/
theorem held_of_parsed {p : Option UInt32} {v : UInt32} (hp : ∀ tm, p = some tm → tm = v)
    (h : storeParsed E L T m p = (true, m')) :
    (FieldValue.word v).Within E T m ∧ (FieldValue.word v).HeldBy T m' := by
  obtain ⟨tm, htm, htakes, hload⟩ := storeParsed_true h
  obtain rfl := hp tm htm
  exact ⟨htakes.1, hload⟩

/-- **The value of a field is what is stored**: for a parameter with a grammar, a plain
literal that the handler accepts is within the limits and in the variable. -/
theorem held_of_denote {field rest : List UInt8} {v : FieldValue} (htype : FieldType T)
    (hdata : data = field ++ SEMICOLON :: rest) (hsep : SEMICOLON ∉ field) (h0 : 0 ∉ field)
    (hv : denote T field = some v) (hsize : dataSize T data = some (some size))
    (hkept : T.type = .str → T.userSet = true →
      (textCallback E L T data size m).2.HoldsText T.data field)
    (hstr : setStrValueItem E L T data size m = some (true, m')) :
    v.Within E T m ∧ v.HeldBy T m' := by
  subst hdata
  have hdecimal : (strToU32 (field ++ SEMICOLON :: rest)).map (storeParsed E L T m) =
      some (true, m') →
      (if IsDecimal field ∧ decimal field < 2 ^ 32 then
        some (FieldValue.word (UInt32.ofNat (decimal field))) else none) = some v →
      v.Within E T m ∧ v.HeldBy T m' := by
    intro hstr hv
    split at hv
    · next hfield =>
        obtain rfl := Option.some.inj hv
        obtain ⟨p, hp, hstored⟩ := Option.map_eq_some_iff.mp hstr
        refine held_of_parsed (fun tm htm => ?_) hstored
        rw [htm] at hp
        exact strToU32_value hfield.1 hfield.2 rfl hp
    · simp at hv
  rcases htype with h | h | h | h | h <;> simp only [setStrValueItem, denote, h] at hstr hv
  · exact hdecimal hstr hv
  · exact hdecimal hstr hv
  · exact hdecimal hstr hv
  · split at hv
    · next hfield =>
        obtain rfl := Option.some.inj hv
        refine held_of_parsed (fun tm htm => ?_) (Option.some.inj hstr)
        rw [strHexToU32, readHex_eq_value hfield.1 hfield.2.2, Option.map_some] at htm
        exact (Option.some.inj htm).symm
    · simp at hv
  · split at hv
    · next hfield =>
        obtain rfl := Option.some.inj hv
        refine ⟨trivial, ?_⟩
        obtain rfl : UInt16.ofNat field.length = size := by
          simpa [dataSize, h, strchr_append hsep h0] using hsize
        have hcopy : (copyText T (field ++ SEMICOLON :: rest) (UInt16.ofNat field.length)
            m).HoldsText T.data field := copyText_holds hfield h0
        simp only [setText, Option.some.injEq] at hstr
        split at hstr
        · next huser =>
            have hcall := hkept h huser
            rwa [hstr] at hcall
        · rwa [(Prod.mk.inj hstr).2] at hcopy
    · simp at hv

/-! ### Conformance -/

/-- An item that is written is one of its table. -/
theorem item_of_writable {cmd : UInt8} (h : writable P cmd F t T = true) :
    1 ≤ F.item.toNat ∧ F.item.toNat ≤ t.count.toNat := by
  simp only [writable, Bool.and_eq_true, decide_eq_true_eq] at h
  obtain ⟨⟨⟨⟨-, hzero⟩, hcount⟩, -⟩, -⟩ := h
  refine ⟨Nat.one_le_iff_ne_zero.mpr fun hz => hzero ?_, UInt16.le_iff_toNat_le.mp hcount⟩
  exact UInt16.toNat_inj.mp hz

/-- An admitted request of the shape is meant as it is stored. -/
theorem meant_of_clean {rest : List UInt8}
    (hset : setItem E L P m ((s.mem rest).getD 1 0) F data t = some o)
    (hanswer : o.answer ≠ none) (hadm : Admitted E L P m (s.mem rest) F data t size)
    (hclean : Clean E L m s (t.entries F.index) data size r) : ∃ v, Meant E m s o t r v := by
  obtain ⟨hr, htext, hliteral, hkept⟩ := hclean
  obtain ⟨htable, hitem, hdata⟩ := reaches_fields hr htext hadm.reaches
  obtain ⟨hotable, hoitem⟩ := setItem_numbers hset
  obtain ⟨v, hv⟩ := Option.isSome_iff_exists.mp hliteral
  obtain ⟨size', hsize, hw, hstr⟩ := setItem_accepted hset hanswer
  obtain rfl : size = size' := by simpa [hadm.sized] using hsize
  have hparam := setItem_param hset
  have h0 : 0 ∉ r.value := by
    have hnul := s.noNul
    rw [htext, SetRequest.text, SetRequest.upto] at hnul
    exact fun h => hnul (by simp [h])
  have hrange := item_of_writable hw
  obtain ⟨hwithin, hheld⟩ := held_of_denote hadm.type hdata hr.value h0 hv hsize hkept hstr
  exact ⟨v, hr, htext, hotable ▸ htable, hoitem ▸ ⟨hitem, by omega, by omega⟩,
    reaches_crc hr htext hadm.reaches, hparam ▸ hv, hparam ▸ hwithin, hparam ▸ hheld⟩

/-- What is meant has the shape. -/
theorem clean_of_meant {rest : List UInt8} {v : FieldValue}
    (hset : setItem E L P m ((s.mem rest).getD 1 0) F data t = some o)
    (hanswer : o.answer ≠ none) (hadm : Admitted E L P m (s.mem rest) F data t size)
    (hmeant : Meant E m s o t r v) : Clean E L m s (t.entries F.index) data size r := by
  have hparam := setItem_param hset
  have hliteral := hmeant.literal
  have hstored := hmeant.stored
  rw [hparam] at hliteral hstored
  refine ⟨hmeant.wellFormed, hmeant.text, by rw [hliteral]; rfl, fun htype huser => ?_⟩
  obtain ⟨size', hsize, -, hstr⟩ := setItem_accepted hset hanswer
  obtain rfl : size = size' := by simpa [hadm.sized] using hsize
  simp only [denote, htype] at hliteral
  split at hliteral
  · obtain rfl := Option.some.inj hliteral
    simp only [setStrValueItem, htype, setText, huser, if_true, Option.some.injEq] at hstr
    rw [hstr]
    exact hstored
  · simp at hliteral

end Checks

/-- **Where set requests conform**: on every string, whatever the profile, the memory and
the callback, an accepted request for a parameter with a grammar is meant as it is stored
exactly if it has the shape that the handler does not check. -/
theorem setParam_conforms_iff (E : KursEnv) (L : Layout) (P : Profile) (m : Mem) (s : Str)
    (rest : List UInt8) :
    ∃ o, handleKursSetParamValue E L P m (s.mem rest) = some o ∧
      (Conforms E P m s o ↔ ∀ F data t size, Admitted E L P m (s.mem rest) F data t size →
        ∃ r, Clean E L m s (t.entries F.index) data size r) := by
  obtain ⟨o, ho⟩ := Option.isSome_iff_exists.mp
    (handleKursSetParamValue_isSome (E := E) (L := L) (P := P) (m := m) s rest)
  refine ⟨o, ho, ?_⟩
  rcases handleKursSetParamValue_cases ho with ⟨F, rfl, hnone⟩ | ⟨F, data, t, hreach, hset⟩
  · refine iff_of_true (fun hanswer => absurd rfl hanswer) ?_
    exact fun F' data t size hadm => absurd hadm.reaches (hnone F' data t)
  have hparam := setItem_param hset
  have htable : P.table o.table = some t := by rw [(setItem_numbers hset).1, hreach.table]
  constructor
  · intro hconf F' data' t' size hadm
    obtain ⟨rfl, rfl, rfl⟩ := hreach.unique hadm.reaches
    have hanswer := (accepted_iff_admitted hset hreach hadm.type).mpr ⟨size, hadm⟩
    obtain ⟨t', ht', hmeant⟩ := hconf hanswer
    obtain rfl : t = t' := by simpa [htable] using ht'
    obtain ⟨r, v, hmeant⟩ := hmeant (hparam ▸ hadm.type)
    exact ⟨r, clean_of_meant hset hanswer hadm hmeant⟩
  · intro hshape hanswer
    refine ⟨t, htable, fun htype => ?_⟩
    rw [hparam] at htype
    obtain ⟨size, hadm⟩ := (accepted_iff_admitted hset hreach htype).mp hanswer
    obtain ⟨r, hclean⟩ := hshape F data t size hadm
    obtain ⟨v, hmeant⟩ := meant_of_clean hset hanswer hadm hclean
    exact ⟨r, v, hmeant⟩

/-! ### A request that does not conform -/

/-- A number without limits and without a callback. -/
def sampleNumber : ProfileParam where
  paramId := 5
  userGet := false
  userSet := false
  type := .u32
  access := 213
  data := 0x100
  dSize := 4
  dMin := none
  dMax := none

/-- `r1;1;47372`: a request without a value. -/
def noValue : Str := ⟨0x80 :: ascii "r1;1;47372\r", by decide⟩

/-- **Set requests do not conform**: a request without a value is accepted, and its
checksum is stored. -/
theorem setParam_not_conforms :
    ∃ o, handleKursSetParamValue sampleEnv sampleLayout (sampleProfile sampleNumber)
        (fun _ => 0) (noValue.mem []) = some o ∧
      o.stored.load32 sampleNumber.data = 47372 ∧
      ¬ Conforms sampleEnv (sampleProfile sampleNumber) (fun _ => 0) noValue o := by
  have hrun : (handleKursSetParamValue sampleEnv sampleLayout (sampleProfile sampleNumber)
      (fun _ => 0) (noValue.mem [])).map
        (fun o => (o.answer, o.stored.load32 sampleNumber.data)) = some (some [], 47372) := rfl
  obtain ⟨o, ho, hout⟩ := Option.map_eq_some_iff.mp hrun
  obtain ⟨hanswer, hstored⟩ := Prod.mk.inj hout
  refine ⟨o, ho, hstored, fun hconf => ?_⟩
  obtain ⟨t, ht, hmeant⟩ := hconf (by rw [hanswer]; exact Option.some_ne_none _)
  have hentries : t.entries = fun _ => sampleNumber := by
    have hsection := (table_eq_some ht).1
    simp only [sampleProfile] at hsection
    split at hsection
    · exact (Option.some.inj hsection).symm
    · simp at hsection
  obtain ⟨r, v, hmeant⟩ := hmeant (Or.inl (by rw [SetOutcome.param, hentries]; rfl))
  -- the request has two separators, a set request three
  have hcount := congrArg (List.count SEMICOLON) hmeant.text
  have htwo : List.count SEMICOLON noValue.chars = 2 := by decide
  rw [htwo, SetRequest.text, SetRequest.upto] at hcount
  simp only [List.count_append, List.count_cons_self, List.count_nil] at hcount
  omega

end Muxponder
