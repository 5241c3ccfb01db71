import Muxponder.KursColors
import Muxponder.KursService
import Muxponder.KursSetAtomicity

/-!
# The Requests of KURS

`KURS_HandleRequests` of `kurs_core.c` with all of its handlers, over the state that they
share: the profile's flags and language pack, the variables in memory, the colour records,
and the state of safe reprogramming. The tables of the profile never change and are a
parameter.

A handler is `none` where the code reads outside the tables: a line or a section in front of
the first one, or the colour record of a parameter that has none.

## Main results

* `kursHandleRequests`, `kursRequests`: the handlers, and as a machine.
-/

namespace Muxponder

open Memory CString Digits Printf

/-! ### The tables of the profile -/

/-- The sections as `KURS_profile_init` sets them. -/
structure KursSections where
  parameters : Fin PROFILE_SECTION_COUNT → Option (ℤ → SectionParam)
  sectionParamCount : Fin PROFILE_SECTION_COUNT → UInt16

/-- The descriptors of a section. -/
def KursSections.params (T : KursSections) (i : Fin PROFILE_SECTION_COUNT) :
    List SectionParam :=
  match T.parameters i with
  | none => []
  | some entries => (List.range (T.sectionParamCount i).toNat).map fun k : ℕ => entries k

/-- A section that exists and has parameters. -/
def KursSections.filled (T : KursSections) (i : Fin PROFILE_SECTION_COUNT) : Bool :=
  (T.parameters i).isSome && 0 < T.sectionParamCount i

/-- The longest line of `Profile_Text`. -/
def PROFILE_LINE_LENGTH : ℕ := 167

/-- `PID_LEN`: the largest of the text variables. -/
def PID_LEN : ℕ := 65

/-- The number of parameters of `section_2`. -/
def SECTION_2_COUNT : ℕ := 156

/-- The tables that the profile is made of: its class, its sections and its lines, and the
scratch variables into which all parameters with `user_get` are refreshed. -/
structure KursTables (L : Layout) extends KursSections where
  class_ : List UInt8
  text : ℕ → List UInt8
  lineCount : UInt16
  dummyU32 : UInt32
  dummyU64 : UInt32
  dummyFloat : UInt32
  classFits : class_.length < 8
  textFits : ∀ k < lineCount.toNat, (text k).length ≤ PROFILE_LINE_LENGTH
  stringFits : ∀ i, ∀ p ∈ toKursSections.params i, p.type = .str ∨ p.type = .oid →
    0 < p.dSize.toNat ∧ p.dSize.toNat ≤ PID_LEN
  section2Fits : (toKursSections.params 1).length ≤ SECTION_2_COUNT
  refreshesScratch : ∀ i, ∀ p ∈ toKursSections.params i, p.userGet = true →
    ∀ a, Refreshed p.toProfileParam a →
      (a - dummyU32).toNat < 4 ∨ (a - dummyU64).toNat < 8 ∨ (a - dummyFloat).toNat < 4
  saveApart : ¬ ((L.save - dummyU32).toNat < 4 ∨ (L.save - dummyU64).toNat < 8 ∨
    (L.save - dummyFloat).toNat < 4)

/-! ### The state -/

/-- `LANG_BLOCK_SIZE` -/
abbrev LANG_BLOCK_SIZE : ℕ := 256

/-- `LANG_BLOCK_MAX_CNT` -/
abbrev LANG_BLOCK_MAX_CNT : ℕ := 150

instance : NeZero LANG_BLOCK_MAX_CNT := ⟨by decide⟩

/-- A block of the language pack. -/
abbrev LangBlock := Vector UInt8 LANG_BLOCK_SIZE

/-- What the handlers share: the flags and the language pack of `profile`, the static
`expected_blck_cnt`, `new_lng_file`, the variables and the colour records. -/
structure KursState where
  setParamEnabled : Bool
  saveParamEnabled : Bool
  mem : Mem
  adds : UInt32 → ParamsT2Add
  lngpack : Fin LANG_BLOCK_MAX_CNT → LangBlock
  expectedBlckCnt : UInt32
  newLngFile : Bool
  update : RemoteUpdate

/-- `KURS_profile_init`, in a memory that holds the default values. -/
def kursProfileInit (S : KursState) : KursState :=
  { S with setParamEnabled := false, lngpack := fun _ => Vector.replicate LANG_BLOCK_SIZE 0 }

/-- A request as `kurs_receive` publishes it: the payload may hold any byte but the
end-of-packet character, and `rest` is what follows in the buffer. -/
structure KursRequest where
  sop : UInt8
  payload : List UInt8
  noEop : KURS_EOP ∉ payload
  rest : List UInt8

/-- The request in its buffer. -/
def KursRequest.chars (q : KursRequest) : List UInt8 :=
  q.sop :: (q.payload ++ KURS_EOP :: 0 :: q.rest)

/-- A request with what its handler reads elsewhere: the ports, the ALS hardware, the
ticks, the processor's memory, the values of uninitialised variables and the arithmetic of
`float`. -/
structure KursCall where
  request : KursRequest
  readings : Readings
  alsSetMode : UInt32 → UInt32 → Bool
  ipglbRate : UInt32
  tmi : Vector UInt32 4
  atof : List UInt8 → UInt32
  floatCompareLt : UInt32 → UInt32 → Bool
  nticks : UInt32
  nticksBlock : UInt32
  memory : ℕ → UInt8

/-- The characters of the request. -/
def KursCall.strRx (c : KursCall) : List UInt8 := c.request.chars

/-- The number behind address and command. -/
def KursCall.number (c : KursCall) : Option UInt32 := strToU32Def (c.strRx.drop 2) 0xFFFFFFFF

/-- Address and command, which every reply starts with. -/
def KursCall.header (c : KursCall) : List UInt8 := c.strRx.take 2

/-- A reply without a checksum. -/
def KursCall.plain (c : KursCall) (text : List UInt8) : List UInt8 :=
  c.header ++ text ++ [KURS_EOP]

/-- A reply with the checksum of what stands in front of it. -/
def KursCall.checked (c : KursCall) (text : List UInt8) : List UInt8 :=
  let str := c.header ++ text
  str ++ unsigned (getCrc16Ascii str str.length).toNat ++ [KURS_EOP]

/-- A number as an `int`. -/
def asInt (n : UInt32) : ℤ := n.toInt32.toInt

/-! ### Reading -/

/-- `HandleKursRdDeviceClass` -/
def handleKursRdDeviceClass {L : Layout} (T : KursTables L) (S : KursState) (c : KursCall) :
    Option (KursState × List UInt8) :=
  some (S, c.plain T.class_)

/-- `HandleKursEnableSetParams` -/
def handleKursEnableSetParams (S : KursState) (c : KursCall) :
    Option (KursState × List UInt8) :=
  some ({ S with setParamEnabled := true }, c.plain (ascii "OK"))

/-- The line of the profile that a number asks for, its number of lines for 0. The index
is signed and is compared with the number of lines alone. -/
def lineText {L : Layout} (T : KursTables L) (lineIndex : ℤ) : Option (List UInt8) :=
  if lineIndex = 0 then
    some (integer lineIndex ++ SEMICOLON :: unsigned T.lineCount.toNat)
  else if lineIndex ≤ T.lineCount.toNat then
    if lineIndex < 0 then none
    else some (integer lineIndex ++ SEMICOLON :: T.text (lineIndex.toNat - 1))
  else some (ascii "0;NA")

/-- `HandleKursRdProfile` -/
def handleKursRdProfile {L : Layout} (T : KursTables L) (S : KursState) (c : KursCall) :
    Option (KursState × List UInt8) :=
  c.number.bind fun n =>
    (lineText T (asInt n)).map fun line => (S, c.checked (line ++ [SEMICOLON]))

/-- The section that a number names: 1 to 8, and 100 to 103. -/
def namedSection (n : ℤ) : Option (Fin PROFILE_SECTION_COUNT) :=
  if h : 1 ≤ n ∧ n ≤ NBRE_SECTIONS_LESS_THAN_100 then
    some ⟨n.toNat - 1, by
      simp only [NBRE_SECTIONS_LESS_THAN_100, PROFILE_SECTION_COUNT] at h ⊢
      omega⟩
  else if h : 100 ≤ n ∧ n ≤ 103 then
    some ⟨n.toNat - 100 + NBRE_SECTIONS_LESS_THAN_100, by
      simp only [NBRE_SECTIONS_LESS_THAN_100, PROFILE_SECTION_COUNT] at h ⊢
      omega⟩
  else none

/-- The section that is read for a number: the one it names, and `section_index` stays 0
for any other number. A negative number is no different from 0 for the code, which looks
for its section in front of the first one. -/
def KursSections.sectionIndex (T : KursSections) (n : ℤ) :
    Option (Fin PROFILE_SECTION_COUNT) :=
  if n < 0 then none
  else match namedSection n with
    | some i => some (if T.filled i then i else 0)
    | none => some 0

/-- A value of a section in print, with its colour where it has a record and colours are
asked for. -/
def showParam (L : Layout) (c : KursCall) (colored : Bool) (S : KursState)
    (p : SectionParam) : KursState × List UInt8 :=
  let m := refresh L c.readings p.toProfileParam S.mem
  let value := getStrParamValueItem p m
  match if colored then p.dAdd else none with
  | none => ({ S with mem := m }, SEMICOLON :: value)
  | some a =>
      let r := showColor c.floatCompareLt c.readings p.toProfileParam (S.adds a) m
      ({ S with mem := m, adds := fun b => if b = a then r.1 else S.adds b },
        SEMICOLON :: (value ++ r.2))

/-- The values of a section, one refresh after the other. -/
def showSection (L : Layout) (c : KursCall) (colored : Bool) :
    List SectionParam → KursState → KursState × List UInt8
  | [], S => (S, [])
  | p :: ps, S =>
      let r := showParam L c colored S p
      let rs := showSection L c colored ps r.1
      (rs.1, r.2 ++ rs.2)

/-- The commands that read a section differ in its colours. -/
def KURS_RD_PROFILE_PARAMS_WITH_COLORS : UInt8 := 0x77

/-- Colours are shown for section 2 alone. -/
def KursCall.colored (c : KursCall) (n : UInt32) : Bool :=
  c.strRx.getD 1 0 = KURS_RD_PROFILE_PARAMS_WITH_COLORS && n = 2

/-- The section in print. -/
def readSection {L : Layout} (T : KursTables L) (S : KursState) (c : KursCall) (n : UInt32)
    (i : Fin PROFILE_SECTION_COUNT) : KursState × List UInt8 :=
  if T.filled i then showSection L c (c.colored n) (T.params i) S else (S, ascii ";NA")

/-- The text of a section's reply up to its checksum. -/
def sectionText {L : Layout} (T : KursTables L) (S : KursState) (c : KursCall) (n : UInt32)
    (i : Fin PROFILE_SECTION_COUNT) : List UInt8 :=
  integer (asInt n) ++ ((readSection T S c n i).2 ++ [SEMICOLON])

/-- `HandleKursRdStrValueAndColor`: a request without a number is not answered. -/
def handleKursRdStrValueAndColor {L : Layout} (T : KursTables L) (S : KursState)
    (c : KursCall) : Option (KursState × List UInt8) :=
  c.number.bind fun n =>
    if n = 0xFFFFFFFF then some (S, [])
    else (T.sectionIndex (asInt n)).map fun i =>
      ((readSection T S c n i).1, c.checked (sectionText T S c n i))

/-! ### Setting -/

/-- The profile that `HandleKursSetParamValue` looks into. -/
def KursTables.profile {L : Layout} (T : KursTables L) (S : KursState) : Profile where
  parameters := fun i => (T.parameters i).map fun entries k => (entries k).toProfileParam
  sectionParamCount := T.sectionParamCount
  setParamEnabled := S.setParamEnabled

/-- The descriptor that a set request comes to. -/
def KursTables.addressed {L : Layout} (T : KursTables L) (strRx : List UInt8) :
    Option SectionParam :=
  (setFields strRx).bind fun F => (tableIndex F.table).bind fun i =>
    (T.parameters i).map fun entries => entries F.index

/-- What lies outside the handler of set requests. The value it prints is that of the
descriptor it has come to. -/
def KursTables.env {L : Layout} (T : KursTables L) (c : KursCall) : KursEnv where
  alsSetMode := c.alsSetMode
  ipglbRate := c.ipglbRate
  tmi := c.tmi
  atof := c.atof
  floatCompareLt := c.floatCompareLt
  usergetValue := kursUsergetValue L c.readings
  getStrParamValueItem := fun _ m =>
    ((T.addressed c.strRx).map fun p => getStrParamValueItem p m).getD []

/-- `HandleKursSetParamValue` among the other handlers. -/
def handleSetParam {L : Layout} (T : KursTables L) (S : KursState) (c : KursCall) :
    Option (KursState × List UInt8) :=
  (handleKursSetParamValue (T.env c) L (T.profile S) S.mem c.strRx).map fun o =>
    ({ S with mem := o.mem }, o.reply c.strRx)

/-! ### Colours -/

/-- What a colour request has read: table and item, and the two colours where it found no
error. -/
structure ColorFields where
  table : UInt16
  item : UInt16
  colors : Option (UInt16 × UInt16)

/-- The fields behind the number of the table. -/
def colorFieldsOf (table : UInt16) (strRx : List UInt8) : Option ColorFields :=
  (strchr SEMICOLON strRx).bind fun
    | none => some ⟨table, 0, none⟩
    | some i =>
        let item := strRx.drop (i + 1)
        (strToU16 item).bind fun
          | none => some ⟨table, 0, none⟩
          | some n => (strchr SEMICOLON item).bind fun
              | none => some ⟨table, n, none⟩
              | some j =>
                  let colo1 := item.drop (j + 1)
                  (strToU16 colo1).bind fun
                    | none => some ⟨table, n, none⟩
                    | some degrade => (strchr SEMICOLON colo1).bind fun
                        | none => some ⟨table, n, none⟩
                        | some k => (strToU16 (colo1.drop (k + 1))).map fun failure =>
                            ⟨table, n, failure.map fun failure => (degrade, failure)⟩

/-- The fields of a colour request: the number of the table is read in any case, the others
only up to the first error. -/
def colorFields (strRx : List UInt8) : Option ColorFields :=
  (crcMatches strRx).bind fun ok =>
    (strToU16 (strRx.drop 2)).bind fun
      | some table => if ok then colorFieldsOf table strRx else some ⟨table, 0, none⟩
      | none => some ⟨0, 0, none⟩

/-- A colour that may replace another: neither is `COLOR_NA`, and it is one of the
colours. -/
def newColor (old new : UInt16) : UInt16 :=
  if old ≠ COLOR_NA ∧ new ≠ COLOR_NA ∧ new ≤ COLOR_Critical then new else old

/-- The request sets colours: writing is enabled and the item is one of section 2. -/
def ColorFields.accepted {L : Layout} (T : KursTables L) (S : KursState) (F : ColorFields) :
    Bool :=
  S.setParamEnabled && F.table = 2 && F.item ≠ 0 && F.item ≤ T.sectionParamCount 1

/-- The parameter of section 2 that a colour request comes to. -/
def KursTables.colorParam {L : Layout} (T : KursTables L) (F : ColorFields) :
    Option SectionParam :=
  (T.parameters 1).map fun entries => entries (F.item.toNat - 1)

/-- The numbers in front of a colour reply. -/
def ColorFields.text (F : ColorFields) : List UInt8 :=
  unsigned F.table.toNat ++ SEMICOLON :: (unsigned F.item.toNat ++ [SEMICOLON])

/-- Setting the two colours of the record at `a`, and saving. -/
def setColors (L : Layout) (S : KursState) (a : UInt32) (colors : UInt16 × UInt16) :
    KursState :=
  let A := S.adds a
  let A' := { A with
    colorDegrade := newColor A.colorDegrade colors.1,
    colorFailure := newColor A.colorFailure colors.2 }
  { S with
    adds := fun b => if b = a then A' else S.adds b,
    mem := S.mem.store8 L.save 1 }

/-- `HandleKursSetColorDegradeAndFailure` -/
def handleKursSetColorDegradeAndFailure {L : Layout} (T : KursTables L) (S : KursState)
    (c : KursCall) : Option (KursState × List UInt8) :=
  (colorFields c.strRx).bind fun F =>
    let refused := some (S, c.checked (F.text ++ ascii "NA;"))
    match F.colors with
    | none => refused
    | some colors =>
        if F.accepted T S then
          (T.colorParam F).bind fun p => p.dAdd.map fun a =>
            let S' := setColors L S a colors
            (S', c.checked (F.text ++ unsigned (S'.adds a).colorDegrade.toNat ++
              SEMICOLON :: (unsigned (S'.adds a).colorFailure.toNat ++ [SEMICOLON])))
        else refused

/-- **A colour request that is answered** is refused, and changes nothing, or sets the colours of
the parameter that it comes to. -/
theorem setColors_cases {L : Layout} {T : KursTables L} {S S' : KursState} {c : KursCall}
    {r : List UInt8} (h : handleKursSetColorDegradeAndFailure T S c = some (S', r)) :
    ∃ F, colorFields c.strRx = some F ∧
      ((S' = S ∧ r = c.checked (F.text ++ ascii "NA;") ∧
          (F.colors.isSome = true → ¬ F.accepted T S = true)) ∨
        ∃ colors p a, F.colors = some colors ∧ F.accepted T S = true ∧
          T.colorParam F = some p ∧ p.dAdd = some a ∧ S' = setColors L S a colors ∧
          r = c.checked (F.text ++ unsigned (S'.adds a).colorDegrade.toNat ++
            SEMICOLON :: (unsigned (S'.adds a).colorFailure.toNat ++ [SEMICOLON]))) := by
  obtain ⟨F, hF, h⟩ := Option.bind_eq_some_iff.mp h
  refine ⟨F, hF, ?_⟩
  cases hcolors : F.colors with
  | none =>
      simp only [hcolors] at h
      obtain ⟨rfl, rfl⟩ := Prod.mk.inj (Option.some.inj h)
      exact .inl ⟨rfl, rfl, fun hsome => (by cases hsome)⟩
  | some colors =>
      simp only [hcolors] at h
      by_cases haccepted : F.accepted T S = true
      · rw [if_pos haccepted] at h
        obtain ⟨p, hp, h⟩ := Option.bind_eq_some_iff.mp h
        obtain ⟨a, ha, h⟩ := Option.map_eq_some_iff.mp h
        obtain ⟨rfl, rfl⟩ := Prod.mk.inj h
        exact .inr ⟨colors, p, a, rfl, haccepted, hp, ha, rfl, rfl⟩
      · rw [if_neg haccepted] at h
        obtain ⟨rfl, rfl⟩ := Prod.mk.inj (Option.some.inj h)
        exact .inl ⟨rfl, rfl, fun _ => haccepted⟩

/-- The two colours of a parameter in print. -/
def colorsText (S : KursState) (p : SectionParam) : List UInt8 :=
  match p.dAdd with
  | none => ascii ";0@0"
  | some a =>
      SEMICOLON :: (unsigned (S.adds a).colorDegrade.toNat ++
        0x40 :: unsigned (S.adds a).colorFailure.toNat)

/-- `HandleKursGetColorDegradeAndFailure` -/
def handleKursGetColorDegradeAndFailure {L : Layout} (T : KursTables L) (S : KursState)
    (c : KursCall) : Option (KursState × List UInt8) :=
  c.number.map fun table =>
    let colors := if table = 2 then (T.params 1).flatMap (colorsText S) else ascii ";NA"
    (S, c.checked (integer (asInt table) ++ (colors ++ [SEMICOLON])))

/-! ### The language pack -/

/-- The bytes of a block in a string. -/
def blockOf (blockData : List UInt8) : LangBlock := Vector.ofFn fun k => blockData.getD k 0

/-- Storing a block. Block 0 announces the number of the last one, at which the pack is
reported as complete, and the `memset` over the pack clears as many bytes as an `int`
has. -/
def writeBlock (S : KursState) (i : Fin LANG_BLOCK_MAX_CNT) (blockData : List UInt8) :
    Option KursState :=
  if i.val = 0 then
    (strToU32Def blockData 0xFFFFFFFF).map fun cnt =>
      let cleared : LangBlock := Vector.ofFn fun k =>
        if k.val < 4 then 0xFF else (S.lngpack 0).get k
      let pack := Function.update S.lngpack 0 cleared
      { S with expectedBlckCnt := cnt, lngpack := Function.update pack i (blockOf blockData) }
  else
    some { S with
      newLngFile := S.newLngFile || UInt32.ofNat i.val = S.expectedBlckCnt,
      lngpack := Function.update S.lngpack i (blockOf blockData) }

/-- `strlen` -/
def strlen (s : List UInt8) : Option ℕ := (strchr 0 s).join

/-- `HandleKursWriteLangPackCommand` -/
def handleKursWriteLangPackCommand (S : KursState) (c : KursCall) :
    Option (KursState × List UInt8) :=
  c.number.bind fun blockIndex =>
    (strchr SEMICOLON c.strRx).bind fun found =>
      let answer (text : String) := c.checked (integer (asInt blockIndex) ++ ascii text)
      match found with
      | some k =>
          if h : blockIndex.toNat < LANG_BLOCK_MAX_CNT ∧ S.setParamEnabled = true then
            let blockData := c.strRx.drop (k + 1)
            (strlen blockData).bind fun blockLength =>
              if blockLength = LANG_BLOCK_SIZE then
                (writeBlock S ⟨blockIndex.toNat, h.1⟩ blockData).map fun S' =>
                  (S', answer ";OK;")
              else some (S, answer ";NA;")
          else some (S, if blockIndex = 0xFFFFFFFF then c.checked (ascii "0;NA;")
            else answer ";NA;")
      | none => some (S, if blockIndex = 0xFFFFFFFF then c.checked (ascii "0;NA;")
          else answer ";NA;")

/-- A byte of the language pack in a reply. -/
def encodeByte (blockIndex : ℕ) (ch : UInt8) : UInt8 :=
  if blockIndex ≠ 0 ∧ ch = SEMICOLON then 0x02
  else if ch = KURS_EOP then 0x01
  else if ch = 0 then 0x03
  else ch

/-- `HandleKursReadLangPackCommand` -/
def handleKursReadLangPackCommand (S : KursState) (c : KursCall) :
    Option (KursState × List UInt8) :=
  c.number.map fun blockIndex =>
    let data := if h : blockIndex.toNat < LANG_BLOCK_MAX_CNT then
        (S.lngpack ⟨blockIndex.toNat, h⟩).toList.map (encodeByte blockIndex.toNat)
      else ascii "NA"
    (S, c.checked (unsigned blockIndex.toNat ++ SEMICOLON :: (data ++ [SEMICOLON])))

/-! ### Extended commands -/

/-- `OK;` or `NA;` for a flag. -/
def flagText (flag : Bool) : List UInt8 := if flag then ascii "OK;" else ascii "NA;"

/-- The number of a section whose parameters have changed. -/
def changedText (L : Layout) (S : KursState) (tableIndex : ℕ) : List UInt8 :=
  if S.mem (L.sectionParamChanged + UInt32.ofNat tableIndex) = 0 then []
  else unsigned (if tableIndex ≤ 7 then tableIndex + 1 else 91 + tableIndex + 1) ++ [SEMICOLON]

/-- `HandleKursExtendedRdDeviceClass` -/
def handleKursExtendedRdDeviceClass {L : Layout} (T : KursTables L) (S : KursState)
    (c : KursCall) : Option (KursState × List UInt8) :=
  some (S, c.checked (T.class_ ++ SEMICOLON :: (flagText S.setParamEnabled ++
    flagText S.saveParamEnabled ++
    (List.range PROFILE_SECTION_COUNT).flatMap (changedText L S))))

/-- `HandleKursExtendedEnableSetParams` -/
def handleKursExtendedEnableSetParams (S : KursState) (c : KursCall) :
    Option (KursState × List UInt8) :=
  some (S, c.checked (ascii "OK;"))

/-- The answer to a configuration command that names a block. -/
def blockText (c : KursCall) (name : String) : Option (List UInt8) :=
  (strToU32Def (c.strRx.drop 12) 0xFFFFFFFF).map fun n =>
    ascii "NA;" ++ ascii name ++ SEMICOLON :: (integer (asInt n) ++ [SEMICOLON])

/-- The answers to the configuration commands, which exclude each other. The comparison
with `WRITEBLOCK` takes in its terminator. -/
def configText (c : KursCall) : Option (List UInt8) :=
  let cmd := c.strRx.drop 2
  if startsWith "STARTREAD" cmd then some (ascii "OK;STARTREAD;0;")
  else if startsWith "READBLOCK" cmd then blockText c "READBLOCK"
  else if startsWith "FINISHREAD" cmd then some (ascii "NA;FINISHREAD;")
  else if startsWith "STARTWRITE" cmd then some (ascii "OK;STARTWRITE;0;")
  else if startsWith "WRITEBLOCK\x00" cmd then blockText c "WRITEBLOCK"
  else if startsWith "FINISHWRITE" cmd then some (ascii "NA;FINISHWRITE;1;")
  else some []

/-- `HandleKursExtendedConfigRdWr` -/
def handleKursExtendedConfigRdWr (S : KursState) (c : KursCall) :
    Option (KursState × List UInt8) :=
  (configText c).map fun text => (S, c.checked text)

/-! ### `KURS_HandleRequests` -/

/-- `HandleKursUnknownCommand` -/
def handleKursUnknownCommand (S : KursState) (c : KursCall) :
    Option (KursState × List UInt8) :=
  some (S, c.plain (ascii "NA"))

/-- The call of safe reprogramming. -/
def KursCall.update (c : KursCall) : UpdateCall where
  str_rx := c.strRx
  nticks := c.nticks
  nticksBlock := c.nticksBlock
  memory := c.memory

/-- The commands. -/
inductive KursCommand
  | rdDeviceClass
  | enSetParams
  | safeReprogramming
  | rdProfileLine
  | rdProfileParams
  | setProfileParams
  | setColorDegradeAndFailure
  | writeLanguagePack
  | readLanguagePack
  | getColorDegradeAndFailure
  | extendedDeviceClass
  | extendedEnSetParams
  | extendedConfigRdWr
  | unknown
  deriving DecidableEq, Repr

/-- The commands by their bytes. -/
def kursCommand (cmd : UInt8) : KursCommand :=
  match cmd.toNat with
  | 0x01 => .rdDeviceClass
  | 0x49 => .enSetParams
  | 0x0F => .safeReprogramming
  | 0x73 => .rdProfileLine
  | 0x71 | 0x77 => .rdProfileParams
  | 0x72 | 0x76 => .setProfileParams
  | 0x7C => .setColorDegradeAndFailure
  | 0x7A => .writeLanguagePack
  | 0x7B => .readLanguagePack
  | 0x7D => .getColorDegradeAndFailure
  | 0x61 => .extendedDeviceClass
  | 0x62 => .extendedEnSetParams
  | 0x63 => .extendedConfigRdWr
  | _ => .unknown

/-- The command of a request. -/
def KursCall.command (c : KursCall) : KursCommand := kursCommand (c.strRx.getD 1 0)

/-- `KURS_HandleRequests`: the state and the reply, empty where none is sent. -/
def kursHandleRequests (tps : UInt32) {L : Layout} (T : KursTables L) (S : KursState)
    (c : KursCall) : Option (KursState × List UInt8) :=
  match c.command with
  | .rdDeviceClass => handleKursRdDeviceClass T S c
  | .enSetParams => handleKursEnableSetParams S c
  | .safeReprogramming =>
      (handleKursSafeReprogramming tps S.update c.update).map fun r =>
        ({ S with update := r.1 }, r.2.reply)
  | .rdProfileLine => handleKursRdProfile T S c
  | .rdProfileParams => handleKursRdStrValueAndColor T S c
  | .setProfileParams => handleSetParam T S c
  | .setColorDegradeAndFailure => handleKursSetColorDegradeAndFailure T S c
  | .writeLanguagePack => handleKursWriteLangPackCommand S c
  | .readLanguagePack => handleKursReadLangPackCommand S c
  | .getColorDegradeAndFailure => handleKursGetColorDegradeAndFailure T S c
  | .extendedDeviceClass => handleKursExtendedRdDeviceClass T S c
  | .extendedEnSetParams => handleKursExtendedEnableSetParams S c
  | .extendedConfigRdWr => handleKursExtendedConfigRdWr S c
  | .unknown => handleKursUnknownCommand S c

/-- The requests as a machine. -/
def kursRequests (tps : UInt32) {L : Layout} (T : KursTables L) :
    Machine KursState KursCall (List UInt8) :=
  ⟨kursHandleRequests tps T⟩

end Muxponder
