import Muxponder.KursCard
import Muxponder.KursRequests

/-!
# The Sections of the Card

The tables of `kurs_sections.h`, row by row: sections 1 to 5, 8 and 103. Their rows are
written for an interface at a time, the two lines in front of the clients, and name the
variables that their descriptors point to. `KURS_APS` is defined (as 0) where the tables ask
whether it is, so the rows of the APS are among them.

## Main results

* `CardMemory.tables`: the profile that the handlers work on.
* `rows_scratch`, `rows_own`: which variable a parameter is printed from, with `user_get` and
  without.
-/

namespace Muxponder

open Memory

/-! ### Rows -/

/-- A row of a table: a descriptor with the names of its variables. A limit is a constant, and
`d_add` says whether there is a colour record. -/
structure Row where
  paramId : UInt32
  userGet : Bool
  userSet : Bool
  type : DataType
  access : UInt16
  data : CardVar
  dSize : UInt16
  dMin : Option CardField
  dMax : Option CardField
  dAdd : Bool
  format : Option Format
  formatFloat : format ≠ none → type = .float
  deriving DecidableEq

/-- A row without limits. -/
def plainRow (paramId : UInt32) (userGet userSet : Bool) (type : DataType) (access : UInt16)
    (data : CardVar) (dSize : UInt16) (dAdd : Bool) : Row :=
  ⟨paramId, userGet, userSet, type, access, data, dSize, none, none, dAdd, none, by simp⟩

/-- A row of a `float` that is shown to the tenth. -/
def floatRow (paramId : UInt32) (userGet userSet : Bool) (access : UInt16) (data : CardVar)
    (limits : Option (CardField × CardField)) (dAdd : Bool) : Row :=
  ⟨paramId, userGet, userSet, .float, access, data, 4, limits.map Prod.fst,
    limits.map Prod.snd, dAdd, some .tenths, fun _ => rfl⟩

/-- The index of a line among the lines. -/
def lineIndex (i : Fin INTERFACE_COUNT) : UInt32 := ifIndex i - LN_INDEX_START

/-! ### Section 1 -/

def ID_1_PID : UInt32 := 0x01000000
def ID_1_LN1_DESTINATION : UInt32 := 0x01000005
def ID_1_CL1_DESTINATION : UInt32 := 0x0100000D

/-- The rows of an interface in `section_1`, from the identifier of its destination on. -/
def section1Port (id : UInt32) (i : Fin INTERFACE_COUNT) : List Row :=
  [plainRow id false false .str 245 (.port .destination i) 33 false,
    plainRow (id + 1) false false .str 85 (.port .sfpVn i) 17 false,
    plainRow (id + 2) false false .str 85 (.port .sfpHn i) 17 false,
    plainRow (id + 3) false false .str 85 (.port .sfpSn i) 17 false]

/-- `section_1` -/
def section1 : List Row :=
  List.flatten
    [[plainRow ID_1_PID false false .str 213 (.card .pid) 65 false,
        plainRow (ID_1_PID + 1) false false .str 213 (.card .serialNumber) 17 false,
        plainRow (ID_1_PID + 2) false false .str 85 (.card .hwNumber) 65 false,
        plainRow (ID_1_PID + 3) false false .str 85 (.card .swNumber) 33 false,
        plainRow (ID_1_PID + 4) false false .str 85 (.card .fpgaSwNumber) 8 false],
      lines.flatMap fun i => section1Port (ID_1_LN1_DESTINATION + 4 * lineIndex i) i,
      clients.flatMap fun i => section1Port (ID_1_CL1_DESTINATION + 4 * ifIndex i) i]

/-! ### Section 2 -/

def ID_2_TIME : UInt32 := 0x01010000
def ID_2_LN1_PREFECBER : UInt32 := 0x01010032
def ID_2_LN1_POSTFECBER : UInt32 := 0x01010034
def ID_2_LN1_FEC_LOAD : UInt32 := 0x01010036
def ID_2_AGG_APS_REQUEST : UInt32 := 0x0101008E
def ID_2_AGG_APS_SIGNAL : UInt32 := 0x0101008F

/-- A value that is refreshed into `dummy_u32`. -/
def scratchRow (paramId : UInt32) (userSet : Bool) (type : DataType) (access : UInt16)
    (dAdd : Bool) : Row :=
  plainRow paramId true userSet type access (.card .dummyU32) 4 dAdd

/-- A value that is refreshed into `dummy_float`. -/
def scratchFloatRow (paramId : UInt32) : Row :=
  floatRow paramId true false 85 (.card .dummyFloat) none true

/-- The rows of a line in `section_2`. -/
def section2Line (i : Fin INTERFACE_COUNT) : List Row :=
  [scratchFloatRow (ID_2_CL1_PIN + ifIndex i), scratchFloatRow (ID_2_CL1_POUT + ifIndex i),
    scratchRow (ID_2_LN1_OTU_ALRMS + lineIndex i) false .bitmsk 85 true,
    plainRow (ID_2_LN1_ODU_ALRMS + lineIndex i) false false .bitmsk 85 (.port .oduxAlarms i) 4
      true,
    floatRow (ID_2_LN1_PREFECBER + lineIndex i) false false 85 (.port .prefecBer i) none true,
    floatRow (ID_2_LN1_POSTFECBER + lineIndex i) false false 85 (.port .postfecBer i) none true,
    floatRow (ID_2_LN1_FEC_LOAD + lineIndex i) false false 85 (.port .fecLoad i) none true,
    scratchRow (ID_2_CL1_SFP_STATE + ifIndex i) false .enum 85 true,
    floatRow (ID_2_CL1_SFP_TEMP + ifIndex i) false false 85 (.port .sfpTemperature i) none true,
    scratchRow (ID_2_CL1_ALS_STATE + ifIndex i) false .enum 85 false]

/-- The OTU alarms of a client: from the fifth one on they have identifiers of their own. -/
def otuAlarmsId (i : Fin INTERFACE_COUNT) : UInt32 :=
  if i.val < 4 then ID_2_CL1_OTU_ALRMS + ifIndex i else ID_2_CL5_OTU_ALRMS + (ifIndex i - 4)

/-- The rows of a client in `section_2`. -/
def section2Client (i : Fin INTERFACE_COUNT) : List Row :=
  [scratchFloatRow (ID_2_CL1_PIN + ifIndex i), scratchFloatRow (ID_2_CL1_POUT + ifIndex i),
    scratchRow (otuAlarmsId i) false .bitmsk 85 true,
    scratchRow (ID_2_CL1_SDH_ALRMS + ifIndex i) false .bitmsk 85 true,
    scratchRow (ID_2_CL1_ETH_ALRMS + ifIndex i) false .bitmsk 85 true,
    scratchRow (ID_2_CL1_SFP_STATE + ifIndex i) false .enum 85 true,
    scratchFloatRow (ID_2_CL1_SFP_TEMP + ifIndex i),
    scratchRow (ID_2_CL1_ALS_STATE + ifIndex i) false .enum 85 false]

/-- `section_2` -/
def section2 : List Row :=
  List.flatten
    [[plainRow ID_2_TIME false false .u32 85 (.card .sysUptime) 4 false,
        plainRow (ID_2_TIME + 1) false false .bool 85 (.card .alarm1) 4 true,
        plainRow (ID_2_TIME + 2) false false .bool 85 (.card .alarm2) 4 true,
        plainRow (ID_2_TIME + 3) false false .s32 80 (.card .blockColor) 4 false,
        plainRow (ID_2_TIME + 4) false false .enum 80 (.card .blockState) 4 false,
        floatRow (ID_2_TIME + 5) false false 85 (.card .temperature) none true,
        plainRow ID_2_AGG_APS_REQUEST false false .enum 85 (.card .apsRequest) 4 false,
        scratchRow ID_2_AGG_APS_SIGNAL false .enum 85 false],
      lines.flatMap section2Line,
      clients.flatMap section2Client]

/-! ### Section 3 -/

def ID_3_AGG_SET_APS_MODE : UInt32 := 0x0102007E
def ID_3_AGG_SET_APS_PROT_CHANNEL : UInt32 := 0x01020080
def ID_3_AGG_SET_APS_REVERSE_MODE : UInt32 := 0x01020082
def ID_3_AGG_SET_APS_WTR : UInt32 := 0x01020084
def ID_3_AGG_SET_APS_HO : UInt32 := 0x01020086

/-- A setting of four bytes. -/
def settingRow (paramId : UInt32) (type : DataType) (access : UInt16) (data : CardVar) : Row :=
  plainRow paramId false true type access data 4 false

/-- The data type of a client. -/
def dataTypeId (i : Fin INTERFACE_COUNT) : UInt32 :=
  if i.val = 0 then ID_3_CL1_SET_DATA_TYPE else ID_3_CL2_SET_DATA_TYPE + (ifIndex i - 1)

/-- The rows of a line in `section_3`. -/
def section3Line (i : Fin INTERFACE_COUNT) : List Row :=
  [settingRow (ID_3_CL1_SET_STATE + ifIndex i) .enum 245 (.control .serviceState .current i),
    scratchRow (ID_3_CL1_ENABLE_TX + ifIndex i) true .enum 245 false,
    settingRow (ID_3_LN1_SET_LOOPBACK + lineIndex i) .enum 245
      (.control .loopbackMode .current i),
    scratchRow (ID_3_CL1_SET_ALS_MODE + ifIndex i) true .enum 245 false,
    settingRow (ID_3_CL1_SFP_THRS_RESET + ifIndex i) .enum 245 (.port .thresholdModeReset i),
    settingRow (ID_3_CL1_RESET_COUNTERS + ifIndex i) .enum 213
      (.control .resetCounters .current i)]

/-- The rows of a client in `section_3`. -/
def section3Client (i : Fin INTERFACE_COUNT) : List Row :=
  [settingRow (ID_3_CL1_SET_STATE + ifIndex i) .enum 245 (.control .serviceState .current i),
    scratchRow (ID_3_CL1_ENABLE_TX + ifIndex i) true .enum 245 false,
    settingRow (ID_3_CL1_SET_LOOPBACK + ifIndex i) .enum 245 (.control .loopbackMode .current i),
    scratchRow (dataTypeId i) true .enum 245 false,
    scratchRow (ID_3_CL1_SET_ALS_MODE + ifIndex i) true .enum 245 false,
    settingRow (ID_3_CL1_SFP_THRS_RESET + ifIndex i) .enum 245 (.port .thresholdModeReset i),
    settingRow (ID_3_CL1_RESET_COUNTERS + ifIndex i) .enum 213
      (.control .resetCounters .current i)]

/-- `section_3` -/
def section3 : List Row :=
  List.flatten
    [[settingRow ID_3_RESET .enum 213 (.card .resetSettings),
        settingRow ID_3_RESET_ALL_COUNTERS .enum 213 (.card .resetCounters),
        settingRow ID_3_AGG_SET_APS_MODE .enum 245 (.card .apsMode),
        scratchRow ID_3_AGG_SET_APS_PROT_CHANNEL true .enum 245 false,
        scratchRow ID_3_AGG_SET_APS_REVERSE_MODE true .enum 245 false,
        settingRow ID_3_AGG_SET_APS_WTR .u32 245 (.card .wtrTimer),
        settingRow ID_3_AGG_SET_APS_HO .u32 245 (.card .holdoffTimer)],
      lines.flatMap section3Line,
      clients.flatMap section3Client]

/-! ### Section 4 -/

def ID_4_BLOCK_TEMP_CMin : UInt32 := 0x01030000
def ID_4_CL1_PIN_CMIN : UInt32 := 0x0103004C
def ID_4_LN1_FEC_LOAD_CMIN : UInt32 := 0x01030094
def ID_4_CL1_SFP_TEMP_CMIN : UInt32 := 0x0103009C
def ID_4_CL5_SFP_TEMP_CMIN : UInt32 := 0x01030100
def ID_4_CL1_SFP_TEMP_WMIN : UInt32 := 0x0103010E
def ID_4_CL1_SFP_TEMP_WMAX : UInt32 := 0x01030120
def ID_4_CL1_SFP_TEMP_CMAX : UInt32 := 0x01030132

/-- A limit that is set within two others. -/
def limitRow (paramId : UInt32) (userSet : Bool) (data : CardVar) (min max : CardField) : Row :=
  floatRow paramId false userSet 245 data (some (min, max)) false

/-- A number for each limit, in the order of the rows. -/
def Limit.row : Limit → UInt32
  | .criticalMin => 0
  | .warningMin => 1
  | .warningMax => 2
  | .criticalMax => 3

/-- The limits of a power, with 18 identifiers each. -/
def powerRows (id : UInt32) (f : Limit → PortField) (i : Fin INTERFACE_COUNT) : List Row :=
  limits.map fun l =>
    limitRow (id + 18 * l.row + ifIndex i) true (.port (f l) i) .minMax40n .minMax99

/-- The limits of the temperature of a transceiver. From the fifth client on the lower
critical ones have identifiers of their own. -/
def sfpTemperatureId (l : Limit) (i : Fin INTERFACE_COUNT) : UInt32 :=
  match l with
  | .criticalMin =>
      if i.val < 4 then ID_4_CL1_SFP_TEMP_CMIN + ifIndex i
      else ID_4_CL5_SFP_TEMP_CMIN + (ifIndex i - 4)
  | .warningMin => ID_4_CL1_SFP_TEMP_WMIN + ifIndex i
  | .warningMax => ID_4_CL1_SFP_TEMP_WMAX + ifIndex i
  | .criticalMax => ID_4_CL1_SFP_TEMP_CMAX + ifIndex i

@[inherit_doc sfpTemperatureId]
def sfpTemperatureRows (i : Fin INTERFACE_COUNT) : List Row :=
  limits.map fun l => limitRow (sfpTemperatureId l i) false (.port (.sfpTemperatureLimit l) i)
    .minMax40n .minMax99

/-- The rows of a line in `section_4`. -/
def section4Line (i : Fin INTERFACE_COUNT) : List Row :=
  List.flatten
    [powerRows ID_4_CL1_POUT_CMIN .pout i, powerRows ID_4_CL1_PIN_CMIN .pin i,
      limits.map fun l => limitRow (ID_4_LN1_FEC_LOAD_CMIN + 2 * l.row + lineIndex i) false
        (.port (.fecLoadLimit l) i) .minMax0 .minMax100,
      sfpTemperatureRows i]

/-- The rows of a client in `section_4`; those of the first three have the output power in
front. -/
def section4Client (i : Fin INTERFACE_COUNT) : List Row :=
  List.flatten
    [if i.val < 3 then
        powerRows ID_4_CL1_POUT_CMIN .pout i ++ powerRows ID_4_CL1_PIN_CMIN .pin i
      else powerRows ID_4_CL1_PIN_CMIN .pin i ++ powerRows ID_4_CL1_POUT_CMIN .pout i,
      sfpTemperatureRows i]

/-- `section_4` -/
def section4 : List Row :=
  List.flatten
    [limits.map fun l => limitRow (ID_4_BLOCK_TEMP_CMin + l.row) false
        (.card (.temperatureLimit l)) .minMax40n .minMax99,
      lines.flatMap section4Line,
      clients.flatMap section4Client]

/-! ### Sections 5, 8 and 103 -/

def ID_5_LED_PWR : UInt32 := 0x01040000
def ID_5_LED_LN1_TX : UInt32 := 0x01040002
def ID_5_LED_CL1_TX : UInt32 := 0x01040006

/-- The lights of an interface. -/
def ledRows (tx rx : UInt32) (i : Fin INTERFACE_COUNT) : List Row :=
  [plainRow tx false false .u32 85 (.port .ledTx i) 4 false,
    plainRow rx false false .u32 85 (.port .ledRx i) 4 false]

/-- `section_5`. From the second client on both lights have the identifier of the first. -/
def section5 : List Row :=
  List.flatten
    [[plainRow ID_5_LED_PWR false false .u32 85 (.card .powerLed) 4 false,
        plainRow (ID_5_LED_PWR + 1) false false .u32 85 (.card .statusLed) 4 false],
      lines.flatMap fun i => ledRows (ID_5_LED_LN1_TX + 2 * lineIndex i)
        (ID_5_LED_LN1_TX + 2 * lineIndex i + 1) i,
      clients.flatMap fun i => ledRows (ID_5_LED_CL1_TX + 2 * ifIndex i)
        (if i.val = 0 then ID_5_LED_CL1_TX + 1 else ID_5_LED_CL1_TX + 2 * ifIndex i) i]

/-- A counter of `section_8`, in one or two words. -/
def counterRow (paramId : UInt32) (double : Bool) : Row :=
  if double then plainRow paramId true false .u64 85 (.card .dummyU64) 8 false
  else scratchRow paramId false .u32 85 false

/-- The OTU counters of an interface. -/
def otuRows (i : Fin INTERFACE_COUNT) : List Row :=
  [counterRow (ID_8_CL_1_OTU_ES + ifIndex i) false,
    counterRow (ID_8_CL_1_OTU_SES + ifIndex i) false,
    counterRow (ID_8_CL_1_OTU_BBE + ifIndex i) true,
    counterRow (ID_8_CL_1_OTU_UAS + ifIndex i) false]

/-- The octets that a client has received: from the eighth one on they have identifiers of
their own. -/
def rxOctsId (i : Fin INTERFACE_COUNT) : UInt32 :=
  if i.val < 7 then ID_8_CL_1_ETH_RX_OCTS + ifIndex i
  else ID_8_CL_8_ETH_RX_OCTS + (ifIndex i - 7)

/-- The rows of a client in `section_8`. -/
def section8Client (i : Fin INTERFACE_COUNT) : List Row :=
  List.flatten
    [otuRows i,
      [counterRow (ID_8_CL_1_SDH_ES + ifIndex i) false,
        counterRow (ID_8_CL_1_SDH_SES + ifIndex i) false,
        counterRow (ID_8_CL_1_SDH_BBE + ifIndex i) true,
        counterRow (ID_8_CL_1_SDH_UAS + ifIndex i) false,
        counterRow (ID_8_CL_1_ETH_RX_PKTS + ifIndex i) true, counterRow (rxOctsId i) true,
        counterRow (ID_8_CL_1_ETH_RX_ERRS + ifIndex i) true,
        counterRow (ID_8_CL_1_ETH_TX_PKTS + ifIndex i) true,
        counterRow (ID_8_CL_1_ETH_TX_OCTS + ifIndex i) true]]

/-- `section_8` -/
def section8Rows : List Row := lines.flatMap otuRows ++ clients.flatMap section8Client

def ID_103_PORT_LN1_IN_INFO : UInt32 := 0x010A0000
def ID_103_PORT_CL_1_IN_INFO : UInt32 := 0x010A0004

/-- The text and the category of a port. -/
def section103Port (id : UInt32) (i : Fin INTERFACE_COUNT) : List Row :=
  [plainRow id false false .str 245 (.port .inInfo i) 33 false,
    ⟨id + 1, false, false, .u32, 245, .port .inCat i, 4, none, some .u32MinMax99, false, none,
      by simp⟩]

/-- `section_103` -/
def section103 : List Row :=
  (lines.flatMap fun i => section103Port (ID_103_PORT_LN1_IN_INFO + 2 * lineIndex i) i) ++
    clients.flatMap fun i => section103Port (ID_103_PORT_CL_1_IN_INFO + 2 * ifIndex i) i

/-- The rows of a section, none where its pointer is `NULL`. -/
def cardRows (i : Fin PROFILE_SECTION_COUNT) : List Row :=
  match i.val with
  | 0 => section1
  | 1 => section2
  | 2 => section3
  | 3 => section4
  | 4 => section5
  | 7 => section8Rows
  | 11 => section103
  | _ => []

/-- How many rows the sections have. -/
example : (List.finRange PROFILE_SECTION_COUNT).map (fun i => (cardRows i).length) =
    [77, 156, 131, 228, 38, 0, 0, 216, 0, 0, 0, 36] := by
  decide +kernel

/-! ### The profile -/

section Profile

variable {L : Layout} {C : CardMemory L} {i : Fin PROFILE_SECTION_COUNT} {r : Row}

/-- The descriptor of a row. -/
def CardMemory.param (C : CardMemory L) (r : Row) : SectionParam where
  paramId := r.paramId
  userGet := r.userGet
  userSet := r.userSet
  type := r.type
  access := r.access
  data := C.addr r.data
  dSize := r.dSize
  dMin := r.dMin.map fun f => C.addr (.card f)
  dMax := r.dMax.map fun f => C.addr (.card f)
  dAdd := if r.dAdd then some (C.colorRecord r.paramId) else none
  format := r.format
  formatFloat := r.formatFloat

/-- The sections of the card, with whatever stands in memory before and behind their rows. -/
def CardMemory.sections (C : CardMemory L)
    (beyond : Fin PROFILE_SECTION_COUNT → ℤ → SectionParam) : KursSections where
  parameters := fun i =>
    if cardRows i = [] then none
    else some fun k =>
      if 0 ≤ k then ((cardRows i)[k.toNat]?.map C.param).getD (beyond i k) else beyond i k
  sectionParamCount := fun i => UInt16.ofNat (cardRows i).length

/-- The number of rows of a section fits its counter. -/
theorem cardRows_length_lt (i : Fin PROFILE_SECTION_COUNT) : (cardRows i).length < 2 ^ 16 := by
  revert i
  decide +kernel

/-- The parameters of a section are its rows. -/
theorem sections_params {beyond : Fin PROFILE_SECTION_COUNT → ℤ → SectionParam} :
    (C.sections beyond).params i = (cardRows i).map C.param := by
  have hlen : (UInt16.ofNat (cardRows i).length).toNat = (cardRows i).length :=
    UInt16.toNat_ofNat_of_lt' (cardRows_length_lt i)
  by_cases hnil : cardRows i = []
  · simp [KursSections.params, CardMemory.sections, hnil]
  · simp only [KursSections.params, CardMemory.sections, if_neg hnil, hlen]
    refine List.ext_getElem (by simp) fun k hk hk' => ?_
    simp only [List.length_map] at hk'
    simp [hk']

/-- The rows that a scratch variable is printed for. -/
def scratch : List CardField := [.dummyU32, .dummyU64, .dummyFloat]

/-- The number of bytes that `GetStrParamValueItem` may read. -/
def Row.shown (r : Row) : ℕ :=
  match r.type with
  | .u64 => 8
  | .str | .oid => r.dSize.toNat - 1
  | _ => 4

/-- The rows of the APS that `KURS_userget_value` has no case for. -/
def apsIds : List UInt32 :=
  [ID_2_AGG_APS_SIGNAL, ID_3_AGG_SET_APS_PROT_CHANNEL, ID_3_AGG_SET_APS_REVERSE_MODE]

/-- **A parameter with `user_get` is printed from a scratch variable**, which its case fills
unless it is one of the APS. -/
theorem rows_scratch (i : Fin PROFILE_SECTION_COUNT) : ∀ r ∈ cardRows i, r.userGet = true →
    r.paramId ≠ 0 ∧ (∃ f ∈ scratch, r.data = .card f) ∧ r.shown = r.data.size.toNat ∧
      (usergetCase r.paramId).width = if r.paramId ∈ apsIds then 0 else r.data.size.toNat := by
  revert i
  decide +kernel

/-- A text is shown up to the last byte of its variable, and none is longer than that of
`pid`. -/
theorem rows_text (i : Fin PROFILE_SECTION_COUNT) : ∀ r ∈ cardRows i,
    r.type = .str ∨ r.type = .oid → 0 < r.dSize.toNat ∧ r.dSize.toNat ≤ PID_LEN := by
  revert i
  decide +kernel

/-- The scratch variables have the sizes of their types. -/
theorem refreshed_scratch (hr : r ∈ cardRows i) (huser : r.userGet = true) {a : UInt32}
    (ha : Refreshed (C.param r).toProfileParam a) :
    ∃ f ∈ scratch, r.data = .card f ∧ (C.toPlacement.region (.card f)).Contains a := by
  obtain ⟨-, ⟨f, hf, hdata⟩, -, hwidth⟩ := rows_scratch i r hr huser
  have hlt : (a - C.addr r.data).toNat < (usergetCase r.paramId).width := ha
  refine ⟨f, hf, hdata, ?_⟩
  rw [hwidth, hdata] at hlt
  rw [Placement.region, Region.Contains]
  split at hlt
  · omega
  · exact hlt

/-- The profile of the card: its sections, and the texts of its class and of its lines. -/
def CardMemory.tables (C : CardMemory L) (beyond : Fin PROFILE_SECTION_COUNT → ℤ → SectionParam)
    (class_ : List UInt8) (text : ℕ → List UInt8) (lineCount : UInt16)
    (classFits : class_.length < 8)
    (textFits : ∀ k < lineCount.toNat, (text k).length ≤ PROFILE_LINE_LENGTH) :
    KursTables L where
  toKursSections := C.sections beyond
  class_ := class_
  text := text
  lineCount := lineCount
  dummyU32 := C.addr (.card .dummyU32)
  dummyU64 := C.addr (.card .dummyU64)
  dummyFloat := C.addr (.card .dummyFloat)
  classFits := classFits
  textFits := textFits
  stringFits := by
    intro i p hp htype
    rw [sections_params] at hp
    obtain ⟨r, hr, rfl⟩ := List.mem_map.mp hp
    exact rows_text i r hr htype
  section2Fits := by
    rw [sections_params, List.length_map]
    decide +kernel
  refreshesScratch := by
    intro i p hp huser a ha
    rw [sections_params] at hp
    obtain ⟨r, hr, rfl⟩ := List.mem_map.mp hp
    obtain ⟨f, hf, -, hin⟩ := refreshed_scratch hr huser ha
    simp only [scratch, List.mem_cons, List.not_mem_nil, or_false] at hf
    rcases hf with rfl | rfl | rfl
    · exact Or.inl hin
    · exact Or.inr (Or.inl hin)
    · exact Or.inr (Or.inr hin)
  saveApart := by
    have hsave : (C.toPlacement.region (.card .save)).Contains L.save := by
      rw [← C.save_eq]
      exact Region.contains_value (show 0 < (CardVar.card .save).size.toNat by decide)
    have hapart : ∀ f ∈ scratch, ¬ (C.toPlacement.region (.card f)).Contains L.save := by
      intro f hf
      refine C.apart (.card .save) (.card f) ?_ _ hsave
      rintro ⟨⟩
      simp [scratch] at hf
    rintro (hin | hin | hin)
    · exact hapart .dummyU32 (by decide) hin
    · exact hapart .dummyU64 (by decide) hin
    · exact hapart .dummyFloat (by decide) hin

end Profile

end Muxponder
