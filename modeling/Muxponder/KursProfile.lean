import Muxponder.Lib.Memory
import Mathlib.Data.Int.Basic

/-!
# The KURS Profile

The parameters of the device as `kurs.h` describes them, the memory they stand in and the
application callback of `main.c` that sees a value before it is stored
(`KURS_userset_value`). All variables are in one memory, so a parameter may share its
bytes with a control that a callback writes.

## Main results

* `kursUsersetValue_refused`: a callback that refuses a value has written nothing.
-/

namespace Muxponder

open Memory

/-- The types `DC_*` of parameters. -/
inductive DataType
  | na | bool | s32 | u32 | float | hex | str | enum | oid | ip | inc | u64 | bitmsk
  deriving DecidableEq, Repr

/-- `PROFILE_SECTION_COUNT` -/
abbrev PROFILE_SECTION_COUNT : ℕ := 12

instance : NeZero PROFILE_SECTION_COUNT := ⟨by decide⟩

/-- `NBRE_SECTIONS_LESS_THAN_100` -/
abbrev NBRE_SECTIONS_LESS_THAN_100 : ℕ := 8

/-- `profile_param_t`: a parameter's descriptor, with the addresses of its value and of
its limits. -/
structure ProfileParam where
  paramId : UInt32
  userGet : Bool
  userSet : Bool
  type : DataType
  access : UInt16
  data : UInt32
  dSize : UInt16
  dMin : Option UInt32
  dMax : Option UInt32

/-- `KURS_ProfileTypeDef`: the sections and the flag that enables writing. A section is
what its pointer leads to, read as descriptors: those from 0 up to its count are its
parameters, the others are whatever else stands in memory there. -/
structure Profile where
  parameters : Fin PROFILE_SECTION_COUNT → Option (ℤ → ProfileParam)
  sectionParamCount : Fin PROFILE_SECTION_COUNT → UInt16
  setParamEnabled : Bool

/-- The section a table number names: sections 1 to 8 but for the read-only section 2,
then 100 to 103. -/
def tableIndex (table : UInt16) : Option (Fin PROFILE_SECTION_COUNT) :=
  if h : table ≠ 0 ∧ table ≠ 2 ∧ table.toNat ≤ NBRE_SECTIONS_LESS_THAN_100 then
    some ⟨table.toNat - 1, by
      simp only [NBRE_SECTIONS_LESS_THAN_100, PROFILE_SECTION_COUNT] at h ⊢
      omega⟩
  else if h : 100 ≤ table.toNat ∧ table.toNat ≤ 103 then
    some ⟨table.toNat - 100 + NBRE_SECTIONS_LESS_THAN_100, by
      simp only [NBRE_SECTIONS_LESS_THAN_100, PROFILE_SECTION_COUNT] at h ⊢
      omega⟩
  else none

/-- A section found by its number: `T_UK` at its first descriptor, and `T_COUNT`. -/
structure Table where
  index : Fin PROFILE_SECTION_COUNT
  entries : ℤ → ProfileParam
  count : UInt16

/-- The table of a number, where the section exists and has parameters. -/
def Profile.table (P : Profile) (table : UInt16) : Option Table :=
  (tableIndex table).bind fun i =>
    (P.parameters i).bind fun entries =>
      if 0 < P.sectionParamCount i then some ⟨i, entries, P.sectionParamCount i⟩ else none

/-! ### Controls of the interfaces -/

/-- The controls of an interface: `ipg_control32_t`. -/
inductive Control
  | serviceState | txDisable | loopbackMode | rate | resetCounters
  deriving DecidableEq, Repr

/-- Where the variables stand that the callback reads and writes: those of an interface by
their offset in `interface_t`. -/
structure Layout where
  interfaces : UInt32
  sizeofInterface : UInt32
  control : Control → UInt32
  transceiverState : UInt32
  capabilities : UInt32
  als : UInt32
  alsControl : UInt32
  thresholdMode : UInt32
  restore : UInt32
  save : UInt32
  sectionParamChanged : UInt32

/-- `INTERFACE_COUNT` -/
abbrev INTERFACE_COUNT : ℕ := 18

instance : NeZero INTERFACE_COUNT := ⟨by decide⟩

/-- A variable of `card.interfaces[i]`. -/
def Layout.ofInterface (L : Layout) (i off : UInt32) : UInt32 :=
  L.interfaces + i * L.sizeofInterface + off

/-- `next` of a control. -/
def Layout.next (L : Layout) (c : Control) (i : UInt32) : UInt32 :=
  L.ofInterface i (L.control c)

/-- `current` of a control. -/
def Layout.current (L : Layout) (c : Control) (i : UInt32) : UInt32 := L.next c i + 4

/-- `change` of a control. -/
def Layout.change (L : Layout) (c : Control) (i : UInt32) : UInt32 := L.next c i + 8

/-- A control is requested to change. -/
def Layout.request (L : Layout) (c : Control) (i v : UInt32) (m : Mem) : Mem :=
  (m.store32 (L.next c i) v).store32 (L.change c i) 1

/-- What lies outside the code: the answers of the ALS hardware, the values of
uninitialised variables, the arithmetic of `float`, the refresh of a value
(`KURS_userget_value`) and its text (`GetStrParamValueItem`). -/
structure KursEnv where
  alsSetMode : UInt32 → UInt32 → Bool
  ipglbRate : UInt32
  tmi : Vector UInt32 4
  atof : List UInt8 → UInt32
  floatCompareLt : UInt32 → UInt32 → Bool
  usergetValue : ProfileParam → Mem → Mem
  getStrParamValueItem : ProfileParam → Mem → List UInt8

/-! ### The application callback -/

/-- The identifiers of a setting that `KURS_userset_value` tells apart, each with the
index of its interface. -/
inductive UsersetCase
  | setState (i : UInt32)
  | enableTx (i : UInt32)
  | setLoopback (i : UInt32)
  | setDataType (i : UInt32)
  | setAlsMode (i : UInt32)
  | sfpThrsReset (i : UInt32)
  | reset
  | powerThreshold (i : UInt32)
  | resetAllCounters
  | resetCounters (i : UInt32)
  | default
  deriving DecidableEq, Repr

def ID_3_RESET : UInt32 := 0x01020000
def ID_3_CL1_SET_STATE : UInt32 := 0x01020001
def ID_3_CL1_ENABLE_TX : UInt32 := 0x01020013
def ID_3_CL1_SET_LOOPBACK : UInt32 := 0x01020025
def ID_3_LN1_SET_LOOPBACK : UInt32 := 0x01020035
def ID_3_LN2_SET_LOOPBACK : UInt32 := 0x01020036
def ID_3_CL1_SET_ALS_MODE : UInt32 := 0x01020037
def ID_3_CL1_SFP_THRS_RESET : UInt32 := 0x01020049
def ID_3_CL1_SET_DATA_TYPE : UInt32 := 0x01020088
def ID_3_CL2_SET_DATA_TYPE : UInt32 := 0x0102005B
def ID_3_RESET_ALL_COUNTERS : UInt32 := 0x0102006B
def ID_3_CL1_RESET_COUNTERS : UInt32 := 0x0102006C
def ID_4_CL1_POUT_CMIN : UInt32 := 0x01030004

/-- `LN_INDEX_START` and `LN_INDEX_END`: the interfaces of the two lines. -/
def LN_INDEX_START : UInt32 := 16

@[inherit_doc LN_INDEX_START]
def LN_INDEX_END : UInt32 := 17

/-- The case labels of `KURS_userset_value`. The identifiers of the interfaces are
consecutive, but for the data type of the first client, whose identifier is the base of
the index for all the others. -/
def usersetCase (id : UInt32) : UsersetCase :=
  if id - ID_3_CL1_SET_STATE < 18 then .setState (id - ID_3_CL1_SET_STATE)
  else if id - ID_3_CL1_ENABLE_TX < 18 then .enableTx (id - ID_3_CL1_ENABLE_TX)
  else if id - ID_3_CL1_SET_LOOPBACK < 16 then .setLoopback (id - ID_3_CL1_SET_LOOPBACK)
  else if id = ID_3_LN1_SET_LOOPBACK then .setLoopback LN_INDEX_START
  else if id = ID_3_LN2_SET_LOOPBACK then .setLoopback LN_INDEX_END
  else if id = ID_3_CL1_SET_DATA_TYPE ∨ id - ID_3_CL2_SET_DATA_TYPE < 15 then
    .setDataType (id - ID_3_CL1_SET_DATA_TYPE)
  else if id - ID_3_CL1_SET_ALS_MODE < 18 then .setAlsMode (id - ID_3_CL1_SET_ALS_MODE)
  else if id - ID_3_CL1_SFP_THRS_RESET < 18 then
    .sfpThrsReset (id - ID_3_CL1_SFP_THRS_RESET)
  else if id = ID_3_RESET then .reset
  -- eight blocks of input and output power thresholds, one identifier an interface
  else if id - ID_4_CL1_POUT_CMIN < 8 * 18 then
    .powerThreshold ((id - ID_4_CL1_POUT_CMIN) % 18)
  else if id = ID_3_RESET_ALL_COUNTERS then .resetAllCounters
  else if id - ID_3_CL1_RESET_COUNTERS < 18 then
    .resetCounters (id - ID_3_CL1_RESET_COUNTERS)
  else .default

/-- `map_rate_from_kurs_value`; another rate leaves its result uninitialised. -/
def mapRateFromKursValue (E : KursEnv) (kursRate : UInt32) : UInt32 :=
  match kursRate.toNat with
  | 128 => 0x09
  | 130 => 0x0A
  | 131 => 0x0B
  | 0 => 0x0F
  | 257 => 0x02
  | 256 => 0x01
  | 512 => 0x0D
  | 513 => 0x0E
  | _ => E.ipglbRate

/-- `TRANS_MONITOR(i).state.current != TRANSCEIVER_STATE_ABSENT`. -/
def transceiverPresent (L : Layout) (i : UInt32) (m : Mem) : Bool :=
  m.load32 (L.ofInterface i L.transceiverState) ≠ 0

/-- The switch of `KURS_userset_value`: whether the value is taken, and the memory. -/
def usersetSwitch (E : KursEnv) (L : Layout) (c : UsersetCase) (value : UInt32) (m : Mem) :
    Bool × Mem :=
  match c with
  | .setState i => (true, L.request .serviceState i (value &&& 3) m)
  | .enableTx i =>
      -- a port out of service keeps its transmitter off
      if transceiverPresent L i m ∧ m.load32 (L.current .serviceState i) ≠ 0 then
        (true, L.request .txDisable i (if value &&& 1 = 0 then 1 else 0) m)
      else (false, m)
  | .setLoopback i =>
      if transceiverPresent L i m then (true, L.request .loopbackMode i (value &&& 3) m)
      else (false, m)
  | .setDataType i =>
      if m.load32 (L.ofInterface i L.capabilities) &&& 4 ≠ 0 then
        (true, L.request .rate i (mapRateFromKursValue E (value &&& 0xFFF)) m)
      else (false, m)
  | .setAlsMode i =>
      if E.alsSetMode i (value &&& 3) then
        (true, m.store32 (m.load32 (L.ofInterface i L.als) + L.alsControl) (value &&& 3))
      else (false, m)
  | .sfpThrsReset i =>
      if value = 0 then
        if transceiverPresent L i m then
          (true, m.store32 (L.ofInterface i L.thresholdMode) 0)
        else (false, m)
      else (true, m)
  | .reset => (true, if value = 0 then m.store8 L.restore 1 else m)
  | .powerThreshold i => (true, m.store32 (L.ofInterface i L.thresholdMode) 1)
  | .resetAllCounters =>
      (true, (List.range INTERFACE_COUNT).foldl
        (fun m i => m.store32 (L.change .resetCounters (UInt32.ofNat i)) 1) m)
  | .resetCounters i => (true, m.store32 (L.change .resetCounters i) 1)
  | .default => (false, m)

/-- `KURS_userset_value`: a value that is taken also marks section 3 as changed. -/
def kursUsersetValue (E : KursEnv) (L : Layout) (t : ProfileParam) (value : UInt32)
    (m : Mem) : Bool × Mem :=
  if t.paramId = 0 then (true, m)
  else match usersetSwitch E L (usersetCase t.paramId) value m with
    | (true, m') =>
        if m' (L.sectionParamChanged + 2) = 0 then
          (true, m'.store8 (L.sectionParamChanged + 2) 1)
        else (true, m')
    | (false, m') => (false, m')

/-- `profile_userset_value` -/
def profileUsersetValue (E : KursEnv) (L : Layout) (t : ProfileParam) (value : UInt32)
    (m : Mem) : Bool × Mem :=
  if t.paramId = 0 ∧ t.userSet = false then (false, m) else kursUsersetValue E L t value m

variable {E : KursEnv} {L : Layout} {t : ProfileParam} {value : UInt32} {m : Mem}

/-- A guarded request that is refused has written nothing. -/
theorem guarded_refused {c : Prop} [Decidable c] {m' : Mem}
    (h : (if c then (true, m') else (false, m)).1 = false) :
    (if c then (true, m') else (false, m)).2 = m := by
  split at h
  · simp at h
  · next hcond => rw [if_neg hcond]

/-- A branch of the switch that refuses has written nothing. -/
theorem usersetSwitch_refused {c : UsersetCase} (h : (usersetSwitch E L c value m).1 = false) :
    (usersetSwitch E L c value m).2 = m := by
  cases c with
  | setState i => simp [usersetSwitch] at h
  | enableTx i =>
      exact guarded_refused h
  | setLoopback i =>
      exact guarded_refused h
  | setDataType i =>
      exact guarded_refused h
  | setAlsMode i =>
      exact guarded_refused h
  | sfpThrsReset i =>
      simp only [usersetSwitch] at h ⊢
      split at h
      · next hzero =>
          rw [if_pos hzero]
          exact guarded_refused h
      · simp at h
  | reset => simp [usersetSwitch] at h
  | powerThreshold i => simp [usersetSwitch] at h
  | resetAllCounters => simp [usersetSwitch] at h
  | resetCounters i => simp [usersetSwitch] at h
  | default => rfl

/-- **A callback that refuses a value has written nothing.** -/
theorem kursUsersetValue_refused (h : (kursUsersetValue E L t value m).1 = false) :
    (kursUsersetValue E L t value m).2 = m := by
  rw [kursUsersetValue] at h ⊢
  split at h
  · simp at h
  next hid =>
    rw [if_neg hid]
    split at h
    · split at h <;> simp at h
    · next m' hswitch =>
        have hm : (usersetSwitch E L (usersetCase t.paramId) value m).2 = m :=
          usersetSwitch_refused (by rw [hswitch])
        rwa [hswitch] at hm

/-- The same for the callback as the profile calls it. -/
theorem profileUsersetValue_refused (h : (profileUsersetValue E L t value m).1 = false) :
    (profileUsersetValue E L t value m).2 = m := by
  rw [profileUsersetValue] at h ⊢
  split at h
  · next hid => rw [if_pos hid]
  · next hid =>
      rw [if_neg hid]
      exact kursUsersetValue_refused h

end Muxponder
