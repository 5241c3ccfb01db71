import Muxponder.KursRefresh

/-!
# Colours

The colours of section 2: the record `params_t2_add_t` beside a parameter, the threshold
test `TestProg` of `kurs_core.c`, and `KURS_userget_color` of `main.c`, which colours by the
state of the ports. Both store the colour they come to in the record.

## Main results

* `testProg_evaluates`, `userGetColor_evaluates`: a colour is computed into `COLOR` and
  `status`, and nothing else of its record changes.
-/

namespace Muxponder

open Memory Printf CString

def COLOR_NA : UInt16 := 0
def COLOR_NO : UInt16 := 1
def COLOR_Normal : UInt16 := 3
def COLOR_Minor : UInt16 := 5
def COLOR_Critical : UInt16 := 7
def COLOR_TIP_POROG : UInt8 := 8
def COLOR_TIP_GET : UInt8 := 9

/-- `STATUS_*` -/
inductive Status
  | cMax | wMax | norm | wMin | cMin
  deriving DecidableEq, Repr

/-- `params_t2_add_t`, with the addresses of the thresholds that version 5 of the profile
compares with. -/
structure ParamsT2Add where
  color : UInt16
  colorDegrade : UInt16
  colorFailure : UInt16
  colorTip : UInt8
  cMax : Option UInt32
  wMax : Option UInt32
  wMin : Option UInt32
  cMin : Option UInt32
  status : Status
  monitorOn : UInt32

/-- A colour as a `char`. -/
def toChar (color : UInt16) : Int8 := color.toUInt8.toInt8

/-- A `char` as a colour. -/
def ofChar (color : Int8) : UInt16 := color.toInt16.toUInt16

/-! ### `KURS_userget_color` -/

/-- The identifiers that `KURS_userget_color` tells apart. -/
inductive UsergetColorCase
  | diagnostic (d : Diagnostic) (i : UInt32)
  | sfpState
  | alarms (a : PortAlarms) (i : UInt32)
  | default
  deriving DecidableEq, Repr

/-- The alarms of the lines have the index of the first line for their base. -/
def usergetColorCase (id : UInt32) : UsergetColorCase :=
  if isAmong id ID_2_CL1_SFP_TEMP 16 then .diagnostic .temperature (id - ID_2_CL1_SFP_TEMP)
  else if isAmong id ID_2_CL1_SFP_STATE 18 then .sfpState
  else if isAmong id ID_2_CL1_OTU_ALRMS 4 ∨ isAmong id ID_2_CL5_OTU_ALRMS 12 ∨
      isAmong id ID_2_LN1_OTU_ALRMS 2 then
    .alarms .otu (id - ID_2_CL1_OTU_ALRMS)
  else if isAmong id ID_2_LN1_ODU_ALRMS 2 then
    .alarms .odu (id - ID_2_LN1_ODU_ALRMS + LN_INDEX_START)
  else if isAmong id ID_2_CL1_SDH_ALRMS 16 then .alarms .sdh (id - ID_2_CL1_SDH_ALRMS)
  else if isAmong id ID_2_CL1_ETH_ALRMS 16 then .alarms .eth (id - ID_2_CL1_ETH_ALRMS)
  else if isAmong id ID_2_CL1_PIN 18 then .diagnostic .pin (id - ID_2_CL1_PIN)
  else if isAmong id ID_2_CL1_POUT 18 then .diagnostic .pout (id - ID_2_CL1_POUT)
  else .default

/-- The protocol under which alarms are coloured. -/
def PortAlarms.prot : PortAlarms → UInt32
  | .otu | .odu => PORT_PROTOCOL_OTU
  | .sdh => PORT_PROTOCOL_SDH
  | .eth => PORT_PROTOCOL_ETHERNET

/-- A value above the upper or below the lower one of two limits. -/
def Readings.outside (R : Readings) (f high low : UInt32) : Bool :=
  R.floatCompareLt high f || R.floatCompareLt f low

/-- The colour of a quantity: none for a port that does not measure it or is not in
service. -/
def diagnosticColor (R : Readings) (A : ParamsT2Add) (d : Diagnostic) (i f : UInt32) :
    UInt16 :=
  let lim := R.limits d i
  if R.monitored d i = false then COLOR_NO
  else if R.monitor i = 0 then COLOR_NO
  else if R.outside f lim.criticalMax lim.criticalMin then A.colorFailure
  else if R.outside f lim.warningMax lim.warningMin then A.colorDegrade
  else COLOR_Normal

/-- The colour of alarms: none for a port that is not in service or has another
protocol. -/
def alarmColor (R : Readings) (A : ParamsT2Add) (a : PortAlarms) (i : UInt32) : UInt16 :=
  if R.monitor i ≠ 0 ∧ R.prot i = a.prot then
    if R.alarms a i ≠ 0 then A.colorFailure else COLOR_Normal
  else COLOR_NO

/-- The colour of a transceiver's state; in a state the switch does not know the colour
stays. -/
def stateColor (A : ParamsT2Add) (state : UInt32) : UInt16 :=
  if state = 0 then A.colorFailure
  else if state = 1 then COLOR_Normal
  else if state = 2 ∨ state = 3 then COLOR_Minor
  else A.color

/-- `KURS_userget_color` for a parameter that is monitored: the colour it stores. -/
def kursUsergetColor (R : Readings) (param : ProfileParam) (A : ParamsT2Add) (m : Mem) :
    UInt16 :=
  match usergetColorCase param.paramId with
  | .diagnostic d i => diagnosticColor R A d i (m.load32 param.data)
  | .sfpState => stateColor A (m.load32 param.data)
  | .alarms a i => alarmColor R A a i
  | .default => A.color

/-- `user_get_color`: the record and the colour, which comes back as a `char` unless
monitoring is off. -/
def userGetColor (R : Readings) (param : ProfileParam) (A : ParamsT2Add) (m : Mem) :
    ParamsT2Add × UInt16 :=
  if m.load32 A.monitorOn = 0 then ({ A with color := COLOR_NO }, COLOR_NO)
  else
    let color := kursUsergetColor R param A m
    ({ A with color := color }, ofChar (toChar color))

/-! ### `TestProg` -/

/-- A threshold there is and that the value meets. -/
def meets (limit : Option UInt32) (m : Mem) (c : UInt32 → Bool) : Bool :=
  limit.any fun a => c (m.load32 a)

/-- The status of a number: the first of the thresholds it meets, from above (`ge`) or
from below (`le`). -/
def thresholdStatus (A : ParamsT2Add) (m : Mem) (ge le : UInt32 → Bool) : Status :=
  if meets A.cMax m ge then .cMax
  else if meets A.cMin m le then .cMin
  else if meets A.wMax m ge then .wMax
  else if meets A.wMin m le then .wMin
  else .norm

/-- The status that `TestProg` finds, by type. A `DC_BOOL` has a colour for one of the two
statuses; `lt` is `float_compare_lt`. -/
def testStatus (lt : UInt32 → UInt32 → Bool) (param : ProfileParam) (A : ParamsT2Add)
    (m : Mem) : Status :=
  let data := m.load32 param.data
  match param.type with
  | .bool =>
      if data = 0 then .norm
      else if A.colorDegrade ≠ COLOR_NA then .wMax
      else if A.colorFailure ≠ COLOR_NA then .cMax
      else .norm
  | .u32 | .hex | .inc => thresholdStatus A m (fun lim => lim ≤ data) (fun lim => data ≤ lim)
  | .s32 =>
      thresholdStatus A m (fun lim => lim.toInt32 ≤ data.toInt32)
        (fun lim => data.toInt32 ≤ lim.toInt32)
  | .float => thresholdStatus A m (fun lim => lt lim data) (fun lim => lt data lim)
  | _ => .norm

/-- The colour of a status, a `char`. -/
def statusColor (A : ParamsT2Add) : Status → Int8
  | .cMax | .cMin => toChar A.colorFailure
  | .wMax | .wMin => toChar A.colorDegrade
  | .norm => toChar COLOR_Normal

/-- `TestProg`: the record and the colour. -/
def testProg (lt : UInt32 → UInt32 → Bool) (R : Readings) (param : ProfileParam)
    (A : ParamsT2Add) (m : Mem) : ParamsT2Add × Int8 :=
  if m.load32 A.monitorOn = 0 then ({ A with color := COLOR_NO }, toChar COLOR_NO)
  else if A.colorTip = COLOR_TIP_GET then
    let A := (userGetColor R param A m).1
    (A, toChar A.color)
  else if A.color = COLOR_NA then (A, toChar COLOR_NA)
  else
    let status := testStatus lt param A m
    let color := statusColor A status
    ({ A with color := ofChar color, status := status }, color)

/-! ### The colour of a reply -/

/-- The colour behind a value: `@` and a number, nothing where the record has no colour. -/
def showColor (lt : UInt32 → UInt32 → Bool) (R : Readings) (param : ProfileParam)
    (A : ParamsT2Add) (m : Mem) : ParamsT2Add × List UInt8 :=
  if A.color = COLOR_NA then (A, [])
  else if A.colorTip = COLOR_TIP_POROG then
    let r := testProg lt R param A m
    (r.1, 0x40 :: integer r.2.toInt)
  else if A.colorTip = COLOR_TIP_GET then
    let r := userGetColor R param A m
    (r.1, 0x40 :: unsigned r.2.toNat)
  else (A, 0x40 :: unsigned A.color.toNat)

/-- The number behind the `@`, `none` where the record has no colour. -/
def shownColor (lt : UInt32 → UInt32 → Bool) (R : Readings) (param : ProfileParam)
    (A : ParamsT2Add) (m : Mem) : Option ℤ :=
  if A.color = COLOR_NA then none
  else if A.colorTip = COLOR_TIP_POROG then some (testProg lt R param A m).2.toInt
  else if A.colorTip = COLOR_TIP_GET then some (userGetColor R param A m).2.toNat
  else some A.color.toNat

/-! ### What an evaluation leaves alone -/

/-- A record differs from another in `COLOR` and `status` at most. -/
def Recoloured (A A' : ParamsT2Add) : Prop :=
  ∃ color status, A' = { A with color := color, status := status }

variable {lt : UInt32 → UInt32 → Bool} {R : Readings} {param : ProfileParam}
  {A A' A'' : ParamsT2Add} {m : Mem}

/-- Nothing has changed. -/
theorem Recoloured.refl (A : ParamsT2Add) : Recoloured A A := ⟨A.color, A.status, rfl⟩

/-- One evaluation after the other. -/
theorem Recoloured.trans (h : Recoloured A A') (h' : Recoloured A' A'') :
    Recoloured A A'' := by
  obtain ⟨color, status, rfl⟩ := h
  obtain ⟨color', status', rfl⟩ := h'
  exact ⟨color', status', rfl⟩

/-- `user_get_color` stores a colour. -/
theorem userGetColor_evaluates : Recoloured A (userGetColor R param A m).1 := by
  rw [userGetColor]
  split <;> exact ⟨_, A.status, rfl⟩

/-- **`TestProg` stores a colour and a status.** -/
theorem testProg_evaluates : Recoloured A (testProg lt R param A m).1 := by
  rw [testProg]
  split
  · exact ⟨_, A.status, rfl⟩
  split
  · exact userGetColor_evaluates
  split
  · exact .refl A
  · exact ⟨_, _, rfl⟩

/-- Showing a colour evaluates it at most. -/
theorem showColor_evaluates : Recoloured A (showColor lt R param A m).1 := by
  rw [showColor]
  split
  · exact .refl A
  split
  · exact testProg_evaluates
  split
  · exact userGetColor_evaluates
  · exact .refl A

/-- The width of a shown colour, with its `@`. -/
theorem showColor_length :
    (showColor lt R param A m).2.length =
      ((shownColor lt R param A m).map fun z => 1 + integerWidth z).getD 0 := by
  rw [showColor, shownColor]
  split
  · rfl
  split
  · simp [Nat.add_comm]
  split <;> simp [Nat.add_comm]

end Muxponder
