import Muxponder.KursPrint

/-!
# Refreshing a Value

`KURS_userget_value` of `main.c`: before a parameter with `user_get` is shown, a switch on
its identifier stores a fresh value in its variable. Most of these parameters have one
scratch variable in common, so what a refresh leaves behind is the value of whichever of
them was read last.

## Main results

* `kursUsergetValue_of_le`: a refresh stays inside the variable of its parameter.
* `usergetSwitch_width`: each identifier stores a word, a double word or nothing.
-/

namespace Muxponder

open Memory

/-- `PORT_PROTOCOL_*` and `PORT_RATE_*`: the protocols and rates of a port that the code asks
for. -/
def PORT_PROTOCOL_ETHERNET : UInt32 := 0x01
@[inherit_doc PORT_PROTOCOL_ETHERNET]
def PORT_PROTOCOL_OTU : UInt32 := 0x02
@[inherit_doc PORT_PROTOCOL_ETHERNET]
def PORT_PROTOCOL_SDH : UInt32 := 0x04
@[inherit_doc PORT_PROTOCOL_ETHERNET]
def PORT_RATE_FE : UInt32 := 0x01
@[inherit_doc PORT_PROTOCOL_ETHERNET]
def PORT_RATE_GE : UInt32 := 0x02
@[inherit_doc PORT_PROTOCOL_ETHERNET]
def PORT_RATE_STM1 : UInt32 := 0x09
@[inherit_doc PORT_PROTOCOL_ETHERNET]
def PORT_RATE_STM4 : UInt32 := 0x0A
@[inherit_doc PORT_PROTOCOL_ETHERNET]
def PORT_RATE_STM16 : UInt32 := 0x0B
@[inherit_doc PORT_PROTOCOL_ETHERNET]
def PORT_RATE_OTU1 : UInt32 := 0x0F

/-- `TRANSCEIVER_STATE_NOT_READY` and `TRANSCEIVER_STATE_REBOOTING` -/
def TRANSCEIVER_STATE_NOT_READY : UInt32 := 2
@[inherit_doc TRANSCEIVER_STATE_NOT_READY]
def TRANSCEIVER_STATE_REBOOTING : UInt32 := 4

/-- The performance counters of a port are shown for two protocols. -/
inductive Pfc
  | sdh | otu
  deriving DecidableEq, Repr

/-- The performance counters: errored, severely errored and unavailable seconds, and
background block errors. -/
inductive PfcCounter
  | es | ses | uas | bbe
  deriving DecidableEq, Repr

/-- The counters of an Ethernet port. -/
inductive EthCounter
  | rxOk | txOk | rxOcts | txOcts | rxCrc
  deriving DecidableEq, Repr

/-- The alarms of a port, by protocol. -/
inductive PortAlarms
  | otu | odu | sdh | eth
  deriving DecidableEq, Repr

/-- The quantities that are watched against limits. -/
inductive Diagnostic
  | temperature | pin | pout
  deriving DecidableEq, Repr

/-- The limits of a quantity: `critical_max` and so on. -/
structure Limits where
  criticalMax : UInt32
  criticalMin : UInt32
  warningMax : UInt32
  warningMin : UInt32

/-- What the switches of `main.c` read of the ports and of the hardware, by the index of
the interface: the values behind `PORT_MONITOR`, `TRANS`, `pin`, `pout` and the alarms, and
the value of an uninitialised variable. -/
structure Readings where
  diagnostic : Diagnostic → UInt32 → UInt32
  limits : Diagnostic → UInt32 → Limits
  monitored : Diagnostic → UInt32 → Bool
  monitor : UInt32 → UInt32
  prot : UInt32 → UInt32
  rate : UInt32 → UInt32
  pfc : PfcCounter → UInt32 → UInt32
  pfcBbe : UInt32 → UInt64
  eth : EthCounter → UInt32 → UInt64
  alarms : PortAlarms → UInt32 → UInt32
  alsState : UInt32 → UInt32
  txDisabled : UInt32 → Bool
  kursRate : UInt32
  floatCompareLt : UInt32 → UInt32 → Bool

/-- Ports at rest: no hardware answers, and every transmitter is on. -/
def idleReadings : Readings where
  diagnostic := fun _ _ => 0
  limits := fun _ _ => ⟨0, 0, 0, 0⟩
  monitored := fun _ _ => false
  monitor := fun _ => 0
  prot := fun _ => 0
  rate := fun _ => 0
  pfc := fun _ _ => 0
  pfcBbe := fun _ => 0
  eth := fun _ _ => 0
  alarms := fun _ _ => 0
  alsState := fun _ => 0
  txDisabled := fun _ => false
  kursRate := 0
  floatCompareLt := fun _ _ => false

/-! ### The switch -/

/-- The identifiers that `KURS_userget_value` tells apart, each with the index it
computes. -/
inductive UsergetCase
  | diagnostic (d : Diagnostic) (i : UInt32)
  | setDataType (i : UInt32)
  | alsState (i : UInt32)
  | setAlsMode (i : UInt32)
  | pfc (p : Pfc) (c : PfcCounter) (i : UInt32)
  | eth (c : EthCounter) (i : UInt32)
  | enableTx (i : UInt32)
  | sfpState (i : UInt32)
  | alarms (a : PortAlarms) (i : UInt32)
  | default
  deriving DecidableEq, Repr

def ID_2_CL1_PIN : UInt32 := 0x01010006
def ID_2_CL1_POUT : UInt32 := 0x01010018
def ID_2_CL1_OTU_ALRMS : UInt32 := 0x0101002A
def ID_2_CL5_OTU_ALRMS : UInt32 := 0x01010092
def ID_2_LN1_OTU_ALRMS : UInt32 := 0x0101002E
def ID_2_LN1_ODU_ALRMS : UInt32 := 0x01010030
def ID_2_CL1_SDH_ALRMS : UInt32 := 0x01010038
def ID_2_CL1_ETH_ALRMS : UInt32 := 0x01010048
def ID_2_CL1_SFP_STATE : UInt32 := 0x01010058
def ID_2_CL1_SFP_TEMP : UInt32 := 0x0101006A
def ID_2_CL1_ALS_STATE : UInt32 := 0x0101007C
def ID_8_CL_1_OTU_ES : UInt32 := 0x01070100
def ID_8_CL_1_OTU_SES : UInt32 := 0x01070112
def ID_8_CL_1_OTU_BBE : UInt32 := 0x01070124
def ID_8_CL_1_OTU_UAS : UInt32 := 0x01070136
def ID_8_CL_1_SDH_ES : UInt32 := 0x01070148
def ID_8_CL_1_SDH_SES : UInt32 := 0x01070158
def ID_8_CL_1_SDH_BBE : UInt32 := 0x01070168
def ID_8_CL_1_SDH_UAS : UInt32 := 0x01070178
def ID_8_CL_1_ETH_RX_PKTS : UInt32 := 0x01070188
def ID_8_CL_1_ETH_RX_OCTS : UInt32 := 0x01070198
def ID_8_CL_8_ETH_RX_OCTS : UInt32 := 0x01070201
def ID_8_CL_1_ETH_RX_ERRS : UInt32 := 0x0107020A
def ID_8_CL_1_ETH_TX_PKTS : UInt32 := 0x0107021A
def ID_8_CL_1_ETH_TX_OCTS : UInt32 := 0x0107022A

/-- An identifier lies among `n` consecutive ones. -/
def isAmong (id start n : UInt32) : Bool := id - start < n

/-- The alarms of the clients from the fifth on, and the octets received by those from the
eighth on, have identifiers of their own; the index is computed from the first block for
all of them. -/
def usergetCase (id : UInt32) : UsergetCase :=
  if isAmong id ID_2_CL1_SFP_TEMP 16 then .diagnostic .temperature (id - ID_2_CL1_SFP_TEMP)
  else if isAmong id ID_2_CL1_PIN 18 then .diagnostic .pin (id - ID_2_CL1_PIN)
  else if isAmong id ID_2_CL1_POUT 18 then .diagnostic .pout (id - ID_2_CL1_POUT)
  else if id = ID_3_CL1_SET_DATA_TYPE ∨ isAmong id ID_3_CL2_SET_DATA_TYPE 15 then
    .setDataType (id - ID_3_CL1_SET_DATA_TYPE)
  else if isAmong id ID_2_CL1_ALS_STATE 18 then .alsState (id - ID_2_CL1_ALS_STATE)
  else if isAmong id ID_3_CL1_SET_ALS_MODE 18 then .setAlsMode (id - ID_3_CL1_SET_ALS_MODE)
  else if isAmong id ID_8_CL_1_SDH_ES 16 then .pfc .sdh .es (id - ID_8_CL_1_SDH_ES)
  else if isAmong id ID_8_CL_1_SDH_SES 16 then .pfc .sdh .ses (id - ID_8_CL_1_SDH_SES)
  else if isAmong id ID_8_CL_1_SDH_UAS 16 then .pfc .sdh .uas (id - ID_8_CL_1_SDH_UAS)
  else if isAmong id ID_8_CL_1_SDH_BBE 16 then .pfc .sdh .bbe (id - ID_8_CL_1_SDH_BBE)
  else if isAmong id ID_8_CL_1_OTU_ES 18 then .pfc .otu .es (id - ID_8_CL_1_OTU_ES)
  else if isAmong id ID_8_CL_1_OTU_SES 18 then .pfc .otu .ses (id - ID_8_CL_1_OTU_SES)
  else if isAmong id ID_8_CL_1_OTU_UAS 18 then .pfc .otu .uas (id - ID_8_CL_1_OTU_UAS)
  else if isAmong id ID_8_CL_1_OTU_BBE 18 then .pfc .otu .bbe (id - ID_8_CL_1_OTU_BBE)
  else if isAmong id ID_8_CL_1_ETH_RX_PKTS 16 then .eth .rxOk (id - ID_8_CL_1_ETH_RX_PKTS)
  else if isAmong id ID_8_CL_1_ETH_TX_PKTS 16 then .eth .txOk (id - ID_8_CL_1_ETH_TX_PKTS)
  else if isAmong id ID_8_CL_1_ETH_RX_OCTS 7 ∨ isAmong id ID_8_CL_8_ETH_RX_OCTS 9 then
    .eth .rxOcts (id - ID_8_CL_1_ETH_RX_OCTS)
  else if isAmong id ID_8_CL_1_ETH_TX_OCTS 16 then .eth .txOcts (id - ID_8_CL_1_ETH_TX_OCTS)
  else if isAmong id ID_8_CL_1_ETH_RX_ERRS 16 then .eth .rxCrc (id - ID_8_CL_1_ETH_RX_ERRS)
  else if isAmong id ID_3_CL1_ENABLE_TX 18 then .enableTx (id - ID_3_CL1_ENABLE_TX)
  else if isAmong id ID_2_CL1_SFP_STATE 18 then .sfpState (id - ID_2_CL1_SFP_STATE)
  else if isAmong id ID_2_CL1_OTU_ALRMS 4 ∨ isAmong id ID_2_CL5_OTU_ALRMS 12 ∨
      isAmong id ID_2_LN1_OTU_ALRMS 2 then
    .alarms .otu (id - ID_2_CL1_OTU_ALRMS)
  else if isAmong id ID_2_CL1_SDH_ALRMS 16 then .alarms .sdh (id - ID_2_CL1_SDH_ALRMS)
  else if isAmong id ID_2_CL1_ETH_ALRMS 16 then .alarms .eth (id - ID_2_CL1_ETH_ALRMS)
  else .default

/-- `map_rate_to_kurs_value`; another rate leaves its result uninitialised. -/
def mapRateToKursValue (R : Readings) (ipglbRate : UInt32) : UInt32 :=
  match ipglbRate.toNat with
  | 0x09 => 128
  | 0x0A => 130
  | 0x0B => 131
  | 0x0F => 0
  | 0x02 => 257
  | 0x01 => 256
  | 0x0D => 512
  | 0x0E => 513
  | _ => R.kursRate

/-- What is stored: a word or a double word. -/
inductive Stored
  | word (v : UInt32)
  | double (v : UInt64)

/-- The port counts for the protocol: SDH is asked of the protocol, OTU of the rate. -/
def Readings.counts (R : Readings) (p : Pfc) (i : UInt32) : Bool :=
  match p with
  | .sdh => R.prot i = PORT_PROTOCOL_SDH
  | .otu => R.rate i = PORT_RATE_OTU1

/-- The port is an Ethernet client. -/
def Readings.isEth (R : Readings) (i : UInt32) : Bool :=
  R.rate i = PORT_RATE_GE || R.rate i = PORT_RATE_FE

/-- The alarms that are shown, 0 (shown as `OK`) for a port of another rate. -/
def Readings.alarmWord (R : Readings) (a : PortAlarms) (i : UInt32) : UInt32 :=
  match a with
  | .otu | .odu => if R.rate i = PORT_RATE_OTU1 then R.alarms .otu i &&& 0x7F else 0
  | .sdh =>
      if R.rate i = PORT_RATE_STM1 ∨ R.rate i = PORT_RATE_STM4 ∨ R.rate i = PORT_RATE_STM16
      then R.alarms .sdh i &&& 0xFF else 0
  | .eth => if R.isEth i then R.alarms .eth i &&& 0x7 else 0

/-- The switch of `KURS_userget_value`: the value of each case. -/
def usergetSwitch (L : Layout) (R : Readings) (m : Mem) : UsergetCase → Option Stored
  | .diagnostic d i => some (.word (R.diagnostic d i))
  | .setDataType i => some (.word (mapRateToKursValue R (m.load32 (L.current .rate i))))
  | .alsState i => some (.word (R.alsState i))
  | .setAlsMode i =>
      some (.word (m.load32 (m.load32 (L.ofInterface i L.als) + L.alsControl)))
  | .pfc p .bbe i => some (.double (if R.counts p i then R.pfcBbe i else 0))
  | .pfc p c i => some (.word (if R.counts p i then R.pfc c i else 0))
  | .eth c i => some (.double (if R.isEth i then R.eth c i else 0))
  | .enableTx i => some (.word (if R.txDisabled i then 0 else 1))
  | .sfpState i =>
      let state := m.load32 (L.ofInterface i L.transceiverState)
      some (.word (if state = TRANSCEIVER_STATE_REBOOTING then TRANSCEIVER_STATE_NOT_READY
        else state))
  | .alarms a i => some (.word (R.alarmWord a i))
  | .default => none

/-- `KURS_userget_value`, of which the callers use the refreshed variable alone. -/
def kursUsergetValue (L : Layout) (R : Readings) (param : ProfileParam) (m : Mem) : Mem :=
  if param.paramId = 0 ∧ param.userGet = false then m
  else match usergetSwitch L R m (usergetCase param.paramId) with
    | some (.word v) => m.store32 param.data v
    | some (.double v) => m.store64 param.data v
    | none => m

/-- `if(user_get && profile_userget_value(..) > 0)`, whose body is empty. -/
def refresh (L : Layout) (R : Readings) (param : ProfileParam) (m : Mem) : Mem :=
  if param.userGet then kursUsergetValue L R param m else m

/-! ### What a refresh writes -/

/-- The number of bytes a case stores. -/
def UsergetCase.width : UsergetCase → ℕ
  | .pfc _ .bbe _ | .eth _ _ => 8
  | .default => 0
  | _ => 4

/-- The bytes that refreshing a parameter writes. -/
def Refreshed (param : ProfileParam) (a : UInt32) : Prop :=
  (a - param.data).toNat < (usergetCase param.paramId).width

variable {L : Layout} {R : Readings} {param : ProfileParam} {m : Mem} {a : UInt32}

/-- A case stores a value of its width. -/
theorem usergetSwitch_width (c : UsergetCase) :
    (∃ v, usergetSwitch L R m c = some (.word v) ∧ c.width = 4) ∨
      (∃ v, usergetSwitch L R m c = some (.double v) ∧ c.width = 8) ∨
        (usergetSwitch L R m c = none ∧ c.width = 0) := by
  cases c with
  | pfc p counter i => cases counter <;> simp [usergetSwitch, UsergetCase.width]
  | _ => simp [usergetSwitch, UsergetCase.width]

/-- **A refresh stays inside its variable.** -/
theorem kursUsergetValue_of_le (ha : ¬ Refreshed param a) :
    kursUsergetValue L R param m a = m a := by
  rw [Refreshed, not_lt] at ha
  rw [kursUsergetValue]
  split
  · rfl
  · rcases usergetSwitch_width (L := L) (R := R) (m := m) (usergetCase param.paramId) with
      ⟨v, hv, hw⟩ | ⟨v, hv, hw⟩ | ⟨hv, -⟩
    · simp only [hv]
      exact store32_of_le (hw ▸ ha)
    · simp only [hv]
      exact store64_of_le (hw ▸ ha)
    · simp only [hv]

end Muxponder
