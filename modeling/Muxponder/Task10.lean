import Muxponder.KursCardSections
import Muxponder.KursSetParam
import Muxponder.Lib.Interrupts

/-!
# The Task That Applies Requests

`task_10` of `main.c` looks every 10 ms at the controls of all interfaces and applies what is
requested. The requests come from the interrupt that serves the KURS protocol: `next`, `current`
and `change` of a control are shared between the two, so the task is a program of single reads,
writes and calls, and a request may come in front of each of them.

The loop over the interfaces counts in the global `if_index`; the callbacks of the protocol have
an `if_index` of their own. The registers of the hardware are the task's alone. What it reads of
the rate of a port, and whether the port is mapped, is an input.

## Main results

* `setRequest_words`: what an accepted request writes.
* `resetPart_ops` and the others: what each part of the task does to which interface.
-/

namespace Muxponder

open Memory Interrupts

/-! ### Operations and places -/

/-- An operation of the task. -/
inductive TaskOp
  | read (f : PortField) (i : Fin INTERFACE_COUNT)
  | write (f : PortField) (i : Fin INTERFACE_COUNT) (w : UInt32)
  | clearGeCounters (i : Fin INTERFACE_COUNT)
  | resetPortCounters (i : Fin INTERFACE_COUNT)
  | switchState (i : Fin INTERFACE_COUNT) (next : UInt32)
  | setIfPortLoopback (i : Fin INTERFACE_COUNT) (mode : UInt32)
  | setSerialLoopback (i : Fin INTERFACE_COUNT) (on : Bool)
  | portMapped (i : Fin INTERFACE_COUNT)
  | setRateSelect (i : Fin INTERFACE_COUNT) (topLevelRate : UInt32)
  | setRateRx (i : Fin INTERFACE_COUNT) (rate : UInt32)
  | getRateSelect (i : Fin INTERFACE_COUNT)
  | setPfcCapable (i : Fin INTERFACE_COUNT) (on : Bool)
  | setFecCapable (i : Fin INTERFACE_COUNT) (on : Bool)
  | reportLocalLosToFe (i : Fin INTERFACE_COUNT) (enable : Bool)
  | setPfcModule (i : Fin INTERFACE_COUNT) (on : Bool)
  | setTxDisable (i : Fin INTERFACE_COUNT) (on : Bool)
  | getTxDisable (i : Fin INTERFACE_COUNT)
  | bootTransceiver (i : Fin INTERFACE_COUNT)
  deriving DecidableEq, Repr

/-- How far the task has come with an interface: what it is applying, and with which value. -/
inductive Part
  /-- In front of the switch over the service state. -/
  | start
  /-- The state has been read that the switch is over. -/
  | switching (seen : UInt32)
  /-- The state is out of service, and the transmitter's `next` has been written. -/
  | stopping
  /-- The state to be stored has been read. -/
  | storing (seen state : UInt32)
  /-- It is stored, its request is to be cleared. -/
  | clearing (seen state : UInt32)
  /-- Behind the service state, in front of the transmitter. -/
  | passing
  /-- A loopback mode is being applied. -/
  | looping (mode : UInt32)
  /-- A rate is being applied. -/
  | rating (rate : UInt32)
  /-- A rate could not be set, its request is to be cleared. -/
  | failing
  /-- The transmitter's `next` has been read, or need not be. -/
  | passed
  /-- The transmitter is as requested, its request is to be cleared. -/
  | clearingTx (next : UInt32)
  deriving DecidableEq, Repr

/-- A place of the task: the interface, and how far it has come with it. -/
structure Place where
  port : Fin INTERFACE_COUNT
  part : Part
  deriving DecidableEq, Repr

/-- A piece of the task. -/
abbrev TaskProg := Prog Place TaskOp UInt32

/-- A read of a variable of an interface. -/
def readWord (p : Place) (f : PortField) (i : Fin INTERFACE_COUNT) : TaskProg UInt32 :=
  Prog.op p (.read f i)

/-- A write, or a call whose result is not used. -/
def perform (p : Place) (o : TaskOp) : TaskProg Unit := do
  let _ ← Prog.op p o
  return ()

@[inherit_doc perform]
def writeWord (p : Place) (f : PortField) (i : Fin INTERFACE_COUNT) (w : UInt32) :
    TaskProg Unit :=
  perform p (.write f i w)

/-! ### `task_10` -/

def IF_SERVICE_STATE_OOS : UInt32 := 0
def IF_SERVICE_STATE_MT : UInt32 := 1
def IF_SERVICE_STATE_IS : UInt32 := 2
def ACTIVITY_MONITOR_OFF : UInt32 := 0
def ACTIVITY_MONITOR_ON : UInt32 := 1
def MODE_LB_NORMAL : UInt32 := 0
def MODE_LB_CL : UInt32 := 1
def MODE_LB_LN : UInt32 := 2
def PORT_RATE_FC1 : UInt32 := 0x0D
def PORT_RATE_FC2 : UInt32 := 0x0E
def ALS_CONTROL_REMOTE : UInt32 := 3

/-- The mask of `MULTI_RATE` in the capabilities of a port. -/
def MULTI_RATE : UInt32 := 4

@[inherit_doc MULTI_RATE]
def PFC_CAPABLE : UInt32 := 2

@[inherit_doc MULTI_RATE]
def FEC_CAPABLE : UInt32 := 1

/-- `PORT_OPERATION_CLIENT` -/
def isClient (i : Fin INTERFACE_COUNT) : Bool := i.val < 16

/-- The counters of a port are reset. -/
def resetPart (i : Fin INTERFACE_COUNT) : TaskProg Unit := do
  let p : Place := ⟨i, .start⟩
  if (← readWord p (.control .resetCounters .change) i) ≠ 0 then
    if isClient i then perform p (.clearGeCounters i)
    perform p (.resetPortCounters i)
    writeWord p (.control .resetCounters .change) i 0

/-- The cases of the service state: an interface that goes out of service asks for its
transmitter to be switched off. -/
def stateCases (i : Fin INTERFACE_COUNT) (next : UInt32) : TaskProg Unit := do
  let p : Place := ⟨i, .switching next⟩
  if next = IF_SERVICE_STATE_OOS then
    writeWord p .monitor i ACTIVITY_MONITOR_OFF
    writeWord p (.control .txDisable .next) i 1
    writeWord ⟨i, .stopping⟩ (.control .txDisable .change) i 1
  else if next = IF_SERVICE_STATE_IS then writeWord p .monitor i ACTIVITY_MONITOR_ON
  else if next = IF_SERVICE_STATE_MT then writeWord p .monitor i ACTIVITY_MONITOR_OFF

/-- The switch over the service state. -/
def switchState (i : Fin INTERFACE_COUNT) (next : UInt32) : TaskProg Unit := do
  perform ⟨i, .switching next⟩ (.switchState i next)
  stateCases i next

/-- Where the task is behind the switch. -/
def afterSwitch (seen : UInt32) : Part :=
  if seen = IF_SERVICE_STATE_OOS then .stopping else .switching seen

/-- The service state is applied, and read again to be stored. -/
def servicePart (i : Fin INTERFACE_COUNT) : TaskProg Unit := do
  if (← readWord ⟨i, .start⟩ (.control .serviceState .change) i) ≠ 0 then
    let seen ← readWord ⟨i, .start⟩ (.control .serviceState .next) i
    switchState i seen
    let state ← readWord ⟨i, afterSwitch seen⟩ (.control .serviceState .next) i
    writeWord ⟨i, .storing seen state⟩ (.control .serviceState .current) i state
    writeWord ⟨i, .clearing seen state⟩ (.control .serviceState .change) i 0

/-- `top_level_rate` of `set_if_port_rate`. -/
def topLevelRate (rate : UInt32) : UInt32 :=
  if rate = PORT_RATE_FC1 then 4
  else if rate = PORT_RATE_FC2 then 5
  else if rate = PORT_RATE_OTU1 then 3
  else if rate = PORT_RATE_STM1 ∨ rate = PORT_RATE_STM4 then 1
  else if rate = PORT_RATE_STM16 then 2
  else if rate = PORT_RATE_FE ∨ rate = PORT_RATE_GE then 0
  else 1

/-- `set_if_port_rate`: the rate that it has set, where it succeeds. The place it is at depends
on the rate as soon as that has been read. -/
def setIfPortRate (i : Fin INTERFACE_COUNT) (p : Place) (q : UInt32 → Place) :
    TaskProg (Option UInt32) := do
  if (← readWord p .capabilities i) &&& MULTI_RATE = 0 then return none
  if (← Prog.op p (.portMapped i)) = 0 then return none
  let rate ← readWord p (.control .rate .next) i
  let odtug2Rate ← readWord (q rate) (.control .rate .next) i
  if isClient i then
    perform (q rate) (.setRateSelect i (topLevelRate rate))
    perform (q rate) (.setRateRx i odtug2Rate)
    writeWord (q rate) (.control .rate .current) i rate
  return some rate

/-- The cases of a loopback mode. A client of the second FPGA that returns to normal has its rate
set anew only where the rate is one of three. -/
def switchLoopback (i : Fin INTERFACE_COUNT) (mode : UInt32) : TaskProg Unit := do
  let p : Place := ⟨i, .looping mode⟩
  let setRate : TaskProg Unit := do
    let _ ← setIfPortRate i p fun _ => p
    return ()
  if i.val < 8 then
    if mode = MODE_LB_NORMAL ∨ mode = MODE_LB_CL then
      perform p (.setSerialLoopback i false)
      setRate
    else if mode = MODE_LB_LN then
      perform p (.setSerialLoopback i true)
      setRate
  else if isClient i then
    if mode = MODE_LB_NORMAL then
      perform p (.setSerialLoopback i false)
      if (← readWord p (.control .rate .next) i) = PORT_RATE_OTU1 then setRate
      else if (← readWord p (.control .rate .next) i) = PORT_RATE_STM16 then setRate
      else if (← readWord p (.control .rate .next) i) = PORT_RATE_FC2 then setRate
    else if mode = MODE_LB_CL then
      perform p (.setSerialLoopback i false)
      setRate
    else if mode = MODE_LB_LN then perform p (.setSerialLoopback i true)
  else if mode = MODE_LB_NORMAL then perform p (.setSerialLoopback i false)
  else if mode = MODE_LB_LN then perform p (.setSerialLoopback i true)

/-- `set_if_port_loopback`, which always succeeds. -/
def setIfPortLoopback (i : Fin INTERFACE_COUNT) (mode : UInt32) : TaskProg Unit := do
  perform ⟨i, .looping mode⟩ (.setIfPortLoopback i mode)
  switchLoopback i mode

/-- The loopback mode is applied, and read again to be stored. -/
def loopbackPart (i : Fin INTERFACE_COUNT) : TaskProg Unit := do
  if (← readWord ⟨i, .passing⟩ (.control .loopbackMode .change) i) ≠ 0 then
    let mode ← readWord ⟨i, .passing⟩ (.control .loopbackMode .next) i
    let p : Place := ⟨i, .looping mode⟩
    setIfPortLoopback i mode
    let next ← readWord p (.control .loopbackMode .next) i
    writeWord p (.control .loopbackMode .current) i next
    writeWord p (.control .loopbackMode .change) i 0

/-- The rates that `read_if_port_rate` knows by their selection. -/
def selectedRate (select : UInt32) : Option UInt32 :=
  if select = 1 then some PORT_RATE_STM1
  else if select = 2 then some PORT_RATE_STM16
  else if select = 3 then some PORT_RATE_OTU1
  else if select = 4 then some PORT_RATE_FC1
  else if select = 5 then some PORT_RATE_FC2
  else if select = 8 then some PORT_RATE_STM4
  else none

/-- A rate that has been read back is stored. -/
def storeMonitorRate (i : Fin INTERFACE_COUNT) (p : Place) : Option UInt32 → TaskProg Bool
  | some rate => do
      writeWord p .monitorRate i rate
      return true
  | none => return false

/-- `read_if_port_rate`: whether it succeeds. The Ethernet rates have one selection, so the
request tells them apart. -/
def readIfPortRate (i : Fin INTERFACE_COUNT) (p : Place) : TaskProg Bool := do
  if (← Prog.op p (.portMapped i)) = 0 then return false
  if (← readWord p .capabilities i) &&& MULTI_RATE = 0 then return false
  let select ← if isClient i then Prog.op p (.getRateSelect i) else pure 0
  if select = 0 then
    if (← readWord p (.control .rate .next) i) = PORT_RATE_FE then
      storeMonitorRate i p (some PORT_RATE_FE)
    else if (← readWord p (.control .rate .next) i) = PORT_RATE_GE then
      storeMonitorRate i p (some PORT_RATE_GE)
    else return false
  else storeMonitorRate i p (selectedRate select)

/-- `cancel_request` -/
def cancelRequest (i : Fin INTERFACE_COUNT) (p : Place) : TaskProg Unit := do
  writeWord p (.control .rate .change) i 0
  let current ← readWord p (.control .rate .current) i
  writeWord p (.control .rate .next) i current

/-- What follows from the rate that has been set. -/
def rateModified (i : Fin INTERFACE_COUNT) (p : Place) : TaskProg Unit := do
  let otu1 := (← readWord p .monitorRate i) = PORT_RATE_OTU1
  if otu1 then
    let control ← readWord p .alsControl i
    perform p (.reportLocalLosToFe i (control = ALS_CONTROL_REMOTE))
  else perform p (.reportLocalLosToFe i false)
  let rate ← readWord p .monitorRate i
  if rate = PORT_RATE_GE ∧ isClient i then perform p (.clearGeCounters i)
  let sdh := rate = PORT_RATE_STM1 ∨ rate = PORT_RATE_STM4 ∨ rate = PORT_RATE_STM16
  perform p (.setPfcCapable i (sdh ∨ rate = PORT_RATE_OTU1))
  perform p (.setFecCapable i (rate = PORT_RATE_OTU1))

/-- The rate that has been set is read back and compared with the request, which is cleared
whatever comes of it. -/
def confirmRate (i : Fin INTERFACE_COUNT) (p : Place) : TaskProg Unit := do
  if ← readIfPortRate i p then
    let rate ← readWord p .monitorRate i
    let next ← readWord p (.control .rate .next) i
    if rate = next then
      writeWord p (.control .rate .change) i 0
      writeWord p (.control .rate .change) i 0
      let next ← readWord p (.control .rate .next) i
      writeWord p (.control .rate .current) i next
      rateModified i p
    let capabilities ← readWord p .capabilities i
    perform p (.setPfcModule i (capabilities &&& PFC_CAPABLE ≠ 0))
  writeWord p (.control .resetCounters .change) i 1
  writeWord p (.control .rate .change) i 0

/-- The rate is applied. -/
def ratePart (i : Fin INTERFACE_COUNT) : TaskProg Unit := do
  let p : Place := ⟨i, .passing⟩
  if (← readWord p (.control .rate .change) i) ≠ 0 then
    if (← readWord p .capabilities i) &&& MULTI_RATE = 0 then cancelRequest i p
    else
      match ← setIfPortRate i p fun rate => ⟨i, .rating rate⟩ with
      | some rate => confirmRate i ⟨i, .rating rate⟩
      | none => writeWord ⟨i, .failing⟩ (.control .rate .change) i 0

/-- The transmitter is set and read back; its request stays until it is as requested.
`callback_on_transceiver_txdisable_set` is empty. -/
def txPart (i : Fin INTERFACE_COUNT) : TaskProg Unit := do
  if (← readWord ⟨i, .passing⟩ (.control .txDisable .change) i) ≠ 0 then
    let p : Place := ⟨i, .passed⟩
    let next ← readWord ⟨i, .passing⟩ (.control .txDisable .next) i
    perform p (.setTxDisable i (next ≠ 0))
    perform p (.read (.control .txDisable .next) i)
    perform p (.read (.control .txDisable .current) i)
    let state ← Prog.op p (.getTxDisable i)
    writeWord p (.control .txDisable .current) i state
    let current ← readWord p (.control .txDisable .current) i
    let next ← readWord p (.control .txDisable .next) i
    if current = next then writeWord ⟨i, .clearingTx next⟩ (.control .txDisable .change) i 0

/-- The transceiver is booted. -/
def rebootPart (i : Fin INTERFACE_COUNT) : TaskProg Unit := do
  let p : Place := ⟨i, .passed⟩
  if (← readWord p .rebootChange i) ≠ 0 then
    if (← Prog.op p (.bootTransceiver i)) ≠ 0 then writeWord p .rebootChange i 0

/-- What the task does for an interface. -/
def taskInterface (i : Fin INTERFACE_COUNT) : TaskProg Unit := do
  resetPart i
  servicePart i
  loopbackPart i
  ratePart i
  txPart i
  rebootPart i

/-- **`task_10`** -/
def task10 : TaskProg Unit := (List.finRange INTERFACE_COUNT).forM taskInterface

/-! ### The card -/

/-- The registers that the task sets: the outputs `tx_disable` of the transceivers, the bits
`RX_SERIAL_LB_EN` of the clients and `LI1_LINE_LOOPBACK` of the lines, and for the clients
`PORT_n_RATE_SELECT` and `PORT_n_RATE_RX`. -/
structure PortHardware where
  txDisable : Fin INTERFACE_COUNT → Bool
  serialLoopback : Fin INTERFACE_COUNT → Bool
  rateSelect : Fin INTERFACE_COUNT → UInt32
  rateRx : Fin INTERFACE_COUNT → UInt32

/-- The memory and the registers. -/
structure CardState where
  mem : Mem
  hw : PortHardware

section card

variable {L : Layout}

/-- The word that a variable of an interface begins with. -/
def CardMemory.word (C : CardMemory L) (m : Mem) (f : PortField) (i : Fin INTERFACE_COUNT) :
    UInt32 :=
  m.load32 (C.addr (.port f i))

/-- A bit of the capabilities is set or cleared. -/
def CardMemory.setCapability (C : CardMemory L) (m : Mem) (i : Fin INTERFACE_COUNT)
    (mask : UInt32) (on : Bool) : Mem :=
  let all := C.word m .capabilities i
  m.store32 (C.addr (.port .capabilities i)) (if on then all ||| mask else all &&& ~~~mask)

/-- An operation of the task, with an answer. A variable and a register that the task sets are
read as they are; the other answers come from outside. -/
def CardMemory.act (C : CardMemory L) (s : CardState) : TaskOp → UInt32 → Option CardState
  | .read f i, w => if w = C.word s.mem f i then some s else none
  | .write f i v, _ => some { s with mem := s.mem.store32 (C.addr (.port f i)) v }
  | .setSerialLoopback i on, _ =>
      some { s with hw.serialLoopback := Function.update s.hw.serialLoopback i on }
  | .setRateSelect i topLevelRate, _ =>
      some { s with hw.rateSelect := Function.update s.hw.rateSelect i topLevelRate }
  | .setRateRx i rate, _ => some { s with hw.rateRx := Function.update s.hw.rateRx i rate }
  | .setPfcCapable i on, _ => some { s with mem := C.setCapability s.mem i PFC_CAPABLE on }
  | .setFecCapable i on, _ => some { s with mem := C.setCapability s.mem i FEC_CAPABLE on }
  | .setTxDisable i on, _ =>
      some { s with hw.txDisable := Function.update s.hw.txDisable i on }
  | .getTxDisable i, w => if w = if s.hw.txDisable i then 1 else 0 then some s else none
  | _, _ => some s

/-! ### Requests -/

/-- The row of `section_3` that a control is set with. -/
def Control.row (c : Control) (i : Fin INTERFACE_COUNT) : Row :=
  match c with
  | .serviceState =>
      settingRow (ID_3_CL1_SET_STATE + ifIndex i) .enum 245 (.control .serviceState .current i)
  | .txDisable => scratchRow (ID_3_CL1_ENABLE_TX + ifIndex i) true .enum 245 false
  | .loopbackMode =>
      settingRow
        (if isClient i then ID_3_CL1_SET_LOOPBACK + ifIndex i
          else ID_3_LN1_SET_LOOPBACK + lineIndex i)
        .enum 245 (.control .loopbackMode .current i)
  | .rate => scratchRow (dataTypeId i) true .enum 245 false
  | .resetCounters =>
      settingRow (ID_3_CL1_RESET_COUNTERS + ifIndex i) .enum 213
        (.control .resetCounters .current i)

/-- A request for the service state, the transmitter, the loopback mode or the data type of an
interface: a row of `section_3`, and a value. -/
structure ControlRequest where
  control : Control
  port : Fin INTERFACE_COUNT
  value : UInt32
  row_mem : control.row port ∈ section3
  control_ne : control ≠ .resetCounters

/-- A request as `HandleKursSetParamValue` carries it out, and whether it is accepted. The
refresh of the value for the reply is left out; it writes none of the variables of an
interface. -/
def CardMemory.setRequest (C : CardMemory L) (E : KursEnv) (s : CardState) (q : ControlRequest) :
    CardState × Bool :=
  match storeWord E L (C.param (q.control.row q.port)).toProfileParam q.value s.mem with
  | (true, m) => ({ s with mem := m.store8 L.save 1 }, true)
  | (false, m) => ({ s with mem := m }, false)

/-- The value of a request as the callback takes it. -/
def ControlRequest.asked (q : ControlRequest) (E : KursEnv) : UInt32 :=
  match q.control with
  | .txDisable => if q.value &&& 1 = 0 then 1 else 0
  | .rate => mapRateFromKursValue E (q.value &&& 0xFFF)
  | _ => q.value &&& 3

/-- The card with the task that is interrupted by requests. -/
def CardMemory.system (C : CardMemory L) (E : KursEnv) :
    System CardState ControlRequest Bool TaskOp UInt32 where
  act := C.act
  interrupt s q := some (C.setRequest E s q)

/-- **The task, pass after pass, with requests at any place.** -/
abbrev CardMemory.task10Machine (C : CardMemory L) (E : KursEnv) :=
  (C.system E).machine fun _ : Unit => task10

/-- The history of such a run. -/
abbrev TaskHistory := History Unit ControlRequest Bool Place TaskOp UInt32

/-! ### The variables of an interface as words -/

variable {C : CardMemory L} {E : KursEnv} {s s' : CardState} {m : Mem} {f g : PortField}
  {i j : Fin INTERFACE_COUNT} {v w : UInt32} {q : ControlRequest}

/-- A variable of an interface has four bytes at least. -/
theorem PortField.four_le_size (f : PortField) : 4 ≤ f.size.toNat := by
  cases f <;> simp [PortField.size]

/-- **A word that is written, and the others.** -/
theorem word_store32 : C.word (m.store32 (C.addr (.port f i)) v) g j =
    if g = f ∧ j = i then v else C.word m g j := by
  split
  next h =>
    obtain ⟨rfl, rfl⟩ := h
    exact load32_store32
  next h =>
    have hwrites : C.Writes {.port f i} m (m.store32 (C.addr (.port f i)) v) :=
      Placement.Writes.store32 rfl f.four_le_size
    refine hwrites.load32 ?_ g.four_le_size
    simpa using h

/-- A variable there is one of is none of an interface. -/
theorem word_store32_card {k : CardField} (hk : 4 ≤ k.size.toNat) :
    C.word (m.store32 (C.addr (.card k)) v) g j = C.word m g j := by
  have hwrites : C.Writes {.card k} m (m.store32 (C.addr (.card k)) v) :=
    Placement.Writes.store32 rfl hk
  exact hwrites.load32 (by simp) g.four_le_size

@[inherit_doc word_store32_card]
theorem word_store8_card {k : CardField} {b : UInt8} (hk : 0 < k.size.toNat) :
    C.word (m.store8 (C.addr (.card k)) b) g j = C.word m g j := by
  have hwrites : C.Writes {.card k} m (m.store8 (C.addr (.card k)) b) :=
    Placement.Writes.store8 rfl hk
  exact hwrites.load32 (by simp) g.four_le_size

/-! ### What a request does -/

/-- The case of the callback for a control. -/
def Control.userset (c : Control) (i : UInt32) : UsersetCase :=
  match c with
  | .serviceState => .setState i
  | .txDisable => .enableTx i
  | .loopbackMode => .setLoopback i
  | .rate => .setDataType i
  | .resetCounters => .resetCounters i

/-- The callback finds the control and the interface of a row, but for the data types of the
clients behind the first one. -/
theorem usersetCase_row {c : Control} (hrow : c.row i ∈ section3)
    (hrate : c = .rate → i = 0) :
    usersetCase (c.row i).paramId = c.userset (ifIndex i) := by
  have hall : ∀ i, (Control.rate.row i ∈ section3 → i = 0 →
      usersetCase (Control.rate.row i).paramId = Control.rate.userset (ifIndex i)) ∧
      ∀ c ∈ [Control.serviceState, .txDisable, .loopbackMode, .resetCounters],
        usersetCase (c.row i).paramId = c.userset (ifIndex i) := by
    decide +kernel
  cases c with
  | rate => exact (hall i).1 hrow (hrate rfl)
  | _ => exact (hall i).2 _ (by decide)

/-- Whether the callback takes a request. -/
def CardMemory.admits (C : CardMemory L) (m : Mem) (q : ControlRequest) : Bool :=
  match q.control with
  | .txDisable => C.word m .transceiverState q.port ≠ 0 &&
      C.word m (.control .serviceState .current) q.port ≠ IF_SERVICE_STATE_OOS
  | .loopbackMode => C.word m .transceiverState q.port ≠ 0
  | .rate => C.word m .capabilities q.port &&& MULTI_RATE ≠ 0
  | _ => true

/-- The variables of the interfaces behind an accepted request: the handler stores the value
itself in `current`, where that is the variable of the row. -/
def ControlRequest.words (q : ControlRequest) (E : KursEnv)
    (words : PortField → Fin INTERFACE_COUNT → UInt32) (f : PortField)
    (i : Fin INTERFACE_COUNT) : UInt32 :=
  if i = q.port ∧ f = .control q.control .next then q.asked E
  else if i = q.port ∧ f = .control q.control .change then 1
  else if i = q.port ∧ f = .control q.control .current ∧
      (q.control = .serviceState ∨ q.control = .loopbackMode) then q.value
  else words f i

/-- The switch of the callback on a request. -/
theorem usersetSwitch_request (hrate : q.control = .rate → q.port = 0) :
    usersetSwitch E L (usersetCase (q.control.row q.port).paramId) q.value m =
      if C.admits m q then (true, L.request q.control (ifIndex q.port) (q.asked E) m)
      else (false, m) := by
  have hstate := C.transceiverState_eq q.port
  have hcap := C.capabilities_eq q.port
  have hcur := C.current_eq .serviceState q.port
  rw [usersetCase_row q.row_mem hrate]
  cases hc : q.control with
  | resetCounters => exact absurd hc q.control_ne
  | serviceState =>
      simp [usersetSwitch, Control.userset, CardMemory.admits, ControlRequest.asked, hc]
  | txDisable =>
      simp [usersetSwitch, Control.userset, CardMemory.admits, ControlRequest.asked, hc,
        CardMemory.word, transceiverPresent, hstate, hcur, IF_SERVICE_STATE_OOS]
  | loopbackMode =>
      simp [usersetSwitch, Control.userset, CardMemory.admits, ControlRequest.asked, hc,
        CardMemory.word, transceiverPresent, hstate]
  | rate =>
      simp [usersetSwitch, Control.userset, CardMemory.admits, ControlRequest.asked, hc,
        CardMemory.word, hcap, MULTI_RATE]

/-- The callback on a request. -/
theorem profileUsersetValue_request (hrate : q.control = .rate → q.port = 0) :
    ∃ m', profileUsersetValue E L (C.param (q.control.row q.port)).toProfileParam q.value m =
        (C.admits m q, m') ∧
      (C.admits m q = false → m' = m) ∧
      (C.admits m q = true → ∀ f j, C.word m' f j =
        C.word (L.request q.control (ifIndex q.port) (q.asked E) m) f j) := by
  have hid : (C.param (q.control.row q.port)).paramId = (q.control.row q.port).paramId := rfl
  have hne : (q.control.row q.port).paramId ≠ 0 := by
    intro h0
    have hcase := usersetCase_row q.row_mem hrate
    rw [h0] at hcase
    cases hc : q.control with
    | _ => rw [hc] at hcase; cases hcase
  rw [profileUsersetValue, if_neg (by rw [hid]; exact fun h => hne h.1), kursUsersetValue,
    if_neg (by rw [hid]; exact hne), hid, usersetSwitch_request hrate]
  cases hadmits : C.admits m q with
  | false => exact ⟨m, rfl, fun _ => rfl, fun h => by cases h⟩
  | true =>
      simp only [if_true]
      split
      next hflag =>
        refine ⟨_, rfl, fun h => (by cases h), fun _ f j => ?_⟩
        rw [← C.section3Changed_eq]
        exact word_store8_card (by decide)
      next hflag => exact ⟨_, rfl, fun h => (by cases h), fun _ _ _ => rfl⟩

/-- A control is requested to change, as words. -/
theorem word_request {c : Control} : C.word (L.request c (ifIndex i) v m) g j =
    if j = i ∧ g = .control c .next then v
    else if j = i ∧ g = .control c .change then 1
    else C.word m g j := by
  rw [Layout.request, ← C.next_eq, ← C.change_eq, word_store32, word_store32]
  simp only [and_comm (a := j = i)]
  by_cases hnext : g = .control c .next ∧ j = i
  · rw [if_pos hnext, if_pos hnext, if_neg (by rw [hnext.1]; simp)]
  · rw [if_neg hnext, if_neg hnext]

/-- **What an accepted request writes**, and that a refused one writes nothing. -/
theorem setRequest_spec (hrate : q.control = .rate → q.port = 0) :
    (C.setRequest E s q).2 = C.admits s.mem q ∧ (C.setRequest E s q).1.hw = s.hw ∧
      ∀ f j, C.word (C.setRequest E s q).1.mem f j =
        if C.admits s.mem q then q.words E (C.word s.mem) f j else C.word s.mem f j := by
  obtain ⟨m', hm', hrefused, hwords⟩ :=
    profileUsersetValue_request (E := E) (C := C) (m := s.mem) hrate
  have huser : (C.param (q.control.row q.port)).userSet = true := by
    cases hc : q.control <;> rfl
  have hdata : (C.param (q.control.row q.port)).data = C.addr (q.control.row q.port).data := rfl
  rw [CardMemory.setRequest, storeWord, if_pos huser, hm', hdata]
  cases hadmits : C.admits s.mem q with
  | false => exact ⟨rfl, rfl, fun f j => by rw [← hrefused hadmits]; rfl⟩
  | true =>
      refine ⟨rfl, rfl, fun f j => ?_⟩
      simp only [if_true]
      rw [← C.save_eq, word_store8_card (by decide)]
      have hreq := hwords hadmits f j
      rw [word_request] at hreq
      cases hc : q.control with
      | resetCounters => exact absurd hc q.control_ne
      | serviceState | loopbackMode =>
          simp only [Control.row, settingRow, plainRow, CardVar.control, word_store32, hreq, hc,
            ControlRequest.words]
          by_cases hcur : f = .control q.control .current
          · rw [hc] at hcur
            subst hcur
            simp
          · rw [hc] at hcur
            simp [hcur]
      | txDisable | rate =>
          simp only [Control.row, scratchRow, plainRow, ControlRequest.words, hc]
          rw [word_store32_card (by decide), hreq, hc]
          simp

/-- An accepted request for a rate or for the transmitter has found what it asks for. -/
theorem admits_cases (h : C.admits m q = true) :
    (q.control = .rate → C.word m .capabilities q.port &&& MULTI_RATE ≠ 0) ∧
      (q.control = .txDisable →
        C.word m (.control .serviceState .current) q.port ≠ IF_SERVICE_STATE_OOS) := by
  constructor <;> intro hc <;> simp only [CardMemory.admits, hc] at h
  · simpa using h
  · simpa using (Bool.and_eq_true_iff.mp h).2

end card

/-! ### What the parts of the task do -/

section parts

variable {c : Control} {i j : Fin INTERFACE_COUNT} {p : Place}

/-- An operation has to do with a control of an interface: it writes a part of it, or acts upon
it. For a rate, that which is read back belongs to it. -/
def TaskOp.Touches (c : Control) (i : Fin INTERFACE_COUNT) : TaskOp → Prop
  | .write f j _ => j = i ∧
      ((∃ p, f = .control c p) ∨ (c = .rate ∧ f = .monitorRate) ∨ f = .capabilities)
  | .switchState j _ => j = i ∧ c = .serviceState
  | .setIfPortLoopback j _ => j = i ∧ c = .loopbackMode
  | .setTxDisable j _ => j = i ∧ c = .txDisable
  | .setRateRx j _ => j = i ∧ c = .rate
  | _ => False

/-- Behind the service state and in front of the transmitter. -/
def Part.Between : Part → Prop
  | .passing | .looping _ | .rating _ | .failing => True
  | _ => False

@[simp] theorem between_passing : Part.passing.Between := trivial

@[simp] theorem between_looping {mode : UInt32} : (Part.looping mode).Between := trivial

@[simp] theorem between_rating {rate : UInt32} : (Part.rating rate).Between := trivial

@[simp] theorem between_failing : Part.failing.Between := trivial

/-- The operations of a part of the task at its places that spare a control of an interface. -/
def Spares (parts : Part → Prop) (c : Control) (i j : Fin INTERFACE_COUNT) (p : Place)
    (o : TaskOp) : Prop :=
  p.port = j ∧ parts p.part ∧ ¬ o.Touches c i

/-- A program as its operations. -/
theorem allOps_perform {q : Place → TaskOp → Prop} {o : TaskOp} :
    (perform p o).AllOps q ↔ q p o := and_iff_left fun _ => trivial

@[inherit_doc allOps_perform]
theorem allOps_perform_bind {α : Type} {q : Place → TaskOp → Prop} {o : TaskOp}
    {f : Unit → TaskProg α} :
    (perform p o >>= f).AllOps q ↔ q p o ∧ (f ()).AllOps q := by
  rw [perform, bind_assoc, allOps_op_bind]
  exact and_congr_right fun _ => forall_const _

@[inherit_doc allOps_perform]
theorem allOps_readWord_bind {α : Type} {q : Place → TaskOp → Prop} {f : PortField}
    {g : UInt32 → TaskProg α} :
    (readWord p f i >>= g).AllOps q ↔ q p (.read f i) ∧ ∀ w, (g w).AllOps q := Iff.rfl

attribute [local simp] allOps_op_bind allOps_ite allOps_ite_bind allOps_map allOps_perform
  allOps_perform_bind allOps_readWord_bind writeWord Spares TaskOp.Touches

/-- The reset of the counters. -/
theorem resetPart_ops (hc : c ≠ .resetCounters) :
    (resetPart j).AllOps (Spares (· = .start) c i j) := by
  simp [resetPart, hc.symm]

/-- The task is applying a service state. -/
def Part.Applies (seen : UInt32) (part : Part) : Prop :=
  part = .switching seen ∨ (seen = IF_SERVICE_STATE_OOS ∧ part = .stopping) ∨
    ∃ state, part = .storing seen state ∨ part = .clearing seen state

/-- The cases of the service state concern the transmitter. -/
theorem stateCases_ops {next : UInt32} (h : j = i → c ≠ .txDisable) :
    (stateCases j next).AllOps (Spares (Part.Applies next) c i j) := by
  simp [stateCases, Part.Applies]
  grind

/-- The service state concerns itself and the transmitter of its interface. -/
theorem servicePart_ops (h : j = i → c ≠ .serviceState ∧ c ≠ .txDisable) :
    (servicePart j).AllOps (Spares (fun _ => True) c i j) := by
  simp [servicePart, switchState, stateCases]
  grind

/-- Setting the rate concerns the rate. -/
theorem setIfPortRate_ops {parts : Part → Prop} {q : UInt32 → Place} (h : j = i → c ≠ .rate)
    (hp : p.port = j ∧ parts p.part) (hq : ∀ r, (q r).port = j ∧ parts (q r).part) :
    (setIfPortRate j p q).AllOps (Spares parts c i j) := by
  simp [setIfPortRate, hp, hq]
  grind

/-- The cases of a loopback mode concern the rate. -/
theorem switchLoopback_ops {mode : UInt32} (h : j = i → c ≠ .rate) :
    (switchLoopback j mode).AllOps (Spares (· = .looping mode) c i j) := by
  have hset : (setIfPortRate j ⟨j, .looping mode⟩ fun _ => ⟨j, .looping mode⟩).AllOps
      (Spares (· = .looping mode) c i j) :=
    setIfPortRate_ops h (by simp) (by simp)
  simp [switchLoopback, hset]

/-- The loopback mode concerns itself and the rate. -/
theorem loopbackPart_ops (h : j = i → c ≠ .loopbackMode ∧ c ≠ .rate) :
    (loopbackPart j).AllOps (Spares Part.Between c i j) := by
  have hswitch : ∀ mode, (switchLoopback j mode).AllOps (Spares Part.Between c i j) :=
    fun mode => (switchLoopback_ops fun hij => (h hij).2).mono fun p o ho =>
      ⟨ho.1, ho.2.1 ▸ between_looping, ho.2.2⟩
  simp [loopbackPart, setIfPortLoopback]
  intro _ _ mode
  refine ⟨fun hij => (h hij).1, (hswitch mode).bind fun _ => ?_⟩
  simpa using fun hij => (h hij).1.symm

/-- What is done to confirm a rate: its request is cleared, and the counters are to be reset. -/
def TaskOp.Confirms (i : Fin INTERFACE_COUNT) : TaskOp → Prop
  | .write f j w => j = i ∧ (f = .monitorRate ∨ f = .control .rate .current ∨
      (f = .control .rate .change ∧ w = 0) ∨ f = .control .resetCounters .change)
  | .switchState _ _ | .setIfPortLoopback _ _ | .setTxDisable _ _ | .setRateRx _ _ => False
  | _ => True

/-- What follows from a rate concerns no control. -/
theorem rateModified_ops : (rateModified j p).AllOps fun p' o =>
    p' = p ∧ o.Confirms j ∧ ∀ c i, ¬ o.Touches c i := by
  simp [rateModified, TaskOp.Confirms]

/-- The operations that confirm a rate. -/
theorem confirmRate_ops : (confirmRate j p).AllOps fun p' o => p' = p ∧ o.Confirms j := by
  have hstore : ∀ rate, (storeMonitorRate j p rate).AllOps fun p' o =>
      p' = p ∧ o.Confirms j := by
    intro rate
    cases rate with
    | none => trivial
    | some rate => simp [storeMonitorRate, TaskOp.Confirms]
  have hread : (readIfPortRate j p).AllOps fun p' o => p' = p ∧ o.Confirms j := by
    simp [readIfPortRate, hstore]
    simp [TaskOp.Confirms]
  refine hread.bind fun read => allOps_ite.mpr ⟨fun _ => ?_, fun _ => by simp [TaskOp.Confirms]⟩
  refine ⟨⟨rfl, trivial⟩, fun monitor => ⟨⟨rfl, trivial⟩, fun next => allOps_ite.mpr
    ⟨fun _ => ?_, fun _ => by simp [TaskOp.Confirms]⟩⟩⟩
  simp only [writeWord, allOps_perform_bind, allOps_readWord_bind]
  refine ⟨⟨trivial, by simp [TaskOp.Confirms]⟩, ⟨trivial, by simp [TaskOp.Confirms]⟩,
    ⟨trivial, trivial⟩, fun next => ⟨⟨trivial, by simp [TaskOp.Confirms]⟩, ?_⟩⟩
  exact (rateModified_ops.mono fun _ _ ho => ⟨ho.1, ho.2.1⟩).bind fun _ => by
    simp [TaskOp.Confirms]

/-- The rate concerns itself, and asks for the counters to be reset. -/
theorem ratePart_ops (h : j = i → c ≠ .rate) (hc : c ≠ .resetCounters) :
    (ratePart j).AllOps (Spares Part.Between c i j) := by
  have hne : j = i → ¬ Control.rate = c := fun hij => (h hij).symm
  have hconfirm : ∀ rate, (confirmRate j ⟨j, .rating rate⟩).AllOps (Spares Part.Between c i j) :=
    fun rate => confirmRate_ops.mono fun p o ho => by
      obtain ⟨rfl, ho⟩ := ho
      refine ⟨rfl, trivial, ?_⟩
      cases o <;> simp [TaskOp.Confirms] at ho ⊢
      grind
  simp [ratePart, cancelRequest]
  intro _ _ cap
  refine ⟨fun _ => hne, fun _ => ?_⟩
  refine (setIfPortRate_ops h (by simp) (by simp)).bind fun set => ?_
  cases set with
  | none => simpa using hne
  | some rate => exact hconfirm rate

/-- The transmitter concerns itself. -/
theorem txPart_ops (h : j = i → c ≠ .txDisable) :
    (txPart j).AllOps (Spares (fun _ => True) c i j) := by
  simp [txPart]
  grind

/-- Booting a transceiver concerns no control. -/
theorem rebootPart_ops : (rebootPart j).AllOps (Spares (· = .passed) c i j) := by
  simp [rebootPart]

end parts

end Muxponder
