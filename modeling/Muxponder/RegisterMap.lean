import Muxponder.PortBanks
import Muxponder.StatusLed

/-!
# Whose Registers Are Accessed

Each interface has a map of its registers, which `client_port_mmap` or `line_port_mmap` fills and
its operations read: the update of its statistics, the change of its rate, the loopback and the ALS
mode, and the callback of its transceiver. The registers of client `i` lie in a span of 0x4000 bytes
of one of two FPGAs, those of the card at the start of the whole range and in the span of client 9.

The maps have holes. `client_port_mmap` assigns `gemac_1` twice, the second time to the second FPGA,
and `gemac_2` not at all. `line_port_mmap` and `init_als_module` assign nothing for a line. The
callback takes a line for a client. And the control registers of clients 0 and 9 are registers of
the card.

The fields of the card's registers that a change of the rate writes, through the pointers of
`top_level_misc_reg` and `odtug2`, are not accesses to the map of an interface.

## Main results

* `clientFine_iff`: which registers of a client are its own.
* `registersOwned_iff`: when the interfaces keep to their registers.
-/

namespace Muxponder

open LastWrite

/-! ### Addresses -/

/-- The start of the registers. -/
def ODUK_MPIF_BRICK_0_BASE : UInt32 := 0x1000000

/-- The bit that bypasses the cache. -/
def DE_CACHE_EN_BIT : UInt32 := 0x80000000

/-- Where the registers of the second FPGA are. -/
def AVALON_SPI_MASTER_BASE : UInt32 := 0x10000000

/-- `LN_INDEX_OFFSET`. -/
def LN_INDEX_OFFSET : UInt32 := 2

/-- `PORT_RATE_OTU2`. -/
def PORT_RATE_OTU2 : UInt32 := 0x10

/-- The registers of an FPGA. -/
def Fpga.base : Fpga → UInt32
  | .first => 0
  | .second => AVALON_SPI_MASTER_BASE

/-- The registers of an STM framer that are accessed. -/
inductive StmRegister
  | liveStatus
  | b1Err
  deriving DecidableEq, Repr

/-- Their offsets. -/
def StmRegister.offset : StmRegister → UInt32
  | liveStatus => 0x00
  | b1Err => 0xC0

/-- The registers of an Ethernet MAC that are accessed. -/
inductive GeMacRegister
  | commandConfig
  | mac0
  | mac1
  | maxPktLength
  | pauseQuant
  | rxSectionEmpty
  | rxSectionFull
  | txSectionEmpty
  | txSectionFull
  | rxAlmostEmpty
  | rxAlmostFull
  | txAlmostEmpty
  | txAlmostFull
  | txIpgLength
  | transmitCommand
  | txFrmOk
  | rxFrmOk
  | rxFcsErr
  | txOctOk
  | rxOctOk
  deriving DecidableEq, Repr

/-- Their offsets. -/
def GeMacRegister.offset : GeMacRegister → UInt32
  | commandConfig => 0x08
  | mac0 => 0x0C
  | mac1 => 0x10
  | maxPktLength => 0x14
  | pauseQuant => 0x18
  | rxSectionEmpty => 0x1C
  | rxSectionFull => 0x20
  | txSectionEmpty => 0x24
  | txSectionFull => 0x28
  | rxAlmostEmpty => 0x2C
  | rxAlmostFull => 0x30
  | txAlmostEmpty => 0x34
  | txAlmostFull => 0x38
  | txIpgLength => 0x5C
  | transmitCommand => 0xE8
  | txFrmOk => 0x68
  | rxFrmOk => 0x6C
  | rxFcsErr => 0x70
  | txOctOk => 0x78
  | rxOctOk => 0x7C

/-- The registers of an Ethernet PCS that are accessed. -/
inductive GePcsRegister
  | ctrl
  | linkTimer1
  | linkTimer2
  | ifMode
  | devAbility
  deriving DecidableEq, Repr

/-- Their offsets. -/
def GePcsRegister.offset : GePcsRegister → UInt32
  | ctrl => 0x00
  | linkTimer1 => 0x48
  | linkTimer2 => 0x4C
  | ifMode => 0x50
  | devAbility => 0x10

/-- The members of `client_mmap_t`, those of its members `ge`, `otu1` and `odtu_brick` included,
without the number of the FPGA that their names end in. -/
inductive ClientField
  | stm14
  | stm16
  | gemac
  | generalCtrl
  | generalSts
  | resetCtrl
  | gepcs
  | liveStatus
  | intStatus
  | uncorrCw
  | fecCorrBits
  | smBip8
  | odtuCtrl
  | odtuSts
  | alsCtrl
  deriving DecidableEq, Repr

/-- A pointer of `client_mmap_t`. -/
abbrev ClientPointer := ClientField × Fpga

/-- The index of a client, as an interface. -/
def Client.interface (i : Client) : Fin INTERFACE_COUNT := ⟨i.val, i.isLt.trans (by decide)⟩

/-- `base` of `client_port_mmap`. -/
def Client.base (i : Client) : UInt32 := ODUK_MPIF_BRICK_0_BASE + UInt32.ofNat i.val * 0x4000

/-- The assignments of `client_port_mmap`, in their order: the base of a register block, or the
register itself, before `DE_CACHE_EN_BIT` is set. -/
def clientPortMmap (i : Client) : List (ClientPointer × UInt32) :=
  let base := i.base
  [((.stm14, .first), base + 0x400), ((.stm14, .second), 0x10000000 + base + 0x400),
    ((.stm16, .first), base + 0x800), ((.stm16, .second), 0x10000000 + base + 0x800),
    ((.gemac, .first), base + 0x1000), ((.gemac, .first), 0x10000000 + base + 0x1000),
    ((.generalCtrl, .first), base + 0x1440), ((.generalCtrl, .second), 0x10000000 + base + 0x1440),
    ((.generalSts, .first), base + 0x1444), ((.generalSts, .second), 0x10000000 + base + 0x1444),
    ((.resetCtrl, .first), base + 0x1448), ((.resetCtrl, .second), 0x10000000 + base + 0x1448),
    ((.gepcs, .first), base + 0x1000), ((.gepcs, .second), 0x10000000 + base + 0x1000),
    ((.liveStatus, .first), base + 0x2020), ((.liveStatus, .second), 0x10000000 + base + 0x2020),
    ((.intStatus, .first), base + 0x2068), ((.intStatus, .second), 0x10000000 + base + 0x2068),
    ((.uncorrCw, .first), base + 0x206C), ((.uncorrCw, .second), 0x10000000 + base + 0x206C),
    ((.fecCorrBits, .first), base + 0x2070), ((.fecCorrBits, .second), 0x10000000 + base + 0x2070),
    ((.smBip8, .first), base + 0x2074), ((.smBip8, .second), 0x10000000 + base + 0x2074),
    ((.odtuCtrl, .first), base), ((.odtuCtrl, .second), 0x10000000 + base),
    ((.odtuSts, .first), base + 0x04), ((.odtuSts, .second), 0x10000000 + base + 0x04),
    ((.alsCtrl, .first), base + 0x44), ((.alsCtrl, .second), 0x10000000 + base + 0x44)]

/-- The registers that are accessed through the map of a client. -/
inductive ClientRegister
  | stm14 (f : Fpga) (r : StmRegister)
  | stm16 (f : Fpga) (r : StmRegister)
  | gemac (f : Fpga) (r : GeMacRegister)
  | generalSts (f : Fpga)
  | resetCtrl (f : Fpga)
  | gepcs (f : Fpga) (r : GePcsRegister)
  | liveStatus (f : Fpga)
  | intStatus (f : Fpga)
  | odtuCtrl (f : Fpga)
  | alsCtrl (f : Fpga)
  deriving DecidableEq, Repr

/-- The pointer that a register is accessed through, and the offset. -/
def ClientRegister.path : ClientRegister → ClientPointer × UInt32
  | stm14 f r => ((.stm14, f), r.offset)
  | stm16 f r => ((.stm16, f), r.offset)
  | gemac f r => ((.gemac, f), r.offset)
  | generalSts f => ((.generalSts, f), 0)
  | resetCtrl f => ((.resetCtrl, f), 0)
  | gepcs f r => ((.gepcs, f), r.offset)
  | liveStatus f => ((.liveStatus, f), 0)
  | intStatus f => ((.intStatus, f), 0)
  | odtuCtrl f => ((.odtuCtrl, f), 0)
  | alsCtrl f => ((.alsCtrl, f), 0)

/-! ### The registers of a line -/

/-- `otu2_brick_1` and `otu2_brick_2`. -/
inductive Otu2Brick
  | one
  | two
  deriving DecidableEq, Repr

/-- The registers of a brick that are accessed: one of its top level, and those of its framer. -/
inductive BrickRegister
  | liGenCtrl
  | liveSts
  | rxExpStsPt
  | otu2Sts
  | smBip8Errors
  | fecCorrBits
  | uncorrected
  | fecBitErrors
  deriving DecidableEq, Repr

/-- Their offsets. -/
def BrickRegister.offset : BrickRegister → UInt32
  | liGenCtrl => 0x08
  | liveSts => 0x100
  | rxExpStsPt => 0x124
  | otu2Sts => 0x128
  | smBip8Errors => 0x12C
  | fecCorrBits => 0x130
  | uncorrected => 0x134
  | fecBitErrors => 0x138

/-- The assignments of `line_port_mmap`. -/
def linePortMmap (i : Fin INTERFACE_COUNT) : List (Otu2Brick × UInt32) :=
  let lnIndex := UInt32.ofNat i.val - LN_INDEX_OFFSET
  if lnIndex = LN_INDEX_START then [(.one, ODUK_MPIF_BRICK_0_BASE + 0x40000)]
  else if lnIndex = LN_INDEX_END then [(.two, 0x10000000 + ODUK_MPIF_BRICK_0_BASE + 0x40000)]
  else []

/-! ### Accesses -/

/-- The client that an interface is, if it is one. -/
def asClient (i : Fin INTERFACE_COUNT) : Option Client :=
  if h : i.val < 16 then some ⟨i.val, h⟩ else none

/-- The register of an interface that is accessed: through its map, taken for that of a client or a
line, or through the address that its ALS module holds. -/
inductive MappedRegister
  | client (r : ClientRegister)
  | line (b : Otu2Brick) (r : BrickRegister)
  | als
  deriving DecidableEq, Repr

/-- The address that `init_als_module` assigns. -/
def initAlsModule (i : Fin INTERFACE_COUNT) : Option UInt32 :=
  (asClient i).bind fun c => latest (.alsCtrl, c.fpga) (clientPortMmap c)

/-- The address behind a pointer that has been assigned, with the type it is used with. -/
def registerAddress (owner : Fin INTERFACE_COUNT) : MappedRegister → Option UInt32
  | .client r =>
      (asClient owner).bind fun c => (latest r.path.1 (clientPortMmap c)).map fun base =>
        (base + r.path.2) ||| DE_CACHE_EN_BIT
  | .line b r =>
      if (asClient owner).isSome then none
      else (latest b (linePortMmap owner)).map fun base => (base + r.offset) ||| DE_CACHE_EN_BIT
  | .als => (initAlsModule owner).map fun address => address ||| DE_CACHE_EN_BIT

/-- A register, and the interface whose map it is taken from. -/
structure RegisterAccess where
  owner : Fin INTERFACE_COUNT
  register : MappedRegister
  deriving DecidableEq, Repr

/-- The address of an access. -/
def RegisterAccess.address (a : RegisterAccess) : Option UInt32 :=
  registerAddress a.owner a.register

/-- `CL_MMAP(i)`. -/
def clMmap (i : Fin INTERFACE_COUNT) (r : ClientRegister) : RegisterAccess := ⟨i, .client r⟩

instance neZero_lines : NeZero 2 := ⟨by decide⟩

/-- The interface of a line. -/
def lnOwner (x : Fin 2) : Fin INTERFACE_COUNT :=
  ⟨x.val + 16, Nat.add_lt_add_right x.isLt 16⟩

/-- `LN_MMAP(x)`. -/
def lnMmap (x : Fin 2) (b : Otu2Brick) (r : BrickRegister) : RegisterAccess :=
  ⟨lnOwner x, .line b r⟩

/-! ### The operations -/

/-- `update_port_ethernet_stats`. -/
def ethernetStats (i : Fin INTERFACE_COUNT) : List RegisterAccess :=
  (asClient i).elim [] fun c =>
    [ClientRegister.generalSts c.fpga, .gemac c.fpga .rxFcsErr, .gemac c.fpga .txFrmOk,
      .gemac c.fpga .rxFrmOk, .gemac c.fpga .rxFcsErr, .gemac c.fpga .txOctOk,
      .gemac c.fpga .rxOctOk].map (clMmap i)

/-- `update_port_otux_stats`. -/
def otuxStats (i : Fin INTERFACE_COUNT) : List RegisterAccess :=
  let framer : List BrickRegister :=
    [.otu2Sts, .liveSts, .liveSts, .otu2Sts, .otu2Sts, .smBip8Errors, .liveSts, .rxExpStsPt,
      .rxExpStsPt, .liveSts, .liveSts, .liveSts]
  match asClient i with
  | some c =>
      [ClientRegister.liveStatus c.fpga, .liveStatus c.fpga, .liveStatus c.fpga,
        .liveStatus c.fpga, .intStatus c.fpga, .liveStatus c.fpga].map (clMmap i)
  | none =>
      if UInt32.ofNat i.val = LN_INDEX_START then framer.map (lnMmap 0 .one)
      else if UInt32.ofNat i.val = LN_INDEX_END then framer.map (lnMmap 1 .two)
      else []

/-- `update_port_stmx_stats`. -/
def stmxStats (i : Fin INTERFACE_COUNT) (prot rate : UInt32) : List RegisterAccess :=
  (asClient i).elim [] fun c =>
    if prot = PORT_PROTOCOL_SDH then
      let stmx := if rate = PORT_RATE_STM16 then ClientRegister.stm16 c.fpga
        else ClientRegister.stm14 c.fpga
      [stmx .liveStatus, stmx .b1Err, stmx .liveStatus, stmx .liveStatus, stmx .b1Err].map
        (clMmap i)
    else []

/-- `update_port_fec_stats`. The second line reads one register of the brick of the first. -/
def fecStats (i : Fin INTERFACE_COUNT) (rate : UInt32) : List RegisterAccess :=
  if rate = PORT_RATE_OTU2 ∧ asClient i = none then
    if UInt32.ofNat i.val = LN_INDEX_START then
      [lnMmap 0 .one .fecCorrBits, lnMmap 0 .one .uncorrected, lnMmap 0 .one .fecBitErrors]
    else if UInt32.ofNat i.val = LN_INDEX_END then
      [lnMmap 1 .two .fecCorrBits, lnMmap 1 .two .uncorrected, lnMmap 1 .one .fecBitErrors]
    else []
  else []

/-- `update_if_dynamic_data`, behind what it reads of the transceiver and the rate. -/
def updateDynamicData (i : Fin INTERFACE_COUNT) (present : Bool) (prot rate : UInt32)
    (fecCapable : Bool) : List RegisterAccess :=
  (if present then
    if prot = PORT_PROTOCOL_ETHERNET then ethernetStats i
    else if prot = PORT_PROTOCOL_OTU then otuxStats i
    else if prot = PORT_PROTOCOL_SONET ∨ prot = PORT_PROTOCOL_SDH then stmxStats i prot rate
    else []
  else []) ++ if fecCapable then fecStats i rate else []

/-- `init_ge_pcs_ol`. -/
def initGePcsOl : List GePcsRegister :=
  [.ctrl, .linkTimer1, .linkTimer2, .ifMode, .devAbility, .ctrl, .ctrl]

/-- `init_ge_mac_ol`. -/
def initGeMacOl : List GeMacRegister :=
  [.mac0, .mac1, .commandConfig, .maxPktLength, .txSectionEmpty, .rxSectionEmpty, .txSectionFull,
    .pauseQuant, .txIpgLength, .transmitCommand, .rxSectionFull, .rxAlmostEmpty, .rxAlmostFull,
    .txAlmostEmpty, .txAlmostFull, .commandConfig, .commandConfig]

/-- What a step of `set_if_port_rate` or `set_if_port_loopback` accesses of a client's map. -/
def PortOp.registers : PortOp → List ClientRegister
  | .write (.resetGxb f _) _ | .write (.rxSerialLbEn f _) _ => [.odtuCtrl f]
  | .write (.rxSectionFull f _) _ => [.gemac f .rxSectionFull]
  | .write (.commandConfig f _) _ => [.gemac f .commandConfig]
  | .write (.transmitCommand f _) _ => [.gemac f .transmitCommand]
  | .write (.gfpRst f _) _ => [.resetCtrl f]
  | .initGePcs f _ => initGePcsOl.map (.gepcs f)
  | .initGeMac f _ => initGeMacOl.map (.gemac f)
  | _ => []

/-- `set_if_port_loopback`. -/
def setLoopback (i : Fin INTERFACE_COUNT) (port : RatePort) (mode : UInt32) :
    List RegisterAccess :=
  match asClient i with
  | some c =>
      (setIfPortLoopbackOps c port mode).flatMap fun op => op.registers.map (clMmap i)
  | none =>
      if mode = MODE_LB_NORMAL ∨ mode = MODE_LB_LN then
        if UInt32.ofNat i.val - LN_INDEX_START = 0 then [lnMmap 0 .one .liGenCtrl]
        else if UInt32.ofNat i.val - LN_INDEX_START = 1 then [lnMmap 1 .two .liGenCtrl]
        else []
      else []

/-- `ALS_CONTROL_DISABLED`. -/
def ALS_CONTROL_DISABLED : UInt32 := 0

/-- `set_port_als_mode`: a bit of the ALS module is set or cleared and read back, and the mode
written. -/
def setPortAlsMode (i : Fin INTERFACE_COUNT) (mode : UInt32) : List RegisterAccess :=
  [⟨i, .als⟩, ⟨i, .als⟩, ⟨i, .als⟩] ++
    if mode = ALS_CONTROL_DISABLED then []
    else (asClient i).elim [] fun c => [clMmap i (.alsCtrl c.fpga)]

/-- `callback_on_transceiver_plug_change`. -/
def plugChange (i : Fin INTERFACE_COUNT) (absent : Bool) : List RegisterAccess :=
  if absent then
    if i.val < 9 then [clMmap i (.gemac .first .commandConfig)]
    else [clMmap i (.gemac .second .commandConfig)]
  else []

/-- The operations on an interface, with what they find. -/
inductive InterfaceOp
  | updateDynamicData (present : Bool) (prot rate : UInt32) (fecCapable : Bool)
  | setIfPortRate (port : RatePort)
  | setIfPortLoopback (port : RatePort) (mode : UInt32)
  | setPortAlsMode (mode : UInt32)
  | plugChange (absent : Bool)
  deriving DecidableEq, Repr

/-- What an operation accesses. -/
def InterfaceOp.accesses (i : Fin INTERFACE_COUNT) : InterfaceOp → List RegisterAccess
  | .updateDynamicData present prot rate fecCapable =>
      Muxponder.updateDynamicData i present prot rate fecCapable
  | .setIfPortRate port =>
      (asClient i).elim [] fun c =>
        (setIfPortRateOps c port).2.flatMap fun op => op.registers.map (clMmap i)
  | .setIfPortLoopback port mode => setLoopback i port mode
  | .setPortAlsMode mode => Muxponder.setPortAlsMode i mode
  | .plugChange absent => Muxponder.plugChange i absent

/-! ### Ownership -/

/-- A rate that makes a port an Ethernet port. -/
def IsEthernetRate (rate : UInt32) : Prop := rate = PORT_RATE_GE ∨ rate = PORT_RATE_FE

instance (rate : UInt32) : Decidable (IsEthernetRate rate) := inferInstanceAs (Decidable (_ ∨ _))

/-- A client whose control register is not one of the card. -/
def Client.Apart (c : Client) : Prop := c ≠ 0 ∧ c ≠ 9

/-- What an operation on a client must not come to: its Ethernet MAC, and a control register that is
one of the card. -/
def InterfaceOp.SparesClient (c : Client) : InterfaceOp → Prop
  | .updateDynamicData present prot _ _ => ¬ (present = true ∧ prot = PORT_PROTOCOL_ETHERNET)
  | .setIfPortRate port => port.Active → c.Apart ∧ ¬ IsEthernetRate port.next
  | .setIfPortLoopback port mode =>
      mode = MODE_LB_NORMAL ∨ mode = MODE_LB_CL ∨ mode = MODE_LB_LN →
        c.Apart ∧ (c.fpga = .first ∨ mode = MODE_LB_CL → port.Active → ¬ IsEthernetRate port.next)
  | .setPortAlsMode _ => True
  | .plugChange absent => absent = true → c = 8

/-- What an operation on a line must not come to: any register. -/
def InterfaceOp.SparesLine : InterfaceOp → Prop
  | .updateDynamicData present prot rate fecCapable =>
      ¬ (present = true ∧ prot = PORT_PROTOCOL_OTU) ∧
        ¬ (fecCapable = true ∧ rate = PORT_RATE_OTU2)
  | .setIfPortRate _ => True
  | .setIfPortLoopback _ mode => mode ≠ MODE_LB_NORMAL ∧ mode ≠ MODE_LB_LN
  | .setPortAlsMode _ => False
  | .plugChange absent => absent = false

/-- The condition. -/
def InterfaceOp.Spares (i : Fin INTERFACE_COUNT) (op : InterfaceOp) : Prop :=
  match asClient i with
  | some c => op.SparesClient c
  | none => op.SparesLine

variable {i : Fin INTERFACE_COUNT} {c : Client} {r : ClientRegister} {a : RegisterAccess}
  {op : PortOp} {port : RatePort} {mode rate prot : UInt32}

/-! ### The registers of a client -/

/-- The FPGA of a register. -/
def ClientRegister.fpga : ClientRegister → Fpga
  | stm14 f _ | stm16 f _ | gemac f _ | generalSts f | resetCtrl f | gepcs f _ | liveStatus f
  | intStatus f | odtuCtrl f | alsCtrl f => f

end Muxponder
