import Mathlib.Algebra.GroupWithZero.Nat
import Mathlib.Logic.Function.Basic
import Muxponder.Prot2Processor

/-!
# The IPGLB2 Request Handlers

What a PROT2 request does (`ipglb_protocol_2.c`, with the card's part in `main.c`).
`handle_common` checks the checksum, starts the reply and calls the handler of the
function byte; the handler decodes the command byte once more, reads its arguments at
fixed places of the request, copies them into the reply, and performs at most one register
or I2C access.

The registers and the devices on the I2C busses answer as a `Hardware` says, and the
accesses are collected in the outcome: an I2C access is the call of a device's driver with
its arguments. The build with `KURS_PROTOCOL` defined has the five handlers below.

Two pieces of memory stand for the pointers of the source. A request is one of the
processor's receive buffers, and a handler reads below index 15 of it. A reply is written
at `ptr`, which stays far inside the `IPGLB2_MAX_BUFFER` bytes of `tx_buff`.
-/

namespace Muxponder

/-! ### Replies and requests -/

/-- `ret_code_t`. -/
inductive RetCode
  | success
  | fail
  | crcMismatch
  | funcMismatch
  | cmdMismatch
  | argMismatch
  | timeout
  | invalidParams
  | unknownDevice
  | ioFail
  | busy
  | absent
  | invCmd
  deriving DecidableEq, Repr

/-- The bit of an accepted request. -/
def OPCODE_ACK : UInt8 := 0

/-- The byte of a request at an index. -/
def Prot2Buffer.byte (request : Prot2Buffer) (i : ℕ) : UInt8 := request.toList.getD i 0

/-- A request with one byte replaced. -/
def Prot2Buffer.withByte (request : Prot2Buffer) (i : ℕ) (c : UInt8) : Prot2Buffer :=
  request.setIfInBounds i c

theorem Prot2Buffer.byte_withByte_self {request : Prot2Buffer} {i : ℕ} {c : UInt8}
    (h : i < IPGLB2_MAX_BUFFER) : (request.withByte i c).byte i = c := by
  simp [byte, withByte, h]

theorem Prot2Buffer.byte_withByte_of_ne {request : Prot2Buffer} {i j : ℕ} {c : UInt8}
    (h : j ≠ i) : (request.withByte i c).byte j = request.byte j := by
  simp [byte, withByte, h.symm]

/-- A request buffer that holds the given bytes, and zeros behind them. -/
def Prot2Buffer.ofBytes (w : List UInt8) : Prot2Buffer := Vector.ofFn fun i => w.getD i 0

/-- The bytes of such a buffer. -/
theorem Prot2Buffer.byte_ofBytes {w : List UInt8} {i : ℕ} (hi : i < IPGLB2_MAX_BUFFER) :
    (Prot2Buffer.ofBytes w).byte i = w.getD i 0 := by
  simp [Prot2Buffer.ofBytes, Prot2Buffer.byte, hi]

/-- The two bytes from an index on, the low one first. -/
def Prot2Buffer.word16 (request : Prot2Buffer) (i : ℕ) : UInt16 :=
  (request.byte (i + 1)).toUInt16 <<< 8 ||| (request.byte i).toUInt16

/-- The four bytes from an index on, put together from `msb` and `lsb`. -/
def Prot2Buffer.word32 (request : Prot2Buffer) (i : ℕ) : UInt32 :=
  (request.word16 (i + 2)).toUInt32 <<< 16 ||| (request.word16 i).toUInt32

/-- A reply under construction: `reply` and `*reply_ptr`. -/
@[ext] structure Prot2Reply where
  buff : ℕ → UInt8
  ptr : ℕ

namespace Prot2Reply

/-- The zeroed `tx_buff` of `ipglb_prot2_service`. -/
def empty : Prot2Reply := ⟨fun _ => 0, 0⟩

/-- `reply[i] = c`. -/
def setByte (r : Prot2Reply) (i : ℕ) (c : UInt8) : Prot2Reply :=
  { r with buff := Function.update r.buff i c }

/-- `reply[(*reply_ptr)++] = c`. -/
def push (r : Prot2Reply) (c : UInt8) : Prot2Reply :=
  ⟨Function.update r.buff r.ptr c, r.ptr + 1⟩

/-- `memcpy(&reply[(*reply_ptr)], src, n)`. -/
def copy (r : Prot2Reply) (src : ℕ → UInt8) (n : ℕ) : Prot2Reply :=
  { r with buff := fun i => if r.ptr ≤ i ∧ i < r.ptr + n then src (i - r.ptr) else r.buff i }

/-- `(*reply_ptr) += n`. -/
def advance (r : Prot2Reply) (n : ℕ) : Prot2Reply := { r with ptr := r.ptr + n }

/-- Echo `n` bytes of the request, from an index on. -/
def echo (r : Prot2Reply) (request : Prot2Buffer) (start n : ℕ) : Prot2Reply :=
  (r.copy (fun i => request.byte (start + i)) n).advance n

end Prot2Reply

/-- `uart_calculate_crc`: the exclusive or of all bytes of a packet but the last. -/
def uartCalculateCrc (buff : ℕ → UInt8) : UInt8 :=
  (List.range ((buff 0).toNat - 1)).foldl (fun crc i => crc ^^^ buff i) 0

/-- `uart_crc_ok`. -/
def uartCrcOk (buff : ℕ → UInt8) : Bool :=
  uartCalculateCrc buff == buff ((buff 0).toNat - 1)

namespace Prot2Reply

/-- `reply[UART_PACKET_LENGTH_INDEX] = (*reply_ptr) + 1`. -/
def setLength (r : Prot2Reply) : Prot2Reply := r.setByte 0 (UInt8.ofNat (r.ptr + 1))

/-- `reply[(*reply_ptr)] = uart_calculate_crc(reply)`. -/
def setCrc (r : Prot2Reply) : Prot2Reply := r.setByte r.ptr (uartCalculateCrc r.buff)

/-- `reply[UART_PACKET_COMMAND_INDEX] |= bits`. -/
def orCommand (r : Prot2Reply) (bits : UInt8) : Prot2Reply := r.setByte 2 (r.buff 2 ||| bits)

variable {r : Prot2Reply} {i j n : ℕ} {c : UInt8} {request : Prot2Buffer}

@[simp] theorem setByte_ptr : (r.setByte i c).ptr = r.ptr := rfl

@[simp] theorem setByte_self : (r.setByte i c).buff i = c := Function.update_self ..

theorem setByte_of_ne (h : j ≠ i) : (r.setByte i c).buff j = r.buff j :=
  Function.update_of_ne h ..

@[simp] theorem push_ptr : (r.push c).ptr = r.ptr + 1 := rfl

@[simp] theorem push_self : (r.push c).buff r.ptr = c := Function.update_self ..

theorem push_of_ne (h : j ≠ r.ptr) : (r.push c).buff j = r.buff j :=
  Function.update_of_ne h ..

@[simp] theorem echo_ptr : (r.echo request i n).ptr = r.ptr + n := rfl

@[simp] theorem setLength_ptr : r.setLength.ptr = r.ptr := rfl

@[simp] theorem setLength_zero : r.setLength.buff 0 = UInt8.ofNat (r.ptr + 1) := setByte_self

theorem setLength_of_pos (h : 0 < j) : r.setLength.buff j = r.buff j :=
  setByte_of_ne h.ne'

@[simp] theorem setCrc_ptr : r.setCrc.ptr = r.ptr := rfl

theorem setCrc_of_ne (h : j ≠ r.ptr) : r.setCrc.buff j = r.buff j := setByte_of_ne h

@[simp] theorem orCommand_ptr : (r.orCommand c).ptr = r.ptr := rfl

theorem orCommand_of_ne (h : j ≠ 2) : (r.orCommand c).buff j = r.buff j := setByte_of_ne h

/-- Nothing is left of a request to acknowledge. -/
@[simp] theorem orCommand_ack : r.orCommand OPCODE_ACK = r := by
  simp [orCommand, setByte, OPCODE_ACK]

/-- An echoed byte stands as far behind the start of the echo as in the request. -/
theorem echo_of_lt (h : j < n) : (r.echo request i n).buff (r.ptr + j) = request.byte (i + j) := by
  simp [echo, copy, advance, h]

/-- An echo leaves what is in front of it. -/
theorem echo_of_lt_ptr (h : j < r.ptr) : (r.echo request i n).buff j = r.buff j := by
  have hnot : ¬ (r.ptr ≤ j ∧ j < r.ptr + n) := by omega
  simp [echo, copy, advance, hnot]

/-- An echo of no bytes changes nothing. -/
@[simp] theorem echo_nothing : r.echo request i 0 = r := by
  have hnone : ∀ k, ¬ (r.ptr ≤ k ∧ k < r.ptr) := fun k => by omega
  simp [echo, copy, advance, hnone]

/-- Two echoes of neighbouring bytes are one. -/
theorem echo_echo : (r.echo request i n).echo request (i + n) j = r.echo request i (n + j) := by
  have hbuff : ((r.echo request i n).echo request (i + n) j).buff =
      (r.echo request i (n + j)).buff := by
    funext k
    by_cases hfirst : k < r.ptr + n
    · rw [echo_of_lt_ptr hfirst]
      by_cases hbefore : k < r.ptr
      · rw [echo_of_lt_ptr hbefore, echo_of_lt_ptr hbefore]
      · obtain ⟨m, rfl⟩ := Nat.exists_eq_add_of_le (Nat.le_of_not_lt hbefore)
        rw [echo_of_lt (by omega), echo_of_lt (by omega)]
    · simp only [echo, copy, advance]
      by_cases hin : k < r.ptr + n + j
      · rw [if_pos ⟨by omega, hin⟩, if_pos ⟨by omega, by omega⟩]
        congr 1
        omega
      · rw [if_neg (by omega), if_neg (by omega), if_neg (by omega)]
  simp [Prot2Reply.ext_iff, hbuff, Nat.add_assoc]

end Prot2Reply

/-! ### The hardware -/

/-- `SDRAM_BASE`: a write here changes the type of a client port. -/
def SDRAM_BASE : UInt32 := 0x2000000

/-- `I2C_SILAB_DEVICE`. -/
def I2C_SILAB_DEVICE : UInt8 := 1

/-- `I2C_SFP_DEVICE`. -/
def I2C_SFP_DEVICE : UInt8 := 3

/-- `I2C_SFPP_DEVICE`. -/
def I2C_SFPP_DEVICE : UInt8 := 4

/-- The length of a software version. -/
def SW_NUM_LEN : ℕ := 33

/-- The device a driver is called for. -/
inductive I2cDevice
  | si5338 (index : UInt8)
  | si5375 (port : UInt8)
  | sfp (index msa : UInt8)
  | sfpp (index msa : UInt8)
  deriving DecidableEq, Repr

/-- What the handlers find outside the request: the registers, the counters of the card,
its software version, and the answers of the drivers. A driver that fails may leave the
value of a read alone. -/
structure Hardware where
  iord : UInt32 → UInt32 → UInt32
  systicks : UInt32
  sysUptime : UInt32
  counterOresArm : UInt32
  counterOresDvt : UInt32
  counterTmr0RunBit : UInt32
  swNumber : Vector UInt8 SW_NUM_LEN
  i2cRead : I2cDevice → UInt8 → RetCode × Option UInt8
  i2cWrite : I2cDevice → UInt8 → UInt8 → RetCode
  i2cConfig : I2cDevice → RetCode

/-- Hardware that reads as zero everywhere and whose drivers succeed. -/
def Hardware.idle : Hardware where
  iord _ _ := 0
  systicks := 0
  sysUptime := 0
  counterOresArm := 0
  counterOresDvt := 0
  counterTmr0RunBit := 0
  swNumber := Vector.replicate SW_NUM_LEN 0
  i2cRead _ _ := (.success, some 0)
  i2cWrite _ _ _ := .success
  i2cConfig _ := .success

/-- An access to the card: a register read or written, the rate of a client port changed,
or a driver called. -/
inductive Access
  | iord (base offset : UInt32)
  | iowr (base offset value : UInt32)
  | rateChange (client : Fin 4) (next : UInt8)
  | i2cRead (device : I2cDevice) (address : UInt8)
  | i2cWrite (device : I2cDevice) (address value : UInt8)
  | i2cConfig (device : I2cDevice)
  deriving DecidableEq, Repr

/-- What a handler returns and leaves behind. -/
structure Prot2Outcome where
  ret : RetCode
  reply : Prot2Reply
  accesses : List Access

/-- A handler, without the `COM` argument that none of them reads. -/
abbrev Handler := Hardware → Prot2Buffer → Prot2Reply → Prot2Outcome

/-! ### The memory-mapped registers -/

instance neZero_rateClients : NeZero 4 := ⟨by decide⟩

/-- The client whose port type an offset of `SDRAM_BASE` stands for. -/
def rateClient (offset : UInt32) : Option (Fin 4) :=
  if offset = 0x00 then some 0
  else if offset = 0x04 then some 1
  else if offset = 0x20 then some 2
  else if offset = 0x24 then some 3
  else none

/-- `handle_mem_wr`. -/
def handleMemWr (base offset value : UInt32) : RetCode × List Access :=
  if base = SDRAM_BASE then
    match rateClient offset with
    | some client => (.success, [.rateChange client (value &&& 0x0F).toUInt8])
    | none => (.success, [])
  else (.success, [.iowr base offset value])

/-- `handle_mem_rd`; the value is zero where no case sets it. -/
def handleMemRd (hw : Hardware) (base offset : UInt32) : RetCode × UInt32 × List Access :=
  if base = 0x8000000 then
    if offset = 0x00 then (.success, hw.systicks, [])
    else if offset = 0x01 then (.success, hw.sysUptime, [])
    else if offset = 0x02 then (.success, hw.counterOresArm, [])
    else if offset = 0x03 then (.success, hw.counterOresDvt, [])
    else if offset = 0x04 then (.success, hw.counterTmr0RunBit, [])
    else (.success, 0, [])
  else (.success, hw.iord base offset, [.iord base offset])

/-- `handle_mmap_func`. -/
def handleMmapFunc : Handler := fun hw request reply =>
  let base := request.word32 3
  let offset := request.word32 7
  let reply := reply.echo request 3 8
  if request.byte 2 = CMD_READ then
    let (_, value, accesses) := handleMemRd hw base offset
    let reply := (((reply.push value.toUInt8).push (value >>> 8).toUInt8).push
      (value >>> 16).toUInt8).push (value >>> 24).toUInt8
    ⟨.success, reply.setLength.setCrc, accesses⟩
  else if request.byte 2 = CMD_WRITE then
    let (_, accesses) := handleMemWr base offset (request.word32 11)
    ⟨.success, reply.setLength.setCrc, accesses⟩
  else ⟨.success, reply.setLength.setCrc, []⟩

/-! ### The I2C busses -/

/-- The clock generator with an index: six SI-5338 and six SI-5375 with four ports. -/
def silab (index : UInt8) : Option I2cDevice :=
  if index < 6 then some (.si5338 index)
  else if index < 30 then some (.si5375 (index - 6))
  else none

/-- `handle_i2c_wr`. -/
def handleI2cWr (deviceId : UInt8) : Handler := fun hw request reply =>
  let index := request.byte 4
  let reply := reply.echo request 4 1
  if deviceId = I2C_SILAB_DEVICE then
    let address := request.byte 5
    let value := request.byte 6
    let reply := reply.echo request 5 1
    match silab index with
    | some device => ⟨hw.i2cWrite device address value, reply, [.i2cWrite device address value]⟩
    | none => ⟨.unknownDevice, reply, []⟩
  else if deviceId = I2C_SFPP_DEVICE then
    let device := I2cDevice.sfpp index (request.byte 5)
    let address := request.byte 6
    let value := request.byte 7
    let reply := reply.echo request 5 2
    ⟨hw.i2cWrite device address value, reply, [.i2cWrite device address value]⟩
  else if deviceId = I2C_SFP_DEVICE then
    let device := I2cDevice.sfp index (request.byte 5)
    let address := request.byte 6
    let value := request.byte 7
    let reply := reply.echo request 5 2
    ⟨hw.i2cWrite device address value, reply, [.i2cWrite device address value]⟩
  else ⟨.unknownDevice, reply, []⟩

/-- `handle_i2c_rd`, with the value it leaves in `i2c_value`. -/
def handleI2cRd (deviceId : UInt8) (hw : Hardware) (request : Prot2Buffer)
    (reply : Prot2Reply) : Prot2Outcome × UInt8 :=
  let index := request.byte 4
  let reply := reply.echo request 4 1
  if deviceId = I2C_SILAB_DEVICE then
    let address := request.byte 5
    let reply := reply.echo request 5 1
    match silab index with
    | some device =>
        (⟨(hw.i2cRead device address).1, reply, [.i2cRead device address]⟩,
          (hw.i2cRead device address).2.getD 0)
    | none => (⟨.unknownDevice, reply, []⟩, 0)
  else if deviceId = I2C_SFPP_DEVICE then
    let device := I2cDevice.sfpp index (request.byte 5)
    let address := request.byte 6
    let reply := reply.echo request 5 2
    (⟨(hw.i2cRead device address).1, reply, [.i2cRead device address]⟩,
      (hw.i2cRead device address).2.getD 0)
  else if deviceId = I2C_SFP_DEVICE then
    let device := I2cDevice.sfp index (request.byte 5)
    let address := request.byte 6
    let reply := reply.echo request 5 2
    (⟨(hw.i2cRead device address).1, reply, [.i2cRead device address]⟩,
      (hw.i2cRead device address).2.getD 0)
  else (⟨.unknownDevice, reply, []⟩, 0)

/-- `handle_user_i2c_config`. -/
def handleUserI2cConfig (deviceId : UInt8) : Handler := fun hw request reply =>
  let index := request.byte 4
  let reply := reply.echo request 4 1
  if deviceId = I2C_SILAB_DEVICE then
    let reply := reply.echo request 5 1
    match silab index with
    | some device => ⟨hw.i2cConfig device, reply, [.i2cConfig device]⟩
    | none => ⟨.unknownDevice, reply, []⟩
  else ⟨.unknownDevice, reply, []⟩

/-- `handle_i2c_func`; the checksum is left to `handle_common`. -/
def handleI2cFunc : Handler := fun hw request reply =>
  let deviceId := request.byte 3
  let reply := reply.echo request 3 1
  if request.byte 2 = CMD_READ then
    let (o, value) := handleI2cRd deviceId hw request reply
    { o with reply := (o.reply.push value).setLength }
  else if request.byte 2 = CMD_WRITE then
    let o := handleI2cWr deviceId hw request reply
    { o with reply := o.reply.setLength }
  else if request.byte 2 = CMD_CONFIG then
    let o := handleUserI2cConfig deviceId hw request reply
    { o with reply := o.reply.setLength }
  else ⟨.success, reply.setLength, []⟩

/-! ### The other handlers -/

/-- `handle_mdio_rd`: the card has no MDIO device. -/
def handleMdioRd (_deviceId _deviceIndex _phyAddress _deviceAddress : UInt8)
    (_offset : UInt16) : RetCode × UInt16 := (.unknownDevice, 0)

/-- `handle_mdio_wr`. -/
def handleMdioWr (_deviceId _deviceIndex _phyAddress _deviceAddress : UInt8)
    (_offset _value : UInt16) : RetCode := .unknownDevice

/-- `handle_mdio_func`. -/
def handleMdioFunc : Handler := fun _ request reply =>
  let deviceId := request.byte 3
  let deviceIndex := request.byte 4
  let registerAddress := request.word16 5
  let deviceAddress := request.byte 7
  let phyAddress := request.byte 8
  let reply := reply.echo request 3 6
  if request.byte 2 = CMD_READ then
    let (ret, value) :=
      handleMdioRd deviceId deviceIndex phyAddress deviceAddress registerAddress
    ⟨ret, ((reply.push value.toUInt8).push (value >>> 8).toUInt8).setLength, []⟩
  else if request.byte 2 = CMD_WRITE then
    let ret := handleMdioWr deviceId deviceIndex phyAddress deviceAddress registerAddress
      (request.word16 9)
    ⟨ret, reply.setLength, []⟩
  else ⟨.success, reply.setLength, []⟩

/-- `handle_fw_rev_func`: of the `SW_NUM_LEN` bytes copied the last is overwritten. -/
def handleFwRevFunc : Handler := fun hw _ reply =>
  let reply := reply.orCommand OPCODE_ACK
  let reply := (reply.copy (fun i => hw.swNumber.toList.getD i 0) SW_NUM_LEN).advance 32
  ⟨.success, reply.setLength.setCrc, []⟩

/-- `handle_ping_func`. -/
def handlePingFunc : Handler := fun _ _ reply =>
  ⟨.success, (reply.orCommand OPCODE_ACK).setLength.setCrc, []⟩

/-- `assign_function_handlers`. -/
def handlers (function : UInt8) : Option Handler :=
  if function = 0x00 then some handleMmapFunc
  else if function = 0x01 then some handleI2cFunc
  else if function = 0x03 then some handleMdioFunc
  else if function = 0x0E then some handleFwRevFunc
  else if function = 0x0F then some handlePingFunc
  else none

/-- The command byte of the reply; the `switch` of `handle_common` has no default. -/
def replyCommand (command : UInt8) : Option UInt8 :=
  if command &&& 0x7F = CMD_READ then some CMD_WRITE
  else if command &&& 0x7F = CMD_WRITE then some CMD_READ
  else if command &&& 0x7F = CMD_CONFIG then some CMD_CONFIG
  else none

/-- The length field to be filled in, the function and the command. -/
def replyHeader (request : Prot2Buffer) (reply : Prot2Reply) : Prot2Reply :=
  let reply := (reply.push 0).push (request.byte 1)
  match replyCommand (request.byte 2) with
  | some command => reply.push command
  | none => reply

/-- The handler of the function byte, or a failure. -/
def dispatch : Handler := fun hw request reply =>
  match handlers (request.byte 1) with
  | some handler => handler hw request reply
  | none => ⟨.fail, reply, []⟩

/-- `handle_common`. -/
def handleCommon : Handler := fun hw request reply =>
  if uartCrcOk request.byte then
    let o := dispatch hw request (replyHeader request reply)
    let reply := if o.ret ≠ .success then o.reply.orCommand OPCODE_NACK else o.reply
    { o with reply := reply.setCrc }
  else ⟨.crcMismatch, reply, []⟩

/-- What `ipglb_prot2_service` sends of an outcome: as many bytes as the length field says. -/
def Prot2Outcome.sent (o : Prot2Outcome) : List UInt8 :=
  if o.ret = .crcMismatch then [] else (List.range (o.reply.buff 0).toNat).map o.reply.buff

/-! ### The I2C functions in one piece -/

/-- The bytes that address a register of an I2C device, behind the device's index. -/
def addressBytes (deviceId : UInt8) : ℕ :=
  if deviceId = I2C_SILAB_DEVICE then 1
  else if deviceId = I2C_SFPP_DEVICE then 2
  else if deviceId = I2C_SFP_DEVICE then 2
  else 0

/-- The device and the register a request reads or writes. -/
def i2cTarget (request : Prot2Buffer) : Option (I2cDevice × UInt8) :=
  if request.byte 3 = I2C_SILAB_DEVICE then
    (silab (request.byte 4)).map fun device => (device, request.byte 5)
  else if request.byte 3 = I2C_SFPP_DEVICE then
    some (.sfpp (request.byte 4) (request.byte 5), request.byte 6)
  else if request.byte 3 = I2C_SFP_DEVICE then
    some (.sfp (request.byte 4) (request.byte 5), request.byte 6)
  else none

/-- The device a request configures. -/
def configTarget (request : Prot2Buffer) : Option I2cDevice :=
  if request.byte 3 = I2C_SILAB_DEVICE then silab (request.byte 4) else none

section

variable {hw : Hardware} {request : Prot2Buffer} {reply : Prot2Reply}

/-- The index of a device and the bytes behind it are echoed together. -/
theorem echo_index_echo (j : ℕ) :
    (reply.echo request 4 1).echo request 5 j = reply.echo request 4 (1 + j) :=
  Prot2Reply.echo_echo

/-- A read echoes the address and calls the driver of the device, if there is one. -/
theorem handleI2cRd_eq :
    handleI2cRd (request.byte 3) hw request reply =
      match i2cTarget request with
      | some (device, address) =>
          (⟨(hw.i2cRead device address).1,
            reply.echo request 4 (1 + addressBytes (request.byte 3)),
            [.i2cRead device address]⟩, (hw.i2cRead device address).2.getD 0)
      | none =>
          (⟨.unknownDevice, reply.echo request 4 (1 + addressBytes (request.byte 3)), []⟩, 0) := by
  simp only [handleI2cRd, i2cTarget, addressBytes, echo_index_echo]
  by_cases hsilab : request.byte 3 = I2C_SILAB_DEVICE
  · simp only [if_pos hsilab]
    cases silab (request.byte 4) with
    | some device => rfl
    | none => rfl
  · by_cases hsfpp : request.byte 3 = I2C_SFPP_DEVICE
    · simp only [if_neg hsilab, if_pos hsfpp]
    · by_cases hsfp : request.byte 3 = I2C_SFP_DEVICE
      · simp only [if_neg hsilab, if_neg hsfpp, if_pos hsfp]
      · simp only [if_neg hsilab, if_neg hsfpp, if_neg hsfp, Nat.add_zero]

/-- A write takes the value from behind the address. -/
theorem handleI2cWr_eq :
    handleI2cWr (request.byte 3) hw request reply =
      match i2cTarget request with
      | some (device, address) =>
          ⟨hw.i2cWrite device address (request.byte (5 + addressBytes (request.byte 3))),
            reply.echo request 4 (1 + addressBytes (request.byte 3)),
            [.i2cWrite device address (request.byte (5 + addressBytes (request.byte 3)))]⟩
      | none =>
          ⟨.unknownDevice, reply.echo request 4 (1 + addressBytes (request.byte 3)), []⟩ := by
  simp only [handleI2cWr, i2cTarget, addressBytes, echo_index_echo]
  by_cases hsilab : request.byte 3 = I2C_SILAB_DEVICE
  · simp only [if_pos hsilab]
    cases silab (request.byte 4) with
    | some device => rfl
    | none => rfl
  · by_cases hsfpp : request.byte 3 = I2C_SFPP_DEVICE
    · simp only [if_neg hsilab, if_pos hsfpp]
    · by_cases hsfp : request.byte 3 = I2C_SFP_DEVICE
      · simp only [if_neg hsilab, if_neg hsfpp, if_pos hsfp]
      · simp only [if_neg hsilab, if_neg hsfpp, if_neg hsfp, Nat.add_zero]

/-- The bytes a configuration takes behind the device's index. -/
def configBytes (deviceId : UInt8) : ℕ := if deviceId = I2C_SILAB_DEVICE then 1 else 0

/-- Only clock generators can be configured. -/
theorem handleUserI2cConfig_eq :
    handleUserI2cConfig (request.byte 3) hw request reply =
      match configTarget request with
      | some device =>
          ⟨hw.i2cConfig device, reply.echo request 4 (1 + configBytes (request.byte 3)),
            [.i2cConfig device]⟩
      | none =>
          ⟨.unknownDevice, reply.echo request 4 (1 + configBytes (request.byte 3)), []⟩ := by
  simp only [handleUserI2cConfig, configTarget, configBytes, echo_index_echo]
  by_cases hsilab : request.byte 3 = I2C_SILAB_DEVICE
  · simp only [if_pos hsilab]
  · simp only [if_neg hsilab, Nat.add_zero]

/-- The device and the bytes behind it are echoed together. -/
theorem echo_device_echo (j : ℕ) :
    (reply.echo request 3 1).echo request 4 j = reply.echo request 3 (1 + j) :=
  Prot2Reply.echo_echo

/-- `handle_i2c_func` on a read. -/
theorem handleI2cFunc_read (h : request.byte 2 = CMD_READ) :
    handleI2cFunc hw request reply =
      let echoed := reply.echo request 3 (2 + addressBytes (request.byte 3))
      match i2cTarget request with
      | some (device, address) =>
          ⟨(hw.i2cRead device address).1,
            (echoed.push ((hw.i2cRead device address).2.getD 0)).setLength,
            [.i2cRead device address]⟩
      | none => ⟨.unknownDevice, (echoed.push 0).setLength, []⟩ := by
  simp only [handleI2cFunc, if_pos h, handleI2cRd_eq, echo_device_echo, ← Nat.add_assoc]
  cases i2cTarget request with
  | some target => rfl
  | none => rfl

/-- `handle_i2c_func` on a write. -/
theorem handleI2cFunc_write (h : request.byte 2 = CMD_WRITE) :
    handleI2cFunc hw request reply =
      let echoed := reply.echo request 3 (2 + addressBytes (request.byte 3))
      let value := request.byte (5 + addressBytes (request.byte 3))
      match i2cTarget request with
      | some (device, address) =>
          ⟨hw.i2cWrite device address value, echoed.setLength,
            [.i2cWrite device address value]⟩
      | none => ⟨.unknownDevice, echoed.setLength, []⟩ := by
  have hread : ¬ request.byte 2 = CMD_READ := by rw [h]; decide
  simp only [handleI2cFunc, if_neg hread, if_pos h, handleI2cWr_eq, echo_device_echo,
    ← Nat.add_assoc]
  cases i2cTarget request with
  | some target => rfl
  | none => rfl

/-- `handle_i2c_func` on a configuration. -/
theorem handleI2cFunc_config (h : request.byte 2 = CMD_CONFIG) :
    handleI2cFunc hw request reply =
      let echoed := reply.echo request 3 (2 + configBytes (request.byte 3))
      match configTarget request with
      | some device => ⟨hw.i2cConfig device, echoed.setLength, [.i2cConfig device]⟩
      | none => ⟨.unknownDevice, echoed.setLength, []⟩ := by
  have hread : ¬ request.byte 2 = CMD_READ := by rw [h]; decide
  have hwrite : ¬ request.byte 2 = CMD_WRITE := by rw [h]; decide
  simp only [handleI2cFunc, if_neg hread, if_neg hwrite, if_pos h, handleUserI2cConfig_eq,
    echo_device_echo, ← Nat.add_assoc]
  cases configTarget request with
  | some device => rfl
  | none => rfl

/-- `handle_i2c_func` on any other command byte. -/
theorem handleI2cFunc_other (hread : request.byte 2 ≠ CMD_READ)
    (hwrite : request.byte 2 ≠ CMD_WRITE) (hconfig : request.byte 2 ≠ CMD_CONFIG) :
    handleI2cFunc hw request reply =
      ⟨.success, (reply.echo request 3 1).setLength, []⟩ := by
  simp only [handleI2cFunc, if_neg hread, if_neg hwrite, if_neg hconfig]

end

end Muxponder
