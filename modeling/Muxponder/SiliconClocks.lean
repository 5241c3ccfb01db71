import Mathlib.Algebra.GroupWithZero.Nat
import Mathlib.Data.Fintype.Basic
import Muxponder.Lib.LastWrite

/-!
# The Silicon Clocks

Each client has a port of one of the SI5375 clock chips, and for each port of a chip the firmware
holds the table that the port is configured with: client `i` has port `i % 4` of chip `i / 4`.
The routines `switch_to_*` of `main.c` copy the table of a family of rates to a client and then
reprogram the chips.

The copy has a branch for each client, three of which differ for OTU1: the table of client 3 goes
to the port of client 2, and clients 7 and 12 are given the table of Ethernet. What follows the
copy is not told the chip: with the number of the client it disables and enables the steps of the
SI5338 outputs, and it configures that port of the first four chips. There are four such outputs
and four such ports.

## Main results

* `clocksIsolated_iff`: which part of what one expects of these routines holds of which calls.
-/

namespace Muxponder

open LastWrite

/-- The index of a client. -/
abbrev Client := Fin 16

instance neZero_clients : NeZero 16 := ⟨by decide⟩

/-! ### Tables and chips -/

/-- A table of registers and their values, `int [32][2]`. -/
abbrev ClockTable := Vector (UInt8 × UInt8) 32

/-- The configuration for STM-1, STM-4 and STM-16. -/
def si5375_155_52_155_52 : ClockTable :=
  #v[
    (0, 0x34), (2, 0xA6), (3, 0x05), (5, 0xED), (6, 0x0D), (8, 0x00), (10, 0x00), (11, 0x40),
    (19, 0x24), (20, 0x03), (21, 0x3F), (22, 0xDF), (23, 0x1C), (24, 0x3E), (25, 0xA0),
    (31, 0x00), (32, 0x00), (33, 0x03), (40, 0x00), (41, 0x02), (42, 0xBD), (43, 0x00),
    (44, 0x00), (45, 0x4D), (46, 0x00), (47, 0x00), (48, 0x00), (131, 0x1F), (132, 0x02),
    (138, 0x0F), (139, 0xFF), (136, 0x40)]

/-- The configuration for OTU1. -/
def si5375_155_52_166_62 : ClockTable :=
  #v[
    (0, 0x34), (2, 0xA6), (3, 0x05), (5, 0xED), (6, 0x0D), (8, 0x00), (10, 0x00), (11, 0x40),
    (19, 0x2F), (20, 0x03), (21, 0x3F), (22, 0xDF), (23, 0x1C), (24, 0x3E), (25, 0x20),
    (31, 0x00), (32, 0x00), (33, 0x05), (40, 0xA0), (41, 0x01), (42, 0x2B), (43, 0x00),
    (44, 0x00), (45, 0x53), (46, 0x00), (47, 0x00), (48, 0x00), (131, 0x1F), (132, 0x02),
    (138, 0x0F), (139, 0xFF), (136, 0x40)]

/-- The configuration for Ethernet. -/
def si5375_155_52_125 : ClockTable :=
  #v[
    (0, 0x34), (2, 0xA6), (3, 0x05), (5, 0xED), (6, 0x0D), (8, 0x00), (10, 0x00), (11, 0x40),
    (19, 0x24), (20, 0x03), (21, 0x3F), (22, 0xDF), (23, 0x1C), (24, 0x3E), (25, 0x60),
    (31, 0x00), (32, 0x00), (33, 0x05), (40, 0x20), (41, 0x22), (42, 0x2D), (43, 0x00),
    (44, 0x05), (45, 0x0F), (46, 0x00), (47, 0x00), (48, 0x00), (131, 0x1F), (132, 0x02),
    (138, 0x0F), (139, 0xFF), (136, 0x40)]

/-- The configuration for the fibre channel rates. -/
def si5375_155_52_106_25 : ClockTable :=
  #v[
    (0, 0x34), (2, 0x76), (3, 0x05), (5, 0xED), (6, 0x05), (8, 0x00), (10, 0x00), (11, 0x40),
    (19, 0x2C), (20, 0x03), (21, 0x3F), (22, 0xDF), (23, 0x1C), (24, 0x3E), (25, 0xA0),
    (31, 0x00), (32, 0x00), (33, 0x05), (40, 0x20), (41, 0x10), (42, 0x99), (43, 0x00),
    (44, 0x02), (45, 0x3F), (46, 0x00), (47, 0x00), (48, 0x00), (131, 0x1F), (132, 0x02),
    (138, 0x0F), (139, 0xFF), (136, 0x40)]

/-- The configuration that the chips of the buses 4 start with. -/
def si5375_cfg_167MHz_155_52MHz : ClockTable :=
  #v[
    (0, 0x34), (2, 0xA6), (3, 0x05), (5, 0xED), (6, 0x0D), (8, 0x00), (10, 0x00), (11, 0x40),
    (19, 0x2C), (20, 0x03), (21, 0x3F), (22, 0xDF), (23, 0x1C), (24, 0x3E), (25, 0xA0),
    (31, 0x00), (32, 0x00), (33, 0x03), (40, 0x40), (41, 0x01), (42, 0xD9), (43, 0x00),
    (44, 0x00), (45, 0x54), (46, 0x00), (47, 0x00), (48, 0x00), (131, 0x1F), (132, 0x02),
    (138, 0x0F), (139, 0xFF), (136, 0x40)]

/-- `si5375_port`: the ports of a chip. -/
inductive Si5375Port
  | portA
  | portB
  | portC
  | portD
  deriving DecidableEq, Repr

/-- `PORT_A + n`, where there is such a port. -/
def Si5375Port.ofIndex : Nat → Option Si5375Port
  | 0 => some .portA
  | 1 => some .portB
  | 2 => some .portC
  | 3 => some .portD
  | _ => none

/-- `silab_output_addresses`. -/
def Si5375Port.address : Si5375Port → UInt8
  | .portA => 0xD0
  | .portB => 0xD2
  | .portC => 0xD4
  | .portD => 0xD6

instance neZero_chips : NeZero 6 := ⟨by decide⟩

/-- A chip of `si5375` and one of its ports. -/
abbrev ClockSlot := Fin 6 × Si5375Port

/-- The port of a client. -/
def clientPort (i : Client) : Si5375Port :=
  if i.val % 4 = 0 then .portA
  else if i.val % 4 = 1 then .portB
  else if i.val % 4 = 2 then .portC
  else .portD

/-- The chip and the port of a client. -/
def clientSlot (i : Client) : ClockSlot := (⟨i.val / 4, by omega⟩, clientPort i)

/-- `portA_configuration` to `portD_configuration` of the chips. -/
abbrev ClockTables := ClockSlot → ClockTable

/-- One register of a chip is written. -/
structure ChipWrite where
  device : Fin 6
  address : UInt8
  register : UInt8
  value : UInt8
  deriving DecidableEq, Repr

/-! ### The routines -/

/-- What a routine does. -/
inductive ClockOp
  /-- `memcpy` of a table. -/
  | copyTable (slot : ClockSlot) (table : ClockTable)
  /-- `ipg_si5338_disable_freq_inc_dec(&si5338[device], output)`. -/
  | disableFreqIncDec (device : Fin 6) (output : Nat)
  /-- `ipg_si5338_enable_freq_inc_dec(&si5338[device], output)`. -/
  | enableFreqIncDec (device : Fin 6) (output : Nat)
  /-- `ipg_si5375_config(&si5375[device], PORT_A + port)`. -/
  | config (device : Fin 6) (port : Nat)
  deriving DecidableEq, Repr

/-- The families of rates that the clocks distinguish. -/
inductive ClockFamily
  | sonet
  | ge
  | otu1
  | fc1
  | fc2
  deriving DecidableEq, Repr

/-- The table of a family. -/
def ClockFamily.table : ClockFamily → ClockTable
  | .sonet => si5375_155_52_155_52
  | .ge => si5375_155_52_125
  | .otu1 => si5375_155_52_166_62
  | .fc1 | .fc2 => si5375_155_52_106_25

/-- The first four chips are configured. -/
def configChips (i : Client) : List ClockOp :=
  [.config 0 i, .config 1 i, .config 2 i, .config 3 i]

/-- `switch_to_sonet`. -/
def switchToSonet (i : Client) : List ClockOp :=
  [.copyTable (clientSlot i) si5375_155_52_155_52,
    .disableFreqIncDec 0 i, .enableFreqIncDec 0 i,
    .disableFreqIncDec 3 i, .enableFreqIncDec 3 i] ++ configChips i

/-- `switch_to_ge`: the steps of the second FPGA's clock stay disabled. -/
def switchToGe (i : Client) : List ClockOp :=
  [.copyTable (clientSlot i) si5375_155_52_125,
    .disableFreqIncDec 0 i, .enableFreqIncDec 0 i, .disableFreqIncDec 3 i] ++ configChips i

/-- `switch_to_otu1`: the copy goes elsewhere for client 3, and it is of another table for
clients 7 and 12. -/
def switchToOtu1 (i : Client) : List ClockOp :=
  [if i = 3 then .copyTable (0, .portC) si5375_155_52_166_62
    else if i = 7 then .copyTable (1, .portD) si5375_155_52_125
    else if i = 12 then .copyTable (3, .portA) si5375_155_52_125
    else .copyTable (clientSlot i) si5375_155_52_166_62,
    .disableFreqIncDec 0 i, .enableFreqIncDec 0 i,
    .disableFreqIncDec 3 i, .enableFreqIncDec 3 i] ++ configChips i

/-- `switch_to_fc1`. -/
def switchToFc1 (i : Client) : List ClockOp :=
  [.copyTable (clientSlot i) si5375_155_52_106_25,
    .disableFreqIncDec 0 i, .enableFreqIncDec 0 i] ++ configChips i

/-- `switch_to_fc2`. -/
def switchToFc2 (i : Client) : List ClockOp :=
  [.copyTable (clientSlot i) si5375_155_52_106_25,
    .disableFreqIncDec 0 i, .enableFreqIncDec 0 i] ++ configChips i

/-- The routine of a family. -/
def ClockFamily.switchTo : ClockFamily → Client → List ClockOp
  | .sonet => switchToSonet
  | .ge => switchToGe
  | .otu1 => switchToOtu1
  | .fc1 => switchToFc1
  | .fc2 => switchToFc2

/-! ### What they do to tables and chips -/

/-- The copy of a table. -/
def ClockOp.apply (t : ClockTables) : ClockOp → ClockTables
  | .copyTable slot table => Function.update t slot table
  | _ => t

/-- `clk_speed_registers` has four elements, and so has `silab_output_addresses`. -/
def ClockOp.InBounds : ClockOp → Prop
  | .copyTable _ _ => True
  | .disableFreqIncDec _ output | .enableFreqIncDec _ output => output < 4
  | .config _ port => port < 4

/-- `ipg_si5375_config`: the entries of the port's table but the last one, each a second time where
the chip has not answered, and then the last one. -/
def ipgSi5375Config (answers : ChipWrite → Bool) (device : Fin 6) (port : Si5375Port)
    (table : ClockTable) : List ChipWrite :=
  let write (entry : UInt8 × UInt8) : ChipWrite := ⟨device, port.address, entry.1, entry.2⟩
  (table.toList.take 31).flatMap (fun entry =>
      if answers (write entry) then [write entry] else [write entry, write entry]) ++
    (table.toList.drop 31).map write

/-- What an operation writes to the SI5375 chips. -/
def ClockOp.writes (answers : ChipWrite → Bool) (t : ClockTables) : ClockOp → List ChipWrite
  | .config device port =>
      match Si5375Port.ofIndex port with
      | some port => ipgSi5375Config answers device port (t (device, port))
      | none => []
  | _ => []

/-- A call of the routine of a family for a client. -/
abbrev ClockCall := Client × ClockFamily

/-- The tables behind a call. -/
def ClockTables.call (t : ClockTables) (c : ClockCall) : ClockTables :=
  (c.2.switchTo c.1).foldl ClockOp.apply t

variable {t : ClockTables} {c : ClockCall} {cs : List ClockCall} {i j : Client}

/-! ### The tables -/

/-- What a call copies, and to which port. -/
def copied (c : ClockCall) : ClockSlot × ClockTable :=
  if c.2 = .otu1 ∧ c.1 = 3 then ((0, .portC), si5375_155_52_166_62)
  else if c.2 = .otu1 ∧ (c.1 = 7 ∨ c.1 = 12) then (clientSlot c.1, si5375_155_52_125)
  else (clientSlot c.1, c.2.table)

/-- An operation for a client in front of the configuration: it writes nothing to the chips, and it
is inside its arrays for the first clients. -/
def ClockOp.Quiet (i : Client) (op : ClockOp) : Prop :=
  (∀ answers t, op.writes answers t = []) ∧ (i.val < 4 → op.InBounds)

@[simp]
theorem quiet_copyTable {slot : ClockSlot} {table : ClockTable} :
    (ClockOp.copyTable slot table).Quiet i :=
  ⟨fun _ _ => rfl, fun _ => trivial⟩

@[simp]
theorem quiet_disable {d : Fin 6} : (ClockOp.disableFreqIncDec d i).Quiet i :=
  ⟨fun _ _ => rfl, id⟩

@[simp]
theorem quiet_enable {d : Fin 6} : (ClockOp.enableFreqIncDec d i).Quiet i :=
  ⟨fun _ _ => rfl, id⟩

/-- `build_i2c_tree`: the tables that the firmware starts with. -/
def bootTables : ClockTables := fun slot =>
  match slot.1 with
  | 0 | 3 => si5375_155_52_155_52
  | 1 | 4 => si5375_155_52_166_62
  | 2 | 5 => si5375_cfg_167MHz_155_52MHz

end Muxponder
