import Muxponder.Ipglb2Protocol
import Muxponder.SiliconClocks
import Muxponder.Task10

/-!
# Setting and Reading the Rate of a Client Port

`set_if_port_rate` and `set_if_port_loopback` write the registers of two FPGAs: the first one
carries the clients 0 to 7, the second one the clients 8 to 15. For each client there is a branch
of its own, written out by hand. The branches of `set_if_port_rate` agree but for the registers
they name, except that the one of client 1 has no case for OTU1 when it comes to the clocks.

A register is named here by the FPGA, the position or the client, and the field. A bit field keeps
as many bits of what is assigned to it as it has.

## Main results

* `rateAgreement_iff`: what is read of a rate that has been set.
-/

namespace Muxponder

open LastWrite

/-! ### Registers and operations -/

/-- The two FPGAs: the registers whose names end in `_1`, and those that end in `_2`. -/
inductive Fpga
  | first
  | second
  deriving DecidableEq, Repr

/-- `PORT_FPGA1` and `PORT_FPGA2`: the FPGA of a client. -/
def Client.fpga (i : Client) : Fpga := if i.val < 8 then .first else .second

/-- The position of a client on its FPGA. -/
def Client.position (i : Client) : Fin 8 := ⟨i.val % 8, Nat.mod_lt _ (by decide)⟩

/-- A field of a register. -/
inductive PortRegister
  /-- `TLM_REG_*_BITS.PORT_*_RATE_SELECT`. -/
  | rateSelect (fpga : Fpga) (n : Fin 8)
  /-- `TLM_REG_*_BITS.PORT_*_RECONFIG_WR`. -/
  | reconfigWr (fpga : Fpga) (n : Fin 8)
  /-- `odtug2.regA_portM_rate_reg_*->bits.PORT_*_RATE_RX`. -/
  | rateRx (fpga : Fpga) (n : Fin 8)
  /-- `odtug2.config_reg_*->bits.UPDATE_MSI`. -/
  | updateMsi (fpga : Fpga)
  /-- `top_level_misc_reg.sdh_rate_config_*->bits.PORT_*_SDH_RATE`. -/
  | sdhRate (fpga : Fpga) (n : Fin 8)
  /-- `CL_MMAP(i)->odtu_brick->odtu_ctrl_reg_*->bits.RESET_GXB`. -/
  | resetGxb (fpga : Fpga) (i : Client)
  /-- `CL_MMAP(i)->odtu_brick->odtu_ctrl_reg_*->bits.RX_SERIAL_LB_EN`. -/
  | rxSerialLbEn (fpga : Fpga) (i : Client)
  /-- `CL_MMAP(i)->gemac_*->rx_section_full_reg`. -/
  | rxSectionFull (fpga : Fpga) (i : Client)
  /-- `CL_MMAP(i)->gemac_*->command_config_reg`. -/
  | commandConfig (fpga : Fpga) (i : Client)
  /-- `CL_MMAP(i)->gemac_*->transmit_command_reg`. -/
  | transmitCommand (fpga : Fpga) (i : Client)
  /-- `CL_MMAP(i)->ge->reset_ctrl_reg_*->bits.GFP_RST`. -/
  | gfpRst (fpga : Fpga) (i : Client)
  deriving DecidableEq, Repr

/-- The bits that a field keeps. -/
def PortRegister.mask : PortRegister → UInt32
  | .rateSelect _ _ => 0x7
  | .rateRx _ _ => 0xF
  | .reconfigWr _ _ | .updateMsi _ | .sdhRate _ _ | .resetGxb _ _ | .rxSerialLbEn _ _
  | .gfpRst _ _ => 0x1
  | .rxSectionFull _ _ | .commandConfig _ _ | .transmitCommand _ _ => 0xFFFFFFFF

/-- What the functions do. -/
inductive PortOp
  /-- `port_rate_change_flag[i] = 1`. -/
  | rateChangeFlag (i : Client)
  | write (r : PortRegister) (v : UInt32)
  /-- `init_ge_pcs_ol(CL_MMAP(i)->gepcs_*)`. -/
  | initGePcs (fpga : Fpga) (i : Client)
  /-- `init_ge_mac_ol(CL_MMAP(i)->gemac_*)`. -/
  | initGeMac (fpga : Fpga) (i : Client)
  /-- A step of a `switch_to_*` routine. -/
  | clock (op : ClockOp)
  /-- `_port->control.rate.current = rate`. -/
  | setCurrent (i : Client) (rate : UInt32)
  deriving DecidableEq, Repr

/-! ### `set_if_port_rate` -/

/-- The routine that the branch of a client switches the clocks with. -/
def portClock (i : Client) (rate : UInt32) : Option ClockFamily :=
  if rate = PORT_RATE_FE ∨ rate = PORT_RATE_GE then some .ge
  else if rate = PORT_RATE_STM1 ∨ rate = PORT_RATE_STM4 ∨ rate = PORT_RATE_STM16 then some .sonet
  else if rate = PORT_RATE_OTU1 then (if i = 1 then none else some .otu1)
  else if rate = PORT_RATE_FC1 then some .fc1
  else if rate = PORT_RATE_FC2 then some .fc2
  else none

/-- `reconfigure_ge_port`. -/
def reconfigureGePort (i : Client) : List PortOp :=
  [.initGePcs i.fpga i, .initGeMac i.fpga i,
    .write (.rxSectionFull i.fpga i) 0x5DC,
    .write (.commandConfig i.fpga i) 0x0100015B,
    .write (.transmitCommand i.fpga i) 0,
    .write (.gfpRst i.fpga i) 1, .write (.gfpRst i.fpga i) 0]

/-- The SDH rate bit is cleared for STM-1 and set for STM-4. -/
def sdhRateOps (i : Client) (rate : UInt32) : List PortOp :=
  if rate = PORT_RATE_STM1 then [.write (.sdhRate i.fpga i.position) 0]
  else if rate = PORT_RATE_STM4 then [.write (.sdhRate i.fpga i.position) 1]
  else []

/-- A bit is pulsed. -/
def pulse (r : PortRegister) : List PortOp := [.write r 0, .write r 1, .write r 0]

/-- The branch of a client in `set_if_port_rate`, behind the rate-select field. -/
def reconfigureOps (i : Client) (rate : UInt32) : List PortOp :=
  pulse (.reconfigWr i.fpga i.position) ++
    (((portClock i rate).elim [] (·.switchTo i)).map .clock ++
      (PortOp.write (.rateRx i.fpga i.position) rate :: .write (.updateMsi i.fpga) 0 ::
        .write (.updateMsi i.fpga) 1 :: (sdhRateOps i rate ++
          ((if rate = PORT_RATE_GE ∨ rate = PORT_RATE_FE then reconfigureGePort i else []) ++
            .setCurrent i rate :: pulse (.resetGxb i.fpga i)))))

/-- The branch of a client in `set_if_port_rate`. -/
def rateOps (i : Client) (rate : UInt32) : List PortOp :=
  .rateChangeFlag i :: .write (.rateSelect i.fpga i.position) (topLevelRate rate) ::
    reconfigureOps i rate

/-- What the functions read of a client port. -/
structure RatePort where
  /-- `info.capabilities.MULTI_RATE`. -/
  multiRate : Bool
  /-- `mmap` is not `NULL`. -/
  mapped : Bool
  /-- `control.rate.next`. -/
  next : UInt32
  deriving DecidableEq, Repr

/-- `set_if_port_rate` on a client port. -/
def setIfPortRateOps (i : Client) (port : RatePort) : RetCode × List PortOp :=
  if port.multiRate = false then (.invalidParams, [])
  else if port.mapped = false then (.fail, [])
  else (.success, rateOps i port.next)

/-! ### `read_if_port_rate` -/

/-- The client ports, the registers, and the tables of the clocks. -/
structure RateCard where
  port : Client → RatePort
  current : Client → UInt32
  registers : PortRegister → UInt32
  tables : ClockTables

/-- What an operation does to them. -/
def PortOp.apply (s : RateCard) : PortOp → RateCard
  | .write r v => { s with registers := Function.update s.registers r (v &&& r.mask) }
  | .clock op => { s with tables := op.apply s.tables }
  | .setCurrent i rate => { s with current := Function.update s.current i rate }
  | .rateChangeFlag _ | .initGePcs _ _ | .initGeMac _ _ => s

/-- `PORT_PROTOCOL_FIBER_CHANNEL`. -/
def PORT_PROTOCOL_FIBER_CHANNEL : UInt32 := 0x05

/-- `monitor.prot` for a value of the rate-select field other than 0. -/
def selectedProtocol (select : UInt32) : UInt32 :=
  if select = 3 then PORT_PROTOCOL_OTU
  else if select = 4 ∨ select = 5 then PORT_PROTOCOL_FIBER_CHANNEL
  else PORT_PROTOCOL_SDH

/-- `read_if_port_rate` on a client port: what it returns, and the `monitor.rate` and
`monitor.prot` that it sets. -/
def readRate (s : RateCard) (i : Client) : RetCode × Option (UInt32 × UInt32) :=
  if (s.port i).mapped = false ∨ (s.port i).multiRate = false then (.invalidParams, none)
  else
    let select := s.registers (.rateSelect i.fpga i.position)
    if select = 0 then
      if (s.port i).next = PORT_RATE_FE then (.success, some (PORT_RATE_FE, PORT_PROTOCOL_ETHERNET))
      else if (s.port i).next = PORT_RATE_GE then
        (.success, some (PORT_RATE_GE, PORT_PROTOCOL_ETHERNET))
      else (.invalidParams, none)
    else
      match selectedRate select with
      | some rate => (.success, some (rate, selectedProtocol select))
      | none => (.fail, none)

/-! ### Sequences of calls -/

/-- The rates that a client port supports. -/
inductive SupportedRate
  | fe
  | ge
  | stm1
  | stm4
  | stm16
  | otu1
  | fc1
  | fc2
  deriving DecidableEq, Repr

/-- The word of a rate. -/
def SupportedRate.word : SupportedRate → UInt32
  | .fe => PORT_RATE_FE
  | .ge => PORT_RATE_GE
  | .stm1 => PORT_RATE_STM1
  | .stm4 => PORT_RATE_STM4
  | .stm16 => PORT_RATE_STM16
  | .otu1 => PORT_RATE_OTU1
  | .fc1 => PORT_RATE_FC1
  | .fc2 => PORT_RATE_FC2

/-- `task_10` and the callbacks set `control.rate.next` and then call `set_if_port_rate`. -/
def RateCard.set (s : RateCard) (c : Client × SupportedRate) : RateCard :=
  let port : RatePort := { s.port c.1 with next := c.2.word }
  (setIfPortRateOps c.1 port).2.foldl PortOp.apply
    { s with port := Function.update s.port c.1 port }

/-- What is read of a port is the rate. -/
def RateCard.Reports (s : RateCard) (i : Client) (rate : SupportedRate) : Prop :=
  ∃ prot, readRate s i = (.success, some (rate.word, prot))

/-- **Reading agrees with setting**: every port that has been set reports the rate it was set to
last, and no call changes what is read of another port. -/
structure RatesAgree (s : RateCard) (cs : List (Client × SupportedRate)) : Prop where
  reports : ∀ i rate, latest i cs = some rate → (cs.foldl RateCard.set s).Reports i rate
  others : GoodAlong RateCard.set (fun s c => ∀ i, i ≠ c.1 → readRate (s.set c) i = readRate s i)
    s cs

variable {s : RateCard} {i j : Client} {rate : SupportedRate} {c : Client × SupportedRate}
  {cs : List (Client × SupportedRate)} {ops : List PortOp} {n : Fin 8} {f : Fpga}

/-! ### What a call does -/

/-- The FPGA and the position name the client. -/
theorem client_inj : i.fpga = j.fpga ∧ i.position = j.position ↔ i = j := by
  revert i j
  decide

/-- An operation that does not assign a rate-select field. -/
def PortOp.SparesSelect : PortOp → Prop
  | .write (.rateSelect _ _) _ => False
  | _ => True

/-- Operations leave the ports, and what they spare. -/
theorem foldl_apply_port : (ops.foldl PortOp.apply s).port = s.port := by
  induction ops generalizing s with
  | nil => rfl
  | cons op ops ih =>
      rw [List.foldl_cons, ih]
      cases op <;> rfl

/-- Operations that spare the rate-select fields. -/
theorem foldl_apply_select (h : ∀ op ∈ ops, op.SparesSelect) :
    (ops.foldl PortOp.apply s).registers (.rateSelect f n) = s.registers (.rateSelect f n) := by
  induction ops generalizing s with
  | nil => rfl
  | cons op ops ih =>
      rw [List.foldl_cons, ih fun op' hop => h op' (by simp [hop])]
      have hop := h op (by simp)
      cases op with
      | write r v =>
          cases r with
          | rateSelect => exact hop.elim
          | _ => simp [PortOp.apply]
      | _ => rfl

/-- Behind the rate-select field no such field is assigned. -/
theorem spares_reconfigureOps {w : UInt32} : ∀ op ∈ reconfigureOps i w, op.SparesSelect := by
  have hsdh : ∀ op ∈ sdhRateOps i w, op.SparesSelect := by
    rw [sdhRateOps]
    split_ifs <;> simp [PortOp.SparesSelect]
  have hge : ∀ op ∈ (if w = PORT_RATE_GE ∨ w = PORT_RATE_FE then reconfigureGePort i else []),
      op.SparesSelect := by
    split_ifs <;> simp [PortOp.SparesSelect, reconfigureGePort]
  simp only [reconfigureOps, List.forall_mem_append, List.forall_mem_cons]
  refine ⟨?_, ?_, trivial, trivial, trivial, hsdh, hge, trivial, ?_⟩
  · simp [PortOp.SparesSelect, pulse]
  · simp [PortOp.SparesSelect]
  · simp [PortOp.SparesSelect, pulse]

/-- The ports behind a call. -/
theorem set_port : (s.set c).port =
    Function.update s.port c.1 { s.port c.1 with next := c.2.word } := by
  rw [RateCard.set, foldl_apply_port]

/-- The rate-select field of another port. -/
theorem set_select_other (h : i ≠ c.1) :
    (s.set c).registers (.rateSelect i.fpga i.position) =
      s.registers (.rateSelect i.fpga i.position) := by
  rw [RateCard.set, setIfPortRateOps]
  split_ifs
  · rfl
  · rfl
  · rw [rateOps, List.foldl_cons, List.foldl_cons, foldl_apply_select spares_reconfigureOps]
    have hne : PortRegister.rateSelect i.fpga i.position ≠ .rateSelect c.1.fpga c.1.position := by
      simpa [client_inj] using h
    simp [PortOp.apply, hne]

/-- A port whose rate can be set. -/
def RateCard.CanSet (s : RateCard) (i : Client) : Prop :=
  (s.port i).multiRate = true ∧ (s.port i).mapped = true

/-- The rate-select field of the port itself. -/
theorem set_select_own (h : s.CanSet c.1) :
    (s.set c).registers (.rateSelect c.1.fpga c.1.position) = topLevelRate c.2.word &&& 0x7 := by
  rw [RateCard.set, setIfPortRateOps, if_neg (by simp [h.1]), if_neg (by simp [h.2])]
  rw [rateOps, List.foldl_cons, List.foldl_cons, foldl_apply_select spares_reconfigureOps]
  simp [PortOp.apply, PortRegister.mask]

/-- Whether a rate can be set does not change. -/
theorem canSet_set : (s.set c).CanSet i ↔ s.CanSet i := by
  rw [RateCard.CanSet, set_port]
  by_cases hi : i = c.1
  · subst hi
    simp [RateCard.CanSet]
  · simp [RateCard.CanSet, hi]

/-- Nor does it over a sequence of calls. -/
theorem canSet_foldl : (cs.foldl RateCard.set s).CanSet i ↔ s.CanSet i := by
  induction cs generalizing s with
  | nil => rfl
  | cons c cs ih => rw [List.foldl_cons, ih, canSet_set]

/-- All calls of a sequence are for ports whose rate can be set. -/
theorem canSet_along (h : ∀ c ∈ cs, s.CanSet c.1) :
    GoodAlong RateCard.set (fun s c => s.CanSet c.1) s cs := by
  rintro pre c post rfl
  exact canSet_foldl.mpr (h c (by simp))

/-- The rate-select field and `control.rate.next` behind a call. -/
def SupportedRate.selected (rate : SupportedRate) : UInt32 × UInt32 :=
  (topLevelRate rate.word &&& 0x7, rate.word)

/-- What is read of a port, as far as it depends on the calls. -/
def RateCard.selected (s : RateCard) (i : Client) : UInt32 × UInt32 :=
  (s.registers (.rateSelect i.fpga i.position), (s.port i).next)

/-- What is read of a port whose fields are as a call leaves them. -/
theorem readRate_selected (h : s.CanSet i)
    (hsel : s.selected i = rate.selected) :
    readRate s i = (.success, some (match rate with
      | .fe => (PORT_RATE_FE, PORT_PROTOCOL_ETHERNET)
      | .ge => (PORT_RATE_GE, PORT_PROTOCOL_ETHERNET)
      | .stm1 | .stm4 => (PORT_RATE_STM1, PORT_PROTOCOL_SDH)
      | .stm16 => (PORT_RATE_STM16, PORT_PROTOCOL_SDH)
      | .otu1 => (PORT_RATE_OTU1, PORT_PROTOCOL_OTU)
      | .fc1 => (PORT_RATE_FC1, PORT_PROTOCOL_FIBER_CHANNEL)
      | .fc2 => (PORT_RATE_FC2, PORT_PROTOCOL_FIBER_CHANNEL))) := by
  obtain ⟨hselect, hnext⟩ := Prod.mk.inj hsel
  rw [readRate, if_neg (by simp [h.1, h.2]), hselect, hnext]
  cases rate <;> rfl

/-- Such a port reports its rate unless that is STM-4. -/
theorem reports_iff (h : s.CanSet i)
    (hsel : s.selected i = rate.selected) :
    s.Reports i rate ↔ rate ≠ .stm4 := by
  rw [RateCard.Reports, readRate_selected h hsel]
  cases rate with
  | stm4 =>
      have hne : PORT_RATE_STM1 ≠ SupportedRate.stm4.word := by decide
      simp [hne]
  | _ => exact ⟨fun _ => by simp, fun _ => ⟨_, rfl⟩⟩

/-- The fields of a port behind a call for it. -/
theorem selected_set (h : s.CanSet c.1) :
    (s.set c).selected c.1 = c.2.selected := by
  rw [RateCard.selected, set_select_own h, set_port, Function.update_self, SupportedRate.selected]

/-- A call leaves what is read of another port. -/
theorem readRate_set_other (h : i ≠ c.1) : readRate (s.set c) i = readRate s i := by
  rw [readRate, set_select_other h, set_port, Function.update_of_ne h, readRate]

/-- **Reading agrees with setting** exactly as long as no port is left at STM-4. -/
theorem rateAgreement_iff (s : RateCard) (cs : List (Client × SupportedRate))
    (hports : ∀ c ∈ cs, s.CanSet c.1) : RatesAgree s cs ↔ ∀ i, latest i cs ≠ some .stm4 := by
  have hgood := canSet_along hports
  have hreports : ∀ i rate, latest i cs = some rate →
      ((cs.foldl RateCard.set s).Reports i rate ↔ rate ≠ .stm4) := by
    intro i rate hlatest
    have hother : ∀ (s : RateCard) (c : Client × SupportedRate) (k : Client), s.CanSet c.1 →
        k ≠ c.1 → (s.set c).selected k = s.selected k := by
      intro s c k _ hk
      rw [RateCard.selected, set_select_other hk, set_port, Function.update_of_ne hk,
        RateCard.selected]
    have hset := hports _ (mem_of_latest hlatest)
    have hselected : (cs.foldl RateCard.set s).selected i = rate.selected :=
      view_latest (f := fun _ rate => rate.selected) (fun _ _ => selected_set) hother hgood hlatest
    exact reports_iff (canSet_foldl.mpr hset) hselected
  constructor
  · intro h i hi
    exact (hreports i _ hi).mp (h.reports i _ hi) rfl
  · intro h
    refine ⟨fun i rate hi => (hreports i rate hi).mpr ?_, fun pre c post _ i hi =>
      readRate_set_other hi⟩
    rintro rfl
    exact h i hi

/-- A card whose clients have all been mapped, with every field at 0. -/
def idleRateCard : RateCard where
  port := fun _ => ⟨true, true, 0⟩
  current := fun _ => 0
  registers := fun _ => 0
  tables := bootTables

/-- Two ports are set, one of them twice. -/
theorem rateAgreement_twoPorts :
    RatesAgree idleRateCard [(9, .stm4), (0, .ge), (9, .otu1)] := by
  refine (rateAgreement_iff idleRateCard _ fun c _ => ⟨rfl, rfl⟩).mpr fun i => ?_
  revert i
  decide

/-- **STM-4 reads back as STM-1**: both have the same value of the rate-select field. -/
theorem stm4_not_read_back :
    ¬ RatesAgree idleRateCard [(0, .stm4)] ∧
      readRate (idleRateCard.set (0, .stm4)) 0 =
        (.success, some (PORT_RATE_STM1, PORT_PROTOCOL_SDH)) := by
  have hcan : idleRateCard.CanSet 0 := ⟨rfl, rfl⟩
  have hset := selected_set (s := idleRateCard) (c := (0, .stm4)) hcan
  refine ⟨fun h => ?_, readRate_selected (canSet_set.mpr hcan) hset⟩
  have hreports := h.reports 0 .stm4 rfl
  rw [List.foldl_cons, List.foldl_nil] at hreports
  exact (reports_iff (canSet_set.mpr hcan) hset).mp hreports rfl

end Muxponder
