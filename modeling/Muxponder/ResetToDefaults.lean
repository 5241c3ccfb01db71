import Muxponder.Lib.Uninterrupted
import Muxponder.ProfileDefaults
import Muxponder.Task10Handshake
import Muxponder.KursReadIndependence

/-!
# A Reset to the Defaults, and a Boot with them

`task_10` applies what `KURS_profile_set_default` and the requests behind it have left, behind a
reset to the defaults as behind a boot with the default preferences. Each interface is seen as its
variables and its registers (`PortView`), so a pass without requests from outside is verified
operation by operation on one interface, with calls of the hardware that succeed.

The two end alike but for the ALS: booting sets the mode in the hardware, and the main loop does
not.

## Main results

* `taskInterface_applied`: the requests for the defaults are applied.
* `appliedPass_exists`: a pass without requests from outside is always possible.
* `resetToDefaults_iff_boot`: when a reset and a boot end with the same settings.
-/

namespace Muxponder

open Memory Interrupts

/-! ### An interface -/

/-- The variables and the registers of an interface. -/
@[ext] structure PortView where
  word : PortField → UInt32
  txDisable : Bool
  serialLoopback : Bool
  rateSelect : UInt32
  rateRx : UInt32

/-- The interface of an operation. -/
def TaskOp.port : TaskOp → Fin INTERFACE_COUNT
  | .read _ i | .write _ i _ | .clearGeCounters i | .resetPortCounters i | .switchState i _ => i
  | .setIfPortLoopback i _ | .setSerialLoopback i _ | .portMapped i | .setRateSelect i _ => i
  | .setRateRx i _ | .getRateSelect i | .setPfcCapable i _ | .setFecCapable i _ => i
  | .reportLocalLosToFe i _ | .setPfcModule i _ | .setTxDisable i _ | .getTxDisable i => i
  | .bootTransceiver i => i

/-- A variable is written. -/
def PortView.set (v : PortView) (f : PortField) (w : UInt32) : PortView :=
  { v with word := Function.update v.word f w }

@[inherit_doc CardMemory.setCapability]
def PortView.setCapability (v : PortView) (mask : UInt32) (on : Bool) : PortView :=
  let all := v.word .capabilities
  v.set .capabilities (if on then all ||| mask else all &&& ~~~mask)

/-- An interface behind one of its operations. -/
def PortView.did (v : PortView) : TaskOp → PortView
  | .write f _ w => v.set f w
  | .setSerialLoopback _ on => { v with serialLoopback := on }
  | .setRateSelect _ topLevelRate => { v with rateSelect := topLevelRate }
  | .setRateRx _ rate => { v with rateRx := rate }
  | .setPfcCapable _ on => v.setCapability PFC_CAPABLE on
  | .setFecCapable _ on => v.setCapability FEC_CAPABLE on
  | .setTxDisable _ on => { v with txDisable := on }
  | _ => v

/-- What an operation answers where the hardware does as it is told: a port is mapped, and the rate
that has been selected is read back. -/
def PortView.Answers (v : PortView) : TaskOp → UInt32 → Prop
  | .read f _, w => w = v.word f
  | .getTxDisable _, w => w = if v.txDisable then 1 else 0
  | .getRateSelect _, w => w = v.rateSelect
  | .portMapped _, w => w ≠ 0
  | _, _ => True

/-- A step of an interface. -/
def PortView.Step (v : PortView) (o : TaskOp) (w : UInt32) (v' : PortView) : Prop :=
  v.Answers o w ∧ v' = v.did o

section card

variable {L : Layout}

/-- An interface of the card. -/
def CardMemory.portView (C : CardMemory L) (i : Fin INTERFACE_COUNT) (s : CardState) :
    PortView where
  word f := C.word s.mem f i
  txDisable := s.hw.txDisable i
  serialLoopback := s.hw.serialLoopback i
  rateSelect := s.hw.rateSelect i
  rateRx := s.hw.rateRx i

/-- A step of the card where the hardware does as it is told. -/
def CardMemory.Step (C : CardMemory L) (s : CardState) (o : TaskOp) (w : UInt32)
    (s' : CardState) : Prop :=
  C.act s o w = some s' ∧ (C.portView o.port s).Answers o w

variable {C : CardMemory L} {i j : Fin INTERFACE_COUNT} {s s' : CardState} {o : TaskOp}
  {v : PortView} {w : UInt32} {p : Place} {f : PortField}

/-- A word among the variables of an interface. -/
theorem portView_store32 : C.portView i { s with mem := s.mem.store32 (C.addr (.port f j)) w } =
    if j = i then (C.portView i s).set f w else C.portView i s := by
  refine PortView.ext (funext fun g => ?_) ?_ ?_ ?_ ?_
  · by_cases hji : j = i
    · simp [CardMemory.portView, PortView.set, word_store32, Function.update_apply, hji]
    · simp [CardMemory.portView, word_store32, hji, Ne.symm hji]
  all_goals split <;> rfl

@[inherit_doc portView_store32]
theorem portView_setCapability {mask : UInt32} {on : Bool} :
    C.portView i { s with mem := C.setCapability s.mem j mask on } =
      if j = i then (C.portView i s).setCapability mask on else C.portView i s := by
  rw [CardMemory.setCapability, portView_store32]
  split
  next hji =>
    subst hji
    rfl
  next => rfl

/-- **An operation on the card** is one of its interface. -/
theorem portView_act (hact : C.act s o w = some s') : C.portView i s' =
    if o.port = i then (C.portView i s).did o else C.portView i s := by
  cases o with
  | read f j =>
      obtain ⟨-, rfl⟩ := act_read hact
      simp [PortView.did]
  | getTxDisable j =>
      obtain ⟨-, rfl⟩ := act_getTxDisable hact
      simp [PortView.did]
  | write f j w' =>
      obtain rfl := Option.some.inj hact
      exact portView_store32
  | setPfcCapable j on | setFecCapable j on =>
      obtain rfl := Option.some.inj hact
      exact portView_setCapability
  | setSerialLoopback j on | setRateSelect j rate | setRateRx j rate | setTxDisable j on =>
      obtain rfl := Option.some.inj hact
      by_cases hji : j = i
      · simp [CardMemory.portView, PortView.did, TaskOp.port, hji]
      · simp [CardMemory.portView, TaskOp.port, hji, Ne.symm hji]
  | _ =>
      obtain rfl := Option.some.inj hact
      simp [PortView.did]

/-- A step of the card is one of its interface, and leaves the others. -/
theorem portView_step (h : C.Step s o w s') :
    (o.port = i → (C.portView i s).Step o w (C.portView i s')) ∧
      (o.port ≠ i → C.portView i s' = C.portView i s) := by
  obtain ⟨hact, hanswers⟩ := h
  rw [portView_act (i := i) hact]
  refine ⟨?_, fun hne => if_neg hne⟩
  rintro rfl
  exact ⟨hanswers, if_pos rfl⟩

/-! ### Operations of a program -/

/-- Every operation has an answer. -/
theorem exists_answers : ∃ w, v.Answers o w := by
  cases o with
  | portMapped i => exact ⟨1, (by decide : (1 : UInt32) ≠ 0)⟩
  | read f i => exact ⟨_, rfl⟩
  | getTxDisable i => exact ⟨_, rfl⟩
  | getRateSelect i => exact ⟨_, rfl⟩
  | _ => exact ⟨0, trivial⟩

/-- A variable is read. -/
@[simp] theorem wp_readWord {Q : UInt32 → PortView → Prop} :
    (readWord p f i).wp PortView.Step Q v ↔ Q (v.word f) v := by
  refine ⟨fun h => h _ _ ⟨rfl, rfl⟩, ?_⟩
  rintro h _ _ ⟨rfl, rfl⟩
  exact h

/-- An operation whose answer is not used. -/
@[simp] theorem wp_perform {Q : Unit → PortView → Prop} :
    (perform p o).wp PortView.Step Q v ↔ Q () (v.did o) := by
  constructor
  · intro h
    obtain ⟨w, hw⟩ := exists_answers (v := v) (o := o)
    exact h w _ ⟨hw, rfl⟩
  · rintro h w _ ⟨-, rfl⟩
    exact h

/-- A variable is written. -/
@[simp] theorem wp_writeWord {Q : Unit → PortView → Prop} :
    (writeWord p f i w).wp PortView.Step Q v ↔ Q () (v.set f w) := wp_perform

/-- A port is mapped. -/
@[simp] theorem wp_portMapped {Q : UInt32 → PortView → Prop} :
    (Prog.op p (.portMapped i)).wp PortView.Step Q v ↔ ∀ w ≠ 0, Q w v := by
  refine ⟨fun h w hw => h w _ ⟨hw, rfl⟩, ?_⟩
  rintro h w _ ⟨hw, rfl⟩
  exact h w hw

/-- The rate that has been selected is read back. -/
@[simp] theorem wp_getRateSelect {Q : UInt32 → PortView → Prop} :
    (Prog.op p (.getRateSelect i)).wp PortView.Step Q v ↔ Q v.rateSelect v := by
  refine ⟨fun h => h _ _ ⟨rfl, rfl⟩, ?_⟩
  rintro h _ _ ⟨rfl, rfl⟩
  exact h

/-- The transmitter is read back. -/
@[simp] theorem wp_getTxDisable {Q : UInt32 → PortView → Prop} :
    (Prog.op p (.getTxDisable i)).wp PortView.Step Q v ↔
      Q (if v.txDisable then 1 else 0) v := by
  refine ⟨fun h => h _ _ ⟨rfl, rfl⟩, ?_⟩
  rintro h _ _ ⟨rfl, rfl⟩
  exact h

/-- A transceiver boots, or does not. -/
@[simp] theorem wp_bootTransceiver {Q : UInt32 → PortView → Prop} :
    (Prog.op p (.bootTransceiver i)).wp PortView.Step Q v ↔ ∀ w, Q w v := by
  refine ⟨fun h w => h w _ ⟨trivial, rfl⟩, ?_⟩
  rintro h w _ ⟨-, rfl⟩
  exact h w

/-! ### What the parts of the task keep -/

attribute [local simp] PortView.did Prog.wp_ite

variable {A : PortView → Prop}

/-- Resetting the counters keeps what does not depend on their request. -/
theorem resetPart_keeps (hset : ∀ w, A (v.set (.control .resetCounters .change) w)) (h : A v) :
    (resetPart i).wp PortView.Step (fun _ => A) v := by
  simp only [resetPart, Prog.wp_bind, Prog.wp_ite, wp_readWord, wp_perform, wp_writeWord,
    Prog.wp_pure, PortView.did]
  exact ⟨fun _ => ⟨fun _ => hset 0, fun _ => hset 0⟩, fun _ => h⟩

/-- Booting the transceiver keeps what does not depend on its request. -/
theorem rebootPart_keeps (hset : ∀ w, A (v.set .rebootChange w)) (h : A v) :
    (rebootPart i).wp PortView.Step (fun _ => A) v := by
  simp only [rebootPart, Prog.wp_bind, Prog.wp_ite, wp_readWord, wp_bootTransceiver, wp_writeWord,
    Prog.wp_pure]
  exact ⟨fun _ w => ⟨fun _ => hset 0, fun _ => h⟩, fun _ => h⟩

/-- What does not depend on the capabilities, but for `MULTI_RATE`. -/
def KeepsCapability (A : PortView → Prop) : Prop :=
  ∀ v mask on, mask &&& MULTI_RATE = 0 → ~~~mask &&& MULTI_RATE = MULTI_RATE → A v →
    A (v.setCapability mask on)

/-- What follows from a rate keeps that. -/
theorem rateModified_keeps (hcap : KeepsCapability A) (h : A v) :
    (rateModified i p).wp PortView.Step (fun _ => A) v := by
  have hboth : ∀ pfc fec, A ((v.setCapability PFC_CAPABLE pfc).setCapability FEC_CAPABLE fec) :=
    fun pfc fec =>
      hcap _ _ _ (by decide) (by decide) (hcap _ _ _ (by decide) (by decide) h)
  simp [rateModified, hboth]

/-! ### The requests are applied -/

/-- How far the requests for the defaults of an interface have been applied, in the order of the
task: service state, loopback mode, rate, transmitter. -/
structure PortApplied (i : Fin INTERFACE_COUNT) (parts : ℕ) (v : PortView) : Prop where
  service :
    if 0 < parts then
      v.word (.control .serviceState .current) = IF_SERVICE_STATE_IS ∧
        v.word .monitor = ACTIVITY_MONITOR_ON
    else
      v.word (.control .serviceState .next) = IF_SERVICE_STATE_IS ∧
        v.word (.control .serviceState .change) ≠ 0
  loopback :
    if 1 < parts then
      v.word (.control .loopbackMode .current) = MODE_LB_NORMAL ∧ v.serialLoopback = false
    else
      v.word (.control .loopbackMode .next) = MODE_LB_NORMAL ∧
        v.word (.control .loopbackMode .change) ≠ 0
  rateNext : v.word (.control .rate .next) = PORT_RATE_STM1
  rateCurrent : v.word (.control .rate .current) = PORT_RATE_STM1
  rate :
    if 2 < parts then
      isClient i = true →
        v.rateSelect = 1 ∧ v.rateRx = PORT_RATE_STM1 ∧ v.word .monitorRate = PORT_RATE_STM1
    else isClient i = true → v.word (.control .rate .change) ≠ 0
  tx :
    if 3 < parts then v.word (.control .txDisable .current) = 0 ∧ v.txDisable = false
    else
      v.word (.control .txDisable .next) = 0 ∧ v.word (.control .txDisable .change) ≠ 0
  alsControl : v.word .alsControl = ALS_CONTROL_DISABLED
  multiRate : v.word .capabilities &&& MULTI_RATE ≠ 0 ↔ isClient i = true

/-- The words that say how far the requests have been applied are not these. -/
theorem PortApplied.set {parts : ℕ} (h : PortApplied i parts v)
    (hf : f = .control .resetCounters .change ∨ f = .rebootChange) :
    PortApplied i parts (v.set f w) := by
  obtain ⟨hservice, hloopback, hnext, hcurrent, hrate, htx, hals, hmulti⟩ := h
  rcases hf with rfl | rfl <;>
    exact ⟨hservice, hloopback, hnext, hcurrent, hrate, htx, hals, hmulti⟩

/-- **The service state** is applied. -/
theorem servicePart_applied (h : PortApplied i 0 v) :
    (servicePart i).wp PortView.Step (fun _ => PortApplied i 1) v := by
  obtain ⟨⟨hnext, hchange⟩, hloopback, hrnext, hrcurrent, hrate, htx, hals, hmulti⟩ := h
  have hin : IF_SERVICE_STATE_IS ≠ IF_SERVICE_STATE_OOS := by decide
  simp [servicePart, switchState, stateCases, hnext, hchange, hin]
  exact ⟨⟨hnext, rfl⟩, hloopback, hrnext, hrcurrent, hrate, htx, hals, hmulti⟩

/-- The default rate is set. -/
def PortView.rateSet (v : PortView) : PortView :=
  { v with rateSelect := 1, rateRx := PORT_RATE_STM1 }.set (.control .rate .current) PORT_RATE_STM1

/-- A rate is set in the registers, and stored. -/
def PortView.setRate (v : PortView) (rate : UInt32) : PortView :=
  { v with rateSelect := topLevelRate rate, rateRx := rate }.set (.control .rate .current) rate

/-- Setting the rate that is asked for. -/
theorem wp_setRate {q : UInt32 → Place} {Q : Option UInt32 → PortView → Prop}
    (hmulti : v.word .capabilities &&& MULTI_RATE ≠ 0 ↔ isClient i = true) :
    (setIfPortRate i p q).wp PortView.Step Q v ↔
      if isClient i = true then
        Q (some (v.word (.control .rate .next))) (v.setRate (v.word (.control .rate .next)))
      else Q none v := by
  have hone : (1 : UInt32) ≠ 0 := by decide
  by_cases hclient : isClient i = true
  · simp [setIfPortRate, hmulti.mpr hclient, hclient, PortView.setRate]
    exact ⟨fun h => (h 1 hone).2 hone, fun h w hw => ⟨fun h0 => absurd h0 hw, fun _ => h⟩⟩
  · have hsingle : v.word .capabilities &&& MULTI_RATE = 0 := not_not.mp (mt hmulti.mp hclient)
    simp [setIfPortRate, hsingle, hclient]

/-- Setting the default rate. -/
theorem wp_setIfPortRate {q : UInt32 → Place} {Q : Option UInt32 → PortView → Prop}
    (hnext : v.word (.control .rate .next) = PORT_RATE_STM1)
    (hmulti : v.word .capabilities &&& MULTI_RATE ≠ 0 ↔ isClient i = true) :
    (setIfPortRate i p q).wp PortView.Step Q v ↔
      if isClient i = true then Q (some PORT_RATE_STM1) v.rateSet else Q none v := by
  have hlevel : topLevelRate PORT_RATE_STM1 = 1 := by decide
  rw [wp_setRate hmulti, hnext, PortView.setRate, hlevel, PortView.rateSet]

/-- Setting the default rate changes nothing that the loopback mode has to do with. -/
theorem PortApplied.rateSet (h : PortApplied i 1 v) : PortApplied i 1 v.rateSet := by
  obtain ⟨hservice, hloopback, hnext, hcurrent, hrate, htx, hals, hmulti⟩ := h
  exact ⟨hservice, hloopback, hnext, rfl, hrate, htx, hals, hmulti⟩

/-- The cases of the normal loopback mode. -/
theorem switchLoopback_applied (h : PortApplied i 1 v) :
    (switchLoopback i MODE_LB_NORMAL).wp PortView.Step
      (fun _ v' => PortApplied i 1 v' ∧ v'.serialLoopback = false) v := by
  have hoff : PortApplied i 1 { v with serialLoopback := false } := by
    obtain ⟨hservice, hloopback, hnext, hcurrent, hrate, htx, hals, hmulti⟩ := h
    exact ⟨hservice, hloopback, hnext, hcurrent, hrate, htx, hals, hmulti⟩
  have hset : ∀ p q, (setIfPortRate i p q).wp PortView.Step
      (fun _ v' => PortApplied i 1 v' ∧ v'.serialLoopback = false)
        { v with serialLoopback := false } := by
    intro p q
    refine (wp_setIfPortRate hoff.rateNext hoff.multiRate).mpr ?_
    split
    next => exact ⟨hoff.rateSet, rfl⟩
    next => exact ⟨hoff, rfl⟩
  simp [switchLoopback, hset, hoff]

/-- **The loopback mode** is applied. -/
theorem loopbackPart_applied (h : PortApplied i 1 v) :
    (loopbackPart i).wp PortView.Step (fun _ => PortApplied i 2) v := by
  obtain ⟨hnext, hchange⟩ := h.loopback
  have hswitch := switchLoopback_applied h
  simp only [loopbackPart, setIfPortLoopback, Prog.wp_bind, Prog.wp_ite, wp_readWord, wp_perform,
    wp_writeWord, Prog.wp_pure, PortView.did, hnext]
  refine ⟨fun _ => Prog.wp_mono hswitch ?_, fun h0 => absurd hchange h0⟩
  rintro _ v' ⟨⟨hservice, ⟨hnext', hchange'⟩, hrnext, hrcurrent, hrate, htx, hals, hmulti⟩, hoff⟩
  exact ⟨hservice, ⟨hnext', hoff⟩, hrnext, hrcurrent, hrate, htx, hals, hmulti⟩

/-- The default rate is read back. -/
theorem wp_readIfPortRate {Q : Bool → PortView → Prop} (hclient : isClient i = true)
    (hmulti : v.word .capabilities &&& MULTI_RATE ≠ 0) (hselect : v.rateSelect = 1) :
    (readIfPortRate i p).wp PortView.Step Q v ↔ Q true (v.set .monitorRate PORT_RATE_STM1) := by
  have hone : (1 : UInt32) ≠ 0 := by decide
  have hrate : selectedRate 1 = some PORT_RATE_STM1 := by decide
  simp [readIfPortRate, hclient, hmulti, hselect, hrate, storeMonitorRate]
  exact ⟨fun h => (h 1 hone).2 hone, fun h w hw => ⟨fun h0 => absurd h0 hw, fun _ => h⟩⟩

/-- A bit of the capabilities other than `MULTI_RATE` changes nothing. -/
theorem PortApplied.setCapability {parts : ℕ} : KeepsCapability (PortApplied i parts) := by
  intro v mask on hmask hmask' h
  obtain ⟨hservice, hloopback, hnext, hcurrent, hrate, htx, hals, hmulti⟩ := h
  refine ⟨hservice, hloopback, hnext, hcurrent, hrate, htx, hals, ?_⟩
  have hword : (v.setCapability mask on).word .capabilities &&& MULTI_RATE =
      v.word .capabilities &&& MULTI_RATE := capability_multiRate hmask hmask'
  rw [hword]
  exact hmulti

/-- **The default rate is confirmed.** -/
theorem confirmRate_applied (hclient : isClient i = true) (h : PortApplied i 2 v)
    (hselect : v.rateSelect = 1) (hrx : v.rateRx = PORT_RATE_STM1) :
    (confirmRate i p).wp PortView.Step (fun _ => PortApplied i 3) v := by
  rw [confirmRate, Prog.wp_bind, wp_readIfPortRate hclient (h.multiRate.mpr hclient) hselect]
  obtain ⟨hservice, hloopback, hnext, hcurrent, hrate, htx, hals, hmulti⟩ := h
  have hmonitor : (v.set .monitorRate PORT_RATE_STM1).word .monitorRate = PORT_RATE_STM1 := rfl
  have hasked : (v.set .monitorRate PORT_RATE_STM1).word (.control .rate .next) =
      PORT_RATE_STM1 := hnext
  have hend : ∀ v', PortApplied i 3 v' → PortApplied i 3
      ((v'.set (.control .resetCounters .change) 1).set (.control .rate .change) 0) := by
    rintro v' ⟨hservice, hloopback, hnext, hcurrent, hrate, htx, hals, hmulti⟩
    exact ⟨hservice, hloopback, hnext, hcurrent, hrate, htx, hals, hmulti⟩
  simp [hmonitor, hasked]
  refine Prog.wp_mono (rateModified_keeps PortApplied.setCapability ?_) fun _ => hend
  exact ⟨hservice, hloopback, hnext, hnext, fun _ => ⟨hselect, hrx, rfl⟩, htx, hals, hmulti⟩

/-- **The rate** is applied. -/
theorem ratePart_applied (h : PortApplied i 2 v) :
    (ratePart i).wp PortView.Step (fun _ => PortApplied i 3) v := by
  by_cases hclient : isClient i = true
  · have hset : PortApplied i 2 v.rateSet := by
      obtain ⟨hservice, hloopback, hnext, hcurrent, hrate, htx, hals, hmulti⟩ := h
      exact ⟨hservice, hloopback, hnext, rfl, hrate, htx, hals, hmulti⟩
    have hchange := h.rate hclient
    have hmulti := h.multiRate.mpr hclient
    have hconfirm : ∀ p, (confirmRate i p).wp PortView.Step (fun _ => PortApplied i 3) v.rateSet :=
      fun p => confirmRate_applied hclient hset rfl rfl
    simp [ratePart, wp_setIfPortRate, h.rateNext, h.multiRate, hclient, hchange, hmulti, hconfirm]
  · have hsingle := not_not.mp (mt h.multiRate.mp hclient)
    obtain ⟨hservice, hloopback, hnext, hcurrent, hrate, htx, hals, hmulti⟩ := h
    simp [ratePart, hsingle, cancelRequest]
    refine ⟨fun _ => ?_, fun _ => ?_⟩
    · exact ⟨hservice, hloopback, hnext, hcurrent, fun h => absurd h hclient, htx, hals, hmulti⟩
    · exact ⟨hservice, hloopback, hcurrent, hcurrent, fun h => absurd h hclient, htx, hals, hmulti⟩

/-- **The transmitter** is applied. -/
theorem txPart_applied (h : PortApplied i 3 v) :
    (txPart i).wp PortView.Step (fun _ => PortApplied i 4) v := by
  obtain ⟨hservice, hloopback, hrnext, hrcurrent, hrate, ⟨hnext, hchange⟩, hals, hmulti⟩ := h
  simp [txPart, hnext, hchange]
  refine ⟨fun _ => ?_, fun _ => ?_⟩ <;>
    exact ⟨hservice, hloopback, hrnext, hrcurrent, hrate, ⟨rfl, rfl⟩, hals, hmulti⟩

/-- **The requests for the defaults of an interface are applied.** -/
theorem taskInterface_applied (h : PortApplied i 0 v) :
    (taskInterface i).wp PortView.Step (fun _ => PortApplied i 4) v := by
  simp only [taskInterface, Prog.wp_bind]
  refine Prog.wp_mono (resetPart_keeps (fun _ => h.set (.inl rfl)) h) fun _ v₀ h₀ => ?_
  refine Prog.wp_mono (servicePart_applied h₀) fun _ v₁ h₁ => ?_
  refine Prog.wp_mono (loopbackPart_applied h₁) fun _ v₂ h₂ => ?_
  refine Prog.wp_mono (ratePart_applied h₂) fun _ v₃ h₃ => ?_
  exact Prog.wp_mono (txPart_applied h₃) fun _ v₄ h₄ =>
    rebootPart_keeps (fun _ => h₄.set (.inr rfl)) h₄

end card

/-! ### Passes -/

section ports

/-- An operation has to do with an interface. -/
def OfPort (i : Fin INTERFACE_COUNT) (_ : Place) (o : TaskOp) : Prop := o.port = i

variable {i : Fin INTERFACE_COUNT} {p : Place}

attribute [local simp] allOps_op_bind allOps_ite allOps_ite_bind allOps_map allOps_perform
  allOps_perform_bind allOps_readWord_bind writeWord OfPort TaskOp.port

/-- Setting the rate of an interface. -/
theorem setIfPortRate_port {q : UInt32 → Place} : (setIfPortRate i p q).AllOps (OfPort i) := by
  simp [setIfPortRate]

/-- The cases of a loopback mode. -/
theorem switchLoopback_port {mode : UInt32} : (switchLoopback i mode).AllOps (OfPort i) := by
  simp [switchLoopback, setIfPortRate_port]

/-- The confirmation of a rate. -/
theorem confirmRate_port : (confirmRate i p).AllOps (OfPort i) := by
  have hstore : ∀ rate, (storeMonitorRate i p rate).AllOps (OfPort i) := by
    intro rate
    cases rate with
    | none => trivial
    | some rate => simp [storeMonitorRate]
  have hread : (readIfPortRate i p).AllOps (OfPort i) := by
    simp [readIfPortRate, hstore]
  refine hread.bind fun read => ?_
  simp [rateModified]

/-- What the task does for an interface it does to that interface. -/
theorem taskInterface_port : (taskInterface i).AllOps (OfPort i) := by
  have hreset : (resetPart i).AllOps (OfPort i) := by simp [resetPart]
  have hservice : (servicePart i).AllOps (OfPort i) := by
    simp [servicePart, switchState, stateCases]
  have hloopback : (loopbackPart i).AllOps (OfPort i) := by
    simp [loopbackPart, setIfPortLoopback]
    intro _ _ mode
    refine switchLoopback_port.bind fun _ => ?_
    simp
  have hrate : (ratePart i).AllOps (OfPort i) := by
    simp [ratePart, cancelRequest]
    intro _ _ cap _
    refine setIfPortRate_port.bind fun set => ?_
    cases set with
    | none => simp
    | some rate => exact confirmRate_port
  have htx : (txPart i).AllOps (OfPort i) := by simp [txPart]
  have hreboot : (rebootPart i).AllOps (OfPort i) := by simp [rebootPart]
  exact hreset.bind fun _ => hservice.bind fun _ => hloopback.bind fun _ => hrate.bind fun _ =>
    htx.bind fun _ => hreboot

end ports

section unit

variable {L : Layout}

/-- The hardware does as it is told. -/
def CardMemory.Succeeds (C : CardMemory L) :
    Condition CardState Unit ControlRequest Bool Place TaskOp UInt32 :=
  fun _ s next e =>
    ∀ p o w, next = some (p, o) → e = .task w → (C.portView o.port s).Answers o w

/-- A pass of `task_10` without requests from outside, whose calls of the hardware succeed. The ALS
is none of its hardware. -/
def CardMemory.AppliedPass (C : CardMemory L) (E : KursEnv) (u u' : UnitState) : Prop :=
  u'.als = u.als ∧ ∃ h, (C.task10Machine E).Run (u.card, .done ()) ((.start (), .started) :: h)
      (u'.card, .done ()) ∧
    (C.system E).Meets (fun _ => task10) u.card C.Succeeds ((.start (), .started) :: h) ∧
    ∀ e ∈ h, ∃ w y, e = (.task w, y)

variable {C : CardMemory L} {E : KursEnv} {i : Fin INTERFACE_COUNT} {u u' s b : UnitState}
  {T : DefaultTexts} {stray : UInt32}

/-- **A pass is always possible.** -/
theorem appliedPass_exists (u : UnitState) : ∃ u', C.AppliedPass E u u' := by
  have hanswer : ∀ (h : TaskHistory) (s : CardState) (p : Place) (o : TaskOp), ∃ w s',
      (C.system E).act s o w = some s' ∧ C.Succeeds h s (some (p, o)) (.task w) := by
    intro h s p o
    obtain ⟨w, hw⟩ := exists_answers (v := C.portView o.port s) (o := o)
    have hact : ∃ s', C.act s o w = some s' := by
      cases o with
      | read f i => exact ⟨s, if_pos hw⟩
      | getTxDisable i => exact ⟨s, if_pos hw⟩
      | _ => exact ⟨_, rfl⟩
    obtain ⟨s', hs'⟩ := hact
    refine ⟨w, s', hs', ?_⟩
    intro p' o' w' hnext he
    obtain ⟨rfl, rfl⟩ := Prod.mk.inj (Option.some.inj hnext)
    obtain rfl := Event.task.inj he
    exact hw
  have hstart : C.Succeeds [] u.card none (.start ()) := fun p o w hnext => by cases hnext
  have hrun : ∃ h s', (C.task10Machine E).Run (u.card, .done ()) ((.start (), .started) :: h)
        (s', .done ()) ∧
      (C.system E).Meets (fun _ => task10) u.card C.Succeeds ((.start (), .started) :: h) ∧
      ∀ e ∈ h, ∃ w y, e = (.task w, y) := System.exists_run hanswer hstart
  obtain ⟨h, s', hr, hmeets, htask⟩ := hrun
  exact ⟨⟨s', u.als⟩, rfl, h, hr, hmeets, htask⟩

/-- **A pass takes each interface from one assertion to another**, if what it does for that
interface does. -/
theorem appliedPass_ports {A B : Fin INTERFACE_COUNT → PortView → Prop}
    (hport : ∀ i v, A i v → (taskInterface i).wp PortView.Step (fun _ => B i) v)
    (hpass : C.AppliedPass E u u') (hA : ∀ i, A i (C.portView i u.card)) :
    ∀ i, B i (C.portView i u'.card) := by
  obtain ⟨-, h, hr, hmeets, htask⟩ := hpass
  have hstep : ∀ (h : TaskHistory) s p o w s', C.Succeeds h s (some (p, o)) (.task w) →
      (C.system E).act s o w = some s' → C.Step s o w s' := fun h s p o w s' hc hact =>
    ⟨hact, hc p o w rfl rfl⟩
  have hframe : ∀ i j, i ≠ j → ∀ s, (taskInterface i).wp C.Step
      (fun _ s' => C.portView j s' = C.portView j s) s := fun i j hij s =>
    Prog.wp_frame taskInterface_port fun _ o ho s w s' hs =>
      (portView_step hs).2 fun hj => hij (ho.symm.trans hj)
  have hwork : ∀ i s, A i (C.portView i s) → (taskInterface i).wp C.Step
      (fun _ s' => B i (C.portView i s')) s := fun i s hi =>
    Prog.wp_view taskInterface_port (fun _ o ho s w s' hs => (portView_step hs).1 ho) (hport i _ hi)
  have hwp := Prog.wp_forM_views (s := u.card) (List.nodup_finRange INTERFACE_COUNT) hframe hwork
    fun i _ => hA i
  exact fun i => System.wp_run hstep hr hmeets htask hwp i (List.mem_finRange i)

/-- **A pass applies the requests for the defaults.** -/
theorem appliedPass_applied (hpass : C.AppliedPass E u u')
    (hasked : ∀ i, PortAsked i fun f => C.word u.card.mem f i) :
    ∀ i, PortApplied i 4 (C.portView i u'.card) := by
  refine appliedPass_ports (fun _ _ => taskInterface_applied) hpass fun i => ?_
  exact ⟨⟨(hasked i).serviceNext, (hasked i).serviceChange⟩,
    ⟨(hasked i).loopbackNext, (hasked i).loopbackChange⟩, (hasked i).rateNext,
    (hasked i).rateCurrent, (hasked i).rateChange, ⟨(hasked i).txNext, (hasked i).txChange⟩,
    (hasked i).alsControl, (hasked i).multiRate⟩

/-! ### Settings -/

/-- The settings of an interface that are effective: what is stored, and what the hardware has been
set to. -/
structure PortSettings where
  serviceState : UInt32
  monitor : UInt32
  txDisable : UInt32 × Bool
  loopbackMode : UInt32 × Bool
  rate : UInt32
  /-- For a client: the selection, the rate of the receiver, and the rate that is read back. -/
  clientRate : Option (UInt32 × UInt32 × UInt32)
  alsControl : UInt32
  /-- For a client: the mode that its ALS is enabled in. -/
  als : Option (Option UInt32)
  deriving DecidableEq, Repr

/-- The mode that the ALS of a client is enabled in. -/
def AlsHardware.enabledMode (a : AlsHardware) (c : Client) : Option UInt32 :=
  if a.enable c then some (a.mode c) else none

/-- The settings of an interface. -/
def CardMemory.effective (C : CardMemory L) (u : UnitState) (i : Fin INTERFACE_COUNT) :
    PortSettings where
  serviceState := C.word u.card.mem (.control .serviceState .current) i
  monitor := C.word u.card.mem .monitor i
  txDisable := (C.word u.card.mem (.control .txDisable .current) i, u.card.hw.txDisable i)
  loopbackMode :=
    (C.word u.card.mem (.control .loopbackMode .current) i, u.card.hw.serialLoopback i)
  rate := C.word u.card.mem (.control .rate .current) i
  clientRate :=
    if isClient i then
      some (u.card.hw.rateSelect i, u.card.hw.rateRx i, C.word u.card.mem .monitorRate i)
    else none
  alsControl := C.word u.card.mem .alsControl i
  als := (asClient i).map u.als.enabledMode

/-- The default settings, with the mode of the ALS. -/
def settledSettings (i : Fin INTERFACE_COUNT) (als : Option (Option UInt32)) : PortSettings where
  serviceState := IF_SERVICE_STATE_IS
  monitor := ACTIVITY_MONITOR_ON
  txDisable := (0, false)
  loopbackMode := (MODE_LB_NORMAL, false)
  rate := PORT_RATE_STM1
  clientRate := if isClient i then some (1, PORT_RATE_STM1, PORT_RATE_STM1) else none
  alsControl := ALS_CONTROL_DISABLED
  als := als

/-- **The settings behind a pass** are the defaults, but for the ALS. -/
theorem appliedPass_effective (hpass : C.AppliedPass E u u')
    (hasked : ∀ i, PortAsked i fun f => C.word u.card.mem f i) :
    C.effective u' i = settledSettings i ((asClient i).map u.als.enabledMode) := by
  obtain ⟨⟨hservice, hmonitor⟩, ⟨hloopback, hserial⟩, -, hcurrent, hrate, ⟨htx, hoff⟩, hals, -⟩ :=
    appliedPass_applied hpass hasked i
  simp only [CardMemory.portView] at hservice hmonitor hloopback hserial hcurrent hals
  simp only [CardMemory.portView] at hrate htx hoff
  rw [CardMemory.effective, settledSettings, hservice, hmonitor, hloopback, hserial, hcurrent, htx,
    hoff, hals, hpass.1]
  split
  next hclient =>
    obtain ⟨hselect, hrx, hread⟩ := hrate hclient
    rw [hselect, hrx, hread]
  next => rfl

/-! ### A reset and a boot -/

/-- The main loop on the card: it has nothing to do with the ALS. -/
def CardMemory.restoreDefaults (C : CardMemory L) (T : DefaultTexts) (u : UnitState) : UnitState :=
  { u with card.mem := C.mainLoop T u.card.mem }

theorem restoreDefaults_mem : (C.restoreDefaults T u).card.mem = C.mainLoop T u.card.mem := rfl

/-- The request for an ALS mode, which sets it in the hardware. -/
def UnitState.alsRequest (E : KursEnv) (L : Layout) (stray : UInt32) (i : Fin INTERFACE_COUNT)
    (value : UInt32) (u : UnitState) : UnitState :=
  match usersetSwitch E L (.setAlsMode (ifIndex i)) value u.card.mem with
  | (true, m) => { card := { u.card with mem := m }, als := u.als.setMode stray i (value &&& 3) }
  | (false, _) => u

/-- The request to reset to the defaults. -/
def UnitState.resetRequest (E : KursEnv) (L : Layout) (u : UnitState) : UnitState :=
  { u with card.mem := (usersetSwitch E L .reset 0 u.card.mem).2 }

/-- The request is left to the main loop. -/
theorem resetRequest_restore (C : CardMemory L) :
    (u.resetRequest E L).card.mem (C.addr (.card .restore)) = 1 := by
  rw [C.restore_eq]
  exact Function.update_self ..

/-- The ALS of a client, as it is effective. -/
theorem enabledMode_eq_none {a : AlsHardware} {c : Client} :
    a.enabledMode c = none ↔ a.enable c = false := by
  simp [AlsHardware.enabledMode]

/-- The settings behind a boot: no ALS is enabled. -/
theorem boot_effective (hb : C.Configured b.card.mem)
    (hboot : C.AppliedPass E (C.boot T stray b) u) :
    C.effective u i = settledSettings i ((asClient i).map fun _ => none) := by
  have hasked : ∀ i, PortAsked i (C.bootView i (C.boot T stray b)).1 ∧
      (C.bootView i (C.boot T stray b)).2 = (asClient i).map fun _ => false := boot_asked hb
  -- the state behind the boot is large, and is not looked at again
  obtain ⟨u₀, hu₀⟩ : ∃ u₀, u₀ = C.boot T stray b := ⟨_, rfl⟩
  rw [← hu₀] at hasked hboot
  have hoff : (asClient i).map u₀.als.enabledMode = (asClient i).map fun _ => none := by
    have henable : (asClient i).map u₀.als.enable = (asClient i).map fun _ => false :=
      (hasked i).2
    cases hi : asClient i with
    | none => rfl
    | some c =>
        rw [hi] at henable
        exact congrArg some (enabledMode_eq_none.mpr (Option.some.inj henable))
  rw [appliedPass_effective hboot fun i => (hasked i).1, hoff]

/-- **A reset to the defaults ends with the settings of a boot** exactly where no ALS has been
enabled. -/
theorem resetToDefaults_iff_boot (C : CardMemory L) (E : KursEnv) (T T' : DefaultTexts)
    (stray : UInt32) {s s' b b' : UnitState} (hs : C.Configured s.card.mem)
    (hb : C.Configured b.card.mem) (hrestore : s.card.mem (C.addr (.card .restore)) = 1)
    (hreset : C.AppliedPass E (C.restoreDefaults T s) s')
    (hboot : C.AppliedPass E (C.boot T' stray b) b') :
    (∀ i, C.effective s' i = C.effective b' i) ↔ ∀ c, s.als.enable c = false := by
  have hasked : ∀ i, PortAsked i fun f => C.word (C.restoreDefaults T s).card.mem f i := by
    rw [restoreDefaults_mem]
    exact mainLoop_asked hs hrestore
  have heffective : ∀ i, C.effective s' i =
      settledSettings i ((asClient i).map s.als.enabledMode) :=
    fun i => appliedPass_effective (u := C.restoreDefaults T s) hreset hasked
  simp only [heffective, boot_effective hb hboot]
  constructor
  · intro h c
    have hi : asClient c.interface = some c := dif_pos c.isLt
    have hals : (asClient c.interface).map s.als.enabledMode =
        (asClient c.interface).map fun _ => none := congrArg PortSettings.als (h c.interface)
    rw [hi, Option.map_some, Option.map_some] at hals
    exact enabledMode_eq_none.mp (Option.some.inj hals)
  · intro h i
    cases asClient i with
    | none => rfl
    | some c => rw [Option.map_some, Option.map_some, enabledMode_eq_none.mpr (h c)]

end unit

/-! ### A card -/

/-- A memory where the pointers to the ALS modules and the capabilities of the clients are set. -/
def configuredMemory : Mem :=
  clients.foldl (fun m i => m.store32 (cardMemory.addr (.port .capabilities i)) MULTI_RATE)
    readyMemory

theorem configuredMemory_configured : cardMemory.Configured configuredMemory := by
  constructor
  · unfold CardMemory.AlsReady
    decide +kernel
  · decide +kernel

/-- A unit with that memory. -/
def configuredUnit : UnitState where
  card := { idleCard with mem := configuredMemory }
  als := ⟨fun _ => false, fun _ => 0⟩

/-- Literals without anything behind them. -/
def emptyTexts : DefaultTexts :=
  ⟨Vector.replicate 65 0, Vector.replicate 17 0, Vector.replicate 65 0⟩

/-- An environment where the ALS mode can be set. -/
def alsEnv : KursEnv := { sampleEnv with alsSetMode := fun _ _ => true }

/-- The unit, with nothing but a reset asked for. -/
def resetUnit : UnitState := configuredUnit.resetRequest alsEnv cardLayout

theorem resetUnit_configured : cardMemory.Configured resetUnit.card.mem :=
  configured_of_writes configuredMemory_configured
    (Placement.Writes.store8 (v := CardVar.card .restore) rfl (by decide)) rfl

/-- The unit is reset, and another one like it boots. -/
theorem resetToDefaults_disabled : ∃ s' b',
    cardMemory.AppliedPass alsEnv (cardMemory.restoreDefaults emptyTexts resetUnit) s' ∧
    cardMemory.AppliedPass alsEnv (cardMemory.boot emptyTexts 0 configuredUnit) b' ∧
    ∀ i, cardMemory.effective s' i = cardMemory.effective b' i := by
  obtain ⟨s', hs'⟩ := appliedPass_exists (C := cardMemory) (E := alsEnv)
    (cardMemory.restoreDefaults emptyTexts resetUnit)
  obtain ⟨b', hb'⟩ := appliedPass_exists (C := cardMemory) (E := alsEnv)
    (cardMemory.boot emptyTexts 0 configuredUnit)
  exact ⟨s', b', hs', hb', (resetToDefaults_iff_boot cardMemory alsEnv emptyTexts emptyTexts 0
    resetUnit_configured configuredMemory_configured (resetRequest_restore cardMemory) hs' hb').mpr
      fun _ => rfl⟩

/-- **The ALS of a client stays enabled**: a unit boots with the default preferences, the ALS of
its first client is set to `ALS_CONTROL_REMOTE`, and the unit is reset to the defaults. -/
theorem resetToDefaults_keeps_als : ∃ b' u s',
    cardMemory.AppliedPass alsEnv (cardMemory.boot emptyTexts 0 configuredUnit) b' ∧
    u = (b'.alsRequest alsEnv cardLayout 0 0 ALS_CONTROL_REMOTE).resetRequest alsEnv cardLayout ∧
    u.card.mem (cardMemory.addr (.card .restore)) = 1 ∧
    cardMemory.AppliedPass alsEnv (cardMemory.restoreDefaults emptyTexts u) s' ∧
    (cardMemory.effective b' 0).als = some none ∧ (cardMemory.effective s' 0).als = some (some 2) ∧
    cardMemory.effective s' 0 ≠ cardMemory.effective b' 0 := by
  obtain ⟨b', hb'⟩ := appliedPass_exists (C := cardMemory) (E := alsEnv)
    (cardMemory.boot emptyTexts 0 configuredUnit)
  obtain ⟨u, hu⟩ : ∃ u, u = (b'.alsRequest alsEnv cardLayout 0 0
    ALS_CONTROL_REMOTE).resetRequest alsEnv cardLayout := ⟨_, rfl⟩
  obtain ⟨s', hs'⟩ := appliedPass_exists (C := cardMemory) (E := alsEnv)
    (cardMemory.restoreDefaults emptyTexts u)
  have hrestore : u.card.mem (cardMemory.addr (.card .restore)) = 1 := by
    rw [hu]
    exact resetRequest_restore cardMemory
  have hclient : asClient 0 = some 0 := rfl
  have hboot : (cardMemory.effective b' 0).als = some none := by
    rw [boot_effective configuredMemory_configured hb', settledSettings, hclient]
    rfl
  have hals : s'.als = b'.als.setMode 0 0 ALS_CONTROL_REMOTE := by
    rw [hs'.1, hu]
    rfl
  have hreset : (cardMemory.effective s' 0).als = some (some 2) := by
    have henabled : ALS_CONTROL_REMOTE ≠ ALS_CONTROL_DISABLED := by decide
    have hmode : mapAlsFromKursValue 0 ALS_CONTROL_REMOTE = 2 := by decide
    simp [CardMemory.effective, hals, AlsHardware.setMode, AlsHardware.enabledMode, hclient,
      henabled, hmode]
  refine ⟨b', u, s', hb', hu, hrestore, hs', hboot, hreset, ?_⟩
  intro heq
  rw [heq, hboot] at hreset
  cases hreset

end Muxponder
