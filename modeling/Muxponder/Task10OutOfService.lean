import Muxponder.Lib.Uninterrupted
import Muxponder.Task10Handshake

/-!
# Out of Service Means Laser Off

When `task_10` takes an interface out of service it asks for its transmitter to be switched off,
and the callback refuses to switch on the transmitter of an interface that is out of service. But
what the callback looks at is `current`, where the handler has stored the value of a request
before the task has applied it; and what the task stores as the state of an interface is what it
finds in `next` behind the switch, whatever it has switched over. `KeepsOff` says which requests
may come where, and `outOfService_txOff` that then a transmitter is off while its interface is out
of service.

## Main results

* `servicePart_goingOff`: an interface that is out of service behind the switch has a transmitter
  that is off or goes off.
* `outOfService_txOff`: it is off behind every pass.
* `outOfService_txOn`: a transmitter that is switched on out of service.
-/

namespace Muxponder

open Memory Interrupts

/-! ### Requests that keep a transmitter off -/

/-- The task has stored that the interface is out of service. -/
def ControlView.Stopped (x : ControlView) : Prop := x.kept = some IF_SERVICE_STATE_OOS

/-- A transmitter is off, or is to be switched off where its request is pending. -/
def ControlView.GoingOff (y : ControlView) : Prop :=
  if y.change = 0 then y.txOff = true else y.next ≠ 0

/-- A request to switch the transmitter on does no harm at a place: the interface is not out of
service, and will not be when the task comes to the transmitter. The view is that of the service
state. -/
def Part.AdmitsOn (part : Part) (x : ControlView) : Prop :=
  match part with
  | .switching seen => seen ≠ IF_SERVICE_STATE_OOS → x.next ≠ IF_SERVICE_STATE_OOS
  | .stopping => x.next ≠ IF_SERVICE_STATE_OOS
  | .storing _ state | .clearing _ state => state ≠ IF_SERVICE_STATE_OOS
  | .passing | .looping _ | .rating _ | .failing => ¬ x.Stopped
  | .clearingTx _ => True
  | .start | .passed => x.Stopped → x.change ≠ 0

/-- A request to go out of service does no harm at a place: the task will still switch over it, or
the transmitter goes off anyway. The view is that of the transmitter. -/
def Part.AdmitsStop (part : Part) (y : ControlView) : Prop :=
  match part with
  | .switching seen => seen ≠ IF_SERVICE_STATE_OOS → y.GoingOff
  | .stopping => y.next ≠ 0
  | _ => True

/-- Where the task is with an interface; with another one, it is in front of this or behind. -/
def partAt (next : Option (Place × TaskOp)) (i : Fin INTERFACE_COUNT) : Part :=
  match next with
  | some (p, _) => if p.port = i then p.part else .start
  | none => .start

section service

variable {L : Layout}

/-- The condition: no request switches a transmitter on, or takes an interface out of service, where
that does harm. -/
def CardMemory.KeepsOff (C : CardMemory L) (E : KursEnv) :
    Condition CardState Unit ControlRequest Bool Place TaskOp UInt32 := fun h s next e =>
  match e with
  | .interrupt q => (C.setRequest E s q).2 = true →
      (q.control = .rate → q.port = 0) ∧
      (q.control = .txDisable → q.asked E = 0 →
        (partAt next q.port).AdmitsOn (C.view E .serviceState q.port h s)) ∧
      (q.control = .serviceState → q.asked E = IF_SERVICE_STATE_OOS →
        (partAt next q.port).AdmitsStop (C.view E .txDisable q.port h s))
  | _ => True

variable {C : CardMemory L} {E : KursEnv} {c : Control} {i j : Fin INTERFACE_COUNT}
  {h : TaskHistory} {s : CardState} {q : ControlRequest} {p : Place} {o : TaskOp}
  {next : Option (Place × TaskOp)} {x y : ControlView}

/-! ### Assertions about the two views -/

/-- An assertion about the views of the service state and the transmitter. -/
abbrev CardMemory.OnBoth (C : CardMemory L) (E : KursEnv) (i : Fin INTERFACE_COUNT)
    (A : ControlView → ControlView → Prop) :
    Assertion CardState Unit ControlRequest Bool Place TaskOp UInt32 :=
  C.On E i fun V => A (V .serviceState) (V .txDisable)

/-- Whenever the task is idle, the transmitter is off if the interface is out of service. -/
def OffWhenIdle (E : KursEnv) (i : Fin INTERFACE_COUNT) (next : Option (Place × TaskOp)) :
    Assertion CardState Unit ControlRequest Bool Place TaskOp UInt32 := fun h s =>
  next = none → (account E .serviceState i h).kept = some IF_SERVICE_STATE_OOS →
    s.hw.txDisable i = true

/-- A program of the task with assertions about the two views. -/
abbrev CardMemory.BothTriple (C : CardMemory L) (E : KursEnv) (i : Fin INTERFACE_COUNT) {α : Type}
    (A : ControlView → ControlView → Prop) (prog : TaskProg α)
    (B : α → ControlView → ControlView → Prop) : Prop :=
  Triple (C.system E) (C.KeepsOff E) (OffWhenIdle E i) (C.OnBoth E i A) prog
    fun a => C.OnBoth E i (B a)

/-- The requests that may come in front of an operation keep an assertion. -/
structure KeepsOn (E : KursEnv) (part : Part) (A : ControlView → ControlView → Prop) : Prop where
  /-- A request for the transmitter. -/
  tx : ∀ x y q, q.control = .txDisable → (q.asked E = 0 → part.AdmitsOn x) → A x y →
    A x (y.request E q)
  /-- A request for the service state. -/
  state : ∀ x y q, q.control = .serviceState →
    (q.asked E = IF_SERVICE_STATE_OOS → part.AdmitsStop y) → A x y → A (x.request E q) y

/-- The condition says which client a data type is for. -/
theorem keepsOff_addressed : C.Addressed E (C.KeepsOff E) :=
  fun _ _ _ _ hcond haccepted => (hcond haccepted).1

/-- An assertion is stable where the requests that may come keep it. -/
theorem stable_both {A : ControlView → ControlView → Prop}
    (hA : KeepsOn E (partAt next i) A) :
    Stable (C.system E) (C.KeepsOff E) next (C.OnBoth E i A) := by
  refine stable_on keepsOff_addressed fun h s q hcond haccepted hport _ hx => ?_
  obtain ⟨-, hon, hstop⟩ := hcond haccepted
  rw [hport] at hon hstop
  cases hc : q.control with
  | txDisable =>
      rw [Views.request, hc, Function.update_self, Function.update_of_ne (by simp)]
      exact hA.tx _ _ q hc (hon hc) hx
  | serviceState =>
      rw [Views.request, hc, Function.update_self, Function.update_of_ne (by simp)]
      exact hA.state _ _ q hc (hstop hc) hx
  | _ =>
      rw [Views.request, hc, Function.update_of_ne (by simp), Function.update_of_ne (by simp)]
      exact hx

/-- An operation, with assertions about the two views. -/
theorem both_op {A : ControlView → ControlView → Prop}
    {B : UInt32 → ControlView → ControlView → Prop} (hA : KeepsOn E (partAt (some (p, o)) i) A)
    (hB : ∀ x y w, A x y → x.Answers .serviceState i o w → y.Answers .txDisable i o w →
      B w (x.did .serviceState i o) (y.did .txDisable i o)) :
    C.BothTriple E i A (Prog.op p o) B :=
  triple_op (stable_both hA) (fun _ _ _ hidle => by cases hidle)
    fun _ _ w _ hx hw => hB _ _ w hx (hw _) (hw _)

/-- A write or a call. -/
theorem both_perform {A B : ControlView → ControlView → Prop}
    (hA : KeepsOn E (partAt (some (p, o)) i) A)
    (hB : ∀ x y, A x y → B (x.did .serviceState i o) (y.did .txDisable i o)) :
    C.BothTriple E i A (perform p o) fun _ => B :=
  triple_perform (stable_both hA) (fun _ _ _ hidle => by cases hidle)
    fun _ hx _ _ => hB _ _ hx

/-- A program that spares both controls. -/
theorem both_spared {α : Type} {prog : TaskProg α} {A : ControlView → ControlView → Prop}
    {parts : Part → Prop} (hstate : prog.AllOps (Spares parts .serviceState i j))
    (htx : prog.AllOps (Spares parts .txDisable i j))
    (hA : ∀ p o, p.port = j → parts p.part → KeepsOn E (partAt (some (p, o)) i) A) :
    C.BothTriple E i A prog fun _ => A := by
  refine triple_spared ((hstate.and htx).mono fun p o ho => ⟨⟨stable_both (hA p o ho.1.1 ho.1.2.1),
    fun _ _ _ hidle => by cases hidle⟩, fun V hV => ?_⟩)
  simp only [Views.did, did_of_spared ho.1.2.2, did_of_spared ho.2.2.2]
  exact hV

/-- A weaker assertion behind a program, and a stronger one in front. -/
theorem both_conseq {α : Type} {prog : TaskProg α} {A A' : ControlView → ControlView → Prop}
    {B B' : α → ControlView → ControlView → Prop} (hprog : C.BothTriple E i A prog B)
    (hA : ∀ x y, A' x y → A x y) (hB : ∀ a x y, B a x y → B' a x y) :
    C.BothTriple E i A' prog B' :=
  hprog.conseq (fun _ _ => hA _ _) fun _ _ _ => hB _ _ _

/-! ### What requests keep -/

/-- A request does not store the state of the interface. -/
@[simp] theorem stopped_request : (x.request E q).Stopped ↔ x.Stopped := Iff.rfl

/-- It sets `change`. -/
@[simp] theorem request_change : (x.request E q).change = 1 := rfl

/-- It writes `next`. -/
@[simp] theorem request_next : (x.request E q).next = q.asked E := rfl

/-- It does not set the transmitter. -/
@[simp] theorem request_txOff : (y.request E q).txOff = y.txOff := rfl

/-- Behind a request the transmitter goes off if that is what is asked for. -/
@[simp] theorem goingOff_request : (y.request E q).GoingOff ↔ q.asked E ≠ 0 := by
  rw [ControlView.GoingOff, request_change, if_neg (by simp), request_next]

/-- In front of an interface and behind it: if it is out of service, its transmitter is off, and
stays off if no request for its state is pending. -/
def AtRest (x y : ControlView) : Prop :=
  x.Stopped → y.txOff = true ∧ (x.change = 0 → y.GoingOff)

/-- Between the service state and the transmitter. -/
def AtPassing (x y : ControlView) : Prop := x.Stopped → y.GoingOff

/-- A state has been switched over, and is read again. -/
def AtSwitching (seen : UInt32) (x y : ControlView) : Prop :=
  seen ≠ IF_SERVICE_STATE_OOS → x.next = IF_SERVICE_STATE_OOS → y.GoingOff

/-- The transmitter of an interface that goes out of service is to be switched off. -/
def AtStopping (x y : ControlView) : Prop := x.next = IF_SERVICE_STATE_OOS → y.next ≠ 0

/-- A state has been read to be stored. -/
def AtStoring (state : UInt32) (y : ControlView) : Prop :=
  state = IF_SERVICE_STATE_OOS → y.GoingOff

/-- The `next` of the transmitter has been read. -/
def AtSetting (w : UInt32) (x y : ControlView) : Prop :=
  x.Stopped → w ≠ 0 ∧ (x.change = 0 → y.change ≠ 0 → y.next ≠ 0)

/-- At rest. -/
theorem keepsOn_rest {part : Part} (hpart : part = .start ∨ part = .passed) :
    KeepsOn E part AtRest where
  tx := by
    intro x y q _ hon hrest hstopped
    have hchange : q.asked E = 0 → x.change ≠ 0 := by
      intro h0
      rcases hpart with rfl | rfl <;> exact hon h0 hstopped
    refine ⟨(hrest hstopped).1, fun h0 => goingOff_request.mpr fun hasked => ?_⟩
    exact hchange hasked h0
  state := by
    intro x y q _ _ hrest hstopped
    exact ⟨(hrest hstopped).1, fun h0 => by simp at h0⟩

/-- Between the service state and the transmitter. -/
theorem keepsOn_passing {part : Part} (hpart : part.Between) : KeepsOn E part AtPassing where
  tx := by
    intro x y q _ hon _ hstopped
    refine goingOff_request.mpr fun h0 => ?_
    have hnot := hon h0
    cases part with
    | passing | looping | rating | failing => exact hnot hstopped
    | _ => exact hpart
  state := fun _ _ _ _ _ hpass => hpass

/-- Nothing is kept anywhere. -/
theorem keepsOn_true {part : Part} : KeepsOn E part fun _ _ => True where
  tx := fun _ _ _ _ _ _ => trivial
  state := fun _ _ _ _ _ _ => trivial

/-- While a state is being applied. -/
theorem keepsOn_switching {seen : UInt32} : KeepsOn E (.switching seen) (AtSwitching seen) where
  tx := by
    intro x y q _ hon _ hseen hnext
    exact goingOff_request.mpr fun h0 => hon h0 hseen hnext
  state := by
    intro x y q _ hstop _ hseen hnext
    exact hstop hnext hseen

/-- While an interface goes out of service. -/
theorem keepsOn_stopping : KeepsOn E .stopping AtStopping where
  tx := by
    intro x y q _ hon _ hnext h0
    exact hon h0 hnext
  state := by
    intro x y q _ hstop _ hnext
    exact hstop hnext

/-- And when its transmitter has been asked for. -/
theorem keepsOn_stopped : KeepsOn E .stopping fun x y => AtStopping x y ∧ y.change ≠ 0 where
  tx := by
    intro x y q hc hon hx
    exact ⟨keepsOn_stopping.tx x y q hc hon hx.1, by simp⟩
  state := by
    intro x y q hc hstop hx
    exact ⟨keepsOn_stopping.state x y q hc hstop hx.1, hx.2⟩

/-- While a state is being stored. -/
theorem keepsOn_storing {part : Part} {seen state : UInt32} {B : ControlView → Prop}
    (hpart : part = .storing seen state ∨ part = .clearing seen state)
    (hB : ∀ x q, B x → B (x.request E q)) :
    KeepsOn E part fun x y => AtStoring state y ∧ B x where
  tx := by
    intro x y q _ hon hx
    refine ⟨fun hstate => goingOff_request.mpr fun h0 => ?_, hx.2⟩
    rcases hpart with rfl | rfl <;> exact hon h0 hstate
  state := fun x y q _ _ hx => ⟨hx.1, hB x q hx.2⟩

/-- When the request for the transmitter has been seen. -/
theorem keepsOn_pending : KeepsOn E .passing fun x y => x.Stopped → y.change ≠ 0 ∧ y.next ≠ 0 where
  tx := by
    intro x y q _ hon _ hstopped
    exact ⟨by simp, fun h0 => hon h0 hstopped⟩
  state := fun _ _ _ _ _ hx => hx

/-- When it has been read. -/
theorem keepsOn_setting {w : UInt32} : KeepsOn E .passed (AtSetting w) where
  tx := by
    intro x y q _ hon hset hstopped
    refine ⟨(hset hstopped).1, fun h0 _ hasked => ?_⟩
    exact hon hasked hstopped h0
  state := by
    intro x y q _ _ hset hstopped
    exact ⟨(hset hstopped).1, fun h0 => by simp at h0⟩

/-- When the transmitter is as requested. -/
theorem keepsOn_off {part : Part} : KeepsOn E part fun x y => x.Stopped → y.txOff = true where
  tx := fun _ _ _ _ _ hx => hx
  state := fun _ _ _ _ _ hx => hx

/-! ### The service state -/

/-- The part of a place of the interface. -/
@[simp] theorem partAt_self {part : Part} : partAt (some (⟨i, part⟩, o)) i = part := if_pos rfl

/-- A place of another interface is in front of this one or behind. -/
theorem partAt_other (h : p.port ≠ i) : partAt (some (p, o)) i = .start := if_neg h

/-- The cases of the service state ask for the transmitter to be switched off. -/
theorem stateCases_switched {seen : UInt32} : C.BothTriple E i (AtSwitching seen)
    (stateCases i seen) fun _ x y => AtSwitching seen x y ∧
      (seen = IF_SERVICE_STATE_OOS → AtStopping x y ∧ y.change ≠ 0) := by
  have hread : ∀ o, ¬ o.Touches .serviceState i → ¬ o.Touches .txDisable i →
      C.BothTriple E i (AtSwitching seen) (perform ⟨i, .switching seen⟩ o)
        fun _ => AtSwitching seen := by
    intro o hstate htx
    refine both_perform (by rw [partAt_self]; exact keepsOn_switching) fun x y hx => ?_
    rwa [did_of_spared hstate, did_of_spared htx]
  have hmonitor : ∀ w, C.BothTriple E i (AtSwitching seen)
      (writeWord ⟨i, .switching seen⟩ .monitor i w) fun _ => AtSwitching seen := fun w =>
    hread _ (by simp [TaskOp.Touches]) (by simp [TaskOp.Touches])
  by_cases hseen : seen = IF_SERVICE_STATE_OOS
  · have hswitching : ∀ x y, AtSwitching seen x y := fun _ _ hne => absurd hseen hne
    rw [stateCases, if_pos hseen]
    refine .bind (hmonitor _) fun _ => .bind (both_perform (B := AtStopping)
      (by rw [partAt_self]; exact keepsOn_switching) ?_) fun _ => both_perform
        (by rw [partAt_self]; exact keepsOn_stopping) ?_
    · intro x y _ _
      simp [ControlView.did, TaskOp.result]
    · intro x y hx
      refine ⟨hswitching _ _, fun _ => ⟨?_, by simp [ControlView.did, TaskOp.result]⟩⟩
      simpa [AtStopping, ControlView.did, TaskOp.result] using hx
  · have hdone : ∀ x y, AtSwitching seen x y → AtSwitching seen x y ∧
        (seen = IF_SERVICE_STATE_OOS → AtStopping x y ∧ y.change ≠ 0) :=
      fun _ _ hx => ⟨hx, fun h => absurd h hseen⟩
    rw [stateCases, if_neg hseen]
    refine both_conseq (.ite (fun _ => hmonitor _) fun _ => .ite (fun _ => hmonitor _)
      fun _ => .pure fun _ _ hx => hx) (fun _ _ hx => hx) fun _ => hdone

/-- The state that is read to be stored. -/
theorem readState_storing {seen : UInt32} : C.BothTriple E i
    (fun x y => AtSwitching seen x y ∧
      (seen = IF_SERVICE_STATE_OOS → AtStopping x y ∧ y.change ≠ 0))
    (readWord ⟨i, afterSwitch seen⟩ (.control .serviceState .next) i)
    fun state _ y => AtStoring state y := by
  by_cases hseen : seen = IF_SERVICE_STATE_OOS
  · rw [afterSwitch, if_pos hseen]
    refine both_conseq (both_op (B := fun state _ y => AtStoring state y)
      (by rw [partAt_self]; exact keepsOn_stopped) fun x y w hx hw _ hstate => ?_)
      (fun x y hx => hx.2 hseen) fun _ _ _ hx => hx
    rw [did_of_spared (by simp [TaskOp.Touches]), ControlView.GoingOff, if_neg hx.2]
    exact hx.1 (hw.1 rfl ▸ hstate)
  · rw [afterSwitch, if_neg hseen]
    refine both_conseq (both_op (B := fun state _ y => AtStoring state y)
      (by rw [partAt_self]; exact keepsOn_switching) fun x y w hx hw _ hstate => ?_)
      (fun x y hx => hx.1) fun _ _ _ hx => hx
    rw [did_of_spared (by simp [TaskOp.Touches])]
    exact hx hseen (hw.1 rfl ▸ hstate)

/-- **The service state**: behind it the transmitter of an interface that is out of service is off
or goes off. -/
theorem servicePart_goingOff :
    C.BothTriple E i AtRest (servicePart i) fun _ => AtPassing := by
  refine .bind (both_op (B := fun w x y => w = 0 → AtPassing x y)
    (by rw [partAt_self]; exact keepsOn_rest (.inl rfl)) fun x y w hx hw _ h0 hstopped => ?_)
    fun w => .ite (fun _ => ?_) fun hw => .pure fun x y hx => hx (by simpa using hw)
  · rw [did_of_spared (by simp [TaskOp.Touches])] at hstopped ⊢
    exact (hx hstopped).2 (hw.2.2.1 rfl ▸ h0)
  refine .bind (both_conseq (both_op (A := fun _ _ => True) (B := AtSwitching) keepsOn_true
    fun x y w _ hw _ hne hnext => ?_) (fun _ _ _ => trivial) fun _ _ _ hx => hx) fun seen => ?_
  · rw [did_of_spared (by simp [TaskOp.Touches])] at hnext
    exact absurd ((hw.1 rfl).trans hnext) hne
  refine .bind (.bind (both_perform (B := AtSwitching seen)
    (by rw [partAt_self]; exact keepsOn_switching) fun x y hx => ?_) fun _ =>
      stateCases_switched) fun _ => .bind readState_storing fun state => ?_
  · rw [did_of_spared (c := .txDisable) (by simp [TaskOp.Touches])]
    exact hx
  have hstoring : KeepsOn E (.storing seen state) fun x y => AtStoring state y ∧ True :=
    keepsOn_storing (.inl rfl) fun _ _ h => h
  refine .bind (both_conseq (A := fun _ y => AtStoring state y ∧ True)
    (both_perform (B := fun x y => AtStoring state y ∧ x.kept = some state)
      (by rw [partAt_self]; exact hstoring) fun x y hx => ?_) (fun x y hx => ⟨hx, trivial⟩)
    fun _ _ _ hx => hx) fun _ => both_perform
      (by rw [partAt_self]; exact keepsOn_storing (.inr rfl) fun _ _ h => h) fun x y hx => ?_
  · rw [did_of_spared (c := .txDisable) (by simp [TaskOp.Touches])]
    exact ⟨hx.1, by simp [ControlView.did, Account.did]⟩
  · rw [did_of_spared (c := .txDisable) (by simp [TaskOp.Touches])]
    intro hstopped
    have hkept : x.kept = some IF_SERVICE_STATE_OOS := by
      simpa [ControlView.Stopped, ControlView.did, Account.did] using hstopped
    exact hx.1 (Option.some.inj (hx.2.symm.trans hkept))

/-! ### The transmitter -/

/-- An operation that leaves what is said of an interface at rest. -/
theorem passed_op (hstate : ¬ o.Touches .serviceState i)
    (htx : ∀ y : ControlView, (y.did .txDisable i o).change = y.change ∧
      (y.did .txDisable i o).next = y.next ∧ (y.did .txDisable i o).txOff = y.txOff) :
    C.BothTriple E i AtRest (Prog.op ⟨i, .passed⟩ o) fun _ => AtRest := by
  refine both_op (by rw [partAt_self]; exact keepsOn_rest (.inr rfl))
    fun x y w hx _ _ hstopped => ?_
  rw [did_of_spared hstate] at hstopped ⊢
  rw [ControlView.GoingOff, (htx y).1, (htx y).2.1, (htx y).2.2]
  exact hx hstopped

/-- A read of the transmitter. -/
theorem passed_read {f : PortField} : C.BothTriple E i AtRest (readWord ⟨i, .passed⟩ f i)
    fun _ => AtRest :=
  passed_op (by simp [TaskOp.Touches])
    fun _ => by simp [ControlView.did, TaskOp.result, TaskOp.transmitter]

/-- The transmitter of an interface that is out of service is switched off. -/
theorem setTxDisable_off {w : UInt32} : C.BothTriple E i (AtSetting w)
    (perform ⟨i, .passed⟩ (.setTxDisable i (w ≠ 0))) fun _ => AtRest := by
  refine both_perform (by rw [partAt_self]; exact keepsOn_setting) fun x y hx hstopped => ?_
  rw [did_of_spared (by simp [TaskOp.Touches])] at hstopped
  rw [did_of_spared (c := .serviceState) (by simp [TaskOp.Touches])]
  obtain ⟨hw, hpending⟩ := hx hstopped
  have hoff : (y.did .txDisable i (.setTxDisable i (w ≠ 0))).txOff = true := by
    simpa [ControlView.did, TaskOp.transmitter] using hw
  refine ⟨hoff, fun h0 => ?_⟩
  rw [ControlView.GoingOff]
  split
  next => exact hoff
  next hchange => exact hpending h0 hchange

/-- The request is cleared where the transmitter is as requested. -/
theorem txCleared_rest {next : UInt32} : C.BothTriple E i AtRest
    (writeWord ⟨i, .clearingTx next⟩ (.control .txDisable .change) i 0) fun _ => AtRest := by
  refine both_conseq (both_perform keepsOn_off fun x y hx hstopped => ?_)
    (fun x y hx hstopped => (hx hstopped).1) fun _ _ _ hx => hx
  rw [did_of_spared (by simp [TaskOp.Touches])] at hstopped
  have hoff := hx hstopped
  refine ⟨hoff, fun _ => ?_⟩
  rw [ControlView.GoingOff, if_pos (by simp [ControlView.did, TaskOp.result])]
  exact hoff

/-- **The transmitter**: behind it that of an interface that is out of service is off. -/
theorem txPart_rest : C.BothTriple E i AtPassing (txPart i) fun _ => AtRest := by
  refine .bind (both_op (B := fun w x y => x.Stopped →
    if w = 0 then y.txOff = true ∧ y.GoingOff else y.change ≠ 0 ∧ y.next ≠ 0)
    (by rw [partAt_self]; exact keepsOn_passing trivial) fun x y w hx _ hw hstopped => ?_)
    fun w => .ite (fun hw => ?_) fun hw => .pure fun h s hx hstopped => ?_
  · rw [did_of_spared (by simp [TaskOp.Touches])] at hstopped ⊢
    obtain rfl := hw.2.2.1 rfl
    have hoff := hx hstopped
    split
    next h0 => exact ⟨by rwa [ControlView.GoingOff, if_pos h0] at hoff, hoff⟩
    next hchange => exact ⟨hchange, by rwa [ControlView.GoingOff, if_neg hchange] at hoff⟩
  · refine .bind (both_conseq (both_op (B := AtSetting)
      (by rw [partAt_self]; exact keepsOn_pending) fun x y w hx _ hw hstopped => ?_)
      (fun x y hx hstopped => by simpa [hw] using hx hstopped) fun _ _ _ hx => hx)
      fun next => .bind setTxDisable_off fun _ => ?_
    · rw [did_of_spared (by simp [TaskOp.Touches])] at hstopped
      obtain ⟨-, hnext⟩ := hx hstopped
      rw [did_of_spared (by simp [TaskOp.Touches]), hw.1 rfl]
      exact ⟨hnext, fun _ _ => hnext⟩
    refine .bind (.bind passed_read fun _ => .pure fun _ _ hx => hx) fun _ =>
      .bind (.bind passed_read fun _ => .pure fun _ _ hx => hx) fun _ =>
      .bind (passed_op (by simp [TaskOp.Touches])
        fun _ => by simp [ControlView.did, TaskOp.result, TaskOp.transmitter]) fun state =>
      .bind (.bind (passed_op (by simp [TaskOp.Touches])
        fun _ => by simp [ControlView.did, TaskOp.result, TaskOp.transmitter]) fun _ =>
          .pure fun _ _ hx => hx) fun _ =>
      .bind passed_read fun current => .bind passed_read fun next =>
        .ite (fun _ => txCleared_rest) fun _ => .pure fun _ _ hx => hx
  · have hoff := hx hstopped
    rw [if_pos (by simpa using hw)] at hoff
    exact ⟨hoff.1, fun _ => hoff.2⟩

/-! ### Every run -/

/-- What the task does for another interface. -/
theorem taskInterface_other (h : j ≠ i) : C.BothTriple E i AtRest (taskInterface j)
    fun _ => AtRest := by
  have hspared : ∀ c, c = .serviceState ∨ c = .txDisable →
      (taskInterface j).AllOps (Spares (fun _ => True) c i j) := by
    intro c hc
    have hne : c ≠ .resetCounters := by rcases hc with rfl | rfl <;> simp
    have hweaken : ∀ {parts : Part → Prop} {α : Type} {prog : TaskProg α},
        prog.AllOps (Spares parts c i j) → prog.AllOps (Spares (fun _ => True) c i j) :=
      fun hprog => hprog.mono fun p o ho => ⟨ho.1, trivial, ho.2.2⟩
    exact .bind (hweaken (resetPart_ops hne)) fun _ =>
      .bind (servicePart_ops fun hj => absurd hj h) fun _ =>
      .bind (hweaken (loopbackPart_ops fun hj => absurd hj h)) fun _ =>
      .bind (hweaken (ratePart_ops (fun hj => absurd hj h) hne)) fun _ =>
      .bind (txPart_ops fun hj => absurd hj h) fun _ => hweaken rebootPart_ops
  refine both_spared (hspared _ (.inl rfl)) (hspared _ (.inr rfl)) fun p o hp _ => ?_
  rw [partAt_other (hp ▸ h)]
  exact keepsOn_rest (.inl rfl)

/-- A part of the task that spares both controls, where an assertion holds. -/
theorem part_spared {prog : TaskProg Unit} {A : ControlView → ControlView → Prop}
    {parts : Part → Prop}
    (hprog : ∀ c, c = .serviceState ∨ c = .txDisable → prog.AllOps (Spares parts c i i))
    (hA : ∀ part, parts part → KeepsOn E part A) : C.BothTriple E i A prog fun _ => A := by
  refine both_spared (hprog _ (.inl rfl)) (hprog _ (.inr rfl)) fun p o hp hpart => ?_
  rw [partAt, if_pos hp]
  exact hA _ hpart

/-- **What the task does for an interface** leaves its transmitter off if it is out of service. -/
theorem taskInterface_rest : C.BothTriple E i AtRest (taskInterface j) fun _ => AtRest := by
  by_cases h : j = i
  · subst h
    refine .bind (part_spared (fun c hc => resetPart_ops ?_) fun part hpart =>
      keepsOn_rest (.inl hpart)) fun _ => .bind servicePart_goingOff fun _ =>
      .bind (part_spared (fun c hc => loopbackPart_ops fun _ => ?_) fun part hpart =>
        keepsOn_passing hpart) fun _ =>
      .bind (part_spared (fun c hc => ratePart_ops (fun _ => ?_) ?_) fun part hpart =>
        keepsOn_passing hpart) fun _ => .bind txPart_rest fun _ =>
      part_spared (fun c _ => rebootPart_ops) fun part hpart => keepsOn_rest (.inr hpart)
    all_goals rcases hc with rfl | rfl <;> simp
  · exact taskInterface_other h

/-- **The transmitter of an interface that is out of service is off** whenever the task is idle, in
every run whose requests keep it off. -/
theorem outOfService_txOff (C : CardMemory L) (E : KursEnv) (i : Fin INTERFACE_COUNT)
    {s₀ : CardState} {h : TaskHistory} {z : CardState × TaskProg Unit}
    (hr : (C.task10Machine E).Run (s₀, .done ()) h z)
    (hcond : (C.system E).Meets (fun _ => task10) s₀ (C.KeepsOff E) h)
    (hidle : z.2.head = none)
    (hstopped : (account E .serviceState i h).kept = some IF_SERVICE_STATE_OOS) :
    z.1.hw.txDisable i = true := by
  refine Triple.sound (P := OffWhenIdle E i) (I := C.OnBoth E i AtRest)
    (R := fun _ => C.OnBoth E i AtRest) (fun _ => .forM fun j _ => taskInterface_rest)
    (fun u h s hx _ => ?_) (stable_both (keepsOn_rest (.inl rfl)))
    (fun h s hx _ hstopped => (hx hstopped).1) (fun hstopped => ?_) hr hcond hidle hstopped
  · have hviews : C.views E i (h ++ [(.start u, .started)]) s = C.views E i h s := by
      funext c
      have haccount : account E c i (h ++ [(.start u, .started)]) = account E c i h :=
        account_append
      simp [CardMemory.views, CardMemory.view, haccount]
    change AtRest (C.views E i (h ++ [(.start u, .started)]) s .serviceState)
      (C.views E i (h ++ [(.start u, .started)]) s .txDisable)
    rw [hviews]
    exact hx
  · cases hstopped

end service

/-! ### A card -/

/-- What the task reads. -/
def CardMemory.answer {L : Layout} (C : CardMemory L) (s : CardState) : TaskOp → UInt32
  | .read f i => C.word s.mem f i
  | .getTxDisable i => if s.hw.txDisable i then 1 else 0
  | _ => 0

/-- A request for the transmitter of the first client. -/
def txRequest (value : UInt32) : ControlRequest where
  control := .txDisable
  port := 0
  value := value
  row_mem := by decide +kernel
  control_ne := by simp

/-- The card with a transceiver for the first client. -/
def presentCard : CardState :=
  { idleCard with mem := idleCard.mem.store32 (cardMemory.addr (.port .transceiverState 0)) 1 }

/-- A pass of the task on the card, or what is left of it. -/
def passFrom (s : CardState) (p : TaskProg Unit) : TaskHistory × CardState × TaskProg Unit :=
  (cardMemory.system sampleEnv).carryOut cardMemory.answer 200 s p

/-- A request is accepted. -/
def requested (s : CardState) (q : ControlRequest) : CardState :=
  (cardMemory.setRequest sampleEnv s q).1

/-- The first client is taken out of service. -/
def stoppingPass : TaskHistory × CardState × TaskProg Unit :=
  passFrom (requested presentCard (stateRequest 0)) task10

/-- The history of that. -/
def stoppingSteps : TaskHistory :=
  (.interrupt (stateRequest 0), .interrupted true) :: (.start (), .started) :: stoppingPass.1

/-- The next pass comes to the loopback mode of the first client. -/
def nextSteps : TaskHistory × CardState × TaskProg Unit :=
  (cardMemory.system sampleEnv).carryOut cardMemory.answer 2 stoppingPass.2.1 task10

/-- There the client is put in service again and its transmitter switched on, and the pass goes
on. -/
def switchingPass : TaskHistory × CardState × TaskProg Unit :=
  passFrom (requested (requested nextSteps.2.1 (stateRequest 2)) (txRequest 1)) nextSteps.2.2

/-- The history of that. -/
def switchingSteps : TaskHistory :=
  (.start (), .started) :: (nextSteps.1 ++ (.interrupt (stateRequest 2), .interrupted true) ::
    (.interrupt (txRequest 1), .interrupted true) :: switchingPass.1)

/-- An accepted request in a run. -/
theorem run_requested {z z' : CardState × TaskProg Unit} {h : TaskHistory} {q : ControlRequest}
    (haccepted : (cardMemory.setRequest sampleEnv z.1 q).2 = true)
    (hr : (cardMemory.task10Machine sampleEnv).Run (requested z.1 q, z.2) h z') :
    (cardMemory.task10Machine sampleEnv).Run z ((.interrupt q, .interrupted true) :: h) z' :=
  .cons (System.step_interrupt (congrArg some (Prod.ext rfl haccepted))) hr

/-- Two of them. -/
theorem run_requested_twice {z z' : CardState × TaskProg Unit} {h : TaskHistory}
    {q q' : ControlRequest} (haccepted : (cardMemory.setRequest sampleEnv z.1 q).2 = true)
    (haccepted' : (cardMemory.setRequest sampleEnv (requested z.1 q) q').2 = true)
    (hr : (cardMemory.task10Machine sampleEnv).Run (requested (requested z.1 q) q', z.2) h z') :
    (cardMemory.task10Machine sampleEnv).Run z
      ((.interrupt q, .interrupted true) :: (.interrupt q', .interrupted true) :: h) z' := by
  refine run_requested haccepted ?_
  exact run_requested (z := (requested z.1 q, z.2)) haccepted' hr

/-- The task is started when it is idle. -/
theorem run_started {z z' : CardState × TaskProg Unit} {h : TaskHistory}
    (hidle : z.2.head = none) (hr : (cardMemory.task10Machine sampleEnv).Run (z.1, task10) h z') :
    (cardMemory.task10Machine sampleEnv).Run z ((.start (), .started) :: h) z' := by
  obtain ⟨s, p⟩ := z
  cases p with
  | done a => exact .cons rfl hr
  | step place o k => cases hidle

/-- What comes of the first pass. -/
theorem stoppingPass_eq : (cardMemory.setRequest sampleEnv presentCard (stateRequest 0)).2 = true ∧
    stoppingPass.2.2.head = none ∧ stoppingPass.2.1.hw.txDisable 0 = true ∧
    (account sampleEnv .serviceState 0 stoppingSteps).kept = some IF_SERVICE_STATE_OOS := by
  decide +kernel

/-- What comes of the second one. -/
theorem switchingPass_eq :
    (cardMemory.setRequest sampleEnv nextSteps.2.1 (stateRequest 2)).2 = true ∧
    (cardMemory.setRequest sampleEnv (requested nextSteps.2.1 (stateRequest 2)) (txRequest 1)).2 =
      true ∧
    switchingPass.2.2.head = none ∧ switchingPass.2.1.hw.txDisable 0 = false ∧
    (account sampleEnv .serviceState 0 (stoppingSteps ++ switchingSteps)).kept =
      some IF_SERVICE_STATE_OOS := by
  decide +kernel

/-- The first pass is a run. -/
theorem run_stoppingSteps : (cardMemory.task10Machine sampleEnv).Run (presentCard, .done ())
    stoppingSteps stoppingPass.2 :=
  run_requested stoppingPass_eq.1 (run_started rfl (System.run_carryOut rfl))

/-- **A client out of service, with its transmitter off.** -/
theorem outOfService_txOff_stopping :
    stoppingPass.2.2.head = none ∧
    (account sampleEnv .serviceState 0 stoppingSteps).kept = some IF_SERVICE_STATE_OOS ∧
    stoppingPass.2.1.hw.txDisable 0 = true := by
  obtain ⟨-, hidle, -, hkept⟩ := stoppingPass_eq
  have hrequest : cardMemory.KeepsOff sampleEnv [] presentCard none
      (.interrupt (stateRequest 0)) := fun _ =>
    ⟨fun h => (by cases h), fun h => (by cases h), fun _ _ => trivial⟩
  have hmeets : (cardMemory.system sampleEnv).Meets (fun _ => task10) presentCard
      (cardMemory.KeepsOff sampleEnv) stoppingSteps := by
    change (cardMemory.system sampleEnv).Meets _ _ _
      ([(.interrupt (stateRequest 0), .interrupted true)] ++ (.start (), .started) ::
        stoppingPass.1)
    refine .append (.snoc (z := (presentCard, .done ())) .nil .nil hrequest) ?_
    intro e he h s next
    rcases List.mem_cons.mp he with rfl | he
    · exact trivial
    · obtain ⟨w, y, rfl⟩ := System.carryOut_task (r := stoppingPass) rfl e he
      exact trivial
  exact ⟨hidle, hkept, outOfService_txOff cardMemory sampleEnv 0 run_stoppingSteps hmeets hidle
    hkept⟩

/-- **A transmitter is on out of service.** The client has been taken out of service, and its
transmitter is off. In the next pass it is put in service and its transmitter is switched on, behind
the place where the task looks at the service state: the callback takes the second request because
the first one has been stored in `current`, and the task has not come to it when it switches the
transmitter on. -/
theorem outOfService_txOn : ∃ (h h' : TaskHistory) (z z' : CardState × TaskProg Unit),
    (cardMemory.task10Machine sampleEnv).Run (presentCard, .done ()) h z ∧ z.2.head = none ∧
    (account sampleEnv .serviceState 0 h).kept = some IF_SERVICE_STATE_OOS ∧
    (cardMemory.task10Machine sampleEnv).Run (presentCard, .done ()) (h ++ h') z' ∧
    z'.2.head = none ∧
    (account sampleEnv .serviceState 0 (h ++ h')).kept = some IF_SERVICE_STATE_OOS ∧
    z'.1.hw.txDisable 0 = false := by
  obtain ⟨-, hidle, -, hkept⟩ := stoppingPass_eq
  obtain ⟨hstate, htx, hidle', hon, hkept'⟩ := switchingPass_eq
  have hnext : (cardMemory.task10Machine sampleEnv).Run (stoppingPass.2.1, task10) nextSteps.1
      nextSteps.2 := System.run_carryOut rfl
  have hlast : (cardMemory.task10Machine sampleEnv).Run (requested (requested nextSteps.2.1
      (stateRequest 2)) (txRequest 1), nextSteps.2.2) switchingPass.1 switchingPass.2 :=
    System.run_carryOut rfl
  have htwo : (cardMemory.task10Machine sampleEnv).Run nextSteps.2
      ((.interrupt (stateRequest 2), .interrupted true) ::
        (.interrupt (txRequest 1), .interrupted true) :: switchingPass.1) switchingPass.2 :=
    run_requested_twice hstate htx hlast
  have hswitching : (cardMemory.task10Machine sampleEnv).Run stoppingPass.2 switchingSteps
      switchingPass.2 := run_started hidle (hnext.append htwo)
  exact ⟨stoppingSteps, switchingSteps, stoppingPass.2, switchingPass.2, run_stoppingSteps, hidle,
    hkept, run_stoppingSteps.append hswitching, hidle', hkept', hon⟩

end Muxponder
