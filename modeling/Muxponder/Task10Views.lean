import Muxponder.Task10

/-!
# Controls as the Task Sees Them

What is known of a control is a `ControlView`: its words, what is read back, and what the history
says of it. The operations of the task and the requests act on the views of an interface, so the
program of the task is verified with assertions about views (`On`).

## Main results

* `view_did`, `views_request`: what an operation and a request do to views.
* `stable_on`, `triple_op`, `triple_spared`: the rules for assertions about views.
-/

namespace Muxponder

open Memory Interrupts

/-! ### What the history says -/

/-- What the history says of a control: the value that was stored in `next` last, the one that
was requested last, the one that was acted upon last, and the one that the task has stored in
`current` last. -/
structure Account where
  stored : Option UInt32
  asked : Option UInt32
  acted : Option UInt32
  kept : Option UInt32
  deriving DecidableEq, Repr

/-- An operation of the task in the account. The task itself requests a change when it sets
`change`: an interface that goes out of service has its transmitter switched off. -/
def Account.did (a : Account) (c : Control) (i : Fin INTERFACE_COUNT) : TaskOp → Account
  | .write f j w =>
      if j = i ∧ f = .control c .next then { a with stored := some w }
      else if j = i ∧ f = .control c .change ∧ w = 1 then { a with asked := a.stored }
      else if j = i ∧ f = .control c .current then { a with kept := some w }
      else a
  | .switchState j next =>
      if j = i ∧ c = .serviceState then { a with acted := some next } else a
  | .setIfPortLoopback j mode =>
      if j = i ∧ c = .loopbackMode then { a with acted := some mode } else a
  | .setTxDisable j on =>
      if j = i ∧ c = .txDisable then { a with acted := some (if on then 1 else 0) } else a
  | .setRateRx j rate => if j = i ∧ c = .rate then { a with acted := some rate } else a
  | _ => a

/-- An event in the account. -/
def Account.after (E : KursEnv) (c : Control) (i : Fin INTERFACE_COUNT) (a : Account) :
    Event Unit ControlRequest UInt32 × Output Place TaskOp Bool → Account
  | (.interrupt q, .interrupted true) =>
      if q.port = i ∧ q.control = c then
        { a with stored := some (q.asked E), asked := some (q.asked E) }
      else a
  | (.task _, .did _ o) => a.did c i o
  | _ => a

/-- The account of a history. -/
def account (E : KursEnv) (c : Control) (i : Fin INTERFACE_COUNT) (h : TaskHistory) : Account :=
  h.foldl (Account.after E c i) ⟨none, none, none, none⟩

section views

variable {L : Layout}

/-! ### Views -/

/-- What is known of a control. -/
@[ext] structure ControlView extends Account where
  next : UInt32
  current : UInt32
  change : UInt32
  /-- For a rate, the one that has been read back. -/
  monitorRate : UInt32
  /-- For the transmitter, its output. -/
  txOff : Bool
  multiRate : Bool
  deriving DecidableEq, Repr

/-- The view of a control. -/
def CardMemory.view (C : CardMemory L) (E : KursEnv) (c : Control) (i : Fin INTERFACE_COUNT)
    (h : TaskHistory) (s : CardState) : ControlView where
  toAccount := account E c i h
  next := C.word s.mem (.control c .next) i
  current := C.word s.mem (.control c .current) i
  change := C.word s.mem (.control c .change) i
  monitorRate := if c = .rate then C.word s.mem .monitorRate i else 0
  txOff := if c = .txDisable then s.hw.txDisable i else false
  multiRate := C.word s.mem .capabilities i &&& MULTI_RATE ≠ 0

/-- A variable behind an operation. -/
def TaskOp.result (o : TaskOp) (f : PortField) (i : Fin INTERFACE_COUNT) (old : UInt32) :
    UInt32 :=
  match o with
  | .write g j w => if j = i ∧ g = f then w else old
  | _ => old

/-- The transmitter behind an operation. -/
def TaskOp.transmitter (o : TaskOp) (i : Fin INTERFACE_COUNT) (old : Bool) : Bool :=
  match o with
  | .setTxDisable j on => if j = i then on else old
  | _ => old

/-- A view behind an operation. -/
def ControlView.did (x : ControlView) (c : Control) (i : Fin INTERFACE_COUNT) (o : TaskOp) :
    ControlView where
  toAccount := x.toAccount.did c i o
  next := o.result (.control c .next) i x.next
  current := o.result (.control c .current) i x.current
  change := o.result (.control c .change) i x.change
  monitorRate := if c = .rate then o.result .monitorRate i x.monitorRate else x.monitorRate
  txOff := if c = .txDisable then o.transmitter i x.txOff else x.txOff
  multiRate :=
    match o with
    | .write .capabilities j w => if j = i then w &&& MULTI_RATE ≠ 0 else x.multiRate
    | _ => x.multiRate

/-- A view behind a request for its control. -/
def ControlView.request (x : ControlView) (E : KursEnv) (q : ControlRequest) : ControlView :=
  { x with
    stored := some (q.asked E), asked := some (q.asked E), next := q.asked E, change := 1
    current :=
      if q.control = .serviceState ∨ q.control = .loopbackMode then q.value else x.current }

/-- What an operation may answer, as far as a view says. -/
def ControlView.Answers (x : ControlView) (c : Control) (i : Fin INTERFACE_COUNT) (o : TaskOp)
    (w : UInt32) : Prop :=
  (o = .read (.control c .next) i → w = x.next) ∧
    (o = .read (.control c .current) i → w = x.current) ∧
    (o = .read (.control c .change) i → w = x.change) ∧
    (o = .read .monitorRate i → c = .rate → w = x.monitorRate) ∧
    (o = .read .capabilities i → (x.multiRate = true ↔ w &&& MULTI_RATE ≠ 0)) ∧
    (o = .getTxDisable i → c = .txDisable → w = if x.txOff then 1 else 0)

/-- The views of the controls of an interface. -/
abbrev Views := Control → ControlView

/-- The views at a point of a run. -/
def CardMemory.views (C : CardMemory L) (E : KursEnv) (i : Fin INTERFACE_COUNT)
    (h : TaskHistory) (s : CardState) : Views :=
  fun c => C.view E c i h s

/-- The views behind an operation. -/
def Views.did (V : Views) (i : Fin INTERFACE_COUNT) (o : TaskOp) : Views :=
  fun c => (V c).did c i o

/-- The views behind a request for a control of the interface. -/
def Views.request (V : Views) (E : KursEnv) (q : ControlRequest) : Views :=
  Function.update V q.control ((V q.control).request E q)

/-- What the callback has found where it takes a request. -/
def Views.Admits (V : Views) (q : ControlRequest) : Prop :=
  (q.control = .rate → (V .rate).multiRate = true) ∧
    (q.control = .txDisable → (V .serviceState).current ≠ IF_SERVICE_STATE_OOS)

variable {C : CardMemory L} {E : KursEnv} {c : Control} {i : Fin INTERFACE_COUNT}
  {h : TaskHistory} {s s' : CardState} {q : ControlRequest} {p : Place} {o : TaskOp} {w : UInt32}
  {V : Views}

/-- The account grows with the history. -/
theorem account_append {e : Event Unit ControlRequest UInt32 × Output Place TaskOp Bool} :
    account E c i (h ++ [e]) = (account E c i h).after E c i e := by
  simp [account, List.foldl_append]

/-! ### What an operation does -/

/-- A variable is read as it is. -/
theorem act_read {f : PortField} {j : Fin INTERFACE_COUNT}
    (hact : C.act s (.read f j) w = some s') : w = C.word s.mem f j ∧ s' = s := by
  rw [CardMemory.act] at hact
  split at hact
  next hw => exact ⟨hw, (Option.some.inj hact).symm⟩
  next => cases hact

/-- The output of a transceiver is read as it has been set. -/
theorem act_getTxDisable {j : Fin INTERFACE_COUNT}
    (hact : C.act s (.getTxDisable j) w = some s') :
    w = (if s.hw.txDisable j then 1 else 0) ∧ s' = s := by
  rw [CardMemory.act] at hact
  by_cases hw : w = if s.hw.txDisable j then 1 else 0
  · rw [if_pos hw] at hact
    exact ⟨hw, (Option.some.inj hact).symm⟩
  · rw [if_neg hw] at hact
    cases hact

/-- A bit of the capabilities other than `MULTI_RATE` is set or cleared. -/
theorem capability_multiRate {all mask : UInt32} {on : Bool} (h : mask &&& MULTI_RATE = 0)
    (h' : ~~~mask &&& MULTI_RATE = MULTI_RATE) :
    (if on then all ||| mask else all &&& ~~~mask) &&& MULTI_RATE = all &&& MULTI_RATE := by
  cases on with
  | true =>
      apply UInt32.toBitVec_inj.mp
      have hmask := UInt32.toBitVec_inj.mpr h
      simp only [UInt32.toBitVec_and, UInt32.toBitVec_or, if_true,
        BitVec.and_or_distrib_right] at hmask ⊢
      rw [hmask]
      exact BitVec.or_zero
  | false => rw [if_neg (by simp), UInt32.and_assoc, h']

/-- The capabilities with a bit set or cleared. -/
theorem word_setCapability {m : Mem} {j : Fin INTERFACE_COUNT} {mask : UInt32} {on : Bool}
    (h : mask &&& MULTI_RATE = 0) (h' : ~~~mask &&& MULTI_RATE = MULTI_RATE) :
    (∀ f ≠ .capabilities, C.word (C.setCapability m j mask on) f i = C.word m f i) ∧
      C.word (C.setCapability m j mask on) .capabilities i &&& MULTI_RATE =
        C.word m .capabilities i &&& MULTI_RATE := by
  constructor
  · intro f hf
    rw [CardMemory.setCapability, word_store32, if_neg (fun h => hf h.1)]
  · rw [CardMemory.setCapability, word_store32]
    split
    next hij =>
      rw [hij.2]
      exact capability_multiRate h h'
    next => rfl

/-- The variable of its interface that an operation writes, if it does. -/
def TaskOp.stored : TaskOp → Option PortField
  | .write f _ _ => some f
  | .setPfcCapable _ _ | .setFecCapable _ _ => some .capabilities
  | _ => none

/-- It writes no other. -/
theorem act_writes (hact : C.act s o w = some s') :
    C.Writes {v | ∃ f ∈ o.stored, ∃ i, v = .port f i} s.mem s'.mem := by
  cases o with
  | write f j v =>
      obtain rfl := Option.some.inj hact
      exact .store32 ⟨f, rfl, j, rfl⟩ f.four_le_size
  | setPfcCapable j on | setFecCapable j on =>
      obtain rfl := Option.some.inj hact
      exact .store32 ⟨.capabilities, rfl, j, rfl⟩ (PortField.four_le_size _)
  | read f j =>
      obtain ⟨-, rfl⟩ := act_read hact
      exact .refl
  | getTxDisable j =>
      obtain ⟨-, rfl⟩ := act_getTxDisable hact
      exact .refl
  | _ =>
      obtain rfl := Option.some.inj hact
      exact .refl

/-- The variables behind an operation. -/
theorem word_act (hact : C.act s o w = some s') :
    (∀ f ≠ .capabilities, C.word s'.mem f i = o.result f i (C.word s.mem f i)) ∧
      C.word s'.mem .capabilities i &&& MULTI_RATE =
        o.result .capabilities i (C.word s.mem .capabilities i) &&& MULTI_RATE := by
  cases o with
  | write f j v =>
      obtain rfl := Option.some.inj hact
      simp only [word_store32, TaskOp.result, eq_comm (a := i)]
      exact ⟨fun g _ => by simp only [and_comm, eq_comm], by simp only [and_comm, eq_comm]⟩
  | setPfcCapable j on =>
      obtain rfl := Option.some.inj hact
      exact word_setCapability (by decide) (by decide)
  | setFecCapable j on =>
      obtain rfl := Option.some.inj hact
      exact word_setCapability (by decide) (by decide)
  | read f j =>
      obtain ⟨-, rfl⟩ := act_read hact
      exact ⟨fun _ _ => rfl, rfl⟩
  | getTxDisable j =>
      obtain ⟨-, rfl⟩ := act_getTxDisable hact
      exact ⟨fun _ _ => rfl, rfl⟩
  | _ =>
      obtain rfl := Option.some.inj hact
      exact ⟨fun _ _ => rfl, rfl⟩

/-- The transmitter behind an operation. -/
theorem txDisable_act (hact : C.act s o w = some s') :
    s'.hw.txDisable i = o.transmitter i (s.hw.txDisable i) := by
  cases o with
  | setTxDisable j on =>
      obtain rfl := Option.some.inj hact
      simp only [Function.update_apply, eq_comm (a := i), TaskOp.transmitter]
  | read f j =>
      obtain ⟨-, rfl⟩ := act_read hact
      rfl
  | getTxDisable j =>
      obtain ⟨-, rfl⟩ := act_getTxDisable hact
      rfl
  | _ =>
      obtain rfl := Option.some.inj hact
      rfl

/-- **A view behind an operation.** -/
theorem view_did (hact : C.act s o w = some s') :
    C.view E c i (h ++ [(.task w, .did p o)]) s' = (C.view E c i h s).did c i o := by
  obtain ⟨hwords, hcap⟩ := word_act (i := i) hact
  have hmonitor : (if c = .rate then C.word s'.mem .monitorRate i else 0) =
      ((C.view E c i h s).did c i o).monitorRate := by
    simp only [ControlView.did, CardMemory.view, hwords .monitorRate (by simp)]
    split <;> rfl
  have htx : (if c = .txDisable then s'.hw.txDisable i else false) =
      ((C.view E c i h s).did c i o).txOff := by
    simp only [ControlView.did, CardMemory.view, txDisable_act hact]
    split <;> rfl
  have hmultiRate : decide (C.word s'.mem .capabilities i &&& MULTI_RATE ≠ 0) =
      ((C.view E c i h s).did c i o).multiRate := by
    rw [hcap]
    cases o with
    | write f j v =>
        cases f with
        | capabilities =>
            simp only [TaskOp.result, ControlView.did, CardMemory.view, and_true]
            split <;> rfl
        | _ => simp [TaskOp.result, ControlView.did, CardMemory.view]
    | _ => rfl
  have haccount : account E c i (h ++ [(.task w, .did p o)]) = (account E c i h).did c i o :=
    account_append
  exact ControlView.ext (congrArg Account.stored haccount) (congrArg Account.asked haccount)
    (congrArg Account.acted haccount) (congrArg Account.kept haccount)
    (hwords (.control c .next) (by simp)) (hwords (.control c .current) (by simp))
    (hwords (.control c .change) (by simp)) hmonitor htx hmultiRate

/-- An operation answers what the view says. -/
theorem view_answers (hact : C.act s o w = some s') :
    (C.view E c i h s).Answers c i o w := by
  refine ⟨?_, ?_, ?_, ?_, ?_, ?_⟩
  · rintro rfl
    exact (act_read hact).1
  · rintro rfl
    exact (act_read hact).1
  · rintro rfl
    exact (act_read hact).1
  · rintro rfl rfl
    exact (act_read hact).1
  · rintro rfl
    rw [(act_read hact).1]
    exact decide_eq_true_iff
  · rintro rfl rfl
    exact (act_getTxDisable hact).1

/-- An operation that has nothing to do with a control leaves its view. -/
theorem did_of_spared {x : ControlView} (ho : ¬ o.Touches c i) : x.did c i o = x := by
  cases o with
  | write f j w =>
      by_cases hij : j = i
      · have hf : (∀ p, f ≠ .control c p) ∧ (c = .rate → f ≠ .monitorRate) ∧
            f ≠ .capabilities := by
          simpa [TaskOp.Touches, hij] using ho
        cases f with
        | capabilities => exact absurd rfl hf.2.2
        | monitorRate =>
            have hc : c ≠ .rate := fun hc => hf.2.1 hc rfl
            simp [ControlView.did, Account.did, TaskOp.result, TaskOp.transmitter, hc]
        | _ => simp [ControlView.did, Account.did, TaskOp.result, TaskOp.transmitter, hf]
      · cases f <;> simp [ControlView.did, Account.did, TaskOp.result, TaskOp.transmitter, hij]
  | switchState j next =>
      simp only [TaskOp.Touches] at ho
      simp [ControlView.did, Account.did, TaskOp.result, TaskOp.transmitter, ho]
  | setIfPortLoopback j mode =>
      simp only [TaskOp.Touches] at ho
      simp [ControlView.did, Account.did, TaskOp.result, TaskOp.transmitter, ho]
  | setTxDisable j on =>
      simp only [TaskOp.Touches] at ho
      by_cases hc : c = .txDisable
      · have hij : j ≠ i := fun hij => ho ⟨hij, hc⟩
        simp [ControlView.did, Account.did, TaskOp.result, TaskOp.transmitter, hij]
      · simp [ControlView.did, Account.did, TaskOp.result, hc]
  | setRateRx j rate =>
      simp only [TaskOp.Touches] at ho
      simp [ControlView.did, Account.did, TaskOp.result, TaskOp.transmitter, ho]
  | _ => simp [ControlView.did, Account.did, TaskOp.result, TaskOp.transmitter]

/-! ### What a request does -/

/-- **The views behind an accepted request.** -/
theorem views_request (hrate : q.control = .rate → q.port = 0)
    (haccepted : (C.setRequest E s q).2 = true) :
    C.views E i (h ++ [(.interrupt q, .interrupted true)]) (C.setRequest E s q).1 =
      if q.port = i then (C.views E i h s).request E q else C.views E i h s := by
  obtain ⟨hadmits, hhw, hwords⟩ := setRequest_spec (C := C) (E := E) (s := s) hrate
  rw [haccepted] at hadmits
  simp only [← hadmits, if_true] at hwords
  funext c
  have haccount : account E c i (h ++ [(.interrupt q, .interrupted true)]) =
      if q.port = i ∧ q.control = c then
        { account E c i h with stored := some (q.asked E), asked := some (q.asked E) }
      else account E c i h := account_append
  by_cases hport : q.port = i
  · subst hport
    rw [if_pos rfl]
    by_cases hc : q.control = c
    · subst hc
      simp [CardMemory.views, CardMemory.view, Views.request, ControlView.request, hwords,
        ControlRequest.words, hhw, haccount]
    · simp [CardMemory.views, CardMemory.view, Views.request, hwords, ControlRequest.words, hhw,
        haccount, hc, Ne.symm hc]
  · simp [CardMemory.views, CardMemory.view, hwords, ControlRequest.words, hhw, haccount, hport,
      Ne.symm hport]

/-- A request that is refused has written nothing. -/
theorem setRequest_refused (h : (C.setRequest E s q).2 = false) : (C.setRequest E s q).1 = s := by
  have huser : (C.param (q.control.row q.port)).userSet = true := by
    cases hc : q.control <;> rfl
  have hmem : storeWord E L (C.param (q.control.row q.port)).toProfileParam q.value s.mem =
      (false, s.mem) := by
    rw [CardMemory.setRequest, storeWord, if_pos huser] at h
    rw [storeWord, if_pos huser]
    cases hset : profileUsersetValue E L (C.param (q.control.row q.port)).toProfileParam q.value
        s.mem with
    | mk ok m =>
        cases ok with
        | true => rw [hset] at h; cases h
        | false =>
            have hm := profileUsersetValue_refused (congrArg Prod.fst hset)
            rw [hset] at hm
            exact congrArg _ hm
  rw [CardMemory.setRequest, hmem]

/-- The views behind a refused request. -/
theorem views_refused (hrefused : (C.setRequest E s q).2 = false) :
    C.views E i (h ++ [(.interrupt q, .interrupted false)]) (C.setRequest E s q).1 =
      C.views E i h s := by
  rw [setRequest_refused hrefused]
  funext c
  have haccount : account E c i (h ++ [(.interrupt q, .interrupted false)]) =
      account E c i h := account_append
  simp [CardMemory.views, CardMemory.view, haccount]

/-- What the callback has found, as the views say. -/
theorem admits_views (hrate : q.control = .rate → q.port = 0) (hport : q.port = i)
    (haccepted : (C.setRequest E s q).2 = true) : (C.views E i h s).Admits q := by
  rw [(setRequest_spec hrate).1] at haccepted
  obtain ⟨hcap, hstate⟩ := admits_cases haccepted
  subst hport
  exact ⟨fun hc => decide_eq_true (hcap hc), hstate⟩

/-! ### Assertions about views -/

/-- An assertion about the views of an interface. -/
def CardMemory.On (C : CardMemory L) (E : KursEnv) (i : Fin INTERFACE_COUNT) (A : Views → Prop) :
    Assertion CardState Unit ControlRequest Bool Place TaskOp UInt32 :=
  fun h s => A (C.views E i h s)

variable {Cond : Condition CardState Unit ControlRequest Bool Place TaskOp UInt32}
  {P : Option (Place × TaskOp) → Assertion CardState Unit ControlRequest Bool Place TaskOp UInt32}
  {A : Views → Prop} {next : Option (Place × TaskOp)}

/-- A condition says of every request which client a data type is for. -/
def CardMemory.Addressed (C : CardMemory L) (E : KursEnv)
    (Cond : Condition CardState Unit ControlRequest Bool Place TaskOp UInt32) : Prop :=
  ∀ h s next q, Cond h s next (.interrupt q) → (C.setRequest E s q).2 = true →
    q.control = .rate → q.port = 0

/-- **An assertion is stable** if the requests for the interface that come here keep it. -/
theorem stable_on (haddressed : C.Addressed E Cond)
    (hA : ∀ h s q, Cond h s next (.interrupt q) → (C.setRequest E s q).2 = true → q.port = i →
      (C.views E i h s).Admits q → A (C.views E i h s) →
      A ((C.views E i h s).request E q)) :
    Stable (C.system E) Cond next (C.On E i A) := by
  rintro h s q s' x hs hc hx
  have hset : C.setRequest E s q = (s', x) := Option.some.inj hx
  obtain rfl : (C.setRequest E s q).1 = s' := congrArg Prod.fst hset
  have hx : (C.setRequest E s q).2 = x := congrArg Prod.snd hset
  cases x with
  | false =>
      rw [CardMemory.On, views_refused hx]
      exact hs
  | true =>
      have hrate := haddressed h s next q hc hx
      rw [CardMemory.On, views_request hrate hx]
      split
      next hport => exact hA h s q hc hx hport (admits_views hrate hport hx) hs
      next => exact hs

/-- **An operation** with assertions about views. -/
theorem triple_op {Q : UInt32 → Views → Prop}
    (hstable : Stable (C.system E) Cond (some (p, o)) (C.On E i A))
    (hP : ∀ h s, C.On E i A h s → P (some (p, o)) h s)
    (hQ : ∀ h s w, Cond h s (some (p, o)) (.task w) → A (C.views E i h s) →
      (∀ c, (C.views E i h s c).Answers c i o w) → Q w ((C.views E i h s).did i o)) :
    Triple (C.system E) Cond P (C.On E i A) (Prog.op p o) fun w => C.On E i (Q w) := by
  refine .op hstable hP fun h s w s' hA hc hact => ?_
  have hviews : C.views E i (h ++ [(.task w, .did p o)]) s' = (C.views E i h s).did i o :=
    funext fun c => view_did hact
  rw [CardMemory.On, hviews]
  exact hQ h s w hc hA fun c => view_answers hact

@[inherit_doc triple_op]
theorem triple_perform {B : Views → Prop}
    (hstable : Stable (C.system E) Cond (some (p, o)) (C.On E i A))
    (hP : ∀ h s, C.On E i A h s → P (some (p, o)) h s)
    (hB : ∀ V, A V → (∀ w, (∀ c, (V c).Answers c i o w) → B (V.did i o))) :
    Triple (C.system E) Cond P (C.On E i A) (perform p o) fun _ => C.On E i B :=
  (triple_op (Q := fun _ => B) hstable hP fun _ _ w _ hA hw => hB _ hA w hw).bind
    fun _ => .pure fun _ _ hB => hB

/-- **A program that spares the controls** an assertion is about. -/
theorem triple_spared {α : Type} {prog : TaskProg α}
    (hprog : prog.AllOps fun p o => (Stable (C.system E) Cond (some (p, o)) (C.On E i A) ∧
      ∀ h s, C.On E i A h s → P (some (p, o)) h s) ∧ ∀ V, A V → A (V.did i o)) :
    Triple (C.system E) Cond P (C.On E i A) prog fun _ => C.On E i A := by
  refine .keep (hprog.mono fun p o ho => ⟨ho.1.1, ho.1.2, fun h s w s' hA hc hact => ?_⟩)
  have hviews : C.views E i (h ++ [(.task w, .did p o)]) s' = (C.views E i h s).did i o :=
    funext fun c => view_did hact
  rw [CardMemory.On, hviews]
  exact ho.2 _ hA

end views

end Muxponder
