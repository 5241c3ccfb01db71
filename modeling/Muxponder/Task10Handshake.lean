import Muxponder.Task10Views

/-!
# The Handshake of a Control

A request stores a value in `next` and sets `change`; the task reads `next`, acts, stores
`current` and clears `change`. Nothing keeps the next request from coming in between: it is lost
when the task clears the flag that the request has set. `Undisturbed` says which requests may
come where, and `handshake_kept` that nothing else is lost.

## Main results

* `handshake_kept`: what was requested has been acted upon when its flag is clear.
* `handshake_lost`: a request between the read of `next` and the clearing of `change`.
-/

namespace Muxponder

open Memory Interrupts

section handshake

variable {L : Layout}

/-- **The handshake**: where no change is pending, the value that was requested last has been
the one acted upon, and is the current one; for a rate it is also the one read back. -/
def CardMemory.Handshake (C : CardMemory L) (E : KursEnv) (c : Control)
    (i : Fin INTERFACE_COUNT) (h : TaskHistory) (s : CardState) : Prop :=
  ∀ v, (account E c i h).asked = some v → C.word s.mem (.control c .change) i = 0 →
    (account E c i h).acted = some v ∧ C.word s.mem (.control c .current) i = v ∧
      (c = .rate → C.word s.mem .monitorRate i = v)

/-- A request at a place of its own interface does no harm: it is for another control than the
one that is being applied, or asks for the very value. -/
def Part.Allows (E : KursEnv) (part : Part) (q : ControlRequest) : Prop :=
  match part with
  | .switching seen | .storing seen _ | .clearing seen _ =>
      q.control = .serviceState → q.asked E = seen ∧ q.value = seen
  | .stopping =>
      q.control = .serviceState →
        q.asked E = IF_SERVICE_STATE_OOS ∧ q.value = IF_SERVICE_STATE_OOS
  | .looping mode => q.control = .loopbackMode → q.asked E = mode ∧ q.value = mode
  | .rating _ | .failing => q.control ≠ .rate
  | .clearingTx next => q.control = .txDisable → q.asked E = next
  | _ => True

/-- The rate that `read_if_port_rate` reads back. -/
def readBackRate (select next : UInt32) : Option UInt32 :=
  if select = 0 then
    if next = PORT_RATE_FE ∨ next = PORT_RATE_GE then some next else none
  else selectedRate select

/-- The condition: an accepted request does no harm where it comes, the data type is that of the
first client, and a rate that was requested can be set and reads back. -/
def CardMemory.Undisturbed (C : CardMemory L) (E : KursEnv) :
    Condition CardState Unit ControlRequest Bool Place TaskOp UInt32 := fun h s next e =>
  match e, next with
  | .interrupt q, next => (C.setRequest E s q).2 = true →
      (q.control = .rate → q.port = 0) ∧
        ∀ p o, next = some (p, o) → p.port = q.port → p.part.Allows E q
  | .task w, some (p, .portMapped i) =>
      p.part = .passing ∨ (∃ rate, p.part = .rating rate) →
        (account E .rate i h).asked ≠ none → w ≠ 0
  | .task w, some (p, .getRateSelect i) =>
      ∀ rate, p.part = .rating rate → (account E .rate i h).asked ≠ none →
        readBackRate w rate = some rate
  | _, _ => True

variable {C : CardMemory L} {E : KursEnv} {c : Control} {i : Fin INTERFACE_COUNT}
  {h : TaskHistory} {s : CardState} {q : ControlRequest} {p : Place} {o : TaskOp} {x : ControlView}

/-! ### Assertions about a view -/

/-- The handshake, as a view says it. -/
def ControlView.Kept (x : ControlView) (c : Control) : Prop :=
  ∀ v, x.asked = some v → x.change = 0 →
    x.acted = some v ∧ x.current = v ∧ (c = .rate → x.monitorRate = v)

/-- The invariant: what was requested stands in `next`, and the handshake holds. A rate is
requested of the first client only. -/
structure ControlView.Sound (x : ControlView) (c : Control) (i : Fin INTERFACE_COUNT) :
    Prop where
  next_eq : ∀ v, x.asked = some v → x.next = v
  kept : x.Kept c
  rate : c = .rate → x.asked ≠ none → x.multiRate = true ∧ i = 0

/-- The handshake of a view is that of the card. -/
theorem kept_view : (C.view E c i h s).Kept c ↔ C.Handshake E c i h s := by
  have hmonitor : c = .rate → (C.view E c i h s).monitorRate = C.word s.mem .monitorRate i :=
    fun hc => if_pos hc
  constructor
  · intro hkept v hv hchange
    obtain ⟨hacted, hcurrent, hrate⟩ := hkept v hv hchange
    exact ⟨hacted, hcurrent, fun hc => hmonitor hc ▸ hrate hc⟩
  · intro hkept v hv hchange
    obtain ⟨hacted, hcurrent, hrate⟩ := hkept v hv hchange
    exact ⟨hacted, hcurrent, fun hc => (hmonitor hc).trans (hrate hc)⟩

/-- A request keeps the invariant: it sets `change`. -/
theorem sound_request (hrate : c = .rate → i = 0 ∧ x.multiRate = true) :
    (x.request E q).Sound c i where
  next_eq := fun _ hv => Option.some.inj hv
  kept := fun _ _ h0 => absurd h0 (show (1 : UInt32) ≠ 0 by decide)
  rate := fun hc _ => ⟨(hrate hc).2, (hrate hc).1⟩

/-- An assertion about the view of a control. -/
abbrev CardMemory.OnView (C : CardMemory L) (E : KursEnv) (c : Control)
    (i : Fin INTERFACE_COUNT) (B : ControlView → Prop) :
    Assertion CardState Unit ControlRequest Bool Place TaskOp UInt32 :=
  C.On E i fun V => B (V c)

/-- The condition says which client a data type is for. -/
theorem undisturbed_addressed : C.Addressed E (C.Undisturbed E) :=
  fun _ _ _ _ hcond haccepted => (hcond haccepted).1

/-- An assertion about a view is stable where the requests that may come keep it. -/
theorem stable_onView {B : ControlView → Prop} {next : Option (Place × TaskOp)}
    (hB : ∀ x q, q.control = c → q.port = i → (c = .rate → i = 0 ∧ x.multiRate = true) →
      (∀ p o, next = some (p, o) → p.port = i → p.part.Allows E q) → B x →
      B (x.request E q)) :
    Stable (C.system E) (C.Undisturbed E) next (C.OnView E c i B) := by
  refine stable_on undisturbed_addressed fun h s q hcond haccepted hport hadmits hx => ?_
  obtain ⟨hrate, hallows⟩ := hcond haccepted
  by_cases hc : q.control = c
  · subst hc
    rw [Views.request, Function.update_self]
    refine hB _ q rfl hport (fun hc => ⟨hport ▸ hrate hc, ?_⟩) ?_ hx
    · have hmulti := hadmits.1 hc
      rwa [← hc] at hmulti
    · exact fun p o hnext hp => hallows p o hnext (hp.trans hport.symm)
  · rw [Views.request, Function.update_of_ne (Ne.symm hc)]
    exact hx

/-- The invariant is stable everywhere. -/
theorem stable_sound {next : Option (Place × TaskOp)} :
    Stable (C.system E) (C.Undisturbed E) next (C.OnView E c i (·.Sound c i)) :=
  stable_onView fun _ _ _ _ hrate _ _ => sound_request hrate

/-- **A program of the task with assertions about a view.** -/
abbrev CardMemory.ViewTriple (C : CardMemory L) (E : KursEnv) (c : Control)
    (i : Fin INTERFACE_COUNT) {α : Type} (A : ControlView → Prop) (prog : TaskProg α)
    (B : α → ControlView → Prop) : Prop :=
  Triple (C.system E) (C.Undisturbed E) (fun _ => C.Handshake E c i) (C.OnView E c i A) prog
    fun a => C.OnView E c i (B a)

/-- An operation, with assertions about a view. -/
theorem view_op {A : ControlView → Prop} {B : UInt32 → ControlView → Prop}
    (hstable : Stable (C.system E) (C.Undisturbed E) (some (p, o)) (C.OnView E c i A))
    (hkept : ∀ x, A x → x.Kept c)
    (hB : ∀ x w, A x → x.Answers c i o w → B w (x.did c i o)) :
    C.ViewTriple E c i A (Prog.op p o) B :=
  triple_op hstable (fun _ _ hA => kept_view.mp (hkept _ hA))
    fun _ _ w _ hA hw => hB _ w hA (hw c)

/-- A write or a call. -/
theorem view_perform {A B : ControlView → Prop}
    (hstable : Stable (C.system E) (C.Undisturbed E) (some (p, o)) (C.OnView E c i A))
    (hkept : ∀ x, A x → x.Kept c) (hB : ∀ x, A x → B (x.did c i o)) :
    C.ViewTriple E c i A (perform p o) fun _ => B :=
  triple_perform hstable (fun _ _ hA => kept_view.mp (hkept _ hA)) fun V hA _ _ => hB (V c) hA

/-- A program that spares the control. -/
theorem view_spared {α : Type} {prog : TaskProg α} {A : ControlView → Prop}
    {P : Part → Prop} {j : Fin INTERFACE_COUNT}
    (hprog : prog.AllOps (Spares P c i j))
    (hstable : ∀ p o, p.port = j → P p.part →
      Stable (C.system E) (C.Undisturbed E) (some (p, o)) (C.OnView E c i A))
    (hkept : ∀ x, A x → x.Kept c) : C.ViewTriple E c i A prog fun _ => A :=
  triple_spared (hprog.mono fun p o ho =>
    ⟨⟨hstable p o ho.1 ho.2.1, fun _ _ hA => kept_view.mp (hkept _ hA)⟩, fun V hA => by
      rw [Views.did, did_of_spared ho.2.2]
      exact hA⟩)

/-- A program that spares the control keeps the invariant. -/
theorem sound_spared {α : Type} {prog : TaskProg α} {parts : Part → Prop}
    {j : Fin INTERFACE_COUNT} (hprog : prog.AllOps (Spares parts c i j)) :
    C.ViewTriple E c i (·.Sound c i) prog fun _ => (·.Sound c i) :=
  view_spared hprog (fun _ _ _ _ => stable_sound) fun _ hx => hx.kept

/-- A weaker assertion behind a program, and a stronger one in front. -/
theorem view_conseq {α : Type} {prog : TaskProg α} {A A' : ControlView → Prop}
    {B B' : α → ControlView → Prop} (h : C.ViewTriple E c i A prog B)
    (hA : ∀ x, A' x → A x) (hB : ∀ a x, B a x → B' a x) : C.ViewTriple E c i A' prog B' :=
  h.conseq (fun _ _ => hA _) fun _ _ _ => hB _ _

/-- A fact that does not depend on the view. -/
theorem view_and {α : Type} {prog : TaskProg α} {A : ControlView → Prop}
    {B : α → ControlView → Prop} {φ : Prop} (h : φ → C.ViewTriple E c i A prog B) :
    C.ViewTriple E c i (fun x => A x ∧ φ) prog B :=
  fun _ _ hx => h hx.2 _ _ hx.1

/-- A test of `change`: what follows may use that it is set, and that no one else clears it. -/
theorem view_change {f : UInt32 → TaskProg Unit} {rest : TaskProg Unit}
    (hf : f = fun w => if w ≠ 0 then rest else pure ())
    (hrest : C.ViewTriple E c i (fun x => x.Sound c i ∧ x.change ≠ 0) rest
      fun _ => (·.Sound c i)) :
    C.ViewTriple E c i (·.Sound c i) (readWord p (.control c .change) i >>= f)
      fun _ => (·.Sound c i) := by
  subst hf
  refine .bind (view_op (B := fun w x => x.Sound c i ∧ (w ≠ 0 → x.change ≠ 0)) stable_sound
    (fun _ hx => hx.kept) ?_) fun w => .ite (fun hw => ?_) fun _ => ?_
  · intro x w hx hw
    rw [did_of_spared (by simp [TaskOp.Touches])]
    exact ⟨hx, fun hne => hw.2.2.1 rfl ▸ hne⟩
  · exact view_conseq hrest (fun x hx => ⟨hx.1, hx.2 hw⟩) fun _ _ hx => hx
  · exact .pure fun _ _ hx => hx.1

/-! ### The service state -/

/-- A value that has been read is being applied. -/
structure ControlView.Applying (x : ControlView) (w : UInt32) : Prop where
  next_eq : x.next = w
  change_ne : x.change ≠ 0
  asked : ∀ v, x.asked = some v → v = w

/-- It is the value that was requested last. -/
theorem ControlView.Sound.applying (hx : x.Sound c i) (hchange : x.change ≠ 0) :
    x.Applying x.next where
  next_eq := rfl
  change_ne := hchange
  asked := fun v hv => (hx.next_eq v hv).symm

/-- A request for the same value changes nothing. -/
theorem applying_request {w : UInt32} (hq : q.asked E = w) : (x.request E q).Applying w where
  next_eq := hq
  change_ne := show (1 : UInt32) ≠ 0 by decide
  asked := fun _ hv => hq ▸ (Option.some.inj hv).symm

/-- While a value is being applied the handshake says nothing. -/
theorem ControlView.Applying.kept {w : UInt32} (hx : x.Applying w) : x.Kept c :=
  fun _ _ h0 => absurd h0 hx.change_ne

/-- What does not touch the request leaves this. -/
theorem ControlView.Applying.of_eq {w : UInt32} {x' : ControlView} (hx : x.Applying w)
    (hnext : x'.next = x.next) (hchange : x'.change = x.change) (hasked : x'.asked = x.asked) :
    x'.Applying w where
  next_eq := hnext.trans hx.next_eq
  change_ne := hchange ▸ hx.change_ne
  asked := fun v hv => hx.asked v (hasked ▸ hv)

/-- Behind the last step the invariant holds again. -/
theorem ControlView.Applying.sound {w : UInt32} (hx : x.Applying w) (hc : c ≠ .rate)
    (hacted : x.acted = some w) (hcurrent : x.current = w) :
    (x.did c i (.write (.control c .change) i 0)).Sound c i := by
  have hasked : (x.did c i (.write (.control c .change) i 0)).asked = x.asked := by
    simp [ControlView.did, Account.did]
  refine ⟨fun v hv => ?_, fun v hv _ => ?_, fun h => absurd h hc⟩ <;>
    rw [hasked] at hv <;> obtain rfl := hx.asked v hv
  · simpa [ControlView.did, TaskOp.result] using hx.next_eq
  · refine ⟨?_, ?_, fun h => absurd h hc⟩
    · simpa [ControlView.did, Account.did] using hacted
    · simpa [ControlView.did, TaskOp.result] using hcurrent

/-- What is known of a control while a value is being applied stays, where a request may only
ask for this value. -/
theorem stable_applying {w : UInt32} {B : ControlView → Prop} (hport : p.port = i)
    (hallows : ∀ q, q.control = c → p.part.Allows E q → q.asked E = w ∧
      (c = .serviceState ∨ c = .loopbackMode → q.value = w))
    (hB : ∀ x x' : ControlView, x'.acted = x.acted →
      (x'.current = x.current ∨ x'.current = w) → B x → B x') :
    Stable (C.system E) (C.Undisturbed E) (some (p, o))
      (C.OnView E c i fun x => x.Applying w ∧ B x) := by
  refine stable_onView fun x q hc hq _ hp hx => ?_
  obtain ⟨hasked, hvalue⟩ := hallows q hc (hp p o rfl hport)
  refine ⟨applying_request hasked, hB x _ rfl ?_ hx.2⟩
  by_cases hstores : q.control = .serviceState ∨ q.control = .loopbackMode
  · exact .inr ((if_pos hstores).trans (hvalue (hc ▸ hstores)))
  · exact .inl (if_neg hstores)

/-- A value is read to be applied. -/
theorem view_next {f : UInt32 → TaskProg Unit} (hc : c ≠ .rate)
    (hf : ∀ w, C.ViewTriple E c i (fun x => x.Applying w ∧ True) (f w) fun _ => (·.Sound c i)) :
    C.ViewTriple E c i (fun x => x.Sound c i ∧ x.change ≠ 0)
      (readWord p (.control c .next) i >>= f) fun _ => (·.Sound c i) := by
  refine .bind (view_op (B := fun w x => x.Applying w ∧ True) (stable_onView fun _ _ _ _ _ _ _ =>
    ⟨sound_request fun h => absurd h hc, show (1 : UInt32) ≠ 0 by decide⟩)
    (fun _ hx => hx.1.kept) fun x w hx hw => ?_) hf
  rw [did_of_spared (by simp [TaskOp.Touches]), hw.1 rfl]
  exact ⟨hx.1.applying hx.2, trivial⟩

/-- The value that has been acted upon is read again and stored, and its request is cleared. -/
theorem view_store {w : UInt32} {f g : UInt32 → Place} (hc : c ≠ .rate)
    (hstable : ∀ p' : Place, p' = p ∨ (∃ v, p' = f v ∨ p' = g v) →
      ∀ (o : TaskOp) (B : ControlView → Prop), (∀ x x' : ControlView, x'.acted = x.acted →
        (x'.current = x.current ∨ x'.current = w) → B x → B x') →
      Stable (C.system E) (C.Undisturbed E) (some (p', o))
        (C.OnView E c i fun x => x.Applying w ∧ B x)) :
    C.ViewTriple E c i (fun x => x.Applying w ∧ x.acted = some w)
      (do
        let v ← readWord p (.control c .next) i
        writeWord (f v) (.control c .current) i v
        writeWord (g v) (.control c .change) i 0)
      fun _ => (·.Sound c i) := by
  refine .bind (view_op (B := fun v x => x.Applying w ∧ x.acted = some w ∧ v = w)
    (hstable p (.inl rfl) _ _ fun _ _ h _ h' => h ▸ h') (fun _ hx => hx.1.kept)
    fun x v hx hv => ?_) fun v => ?_
  · rw [did_of_spared (by simp [TaskOp.Touches])]
    exact ⟨hx.1, hx.2, (hv.1 rfl).trans hx.1.next_eq⟩
  refine .bind (view_perform (B := fun x => x.Applying w ∧ x.acted = some w ∧ x.current = w)
    (hstable _ (.inr ⟨v, .inl rfl⟩) _ _ fun _ _ h _ h' => h ▸ h') (fun _ hx => hx.1.kept)
    fun x hx => ?_) fun _ => ?_
  · obtain ⟨happlying, hacted, rfl⟩ := hx
    exact ⟨happlying.of_eq (by simp [ControlView.did, TaskOp.result])
      (by simp [ControlView.did, TaskOp.result]) (by simp [ControlView.did, Account.did]),
      by simpa [ControlView.did, Account.did] using hacted,
      by simp [ControlView.did, TaskOp.result]⟩
  · refine view_perform (hstable _ (.inr ⟨v, .inr rfl⟩) _ _ ?_)
      (fun _ hx => hx.1.kept) fun x hx => hx.1.sound hc hx.2.1 hx.2.2
    rintro x x' hacted hcurrent ⟨h, h'⟩
    exact ⟨hacted ▸ h, hcurrent.elim (fun hc => hc.trans h') id⟩

/-- The task acts upon a value. -/
theorem view_act {w : UInt32}
    (hstable : ∀ B : ControlView → Prop, (∀ x x' : ControlView, x'.acted = x.acted →
        (x'.current = x.current ∨ x'.current = w) → B x → B x') →
      Stable (C.system E) (C.Undisturbed E) (some (p, o))
        (C.OnView E c i fun x => x.Applying w ∧ B x))
    (ho : ∀ x : ControlView, (x.did c i o).next = x.next ∧ (x.did c i o).change = x.change ∧
      (x.did c i o).asked = x.asked ∧ (x.did c i o).acted = some w) :
    C.ViewTriple E c i (fun x => x.Applying w ∧ True) (perform p o)
      fun _ x => x.Applying w ∧ x.acted = some w :=
  view_perform (hstable _ fun _ _ _ _ h => h) (fun _ hx => hx.1.kept) fun x hx =>
    ⟨hx.1.of_eq (ho x).1 (ho x).2.1 (ho x).2.2.1, (ho x).2.2.2⟩

/-- A place of the service state allows requests for the state that is being applied. -/
theorem allows_state {seen : UInt32} (hpart : p.part.Applies seen)
    (hc : q.control = .serviceState) (hallows : p.part.Allows E q) :
    q.asked E = seen ∧ q.value = seen := by
  rcases hpart with h | ⟨rfl, h⟩ | ⟨state, h | h⟩ <;> rw [h] at hallows <;> exact hallows hc

/-- The service state is being applied. -/
theorem stable_state {seen : UInt32} {B : ControlView → Prop} (hport : p.port = i)
    (hpart : p.part.Applies seen)
    (hB : ∀ x x' : ControlView, x'.acted = x.acted →
      (x'.current = x.current ∨ x'.current = seen) → B x → B x') :
    Stable (C.system E) (C.Undisturbed E) (some (p, o))
      (C.OnView E .serviceState i fun x => x.Applying seen ∧ B x) :=
  stable_applying hport (fun _ hc hallows =>
    ⟨(allows_state hpart hc hallows).1, fun _ => (allows_state hpart hc hallows).2⟩) hB

/-- **The service state**: the handshake holds behind it. -/
theorem servicePart_kept : C.ViewTriple E .serviceState i (·.Sound .serviceState i)
    (servicePart i) fun _ => (·.Sound .serviceState i) := by
  refine view_change rfl (view_next (by simp) fun seen => ?_)
  have happlies : (Part.switching seen).Applies seen := .inl rfl
  have hafter : (afterSwitch seen).Applies seen := by
    rw [afterSwitch]
    split
    next h => exact .inr (.inl ⟨h, rfl⟩)
    next => exact happlies
  have hacted : C.ViewTriple E .serviceState i (fun x => x.Applying seen ∧ True)
      (switchState i seen) fun _ x => x.Applying seen ∧ x.acted = some seen :=
    .bind (view_act (fun _ => stable_state rfl happlies)
      (by simp [ControlView.did, Account.did, TaskOp.result]))
      fun _ => view_spared (stateCases_ops (by simp)) (fun p o hp hpart =>
        stable_state hp hpart fun _ _ h _ h' => h ▸ h') fun _ hx => hx.1.kept
  refine .bind hacted fun _ => view_store (f := fun state => ⟨i, .storing seen state⟩)
    (g := fun state => ⟨i, .clearing seen state⟩) (by simp) fun p' hp' o B hB => ?_
  rcases hp' with rfl | ⟨state, rfl | rfl⟩
  · exact stable_state rfl hafter hB
  · exact stable_state rfl (.inr (.inr ⟨state, .inl rfl⟩)) hB
  · exact stable_state rfl (.inr (.inr ⟨state, .inr rfl⟩)) hB

/-! ### The loopback mode -/

/-- A loopback mode is being applied. -/
theorem stable_loopback {mode : UInt32} {B : ControlView → Prop}
    (hp : p = ⟨i, .looping mode⟩)
    (hB : ∀ x x' : ControlView, x'.acted = x.acted →
      (x'.current = x.current ∨ x'.current = mode) → B x → B x') :
    Stable (C.system E) (C.Undisturbed E) (some (p, o))
      (C.OnView E .loopbackMode i fun x => x.Applying mode ∧ B x) := by
  subst hp
  exact stable_applying rfl (fun _ hc hallows => ⟨(hallows hc).1, fun _ => (hallows hc).2⟩) hB

/-- **The loopback mode**: the handshake holds behind it. -/
theorem loopbackPart_kept : C.ViewTriple E .loopbackMode i (·.Sound .loopbackMode i)
    (loopbackPart i) fun _ => (·.Sound .loopbackMode i) := by
  refine view_change rfl (view_next (by simp) fun mode => ?_)
  have hacted : C.ViewTriple E .loopbackMode i (fun x => x.Applying mode ∧ True)
      (setIfPortLoopback i mode) fun _ x => x.Applying mode ∧ x.acted = some mode :=
    .bind (view_act (fun _ => stable_loopback rfl)
      (by simp [ControlView.did, Account.did, TaskOp.result]))
      fun _ => view_spared (switchLoopback_ops (by simp)) (fun p o hp hpart =>
        stable_loopback (by rw [← hp, ← hpart]) fun _ _ h _ h' => h ▸ h') fun _ hx => hx.1.kept
  refine .bind hacted fun _ => view_store (f := fun _ => ⟨i, .looping mode⟩)
    (g := fun _ => ⟨i, .looping mode⟩) (by simp) fun p' hp' o B hB => ?_
  refine stable_loopback ?_ hB
  rcases hp' with rfl | ⟨state, rfl | rfl⟩ <;> rfl

/-! ### The transmitter -/

/-- A read keeps the invariant. -/
theorem sound_read {f : PortField} {j : Fin INTERFACE_COUNT} :
    C.ViewTriple E c i (·.Sound c i) (readWord p f j) fun _ => (·.Sound c i) :=
  view_op stable_sound (fun _ hx => hx.kept) fun x _ hx _ => by
    rwa [did_of_spared (by simp [TaskOp.Touches])]

/-- An operation that spares the control keeps the invariant. -/
theorem sound_perform (ho : ¬ o.Touches c i) :
    C.ViewTriple E c i (·.Sound c i) (perform p o) fun _ => (·.Sound c i) :=
  view_perform stable_sound (fun _ hx => hx.kept) fun x hx => by rwa [did_of_spared ho]

/-- The task has stored a value in `next` and has not requested it yet. -/
structure ControlView.Armed (x : ControlView) (c : Control) : Prop where
  stored : x.stored = some x.next
  kept : x.Kept c

/-- A request in between takes its place. -/
theorem stable_armed : Stable (C.system E) (C.Undisturbed E) (some (p, o))
    (C.OnView E .txDisable i (·.Armed .txDisable)) :=
  stable_onView fun _ _ _ _ _ _ _ =>
    ⟨rfl, (sound_request (c := .txDisable) (i := i) (by simp)).kept⟩

/-- An interface that goes out of service requests its transmitter to be switched off. -/
theorem stateCases_tx {next : UInt32} : C.ViewTriple E .txDisable i (·.Sound .txDisable i)
    (stateCases i next) fun _ => (·.Sound .txDisable i) := by
  refine .ite (fun _ => ?_) fun _ => .ite (fun _ => sound_perform (by simp [TaskOp.Touches]))
    fun _ => .ite (fun _ => sound_perform (by simp [TaskOp.Touches]))
      fun _ => .pure fun _ _ hx => hx
  refine .bind (sound_perform (by simp [TaskOp.Touches])) fun _ =>
    .bind (view_perform (B := (·.Armed .txDisable)) stable_sound (fun _ hx => hx.kept)
      fun x hx => ?_) fun _ => view_perform stable_armed (fun _ hx => hx.kept) fun x hx => ?_
  · exact ⟨by simp [ControlView.did, Account.did, TaskOp.result],
      by simpa [ControlView.Kept, ControlView.did, Account.did, TaskOp.result] using hx.kept⟩
  · refine ⟨fun v hv => ?_, fun _ _ h0 => ?_, fun h => absurd h (by simp)⟩
    · have hv' : x.stored = some v := by simpa [ControlView.did, Account.did] using hv
      simpa [ControlView.did, TaskOp.result] using Option.some.inj (hx.stored.symm.trans hv')
    · simp [ControlView.did, TaskOp.result] at h0

/-- The service state leaves the handshake of the transmitter. -/
theorem servicePart_tx : C.ViewTriple E .txDisable i (·.Sound .txDisable i)
    (servicePart i) fun _ => (·.Sound .txDisable i) :=
  .bind sound_read fun _ => .ite (fun _ => .bind sound_read fun _ =>
    .bind (.bind (sound_perform (by simp [TaskOp.Touches])) fun _ => stateCases_tx) fun _ =>
      .bind sound_read fun _ => .bind (sound_perform (by simp [TaskOp.Touches])) fun _ =>
        sound_perform (by simp [TaskOp.Touches])) fun _ => .pure fun _ _ hx => hx

/-- A value is being applied to the transmitter, which is only compared with the request. -/
structure ControlView.Setting (x : ControlView) (i : Fin INTERFACE_COUNT) : Prop where
  sound : x.Sound .txDisable i
  change_ne : x.change ≠ 0

/-- What is known of the transmitter while its request is pending stays: a request changes
neither its state nor `current`. -/
theorem stable_setting {B : ControlView → Prop}
    (hB : ∀ x x' : ControlView, x'.acted = x.acted → x'.current = x.current →
      x'.txOff = x.txOff → B x → B x') :
    Stable (C.system E) (C.Undisturbed E) (some (p, o))
      (C.OnView E .txDisable i fun x => x.Setting i ∧ B x) :=
  stable_onView fun x q hc _ hrate _ hx =>
    ⟨⟨sound_request hrate, show (1 : UInt32) ≠ 0 by decide⟩,
      hB x _ rfl (if_neg (by simp [hc])) rfl hx.2⟩

/-- The transmitter has been set. -/
theorem setTxDisable_setting {next : UInt32} : C.ViewTriple E .txDisable i
    (fun x => x.Setting i ∧ True) (perform ⟨i, .passed⟩ (.setTxDisable i (next ≠ 0)))
    fun _ x => x.Setting i ∧ x.acted = some (if x.txOff then 1 else 0) := by
  refine view_perform (stable_setting fun _ _ _ _ _ h => h) (fun _ hx => hx.1.sound.kept)
    fun x hx => ⟨⟨⟨fun v hv => ?_, fun _ _ h0 => ?_, by simp⟩, hx.1.change_ne⟩, ?_⟩
  · exact hx.1.sound.next_eq v (by simpa [ControlView.did, Account.did] using hv)
  · exact absurd h0 hx.1.change_ne
  · simp [ControlView.did, Account.did, TaskOp.transmitter]

/-- The transmitter is compared with the request, which is cleared where they agree. -/
theorem txCompared_kept {state : UInt32} : C.ViewTriple E .txDisable i
    (fun x => x.Setting i ∧ x.acted = some state ∧ x.current = state)
    (do
      let current ← readWord ⟨i, .passed⟩ (.control .txDisable .current) i
      let next ← readWord ⟨i, .passed⟩ (.control .txDisable .next) i
      if current = next then
        writeWord ⟨i, .clearingTx next⟩ (.control .txDisable .change) i 0)
    fun _ => (·.Sound .txDisable i) := by
  refine .bind (view_op (B := fun current x => x.Setting i ∧ (x.acted = some state ∧
    x.current = state) ∧ current = state) (stable_setting fun _ _ h h' _ hx => h ▸ h' ▸ hx)
    (fun _ hx => hx.1.sound.kept) fun x w hx hw => ?_) fun current => ?_
  · rw [did_of_spared (by simp [TaskOp.Touches])]
    exact ⟨hx.1, hx.2, (hw.2.1 rfl).trans hx.2.2⟩
  refine .bind (view_op (B := fun next x => x.Sound .txDisable i ∧ (current = next →
    x.Applying next ∧ x.acted = some next ∧ x.current = next))
    (stable_setting fun _ _ h h' _ hx => h ▸ h' ▸ hx) (fun _ hx => hx.1.sound.kept)
    fun x w hx hw => ?_) fun next => .ite (fun heq => ?_) fun _ => .pure fun _ _ hx => hx.1
  · rw [did_of_spared (by simp [TaskOp.Touches])]
    obtain ⟨hsetting, ⟨hacted, hcurrent⟩, rfl⟩ := hx
    refine ⟨hsetting.sound, fun heq => ?_⟩
    subst heq
    exact ⟨hw.1 rfl ▸ hsetting.sound.applying hsetting.change_ne, hacted, hcurrent⟩
  · refine view_conseq (A := fun x => x.Applying next ∧ x.acted = some next ∧ x.current = next)
      (view_perform (stable_applying rfl (fun q hc hallows => ⟨hallows hc, by simp⟩) ?_)
        (fun _ hx => hx.1.kept) fun x hx => hx.1.sound (by simp) hx.2.1 hx.2.2)
      (fun x hx => hx.2 heq) fun _ _ hx => hx
    rintro x x' hacted hcurrent ⟨h, h'⟩
    exact ⟨hacted ▸ h, hcurrent.elim (fun hc => hc.trans h') id⟩

/-- **The transmitter**: the handshake holds behind it. -/
theorem txPart_kept : C.ViewTriple E .txDisable i (·.Sound .txDisable i)
    (txPart i) fun _ => (·.Sound .txDisable i) := by
  have hset : ∀ x x' : ControlView, x'.acted = x.acted → x'.current = x.current →
      x'.txOff = x.txOff → x.acted = some (if x.txOff then 1 else 0) →
      x'.acted = some (if x'.txOff then 1 else 0) := fun _ _ h _ h' hx => h ▸ h' ▸ hx
  have hread : ∀ f, C.ViewTriple E .txDisable i
      (fun x => x.Setting i ∧ x.acted = some (if x.txOff then 1 else 0))
      (perform ⟨i, .passed⟩ (.read f i))
      fun _ x => x.Setting i ∧ x.acted = some (if x.txOff then 1 else 0) := fun f =>
    view_perform (stable_setting hset) (fun _ hx => hx.1.sound.kept) fun x hx => by
      rwa [did_of_spared (by simp [TaskOp.Touches])]
  refine view_change rfl ?_
  refine .bind (view_op (B := fun _ x => x.Setting i ∧ True) (stable_onView
    fun _ _ _ _ hrate _ _ => ⟨sound_request hrate, show (1 : UInt32) ≠ 0 by decide⟩)
    (fun _ hx => hx.1.kept) fun x w hx _ => ?_) fun next => ?_
  · rw [did_of_spared (by simp [TaskOp.Touches])]
    exact ⟨⟨hx.1, hx.2⟩, trivial⟩
  refine .bind setTxDisable_setting fun _ => .bind (hread _) fun _ => .bind (hread _) fun _ => ?_
  refine .bind (view_op (B := fun state x => x.Setting i ∧ x.acted = some state)
    (stable_setting hset) (fun _ hx => hx.1.sound.kept) fun x w hx hw => ?_) fun state => ?_
  · rw [did_of_spared (by simp [TaskOp.Touches]), hw.2.2.2.2.2 rfl rfl]
    exact hx
  refine .bind (view_perform
    (B := fun x => x.Setting i ∧ x.acted = some state ∧ x.current = state)
    (stable_setting fun _ _ h _ _ hx => h ▸ hx) (fun _ hx => hx.1.sound.kept) fun x hx => ?_)
    fun _ => txCompared_kept
  refine ⟨⟨⟨fun v hv => ?_, fun _ _ h0 => ?_, by simp⟩, ?_⟩, ?_, ?_⟩
  · have hv' : x.asked = some v := by simpa [ControlView.did, Account.did] using hv
    simpa [ControlView.did, TaskOp.result] using hx.1.sound.next_eq v hv'
  · exact absurd (by simpa [ControlView.did, TaskOp.result] using h0) hx.1.change_ne
  · simpa [ControlView.did, TaskOp.result] using hx.1.change_ne
  · simpa [ControlView.did, Account.did] using hx.2
  · simp [ControlView.did, TaskOp.result]

/-! ### The rate, as a loopback mode sets it -/

/-- A value was read from `next` after the last request, if none is pending. -/
def ControlView.Fresh (x : ControlView) (w : UInt32) : Prop :=
  ∀ v, x.asked = some v → x.change = 0 → v = w

/-- The invariant, with values that have been read. -/
theorem stable_fresh {r r' : UInt32} : Stable (C.system E) (C.Undisturbed E) (some (p, o))
    (C.OnView E .rate i fun x => x.Sound .rate i ∧ x.Fresh r ∧ x.Fresh r') :=
  stable_onView fun _ _ _ _ hrate _ _ => ⟨sound_request hrate,
    fun _ _ h0 => absurd h0 (show (1 : UInt32) ≠ 0 by decide),
    fun _ _ h0 => absurd h0 (show (1 : UInt32) ≠ 0 by decide)⟩

/-- What is read from `next` is fresh. -/
theorem ControlView.Sound.fresh (hx : x.Sound c i) : x.Fresh x.next :=
  fun v hv _ => (hx.next_eq v hv).symm

/-- A rate that is set with the one that `next` holds leaves the handshake. -/
theorem setIfPortRate_kept : C.ViewTriple E .rate i (·.Sound .rate i)
    (setIfPortRate i p fun _ => p) fun _ => (·.Sound .rate i) := by
  refine .bind sound_read fun cap => .ite (fun _ => .pure fun _ _ hx => hx) fun _ => ?_
  refine .bind (view_op (B := fun _ => (·.Sound .rate i)) stable_sound (fun _ hx => hx.kept)
    fun x _ hx _ => by rwa [did_of_spared (by simp [TaskOp.Touches])]) fun mapped =>
    .ite (fun _ => .pure fun _ _ hx => hx) fun _ => ?_
  refine .bind (view_op (B := fun rate x => x.Sound .rate i ∧ x.Fresh rate ∧ x.Fresh rate)
    stable_sound (fun _ hx => hx.kept) fun x w hx hw => ?_) fun rate => ?_
  · rw [did_of_spared (by simp [TaskOp.Touches]), hw.1 rfl]
    exact ⟨hx, hx.fresh, hx.fresh⟩
  refine .bind (view_op (B := fun odtug2Rate x => x.Sound .rate i ∧ x.Fresh rate ∧
    x.Fresh odtug2Rate) stable_fresh (fun _ hx => hx.1.kept) fun x w hx hw => ?_)
    fun odtug2Rate => ?_
  · rw [did_of_spared (by simp [TaskOp.Touches]), hw.1 rfl]
    exact ⟨hx.1, hx.2.1, hx.1.fresh⟩
  refine .ite (fun _ => ?_) fun _ => .pure fun _ _ hx => hx.1
  refine .bind (view_perform (B := fun x => x.Sound .rate i ∧ x.Fresh rate ∧ x.Fresh odtug2Rate)
    stable_fresh (fun _ hx => hx.1.kept) fun x hx => by
      rwa [did_of_spared (by simp [TaskOp.Touches])]) fun _ => ?_
  refine .bind (view_perform (B := fun x => x.Sound .rate i ∧ x.Fresh rate ∧ x.Fresh odtug2Rate)
    stable_fresh (fun _ hx => hx.1.kept) fun x hx => ?_) fun _ =>
    .bind (view_perform (B := (·.Sound .rate i)) stable_fresh (fun _ hx => hx.1.kept)
      fun x hx => ?_) fun _ => .pure fun _ _ hx => hx
  · obtain ⟨hsound, hrate, hodtug2⟩ := hx
    have hasked : (x.did .rate i (.setRateRx i odtug2Rate)).asked = x.asked := by
      simp [ControlView.did, Account.did]
    refine ⟨⟨fun v hv => hsound.next_eq v (hasked ▸ hv), fun v hv h0 => ?_,
      fun hc hne => hsound.rate hc (hasked ▸ hne)⟩,
      fun v hv => hrate v (hasked ▸ hv), fun v hv => hodtug2 v (hasked ▸ hv)⟩
    obtain ⟨-, hcurrent, hmonitor⟩ := hsound.kept v (hasked ▸ hv) h0
    obtain rfl := hodtug2 v (hasked ▸ hv) h0
    exact ⟨by simp [ControlView.did, Account.did], hcurrent, hmonitor⟩
  · obtain ⟨hsound, hrate, -⟩ := hx
    have hasked : (x.did .rate i (.write (.control .rate .current) i rate)).asked = x.asked := by
      simp [ControlView.did, Account.did]
    have hchange : (x.did .rate i (.write (.control .rate .current) i rate)).change = x.change := by
      simp [ControlView.did, TaskOp.result]
    refine ⟨fun v hv => ?_, fun v hv h0 => ?_, fun hc hne => ?_⟩
    · simpa [ControlView.did, TaskOp.result] using hsound.next_eq v (hasked ▸ hv)
    · obtain ⟨hacted, -, hmonitor⟩ := hsound.kept v (hasked ▸ hv) (hchange ▸ h0)
      obtain rfl := hrate v (hasked ▸ hv) (hchange ▸ h0)
      exact ⟨by simpa [ControlView.did, Account.did] using hacted,
        by simp [ControlView.did, TaskOp.result],
        by simpa [ControlView.did, TaskOp.result] using hmonitor⟩
    · simpa [ControlView.did] using hsound.rate hc (hasked ▸ hne)

/-- The cases of a loopback mode leave the handshake of the rate. -/
theorem switchLoopback_rate {mode : UInt32} : C.ViewTriple E .rate i (·.Sound .rate i)
    (switchLoopback i mode) fun _ => (·.Sound .rate i) := by
  have hset : C.ViewTriple E .rate i (·.Sound .rate i)
      (do
        let _ ← setIfPortRate i ⟨i, .looping mode⟩ fun _ => ⟨i, .looping mode⟩
        return ())
      fun _ => (·.Sound .rate i) := .bind setIfPortRate_kept fun _ => .pure fun _ _ hx => hx
  have hbit : ∀ on, C.ViewTriple E .rate i (·.Sound .rate i)
      (perform ⟨i, .looping mode⟩ (.setSerialLoopback i on)) fun _ => (·.Sound .rate i) :=
    fun _ => sound_perform (by simp [TaskOp.Touches])
  have hdone : C.ViewTriple E .rate i (·.Sound .rate i) (pure ()) fun _ => (·.Sound .rate i) :=
    .pure fun _ _ hx => hx
  refine .ite (fun _ => ?_) fun _ => .ite (fun _ => ?_) fun _ => ?_
  · exact .ite (fun _ => .bind (hbit _) fun _ => hset) fun _ =>
      .ite (fun _ => .bind (hbit _) fun _ => hset) fun _ => hdone
  · refine .ite (fun _ => .bind (hbit _) fun _ => ?_) fun _ =>
      .ite (fun _ => .bind (hbit _) fun _ => hset) fun _ => .ite (fun _ => hbit _) fun _ => hdone
    exact .bind sound_read fun _ => .ite (fun _ => hset) fun _ =>
      .bind sound_read fun _ => .ite (fun _ => hset) fun _ =>
        .bind sound_read fun _ => .ite (fun _ => hset) fun _ => hdone
  · exact .ite (fun _ => hbit _) fun _ => .ite (fun _ => hbit _) fun _ => hdone

/-- The loopback mode leaves the handshake of the rate. -/
theorem loopbackPart_rate : C.ViewTriple E .rate i (·.Sound .rate i) (loopbackPart i)
    fun _ => (·.Sound .rate i) :=
  .bind sound_read fun _ => .ite (fun _ => .bind sound_read fun _ =>
    .bind (.bind (sound_perform (by simp [TaskOp.Touches])) fun _ => switchLoopback_rate) fun _ =>
      .bind sound_read fun _ => .bind (sound_perform (by simp [TaskOp.Touches])) fun _ =>
        sound_perform (by simp [TaskOp.Touches])) fun _ => .pure fun _ _ hx => hx

/-! ### The rate -/

/-- While a rate is being applied no rate may be requested. -/
theorem stable_rating {B : ControlView → Prop} (hport : p.port = i)
    (hpart : (∃ rate, p.part = .rating rate) ∨ p.part = .failing) :
    Stable (C.system E) (C.Undisturbed E) (some (p, o)) (C.OnView E .rate i B) := by
  refine stable_onView fun x q hc _ _ hp _ => ?_
  have hallows := hp p o rfl hport
  rcases hpart with ⟨rate, h⟩ | h <;> rw [h] at hallows <;> exact absurd hc hallows

/-- Where nothing is requested there is nothing to be lost. -/
theorem sound_of_asked_none (hx : x.asked = none) : x.Sound c i where
  next_eq := fun _ hv => by rw [hx] at hv; cases hv
  kept := fun _ hv => by rw [hx] at hv; cases hv
  rate := fun _ h => absurd hx h

/-- Only by setting `change` the task requests something. -/
theorem asked_did (ho : o ≠ .write (.control c .change) i 1) : (x.did c i o).asked = x.asked := by
  cases o with
  | write f j w =>
      have hne : ¬ (j = i ∧ f = .control c .change ∧ w = 1) := by
        rintro ⟨rfl, rfl, rfl⟩
        exact ho rfl
      simp only [ControlView.did, Account.did, if_neg hne]
      split
      next => rfl
      next => split <;> rfl
  | switchState j next | setIfPortLoopback j next | setTxDisable j next | setRateRx j next =>
      simp only [ControlView.did, Account.did]
      split <;> rfl
  | _ => rfl

/-- A rate that nobody has requested. -/
theorem confirmRate_unasked {rate : UInt32} : C.ViewTriple E .rate i (·.asked = none)
    (confirmRate i ⟨i, .rating rate⟩) fun _ => (·.Sound .rate i) := by
  have hops : (confirmRate i ⟨i, .rating rate⟩).AllOps fun p o =>
      p = ⟨i, .rating rate⟩ ∧ o ≠ .write (.control .rate .change) i 1 :=
    confirmRate_ops.mono fun p o ho => ⟨ho.1, by
      rintro rfl
      simp [TaskOp.Confirms] at ho⟩
  refine view_conseq (A := (·.asked = none)) (B := fun _ => (·.asked = none))
    (triple_spared (hops.mono fun p o ho => ?_)) (fun _ hx => hx)
    fun _ _ hx => sound_of_asked_none hx
  obtain ⟨rfl, ho⟩ := ho
  exact ⟨⟨stable_rating (B := (·.asked = none)) rfl (.inl ⟨rate, rfl⟩), fun _ _ hA =>
    kept_view.mp (sound_of_asked_none (c := .rate) (i := i) hA).kept⟩,
    fun V hV => (asked_did ho).trans hV⟩

/-- An operation whose answer the condition speaks of. -/
theorem view_input {A : ControlView → Prop} {B : UInt32 → ControlView → Prop}
    (hstable : Stable (C.system E) (C.Undisturbed E) (some (p, o)) (C.OnView E c i A))
    (hkept : ∀ x, A x → x.Kept c) (ho : ¬ o.Touches c i)
    (hB : ∀ h s w, C.Undisturbed E h s (some (p, o)) (.task w) → A (C.view E c i h s) →
      B w (C.view E c i h s)) : C.ViewTriple E c i A (Prog.op p o) B :=
  triple_op hstable (fun _ _ hA => kept_view.mp (hkept _ hA)) fun h s w hcond hA _ => by
    rw [Views.did, did_of_spared ho]
    exact hB h s w hcond hA

/-- The rate that was requested last is set, and its request is pending. -/
structure ControlView.RateSet (x : ControlView) (rate : UInt32) : Prop where
  asked : x.asked = some rate
  next_eq : x.next = rate
  acted : x.acted = some rate
  current_eq : x.current = rate
  multiRate : x.multiRate = true

/-- A rate that is set and read back is what was requested. -/
theorem ControlView.RateSet.sound {rate : UInt32} (hx : x.RateSet rate)
    (hmonitor : x.monitorRate = rate) (hi : i = 0) : x.Sound c i where
  next_eq := fun _ hv => hx.next_eq.trans (Option.some.inj (hx.asked.symm.trans hv))
  kept := fun v hv _ => by
    obtain rfl := Option.some.inj (hx.asked.symm.trans hv)
    exact ⟨hx.acted, hx.current_eq, fun _ => hmonitor⟩
  rate := fun _ _ => ⟨hx.multiRate, hi⟩

/-- A program that spares the rate, while one is being applied. -/
theorem rating_spared {α : Type} {rate : UInt32} {prog : TaskProg α} {A : ControlView → Prop}
    (hprog : prog.AllOps fun p o => p = ⟨i, .rating rate⟩ ∧ ¬ o.Touches .rate i)
    (hkept : ∀ x, A x → x.Kept .rate) : C.ViewTriple E .rate i A prog fun _ => A :=
  view_spared (P := (· = .rating rate)) (j := i)
    (hprog.mono fun p o ho => ⟨by rw [ho.1], by rw [ho.1], ho.2⟩)
    (fun p o hp hpart => stable_rating hp (.inl ⟨rate, hpart⟩)) hkept

/-- A write while a rate is being applied. -/
theorem rating_write {rate w : UInt32} {f : PortField} {A B : ControlView → Prop}
    (hkept : ∀ x, A x → x.Kept .rate) (hB : ∀ x, A x → B (x.did .rate i (.write f i w))) :
    C.ViewTriple E .rate i A (writeWord ⟨i, .rating rate⟩ f i w) fun _ => B :=
  view_perform (stable_rating rfl (.inl ⟨rate, rfl⟩)) hkept hB

/-- The rate that has been set is stored as it is read back. -/
theorem storeMonitorRate_set {rate : UInt32} : C.ViewTriple E .rate i
    (fun x => x.RateSet rate ∧ x.change ≠ 0) (storeMonitorRate i ⟨i, .rating rate⟩ (some rate))
    fun ok x => ok = true ∧ x.RateSet rate ∧ x.change ≠ 0 ∧ x.monitorRate = rate := by
  refine .bind (rating_write (B := fun x => x.RateSet rate ∧ x.change ≠ 0 ∧
    x.monitorRate = rate) (fun _ hx _ _ h0 => absurd h0 hx.2) fun x hx => ?_)
    fun _ => .pure fun _ _ hx => ⟨rfl, hx⟩
  have hasked : (x.did .rate i (.write .monitorRate i rate)).toAccount = x.toAccount := by
    simp [ControlView.did, Account.did]
  refine ⟨⟨?_, ?_, ?_, ?_, ?_⟩, ?_, ?_⟩
  · exact (congrArg Account.asked hasked).trans hx.1.asked
  · simpa [ControlView.did, TaskOp.result] using hx.1.next_eq
  · exact (congrArg Account.acted hasked).trans hx.1.acted
  · simpa [ControlView.did, TaskOp.result] using hx.1.current_eq
  · exact hx.1.multiRate
  · simpa [ControlView.did, TaskOp.result] using hx.2
  · simp [ControlView.did, TaskOp.result]

/-- Reading back the rate that was requested succeeds. -/
theorem readIfPortRate_set {rate : UInt32} (hi : i = 0) : C.ViewTriple E .rate i
    (fun x => x.RateSet rate ∧ x.change ≠ 0) (readIfPortRate i ⟨i, .rating rate⟩)
    fun ok x => ok = true ∧ x.RateSet rate ∧ x.change ≠ 0 ∧ x.monitorRate = rate := by
  have hkept : ∀ x : ControlView, x.RateSet rate ∧ x.change ≠ 0 → x.Kept .rate :=
    fun _ hx _ _ h0 => absurd h0 hx.2
  have hstable : ∀ o B, Stable (C.system E) (C.Undisturbed E) (some (⟨i, .rating rate⟩, o))
      (C.OnView E .rate i B) := fun _ _ => stable_rating rfl (.inl ⟨rate, rfl⟩)
  refine .bind (view_input (B := fun mapped x => (x.RateSet rate ∧ x.change ≠ 0) ∧ mapped ≠ 0)
    (hstable _ _) hkept (by simp [TaskOp.Touches]) fun h s w hcond hx =>
      ⟨hx, hcond (.inr ⟨rate, rfl⟩) ?_⟩) fun mapped =>
    view_and fun hmapped => .ite (fun h0 => absurd h0 hmapped) fun _ => ?_
  · have hasked : (account E .rate i h).asked = some rate := hx.1.asked
    rw [hasked]
    simp
  refine .bind (view_op (B := fun cap x => (x.RateSet rate ∧ x.change ≠ 0) ∧
    cap &&& MULTI_RATE ≠ 0) (hstable _ _) hkept fun x w hx hw => ?_)
    fun cap => view_and fun hcap => .ite (fun h0 => absurd h0 hcap) fun _ => ?_
  · rw [did_of_spared (by simp [TaskOp.Touches])]
    exact ⟨hx, (hw.2.2.2.2.1 rfl).mp hx.1.multiRate⟩
  refine .ite (fun _ => ?_) fun hclient => absurd (hi ▸ rfl) hclient
  refine .bind (view_input (B := fun select x => (x.RateSet rate ∧ x.change ≠ 0) ∧
    readBackRate select rate = some rate) (hstable _ _) hkept
    (by simp [TaskOp.Touches]) fun h s w hcond hx => ⟨hx, hcond rate rfl ?_⟩) fun select => ?_
  · have hasked : (account E .rate i h).asked = some rate := hx.1.asked
    rw [hasked]
    simp
  have hnext : C.ViewTriple E .rate i (fun x => x.RateSet rate ∧ x.change ≠ 0)
      (readWord ⟨i, .rating rate⟩ (.control .rate .next) i)
      fun w x => (x.RateSet rate ∧ x.change ≠ 0) ∧ w = rate :=
    view_op (hstable _ _) hkept fun x w hx hw => by
      rw [did_of_spared (by simp [TaskOp.Touches])]
      exact ⟨hx, (hw.1 rfl).trans hx.1.next_eq⟩
  refine view_and fun hread => ?_
  rw [readBackRate] at hread
  refine .ite (fun h0 => ?_) fun h0 => ?_
  · rw [if_pos h0] at hread
    have hrate : rate = PORT_RATE_FE ∨ rate = PORT_RATE_GE := by
      by_contra h
      rw [if_neg h] at hread
      cases hread
    refine .bind hnext fun w => view_and fun hw => .ite (fun hfe => ?_) fun hfe => ?_
    · rw [← hfe, hw]
      exact storeMonitorRate_set
    · refine .bind hnext fun w' => view_and fun hw' => .ite (fun hge => ?_) fun hge => ?_
      · rw [← hge, hw']
        exact storeMonitorRate_set
      · subst hw hw'
        exact absurd hrate (not_or.mpr ⟨hfe, hge⟩)
  · rw [if_neg h0] at hread
    rw [hread]
    exact storeMonitorRate_set

/-- The rate that was requested last is set and has been read back. -/
abbrev ControlView.Confirmed (x : ControlView) (rate : UInt32) : Prop :=
  x.RateSet rate ∧ x.monitorRate = rate

/-- Clearing the request and storing the rate leave it so. -/
theorem confirmed_write {rate w : UInt32} {f : PortField} (hi : i = 0)
    (hf : f = .control .rate .change ∧ w = 0 ∨ f = .control .rate .current ∧ w = rate) :
    C.ViewTriple E .rate i (·.Confirmed rate) (writeWord ⟨i, .rating rate⟩ f i w)
      fun _ => (·.Confirmed rate) := by
  refine rating_write (fun _ hx => (hx.1.sound hx.2 hi).kept) fun x hx =>
    ⟨⟨?_, ?_, ?_, ?_, ?_⟩, ?_⟩
  · rw [asked_did (by rcases hf with ⟨rfl, rfl⟩ | ⟨rfl, rfl⟩ <;> simp)]
    exact hx.1.asked
  all_goals rcases hf with ⟨rfl, rfl⟩ | ⟨rfl, rfl⟩ <;>
    simp [ControlView.did, Account.did, TaskOp.result, hx.1.next_eq, hx.1.acted,
      hx.1.current_eq, hx.1.multiRate, hx.2]

/-- **A rate that was requested**: it is confirmed. -/
theorem confirmRate_set {rate : UInt32} (hi : i = 0) : C.ViewTriple E .rate i
    (fun x => x.RateSet rate ∧ x.change ≠ 0) (confirmRate i ⟨i, .rating rate⟩)
    fun _ => (·.Sound .rate i) := by
  have hkept : ∀ x : ControlView, x.Confirmed rate → x.Kept .rate :=
    fun _ hx => (hx.1.sound hx.2 hi).kept
  have hread : ∀ f, C.ViewTriple E .rate i (·.Confirmed rate)
      (readWord ⟨i, .rating rate⟩ f i) fun _ => (·.Confirmed rate) :=
    fun f => rating_spared (allOps_op.mpr ⟨rfl, by simp [TaskOp.Touches]⟩) hkept
  have hperform : ∀ o, ¬ o.Touches .rate i → C.ViewTriple E .rate i (·.Confirmed rate)
      (perform ⟨i, .rating rate⟩ o) fun _ => (·.Confirmed rate) :=
    fun o ho => rating_spared (allOps_perform.mpr ⟨rfl, ho⟩) hkept
  have hmodified : C.ViewTriple E .rate i (·.Confirmed rate)
      (rateModified i ⟨i, .rating rate⟩) fun _ => (·.Confirmed rate) :=
    rating_spared (rateModified_ops.mono fun _ _ ho => ⟨ho.1, ho.2.2 _ _⟩) hkept
  have hnext : ∀ A : ControlView → Prop, (∀ x, A x → x.Kept .rate) → (∀ x, A x → x.RateSet rate) →
      C.ViewTriple E .rate i A (readWord ⟨i, .rating rate⟩ (.control .rate .next) i)
        fun w x => A x ∧ w = rate := fun A hA hset =>
    view_op (stable_rating rfl (.inl ⟨rate, rfl⟩)) hA fun x w hx hw => by
      rw [did_of_spared (by simp [TaskOp.Touches])]
      exact ⟨hx, (hw.1 rfl).trans (hset x hx).next_eq⟩
  refine .bind (readIfPortRate_set hi) fun read => .ite (fun _ => ?_) fun hne =>
    fun h s hx => absurd hx.1 hne
  refine .bind (view_op (B := fun monitor x => (x.Confirmed rate ∧ x.change ≠ 0) ∧ monitor = rate)
    (stable_rating rfl (.inl ⟨rate, rfl⟩)) (fun _ hx _ _ h0 => absurd h0 hx.2.2.1)
    fun x w hx hw => ?_) fun monitor => view_and fun hmonitor => ?_
  · rw [did_of_spared (by simp [TaskOp.Touches])]
    exact ⟨⟨⟨hx.2.1, hx.2.2.2⟩, hx.2.2.1⟩, (hw.2.2.2.1 rfl rfl).trans hx.2.2.2⟩
  refine .bind (hnext _ (fun _ hx => hkept _ hx.1) fun _ hx => hx.1.1) fun next =>
    view_and fun hnext' => .ite (fun _ => ?_) fun hne => absurd (hmonitor.trans hnext'.symm) hne
  refine view_conseq (A := (·.Confirmed rate)) (B := fun _ => (·.Confirmed rate)) ?_
    (fun _ hx => hx.1) fun _ _ hx => hx.1.sound hx.2 hi
  refine .bind (confirmed_write hi (.inl ⟨rfl, rfl⟩)) fun _ =>
    .bind (confirmed_write hi (.inl ⟨rfl, rfl⟩)) fun _ =>
      .bind (hnext _ hkept fun _ hx => hx.1) fun next => view_and fun hcurrent =>
        .bind (confirmed_write hi (.inr ⟨rfl, hcurrent⟩)) fun _ => .bind hmodified fun _ => ?_
  exact .bind (hread _) fun _ => .bind (hperform _ (by simp [TaskOp.Touches])) fun _ =>
    .bind (hperform _ (by simp [TaskOp.Touches])) fun _ => confirmed_write hi (.inl ⟨rfl, rfl⟩)

/-- The request for a rate is pending, and stays so. -/
theorem stable_pending : Stable (C.system E) (C.Undisturbed E) (some (p, o))
    (C.OnView E c i fun x => x.Sound c i ∧ x.change ≠ 0) :=
  stable_onView fun _ _ _ _ hrate _ _ =>
    ⟨sound_request hrate, show (1 : UInt32) ≠ 0 by decide⟩

/-- A rate that has been read is the one that was requested, if any was. -/
def ControlView.Chosen (x : ControlView) (i : Fin INTERFACE_COUNT) (rate : UInt32) : Prop :=
  x.asked = none ∨
    x.asked = some rate ∧ x.next = rate ∧ x.multiRate = true ∧ i = 0 ∧ x.change ≠ 0

/-- While a rate is being applied, the handshake says nothing. -/
theorem ControlView.Chosen.kept {rate : UInt32} (hx : x.Chosen i rate) : x.Kept .rate := by
  rcases hx with hnone | ⟨-, -, -, -, hchange⟩
  · exact (sound_of_asked_none (i := i) hnone).kept
  · exact fun _ _ h0 => absurd h0 hchange

/-- What is read to be applied is what was requested. -/
theorem ControlView.Sound.chosen (hx : x.Sound .rate i) (hchange : x.change ≠ 0) :
    x.Chosen i x.next := by
  rcases hasked : x.asked with _ | v
  · exact .inl hasked
  · obtain ⟨hmulti, hi⟩ := hx.rate rfl (by rw [hasked]; simp)
    exact .inr ⟨hx.next_eq v hasked ▸ hasked, rfl, hmulti, hi, hchange⟩

/-- The registers of a client are set to the rate that has been read. -/
theorem setRate_set {rate odtug2Rate : UInt32} : C.ViewTriple E .rate i
    (fun x => x.Chosen i rate ∧ (x.asked = none ∨ odtug2Rate = rate))
    (do
      perform ⟨i, .rating rate⟩ (.setRateSelect i (topLevelRate rate))
      perform ⟨i, .rating rate⟩ (.setRateRx i odtug2Rate)
      writeWord ⟨i, .rating rate⟩ (.control .rate .current) i rate
      return some rate)
    fun set x => x.asked = none ∨ ∃ rate, set = some rate ∧ i = 0 ∧ x.RateSet rate ∧
      x.change ≠ 0 := by
  refine .bind (rating_spared (allOps_perform.mpr ⟨rfl, by simp [TaskOp.Touches]⟩)
    fun _ hx => hx.1.kept) fun _ => ?_
  refine .bind (view_perform (B := fun x => x.Chosen i rate ∧ (x.asked = none ∨
    x.acted = some rate)) (stable_rating rfl (.inl ⟨rate, rfl⟩)) (fun _ hx => hx.1.kept)
    fun x hx => ?_) fun _ => .bind (rating_write (B := fun x => x.asked = none ∨ i = 0 ∧
      x.RateSet rate ∧ x.change ≠ 0) (fun _ hx => hx.1.kept) fun x hx => ?_) fun _ =>
    .pure fun _ _ hx => hx.imp id fun h => ⟨rate, rfl, h⟩
  · have hasked : (x.did .rate i (.setRateRx i odtug2Rate)).asked = x.asked := asked_did (by simp)
    rw [ControlView.Chosen, hasked]
    refine ⟨hx.1, hx.2.imp id fun h => ?_⟩
    simp [ControlView.did, Account.did, h]
  · have hasked : (x.did .rate i (.write (.control .rate .current) i rate)).asked = x.asked :=
      asked_did (by simp)
    rw [hasked]
    rcases hx with ⟨hnone | ⟨hask, hnext, hmulti, hi, hchange⟩, hacted⟩
    · exact .inl hnone
    · refine .inr ⟨hi, ⟨hasked.trans hask, ?_, ?_, ?_, hmulti⟩, ?_⟩
      · simpa [ControlView.did, TaskOp.result] using hnext
      · rw [hask] at hacted
        simpa [ControlView.did, Account.did] using hacted
      · simp [ControlView.did, TaskOp.result]
      · simpa [ControlView.did, TaskOp.result] using hchange

/-- Setting a rate that was requested: it fails where nothing was. -/
theorem setIfPortRate_set : C.ViewTriple E .rate i (fun x => x.Sound .rate i ∧ x.change ≠ 0)
    (setIfPortRate i ⟨i, .passing⟩ fun rate => ⟨i, .rating rate⟩)
    fun set x => x.asked = none ∨ ∃ rate, set = some rate ∧ i = 0 ∧ x.RateSet rate ∧
      x.change ≠ 0 := by
  refine .bind (view_op (B := fun cap x => (x.Sound .rate i ∧ x.change ≠ 0) ∧
    (cap &&& MULTI_RATE = 0 → x.asked = none)) stable_pending (fun _ hx => hx.1.kept)
    fun x w hx hw => ?_) fun cap => .ite (fun h0 => .pure fun _ _ hx => .inl (hx.2 h0)) fun _ => ?_
  · rw [did_of_spared (by simp [TaskOp.Touches])]
    refine ⟨hx, fun h0 => ?_⟩
    by_contra hne
    exact (hw.2.2.2.2.1 rfl).mp (hx.1.rate rfl hne).1 h0
  refine view_conseq (A := fun x => x.Sound .rate i ∧ x.change ≠ 0) ?_ (fun _ hx => hx.1)
    fun _ _ hx => hx
  refine .bind (view_input (B := fun mapped x => (x.Sound .rate i ∧ x.change ≠ 0) ∧
    (mapped = 0 → x.asked = none)) stable_pending (fun _ hx => hx.1.kept)
    (by simp [TaskOp.Touches]) fun h s w hcond hx => ⟨hx, fun h0 => ?_⟩) fun mapped =>
      .ite (fun h0 => .pure fun _ _ hx => .inl (hx.2 h0)) fun _ => ?_
  · by_contra hne
    exact hcond (.inl rfl) hne h0
  refine view_conseq (A := fun x => x.Sound .rate i ∧ x.change ≠ 0) ?_ (fun _ hx => hx.1)
    fun _ _ hx => hx
  refine .bind (view_op (B := fun rate x => x.Chosen i rate) stable_pending
    (fun _ hx => hx.1.kept) fun x w hx hw => ?_) fun rate => ?_
  · rw [did_of_spared (by simp [TaskOp.Touches]), hw.1 rfl]
    exact hx.1.chosen hx.2
  refine .bind (view_op (B := fun odtug2Rate x => x.Chosen i rate ∧ (x.asked = none ∨
    odtug2Rate = rate)) (stable_rating rfl (.inl ⟨rate, rfl⟩)) (fun _ hx => hx.kept)
    fun x w hx hw => ?_) fun odtug2Rate => .ite (fun _ => ?_) fun hclient => ?_
  · rw [did_of_spared (by simp [TaskOp.Touches])]
    exact ⟨hx, hx.imp id fun h => (hw.1 rfl).trans h.2.1⟩
  · exact setRate_set
  · refine .pure fun _ _ hx => hx.1.imp id fun h => ?_
    obtain rfl := h.2.2.2.1
    exact absurd rfl hclient

/-- A request that is refused has changed nothing. -/
theorem cancelRequest_unasked : C.ViewTriple E .rate i
    (fun x => x.asked = none ∧ x.multiRate = false) (cancelRequest i p)
    fun _ => (·.Sound .rate i) := by
  have hops : (cancelRequest i p).AllOps fun _ o => o ≠ .write (.control .rate .change) i 1 ∧
      ∀ x : ControlView, (x.did .rate i o).multiRate = x.multiRate := by
    simp [cancelRequest, writeWord, allOps_perform_bind, allOps_readWord_bind, allOps_perform,
      ControlView.did]
  refine view_conseq (A := fun x => x.asked = none ∧ x.multiRate = false)
    (B := fun _ x => x.asked = none ∧ x.multiRate = false)
    (triple_spared (hops.mono fun p o ho => ?_)) (fun _ hx => hx)
    fun _ _ hx => sound_of_asked_none hx.1
  refine ⟨⟨stable_onView (B := fun x => x.asked = none ∧ x.multiRate = false)
    fun x q _ _ hrate _ hx => ?_, fun _ _ hA =>
    kept_view.mp (sound_of_asked_none (c := .rate) (i := i) hA.1).kept⟩,
    fun V hV => ⟨(asked_did ho.1).trans hV.1, (ho.2 _).trans hV.2⟩⟩
  rw [(hrate rfl).2] at hx
  exact absurd hx.2 (by simp)

/-- **The rate**: the handshake holds behind it. -/
theorem ratePart_kept : C.ViewTriple E .rate i (·.Sound .rate i) (ratePart i)
    fun _ => (·.Sound .rate i) := by
  refine view_change rfl ?_
  refine .bind (view_op (B := fun cap x => (x.Sound .rate i ∧ x.change ≠ 0) ∧
    (cap &&& MULTI_RATE = 0 → x.multiRate = false)) stable_pending (fun _ hx => hx.1.kept)
    fun x w hx hw => ?_) fun cap => .ite (fun h0 => ?_) fun _ => ?_
  · rw [did_of_spared (by simp [TaskOp.Touches])]
    refine ⟨hx, fun h0 => ?_⟩
    by_contra hne
    exact (hw.2.2.2.2.1 rfl).mp (by simpa using hne) h0
  · refine view_conseq cancelRequest_unasked (fun x hx => ⟨?_, hx.2 h0⟩) fun _ _ hx => hx
    by_contra hne
    have hmulti := (hx.1.1.rate rfl hne).1
    rw [hx.2 h0] at hmulti
    cases hmulti
  · refine view_conseq (A := fun x => x.Sound .rate i ∧ x.change ≠ 0) (.bind setIfPortRate_set
      fun set => ?_) (fun _ hx => hx.1) fun _ _ hx => hx
    cases set with
    | none =>
        have hnone : ∀ x : ControlView, (x.asked = none ∨ ∃ rate, (none : Option UInt32) =
            some rate ∧ i = 0 ∧ x.RateSet rate ∧ x.change ≠ 0) → x.asked = none := by
          rintro x (hx | ⟨_, h, -⟩)
          · exact hx
          · cases h
        exact view_perform (stable_rating rfl (.inr rfl))
          (fun x hx => (sound_of_asked_none (i := i) (hnone x hx)).kept)
          fun x hx => sound_of_asked_none ((asked_did (by simp)).trans (hnone x hx))
    | some rate =>
        intro h s hx
        rcases hx with hnone | ⟨_, hset, hi, hx⟩
        · exact confirmRate_unasked h s hnone
        · obtain rfl := Option.some.inj hset
          exact confirmRate_set hi h s hx

/-! ### Every run -/

/-- What the task does for an interface leaves the handshake of every control. -/
theorem taskInterface_kept {j : Fin INTERFACE_COUNT} (hc : c ≠ .resetCounters) :
    C.ViewTriple E c i (·.Sound c i) (taskInterface j) fun _ => (·.Sound c i) := by
  have hservice : C.ViewTriple E c i (·.Sound c i) (servicePart j) fun _ => (·.Sound c i) := by
    by_cases h : j = i ∧ (c = .serviceState ∨ c = .txDisable)
    · obtain ⟨rfl, rfl | rfl⟩ := h
      · exact servicePart_kept
      · exact servicePart_tx
    · exact sound_spared (servicePart_ops fun hj => not_or.mp fun h' => h ⟨hj, h'⟩)
  have hloopback : C.ViewTriple E c i (·.Sound c i) (loopbackPart j) fun _ => (·.Sound c i) := by
    by_cases h : j = i ∧ (c = .loopbackMode ∨ c = .rate)
    · obtain ⟨rfl, rfl | rfl⟩ := h
      · exact loopbackPart_kept
      · exact loopbackPart_rate
    · exact sound_spared (loopbackPart_ops fun hj => not_or.mp fun h' => h ⟨hj, h'⟩)
  have hrate : C.ViewTriple E c i (·.Sound c i) (ratePart j) fun _ => (·.Sound c i) := by
    by_cases h : j = i ∧ c = .rate
    · obtain ⟨rfl, rfl⟩ := h
      exact ratePart_kept
    · exact sound_spared (ratePart_ops (fun hj h' => h ⟨hj, h'⟩) hc)
  have htx : C.ViewTriple E c i (·.Sound c i) (txPart j) fun _ => (·.Sound c i) := by
    by_cases h : j = i ∧ c = .txDisable
    · obtain ⟨rfl, rfl⟩ := h
      exact txPart_kept
    · exact sound_spared (txPart_ops fun hj h' => h ⟨hj, h'⟩)
  exact .bind (sound_spared (resetPart_ops hc)) fun _ => .bind hservice fun _ =>
    .bind hloopback fun _ => .bind hrate fun _ => .bind htx fun _ => sound_spared rebootPart_ops

/-- **The handshake holds in every state of every run** whose requests meet the condition. -/
theorem handshake_kept (C : CardMemory L) (E : KursEnv) (c : Control) (i : Fin INTERFACE_COUNT)
    (hc : c ≠ .resetCounters) {s₀ : CardState} {h : TaskHistory} {z : CardState × TaskProg Unit}
    (hr : (C.task10Machine E).Run (s₀, .done ()) h z)
    (hcond : (C.system E).Meets (fun _ => task10) s₀ (C.Undisturbed E) h) :
    C.Handshake E c i h z.1 := by
  have hkept : ∀ h s, C.OnView E c i (·.Sound c i) h s → C.Handshake E c i h s :=
    fun _ _ hx => kept_view.mp hx.kept
  have hnone : (C.view E c i [] s₀).asked = none := rfl
  refine Triple.sound (P := fun _ => C.Handshake E c i) (I := C.OnView E c i (·.Sound c i))
    (R := fun _ => C.OnView E c i (·.Sound c i))
    (fun _ => .forM fun j _ => taskInterface_kept hc) (fun u h s hx _ => ?_) stable_sound hkept
    (sound_of_asked_none hnone) hr hcond
  have hview : C.views E i (h ++ [(.start u, .started)]) s = C.views E i h s := by
    funext c
    have haccount : account E c i (h ++ [(.start u, .started)]) = account E c i h :=
      account_append
    simp [CardMemory.views, CardMemory.view, haccount]
  change (C.views E i (h ++ [(.start u, .started)]) s c).Sound c i
  rw [hview]
  exact hx

/-- An event of the task that the condition says nothing about. -/
def saysNothing : Event Unit ControlRequest UInt32 × Output Place TaskOp Bool → Bool
  | (.task _, .did _ (.portMapped _)) | (.task _, .did _ (.getRateSelect _)) => false
  | (.task _, _) | (.start _, _) => true
  | (.interrupt _, _) => false

/-- Such events may follow. -/
theorem meets_undisturbed_append {s₀ : CardState} {h' : TaskHistory}
    {z : CardState × TaskProg Unit}
    (hc : (C.system E).Meets (fun _ => task10) s₀ (C.Undisturbed E) h)
    (hr : (C.task10Machine E).Run (s₀, .done ()) (h ++ h') z)
    (hquiet : ∀ e ∈ h', saysNothing e = true) :
    (C.system E).Meets (fun _ => task10) s₀ (C.Undisturbed E) (h ++ h') := by
  induction h' using List.reverseRecOn generalizing z with
  | nil => simpa using hc
  | append_singleton h' ex ih =>
      obtain ⟨e, x⟩ := ex
      rw [← List.append_assoc] at hr ⊢
      obtain ⟨z', hr', hstep⟩ := hr.snoc_inv
      refine .snoc hr' (ih hr' fun e he => hquiet e (by simp [he])) ?_
      have hlast := hquiet (e, x) (by simp)
      obtain ⟨hdid, -⟩ := System.head_of_step hstep
      cases e with
      | start u => exact trivial
      | interrupt q => cases hlast
      | task w =>
          obtain ⟨p, o, rfl, hhead⟩ := hdid w rfl
          rw [hhead]
          cases o <;> first | exact trivial | cases hlast

end handshake

/-! ### A card -/

/-- A request for the service state of the first client. -/
def stateRequest (value : UInt32) : ControlRequest where
  control := .serviceState
  port := 0
  value := value
  row_mem := by decide +kernel
  control_ne := by simp

/-- A card where nothing is set. -/
def idleCard : CardState where
  mem := fun _ => 0
  hw := ⟨fun _ => false, fun _ => false, fun _ => 0, fun _ => 0⟩

/-- The task starts and applies the service state `IF_SERVICE_STATE_IS` of the first client. -/
def inServiceSteps : TaskHistory :=
  let p : Place := ⟨0, .switching IF_SERVICE_STATE_IS⟩
  [(.start (), .started),
    (.task 0, .did ⟨0, .start⟩ (.read (.control .resetCounters .change) 0)),
    (.task 1, .did ⟨0, .start⟩ (.read (.control .serviceState .change) 0)),
    (.task 2, .did ⟨0, .start⟩ (.read (.control .serviceState .next) 0)),
    (.task 0, .did p (.switchState 0 2)),
    (.task 0, .did p (.write .monitor 0 ACTIVITY_MONITOR_ON)),
    (.task 2, .did p (.read (.control .serviceState .next) 0)),
    (.task 0, .did ⟨0, .storing 2 2⟩ (.write (.control .serviceState .current) 0 2))]

/-- The flag is cleared. -/
def clearingStep : Event Unit ControlRequest UInt32 × Output Place TaskOp Bool :=
  (.task 0, .did ⟨0, .clearing 2 2⟩ (.write (.control .serviceState .change) 0 0))

/-- A request that is applied. -/
theorem handshake_kept_inService : ∃ z,
    (cardMemory.task10Machine sampleEnv).Run (idleCard, .done ())
      ((.interrupt (stateRequest 2), .interrupted true) :: (inServiceSteps ++ [clearingStep])) z ∧
    cardMemory.Handshake sampleEnv .serviceState 0
      ((.interrupt (stateRequest 2), .interrupted true) :: (inServiceSteps ++ [clearingStep]))
      z.1 := by
  obtain ⟨z, hrun⟩ : ∃ z, (cardMemory.task10Machine sampleEnv).Run (idleCard, .done ())
      ([(.interrupt (stateRequest 2), .interrupted true)] ++ (inServiceSteps ++ [clearingStep]))
      z := ⟨_, Machine.run_of_exec rfl⟩
  have hcond : cardMemory.Undisturbed sampleEnv [] idleCard none
      (.interrupt (stateRequest 2)) := fun _ =>
    ⟨fun hc => (by cases hc), fun p o hnext => by cases hnext⟩
  have hmeets : (cardMemory.system sampleEnv).Meets (fun _ => task10) idleCard
      (cardMemory.Undisturbed sampleEnv)
      ([] ++ [(.interrupt (stateRequest 2), .interrupted true)]) :=
    .snoc (z := (idleCard, .done ())) .nil .nil hcond
  exact ⟨z, hrun, handshake_kept cardMemory sampleEnv .serviceState 0 (by simp) hrun
    (meets_undisturbed_append hmeets hrun (by decide))⟩

/-- **A request is lost**: it comes between the read of `next` and the clearing of `change`. The
interface has been put in service, and out of service has been asked for and acknowledged. -/
theorem handshake_lost : ∃ z,
    (cardMemory.task10Machine sampleEnv).Run (idleCard, .done ())
      ((.interrupt (stateRequest 2), .interrupted true) :: inServiceSteps ++
        [(.interrupt (stateRequest 0), .interrupted true), clearingStep]) z ∧
    ¬ cardMemory.Handshake sampleEnv .serviceState 0
      ((.interrupt (stateRequest 2), .interrupted true) :: inServiceSteps ++
        [(.interrupt (stateRequest 0), .interrupted true), clearingStep]) z.1 := by
  refine ⟨_, Machine.run_of_exec rfl, fun hkept => ?_⟩
  obtain ⟨hacted, -⟩ := hkept 0 (by decide) (by decide +kernel)
  exact absurd hacted (by decide)

end Muxponder
