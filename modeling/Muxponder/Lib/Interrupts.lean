import Muxponder.Lib.Machine

/-!
# Interrupted Programs

A `Prog` is a program of single operations on a state that it shares with interrupts: between
any two operations of it the state may be changed. Each operation is annotated with the place of
the program that it belongs to, so that one can say where an interrupt comes. An operation has
an answer; where the state does not determine it, it is an input.

`Triple` is the logic of such programs: an assertion about history and state is good for the
place in front of an operation if interrupts keep it there (`Stable`).

## Main results

* `Triple.op`, `Triple.bind`, `Triple.keep`, `Triple.forM`: the rules.
* `Triple.sound`: what every assertion of a program implies holds in every run.
-/

namespace Interrupts

/-- A program: it is done, or does an operation and goes on with the answer. -/
inductive Prog (Place Op Ans : Type) (α : Type) : Type
  | done (a : α) : Prog Place Op Ans α
  | step (place : Place) (o : Op) (k : Ans → Prog Place Op Ans α) : Prog Place Op Ans α

section programs

variable {Place Op Ans α β γ : Type}

/-- One program behind another. -/
def Prog.bind : Prog Place Op Ans α → (α → Prog Place Op Ans β) → Prog Place Op Ans β
  | .done a, f => f a
  | .step place o k, f => .step place o fun w => (k w).bind f

instance : Monad (Prog Place Op Ans) where
  pure := .done
  bind := Prog.bind

/-- What has one program behind another behind it. -/
theorem Prog.bind_assoc (p : Prog Place Op Ans α) (f : α → Prog Place Op Ans β)
    (g : β → Prog Place Op Ans γ) : (p >>= f) >>= g = p >>= fun a => f a >>= g := by
  induction p with
  | done a => rfl
  | step place o k ih => exact congrArg (Prog.step place o) (funext ih)

/-- Nothing behind a program. -/
theorem Prog.id_map (p : Prog Place Op Ans α) : id <$> p = p := by
  induction p with
  | done a => rfl
  | step place o k ih => exact congrArg (Prog.step place o) (funext ih)

instance : LawfulMonad (Prog Place Op Ans) :=
  LawfulMonad.mk' _ Prog.id_map (fun _ _ => rfl) Prog.bind_assoc

/-- A single operation. -/
def Prog.op (place : Place) (o : Op) : Prog Place Op Ans Ans := .step place o .done

/-- The operation that is next, with its place. -/
def Prog.head : Prog Place Op Ans α → Option (Place × Op)
  | .done _ => none
  | .step place o _ => some (place, o)

/-- Every operation of a program has a property, whatever the answers. -/
def Prog.AllOps (q : Place → Op → Prop) : Prog Place Op Ans α → Prop
  | .done _ => True
  | .step place o k => q place o ∧ ∀ w, (k w).AllOps q

variable {q q' : Place → Op → Prop} {p : Prog Place Op Ans α} {f : α → Prog Place Op Ans β}
  {place : Place} {o : Op} {a : α}

@[simp] theorem allOps_pure : (pure a : Prog Place Op Ans α).AllOps q := trivial

@[simp] theorem allOps_op : (Prog.op place o : Prog Place Op Ans Ans).AllOps q ↔ q place o :=
  and_iff_left fun _ => trivial

theorem allOps_op_bind {f : Ans → Prog Place Op Ans α} :
    (Prog.op place o >>= f).AllOps q ↔ q place o ∧ ∀ w, (f w).AllOps q := Iff.rfl

theorem allOps_ite {c : Prop} [Decidable c] {p p' : Prog Place Op Ans α} :
    (if c then p else p').AllOps q ↔ (c → p.AllOps q) ∧ (¬ c → p'.AllOps q) := by
  split
  next hc => simp [hc]
  next hc => simp [hc]

theorem allOps_ite_bind {c : Prop} [Decidable c] {p p' : Prog Place Op Ans α}
    {f : α → Prog Place Op Ans β} :
    ((if c then p else p') >>= f).AllOps q ↔
      (c → (p >>= f).AllOps q) ∧ (¬ c → (p' >>= f).AllOps q) := by
  split
  next hc => simp [hc]
  next hc => simp [hc]

/-- A result that is made into another one. -/
theorem allOps_map {f : α → β} : (f <$> p).AllOps q ↔ p.AllOps q := by
  induction p with
  | done a => rfl
  | step place o k ih => exact and_congr_right fun _ => forall_congr' ih

/-- The operations of two programs, one behind the other. -/
theorem Prog.AllOps.bind (hp : p.AllOps q) (hf : ∀ a, (f a).AllOps q) : (p >>= f).AllOps q := by
  induction p with
  | done a => exact hf a
  | step place o k ih => exact ⟨hp.1, fun w => ih w (hp.2 w)⟩

/-- A weaker property. -/
theorem Prog.AllOps.mono (hp : p.AllOps q) (hq : ∀ place o, q place o → q' place o) :
    p.AllOps q' := by
  induction p with
  | done a => trivial
  | step place o k ih => exact ⟨hq place o hp.1, fun w => ih w (hp.2 w)⟩

/-- Two properties. -/
theorem Prog.AllOps.and (hp : p.AllOps q) (hp' : p.AllOps q') :
    p.AllOps fun place o => q place o ∧ q' place o := by
  induction p with
  | done a => trivial
  | step place o k ih => exact ⟨⟨hp.1, hp'.1⟩, fun w => ih w (hp.2 w) (hp'.2 w)⟩

/-- Every operation is one. -/
theorem Prog.allOps_true (p : Prog Place Op Ans α) : p.AllOps fun _ _ => True := by
  induction p with
  | done a => trivial
  | step place o k ih => exact ⟨trivial, ih⟩

/-- The operations of a program for each member of a list. -/
theorem allOps_forM {ι : Type} {is : List ι} {f : ι → Prog Place Op Ans PUnit}
    (hf : ∀ i ∈ is, (f i).AllOps q) : (is.forM f).AllOps q := by
  induction is with
  | nil => trivial
  | cons i is ih =>
      exact (hf i List.mem_cons_self).bind fun _ =>
        ih fun j hj => hf j (List.mem_cons_of_mem _ hj)

/-- A program among the operations of a larger one. -/
def Prog.embed {Place' Op' : Type} (g : Place → Place') (f : Op → Op') :
    Prog Place Op Ans α → Prog Place' Op' Ans α
  | .done a => .done a
  | .step place o k => .step (g place) (f o) fun w => (k w).embed g f

section embedding

variable {Place' Op' ι : Type} {g : Place → Place'} {f : Op → Op'} {p : Prog Place Op Ans α}

/-- One program behind another. -/
theorem embed_bind {k : α → Prog Place Op Ans β} :
    (p >>= k).embed g f = p.embed g f >>= fun a => (k a).embed g f := by
  induction p with
  | done a => rfl
  | step place o k ih => exact congrArg (Prog.step (g place) (f o)) (funext ih)

/-- A program for each member of a list. -/
theorem embed_forM {is : List ι} {k : ι → Prog Place Op Ans PUnit} :
    (is.forM k).embed g f = is.forM fun i => (k i).embed g f := by
  induction is with
  | nil => rfl
  | cons i is ih =>
      change ((k i) >>= fun _ => is.forM k).embed g f = _
      rw [embed_bind, ih]
      rfl

/-- The operations of an embedded program. -/
theorem allOps_embed {q : Place' → Op' → Prop} :
    (p.embed g f).AllOps q ↔ p.AllOps fun place o => q (g place) (f o) := by
  induction p with
  | done a => rfl
  | step place o k ih => exact and_congr_right fun _ => forall_congr' ih

end embedding

end programs

/-! ### Runs -/

/-- What happens: a program is started, does its next operation and gets an answer, or is
interrupted. -/
inductive Event (ι ε Ans : Type)
  | start (i : ι)
  | task (w : Ans)
  | interrupt (e : ε)

/-- What has come of it: the operation that has been done, or what the interrupt returns. -/
inductive Output (Place Op ω : Type)
  | started
  | did (place : Place) (o : Op)
  | interrupted (x : ω)

/-- A state with operations and interrupts. -/
structure System (σ ε ω Op Ans : Type) where
  /-- The state behind an operation with an answer, if that is a possible one. -/
  act : σ → Op → Ans → Option σ
  /-- The state behind an interrupt, and what it returns. -/
  interrupt : σ → ε → Option (σ × ω)

variable {σ ε ω Place Op Ans ι α β : Type}

/-- The events of a run. -/
abbrev History (ι ε ω Place Op Ans : Type) := List (Event ι ε Ans × Output Place Op ω)

/-- Programs that are run one after the other, and are interrupted. -/
def System.machine (S : System σ ε ω Op Ans) (main : ι → Prog Place Op Ans Unit) :
    Machine (σ × Prog Place Op Ans Unit) (Event ι ε Ans) (Output Place Op ω) where
  step z e :=
    match e, z.2 with
    | .start i, .done _ => some ((z.1, main i), .started)
    | .task w, .step place o k =>
        (S.act z.1 o w).map fun s => ((s, k w), .did place o)
    | .interrupt e, p => (S.interrupt z.1 e).map fun x => ((x.1, p), .interrupted x.2)
    | _, _ => none

/-! ### The logic -/

/-- What is said about the history and the state. -/
abbrev Assertion (σ ι ε ω Place Op Ans : Type) := History ι ε ω Place Op Ans → σ → Prop

/-- A condition on an event, where an operation, or none, is next. -/
abbrev Condition (σ ι ε ω Place Op Ans : Type) :=
  History ι ε ω Place Op Ans → σ → Option (Place × Op) → Event ι ε Ans → Prop

/-- Every event of a history meets the condition. -/
def System.Meets (S : System σ ε ω Op Ans) (main : ι → Prog Place Op Ans Unit) (s₀ : σ)
    (C : Condition σ ι ε ω Place Op Ans) (h : History ι ε ω Place Op Ans) : Prop :=
  ∀ h₁ e x h₂ z, h = h₁ ++ (e, x) :: h₂ → (S.machine main).Run (s₀, .done ()) h₁ z →
    C h₁ z.1 z.2.head e

/-- A shorter history asks for less. -/
theorem System.Meets.init {S : System σ ε ω Op Ans} {main : ι → Prog Place Op Ans Unit} {s₀ : σ}
    {C : Condition σ ι ε ω Place Op Ans} {h h' : History ι ε ω Place Op Ans}
    (hc : S.Meets main s₀ C (h ++ h')) : S.Meets main s₀ C h := by
  intro h₁ e x h₂ z hh hr
  refine hc h₁ e x (h₂ ++ h') z ?_ hr
  rw [hh, List.append_assoc, List.cons_append]

/-- Nothing has happened. -/
theorem System.Meets.nil {S : System σ ε ω Op Ans} {main : ι → Prog Place Op Ans Unit} {s₀ : σ}
    {C : Condition σ ι ε ω Place Op Ans} : S.Meets main s₀ C [] := by
  intro h₁ e x h₂ z hh
  simp at hh

/-- One more event that meets the condition. -/
theorem System.Meets.snoc {S : System σ ε ω Op Ans} {main : ι → Prog Place Op Ans Unit} {s₀ : σ}
    {C : Condition σ ι ε ω Place Op Ans} {h : History ι ε ω Place Op Ans} {e : Event ι ε Ans}
    {x : Output Place Op ω} {z : σ × Prog Place Op Ans Unit}
    (hr : (S.machine main).Run (s₀, .done ()) h z) (hc : S.Meets main s₀ C h)
    (he : C h z.1 z.2.head e) : S.Meets main s₀ C (h ++ [(e, x)]) := by
  intro h₁ e' x' h₂ z' hh hr'
  rcases List.eq_nil_or_concat h₂ with rfl | ⟨h₂, ex, rfl⟩
  · obtain ⟨rfl, hex⟩ := List.append_inj' hh rfl
    obtain ⟨rfl, -⟩ : e = e' ∧ x = x' := by simpa using hex
    rw [hr'.det hr]
    exact he
  · have hh' : h ++ [(e, x)] = (h₁ ++ (e', x') :: h₂) ++ [ex] := by simpa using hh
    exact hc h₁ e' x' h₂ z' (List.append_inj' hh' rfl).1 hr'

/-- Events that meet the condition wherever they come. -/
theorem System.Meets.append {S : System σ ε ω Op Ans} {main : ι → Prog Place Op Ans Unit} {s₀ : σ}
    {C : Condition σ ι ε ω Place Op Ans} {h h' : History ι ε ω Place Op Ans}
    (hc : S.Meets main s₀ C h) (hh' : ∀ e ∈ h', ∀ h s next, C h s next e.1) :
    S.Meets main s₀ C (h ++ h') := by
  intro h₁ e x h₂ z hh hr
  rcases List.append_eq_append_iff.mp hh with ⟨a, rfl, hlast⟩ | ⟨a, rfl, hfirst⟩
  · exact hh' (e, x) (by simp [hlast]) _ _ _
  · cases a with
    | nil =>
        obtain rfl : (e, x) :: h₂ = h' := hfirst
        exact hh' (e, x) List.mem_cons_self _ _ _
    | cons ex a =>
        obtain ⟨rfl, -⟩ := List.cons.inj hfirst
        exact hc h₁ e x a z rfl hr

/-- An operation was next where it was done, and the program was done where it is started. -/
theorem System.head_of_step {S : System σ ε ω Op Ans} {main : ι → Prog Place Op Ans Unit}
    {z z' : σ × Prog Place Op Ans Unit} {e : Event ι ε Ans} {x : Output Place Op ω}
    (hs : (S.machine main).step z e = some (z', x)) :
    (∀ w, e = .task w → ∃ p o, x = .did p o ∧ z.2.head = some (p, o)) ∧
      ∀ i, e = .start i → z.2.head = none := by
  obtain ⟨s, p⟩ := z
  cases p with
  | done a =>
      refine ⟨?_, fun _ _ => rfl⟩
      rintro w rfl
      cases hs
  | step place o k =>
      refine ⟨?_, ?_⟩
      · rintro w rfl
        obtain ⟨s', -, heq⟩ := Option.map_eq_some_iff.mp hs
        exact ⟨place, o, (Prod.mk.inj heq).2.symm, rfl⟩
      · rintro i rfl
        cases hs

/-- An interrupt comes wherever the program is. -/
theorem System.step_interrupt {S : System σ ε ω Op Ans} {main : ι → Prog Place Op Ans Unit}
    {s s' : σ} {p : Prog Place Op Ans Unit} {e : ε} {y : ω} (h : S.interrupt s e = some (s', y)) :
    (S.machine main).step (s, p) (.interrupt e) = some ((s', p), .interrupted y) := by
  have hstep : (S.interrupt s e).map
      (fun y => ((y.1, p), (Output.interrupted y.2 : Output Place Op ω))) =
        some ((s', p), .interrupted y) := by rw [h, Option.map_some]
  cases p <;> exact hstep

/-- An interrupt leaves the program where it is. -/
theorem System.prog_of_interrupt {S : System σ ε ω Op Ans} {main : ι → Prog Place Op Ans Unit}
    {z z' : σ × Prog Place Op Ans Unit} {e : ε} {x : Output Place Op ω}
    (hs : (S.machine main).step z (.interrupt e) = some (z', x)) : z'.2 = z.2 := by
  obtain ⟨s, p⟩ := z
  have hstep : (S.interrupt s e).map
      (fun y => ((y.1, p), (Output.interrupted y.2 : Output Place Op ω))) = some (z', x) := by
    cases p <;> exact hs
  obtain ⟨y, -, heq⟩ := Option.map_eq_some_iff.mp hstep
  obtain ⟨rfl, -⟩ := Prod.mk.inj heq
  rfl

/-- What an interrupt has returned in a run, it has returned in the state it came in. -/
theorem System.run_interrupt {S : System σ ε ω Op Ans} {main : ι → Prog Place Op Ans Unit}
    {z₀ z : σ × Prog Place Op Ans Unit} {h₁ h₂ : History ι ε ω Place Op Ans} {e : ε}
    {x : Output Place Op ω} (hr : (S.machine main).Run z₀ (h₁ ++ (.interrupt e, x) :: h₂) z) :
    ∃ z₁ y, (S.machine main).Run z₀ h₁ z₁ ∧ S.interrupt z₁.1 e = some y ∧
      x = .interrupted y.2 := by
  obtain ⟨z₁, hr₁, hr₂⟩ := hr.split
  obtain ⟨z₂, hs, -⟩ := hr₂.cons_inv
  obtain ⟨s, p⟩ := z₁
  have hstep : (S.interrupt s e).map
      (fun y => ((y.1, p), (Output.interrupted y.2 : Output Place Op ω))) = some (z₂, x) := by
    cases p <;> exact hs
  obtain ⟨y, hy, heq⟩ := Option.map_eq_some_iff.mp hstep
  exact ⟨(s, p), y, hr₁, hy, (Prod.mk.inj heq).2.symm⟩

section logic

variable (S : System σ ε ω Op Ans) (C : Condition σ ι ε ω Place Op Ans)
  (P : Option (Place × Op) → Assertion σ ι ε ω Place Op Ans)

/-- Interrupts that meet the condition keep an assertion. -/
def Stable (next : Option (Place × Op)) (A : Assertion σ ι ε ω Place Op Ans) : Prop :=
  ∀ h s e s' x, A h s → C h s next (.interrupt e) → S.interrupt s e = some (s', x) →
    A (h ++ [(.interrupt e, .interrupted x)]) s'

/-- A program is safe if in front of each operation a stable assertion holds that implies `P`,
and at its end the assertion `Q`. -/
def Safe : Prog Place Op Ans α → (α → Assertion σ ι ε ω Place Op Ans) →
    Assertion σ ι ε ω Place Op Ans
  | .done a, Q, h, s => Q a h s
  | .step place o k, Q, h, s =>
      ∃ A : Assertion σ ι ε ω Place Op Ans, A h s ∧ Stable S C (some (place, o)) A ∧
        ∀ h s, A h s → P (some (place, o)) h s ∧
          ∀ w s', C h s (some (place, o)) (.task w) → S.act s o w = some s' →
            Safe (k w) Q (h ++ [(.task w, .did place o)]) s'

/-- **A program from one assertion to another.** -/
def Triple (A : Assertion σ ι ε ω Place Op Ans) (p : Prog Place Op Ans α)
    (Q : α → Assertion σ ι ε ω Place Op Ans) : Prop :=
  ∀ h s, A h s → Safe S C P p Q h s

end logic

variable {S : System σ ε ω Op Ans} {C : Condition σ ι ε ω Place Op Ans}
  {P : Option (Place × Op) → Assertion σ ι ε ω Place Op Ans}
  {A A' B I : Assertion σ ι ε ω Place Op Ans} {Q Q' : α → Assertion σ ι ε ω Place Op Ans}
  {R : β → Assertion σ ι ε ω Place Op Ans} {p : Prog Place Op Ans α}
  {f : α → Prog Place Op Ans β} {place : Place} {o : Op} {a : α}
  {h : History ι ε ω Place Op Ans} {s : σ}

/-- Safe programs, one behind the other. -/
theorem Safe.bind (hp : Safe S C P p Q h s) (hf : ∀ a, Triple S C P (Q a) (f a) R) :
    Safe S C P (p >>= f) R h s := by
  induction p generalizing h s with
  | done a => exact hf a h s hp
  | step place o k ih =>
      obtain ⟨A, hA, hstable, hk⟩ := hp
      exact ⟨A, hA, hstable, fun h s hA => ⟨(hk h s hA).1, fun w s' hc hact =>
        ih w ((hk h s hA).2 w s' hc hact)⟩⟩

/-- A weaker assertion at the end. -/
theorem Safe.mono (hp : Safe S C P p Q h s) (hQ : ∀ a h s, Q a h s → Q' a h s) :
    Safe S C P p Q' h s := by
  induction p generalizing h s with
  | done a => exact hQ a h s hp
  | step place o k ih =>
      obtain ⟨A, hA, hstable, hk⟩ := hp
      exact ⟨A, hA, hstable, fun h s hA => ⟨(hk h s hA).1, fun w s' hc hact =>
        ih w ((hk h s hA).2 w s' hc hact)⟩⟩

/-- A program that is done. -/
theorem Triple.pure (hA : ∀ h s, A h s → Q a h s) :
    Triple S C P A (Pure.pure a : Prog Place Op Ans α) Q := hA

/-- **An operation**: in front of it the assertion is stable and implies `P`. -/
theorem Triple.op {Q : Ans → Assertion σ ι ε ω Place Op Ans}
    (hstable : Stable S C (some (place, o)) A) (hP : ∀ h s, A h s → P (some (place, o)) h s)
    (hact : ∀ h s w s', A h s → C h s (some (place, o)) (.task w) → S.act s o w = some s' →
      Q w (h ++ [(.task w, .did place o)]) s') :
    Triple S C P A (Prog.op place o) Q :=
  fun _ _ hA => ⟨A, hA, hstable, fun h s hA =>
    ⟨hP h s hA, fun w s' hc hs => hact h s w s' hA hc hs⟩⟩

/-- **One program behind another.** -/
theorem Triple.bind (hp : Triple S C P A p Q) (hf : ∀ a, Triple S C P (Q a) (f a) R) :
    Triple S C P A (p >>= f) R :=
  fun h s hA => (hp h s hA).bind hf

/-- A stronger assertion in front, and a weaker one at the end. -/
theorem Triple.conseq (hp : Triple S C P A p Q) (hA : ∀ h s, A' h s → A h s)
    (hQ : ∀ a h s, Q a h s → Q' a h s) : Triple S C P A' p Q' :=
  fun h s hA' => (hp h s (hA h s hA')).mono hQ

/-- A case distinction. -/
theorem Triple.ite {c : Prop} [Decidable c] {p p' : Prog Place Op Ans α}
    (hp : c → Triple S C P A p Q) (hp' : ¬ c → Triple S C P A p' Q) :
    Triple S C P A (if c then p else p') Q := by
  split
  next hc => exact hp hc
  next hc => exact hp' hc

/-- An operation keeps an assertion. -/
structure Keeps (S : System σ ε ω Op Ans) (C : Condition σ ι ε ω Place Op Ans)
    (P : Option (Place × Op) → Assertion σ ι ε ω Place Op Ans)
    (A : Assertion σ ι ε ω Place Op Ans) (place : Place) (o : Op) : Prop where
  stable : Stable S C (some (place, o)) A
  implies : ∀ h s, A h s → P (some (place, o)) h s
  acts : ∀ h s w s', A h s → C h s (some (place, o)) (.task w) → S.act s o w = some s' →
    A (h ++ [(.task w, .did place o)]) s'

/-- **A program whose operations all keep an assertion.** -/
theorem Triple.keep (hp : p.AllOps (Keeps S C P A)) : Triple S C P A p fun _ => A := by
  induction p with
  | done a => exact fun _ _ hA => hA
  | step place o k ih =>
      obtain ⟨hkeeps, hk⟩ := hp
      exact fun h s hA => ⟨A, hA, hkeeps.stable, fun h s hA => ⟨hkeeps.implies h s hA,
        fun w s' hc hact => ih w (hk w) _ _ (hkeeps.acts h s w s' hA hc hact)⟩⟩

/-- A program for each member of a list. -/
theorem Triple.forM {κ : Type} {is : List κ} {f : κ → Prog Place Op Ans PUnit}
    (hf : ∀ i ∈ is, Triple S C P A (f i) fun _ => A) :
    Triple S C P A (is.forM f) fun _ => A := by
  induction is with
  | nil => exact fun _ _ hA => hA
  | cons i is ih =>
      exact (hf i List.mem_cons_self).bind fun _ =>
        ih fun j hj => hf j (List.mem_cons_of_mem _ hj)

/-- **The logic is sound**: programs that are started from assertions, each of which leads back
to an invariant, have `P` in every state of every run whose events meet the condition. -/
theorem Triple.sound {main : ι → Prog Place Op Ans Unit}
    {R : ι → Assertion σ ι ε ω Place Op Ans} {s₀ : σ} {z : σ × Prog Place Op Ans Unit}
    (hmain : ∀ i, Triple S C P (R i) (main i) fun _ => I)
    (hstart : ∀ i h s, I h s → C h s none (.start i) → R i (h ++ [(.start i, .started)]) s)
    (hstable : Stable S C none I) (hP : ∀ h s, I h s → P none h s) (h0 : I [] s₀)
    (hr : (S.machine main).Run (s₀, .done ()) h z)
    (hc : S.Meets main s₀ C h) : P z.2.head h z.1 := by
  have hsafe : Safe S C P z.2 (fun _ => I) h z.1 := by
    induction hr with
    | nil => exact h0
    | @snoc h z z' e x hr hstep ih =>
    have hI := ih hc.init
    have hC := hc h e x [] z rfl hr
    obtain ⟨s, p⟩ := z
    obtain ⟨s', p'⟩ := z'
    cases e with
    | start i =>
        cases p with
        | done u =>
            obtain ⟨hz, hx⟩ := Prod.mk.inj (Option.some.inj hstep)
            obtain ⟨rfl, rfl⟩ := Prod.mk.inj hz
            subst hx
            exact hmain i _ _ (hstart i h s hI hC)
        | step place o k => cases hstep
    | task w =>
        cases p with
        | done u => cases hstep
        | step place o k =>
            obtain ⟨s₁, hact, heq⟩ := Option.map_eq_some_iff.mp hstep
            obtain ⟨hz, hx⟩ := Prod.mk.inj heq
            obtain ⟨rfl, rfl⟩ := Prod.mk.inj hz
            subst hx
            obtain ⟨A, hA, -, hk⟩ := hI
            exact (hk h s hA).2 w s₁ hC hact
    | interrupt e =>
        have hstep' : (S.interrupt s e).map (fun y => ((y.1, p), Output.interrupted y.2)) =
            some ((s', p'), x) := by cases p <;> exact hstep
        obtain ⟨⟨s₁, y⟩, hinterrupt, heq⟩ := Option.map_eq_some_iff.mp hstep'
        obtain ⟨hz, hx⟩ := Prod.mk.inj heq
        obtain ⟨rfl, rfl⟩ := Prod.mk.inj hz
        subst hx
        cases p with
        | done u => exact hstable h s e s₁ y hI hC hinterrupt
        | step place o k =>
            obtain ⟨A, hA, hA', hk⟩ := hI
            exact ⟨A, hA' h s e s₁ y hA hC hinterrupt, hA', hk⟩
  obtain ⟨s, p⟩ := z
  cases p with
  | done u => exact hP h s hsafe
  | step place o k =>
      obtain ⟨A, hA, -, hk⟩ := hsafe
      exact (hk h s hA).1

end Interrupts
