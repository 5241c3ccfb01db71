import Mathlib.Data.List.Nodup
import Muxponder.Lib.Interrupts

/-!
# Programs without Interrupts

A program of single operations that is not interrupted runs as any other program does: its weakest
precondition is computed operation by operation. An operation with its answer is a step from one
state to another.

Programs that are verified by what they do to a view of the state can be verified on the view
alone, and programs for the members of a list one by one, if each leaves the views of the others
alone.

## Main results

* `Prog.wp_bind`, `Prog.wp_op` and the others: the rules.
* `Prog.wp_view`: a program on a view of the state.
* `Prog.wp_forM_views`: a program for each member of a list.
* `System.wp_run`: what a run without interrupts ends in.
* `System.exists_run`: there is one.
* `System.exists_front`: a program in front of another one, up to its end.
* `System.wp_invariant`: an invariant of programs that are interrupted between them alone.
-/

namespace Interrupts

variable {σ τ κ ε ω Place Op Ans ι α β : Type}

/-- The weakest precondition of a program: every way of carrying it out ends as asked. -/
def Prog.wp (step : σ → Op → Ans → σ → Prop) :
    Prog Place Op Ans α → (α → σ → Prop) → σ → Prop
  | .done a, Q, s => Q a s
  | .step _ o k, Q, s => ∀ w s', step s o w s' → (k w).wp step Q s'

namespace Prog

variable {step : σ → Op → Ans → σ → Prop} {step' : τ → Op → Ans → τ → Prop}
  {p p' : Prog Place Op Ans α} {f : α → Prog Place Op Ans β} {Q Q' : α → σ → Prop}
  {R : β → σ → Prop} {s : σ} {a : α} {place : Place} {o : Op}

@[simp] theorem wp_pure : (pure a : Prog Place Op Ans α).wp step Q s ↔ Q a s := Iff.rfl

theorem wp_op {Q : Ans → σ → Prop} : (op place o).wp step Q s ↔
    ∀ w s', step s o w s' → Q w s' := Iff.rfl

/-- **One program behind another.** -/
@[simp] theorem wp_bind :
    (p >>= f).wp step R s ↔ p.wp step (fun a s => (f a).wp step R s) s := by
  induction p generalizing s with
  | done a => rfl
  | step place o k ih =>
      exact forall_congr' fun w => forall_congr' fun s' => imp_congr_right fun _ => ih w

/-- A result that is made into another one. -/
@[simp] theorem wp_map {g : α → β} :
    (g <$> p).wp step R s ↔ p.wp step (fun a s => R (g a) s) s := by
  induction p generalizing s with
  | done a => rfl
  | step place o k ih =>
      exact forall_congr' fun w => forall_congr' fun s' => imp_congr_right fun _ => ih w

/-- A case distinction. -/
theorem wp_ite {c : Prop} [Decidable c] : (if c then p else p').wp step Q s ↔
    (c → p.wp step Q s) ∧ (¬ c → p'.wp step Q s) := by
  split
  next hc => simp [hc]
  next hc => simp [hc]

/-- Less is asked for. -/
theorem wp_mono (h : p.wp step Q s) (hQ : ∀ a s, Q a s → Q' a s) : p.wp step Q' s := by
  induction p generalizing s with
  | done a => exact hQ a s h
  | step place o k ih => exact fun w s' hs => ih w (h w s' hs)

/-- Nothing is asked for. -/
theorem wp_true : p.wp step (fun _ _ => True) s := by
  induction p generalizing s with
  | done a => trivial
  | step place o k ih => exact fun w s' _ => ih w

/-- Everything of a family holds at the end. -/
theorem wp_forall {Q : κ → α → σ → Prop} (h : ∀ i, p.wp step (Q i) s) :
    p.wp step (fun a s => ∀ i, Q i a s) s := by
  induction p generalizing s with
  | done a => exact h
  | step place o k ih => exact fun w s' hs => ih w fun i => h i w s' hs

/-- Two things hold at the end. -/
theorem wp_and (h : p.wp step Q s) (h' : p.wp step Q' s) :
    p.wp step (fun a s => Q a s ∧ Q' a s) s := by
  induction p generalizing s with
  | done a => exact ⟨h, h'⟩
  | step place o k ih => exact fun w s' hs => ih w (h w s' hs) (h' w s' hs)

/-- **A program on a view of the state.** -/
theorem wp_view {q : Place → Op → Prop} {view : σ → τ} {Q : α → τ → Prop} (hp : p.AllOps q)
    (hq : ∀ place o, q place o → ∀ s w s', step s o w s' → step' (view s) o w (view s'))
    (h : p.wp step' Q (view s)) : p.wp step (fun a s => Q a (view s)) s := by
  induction p generalizing s with
  | done a => exact h
  | step place o k ih =>
      exact fun w s' hs => ih w (hp.2 w) (h w (view s') (hq place o hp.1 s w s' hs))

/-- Operations that leave a view of the state alone. -/
theorem wp_frame {q : Place → Op → Prop} {view : σ → τ} (hp : p.AllOps q)
    (hq : ∀ place o, q place o → ∀ s w s', step s o w s' → view s' = view s) :
    p.wp step (fun _ s' => view s' = view s) s := by
  induction p generalizing s with
  | done a => rfl
  | step place o k ih =>
      intro w s' hs
      rw [← hq place o hp.1 s w s' hs]
      exact ih w (hp.2 w)

/-- **A program for each member of a list**, each of which takes the view of its member from one
assertion to another and leaves the views of the others alone. -/
theorem wp_forM_views {is : List κ} {f : κ → Prog Place Op Ans PUnit} {view : κ → σ → τ}
    {A B : κ → τ → Prop} (hnodup : is.Nodup)
    (hframe : ∀ i j, i ≠ j → ∀ s, (f i).wp step (fun _ s' => view j s' = view j s) s)
    (hf : ∀ i s, A i (view i s) → (f i).wp step (fun _ s' => B i (view i s')) s)
    (hA : ∀ i ∈ is, A i (view i s)) :
    (is.forM f).wp step (fun _ s' => ∀ i ∈ is, B i (view i s')) s := by
  have hkeep : ∀ (js : List κ) (i : κ), i ∉ js → ∀ s,
      (js.forM f).wp step (fun _ s' => view i s' = view i s) s := by
    intro js
    induction js with
    | nil => exact fun i _ s => rfl
    | cons j js ih =>
        intro i hi s
        have hji : j ≠ i := fun hji => hi (hji ▸ List.mem_cons_self)
        have hjs : i ∉ js := fun hmem => hi (List.mem_cons_of_mem _ hmem)
        refine wp_bind.mpr (wp_mono (hframe j i hji s) ?_)
        intro _ s₁ hs₁
        exact wp_mono (ih i hjs s₁) fun _ s₂ hs₂ => hs₂.trans hs₁
  induction is generalizing s with
  | nil => exact fun i hi => by cases hi
  | cons i is ih =>
      obtain ⟨hi, hnodup⟩ := List.nodup_cons.mp hnodup
      have hothers : (f i).wp step
          (fun _ s' => ∀ j : {j // i ≠ j}, view j s' = view j s) s :=
        wp_forall fun j => hframe i j j.2 s
      refine wp_bind.mpr (wp_mono (wp_and (hf i s (hA i List.mem_cons_self)) hothers) ?_)
      rintro _ s₁ ⟨hB, hsame⟩
      have hrest : ∀ j ∈ is, A j (view j s₁) := by
        intro j hj
        rw [hsame ⟨j, fun hij => hi (hij ▸ hj)⟩]
        exact hA j (List.mem_cons_of_mem _ hj)
      refine wp_mono (wp_and (ih hnodup hrest) (hkeep is i hi s₁)) ?_
      rintro _ s₂ ⟨hBs, hi₂⟩ j hj
      rcases List.mem_cons.mp hj with rfl | hj
      · rw [hi₂]
        exact hB
      · exact hBs j hj

end Prog

/-! ### Runs -/

variable {S : System σ ε ω Op Ans} {main : ι → Prog Place Op Ans Unit}
  {C : Condition σ ι ε ω Place Op Ans} {step : σ → Op → Ans → σ → Prop}
  {Q : Unit → σ → Prop} {s₀ s s' : σ} {p : Prog Place Op Ans Unit}
  {h₀ h : History ι ε ω Place Op Ans} {i : ι} {x : Output Place Op ω}

/-- What is left of a run without interrupts ends as the rest of the program does. -/
theorem System.wp_rest (hstep : ∀ h s place o w s', C h s (some (place, o)) (.task w) →
      S.act s o w = some s' → step s o w s')
    (hr₀ : (S.machine main).Run (s₀, .done ()) h₀ (s, p))
    (hr : (S.machine main).Run (s, p) h (s', .done ())) (hc : S.Meets main s₀ C (h₀ ++ h))
    (htask : ∀ e ∈ h, ∃ w y, e = (.task w, y)) (hwp : p.wp step Q s) : Q () s' := by
  induction h generalizing h₀ s p with
  | nil =>
      obtain ⟨rfl, rfl⟩ := Prod.mk.inj hr.eq_of_nil
      exact hwp
  | cons e h ih =>
      obtain ⟨w, y, rfl⟩ := htask e List.mem_cons_self
      obtain ⟨z, hs, hr'⟩ := hr.cons_inv
      cases p with
      | done a => cases hs
      | step place o k =>
          obtain ⟨s₁, hact, heq⟩ := Option.map_eq_some_iff.mp hs
          obtain ⟨rfl, rfl⟩ := Prod.mk.inj heq
          have hcond := hc h₀ _ _ h _ rfl hr₀
          refine ih (hr₀.snoc hs) hr' ?_ (fun e he => htask e (List.mem_cons_of_mem _ he)) ?_
          · rw [List.append_assoc, List.singleton_append]
            exact hc
          · exact hwp w s₁ (hstep h₀ s place o w s₁ hcond hact)

/-- A program in front of another one can be carried out without interrupts, if there is an
answer to every operation that meets the condition. -/
theorem System.exists_front {p : Prog Place Op Ans α} {k : α → Prog Place Op Ans Unit}
    {Q : α → σ → Prop} (hanswer : ∀ h s place o, ∃ w s', S.act s o w = some s' ∧
      C h s (some (place, o)) (.task w))
    (hr₀ : (S.machine main).Run (s₀, .done ()) h₀ (s, p >>= k)) (hc : S.Meets main s₀ C h₀)
    (hwp : p.wp (fun s o w s' => S.act s o w = some s') Q s) :
    ∃ h a s', (S.machine main).Run (s₀, .done ()) (h₀ ++ h) (s', k a) ∧
      S.Meets main s₀ C (h₀ ++ h) ∧ (∀ e ∈ h, ∃ w y, e = (.task w, y)) ∧ Q a s' := by
  induction p generalizing h₀ s with
  | done a =>
      rw [← List.append_nil h₀] at hr₀ hc
      exact ⟨[], a, s, hr₀, hc, by simp, hwp⟩
  | step place o f ih =>
      obtain ⟨w, s₁, hact, hcond⟩ := hanswer h₀ s place o
      have hs : (S.machine main).step (s, .step place o fun w => f w >>= k) (.task w) =
          some ((s₁, f w >>= k), .did place o) := by
        change (S.act s o w).map _ = _
        rw [hact]
        rfl
      obtain ⟨h, a, s', hr, hmeets, htask, hQ⟩ :=
        ih w (hr₀.snoc hs) (hc.snoc hr₀ hcond) (hwp w s₁ hact)
      refine ⟨(.task w, .did place o) :: h, a, s', by simpa using hr, by simpa using hmeets, ?_,
        hQ⟩
      intro e he
      rcases List.mem_cons.mp he with rfl | he
      · exact ⟨w, _, rfl⟩
      · exact htask e he

/-- What the program does without interrupts in at most `n` operations, with the answers that
`answer` gives, and where that ends. -/
def System.carryOut (S : System σ ε ω Op Ans) (answer : σ → Op → Ans) :
    ℕ → σ → Prog Place Op Ans Unit → History ι ε ω Place Op Ans × σ × Prog Place Op Ans Unit
  | n + 1, s, .step place o k =>
      match S.act s o (answer s o) with
      | some s' =>
          let r := S.carryOut answer n s' (k (answer s o))
          ((.task (answer s o), .did place o) :: r.1, r.2)
      | none => ([], s, .step place o k)
  | _, s, p => ([], s, p)

variable {r : History ι ε ω Place Op Ans × σ × Prog Place Op Ans Unit} {answer : σ → Op → Ans}
  {n : ℕ}

/-- That is a run. -/
theorem System.run_carryOut (hr : S.carryOut answer n s p = r) :
    (S.machine main).Run (s, p) r.1 r.2 := by
  subst hr
  induction n generalizing s p with
  | zero => exact .nil
  | succ n ih =>
      cases p with
      | done a => exact .nil
      | step place o k =>
          cases hact : S.act s o (answer s o) with
          | none =>
              simp only [System.carryOut, hact]
              exact .nil
          | some s' =>
              simp only [System.carryOut, hact]
              refine Machine.Run.cons ?_ ih
              change (S.act s o (answer s o)).map _ = _
              rw [hact]
              rfl

/-- Nothing interrupts it. -/
theorem System.carryOut_task (hr : S.carryOut answer n s p = r) :
    ∀ e ∈ r.1, ∃ w y, e = (.task w, y) := by
  subst hr
  induction n generalizing s p with
  | zero => simp [System.carryOut]
  | succ n ih =>
      cases p with
      | done a => simp [System.carryOut]
      | step place o k =>
          cases hact : S.act s o (answer s o) with
          | none => simp [System.carryOut, hact]
          | some s' =>
              simp only [System.carryOut, hact]
              intro e he
              rcases List.mem_cons.mp he with rfl | he
              · exact ⟨_, _, rfl⟩
              · exact ih e he

/-- A run without interrupts is always possible, if there is an answer to every operation that meets
the condition. -/
theorem System.exists_rest (hanswer : ∀ h s place o, ∃ w s', S.act s o w = some s' ∧
      C h s (some (place, o)) (.task w))
    (hr₀ : (S.machine main).Run (s₀, .done ()) h₀ (s, p)) (hc : S.Meets main s₀ C h₀) :
    ∃ h s', (S.machine main).Run (s₀, .done ()) (h₀ ++ h) (s', .done ()) ∧
      S.Meets main s₀ C (h₀ ++ h) ∧ ∀ e ∈ h, ∃ w y, e = (.task w, y) := by
  have hall : p.wp (fun s o w s' => S.act s o w = some s') (fun _ _ => True) s :=
    Prog.wp_true
  rw [← bind_pure p] at hr₀
  obtain ⟨h, _, s', hr, hmeets, htask, -⟩ := System.exists_front hanswer hr₀ hc hall
  exact ⟨h, s', hr, hmeets, htask⟩

/-- **A run without interrupts is possible** from every state. -/
theorem System.exists_run (hanswer : ∀ h s place o, ∃ w s', S.act s o w = some s' ∧
      C h s (some (place, o)) (.task w)) (hstart : C [] s none (.start i)) :
    ∃ h s', (S.machine main).Run (s, .done ()) ((.start i, .started) :: h) (s', .done ()) ∧
      S.Meets main s C ((.start i, .started) :: h) ∧ ∀ e ∈ h, ∃ w y, e = (.task w, y) := by
  have hstarted : (S.machine main).Run (s, .done ()) [(.start i, .started)] (s, main i) :=
    Machine.Run.single rfl
  exact System.exists_rest hanswer hstarted (System.Meets.nil.snoc .nil hstart)

/-- **A run without interrupts** ends as its program does. -/
theorem System.wp_run (hstep : ∀ h s place o w s', C h s (some (place, o)) (.task w) →
      S.act s o w = some s' → step s o w s')
    (hr : (S.machine main).Run (s, .done ()) ((.start i, x) :: h) (s', .done ()))
    (hc : S.Meets main s C ((.start i, x) :: h)) (htask : ∀ e ∈ h, ∃ w y, e = (.task w, y))
    (hwp : (main i).wp step Q s) : Q () s' := by
  obtain ⟨z, hs, hr'⟩ := hr.cons_inv
  obtain ⟨rfl, rfl⟩ := Prod.mk.inj (Option.some.inj hs)
  exact System.wp_rest hstep (Machine.Run.single hs) hr' hc htask hwp

/-- **An invariant of programs that are interrupted between them alone**: each program ends in it
again, and so does what comes in between. Inside a program what is left of it does. -/
theorem System.wp_invariant {I : σ → Prop} {z : σ × Prog Place Op Ans Unit}
    (hmain : ∀ h s i, C h s none (.start i) → I s →
      (main i).wp (fun s o w s' => S.act s o w = some s') (fun _ s' => I s') s)
    (hint : ∀ h s next e s' y, C h s next (.interrupt e) → S.interrupt s e = some (s', y) →
      next = none ∧ (I s → I s'))
    (h0 : I s₀) (hr : (S.machine main).Run (s₀, .done ()) h z) (hc : S.Meets main s₀ C h) :
    z.2.wp (fun s o w s' => S.act s o w = some s') (fun _ s' => I s') z.1 := by
  induction hr with
  | nil => exact h0
  | @snoc h z z' e x hr hs ih =>
      have hwp := ih hc.init
      have hcond : C h z.1 z.2.head e := hc h e x [] z rfl hr
      obtain ⟨s, p⟩ := z
      cases e with
      | start i =>
          cases p with
          | done a =>
              obtain ⟨rfl, -⟩ := Prod.mk.inj (Option.some.inj hs)
              exact hmain h s i hcond hwp
          | step place o k => cases hs
      | task w =>
          cases p with
          | done a => cases hs
          | step place o k =>
              obtain ⟨s', hact, heq⟩ := Option.map_eq_some_iff.mp hs
              obtain ⟨rfl, -⟩ := Prod.mk.inj heq
              exact hwp w s' hact
      | interrupt e =>
          obtain ⟨y, hy, heq⟩ : ∃ y, S.interrupt s e = some y ∧ z' = (y.1, p) := by
            have hstep : (S.interrupt s e).map
                (fun y => ((y.1, p), (Output.interrupted y.2 : Output Place Op ω))) =
                  some (z', x) := by
              cases p <;> exact hs
            obtain ⟨y, hy, heq⟩ := Option.map_eq_some_iff.mp hstep
            exact ⟨y, hy, (Prod.mk.inj heq).1.symm⟩
          subst heq
          obtain ⟨hnone, hkeep⟩ := hint h s p.head e y.1 y.2 hcond hy
          cases p with
          | done a => exact hkeep hwp
          | step place o k => cases hnone

end Interrupts
