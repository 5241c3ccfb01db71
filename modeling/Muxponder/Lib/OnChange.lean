import Mathlib.Data.List.Induction

/-!
# A Value That Is Shown Only When It Changes

In each round a value is computed anew, and it is sent to be shown where it differs from that of
the round before. Sending may fail, and then nothing is shown.

A system follows such rounds if each of its steps is a round or leaves the value and the display as
they are. It stays in step as long as no value is lost, and no longer: a value that does not change
is not sent again.

## Main results

* `stays_iff`: when the system is in step behind each of a sequence of steps.
-/

namespace OnChange

variable {α σ ι : Type} [DecidableEq α]

/-- The value, and what is shown. -/
structure State (α : Type) where
  current : α
  shown : Option α
  deriving DecidableEq, Repr

/-- A round: the value it computes, and whether sending it succeeds. -/
structure Round (α : Type) where
  value : α
  sent : Bool
  deriving DecidableEq, Repr

/-- A round. -/
def State.round (s : State α) (r : Round α) : State α :=
  ⟨r.value, if r.value ≠ s.current ∧ r.sent then some r.value else s.shown⟩

/-- The value is shown. -/
def State.InStep (s : State α) : Prop := s.shown = some s.current

/-- A value that has changed is lost. -/
def State.Loses (s : State α) (r : Round α) : Prop := r.value ≠ s.current ∧ r.sent = false

/-- The steps of a system are rounds of what a view shows of it, or leave that alone. -/
def Follows (step : σ → ι → σ) (view : σ → State α) (round : σ → ι → Option (Round α)) : Prop :=
  ∀ s i, view (step s i) = (round s i).elim (view s) (view s).round

section

variable {s : State α} {r : Round α}

/-- A round in which nothing is lost keeps the display in step. -/
theorem State.InStep.round (h : s.InStep) (hr : ¬ s.Loses r) : (s.round r).InStep := by
  rw [State.InStep, State.round]
  by_cases hchange : r.value = s.current
  · simp only [hchange, ne_eq, not_true_eq_false, false_and, if_false]
    exact h
  · have hsent : r.sent = true := by
      by_contra hsent
      exact hr ⟨hchange, by simpa using hsent⟩
    simp [hchange, hsent]

/-- A round in which a value is lost leaves it out of step. -/
theorem not_inStep_round (h : s.InStep) (hr : s.Loses r) : ¬ (s.round r).InStep := by
  rw [State.InStep, State.round, if_neg (by simp [hr.2]), h]
  intro hshown
  exact hr.1 (Option.some.inj hshown).symm

/-- A round that finds the value as it is changes nothing. -/
theorem round_of_eq (h : r.value = s.current) : s.round r = s := by
  simp [State.round, h]

end

variable {step : σ → ι → σ} {view : σ → State α} {round : σ → ι → Option (Round α)} {s : σ}
  {is : List ι}

/-- A step of a system that is in step leaves it so exactly if it loses nothing. -/
theorem Follows.inStep_iff (h : Follows step view round) {i : ι} (hs : (view s).InStep) :
    (view (step s i)).InStep ↔ ∀ r, round s i = some r → ¬ (view s).Loses r := by
  rw [h]
  cases hround : round s i with
  | none => exact iff_of_true hs fun _ hr => by cases hr
  | some r =>
      constructor
      · rintro hafter _ ⟨⟩ hloses
        exact not_inStep_round hs hloses hafter
      · intro hkeeps
        exact hs.round (hkeeps r rfl)

/-- **A system stays in step** over a sequence of steps as long as it is in step at first and no
step loses a value. -/
theorem stays_iff (h : Follows step view round) :
    (∀ pre, pre <+: is → (view (pre.foldl step s)).InStep) ↔
      (view s).InStep ∧ ∀ pre i, pre ++ [i] <+: is →
        ∀ r, round (pre.foldl step s) i = some r → ¬ (view (pre.foldl step s)).Loses r := by
  constructor
  · intro hstays
    refine ⟨hstays [] List.nil_prefix, fun pre i hpre => ?_⟩
    have hafter := hstays _ hpre
    rw [List.foldl_append, List.foldl_cons, List.foldl_nil] at hafter
    exact (h.inStep_iff (hstays pre ((List.prefix_append _ _).trans hpre))).mp hafter
  · rintro ⟨h0, hkeeps⟩ pre hpre
    induction pre using List.reverseRecOn with
    | nil => exact h0
    | append_singleton pre i ih =>
        rw [List.foldl_append, List.foldl_cons, List.foldl_nil]
        exact (h.inStep_iff (ih ((List.prefix_append _ _).trans hpre))).mpr (hkeeps pre i hpre)

end OnChange
