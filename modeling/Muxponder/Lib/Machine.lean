import Mathlib.Data.List.Induction

/-!
# Partial Deterministic Machines

A `Machine σ ι ω` reads one input at a time, moves its state, and emits one output, or
has no successor at all. The missing successor is how undefined behaviour is kept apart
from every defined one: a run exists exactly as long as each step was defined.

`Machine.Run s₀ h s` says that the history `h` of inputs with their outputs leads from
`s₀` to `s`. It grows at the end, so an invariant may speak of the whole history and its
proof is one step lemma (`Run.invariant`, or `Run.invariant_along` where every step meets
a condition); `Run.split` and `Run.append` cut and join
histories, and `exec` is the executable reading of the same relation
(`exec_eq_some_iff`).
-/

/-- A deterministic machine with states `σ`, inputs `ι` and outputs `ω`, whose step may be
undefined. -/
structure Machine (σ ι ω : Type*) where
  /-- The next state and the output, or `none` where the step is undefined. -/
  step : σ → ι → Option (σ × ω)

namespace Machine

variable {σ ι ω : Type*} {M : Machine σ ι ω} {s₀ s s₁ s₂ : σ} {h h₁ h₂ : List (ι × ω)}
  {i : ι} {o : ω}

/-- `M.Run s₀ h s`: reading the inputs of `h` in order from `s₀`, the machine emits the
outputs of `h` and ends in `s`. -/
inductive Run (M : Machine σ ι ω) (s₀ : σ) : List (ι × ω) → σ → Prop
  | nil : Run M s₀ [] s₀
  | snoc {h : List (ι × ω)} {s s' : σ} {i : ι} {o : ω} :
      Run M s₀ h s → M.step s i = some (s', o) → Run M s₀ (h ++ [(i, o)]) s'

/-- One step as a run. -/
theorem Run.single (hs : M.step s i = some (s₁, o)) : M.Run s [(i, o)] s₁ :=
  Run.snoc Run.nil hs

/-- **The invariant rule**: what holds of the empty history and is kept by every step
holds of every run. The step may use that its history is itself a run. -/
theorem Run.invariant {I : List (ι × ω) → σ → Prop} (h0 : I [] s₀)
    (hstep : ∀ h s i s' o, M.Run s₀ h s → I h s → M.step s i = some (s', o) →
      I (h ++ [(i, o)]) s')
    (hr : M.Run s₀ h s) : I h s := by
  induction hr with
  | nil => exact h0
  | snoc hr hs ih => exact hstep _ _ _ _ _ hr ih hs

/-- Every input of a history is read in a state in which `C` allows it. -/
def Along (M : Machine σ ι ω) (s₀ : σ) (h : List (ι × ω)) (C : σ → ι → Prop) : Prop :=
  ∀ h₁ i o h₂ s, h = h₁ ++ (i, o) :: h₂ → M.Run s₀ h₁ s → C s i

/-- A shorter history asks for less. -/
theorem Along.init {C : σ → ι → Prop} (hc : M.Along s₀ (h₁ ++ h₂) C) : M.Along s₀ h₁ C := by
  intro h i o h' s hh hr
  refine hc h i o (h' ++ h₂) s ?_ hr
  rw [hh, List.append_assoc, List.cons_append]

/-- The invariant rule along a condition: the step may use that its input was allowed. -/
theorem Run.invariant_along {I : List (ι × ω) → σ → Prop} {C : σ → ι → Prop} (h0 : I [] s₀)
    (hstep : ∀ h s i s' o, M.Run s₀ h s → I h s → C s i → M.step s i = some (s', o) →
      I (h ++ [(i, o)]) s')
    (hr : M.Run s₀ h s) (hc : M.Along s₀ h C) : I h s := by
  induction hr with
  | nil => exact h0
  | snoc hr hs ih =>
      exact hstep _ _ _ _ _ hr (ih hc.init) (hc _ _ _ [] _ rfl hr) hs

/-- Runs compose. -/
theorem Run.append (hr₁ : M.Run s₀ h₁ s₁) (hr₂ : M.Run s₁ h₂ s₂) :
    M.Run s₀ (h₁ ++ h₂) s₂ := by
  induction hr₂ with
  | nil => simpa using hr₁
  | snoc _ hs ih =>
      rw [← List.append_assoc]
      exact Run.snoc ih hs

/-- Only the empty run has the empty history. -/
theorem Run.eq_of_nil (hr : M.Run s₀ [] s) : s = s₀ := by
  generalize hh : ([] : List (ι × ω)) = h at hr
  cases hr with
  | nil => rfl
  | snoc _ _ => simp at hh

/-- Inversion at the last step of a run. -/
theorem Run.snoc_inv (hr : M.Run s₀ (h ++ [(i, o)]) s) :
    ∃ m, M.Run s₀ h m ∧ M.step m i = some (s, o) := by
  generalize hh : h ++ [(i, o)] = h' at hr
  cases hr with
  | nil => simp at hh
  | snoc hr hs =>
      obtain ⟨rfl, hio⟩ := List.append_inj' hh rfl
      obtain ⟨rfl, rfl⟩ : i = _ ∧ o = _ := by simpa using hio
      exact ⟨_, hr, hs⟩

/-- A run can be cut anywhere in its history. -/
theorem Run.split (hr : M.Run s₀ (h₁ ++ h₂) s) : ∃ m, M.Run s₀ h₁ m ∧ M.Run m h₂ s := by
  induction h₂ using List.reverseRecOn generalizing s with
  | nil => exact ⟨s, by simpa using hr, Run.nil⟩
  | append_singleton h₂ io ih =>
      obtain ⟨i, o⟩ := io
      rw [← List.append_assoc] at hr
      obtain ⟨m, hm, hs⟩ := hr.snoc_inv
      obtain ⟨m', h1, h2⟩ := ih hm
      exact ⟨m', h1, Run.snoc h2 hs⟩

/-- A history leads to one state. -/
theorem Run.det (hr₁ : M.Run s₀ h s₁) (hr₂ : M.Run s₀ h s₂) : s₁ = s₂ := by
  induction h using List.reverseRecOn generalizing s₁ s₂ with
  | nil => rw [hr₁.eq_of_nil, hr₂.eq_of_nil]
  | append_singleton h io ih =>
      obtain ⟨i, o⟩ := io
      obtain ⟨m₁, hm₁, hs₁⟩ := hr₁.snoc_inv
      obtain ⟨m₂, hm₂, hs₂⟩ := hr₂.snoc_inv
      obtain rfl := ih hm₁ hm₂
      rw [hs₁] at hs₂
      exact (Prod.mk.inj (Option.some.inj hs₂)).1

/-- Inversion at the first step of a run. -/
theorem Run.cons_inv (hr : M.Run s₀ ((i, o) :: h) s) :
    ∃ m, M.step s₀ i = some (m, o) ∧ M.Run m h s := by
  have hr' : M.Run s₀ ([(i, o)] ++ h) s := by simpa using hr
  obtain ⟨m, h1, h2⟩ := hr'.split
  have h1' : M.Run s₀ ([] ++ [(i, o)]) m := by simpa using h1
  obtain ⟨m', h3, h4⟩ := h1'.snoc_inv
  obtain rfl := h3.eq_of_nil
  exact ⟨m, h4, h2⟩

/-- A first step in front of a run. -/
theorem Run.cons (hs : M.step s₀ i = some (s₁, o)) (hr : M.Run s₁ h s) :
    M.Run s₀ ((i, o) :: h) s :=
  (Run.single hs).append hr

/-- A condition met along a history and by one more input is met along the longer one. -/
theorem Along.snoc {C : σ → ι → Prop} (hr : M.Run s₀ h s) (hc : M.Along s₀ h C) (hi : C s i) :
    M.Along s₀ (h ++ [(i, o)]) C := by
  intro h₁ j o' h₂ s' hh hr'
  rcases List.eq_nil_or_concat h₂ with rfl | ⟨h₂, io, rfl⟩
  · obtain ⟨rfl, hio⟩ := List.append_inj' hh rfl
    obtain ⟨rfl, rfl⟩ : i = j ∧ o = o' := by simpa using hio
    rw [hr'.det hr]
    exact hi
  · have hh' : h ++ [(i, o)] = (h₁ ++ (j, o') :: h₂) ++ [io] := by simpa using hh
    exact hc h₁ j o' h₂ s' (List.append_inj' hh' rfl).1 hr'

/-- The empty history asks for nothing. -/
theorem Along.nil {C : σ → ι → Prop} : M.Along s₀ [] C := by
  intro h₁ i o h₂ s hh
  simp at hh

/-- A condition met by the first input and along what follows. -/
theorem Along.cons {C : σ → ι → Prop} (hs : M.step s₀ i = some (s₁, o)) (hi : C s₀ i)
    (hc : M.Along s₁ h C) : M.Along s₀ ((i, o) :: h) C := by
  intro h₁ j o' h₂ s' hh hr
  cases h₁ with
  | nil =>
      obtain ⟨⟨rfl, -⟩, -⟩ : (i = j ∧ o = o') ∧ h = h₂ := by simpa using hh
      rw [hr.eq_of_nil]
      exact hi
  | cons e h₁ =>
      obtain ⟨rfl, rfl⟩ : (i, o) = e ∧ h = h₁ ++ (j, o') :: h₂ := by simpa using hh
      obtain ⟨m, hm, hr'⟩ := hr.cons_inv
      obtain ⟨rfl, -⟩ := Prod.mk.inj (Option.some.inj (hs.symm.trans hm))
      exact hc h₁ j o' h₂ s' rfl hr'

/-- The executable machine: the final state and the outputs of a list of inputs, or
`none` when some step is undefined. -/
def exec (M : Machine σ ι ω) : σ → List ι → Option (σ × List ω)
  | s, [] => some (s, [])
  | s, i :: is =>
      (M.step s i).bind fun r => (M.exec r.1 is).map fun t => (t.1, r.2 :: t.2)

/-- Executing the machine and deriving a run are the same thing. -/
theorem exec_eq_some_iff {is : List ι} {os : List ω} :
    M.exec s₀ is = some (s, os) ↔
      ∃ h, M.Run s₀ h s ∧ h.map Prod.fst = is ∧ h.map Prod.snd = os := by
  induction is generalizing s₀ os with
  | nil =>
      constructor
      · intro h
        obtain ⟨rfl, rfl⟩ : s₀ = s ∧ [] = os := by simpa [exec] using h
        exact ⟨[], Run.nil, rfl, rfl⟩
      · rintro ⟨h, hr, hi, rfl⟩
        obtain rfl : h = [] := by simpa using hi
        simp [exec, hr.eq_of_nil]
  | cons i is ih =>
      constructor
      · intro h
        obtain ⟨⟨s₁, o⟩, hs, h⟩ := Option.bind_eq_some_iff.mp h
        obtain ⟨⟨s₂, os'⟩, he, ht⟩ := Option.map_eq_some_iff.mp h
        obtain ⟨rfl, rfl⟩ : s₂ = s ∧ o :: os' = os := by simpa using ht
        obtain ⟨h', hr, rfl, rfl⟩ := ih.mp he
        exact ⟨(i, o) :: h', Run.cons hs hr, rfl, rfl⟩
      · rintro ⟨h, hr, hi, rfl⟩
        obtain ⟨⟨i', o⟩, h', rfl, rfl, hi'⟩ := List.map_eq_cons_iff.mp hi
        obtain ⟨m, hs, hr'⟩ := hr.cons_inv
        have he := ih.mpr ⟨h', hr', hi', rfl⟩
        simp [exec, hs, he]

/-- A history is its inputs with its outputs. -/
theorem zip_inputs (h : List (ι × ω)) : (h.map Prod.fst).zip (h.map Prod.snd) = h := by
  induction h with
  | nil => rfl
  | cons e h ih => rw [List.map_cons, List.map_cons, List.zip_cons_cons, ih]

/-- The inputs of a run determine the rest of it. -/
theorem Run.unique (hr₁ : M.Run s₀ h₁ s₁) (hr₂ : M.Run s₀ h₂ s₂)
    (hi : h₁.map Prod.fst = h₂.map Prod.fst) : h₁ = h₂ := by
  have he₁ := exec_eq_some_iff.mpr ⟨h₁, hr₁, rfl, rfl⟩
  have he₂ := exec_eq_some_iff.mpr ⟨h₂, hr₂, rfl, rfl⟩
  rw [hi, he₂, Option.some.injEq, Prod.mk.injEq] at he₁
  rw [← zip_inputs h₁, ← zip_inputs h₂, hi, he₁.2]

/-- What the machine computes on the inputs of a history is a run of it. -/
theorem run_of_exec (he : M.exec s₀ (h.map Prod.fst) = some (s, h.map Prod.snd)) :
    M.Run s₀ h s := by
  obtain ⟨h', hr, hfst, hsnd⟩ := exec_eq_some_iff.mp he
  obtain rfl : h' = h := by rw [← zip_inputs h', ← zip_inputs h, hfst, hsnd]
  exact hr

/-! ### Projections -/

variable {τ κ χ : Type*} {N : Machine τ κ χ} {t₀ : τ}

/-- **The projection rule**: where every step of a machine is either a step of a smaller
one or none of its business, a run of the machine contains a run of the smaller one. The
step may use that it happens behind a run of either, and a condition `P` on its history. -/
theorem Run.project {R : σ → τ → Prop} {P : List (ι × ω) → σ → ι → Prop}
    (proj : ι × ω → Option (κ × χ)) (h0 : R s₀ t₀)
    (hother : ∀ s i o s' t, R s t → M.step s i = some (s', o) → proj (i, o) = none → R s' t)
    (hown : ∀ h s i o s' t k x, M.Run s₀ h s → N.Run t₀ (h.filterMap proj) t → P h s i →
      R s t → M.step s i = some (s', o) → proj (i, o) = some (k, x) →
      ∃ t', N.step t k = some (t', x) ∧ R s' t')
    (hr : M.Run s₀ h s)
    (hc : ∀ h' i o rest m, h = h' ++ (i, o) :: rest → M.Run s₀ h' m → P h' m i) :
    ∃ t, N.Run t₀ (h.filterMap proj) t ∧ R s t := by
  induction hr with
  | nil => exact ⟨t₀, .nil, h0⟩
  | @snoc h s s' i o hr hs ih =>
      obtain ⟨t, ht, hR⟩ := ih fun h' j o' rest m hh hm =>
        hc h' j o' (rest ++ [(i, o)]) m (by rw [hh, List.append_assoc, List.cons_append]) hm
      rw [List.filterMap_append]
      cases hp : proj (i, o) with
      | none => exact ⟨t, by simpa [hp] using ht, hother s i o s' t hR hs hp⟩
      | some kx =>
          obtain ⟨k, x⟩ := kx
          obtain ⟨t', hN, hR'⟩ := hown h s i o s' t k x hr ht (hc h i o [] s rfl hr) hR hs hp
          exact ⟨t', by simpa [hp] using ht.snoc hN, hR'⟩

end Machine
