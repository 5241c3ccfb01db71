import Mathlib.Data.List.Induction

/-!
# Keys and What Was Last Written to Them

A sequence of writes, each of a value to a key, and a system that takes one step for each write.
A view of the system shows something at each key. Where every step shows the value it writes at
its own key and leaves the view alone at the others, the view shows after the whole sequence what
was last written.

## Main results

* `latest_snoc`: what was last written to a key.
* `view_latest`: the view after a sequence of writes.
-/

namespace LastWrite

variable {κ ν σ ω : Type}

section Latest

variable [DecidableEq κ]

/-- The value that is last written to a key. -/
def latest (k : κ) (ws : List (κ × ν)) : Option ν :=
  (ws.reverse.find? fun w => w.1 = k).map (·.2)

/-- Nothing is written. -/
@[simp]
theorem latest_nil (k : κ) : latest k ([] : List (κ × ν)) = none := rfl

/-- One more write. -/
theorem latest_snoc (k : κ) (ws : List (κ × ν)) (w : κ × ν) :
    latest k (ws ++ [w]) = if w.1 = k then some w.2 else latest k ws := by
  by_cases hk : w.1 = k <;> simp [latest, hk]

/-- What is written in front of that makes no difference. -/
theorem latest_append {k : κ} {vs ws : List (κ × ν)} {v : ν} (h : latest k ws = some v) :
    latest k (vs ++ ws) = some v := by
  obtain ⟨w, hw, hv⟩ := Option.map_eq_some_iff.mp h
  rw [latest, List.reverse_append, List.find?_append, hw]
  exact congrArg some hv

/-- What is written to other keys behind it makes none either. -/
theorem latest_append_other {k : κ} {vs ws : List (κ × ν)} (h : ∀ w ∈ ws, w.1 ≠ k) :
    latest k (vs ++ ws) = latest k vs := by
  have hnone : ws.reverse.find? (fun w => w.1 = k) = none := by
    rw [List.find?_eq_none]
    intro w hw
    simpa using h w (List.mem_reverse.mp hw)
  rw [latest, latest, List.reverse_append, List.find?_append, hnone, Option.none_or]

/-- The writes of one member of a list to a key of its own. -/
theorem latest_flatMap {ι : Type} {k : κ} {is : List ι} {g : ι → List (κ × ν)} {i : ι} {v : ν}
    (hi : i ∈ is) (hother : ∀ j, j ≠ i → ∀ w ∈ g j, w.1 ≠ k) (h : latest k (g i) = some v) :
    latest k (is.flatMap g) = some v := by
  induction is using List.reverseRecOn with
  | nil => cases hi
  | append_singleton is j ih =>
      rw [List.flatMap_append, List.flatMap_cons, List.flatMap_nil, List.append_nil]
      by_cases hj : j = i
      · subst hj
        exact latest_append h
      · rw [latest_append_other (hother j hj)]
        refine ih ((List.mem_append.mp hi).resolve_right ?_)
        intro hmem
        exact hj (List.mem_singleton.mp hmem).symm

/-- What was last written is one of the writes. -/
theorem mem_of_latest {k : κ} {ws : List (κ × ν)} {v : ν} (h : latest k ws = some v) :
    (k, v) ∈ ws := by
  obtain ⟨w, hw, rfl⟩ := Option.map_eq_some_iff.mp h
  obtain rfl : w.1 = k := by simpa using List.find?_some hw
  exact List.mem_reverse.mp (List.mem_of_find?_eq_some hw)

end Latest

/-- Every step of a sequence is taken in a state that is good for it. -/
def GoodAlong (step : σ → κ × ν → σ) (Good : σ → κ × ν → Prop) (s : σ) (ws : List (κ × ν)) : Prop :=
  ∀ pre w post, ws = pre ++ w :: post → Good (pre.foldl step s) w

variable {step : σ → κ × ν → σ} {Good : σ → κ × ν → Prop} {s : σ} {ws : List (κ × ν)}
  {w : κ × ν} {k : κ}

/-- The steps of the beginning are good. -/
theorem GoodAlong.init (h : GoodAlong step Good s (ws ++ [w])) : GoodAlong step Good s ws := by
  intro pre w' post hws
  exact h pre w' (post ++ [w]) (by rw [hws, List.append_assoc, List.cons_append])

/-- The last step is good. -/
theorem GoodAlong.last (h : GoodAlong step Good s (ws ++ [w])) : Good (ws.foldl step s) w :=
  h ws w [] rfl

variable [DecidableEq κ] {g : σ → κ → ω} {f : κ → ν → ω}

/-- **The view shows what was last written**, where every step shows its own value and leaves the
other keys alone. -/
theorem view_latest (hown : ∀ s w, Good s w → g (step s w) w.1 = f w.1 w.2)
    (hother : ∀ s w k, Good s w → k ≠ w.1 → g (step s w) k = g s k)
    (hgood : GoodAlong step Good s ws) {v : ν} (hk : latest k ws = some v) :
    g (ws.foldl step s) k = f k v := by
  induction ws using List.reverseRecOn with
  | nil => simp at hk
  | append_singleton ws w ih =>
      rw [List.foldl_append, List.foldl_cons, List.foldl_nil]
      rw [latest_snoc] at hk
      split at hk
      next hw =>
        obtain rfl := Option.some.inj hk
        subst hw
        exact hown _ w hgood.last
      next hw =>
        rw [hother _ w k hgood.last (Ne.symm hw)]
        exact ih hgood.init hk

end LastWrite
