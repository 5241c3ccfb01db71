import Muxponder.Pfc

/-!
# The Life of a Performance-Counter Module

A module is allocated, initialised and handed to its port; its alarm is in the list of `alt_tick`
while its timer state is running; it is stopped, freed, and the pointer of the port is cleared.
Ticks and reads of the KURS protocol come between any two operations of this.

The order of the operations is right for the alarm: a freed module is in no list, and what has been
inserted or removed is said by the timer state as soon as the store behind it is done. It is wrong
for the pointer: `destroy_pfc_module` clears it behind `free`, so a read that comes in between goes
through it.

## Main results

* `pfcOrder_run`: what holds in front of every operation.
* `pfcSound_iff`: a run is sound if and only if no read comes between `free` and the clearing of
  the pointer.
-/

namespace Muxponder

open Interrupts

/-! ### The property -/

/-- What a store that is next makes of the timer state of a module. -/
def PfcOp.storedState (o : PfcOp) (a : PfcAddr) (st : ℤ) : ℤ :=
  match o with
  | .store (some b) f => if b = a then f.timerState st else st
  | _ => st

/-- The timer state of a module, where a store that is next counts as done: the list of alarms and
the timer state are changed one behind the other. -/
def storedState (next : Option (Unit × PfcOp)) (a : PfcAddr) (st : ℤ) : ℤ :=
  next.elim st fun x => x.2.storedState a st

/-- A run, and the state and the operation it has come to, are sound. -/
structure PfcSound (h : PfcHistory) (next : Option (Unit × PfcOp)) (s : PfcState) : Prop where
  /-- No alarm is in the list twice. -/
  armedOnce : s.alarms.Nodup
  /-- The alarm of a module is in the list while its timer state is running. -/
  armedIff : ∀ i a m, s.pfc i = some a → s.heap a = some m →
    (a ∈ s.alarms ↔ storedState next a m.state = PFC_TIMER_RUNNING)
  /-- Only modules of ports have their alarms in the list. -/
  armedPort : ∀ a ∈ s.alarms, ∃ i m, s.pfc i = some a ∧ s.heap a = some m
  /-- No tick has come by the alarm of a freed module. -/
  fires : ∀ regs as, (.interrupt (.tick regs), .interrupted (.ticked as)) ∈ h → as = []
  /-- No read has gone through a pointer to a freed module. -/
  reads : ∀ i c, (.interrupt (.kursRead i c), .interrupted .freed) ∉ h

/-- **The condition on a read**: it does not come where the module of its port has been freed and
the pointer is about to be cleared. -/
def PfcUndisturbed : Condition PfcState PfcCommand PfcInterrupt PfcSeen Unit PfcOp PfcAns :=
  fun _ s next e => ∀ i c, e = .interrupt (.kursRead i c) → next = some ((), .writePfc i none) →
    s.pfc i = none

/-! ### The order of the operations -/

/-- The module that an operation accesses. -/
def PfcOp.uses : PfcOp → Option PfcAddr
  | .free a | .readState a | .readMonitorPeriod a | .altAlarmStart a | .altAlarmStop a => some a
  | .store p _ | .pulseEop p => p
  | _ => none

/-- What holds in front of every operation. -/
structure PfcOrder (next : Option (Unit × PfcOp)) (s : PfcState) : Prop where
  nodup : s.alarms.Nodup
  rate : s.alarms ≠ [] → s.tickRate ≠ 0
  armed : ∀ i a st, s.pfc i = some a → s.timerState a = some st →
    (a ∈ s.alarms ↔ storedState next a st = PFC_TIMER_RUNNING)
  live : ∀ a ∈ s.alarms, ∃ i, s.pfc i = some a ∧ (s.timerState a).isSome
  reads : ∀ i a, s.pfc i = some a →
    ((s.timerState a).isSome ↔ next ≠ some ((), .writePfc i none))
  uses : ∀ o a, next = some ((), o) → o.uses = some a → (s.timerState a).isSome

/-- All ports but the one that is being worked on have modules as they should be. -/
structure PfcPorts (x : Option (Fin INTERFACE_COUNT)) (s : PfcState) : Prop where
  owned : ∀ j, x ≠ some j → ∀ b, s.pfc j = some b →
    ∃ st, s.timerState b = some st ∧ (b ∈ s.alarms ↔ st = PFC_TIMER_RUNNING)
  distinct : ∀ j k b, s.pfc j = some b → s.pfc k = some b → j = k
  nodup : s.alarms.Nodup
  armed : ∀ b ∈ s.alarms, ∃ j, s.pfc j = some b
  rate : s.alarms ≠ [] → s.tickRate ≠ 0

/-- The port `i` has the pointer `own`, and the work on it is on the module `p`, which is no other
port's; `q` says of that what its timer state is, and whether its alarm is in the list. -/
structure PfcWork (i : Fin INTERFACE_COUNT) (own p : Option PfcAddr)
    (q : Option ℤ → Prop → Prop) (s : PfcState) : Prop extends PfcPorts (some i) s where
  pfc : s.pfc i = own
  mine : ∀ a, p = some a → ∀ j, j ≠ i → s.pfc j ≠ some a
  phase : ∀ a, p = some a → q (s.timerState a) (a ∈ s.alarms)

/-- The module may be left as it is. -/
def Resting (ts : Option ℤ) (armed : Prop) : Prop :=
  ∃ st, ts = some st ∧ (armed ↔ st = PFC_TIMER_RUNNING)

/-- It is stopped. -/
def Stopped (ts : Option ℤ) (armed : Prop) : Prop :=
  ∃ st, ts = some st ∧ st ≠ PFC_TIMER_RUNNING ∧ ¬ armed

/-- Its alarm has been inserted. -/
def Inserted (ts : Option ℤ) (armed : Prop) : Prop := ts.isSome ∧ armed

/-- Its alarm has been removed. -/
def Removed (ts : Option ℤ) (armed : Prop) : Prop := ts.isSome ∧ ¬ armed

/-- It has been freed. -/
def Freed (ts : Option ℤ) (armed : Prop) : Prop := ts = none ∧ ¬ armed

/-- It has been allocated. -/
def Allocated (ts : Option ℤ) (_ : Prop) : Prop := ts.isSome

/-- It is initialised. -/
def Initialised (ts : Option ℤ) (_ : Prop) : Prop := ts = some PFC_TIMER_IDLE

variable {s s' : PfcState} {i j : Fin INTERFACE_COUNT} {a b : PfcAddr} {own p : Option PfcAddr}
  {q q' : Option ℤ → Prop → Prop} {o : PfcOp} {w : PfcAns} {f : PfcStore}
  {ts : Option ℤ} {armed : Prop}

theorem Stopped.resting (h : Stopped ts armed) : Resting ts armed := by
  obtain ⟨st, hts, hst, harmed⟩ := h
  exact ⟨st, hts, iff_of_false harmed hst⟩

/-- All ports have modules as they should be, whichever port is looked at. -/
theorem pfcPorts_iff : PfcPorts none s ↔ PfcWork i (s.pfc i) (s.pfc i) Resting s := by
  constructor
  · intro h
    refine { h with owned := ?_, pfc := rfl, mine := ?_, phase := ?_ }
    · intro j _ b hb
      exact h.owned j (by simp) b hb
    · intro a ha j hj hja
      exact hj (h.distinct j i a hja ha)
    · intro a ha
      exact h.owned i (by simp) a ha
  · intro h
    refine { h with owned := ?_ }
    intro j _ b hb
    by_cases hj : j = i
    · subst hj
      exact h.phase b hb
    · exact h.owned j (fun h => hj (Option.some.inj h).symm) b hb

/-- The work on a port that is done. -/
theorem PfcWork.ports (h : PfcWork i own own Resting s) : PfcPorts none s := by
  have hpfc := h.pfc
  subst hpfc
  exact pfcPorts_iff.mpr h

theorem PfcWork.mono (h : PfcWork i own p q s) (hq : ∀ ts armed, q ts armed → q' ts armed) :
    PfcWork i own p q' s :=
  { h with phase := fun a ha => hq _ _ (h.phase a ha) }

/-! ### Interrupts -/

theorem PfcPorts.same {x : Option (Fin INTERFACE_COUNT)} (h : PfcPorts x s) (hs : s.Same s') :
    PfcPorts x s' := by
  refine ⟨?_, ?_, ?_, ?_, ?_⟩
  · intro j hj b hb
    rw [hs.timerState, hs.alarms]
    exact h.owned j hj b (hs.pfc ▸ hb)
  · intro j k b hj hk
    rw [hs.pfc] at hj hk
    exact h.distinct j k b hj hk
  · rw [hs.alarms]
    exact h.nodup
  · intro b hb
    rw [hs.pfc]
    exact h.armed b (hs.alarms ▸ hb)
  · intro hne
    exact hs.tickRate (h.rate (hs.alarms ▸ hne))

theorem PfcWork.same (h : PfcWork i own p q s) (hs : s.Same s') : PfcWork i own p q s' := by
  refine { h.toPfcPorts.same hs with pfc := ?_, mine := ?_, phase := ?_ }
  · rw [hs.pfc]
    exact h.pfc
  · intro a ha j hj
    rw [hs.pfc]
    exact h.mine a ha j hj
  · intro a ha
    rw [hs.timerState, hs.alarms]
    exact h.phase a ha

/-- No condition on the events. -/
abbrev anyPfcEvent : Condition PfcState PfcCommand PfcInterrupt PfcSeen Unit PfcOp PfcAns :=
  fun _ _ _ _ => True

/-- Interrupts leave the work alone. -/
theorem PfcWork.stable {next : Option (Unit × PfcOp)} :
    Stable pfcSystem anyPfcEvent next fun _ s => PfcWork i own p q s := by
  intro h s e s' x hA _ hint
  obtain ⟨rfl, -⟩ := Prod.mk.inj (Option.some.inj hint)
  exact hA.same (PfcState.interrupt_same e hA.rate)

/-! ### What is in order in front of an operation -/

/-- An operation of the work on a port. -/
def PfcOp.Of (i : Fin INTERFACE_COUNT) (p : Option PfcAddr) (o : PfcOp) : Prop :=
  (∀ j r, o = .writePfc j r → j = i) ∧ ∀ a, o.uses = some a → p = some a

/-- The phase of a module of a port, in front of an operation. -/
def Shows (i : Fin INTERFACE_COUNT) (a : PfcAddr) (o : PfcOp) (ts : Option ℤ) (armed : Prop) :
    Prop :=
  (Freed ts armed ∧ o = .writePfc i none) ∨
    ∃ st, ts = some st ∧ (armed ↔ o.storedState a st = PFC_TIMER_RUNNING) ∧ o ≠ .writePfc i none

/-- A store into another module. -/
theorem storedState_other (ho : o.uses ≠ some b) (st : ℤ) : o.storedState b st = st := by
  cases o with
  | store p f =>
      cases p with
      | none => rfl
      | some a => exact if_neg fun h => ho (congrArg some h)
  | _ => rfl

/-- The work on a port is in order in front of an operation of it. -/
theorem PfcWork.order (h : PfcWork i own p q s) (hof : o.Of i p)
    (huses : ∀ ts armed, q ts armed → o.uses.isSome → ts.isSome)
    (hown : ∀ a, own = some a → p = some a ∧ ∀ ts armed, q ts armed → Shows i a o ts armed) :
    PfcOrder (some ((), o)) s := by
  have hother : ∀ j, j ≠ i → ∀ b, s.pfc j = some b → o.uses ≠ some b := by
    intro j hj b hb huse
    exact h.mine b (hof.2 b huse) j hj hb
  have howned : ∀ j, j ≠ i → ∀ b, s.pfc j = some b →
      ∃ st, s.timerState b = some st ∧ (b ∈ s.alarms ↔ st = PFC_TIMER_RUNNING) :=
    fun j hj => h.owned j fun heq => hj (Option.some.inj heq).symm
  have hmine : ∀ b, s.pfc i = some b → Shows i b o (s.timerState b) (b ∈ s.alarms) := by
    intro b hb
    obtain ⟨hp, hq⟩ := hown b (h.pfc.symm.trans hb)
    exact hq _ _ (h.phase b hp)
  refine ⟨h.nodup, h.rate, ?_, ?_, ?_, ?_⟩
  · intro j b st hb hst
    by_cases hj : j = i
    · subst hj
      obtain ⟨⟨hnone, -⟩, -⟩ | ⟨st', hst', harmed, -⟩ := hmine b hb
      · rw [hnone] at hst
        cases hst
      · obtain rfl : st' = st := Option.some.inj (hst'.symm.trans hst)
        exact harmed
    · obtain ⟨st', hst', harmed⟩ := howned j hj b hb
      obtain rfl : st' = st := Option.some.inj (hst'.symm.trans hst)
      have hsame : storedState (some ((), o)) b st' = st' :=
        storedState_other (hother j hj b hb) st'
      rw [hsame]
      exact harmed
  · intro b hb
    obtain ⟨j, hj⟩ := h.armed b hb
    refine ⟨j, hj, ?_⟩
    by_cases hji : j = i
    · subst hji
      obtain ⟨⟨-, harmed⟩, -⟩ | ⟨st, hst, -⟩ := hmine b hj
      · exact absurd hb harmed
      · simp [hst]
    · obtain ⟨st, hst, -⟩ := howned j hji b hj
      simp [hst]
  · intro j b hb
    by_cases hji : j = i
    · subst hji
      obtain ⟨⟨hnone, -⟩, ho⟩ | ⟨st, hst, -, ho⟩ := hmine b hb
      · simp [hnone, ho]
      · simp [hst, ho]
    · obtain ⟨st, hst, -⟩ := howned j hji b hb
      have hne : o ≠ .writePfc j none := fun ho => hji (hof.1 j none ho)
      simp [hst, hne]
  · intro o' b ho' hb
    obtain rfl : o = o' := (Prod.mk.inj (Option.some.inj ho')).2
    exact huses _ _ (h.phase b (hof.2 b hb)) (by simp [hb])

/-- So is a state in which no work is under way. -/
theorem PfcPorts.order (h : PfcPorts none s) : PfcOrder none s := by
  have howned := fun j => h.owned j (by simp)
  refine ⟨h.nodup, h.rate, ?_, ?_, ?_, ?_⟩
  · intro j b st hb hst
    obtain ⟨st', hst', harmed⟩ := howned j b hb
    obtain rfl : st' = st := Option.some.inj (hst'.symm.trans hst)
    exact harmed
  · intro b hb
    obtain ⟨j, hj⟩ := h.armed b hb
    obtain ⟨st, hst, -⟩ := howned j b hj
    exact ⟨j, hj, by simp [hst]⟩
  · intro j b hb
    obtain ⟨st, hst, -⟩ := howned j b hb
    simp [hst]
  · intro o b ho
    cases ho

/-! ### What an operation does to the work -/

/-- A change of the module that is worked on. -/
theorem PfcWork.change (h : PfcWork i own p q s) (hpfc : s'.pfc = s.pfc)
    (hts : ∀ b, p ≠ some b → s'.timerState b = s.timerState b)
    (halarms : ∀ b, p ≠ some b → (b ∈ s'.alarms ↔ b ∈ s.alarms)) (hnodup : s'.alarms.Nodup)
    (harmed : ∀ b ∈ s'.alarms, p = some b → own = some b) (hrate : s'.alarms ≠ [] → s'.tickRate ≠ 0)
    (hphase : ∀ a, p = some a → q (s.timerState a) (a ∈ s.alarms) →
      q' (s'.timerState a) (a ∈ s'.alarms)) : PfcWork i own p q' s' := by
  refine ⟨⟨?_, ?_, hnodup, ?_, hrate⟩, ?_, ?_, ?_⟩
  · intro j hj b hb
    rw [hpfc] at hb
    have hp : p ≠ some b := fun hp => h.mine b hp j (fun heq => hj (heq ▸ rfl)) hb
    rw [hts b hp, halarms b hp]
    exact h.owned j hj b hb
  · intro j k b hj hk
    rw [hpfc] at hj hk
    exact h.distinct j k b hj hk
  · intro b hb
    rw [hpfc]
    by_cases hp : p = some b
    · exact ⟨i, h.pfc.trans (harmed b hb hp)⟩
    · exact h.armed b ((halarms b hp).mp hb)
  · rw [hpfc]
    exact h.pfc
  · intro a ha j hj
    rw [hpfc]
    exact h.mine a ha j hj
  · intro a ha
    exact hphase a ha (h.phase a ha)

/-- An alarm in the list is that of a module whose port has a pointer to it. -/
theorem PfcWork.own_of_armed (h : PfcWork i own p q s) (hb : b ∈ s.alarms) (hp : p = some b) :
    own = some b := by
  obtain ⟨j, hj⟩ := h.armed b hb
  by_cases hji : j = i
  · subst hji
    exact h.pfc.symm.trans hj
  · exact absurd hj (h.mine b hp j hji)

/-- The timer state behind a store. -/
theorem PfcState.timerState_store : (s.modify a (·.store f)).timerState b =
    if b = a then (s.timerState a).map f.timerState else s.timerState b := by
  have hstate : ∀ m : PerformanceCounters, (m.store f).state = f.timerState m.state := by
    intro m
    cases f <;> rfl
  rw [PfcState.timerState_modify]
  split
  next =>
    rw [PfcState.timerState, Option.map_map]
    exact congrArg (fun g => (s.heap a).map g) (funext hstate)
  next => rfl

/-- A store. -/
theorem PfcWork.store (h : PfcWork i own p q s) (hact : s.act (.store p f) w = some s')
    (hq : ∀ ts armed, q ts armed → q' (ts.map f.timerState) armed) : PfcWork i own p q' s' := by
  cases w with
  | none =>
      obtain rfl := Option.some.inj hact
      cases p with
      | none =>
          refine h.change rfl (fun _ _ => rfl) (fun _ _ => Iff.rfl) h.nodup ?_ h.rate ?_
          · intro b _ hb
            cases hb
          · intro b hb
            cases hb
      | some a =>
          refine h.change rfl ?_ (fun _ _ => Iff.rfl) h.nodup
            (fun b hb hp => h.own_of_armed hb hp) h.rate ?_
          · intro b hb
            exact PfcState.timerState_store.trans (if_neg fun heq => hb (congrArg some heq.symm))
          · intro b hb hphase
            obtain rfl := Option.some.inj hb
            have hstored : (s.modify a (·.store f)).timerState a =
                (s.timerState a).map f.timerState := PfcState.timerState_store.trans (if_pos rfl)
            exact hstored ▸ hq _ _ hphase
  | _ => cases hact

/-- A removed alarm. -/
theorem PfcWork.altAlarmStop (h : PfcWork i own (some a) q s)
    (hact : s.act (.altAlarmStop a) w = some s') (hq : ∀ ts armed, q ts armed → ts.isSome) :
    PfcWork i own (some a) Removed s' := by
  cases w with
  | none =>
      obtain rfl := Option.some.inj hact
      refine h.change rfl (fun _ _ => rfl) ?_ (h.nodup.erase a)
        (fun b hb hp => h.own_of_armed (List.mem_of_mem_erase hb) hp) ?_ ?_
      · intro b hb
        exact List.mem_erase_of_ne fun heq => hb (congrArg some heq.symm)
      · intro hne
        exact h.rate fun hnil => hne (by simp [hnil])
      · intro b hb hphase
        obtain rfl := Option.some.inj hb
        exact ⟨hq _ _ hphase, h.nodup.not_mem_erase⟩
  | _ => cases hact

/-- An alarm that is inserted, or not. -/
theorem PfcWork.altAlarmStart (h : PfcWork i (some a) (some a) Stopped s)
    (hact : s.act (.altAlarmStart a) w = some s') :
    PfcWork i (some a) (some a) (if w.toStarted then Inserted else Stopped) s' := by
  cases w with
  | started ok =>
      obtain ⟨hok, hact⟩ := Option.ite_none_right_eq_some.mp hact
      cases ok with
      | false =>
          obtain rfl := Option.some.inj hact
          exact h
      | true =>
          obtain rfl := Option.some.inj hact
          have hrate : s.tickRate ≠ 0 := of_decide_eq_true hok.symm
          obtain ⟨st, hst, -, hnot⟩ := h.phase a rfl
          have hsame : s.Same (s.modify a fun m =>
              { m with timer := Muxponder.altAlarmStart s.tickRate s.nticks }) :=
            PfcState.same_modify fun _ => rfl
          have hts := hsame.timerState
          refine h.change rfl (fun b _ => hts b) ?_ (List.nodup_cons.mpr ⟨hnot, h.nodup⟩)
            (fun b _ hp => hp) (fun _ => hrate) ?_
          · intro b hb
            exact List.mem_cons.trans (or_iff_right fun heq => hb (congrArg some heq.symm))
          · intro b hb _
            obtain rfl := Option.some.inj hb
            have hsome : (s.timerState a).isSome := by rw [hst]; rfl
            exact ⟨(hts a).symm ▸ hsome, List.mem_cons_self⟩
  | _ => cases hact

/-- A module that is freed. -/
theorem PfcWork.free (h : PfcWork i (some a) (some a) Stopped s)
    (hact : s.act (.free a) w = some s') : PfcWork i (some a) (some a) Freed s' := by
  cases w with
  | none =>
      obtain rfl := Option.some.inj hact
      obtain ⟨-, -, -, hnot⟩ := h.phase a rfl
      refine h.change rfl ?_ (fun _ _ => Iff.rfl) h.nodup (fun b _ hp => hp) h.rate ?_
      · intro b hb
        have hne : b ≠ a := fun heq => hb (congrArg some heq.symm)
        simp only [PfcState.timerState, Function.update_of_ne hne]
      · intro b hb _
        obtain rfl := Option.some.inj hb
        exact ⟨by simp [PfcState.timerState], hnot⟩
  | _ => cases hact

/-- A module that is allocated, or not. -/
theorem PfcWork.malloc (h : PfcWork i none none q s) (hact : s.act .malloc w = some s') :
    PfcWork i none w.toPtr Allocated s' := by
  cases w with
  | block b =>
      cases b with
      | none =>
          obtain rfl := Option.some.inj hact
          exact { h with phase := fun a ha => by cases ha }
      | some x =>
          obtain ⟨a, m⟩ := x
          obtain ⟨hfree, hact⟩ := Option.ite_none_right_eq_some.mp hact
          obtain rfl := Option.some.inj hact
          have hfreed : s.timerState a = none := by rw [PfcState.timerState, hfree]; rfl
          have hother : ∀ j, j ≠ i → s.pfc j ≠ some a := by
            intro j hj hja
            obtain ⟨st, hst, -⟩ := h.owned j (fun heq => hj (Option.some.inj heq).symm) a hja
            rw [hfreed] at hst
            cases hst
          refine ⟨⟨?_, h.distinct, h.nodup, h.armed, h.rate⟩, h.pfc, ?_, ?_⟩
          · intro j hj b hb
            have hne : b ≠ a := by
              rintro rfl
              exact hother j (fun heq => hj (heq ▸ rfl)) hb
            simp only [PfcState.timerState, Function.update_of_ne hne]
            exact h.owned j hj b hb
          · intro b hb j hj
            obtain rfl : a = b := Option.some.inj hb
            exact hother j hj
          · intro b hb
            obtain rfl : a = b := Option.some.inj hb
            simp [Allocated, PfcState.timerState]
  | _ => cases hact

/-- A pointer that is written. -/
theorem PfcWork.write {r : Option PfcAddr} (h : PfcWork i own p q s)
    (hact : s.act (.writePfc i r) w = some s') (hunarmed : ∀ b ∈ s.alarms, own ≠ some b)
    (hmine : ∀ a, r = some a → ∀ j, j ≠ i → s.pfc j ≠ some a)
    (hphase : ∀ a, r = some a → q' (s.timerState a) (a ∈ s.alarms)) : PfcWork i r r q' s' := by
  cases w with
  | none =>
      obtain rfl := Option.some.inj hact
      refine ⟨⟨?_, ?_, h.nodup, ?_, h.rate⟩, Function.update_self .., ?_, hphase⟩
      · intro j hj b hb
        have hne : j ≠ i := fun heq => hj (heq ▸ rfl)
        exact h.owned j hj b ((Function.update_of_ne hne ..).symm.trans hb)
      · intro j k b hj hk
        simp only [Function.update_apply] at hj hk
        split at hj
        next hji =>
          split at hk
          next hki => rw [hji, hki]
          next hki => exact absurd hk (hmine b hj k hki)
        next hji =>
          split at hk
          next hki => exact absurd hj (hmine b hk j hji)
          next hki => exact h.distinct j k b hj hk
      · intro b hb
        obtain ⟨j, hj⟩ := h.armed b hb
        have hne : j ≠ i := by
          rintro rfl
          exact hunarmed b hb (h.pfc.symm.trans hj)
        exact ⟨j, (Function.update_of_ne hne ..).trans hj⟩
      · intro a ha j hj hja
        exact hmine a ha j hj ((Function.update_of_ne hj ..).symm.trans hja)
  | _ => cases hact

/-- A module that is handed to its port. -/
theorem PfcWork.publish (h : PfcWork i none p Initialised s)
    (hact : s.act (.writePfc i p) w = some s') : PfcWork i p p Resting s' := by
  refine h.write hact (fun _ _ => by simp) h.mine ?_
  intro a ha
  refine ⟨_, h.phase a ha, iff_of_false ?_ (by decide)⟩
  intro hmem
  cases h.own_of_armed hmem ha

/-- A pointer that is cleared. -/
theorem PfcWork.clear (h : PfcWork i (some a) (some a) Freed s)
    (hact : s.act (.writePfc i none) w = some s') : PfcWork i none none Resting s' := by
  refine h.write hact ?_ (fun b hb => by cases hb) (fun b hb => by cases hb)
  rintro b hb hab
  obtain rfl : a = b := Option.some.inj hab
  exact (h.phase a rfl).2 hb

/-! ### The programs -/

/-- A piece of the task from one assertion about the state to another, with everything in order
in front of each of its operations. -/
abbrev PfcTriple {α : Type} (A : PfcState → Prop) (prog : PfcProg α)
    (Q : α → PfcState → Prop) : Prop :=
  Triple pfcSystem anyPfcEvent (fun next _ s => PfcOrder next s) (fun _ s => A s) prog
    fun x _ s => Q x s

/-- An operation of the work on a port. -/
theorem pfcTriple_op {Q : PfcAns → PfcState → Prop} (hof : o.Of i p)
    (huses : ∀ ts armed, q ts armed → o.uses.isSome → ts.isSome)
    (hown : ∀ a, own = some a → p = some a ∧ ∀ ts armed, q ts armed → Shows i a o ts armed)
    (hact : ∀ s w s', PfcWork i own p q s → s.act o w = some s' → Q w s') :
    PfcTriple (PfcWork i own p q) (Prog.op () o) Q :=
  Triple.op PfcWork.stable (fun _ _ h => h.order hof huses hown)
    fun _ s w s' h _ hs => hact s w s' h hs

/-- One without an answer. -/
theorem pfcTriple_do {A : PfcState → Prop} {Q : PfcState → Prop}
    (h : PfcTriple A (Prog.op () o) fun _ => Q) : PfcTriple A (pfcDo o) fun _ => Q :=
  h.bind fun _ => Triple.pure fun _ _ hQ => hQ

/-- A store into the module of a port. -/
theorem store_owned (hq : ∀ ts armed, q ts armed → ∃ st, ts = some st ∧
      q' (some (f.timerState st)) armed ∧ (armed ↔ f.timerState st = PFC_TIMER_RUNNING)) :
    PfcTriple (PfcWork i p p q) (pfcDo (.store p f)) fun _ => PfcWork i p p q' := by
  refine pfcTriple_do (pfcTriple_op ⟨fun _ _ h => (by cases h), fun _ h => h⟩ ?_ ?_ ?_)
  · intro ts armed h _
    obtain ⟨st, rfl, -⟩ := hq ts armed h
    rfl
  · intro a ha
    refine ⟨ha, ?_⟩
    intro ts armed h
    obtain ⟨st, hts, -, harmed⟩ := hq ts armed h
    refine .inr ⟨st, hts, ?_, by simp⟩
    rw [ha, PfcOp.storedState, if_pos rfl]
    exact harmed
  · intro s w s' h hact
    refine h.store hact ?_
    intro ts armed h
    obtain ⟨st, rfl, hq', -⟩ := hq ts armed h
    exact hq'

/-- A store into a module that has not been handed to its port. -/
theorem store_new (hq : ∀ ts armed, q ts armed → ∃ st, ts = some st ∧
      q' (some (f.timerState st)) armed) :
    PfcTriple (PfcWork i none p q) (pfcDo (.store p f)) fun _ => PfcWork i none p q' := by
  refine pfcTriple_do (pfcTriple_op ⟨fun _ _ h => (by cases h), fun _ h => h⟩ ?_ ?_ ?_)
  · intro ts armed h _
    obtain ⟨st, rfl, -⟩ := hq ts armed h
    rfl
  · intro a ha
    cases ha
  · intro s w s' h hact
    refine h.store hact ?_
    intro ts armed h
    obtain ⟨st, rfl, hq'⟩ := hq ts armed h
    exact hq'

/-- An operation that leaves a resting module alone. -/
theorem rest_op (hof : o.Of i p) (ho : o ≠ .writePfc i none)
    (hstored : ∀ a st, o.storedState a st = st)
    (hact : ∀ (s s' : PfcState) w, s.act o w = some s' → s' = s) :
    PfcTriple (PfcWork i p p Resting) (Prog.op () o) fun _ => PfcWork i p p Resting := by
  refine pfcTriple_op hof ?_ ?_ ?_
  · intro ts armed ⟨st, hts, _⟩ _
    simp [hts]
  · intro a ha
    refine ⟨ha, ?_⟩
    intro ts armed ⟨st, hts, harmed⟩
    refine .inr ⟨st, hts, ?_, ho⟩
    rw [hstored]
    exact harmed
  · intro s w s' h hs
    rw [hact s s' w hs]
    exact h

/-- A store that leaves the timer state of a resting module alone. -/
theorem store_rest (hf : ∀ st, f.timerState st = st) :
    PfcTriple (PfcWork i p p Resting) (pfcDo (.store p f)) fun _ => PfcWork i p p Resting := by
  refine store_owned ?_
  intro ts armed ⟨st, hts, harmed⟩
  rw [← hf st] at harmed
  exact ⟨st, hts, ⟨_, rfl, harmed⟩, harmed⟩

/-- One into a new module. -/
theorem store_allocated : PfcTriple (PfcWork i none p Allocated) (pfcDo (.store p f))
    fun _ => PfcWork i none p Allocated := by
  refine store_new ?_
  intro ts armed hts
  obtain ⟨st, rfl⟩ := Option.isSome_iff_exists.mp hts
  exact ⟨st, rfl, rfl⟩

/-- The pointer of a port is read. -/
theorem readPfc_owned (hq : ∀ ts armed, q ts armed → Resting ts armed) :
    PfcTriple (PfcWork i p p q) (readPfc i) fun r s => r = p ∧ PfcWork i p p q s := by
  have hop : PfcTriple (PfcWork i p p q) (Prog.op () (.readPfc i))
      fun w s => w.toPtr = p ∧ PfcWork i p p q s := by
    refine pfcTriple_op ⟨fun _ _ h => (by cases h), fun _ h => (by cases h)⟩ ?_ ?_ ?_
    · intro ts armed _ h
      cases h
    · intro a ha
      refine ⟨ha, ?_⟩
      intro ts armed h
      obtain ⟨st, hts, harmed⟩ := hq ts armed h
      exact .inr ⟨st, hts, harmed, by simp⟩
    · intro s w s' h hact
      cases w with
      | ptr r =>
          obtain ⟨hr, hs⟩ := Option.ite_none_right_eq_some.mp hact
          obtain rfl := Option.some.inj hs
          exact ⟨hr.trans h.pfc, h⟩
      | _ => cases hact
  exact hop.bind fun w => Triple.pure fun _ _ h => h

/-- So it is where it is not known which module a port has. -/
theorem readPfc_ports :
    PfcTriple (PfcPorts none) (readPfc i) fun r s => PfcWork i r r Resting s := by
  intro h s hports
  refine (readPfc_owned (fun _ _ h => h) h s (pfcPorts_iff.mp hports)).mono ?_
  rintro r h s ⟨rfl, hwork⟩
  exact hwork

/-- **A module is stopped.** -/
theorem stopModule_triple : PfcTriple (PfcWork i (some a) (some a) Resting) (stopModule a)
    fun _ => PfcWork i (some a) (some a) Stopped := by
  have hread : PfcTriple (PfcWork i (some a) (some a) Resting) (Prog.op () (.readState a))
      fun w => PfcWork i (some a) (some a)
        fun ts armed => Resting ts armed ∧ ts = some w.toState := by
    refine pfcTriple_op ⟨fun _ _ h => (by cases h), fun _ h => h⟩ ?_ ?_ ?_
    · intro ts armed ⟨st, hts, _⟩ _
      simp [hts]
    · intro b hb
      exact ⟨hb, fun ts armed ⟨st, hts, harmed⟩ => .inr ⟨st, hts, harmed, by simp⟩⟩
    · intro s w s' h hact
      cases w with
      | state z =>
          obtain ⟨hz, hs⟩ := Option.ite_none_right_eq_some.mp hact
          obtain rfl := Option.some.inj hs
          refine { h with phase := ?_ }
          intro b hb
          obtain rfl := Option.some.inj hb
          refine ⟨h.phase a rfl, ?_⟩
          obtain ⟨st, hst, -⟩ := h.phase a rfl
          obtain ⟨m, hm, rfl⟩ := Option.map_eq_some_iff.mp hst
          rw [hst]
          exact congrArg some (hz m hm).symm
      | _ => cases hact
  refine hread.bind fun w => Triple.ite ?_ ?_
  · intro hrunning
    refine Triple.bind (Q := fun _ _ s => PfcWork i (some a) (some a) Removed s) ?_ fun _ => ?_
    · refine pfcTriple_do (pfcTriple_op ⟨fun _ _ h => (by cases h), fun _ h => h⟩ ?_ ?_ ?_)
      · intro ts armed ⟨_, hts⟩ _
        simp [hts]
      · intro b hb
        exact ⟨hb, fun ts armed ⟨⟨st, hts, harmed⟩, _⟩ => .inr ⟨st, hts, harmed, by simp⟩⟩
      · intro s w s' h hact
        refine h.altAlarmStop hact ?_
        intro ts armed ⟨_, hts⟩
        simp [hts]
    · refine store_owned ?_
      intro ts armed ⟨hts, harmed⟩
      obtain ⟨st, rfl⟩ := Option.isSome_iff_exists.mp hts
      have hidle : PFC_TIMER_IDLE ≠ PFC_TIMER_RUNNING := by decide
      exact ⟨st, rfl, ⟨_, rfl, hidle, harmed⟩, iff_of_false harmed hidle⟩
  · intro hidle
    refine Triple.pure ?_
    intro h s hwork
    refine hwork.mono ?_
    rintro ts armed ⟨⟨st, rfl, harmed⟩, hst⟩
    have hne : st ≠ PFC_TIMER_RUNNING := (Option.some.inj hst) ▸ hidle
    exact ⟨st, rfl, hne, fun h => hne (harmed.mp h)⟩

/-- **A module is started**, or its alarm cannot be. -/
theorem startModule_triple : PfcTriple (PfcWork i (some a) (some a) Resting) (startModule a)
    fun _ => PfcWork i (some a) (some a) Resting := by
  have hstart : PfcTriple (PfcWork i (some a) (some a) Stopped) (Prog.op () (.altAlarmStart a))
      fun w => PfcWork i (some a) (some a) (if w.toStarted then Inserted else Stopped) := by
    refine pfcTriple_op ⟨fun _ _ h => (by cases h), fun _ h => h⟩ ?_ ?_ ?_
    · intro ts armed ⟨st, hts, _⟩ _
      simp [hts]
    · intro b hb
      refine ⟨hb, ?_⟩
      intro ts armed h
      obtain ⟨st, hts, harmed⟩ := h.resting
      exact .inr ⟨st, hts, harmed, by simp⟩
    · exact fun s w s' h hact => h.altAlarmStart hact
  refine stopModule_triple.bind fun _ => hstart.bind fun w => Triple.ite ?_ ?_
  · intro hok
    simp only [if_pos hok]
    refine Triple.bind (Q := fun _ _ s => PfcWork i (some a) (some a) Resting s) ?_ fun _ => ?_
    · refine store_owned ?_
      intro ts armed ⟨hts, harmed⟩
      obtain ⟨st, rfl⟩ := Option.isSome_iff_exists.mp hts
      exact ⟨st, rfl, ⟨_, rfl, iff_of_true harmed rfl⟩, iff_of_true harmed rfl⟩
    · exact (store_rest fun _ => rfl).bind fun _ => Triple.pure fun _ _ h => h
  · intro hfail
    simp only [if_neg hfail]
    exact Triple.pure fun _ _ h => h.mono fun _ _ h => h.resting

/-- **The period of a module is changed**, or not. -/
theorem setModulePeriod_triple (period : UInt32) :
    PfcTriple (PfcWork i (some a) (some a) Resting) (setModulePeriod period a)
      fun _ => PfcWork i (some a) (some a) Resting := by
  have hread : PfcTriple (PfcWork i (some a) (some a) Resting) (Prog.op () (.readMonitorPeriod a))
      fun _ => PfcWork i (some a) (some a) Resting := by
    refine rest_op ⟨fun _ _ h => (by cases h), fun _ h => h⟩ (by simp) (fun _ _ => rfl) ?_
    intro s s' w hact
    cases w with
    | word v => exact (Option.some.inj (Option.ite_none_right_eq_some.mp hact).2).symm
    | _ => cases hact
  have hstop : PfcTriple (PfcWork i (some a) (some a) Resting) (stopModule a)
      fun _ => PfcWork i (some a) (some a) Resting :=
    stopModule_triple.conseq (fun _ _ h => h) fun _ _ _ h => h.mono fun _ _ h => h.resting
  refine hstop.bind fun _ => hread.bind fun w => ?_
  refine (store_rest fun _ => rfl).bind fun _ => startModule_triple.bind fun ok => ?_
  exact Triple.ite (fun _ => store_rest fun _ => rfl) fun _ => Triple.pure fun _ _ h => h

/-- A function that is given the pointer of a port, which may be null. -/
theorem elim_triple {α : Type} {g : PfcProg α} {prog : PfcAddr → PfcProg α}
    {Q : α → PfcState → Prop} (hnone : PfcTriple (PfcWork i none none q) g Q)
    (hsome : ∀ a, PfcTriple (PfcWork i (some a) (some a) q) (prog a) Q) :
    PfcTriple (PfcWork i p p q) (p.elim g prog) Q := by
  cases p with
  | none => exact hnone
  | some a => exact hsome a

/-- `start_pfc_monitoring` -/
theorem startPfcMonitoring_triple : PfcTriple (PfcWork i p p Resting) (startPfcMonitoring p)
    fun _ => PfcPorts none :=
  elim_triple (Triple.pure fun _ _ h => h.ports) fun _ =>
    startModule_triple.conseq (fun _ _ h => h) fun _ _ _ h => h.ports

/-- The base of the registers. -/
theorem pfcBase_triple : PfcTriple (PfcWork i none none Resting) (pfcBase i)
    fun _ => PfcWork i none none Resting := by
  refine Triple.ite (fun _ => Triple.pure fun _ _ h => h) fun _ => ?_
  refine Triple.ite (fun _ => Triple.pure fun _ _ h => h) fun _ => ?_
  refine Triple.bind (rest_op ⟨fun _ _ h => (by cases h), fun _ h => (by cases h)⟩ (by simp)
    (fun _ _ => rfl) ?_) fun _ => Triple.pure fun _ _ h => h
  intro s s' w hact
  cases w with
  | word v => exact (Option.some.inj hact).symm
  | _ => cases hact

/-- The registers of a new module are reset. -/
theorem pulse_allocated : PfcTriple (PfcWork i none p Allocated) (pfcDo (.pulseEop p))
    fun _ => PfcWork i none p Allocated := by
  refine pfcTriple_do (pfcTriple_op ⟨fun _ _ h => (by cases h), fun _ h => h⟩ ?_ ?_ ?_)
  · intro ts armed hts _
    exact hts
  · intro a ha
    cases ha
  · intro s w s' h hact
    cases w with
    | none =>
        obtain rfl := Option.some.inj hact
        exact h
    | _ => cases hact

/-- **A new module is initialised.** -/
theorem initPfcModule_triple (base : UInt32) : PfcTriple (PfcWork i none p Allocated)
    (initPfcModule p base) fun _ => PfcWork i none p Initialised := by
  have hreset : PfcTriple (PfcWork i none p Allocated) (resetPfcStatistics p)
      fun _ => PfcWork i none p Allocated := by
    refine store_allocated.bind fun _ => store_allocated.bind fun _ => ?_
    exact store_allocated.bind fun _ => store_allocated.bind fun _ => pulse_allocated
  refine store_allocated.bind fun _ => store_allocated.bind fun _ => hreset.bind fun _ => ?_
  refine store_allocated.bind fun _ => ?_
  refine Triple.bind (Q := fun _ _ s => PfcWork i none p Initialised s) ?_ fun _ => ?_
  · refine store_new ?_
    intro ts armed hts
    obtain ⟨st, rfl⟩ := Option.isSome_iff_exists.mp hts
    exact ⟨st, rfl, rfl⟩
  · refine store_new ?_
    intro ts armed hts
    exact ⟨_, hts, rfl⟩

/-- `init_pfc_data` -/
theorem initPfcData_triple (base : UInt32) : PfcTriple (PfcWork i none none Resting)
    (initPfcData base) fun r => PfcWork i none r Initialised := by
  have hmalloc : PfcTriple (PfcWork i none none Resting) (Prog.op () .malloc)
      fun w => PfcWork i none w.toPtr Allocated :=
    pfcTriple_op ⟨fun _ _ h => (by cases h), fun _ h => (by cases h)⟩ (fun _ _ _ h => (by cases h))
      (fun _ h => (by cases h)) fun s w s' h hact => h.malloc hact
  exact hmalloc.bind fun w => (initPfcModule_triple base).bind fun _ => Triple.pure fun _ _ h => h

/-- **A module is created**, if the port has none, and started. -/
theorem createPfcModule_triple :
    PfcTriple (PfcPorts none) (createPfcModule i) fun _ => PfcPorts none := by
  have hwrite : ∀ r, PfcTriple (PfcWork i none r Initialised) (pfcDo (.writePfc i r))
      fun _ => PfcPorts none := by
    intro r
    refine pfcTriple_do (pfcTriple_op ⟨fun _ _ h => ?_, fun _ h => (by cases h)⟩
      (fun _ _ _ h => (by cases h)) (fun _ h => (by cases h))
      fun s w s' h hact => (h.publish hact).ports)
    obtain ⟨rfl, -⟩ := PfcOp.writePfc.inj h
    rfl
  have hrest : PfcTriple (PfcPorts none) (do
      let p ← readPfc i
      pfcDo (.store p (.index (UInt32.ofNat i)))
      let _ ← startPfcMonitoring (← readPfc i)) fun _ => PfcPorts none := by
    refine readPfc_ports.bind fun p => (store_rest fun _ => rfl).bind fun _ => ?_
    refine (readPfc_owned fun _ _ h => h).bind fun r => ?_
    rintro h s ⟨rfl, hwork⟩
    exact (startPfcMonitoring_triple.bind fun _ => Triple.pure fun _ _ h => h) h s hwork
  refine readPfc_ports.bind fun r => Triple.ite ?_ ?_
  · rintro rfl
    refine pfcBase_triple.bind fun base => (initPfcData_triple base).bind fun r => ?_
    exact (hwrite r).bind fun _ => hrest
  · intro _
    exact hrest.conseq (fun _ _ h => h.ports) fun _ _ _ h => h

/-- **A module is destroyed**, if the port has one. -/
theorem destroyPfcModule_triple :
    PfcTriple (PfcPorts none) (destroyPfcModule i) fun _ => PfcPorts none := by
  have hclear : ∀ a, PfcTriple (PfcWork i (some a) (some a) Freed) (pfcDo (.writePfc i none))
      fun _ => PfcPorts none := by
    intro a
    refine pfcTriple_do (pfcTriple_op ⟨fun _ _ h => ?_, fun _ h => (by cases h)⟩
      (fun _ _ _ h => (by cases h)) (fun b hb => ⟨hb, fun _ _ hfreed => .inl ⟨hfreed, rfl⟩⟩)
      fun s w s' h hact => (h.clear hact).ports)
    obtain ⟨rfl, -⟩ := PfcOp.writePfc.inj h
    rfl
  have hfree : ∀ a, PfcTriple (PfcWork i (some a) (some a) Stopped) (pfcDo (.free a))
      fun _ => PfcWork i (some a) (some a) Freed := by
    intro a
    refine pfcTriple_do (pfcTriple_op ⟨fun _ _ h => (by cases h), fun _ h => h⟩ ?_ ?_
      fun s w s' h hact => h.free hact)
    · intro ts armed ⟨st, hts, _⟩ _
      simp [hts]
    · intro b hb
      refine ⟨hb, ?_⟩
      intro ts armed h
      obtain ⟨st, hts, harmed⟩ := h.resting
      exact .inr ⟨st, hts, harmed, by simp⟩
  refine readPfc_ports.bind fun r => Triple.ite ?_ ?_
  · intro hr
    obtain ⟨a, rfl⟩ := Option.ne_none_iff_exists'.mp hr
    refine (readPfc_owned fun _ _ h => h).bind fun r => ?_
    rintro h s ⟨rfl, hwork⟩
    refine Triple.bind stopModule_triple (fun _ => ?_) h s hwork
    refine (readPfc_owned fun _ _ h => h.resting).bind fun r => ?_
    rintro h s ⟨rfl, hwork⟩
    exact (hfree a).bind (fun _ => hclear a) h s hwork
  · intro _
    exact Triple.pure fun _ _ h => h.ports

/-- **Every command** leaves modules as they should be. -/
theorem pfcMain_triple (c : PfcCommand) :
    PfcTriple (PfcPorts none) (pfcMain c) fun _ => PfcPorts none := by
  cases c with
  | create i => exact createPfcModule_triple
  | destroy i => exact destroyPfcModule_triple
  | start i =>
      exact readPfc_ports.bind fun p =>
        startPfcMonitoring_triple.bind fun _ => Triple.pure fun _ _ h => h
  | stop i =>
      refine readPfc_ports.bind fun p => elim_triple (Triple.pure fun _ _ h => h.ports) fun a => ?_
      refine stopModule_triple.conseq (fun _ _ h => h) ?_
      intro _ _ _ h
      exact (h.mono fun _ _ h => h.resting).ports
  | setPeriod i period =>
      refine readPfc_ports.bind fun p => elim_triple (Triple.pure fun _ _ h => h.ports) fun a => ?_
      exact (setModulePeriod_triple period).conseq (fun _ _ h => h) fun _ _ _ h => h.ports

/-! ### Runs -/

variable {tickRate nticks : UInt32} {h : PfcHistory} {z : PfcState × PfcProg Unit}

/-- **In front of every operation** of every run the alarms are in order, and the operation
accesses no freed module. -/
theorem pfcOrder_run (hr : pfcMachine.Run (pfcInit tickRate nticks, .done ()) h z) :
    PfcOrder z.2.head z.1 := by
  have hinit : PfcPorts none (pfcInit tickRate nticks) := by
    refine ⟨?_, ?_, List.nodup_nil, ?_, fun h => absurd rfl h⟩
    · intro j _ b hb
      cases hb
    · intro j k b hj
      cases hj
    · intro b hb
      cases hb
  refine Triple.sound (S := pfcSystem) (C := anyPfcEvent) (P := fun next _ s => PfcOrder next s)
    (I := fun _ s => PfcPorts none s) (R := fun _ _ s => PfcPorts none s) pfcMain_triple
    (fun _ _ _ h _ => h) ?_ (fun _ _ h => h.order) hinit hr fun _ _ _ _ _ _ _ => trivial
  intro h s e s' x hports _ hint
  obtain ⟨rfl, -⟩ := Prod.mk.inj (Option.some.inj hint)
  exact hports.same (PfcState.interrupt_same e hports.rate)

/-- A module that is there. -/
theorem PfcState.isSome_timerState : (s.timerState a).isSome ↔ ∃ m, s.heap a = some m := by
  rw [PfcState.timerState, Option.isSome_map, Option.isSome_iff_exists]

/-- What a read meets. -/
theorem PfcState.kursRead_freed {c : PfcCount} :
    s.kursRead i c = .freed ↔ ∃ a, s.pfc i = some a ∧ ¬ (s.timerState a).isSome := by
  rw [PfcState.kursRead]
  cases hpfc : s.pfc i with
  | none => simp
  | some a => cases hheap : s.heap a <;> simp [hheap, PfcState.timerState]

/-- **The life of the modules** is sound in exactly the runs in which no read comes between `free`
and the clearing of the pointer. -/
theorem pfcSound_iff (hr : pfcMachine.Run (pfcInit tickRate nticks, .done ()) h z) :
    PfcSound h z.2.head z.1 ↔
      pfcSystem.Meets pfcMain (pfcInit tickRate nticks) PfcUndisturbed h := by
  constructor
  · rintro hsound h₁ e x h₂ z₁ rfl hr₁ i c rfl hnext
    obtain ⟨z₁', y, hr₁', hy, rfl⟩ := System.run_interrupt hr
    obtain rfl := hr₁'.det hr₁
    obtain rfl := Option.some.inj hy
    by_contra hpfc
    obtain ⟨a, ha⟩ := Option.ne_none_iff_exists'.mp hpfc
    have hfreed : ¬ (z₁'.1.timerState a).isSome := by
      rw [(pfcOrder_run hr₁).reads i a ha]
      exact fun hne => hne hnext
    refine hsound.reads i c ?_
    have hread : (z₁'.1.interrupt (.kursRead i c)).2 = .freed :=
      PfcState.kursRead_freed.mpr ⟨a, ha, hfreed⟩
    rw [hread]
    exact List.mem_append_right _ List.mem_cons_self
  · intro hmeets
    have horder := pfcOrder_run hr
    refine ⟨horder.nodup, ?_, ?_, ?_, ?_⟩
    · intro i a m ha hm
      refine horder.armed i a m.state ha ?_
      rw [PfcState.timerState, hm]
      rfl
    · intro a ha
      obtain ⟨i, hi, hsome⟩ := horder.live a ha
      obtain ⟨m, hm⟩ := PfcState.isSome_timerState.mp hsome
      exact ⟨i, m, hi, hm⟩
    · intro regs as hmem
      obtain ⟨h₁, h₂, rfl⟩ := List.append_of_mem hmem
      obtain ⟨z₁, y, hr₁, hy, hx⟩ := System.run_interrupt hr
      obtain rfl := Option.some.inj hy
      have has : as = z₁.1.alarms.filter fun a => (z₁.1.heap a).isNone :=
        PfcSeen.ticked.inj (Output.interrupted.inj hx)
      rw [has, List.filter_eq_nil_iff]
      intro a ha
      obtain ⟨i, hi, hsome⟩ := (pfcOrder_run hr₁).live a ha
      obtain ⟨m, hm⟩ := PfcState.isSome_timerState.mp hsome
      simp [hm]
    · intro i c hmem
      obtain ⟨h₁, h₂, rfl⟩ := List.append_of_mem hmem
      obtain ⟨z₁, y, hr₁, hy, hx⟩ := System.run_interrupt hr
      obtain rfl := Option.some.inj hy
      obtain ⟨a, ha, hfreed⟩ := PfcState.kursRead_freed.mp (Output.interrupted.inj hx).symm
      have hnext : z₁.2.head = some ((), .writePfc i none) := by
        by_contra hne
        exact hfreed (((pfcOrder_run hr₁).reads i a ha).mpr hne)
      have hnone := hmeets h₁ _ _ h₂ z₁ rfl hr₁ i c rfl hnext
      rw [ha] at hnone
      cases hnone

/-- What `malloc` has found in a block. -/
def strayModule : PerformanceCounters :=
  ⟨7, 7, 7, 7, 7, 7, 7, 1, ⟨7, false⟩, 7, 7⟩

/-- The module of client 0 is created and its alarm started. -/
def createEvents : List (Event PfcCommand PfcInterrupt PfcAns) :=
  .start (.create 0) :: .task (.ptr none) :: .task (.block (some (4, strayModule))) ::
    (List.replicate 11 (.task .none) ++ [.task (.ptr (some 4)), .task .none,
      .task (.ptr (some 4)), .task (.state 0), .task (.started true), .task .none, .task .none])

/-- It is destroyed, as far as the clearing of the pointer. -/
def destroyEvents : List (Event PfcCommand PfcInterrupt PfcAns) :=
  [.start (.destroy 0), .task (.ptr (some 4)), .task (.ptr (some 4)), .task (.state 1),
    .task .none, .task .none, .task (.ptr (some 4)), .task .none]

/-- So it is in a run in which a module is created, read and freed. -/
theorem pfcSound_iff_lifecycle : ∃ h z, pfcMachine.Run (pfcInit 1000 0, .done ()) h z ∧
    h.map Prod.fst = createEvents ++ [.interrupt (.kursRead 0 .es)] ++ destroyEvents ∧
      (PfcSound h z.2.head z.1 ↔ pfcSystem.Meets pfcMain (pfcInit 1000 0) PfcUndisturbed h) := by
  have hexec : pfcMachine.exec (pfcInit 1000 0, .done ())
      (createEvents ++ [.interrupt (.kursRead 0 .es)] ++ destroyEvents) = some (_, _) := rfl
  obtain ⟨h, hr, hfst, -⟩ := Machine.exec_eq_some_iff.mp hexec
  exact ⟨h, _, hr, hfst, pfcSound_iff hr⟩

/-- A read behind `free` goes through the pointer to the freed module. -/
theorem freed_module_read : ∃ h z, pfcMachine.Run (pfcInit 1000 0, .done ()) h z ∧
    h.map Prod.fst = createEvents ++ destroyEvents ++ [.interrupt (.kursRead 0 .es)] ∧
      ¬ PfcSound h z.2.head z.1 := by
  have hexec : pfcMachine.exec (pfcInit 1000 0, .done ())
      (createEvents ++ destroyEvents ++ [.interrupt (.kursRead 0 .es)]) = some (_, _) := rfl
  obtain ⟨h, hr, hfst, hsnd⟩ := Machine.exec_eq_some_iff.mp hexec
  refine ⟨h, _, hr, hfst, fun hsound => hsound.reads 0 .es ?_⟩
  rw [← Machine.zip_inputs h, hfst, hsnd]
  exact List.mem_of_getLast? rfl

end Muxponder
