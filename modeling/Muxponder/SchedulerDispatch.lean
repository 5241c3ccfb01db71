import Muxponder.SchedulerClocks
import Muxponder.SchedulerMemory

/-!
# The Dispatch of Tasks

One call of `scheduler()` from end to end. The first scan is for the tasks of high priority, the
second for those of normal priority and the fourth for those of low priority, so a task that is
due at the beginning is ahead of the walk until it is run: the scan for its priority is still to
come, or it stands on the part of the list that this scan has not met yet. The invariant says
this of every task and place.

## Main results

* `scheduler_dispatches`: a call that leaves the list of tasks alone comes to its end and runs
  every task that is due at its beginning, those of high priority first; and two runs of a task
  are its period apart.
* `newPeriod_isWaitedFor`: a task that is given a period anew waits for it, however long ago it
  has been run.
-/

namespace Muxponder

open LinkedList Memory

/-- The first scan for a priority. -/
def TaskPriority.scan : TaskPriority → ℕ
  | .high => 0
  | .normal => 1
  | .low => 3

/-- The calls that change the list of tasks, or what is set of one. -/
def SchedulerCall.modifies : SchedulerCall → Bool
  | .create .. | .delete _ | .setPriority .. | .suspend _ | .resume .. | .setPeriodicTicks .. =>
      true
  | _ => false

/-- The events within one call of `scheduler()` that leave the tasks as they are set. -/
def SchedulerEvent.keepsCall : SchedulerEvent → Bool
  | .call _ c => !c.modifies
  | .leave _ => false
  | _ => true

/-- The steps of the walk. -/
def SchedulerEvent.isLook : SchedulerEvent → Bool
  | .look _ => true
  | _ => false

/-- The number of steps of the walk. -/
def LoopHistory.looks (h : LoopHistory) : ℕ := h.countP fun x => x.1.isLook

/-- When `scheduler()` has been left last: `ticks_snap` is zero at first. -/
def LoopHistory.lastLeave (h : LoopHistory) : ℕ :=
  h.foldl (fun t x => match x.1 with | .leave t => t | _ => t) 0

/-- What `scheduler()` does next by itself. -/
def SchedulerPlace.nextEvent (t : ℕ) : SchedulerPlace → SchedulerEvent
  | .outside => .enter t
  | .scanning .. => .look t
  | .running .. => .taskReturn t
  | .leaving => .leave t

/-- What is set of a task, apart from what `scheduler()` writes down when it runs it. -/
def TaskNode.settings (v : TaskNode) : TaskNode :=
  { v with nTicks := 0, eTicks := 0, sTaskMsg := 0 }

/-- What is set of the tasks of a list. -/
def settings (xs : Nodes TaskNode) : Nodes TaskNode := xs.map fun x => (x.1, x.2.settings)

/-- A task is not left alone for so long that the counter comes round: until it is run, its
clock says less than `2 ^ 32` ticks. -/
def NotLeft (p : UInt32) (cl : TaskClock) (body : LoopHistory) : Prop :=
  ∀ b₁ (t : ℕ) o b₂, body = b₁ ++ (.look t, o) :: b₂ → (∀ u, (.look u, .ran p) ∉ b₁) →
    t - cl.since < 2 ^ 32

/-- A task is run, and where its priority is high only tasks of high priority are run before. -/
def RunsInTime (xs : Nodes TaskNode) (p : UInt32) (v : TaskNode) (body : LoopHistory) : Prop :=
  ∃ b₁ t b₂, body = b₁ ++ (.look t, .ran p) :: b₂ ∧ (v.sPriority = .high →
    ∀ u q, (.look u, .ran q) ∈ b₁ → ∃ w, (q, w) ∈ xs ∧ w.sPriority = .high)

/-- **The law of one call** that begins with the tasks `xs` and their clocks `k` at `t₀` and has
come to the state `z`. -/
structure CallDispatches (beyond : Option TaskPriority) (k : TaskClocks) (xs : Nodes TaskNode)
    (t₀ : ℕ) (body : LoopHistory) (z : SchedulerState) : Prop where
  /-- Every task has a clock. -/
  clocks : ∀ p v, (p, v) ∈ xs → ∃ cl, k p = some cl ∧ cl.period = v.sTicks
  /-- The call comes to an end when the tasks return. -/
  bounded : body.looks ≤ 7 * (xs.length + 1)
  /-- It does not get stuck, unless in the messages of a task. -/
  goesOn : ∀ t, (∃ x, schedulerStep beyond z (z.place.nextEvent t) = .ok x) ∨
    schedulerStep beyond z (z.place.nextEvent t) = .error .messageFreed
  /-- At its end every task that was due at its beginning has been run. -/
  dispatched : z.place = .leaving → ∀ p v cl, (p, v) ∈ xs → v.active = true → v.sTask ≠ 0 →
    k p = some cl → (v.sTicks.toNat : ℤ) ≤ t₀ - cl.since → NotLeft p cl body →
    RunsInTime xs p v body

variable {s s' : Scheduler} {xs xs' xs₀ ls rs : Nodes TaskNode} {p q block : UInt32}
  {v v₀ w : TaskNode} {g : TaskNode → TaskNode} {c : SchedulerCall} {r : SchedulerAnswer}
  {z z' : SchedulerState} {e : SchedulerEvent} {o : SchedulerOutput}
  {beyond : Option TaskPriority} {k : TaskClocks} {b : LoopHistory} {t t₀ : ℕ} {cl : TaskClock}
  {as : List UInt32} {prio : TaskPriority}

/-! ### Settings -/

/-- The first scan for a priority is one for it. -/
theorem priorityAt_scan : priorityAt beyond prio.scan = some prio := by cases prio <;> rfl

/-- The scan for the high priority. -/
theorem priorityAt_zero : priorityAt beyond 0 = some .high := rfl

/-- What is set of a task. -/
theorem eq_of_settings (h : v.settings = w.settings) :
    v.active = w.active ∧ v.sPriority = w.sPriority ∧ v.sTicks = w.sTicks ∧ v.sTask = w.sTask := by
  obtain ⟨-, hactive, hprio, hticks, -, -, htask, -⟩ := TaskNode.mk.inj h
  exact ⟨hactive, hprio, hticks, htask⟩

@[simp] theorem addresses_settings : addresses (settings xs) = addresses xs := by
  rw [addresses, settings, List.map_map]
  rfl

/-- Lists with the same settings have the same addresses. -/
theorem addresses_eq_of_settings (hs : settings xs = settings xs₀) :
    addresses xs = addresses xs₀ := by
  rw [← addresses_settings, hs, addresses_settings]

/-- A task keeps its settings where the list does. -/
theorem exists_of_settings (hs : settings xs = settings xs₀) (hx : (p, v) ∈ xs) :
    ∃ v₀, (p, v₀) ∈ xs₀ ∧ v₀.settings = v.settings := by
  have hmem : (p, v.settings) ∈ settings xs₀ := hs ▸ List.mem_map.mpr ⟨(p, v), hx, rfl⟩
  obtain ⟨⟨q, v₀⟩, hx₀, heq⟩ := List.mem_map.mp hmem
  obtain ⟨rfl, hv⟩ := Prod.mk.inj heq
  exact ⟨v₀, hx₀, hv⟩

/-- There is one task at an address. -/
theorem value_unique (hn : (addresses xs).Nodup) (hv : (p, v) ∈ xs) (hw : (p, w) ∈ xs) :
    v = w :=
  congrArg Prod.snd (List.inj_on_of_nodup_map hn hv hw rfl)

/-- A change that keeps what is set of tasks keeps it for a list. -/
theorem settings_changeAt (hg : ∀ v, (g v).settings = v.settings) :
    settings (changeAt p g xs) = settings xs := by
  rw [settings, changeAt, List.map_map]
  refine List.map_congr_left fun x _ => ?_
  rw [Function.comp_apply]
  split
  · exact congrArg _ (hg x.2)
  · rfl

/-- What is not a modification keeps what is set of a task. -/
theorem ChangesTask.settings (hg : ChangesTask c g) (hc : c.modifies = false) (v : TaskNode) :
    (g v).settings = v.settings := by
  cases hg with
  | setPriority => cases hc
  | suspend => cases hc
  | resume => cases hc
  | setPeriodicTicks => cases hc
  | flushMsgs => rfl
  | dispatch => rfl
  | elapsed => rfl

/-- A task behind a change of another, or one that keeps its ticks. -/
theorem mem_changeAt (hx : (p, v) ∈ xs) (hg : p = q → (g v).nTicks = v.nTicks) :
    ∃ v', (p, v') ∈ changeAt q g xs ∧ v'.nTicks = v.nTicks := by
  refine ⟨if p = q then g v else v, List.mem_map.mpr ⟨(p, v), hx, ?_⟩, ?_⟩
  · split <;> rfl
  · split
    next h => exact hg h
    next => rfl

/-! ### The walk -/

/-- Where the walk is after `n` steps, if the nodes with the addresses `as` are still in front of
it in its scan. -/
def OnWalk (A : List UInt32) (n : ℕ) (as : List UInt32) : SchedulerPlace → Prop
  | .scanning i csTask => i ≤ PRIORITIES_CYCLE_LEN ∧ csTask = as.headD 0 ∧ as <:+ A ∧
      n + as.length = i * (A.length + 1) + A.length
  | .running i csTask => i ≤ PRIORITIES_CYCLE_LEN ∧ csTask :: as <:+ A ∧
      n + as.length = i * (A.length + 1) + A.length
  | .leaving => n = 7 * (A.length + 1)
  | .outside => False

/-- The walk has still to meet a task in a scan: the scan is to come, or the task is in front of
it. -/
def Ahead (idx : ℕ) (p : UInt32) (as : List UInt32) : SchedulerPlace → Prop
  | .scanning i _ | .running i _ => i < idx ∨ i = idx ∧ p ∈ as
  | .leaving | .outside => False

/-- **The invariant of a call**: the list has the addresses and the settings it had at the
beginning, and the walk is on it. -/
structure InCall (xs₀ : Nodes TaskNode) (n : ℕ) (z : SchedulerState) (xs : Nodes TaskNode)
    (as : List UInt32) : Prop where
  list : IsList z.vars.tasks z.vars.schedInfo xs
  same : settings xs = settings xs₀
  walk : OnWalk (addresses xs₀) n as z.place

/-- What a step means for a task that is ahead and is not run by it: it keeps its ticks, and is
ahead or has just been passed by. -/
def StaysAhead (z : SchedulerState) (e : SchedulerEvent) (o : SchedulerOutput)
    (xs : Nodes TaskNode) (as : List UInt32) (z' : SchedulerState) (xs' : Nodes TaskNode)
    (as' : List UInt32) : Prop :=
  ∀ p v (prio : TaskPriority), (p, v) ∈ xs → Ahead prio.scan p as z.place → o ≠ .ran p →
    (∃ v', (p, v') ∈ xs' ∧ v'.nTicks = v.nTicks) ∧
      (Ahead prio.scan p as' z'.place ∨ o = .nothing ∧ z.place = .scanning prio.scan p ∧
        ∃ t, e = .look t)

/-- What is not a modification keeps the settings of a call. -/
theorem same_changeAt (hg : ChangesTask c g) (hc : c.modifies = false)
    (hs : settings xs = settings xs₀) : settings (changeAt p g xs) = settings xs₀ :=
  (settings_changeAt (hg.settings hc)).trans hs

/-- The nodes in front of a walk are on the list. -/
theorem suffix_nextChain (hl : IsList s.tasks s.schedInfo xs) (hs : as <:+ addresses xs) :
    NextChain s.tasks as :=
  (hl.segment.nextChain hl.nonzero).suffix hs

/-- **A call that modifies no task keeps the walk.** -/
theorem InCall.call {n : ℕ} (hI : InCall xs₀ n z xs as)
    (hcall : schedulerCall z.vars c = .ok (s', r)) (hapi : c.isApi = true)
    (hc : c.modifies = false) :
    ∃ xs', InCall xs₀ n ⟨s', z.place⟩ xs' as ∧
      ∀ p v, (p, v) ∈ xs → ∃ v', (p, v') ∈ xs' ∧ v'.nTicks = v.nTicks := by
  obtain ⟨xs', hl', he⟩ := call_effect hI.list hcall
  cases he with
  | kept ht htasks hinfo => exact ⟨xs, ⟨hl', hI.same, hI.walk⟩, fun p v hx => ⟨v, hx, rfl⟩⟩
  | changed ht hn hg htasks hinfo =>
      refine ⟨_, ⟨hl', same_changeAt hg hc hI.same, hI.walk⟩,
        fun p v hx => mem_changeAt hx fun _ => ?_⟩
      cases hg with
      | flushMsgs => rfl
      | elapsed => rfl
      | setPriority => cases hc
      | suspend => cases hc
      | resume => cases hc
      | setPeriodicTicks => cases hc
      | dispatch => cases hapi
  | created hcreate =>
      subst hcreate
      cases hc
  | deleted hdelete =>
      subst hdelete
      cases hc
  | abandoned hdelete =>
      subst hdelete
      cases hc

/-- The walk meets the node that is in front of it. -/
theorem OnWalk.exists_next {A : List UInt32} {n i : ℕ} (hw : OnWalk A n as (.scanning i p))
    (hp : p ≠ 0) : ∃ bs, as = p :: bs ∧ p :: bs <:+ A ∧
      n + 1 + bs.length = i * (A.length + 1) + A.length := by
  obtain ⟨-, hhead, hs, hn⟩ := hw
  obtain ⟨bs, rfl⟩ := exists_cons hp hhead
  exact ⟨bs, rfl, hs, by rw [List.length_cons] at hn; omega⟩

/-- At the end of a scan nothing is in front of the walk. -/
theorem OnWalk.eq_nil {A : List UInt32} {n i : ℕ} (hw : OnWalk A n as (.scanning i 0))
    (hz : 0 ∉ A) : as = [] ∧ n = i * (A.length + 1) + A.length := by
  obtain ⟨-, hhead, hs, hn⟩ := hw
  cases as with
  | nil => exact ⟨rfl, hn⟩
  | cons a as =>
      obtain rfl : 0 = a := hhead
      exact absurd (hs.subset List.mem_cons_self) hz

/-- **Every step of a call keeps the walk**, and a task stays ahead of it until it is run or
passed by. -/
theorem InCall.step {n : ℕ} (hI : InCall xs₀ n z xs as) (hstep : LoopStep beyond z e z' o)
    (he : e.keepsCall = true) :
    ∃ xs' as', InCall xs₀ (n + if e.isLook then 1 else 0) z' xs' as' ∧
      StaysAhead z e o xs as z' xs' as' := by
  obtain ⟨s, place⟩ := z
  have hA := addresses_eq_of_settings hI.same
  have hzero : 0 ∉ addresses xs₀ := hA ▸ hI.list.nonzero
  have hmem {p : UInt32} {v : TaskNode} (hx : (p, v) ∈ xs) : p ∈ addresses xs₀ :=
    hA ▸ List.mem_map.mpr ⟨_, hx, rfl⟩
  have hhead : s.schedInfo.head = (addresses xs₀).headD 0 := hA ▸ head_eq hI.list
  cases hstep with
  | @call t c s' r hmay hapi hclock hcall =>
      have hc : c.modifies = false := by simpa [SchedulerEvent.keepsCall] using he
      obtain ⟨xs', hI', hkeep⟩ := hI.call hcall hapi hc
      exact ⟨xs', as, hI', fun p v prio hx ha _ => ⟨hkeep p v hx, Or.inl ha⟩⟩
  | enter hplace =>
      obtain rfl : place = _ := hplace
      exact hI.walk.elim
  | @nextScan t i hplace hi =>
      obtain rfl : place = _ := hplace
      obtain ⟨rfl, hn⟩ := hI.walk.eq_nil hzero
      refine ⟨xs, addresses xs₀, ⟨hI.list, hI.same, hi, hhead, List.suffix_rfl, ?_⟩, ?_⟩
      · rw [hn, Nat.succ_mul]
        change _ + 1 + _ = _
        omega
      · intro p v prio hx ha _
        refine ⟨⟨v, hx, rfl⟩, Or.inl ?_⟩
        rcases ha with hlt | ⟨-, hnil⟩
        · rcases Nat.lt_or_ge (i + 1) prio.scan with hlt' | hge
          · exact Or.inl hlt'
          · exact Or.inr ⟨by omega, hmem hx⟩
        · cases hnil
  | @lastScan t i hplace hi =>
      obtain rfl : place = _ := hplace
      obtain ⟨rfl, hn⟩ := hI.walk.eq_nil hzero
      have hi6 : i = 6 := by
        have hle : i ≤ 6 := hI.walk.1
        change ¬ i + 1 ≤ 6 at hi
        omega
      subst hi6
      refine ⟨xs, [], ⟨hI.list, hI.same, ?_⟩, ?_⟩
      · change n + 1 = _
        omega
      · intro p v prio hx ha _
        rcases ha with hlt | ⟨-, hnil⟩
        · cases prio <;> exact absurd hlt (by decide)
        · cases hnil
  | @run t i q m s' r hplace hq hm hactive hfun hprio hdue hcall =>
      obtain rfl : place = _ := hplace
      obtain ⟨bs, rfl, hs, hn⟩ := hI.walk.exists_next hq
      obtain ⟨xs', hl', heff⟩ := call_effect hI.list hcall
      obtain ⟨g, hg, -, rfl⟩ := heff.changedAt rfl rfl
      refine ⟨_, bs, ⟨hl', same_changeAt hg rfl hI.same, hI.walk.1, hs, hn⟩,
        fun p v prio hx ha hne => ?_⟩
      have hpq : p ≠ q := fun heq => hne (heq ▸ rfl)
      exact ⟨mem_changeAt hx fun heq => absurd heq hpq,
        Or.inl (ha.imp_right fun h => ⟨h.1, List.mem_of_ne_of_mem hpq h.2⟩)⟩
  | @skip t i q m hplace hq hm hdue =>
      obtain rfl : place = _ := hplace
      obtain ⟨bs, rfl, hs, hn⟩ := hI.walk.exists_next hq
      obtain ⟨-, ⟨m', hm', hnext⟩, -⟩ := suffix_nextChain hI.list (hA ▸ hs)
      obtain rfl := Option.some.inj (hm'.symm.trans hm)
      refine ⟨xs, bs, ⟨hI.list, hI.same, hI.walk.1, hnext, (List.suffix_cons q bs).trans hs, hn⟩,
        fun p v prio hx ha _ => ⟨⟨v, hx, rfl⟩, ?_⟩⟩
      rcases ha with hlt | ⟨rfl, hp⟩
      · exact Or.inl (Or.inl hlt)
      · rcases List.mem_cons.mp hp with rfl | hp
        · exact Or.inr ⟨rfl, rfl, t, rfl⟩
        · exact Or.inl (Or.inr ⟨rfl, hp⟩)
  | @taskReturn t i q m s' hplace hm hcall =>
      obtain rfl : place = _ := hplace
      obtain ⟨hi, hs, hn⟩ := hI.walk
      obtain ⟨xs', hl', heff⟩ := call_effect hI.list hcall
      obtain ⟨g, hg, -, rfl⟩ := heff.changedAt rfl rfl
      obtain ⟨-, ⟨m', hm', hnext⟩, -⟩ := suffix_nextChain hI.list (hA ▸ hs)
      obtain rfl := Option.some.inj (hm'.symm.trans hm)
      refine ⟨_, as, ⟨hl', same_changeAt hg rfl hI.same, hi, hnext,
          (List.suffix_cons q as).trans hs, hn⟩,
        fun p v prio hx ha _ => ⟨mem_changeAt hx fun _ => ?_, Or.inl ha⟩⟩
      cases hg with
      | elapsed => rfl
  | leave hplace => cases he

/-- **A call does not get stuck**, unless in the messages of a task. -/
theorem InCall.goesOn {n : ℕ} (hI : InCall xs₀ n z xs as) (t : ℕ) :
    (∃ x, schedulerStep beyond z (z.place.nextEvent t) = .ok x) ∨
      schedulerStep beyond z (z.place.nextEvent t) = .error .messageFreed := by
  obtain ⟨s, place⟩ := z
  have hA := addresses_eq_of_settings hI.same
  cases place with
  | outside => exact hI.walk.elim
  | leaving => exact Or.inl ⟨_, rfl⟩
  | running i p =>
      obtain ⟨-, hs, -⟩ := hI.walk
      obtain ⟨-, ⟨n, hn, -⟩, -⟩ := suffix_nextChain hI.list (hA ▸ hs)
      have hn : s.tasks p = some n := hn
      refine Or.inl ?_
      change ∃ x, goOn s i p (.ofNat t) = .ok x
      rw [goOn, changeTask_eq hn, ok_bind]
      dsimp only
      rw [map_self, hn]
      exact ⟨_, rfl⟩
  | scanning i p =>
      change (∃ x, lookAt beyond s i p (.ofNat t) = .ok x) ∨ lookAt beyond s i p (.ofNat t) = _
      rw [lookAt]
      split
      · split
        · exact Or.inl ⟨_, rfl⟩
        · exact Or.inl ⟨_, rfl⟩
      next hp =>
        obtain ⟨bs, rfl, hs, -⟩ := hI.walk.exists_next hp
        obtain ⟨-, ⟨n, hn, -⟩, -⟩ := suffix_nextChain hI.list (hA ▸ hs)
        have hn : s.tasks p = some n := hn
        rw [hn, orFault_some, ok_bind]
        split
        · rcases dispatch_cases hn with ⟨x, hx⟩ | hx
          · rw [hx]
            exact Or.inl ⟨_, rfl⟩
          · rw [hx]
            exact Or.inr rfl
        · exact Or.inl ⟨_, rfl⟩

/-- The number of steps of a call is bounded. -/
theorem OnWalk.le {A : List UInt32} {n : ℕ} {place : SchedulerPlace} (hw : OnWalk A n as place) :
    n ≤ 7 * (A.length + 1) := by
  have hscan (i : ℕ) (hi : i ≤ 6) : i * (A.length + 1) ≤ 6 * (A.length + 1) :=
    Nat.mul_le_mul_right _ hi
  cases place with
  | outside => exact hw.elim
  | leaving => exact le_of_eq hw
  | scanning i p =>
      obtain ⟨hi, -, -, hn⟩ := hw
      have := hscan i hi
      omega
  | running i p =>
      obtain ⟨hi, -, hn⟩ := hw
      have := hscan i hi
      omega

/-! ### Tasks that wait -/

/-- A task that is due waits: it has not been run, and where its priority is high only tasks of
high priority have been; its ticks are as they were, and it is ahead of the walk. -/
structure AwaitsDispatch (xs₀ : Nodes TaskNode) (p : UInt32) (v₀ : TaskNode) (b : LoopHistory)
    (z : SchedulerState) (xs : Nodes TaskNode) (as : List UInt32) : Prop where
  notRun : ∀ u, (.look u, .ran p) ∉ b
  high : v₀.sPriority = .high →
    ∀ u q, (.look u, .ran q) ∈ b → ∃ w, (q, w) ∈ xs₀ ∧ w.sPriority = .high
  ticks : ∃ v, (p, v) ∈ xs ∧ v.nTicks = v₀.nTicks
  ahead : Ahead v₀.sPriority.scan p as z.place

/-- A task that is run is looked at. -/
theorem LoopStep.look_of_ran (hstep : LoopStep beyond z e z' (.ran p)) :
    ∃ t i n, e = .look t ∧ z.place = .scanning i p ∧ p ≠ 0 ∧ z.vars.tasks p = some n ∧
      priorityAt beyond i = some n.value.sPriority := by
  cases hstep with
  | @run t i _ n _ _ hplace hp hn hactive hfun hprio =>
      exact ⟨t, i, n, rfl, hplace, hp, hn, hprio⟩

/-- A task that is passed by is not due. -/
theorem LoopStep.not_due (hstep : LoopStep beyond z (.look t) z' .nothing) {i : ℕ}
    (hplace : z.place = .scanning i p) (hp : p ≠ 0) {n : ListNode TaskNode}
    (hn : z.vars.tasks p = some n) :
    ¬ (n.value.active = true ∧ n.value.sTask ≠ 0 ∧
      priorityAt beyond i = some n.value.sPriority ∧
      UInt32.ofNat t - n.value.nTicks ≥ n.value.sTicks) := by
  cases hstep with
  | nextScan hplace' =>
      obtain ⟨-, rfl⟩ := SchedulerPlace.scanning.inj (hplace.symm.trans hplace')
      exact absurd rfl hp
  | lastScan hplace' =>
      obtain ⟨-, rfl⟩ := SchedulerPlace.scanning.inj (hplace.symm.trans hplace')
      exact absurd rfl hp
  | skip hplace' hp' hn' hdue =>
      obtain ⟨rfl, rfl⟩ := SchedulerPlace.scanning.inj (hplace.symm.trans hplace')
      obtain rfl := Option.some.inj (hn'.symm.trans hn)
      exact hdue

/-- In the scan for the high priority only tasks of that priority are run. -/
theorem InCall.high_of_ran {n : ℕ} (hI : InCall xs₀ n z xs as)
    (hstep : LoopStep beyond z e z' (.ran q)) (ha : Ahead 0 p as z.place) :
    ∃ w, (q, w) ∈ xs₀ ∧ w.sPriority = .high := by
  obtain ⟨s, place⟩ := z
  obtain ⟨t, i, m, -, hplace, hq, hm, hprio⟩ := hstep.look_of_ran
  obtain rfl : place = _ := hplace
  obtain rfl : i = 0 := by
    rcases ha with hlt | ⟨rfl, -⟩
    · exact absurd hlt (Nat.not_lt_zero i)
    · rfl
  obtain ⟨bs, rfl, hs, -⟩ := hI.walk.exists_next hq
  rw [← addresses_eq_of_settings hI.same] at hs
  obtain ⟨⟨q, v⟩, hx, rfl⟩ := List.mem_map.mp (hs.subset List.mem_cons_self)
  obtain ⟨m', hm', rfl⟩ := value_of_mem hI.list hx
  obtain rfl := Option.some.inj (hm'.symm.trans hm)
  obtain ⟨w, hw, hset⟩ := exists_of_settings hI.same hx
  exact ⟨w, hw, (eq_of_settings hset).2.1.trans (Option.some.inj hprio).symm⟩

/-- **A task that is due waits until it is run.** -/
theorem AwaitsDispatch.step {n : ℕ} {as' : List UInt32} (hW : AwaitsDispatch xs₀ p v₀ b z xs as)
    (hI : InCall xs₀ n z xs as) (hstep : LoopStep beyond z e z' o)
    (hstays : StaysAhead z e o xs as z' xs' as') (hx₀ : (p, v₀) ∈ xs₀)
    (hnodup : (addresses xs₀).Nodup) (hactive : v₀.active = true) (hfun : v₀.sTask ≠ 0)
    (hcl : cl.Agrees v₀) (hdue : (v₀.sTicks.toNat : ℤ) ≤ t₀ - cl.since)
    (hlook : ∀ t : ℕ, e = .look t → t₀ ≤ t ∧ t - cl.since < 2 ^ 32) :
    RunsInTime xs₀ p v₀ (b ++ [(e, o)]) ∨ AwaitsDispatch xs₀ p v₀ (b ++ [(e, o)]) z' xs' as' := by
  by_cases ho : o = .ran p
  · subst ho
    obtain ⟨t, i, m, rfl, -⟩ := hstep.look_of_ran
    exact Or.inl ⟨b, t, [], rfl, hW.high⟩
  · obtain ⟨v, hx, hticks⟩ := hW.ticks
    obtain ⟨⟨v', hx', hticks'⟩, hahead⟩ := hstays p v v₀.sPriority hx hW.ahead ho
    refine Or.inr ⟨fun u hmem => ?_, fun hhigh u q hmem => ?_, ⟨v', hx', hticks'.trans hticks⟩, ?_⟩
    · rcases List.mem_append.mp hmem with hmem | hmem
      · exact hW.notRun u hmem
      · exact ho (Prod.mk.inj (List.mem_singleton.mp hmem)).2.symm
    · rcases List.mem_append.mp hmem with hmem | hmem
      · exact hW.high hhigh u q hmem
      · obtain ⟨rfl, rfl⟩ := Prod.mk.inj (List.mem_singleton.mp hmem)
        have hahead₀ := hW.ahead
        rw [hhigh] at hahead₀
        exact hI.high_of_ran hstep hahead₀
    · rcases hahead with hahead | ⟨rfl, hplace, t, rfl⟩
      · exact hahead
      · obtain ⟨m, hm, rfl⟩ := value_of_mem hI.list hx
        have hp : p ≠ 0 := by
          rintro rfl
          exact hI.list.nonzero (List.mem_map.mpr ⟨_, hx, rfl⟩)
        obtain ⟨w, hw, hset⟩ := exists_of_settings hI.same hx
        obtain rfl : v₀ = w := value_unique hnodup hx₀ hw
        obtain ⟨ht₀, hlt⟩ := hlook t rfl
        obtain ⟨hactive', hprio', hticks', htask'⟩ := eq_of_settings hset
        refine absurd ⟨?_, ?_, ?_, ?_⟩ (hstep.not_due hplace hp hm)
        · exact hactive'.symm.trans hactive
        · rw [← htask']
          exact hfun
        · rw [← hprio']
          exact priorityAt_scan
        · rw [hticks, ← hticks']
          exact hcl.due (by omega) hlt

/-! ### Calls -/

/-- **One call**: the walk stays on the list, and every task that is due is run or waits. -/
theorem call_run (hr : (schedulerLoop beyond).Run z b z')
    (hI : InCall xs₀ 0 z xs₀ (addresses xs₀)) (hplace : z.place = .scanning 0 z.vars.schedInfo.head)
    (hb : ∀ x ∈ b, x.1.keepsCall = true) (ht : ∀ x ∈ b, t₀ ≤ x.1.ticks) :
    ∃ xs as, InCall xs₀ b.looks z' xs as ∧ ∀ p v₀ cl, (p, v₀) ∈ xs₀ → v₀.active = true →
      v₀.sTask ≠ 0 → cl.Agrees v₀ → (v₀.sTicks.toNat : ℤ) ≤ t₀ - cl.since → NotLeft p cl b →
      RunsInTime xs₀ p v₀ b ∨ AwaitsDispatch xs₀ p v₀ b z' xs as := by
  induction hr with
  | nil =>
      refine ⟨xs₀, _, hI, fun p v₀ cl hx _ _ _ _ _ => Or.inr ⟨nofun, nofun, ⟨v₀, hx, rfl⟩, ?_⟩⟩
      rw [hplace]
      rcases Nat.eq_zero_or_pos v₀.sPriority.scan with h0 | hpos
      · exact Or.inr ⟨h0.symm, List.mem_map.mpr ⟨_, hx, rfl⟩⟩
      · exact Or.inl hpos
  | @snoc b z₁ z₂ e o hr hstep ih =>
      obtain ⟨xs, as, hI₁, hwaits⟩ := ih (fun x hx => hb x (List.mem_append_left _ hx))
        fun x hx => ht x (List.mem_append_left _ hx)
      have hcases := loop_cases (schedulerLoop_step hstep)
      have hlast : (e, o) ∈ b ++ [(e, o)] := List.mem_append_right _ List.mem_cons_self
      obtain ⟨xs', as', hI₂, hstays⟩ := hI₁.step hcases (hb (e, o) hlast)
      refine ⟨xs', as', ?_, fun p v₀ cl hx hactive hfun hcl hdue hleft => ?_⟩
      · rw [LoopHistory.looks, List.countP_append, List.countP_singleton]
        exact hI₂
      · have hleft' : NotLeft p cl b := fun b₁ t o' b₂ hb' =>
          hleft b₁ t o' (b₂ ++ [(e, o)]) (by rw [hb', List.append_assoc, List.cons_append])
        rcases hwaits p v₀ cl hx hactive hfun hcl hdue hleft' with ⟨b₁, t, b₂, rfl, hfirst⟩ | hW
        · exact Or.inl ⟨b₁, t, b₂ ++ [(e, o)], by rw [List.append_assoc, List.cons_append], hfirst⟩
        · refine hW.step hI₁ hcases hstays hx ?_ hactive hfun hcl hdue ?_
          · rw [← addresses_eq_of_settings hI₁.same]
            exact hI₁.list.nodup
          · rintro t rfl
            exact ⟨ht _ hlast, hleft b t o [] rfl hW.notRun⟩

/-- The snapshot of the ticks is when `scheduler()` has been left. -/
theorem ticksSnap_of_run {sTaskIdle : UInt32} {idle : UInt16} {start : UInt32} {h : LoopHistory}
    (hinit : schedulerInit schedulerPowerOn block sTaskIdle start = .ok (s, some idle))
    (hr : (schedulerLoop beyond).Run ⟨s, .outside⟩ h z) :
    z.vars.ticksSnap = UInt32.ofNat h.lastLeave := by
  refine hr.invariant (I := fun (h : LoopHistory) z => z.vars.ticksSnap = .ofNat h.lastLeave) ?_ ?_
  · have hcreate : schedulerCall _ (.create block true .high 1 sTaskIdle start) =
        .ok (s, .created (some idle)) := map_eq_ok.mpr ⟨_, hinit, rfl⟩
    exact call_ticksSnap hcreate
  · rintro h z e z' o - hz hstep
    rw [LoopHistory.lastLeave, List.foldl_append]
    cases loop_cases (schedulerLoop_step hstep) with
    | call hmay hapi hclock hcall => exact (call_ticksSnap hcall).trans hz
    | run hplace hp hn hactive hfun hprio hdue hcall => exact (call_ticksSnap hcall).trans hz
    | taskReturn hplace hn hcall => exact (call_ticksSnap hcall).trans hz
    | enter hplace => exact hz
    | nextScan hplace hi => exact hz
    | lastScan hplace hi => exact hz
    | skip hplace hp hn hdue => exact hz
    | leave hplace => rfl

/-- `scheduler()` has not been left later than it is now. -/
theorem lastLeave_le {h : LoopHistory} (hh : ∀ x ∈ h, x.1.ticks ≤ t) : h.lastLeave ≤ t := by
  induction h using List.reverseRecOn with
  | nil => exact Nat.zero_le t
  | append_singleton h x ih =>
      have hh' := ih fun y hy => hh y (List.mem_append_left _ hy)
      have hx := hh x (List.mem_append_right _ List.mem_cons_self)
      obtain ⟨e, o⟩ := x
      rw [LoopHistory.lastLeave, List.foldl_append]
      cases e with
      | leave t => exact hx
      | call t c => exact hh'
      | enter t => exact hh'
      | look t => exact hh'
      | taskReturn t => exact hh'

/-- What is before an event is not later, and what is behind it is not earlier. -/
theorem Timed.split {start : ℕ} {h₁ h₂ : LoopHistory} {x : SchedulerEvent × SchedulerOutput}
    (ht : Timed start (h₁ ++ x :: h₂)) :
    (∀ y ∈ h₁, y.1.ticks ≤ x.1.ticks) ∧ ∀ y ∈ h₂, x.1.ticks ≤ y.1.ticks := by
  have hp := (List.pairwise_cons.mp ht).2
  rw [List.map_append, List.map_cons, List.pairwise_append] at hp
  obtain ⟨-, h₂, h₃⟩ := hp
  exact ⟨fun y hy => h₃ _ (List.mem_map_of_mem hy) _ List.mem_cons_self,
    fun y hy => (List.pairwise_cons.mp h₂).1 _ (List.mem_map_of_mem hy)⟩

/-- **The dispatch law**: in every run, each call of `scheduler()` a number of ticks after the one
before that is no multiple of `2 ^ 32`, in which the tasks are left as they are set, comes to its
end and runs every active task that is due at its beginning, one of high priority before any of
lower priority; and two runs of a task, one after the other, are at least its period apart, if
it has not been resumed or given a period in between. -/
theorem scheduler_dispatches (beyond : Option TaskPriority) (block sTaskIdle : UInt32) (start : ℕ)
    (s₀ : Scheduler) (idle : UInt16)
    (hinit : schedulerInit schedulerPowerOn block sTaskIdle (.ofNat start) = .ok (s₀, some idle))
    (h : LoopHistory) (z : SchedulerState) (hr : (schedulerLoop beyond).Run ⟨s₀, .outside⟩ h z)
    (ht : Timed start h) :
    (∀ (before : LoopHistory) t₀ (body : LoopHistory) z₀,
      h = before ++ (.enter t₀, .nothing) :: body →
      (schedulerLoop beyond).Run ⟨s₀, .outside⟩ before z₀ →
      (∀ x ∈ body, x.1.keepsCall = true) → (t₀ - before.lastLeave) % 2 ^ 32 ≠ 0 →
      ∃ xs, IsList z₀.vars.tasks z₀.vars.schedInfo xs ∧
        CallDispatches beyond (before.clocks (idleClock block start)) xs t₀ body z) ∧
    ∀ h₁ t₁ p h₂ t₂ h₃ z₂ n,
      h = h₁ ++ (.look t₁, .ran p) :: (h₂ ++ (.look t₂, .ran p) :: h₃) →
      (schedulerLoop beyond).Run ⟨s₀, .outside⟩ (h₁ ++ (.look t₁, .ran p) :: h₂) z₂ →
      z₂.vars.tasks p = some n → (∀ x ∈ h₂, restarts p x = false) →
      n.value.sTicks.toNat ≤ t₂ - t₁ := by
  constructor
  · rintro before t₀ body z₀ rfl hr₀ hbody helapsed
    obtain ⟨hbefore, hafter⟩ := ht.split
    obtain ⟨⟨xs, hl⟩, hk⟩ := clocksAgree_of_run hinit hr₀
    obtain ⟨z₀', hr₀', hr⟩ := hr.split
    obtain rfl := hr₀'.det hr₀
    obtain ⟨z₁, henter, hr⟩ := hr.cons_inv
    have hsnap := ticksSnap_of_run hinit hr₀
    cases loop_cases (schedulerLoop_step henter) with
    | enter hplace =>
        have hne : UInt32.ofNat t₀ - z₀'.vars.ticksSnap ≠ 0 := by
          intro hzero
          have hcast := toNat_sub_cast (.ofNat t₀) z₀'.vars.ticksSnap
          rw [hzero, hsnap, toNat_ofNat_cast, toNat_ofNat_cast] at hcast
          have hle := lastLeave_le hbefore
          change before.lastLeave ≤ t₀ at hle
          change (0 : ℤ) = _ at hcast
          omega
        rw [if_pos hne] at hr
        have hI : InCall xs 0 ⟨z₀'.vars, .scanning 0 z₀'.vars.schedInfo.head⟩ xs (addresses xs) :=
          ⟨hl, rfl, Nat.zero_le _, head_eq hl, List.suffix_rfl, by simp⟩
        obtain ⟨xs', as, hI', hwaits⟩ := call_run hr hI rfl hbody hafter
        refine ⟨xs, hl, fun p v hx => ?_, ?_, hI'.goesOn, ?_⟩
        · obtain ⟨n, hn, rfl⟩ := value_of_mem hl hx
          obtain ⟨cl, hcl, ha⟩ := hk p n hn
          exact ⟨cl, hcl, ha.period⟩
        · simpa [addresses] using hI'.walk.le
        · intro hleaving p v cl hx hactive hfun hcl hdue hleft
          obtain ⟨n, hn, rfl⟩ := value_of_mem hl hx
          obtain ⟨cl', hcl', ha⟩ := hk p n hn
          obtain rfl := Option.some.inj (hcl'.symm.trans hcl)
          rcases hwaits p _ cl' hx hactive hfun ha hdue hleft with hruns | hW
          · exact hruns
          · have hahead := hW.ahead
            rw [hleaving] at hahead
            exact hahead.elim
  · rintro h₁ t₁ p h₂ t₂ h₃ z₂ n rfl hr₂ hn hrest
    have hle : t₁ ≤ t₂ := ht.split.2 (.look t₂, .ran p) (by simp)
    have hassoc : h₁ ++ (SchedulerEvent.look t₁, SchedulerOutput.ran p) ::
        (h₂ ++ (.look t₂, .ran p) :: h₃) =
        (h₁ ++ (.look t₁, .ran p) :: h₂) ++ (.look t₂, .ran p) :: h₃ := by simp
    rw [hassoc] at hr
    obtain ⟨z₂', hr₂', hr⟩ := hr.split
    obtain rfl := hr₂'.det hr₂
    obtain ⟨z₃, hrun, -⟩ := hr.cons_inv
    exact runs_apart hinit hr₂ hle hrest hn (schedulerLoop_step hrun)

/-! ### A period that is set anew -/

/-- The idle task runs at the first tick, and its scans come to their ends. -/
def firstCall : LoopHistory :=
  [(.enter 1, .nothing), (.look 1, .ran 0x1000), (.taskReturn 1, .nothing)] ++
    List.replicate 13 (.look 1, .nothing)

/-- After that the idle task is given a period of ten ticks, to be counted anew. -/
def newPeriod : LoopHistory :=
  firstCall ++ [(.leave 1, .nothing),
    (.call 100 (.setPeriodicTicks 1 10 false 100), .answer 0x1000 (.result true))]

/-- The idle task is due at the first tick and is run. -/
theorem scheduler_dispatches_firstCall : ∃ s₀ z xs v,
    schedulerInit schedulerPowerOn 0x1000 0x2000 (.ofNat 0) = .ok (s₀, some 1) ∧
      (schedulerLoop none).Run ⟨s₀, .outside⟩ firstCall z ∧
      IsList s₀.tasks s₀.schedInfo xs ∧ RunsInTime xs 0x1000 v firstCall.tail := by
  obtain ⟨s₀, hinit, ⟨z, hr, hplace⟩, hhead, n, hn, hactive, hfun, hticks⟩ : ∃ s₀,
      schedulerInit schedulerPowerOn 0x1000 0x2000 (.ofNat 0) = .ok (s₀, some 1) ∧
      (∃ z, (schedulerLoop none).Run ⟨s₀, .outside⟩ firstCall z ∧ z.place = .leaving) ∧
      s₀.schedInfo.head = 0x1000 ∧ ∃ n, s₀.tasks 0x1000 = some n ∧ n.value.active = true ∧
        n.value.sTask ≠ 0 ∧ n.value.sTicks = 1 :=
    ⟨_, rfl, ⟨_, Machine.run_of_exec rfl, rfl⟩, rfl, _, rfl, rfl, by decide, rfl⟩
  have hticks₁ : ∀ x ∈ firstCall, x.1.ticks = 1 := by simp [firstCall, SchedulerEvent.ticks]
  have ht : Timed 0 firstCall := by
    simp [Timed, firstCall, SchedulerEvent.ticks]
  obtain ⟨hlaw, -⟩ := scheduler_dispatches none 0x1000 0x2000 0 s₀ 1 hinit firstCall z hr ht
  obtain ⟨xs, hl, hlaw⟩ := hlaw [] 1 firstCall.tail _ rfl .nil
    (by simp [firstCall, SchedulerEvent.keepsCall]) (by decide)
  obtain ⟨v, hx⟩ : ∃ v, (0x1000, v) ∈ xs := by
    have hstart := hl.start
    rw [hhead] at hstart
    cases xs with
    | nil => exact absurd hstart (by decide)
    | cons x xs =>
        obtain ⟨a, v⟩ := x
        obtain rfl : 0x1000 = a := hstart
        exact ⟨v, List.mem_cons_self⟩
  obtain ⟨m, hm, rfl⟩ := value_of_mem hl hx
  obtain rfl := Option.some.inj (hm.symm.trans hn)
  refine ⟨s₀, z, xs, _, hinit, hr, hl, hlaw.dispatched hplace _ _ ⟨1, 0⟩ hx hactive hfun rfl ?_ ?_⟩
  · rw [hticks]
    decide
  · intro b₁ t o b₂ hbody _
    have ht₁ : t = 1 := hticks₁ (.look t, o) (List.mem_of_mem_tail (hbody ▸ by simp))
    rw [ht₁]
    decide

/-- **A task that is given a period anew is not run when ten ticks have gone by since its last
run**, but when they have gone by since then. -/
theorem newPeriod_isWaitedFor : ∃ s₀ z₀ z n,
    schedulerInit schedulerPowerOn 0x1000 0x2000 (.ofNat 0) = .ok (s₀, some 1) ∧
      (schedulerLoop none).Run ⟨s₀, .outside⟩ newPeriod z₀ ∧
      (.look 1, .ran 0x1000) ∈ newPeriod ∧ newPeriod.lastLeave = 1 ∧
      z₀.vars.tasks 0x1000 = some n ∧
      n.value.active = true ∧ n.value.sTask ≠ 0 ∧ n.value.sTicks = 10 ∧
      (schedulerLoop none).Run z₀ ((.enter 105, .nothing) ::
        List.replicate 14 (.look 105, .nothing)) z ∧ z.place = .leaving := by
  refine ⟨_, _, _, _, rfl, Machine.run_of_exec rfl, by simp [newPeriod, firstCall], rfl,
    rfl, rfl, by decide, rfl, Machine.run_of_exec rfl, rfl⟩

end Muxponder
