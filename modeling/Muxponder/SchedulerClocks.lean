import Mathlib.Algebra.Order.Group.Unbundled.Int
import Muxponder.SchedulerLoop
import Muxponder.SchedulerTasks

/-!
# What Tasks Count Their Ticks From

A task is due when as many ticks as its period have gone by since its last run. Where it has
been created or its period has been set since, they are counted from there; where it has been
resumed, or set to run at once, from a period before that. A `TaskClock` says this of a task in
ticks that never wrap, and is read off the history alone.

What a task stores in `n_ticks` is where its clock starts, in 32 bits.

## Main results

* `clocksAgree_of_run`: in every run the tasks store what their clocks say.
* `runs_apart`: two runs of a task, one after the other, are a period apart.
-/

namespace Muxponder

open LinkedList Memory

/-- How many ticks a task waits, and since when. -/
structure TaskClock where
  period : UInt32
  since : ℤ
  deriving DecidableEq, Repr

/-- The clocks of the tasks at their addresses. -/
abbrev TaskClocks := UInt32 → Option TaskClock

/-- The ticks at an event. -/
def SchedulerEvent.ticks : SchedulerEvent → ℕ
  | .call t _ | .enter t | .look t | .taskReturn t | .leave t => t

/-- What an event does to the clocks: a task that is created, resumed, given a period or run
counts anew. -/
def clockStep (k : TaskClocks) : SchedulerEvent × SchedulerOutput → TaskClocks
  | (.call t (.create _ _ _ sTicks _ _), .answer p (.created (some _))) =>
      Function.update k p (some ⟨sTicks, t⟩)
  | (.call t (.resume _ _), .answer p (.result true)) =>
      Function.update k p ((k p).map fun c => { c with since := t - c.period.toNat })
  | (.call t (.setPeriodicTicks _ sTicks run _), .answer p (.result true)) =>
      Function.update k p (some ⟨sTicks, if run then t - sTicks.toNat else t⟩)
  | (.look t, .ran p) => Function.update k p ((k p).map fun c => { c with since := t })
  | _ => k

/-- The clocks after a history. -/
def LoopHistory.clocks (k : TaskClocks) (h : LoopHistory) : TaskClocks := h.foldl clockStep k

/-- The clock of the idle task when `scheduler_init` has created it. -/
def idleClock (block : UInt32) (t : ℕ) : TaskClocks :=
  Function.update (fun _ => none) block (some ⟨1, t⟩)

/-- The calls and runs that set the clock of a task. -/
def restarts (p : UInt32) : SchedulerEvent × SchedulerOutput → Bool
  | (.call _ (.create ..), .answer q (.created (some _))) | (.call _ (.resume ..), .answer q
      (.result true)) | (.call _ (.setPeriodicTicks ..), .answer q (.result true))
  | (.look _, .ran q) => q = p
  | _ => false

/-- A task stores what its clock says. -/
structure TaskClock.Agrees (c : TaskClock) (v : TaskNode) : Prop where
  period : c.period = v.sTicks
  since : (v.nTicks.toNat : ℤ) = c.since % 2 ^ 32

/-- Every task in memory has a clock and stores what it says. -/
def ClocksAgree (k : TaskClocks) (h : NodeHeap TaskNode) : Prop :=
  ∀ a n, h a = some n → ∃ c, k a = some c ∧ c.Agrees n.value

variable {s s' : Scheduler} {xs xs' ls rs : Nodes TaskNode} {p q block : UInt32} {v : TaskNode}
  {g : TaskNode → TaskNode} {c : SchedulerCall} {r : SchedulerAnswer} {z z' : SchedulerState}
  {e : SchedulerEvent} {o : SchedulerOutput} {beyond : Option TaskPriority} {k k' : TaskClocks}
  {h h' : NodeHeap TaskNode} {t : ℕ} {x : SchedulerEvent × SchedulerOutput} {cl : TaskClock}

/-! ### Ticks in 32 bits -/

/-- A number of ticks in 32 bits. -/
theorem toNat_ofNat_cast (t : ℕ) : ((UInt32.ofNat t).toNat : ℤ) = (t : ℤ) % 2 ^ 32 := by
  rw [UInt32.toNat_ofNat']
  omega

/-- A difference of ticks in 32 bits. -/
theorem toNat_sub_cast (a b : UInt32) :
    ((a - b).toNat : ℤ) = ((a.toNat : ℤ) - b.toNat) % 2 ^ 32 := by
  rw [UInt32.toNat_sub]
  have ha := a.toNat_lt
  have hb := b.toNat_lt
  omega

/-- What `scheduler()` compares with the period is what the clock says, in 32 bits. -/
theorem TaskClock.Agrees.elapsed (ha : cl.Agrees v) (t : ℕ) :
    ((UInt32.ofNat t - v.nTicks).toNat : ℤ) = (t - cl.since) % 2 ^ 32 := by
  rw [toNat_sub_cast, toNat_ofNat_cast, ha.since]
  omega

/-- A task that runs has waited for its period. -/
theorem TaskClock.Agrees.le_of_due (ha : cl.Agrees v) (ht : cl.since ≤ t)
    (hdue : UInt32.ofNat t - v.nTicks ≥ v.sTicks) : (v.sTicks.toNat : ℤ) ≤ t - cl.since := by
  have hle : v.sTicks.toNat ≤ (UInt32.ofNat t - v.nTicks).toNat := UInt32.le_iff_toNat_le.mp hdue
  have helapsed := ha.elapsed t
  omega

/-- A task that has waited for its period, and not for all the ticks that the counter has, is
due. -/
theorem TaskClock.Agrees.due (ha : cl.Agrees v) (ht : (v.sTicks.toNat : ℤ) ≤ t - cl.since)
    (hlt : t - cl.since < 2 ^ 32) : UInt32.ofNat t - v.nTicks ≥ v.sTicks := by
  refine UInt32.le_iff_toNat_le.mpr ?_
  have helapsed := ha.elapsed t
  omega

/-! ### What an event does to the clocks -/

/-- The clock of a task is set by nothing else. -/
theorem clockStep_of_not_restarts (hx : restarts p x = false) : clockStep k x p = k p := by
  rw [clockStep.eq_def]
  split <;> first | rfl | exact Function.update_of_ne (ne_of_beq_false hx).symm ..

/-- A run sets the clock of the task that is run. -/
theorem clockStep_ran :
    clockStep k (.look t, .ran p) p = (k p).map fun c => { c with since := t } :=
  Function.update_self ..

/-- A call that does nothing to a task sets no clock. -/
theorem clockStep_of_not_touches (ht : touchesTasks c r = false) :
    clockStep k (.call t c, .answer p r) = k := by
  rw [clockStep.eq_def]
  split
  next heq =>
    cases heq
    cases ht
  next heq =>
    cases heq
    cases ht
  next heq =>
    cases heq
    cases ht
  next heq => cases heq
  next => rfl

/-- A clock that is set for a task that is changed. -/
theorem ClocksAgree.map (hk : ClocksAgree k h) (hother : ∀ a, a ≠ p → k' a = k a)
    (hself : ∀ n cl, h p = some n → k p = some cl → cl.Agrees n.value →
      ∃ cl', k' p = some cl' ∧ cl'.Agrees (g n.value)) :
    ClocksAgree k' (h.map p (.mapValue g)) := by
  intro a n hn
  by_cases hap : a = p
  · subst hap
    rw [map_self] at hn
    obtain ⟨m, hm, rfl⟩ := Option.map_eq_some_iff.mp hn
    obtain ⟨cl, hcl, ha⟩ := hk a m hm
    exact hself m cl hm hcl ha
  · rw [map_of_ne hap] at hn
    obtain ⟨cl, hcl, ha⟩ := hk a n hn
    exact ⟨cl, (hother a hap).trans hcl, ha⟩

/-- A change that leaves the ticks alone needs no clock set. -/
theorem ClocksAgree.map_keep (hk : ClocksAgree k h)
    (hg : ∀ v, (g v).sTicks = v.sTicks ∧ (g v).nTicks = v.nTicks) :
    ClocksAgree k (h.map p (.mapValue g)) := by
  refine hk.map (fun _ _ => rfl) fun n cl _ hcl ha => ⟨cl, hcl, ?_, ?_⟩
  · exact ha.period.trans (hg n.value).1.symm
  · rw [(hg n.value).2]
    exact ha.since

/-- Nodes that hold the values of nodes that were there keep their clocks. -/
theorem ClocksAgree.of_values (hk : ClocksAgree k h)
    (hh : ∀ a n', h' a = some n' → ∃ n, h a = some n ∧ n.value = n'.value) : ClocksAgree k h' := by
  intro a n' hn'
  obtain ⟨n, hn, hvalue⟩ := hh a n' hn'
  obtain ⟨cl, hcl, ha⟩ := hk a n hn
  exact ⟨cl, hcl, hvalue ▸ ha⟩

/-- The node of a task of a list holds its value. -/
theorem value_of_mem (hl : IsList s.tasks s.schedInfo xs) (hx : (p, v) ∈ xs) :
    ∃ n, s.tasks p = some n ∧ n.value = v := by
  obtain ⟨ls, rs, rfl⟩ := List.append_of_mem hx
  exact ⟨_, hl.segment.node, rfl⟩

/-- Tasks of two lists, and nodes that have not been touched, hold the same values. -/
theorem same_values (hl : IsList s.tasks s.schedInfo xs) (hl' : IsList s'.tasks s'.schedInfo xs')
    {a : UInt32} {n' : ListNode TaskNode} (hn' : s'.tasks a = some n')
    (hsub : ∀ v, (a, v) ∈ xs' → (a, v) ∈ xs)
    (hout : a ∉ addresses xs' → s'.tasks a = s.tasks a) :
    ∃ n, s.tasks a = some n ∧ n.value = n'.value := by
  by_cases hmem : a ∈ addresses xs'
  · obtain ⟨⟨a, v⟩, hx, rfl⟩ := List.mem_map.mp hmem
    obtain ⟨m', hm', hvalue⟩ := value_of_mem hl' hx
    obtain rfl := Option.some.inj (hm'.symm.trans hn')
    obtain ⟨n, hn, hv⟩ := value_of_mem hl (hsub v hx)
    exact ⟨n, hn, hv.trans hvalue.symm⟩
  · exact ⟨n', (hout hmem).symm.trans hn', rfl⟩

/-- Where a task has been created, the others hold the values that they held. -/
theorem values_created {w : TaskNode} (hl : IsList s.tasks s.schedInfo xs)
    (hl' : IsList s'.tasks s'.schedInfo (xs ++ [(block, w)]))
    (hframe : ∀ a, a ∉ block :: addresses xs → s'.tasks a = s.tasks a) {a : UInt32}
    {n' : ListNode TaskNode} (hn' : s'.tasks a = some n') (hab : a ≠ block) :
    ∃ n, s.tasks a = some n ∧ n.value = n'.value := by
  refine same_values hl hl' hn' (fun v hx => ?_) fun hmem => hframe a fun hcons => ?_
  · rcases List.mem_append.mp hx with hx | hx
    · exact hx
    · exact absurd (Prod.mk.inj (List.mem_singleton.mp hx)).1 hab
  · rw [addresses_append] at hmem
    rcases List.mem_cons.mp hcons with rfl | hcons
    · exact hab rfl
    · exact hmem (List.mem_append_left _ hcons)

/-- Where a task has been deleted, so do those that are left. -/
theorem values_deleted (hl : IsList s.tasks s.schedInfo (ls ++ (q, v) :: rs))
    (hl' : IsList s'.tasks s'.schedInfo (ls ++ rs)) (hfree : s'.tasks q = none)
    (hframe : ∀ a, a ∉ addresses (ls ++ (q, v) :: rs) → s'.tasks a = s.tasks a) {a : UInt32}
    {n' : ListNode TaskNode} (hn' : s'.tasks a = some n') :
    ∃ n, s.tasks a = some n ∧ n.value = n'.value := by
  refine same_values hl hl' hn' (fun v hx => ?_) fun hmem => hframe a fun hmem' => ?_
  · exact (List.mem_append.mp hx).elim (List.mem_append_left _) fun hx =>
      List.mem_append_right _ (List.mem_cons_of_mem _ hx)
  · rw [addresses_append, addresses_cons] at hmem'
    rw [addresses_append] at hmem
    rcases List.mem_append.mp hmem' with hmem' | hmem'
    · exact hmem (List.mem_append_left _ hmem')
    · rcases List.mem_cons.mp hmem' with rfl | hmem'
      · exact absurd (hfree.symm.trans hn') nofun
      · exact hmem (List.mem_append_right _ hmem')

/-- **What a call does to a task is what it does to its clock.** -/
theorem ClocksAgree.call (hk : ClocksAgree k s.tasks) (hl : IsList s.tasks s.schedInfo xs)
    (hl' : IsList s'.tasks s'.schedInfo xs') (he : ListEffect s s' xs c r xs')
    (hapi : c.isApi = true) (hclock : ∀ now ∈ c.clock, now = UInt32.ofNat t) :
    ClocksAgree (clockStep k (.call t c, .answer (c.target s) r)) s'.tasks := by
  cases he with
  | kept ht htasks hinfo =>
      rw [clockStep_of_not_touches ht, htasks]
      exact hk
  | changed ht hn hg htasks hinfo =>
      rw [htasks]
      cases hg with
      | setPriority => exact hk.map_keep fun _ => ⟨rfl, rfl⟩
      | suspend => exact hk.map_keep fun _ => ⟨rfl, rfl⟩
      | flushMsgs => exact hk.map_keep fun _ => ⟨rfl, rfl⟩
      | dispatch => cases hapi
      | elapsed => cases hapi
      | resume =>
          obtain ⟨b, rfl⟩ : ∃ b, r = .result b := by cases r <;> first | exact ⟨_, rfl⟩ | cases ht
          obtain rfl : b = true := ht
          refine hk.map (fun a ha => Function.update_of_ne ha ..) fun n cl _ hcl ha => ?_
          refine ⟨_, (Function.update_self ..).trans (congrArg _ hcl), ha.period, ?_⟩
          dsimp only
          rw [toNat_sub_cast, hclock _ rfl, toNat_ofNat_cast, ha.period]
          omega
      | @setPeriodicTicks hndl sTicks run now =>
          obtain ⟨b, rfl⟩ : ∃ b, r = .result b := by cases r <;> first | exact ⟨_, rfl⟩ | cases ht
          obtain rfl : b = true := ht
          refine hk.map (fun a ha => Function.update_of_ne ha ..) fun n cl _ hcl ha => ?_
          refine ⟨_, Function.update_self .., rfl, ?_⟩
          have hnow := hclock _ rfl
          subst hnow
          cases run with
          | true =>
              change ((UInt32.ofNat t - sTicks).toNat : ℤ) = ((t : ℤ) - sTicks.toNat) % 2 ^ 32
              rw [toNat_sub_cast, toNat_ofNat_cast]
              omega
          | false => exact toNat_ofNat_cast t
  | @created id active prio block sTicks ptr now hc ht hb hfree hframe =>
      subst hc
      obtain ⟨o, rfl⟩ : ∃ o, r = .created o := by cases r <;> first | exact ⟨_, rfl⟩ | cases ht
      obtain ⟨hndl, rfl⟩ := Option.isSome_iff_exists.mp ht
      intro a n' hn'
      by_cases hab : a = block
      · subst hab
        obtain ⟨m, hm, hvalue⟩ := value_of_mem hl' (List.mem_append_right _ List.mem_cons_self)
        obtain rfl := Option.some.inj (hm.symm.trans hn')
        refine ⟨_, Function.update_self .., ?_, ?_⟩
        · rw [hvalue]
          rfl
        · rw [hvalue, ← toNat_ofNat_cast, ← hclock _ rfl]
          rfl
      · obtain ⟨n, hn, hvalue⟩ := values_created hl hl' hframe hn' hab
        obtain ⟨cl, hcl, ha⟩ := hk a n hn
        exact ⟨cl, (Function.update_of_ne hab ..).trans hcl, hvalue ▸ ha⟩
  | @deleted hndl q v ls rs hc hq hxs hfree hframe =>
      subst hc hxs
      have hstep : clockStep k (.call t (.delete hndl), .answer q r) = k := rfl
      rw [hq, hstep]
      exact hk.of_values fun a n' => values_deleted hl hl' hfree hframe
  | @abandoned hndl q v rs hc hq hxs hfree hframe =>
      subst hc
      have hstep : clockStep k (.call t (.delete hndl), .answer q r) = k := rfl
      rw [hq, hstep]
      refine hk.of_values fun a n' hn' => ⟨n', ?_, rfl⟩
      rw [← hframe a, hn']
      rintro rfl
      exact absurd (hfree.symm.trans hn') nofun

/-- **Every step of the clocks is one of the tasks.** -/
theorem ClocksAgree.step (hk : ClocksAgree k z.vars.tasks)
    (hl : IsList z.vars.tasks z.vars.schedInfo xs) (hstep : LoopStep beyond z e z' o) :
    ClocksAgree (clockStep k (e, o)) z'.vars.tasks := by
  cases hstep with
  | call hmay hapi hclock hcall =>
      obtain ⟨xs', hl', he⟩ := call_effect hl hcall
      exact hk.call hl hl' he hapi hclock
  | @run t i p n s' r hplace hp hn hactive hfun hprio hdue hcall =>
      obtain ⟨xs', hl', he⟩ := call_effect hl hcall
      obtain ⟨g, hg, htasks, -⟩ := he.changedAt rfl rfl
      cases hg with
      | dispatch =>
          change ClocksAgree _ s'.tasks
          rw [htasks]
          refine hk.map (fun a ha => Function.update_of_ne ha ..) fun n cl _ hcl ha => ?_
          exact ⟨_, (Function.update_self ..).trans (congrArg _ hcl), ha.period,
            toNat_ofNat_cast t⟩
  | @taskReturn t i p n s' hplace hn hcall =>
      obtain ⟨xs', hl', he⟩ := call_effect hl hcall
      obtain ⟨g, hg, htasks, -⟩ := he.changedAt rfl rfl
      cases hg with
      | elapsed =>
          change ClocksAgree k s'.tasks
          rw [htasks]
          exact hk.map_keep fun _ => ⟨rfl, rfl⟩
  | enter hplace => exact hk
  | nextScan hplace hi => exact hk
  | lastScan hplace hi => exact hk
  | skip hplace hp hn hdue => exact hk
  | leave hplace => exact hk

/-! ### Runs -/

/-- The clocks after one more event. -/
theorem clocks_snoc (k : TaskClocks) (h : LoopHistory) (x : SchedulerEvent × SchedulerOutput) :
    LoopHistory.clocks k (h ++ [x]) = clockStep (h.clocks k) x := by
  rw [LoopHistory.clocks, List.foldl_append]
  rfl

/-- `scheduler_init` leaves the idle task and its clock. -/
theorem clocksAgree_init {sTaskIdle : UInt32} {idle : UInt16} {start : ℕ}
    (hinit : schedulerInit schedulerPowerOn block sTaskIdle (.ofNat start) = .ok (s, some idle)) :
    (∃ xs, IsList s.tasks s.schedInfo xs) ∧ ClocksAgree (idleClock block start) s.tasks := by
  obtain ⟨-, ht⟩ := silentTable_init hinit
  refine ⟨⟨_, ht.toTaskTable.toIsList⟩, fun a n hn => ?_⟩
  obtain rfl : a = block := by simpa using ht.allocated a n hn
  obtain ⟨m, hm, hvalue⟩ := value_of_mem ht.toTaskTable.toIsList List.mem_cons_self
  obtain rfl := Option.some.inj (hm.symm.trans hn)
  refine ⟨_, Function.update_self .., ?_⟩
  rw [hvalue]
  exact ⟨rfl, toNat_ofNat_cast start⟩

/-- **In every run the tasks are a list and store what their clocks say.** -/
theorem clocksAgree_of_run {sTaskIdle : UInt32} {idle : UInt16} {start : ℕ} {h : LoopHistory}
    (hinit : schedulerInit schedulerPowerOn block sTaskIdle (.ofNat start) = .ok (s, some idle))
    (hr : (schedulerLoop beyond).Run ⟨s, .outside⟩ h z) :
    (∃ xs, IsList z.vars.tasks z.vars.schedInfo xs) ∧
      ClocksAgree (h.clocks (idleClock block start)) z.vars.tasks := by
  refine hr.invariant (I := fun (h : LoopHistory) z =>
    (∃ xs, IsList z.vars.tasks z.vars.schedInfo xs) ∧
      ClocksAgree (h.clocks (idleClock block start)) z.vars.tasks) (clocksAgree_init hinit) ?_
  rintro h z e z' o - ⟨⟨xs, hl⟩, hk⟩ hstep
  have hcases := loop_cases (schedulerLoop_step hstep)
  refine ⟨list_step hl hcases, ?_⟩
  rw [clocks_snoc]
  exact hk.step hl hcases

/-- The clock of a task is as it was where nothing has set it. -/
theorem clocks_of_not_restarts {hs : LoopHistory} (hh : ∀ x ∈ hs, restarts p x = false) :
    hs.clocks k p = k p := by
  induction hs generalizing k with
  | nil => rfl
  | cons x hs ih =>
      rw [List.forall_mem_cons] at hh
      exact (ih hh.2).trans (clockStep_of_not_restarts hh.1)

/-- The clock never goes back. -/
def Timed (start : ℕ) (h : LoopHistory) : Prop :=
  (start :: h.map fun x => x.1.ticks).Pairwise (· ≤ ·)

/-- **Two runs of a task, one after the other, are a period apart**, if nothing has set its
clock in between. -/
theorem runs_apart {sTaskIdle : UInt32} {idle : UInt16} {start t₁ t₂ : ℕ} {h₁ h₂ : LoopHistory}
    {n : ListNode TaskNode}
    (hinit : schedulerInit schedulerPowerOn block sTaskIdle (.ofNat start) = .ok (s, some idle))
    (hr : (schedulerLoop beyond).Run ⟨s, .outside⟩ (h₁ ++ (.look t₁, .ran p) :: h₂) z)
    (ht : t₁ ≤ t₂) (hh : ∀ x ∈ h₂, restarts p x = false) (hn : z.vars.tasks p = some n)
    (hrun : schedulerStep beyond z (.look t₂) = .ok (z', .ran p)) :
    n.value.sTicks.toNat ≤ t₂ - t₁ := by
  obtain ⟨-, hk⟩ := clocksAgree_of_run hinit hr
  obtain ⟨cl, hcl, ha⟩ := hk p n hn
  have hsince : cl.since = t₁ := by
    rw [LoopHistory.clocks, List.foldl_append, List.foldl_cons] at hcl
    change LoopHistory.clocks (clockStep _ _) h₂ p = _ at hcl
    rw [clocks_of_not_restarts hh, clockStep_ran] at hcl
    obtain ⟨cl₀, -, rfl⟩ := Option.map_eq_some_iff.mp hcl
    rfl
  cases loop_cases hrun with
  | run hplace hp hn' hactive hfun hprio hdue hcall =>
      obtain rfl := Option.some.inj (hn'.symm.trans hn)
      have hle := ha.le_of_due (t := t₂) (by omega) hdue
      omega

end Muxponder
