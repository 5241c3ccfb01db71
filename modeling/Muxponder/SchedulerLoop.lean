import Muxponder.SchedulerTable

/-!
# The Loops of the Scheduler

`scheduler()` as a machine of its own. It is called, looks at one task after the other in each of
its seven scans, hands control to a task that is to run, goes on when that returns, and leaves.
While a task runs it may call every function of the scheduler, and so may the program between
two calls of `scheduler()`.

What stands behind the end of `priority_cycle` is a parameter: the seventh scan reads it.

## Main results

* `call_effect`: what a call can do to the list of tasks, whatever their number and handles.
* `loop_cases`: the ways in which a step goes.
* `list_step`: the tasks stay a well formed list.
-/

namespace Muxponder

open LinkedList Memory

/-- Where `scheduler()` is: it has not been called, is in front of a task in one of its scans,
waits for a task to return, or is about to leave. -/
inductive SchedulerPlace
  | outside
  | scanning (priorCycleIndex : ℕ) (csTask : UInt32)
  | running (priorCycleIndex : ℕ) (csTask : UInt32)
  | leaving
  deriving DecidableEq, Repr

/-- The variables of the scheduler and where it is. -/
structure SchedulerState where
  vars : Scheduler
  place : SchedulerPlace

/-- Calls and the steps of `scheduler()`, with the ticks that the clock has counted. -/
inductive SchedulerEvent
  | call (t : ℕ) (c : SchedulerCall)
  | enter (t : ℕ)
  | look (t : ℕ)
  | taskReturn (t : ℕ)
  | leave (t : ℕ)

/-- The answer to a call that was made on the task at an address, or the task that is run. -/
inductive SchedulerOutput
  | answer (p : UInt32) (r : SchedulerAnswer)
  | ran (p : UInt32)
  | nothing
  deriving DecidableEq, Repr

/-- What `priority_cycle[i]` reads: behind the table it is whatever stands there. -/
def priorityAt (beyond : Option TaskPriority) (i : ℕ) : Option TaskPriority :=
  (priorityCycle[i]?).or beyond

/-- The functions that are called from outside `scheduler()`. -/
def SchedulerCall.isApi : SchedulerCall → Bool
  | .dispatch .. | .elapsed .. => false
  | _ => true

/-- What a call reads from the clock. -/
def SchedulerCall.clock : SchedulerCall → Option UInt32
  | .create _ _ _ _ _ now | .resume _ now | .setPeriodicTicks _ _ _ now => some now
  | .dispatch _ now | .elapsed _ now => some now
  | _ => none

/-- The task that a call is made on: the one that a handle finds, or the one at an address. -/
def SchedulerCall.target (s : Scheduler) : SchedulerCall → UInt32
  | .create block .. => block
  | .delete hndl | .getPriority hndl | .setPriority hndl _ | .suspend hndl | .resume hndl _
  | .getPeriodicTicks hndl | .setPeriodicTicks hndl .. =>
      match sTaskLocate s hndl with
      | .ok p => p
      | .error _ => 0
  | .flushMsgs p | .dispatch p _ | .elapsed p _ => p
  | .getHandle _ | .sendMsg .. => 0

/-- The functions are called between two calls of `scheduler()` or by a task that runs. -/
def SchedulerPlace.mayCall : SchedulerPlace → Bool
  | .outside | .running .. => true
  | .scanning .. | .leaving => false

/-- The body of the loops of `scheduler()`, for the task `csTask` of the scan `i`. -/
def lookAt (beyond : Option TaskPriority) (s : Scheduler) (i : ℕ) (csTask now : UInt32) :
    Except SchedulerFault (SchedulerState × SchedulerOutput) :=
  if csTask = 0 then
    if i + 1 ≤ PRIORITIES_CYCLE_LEN then
      .ok (⟨s, .scanning (i + 1) s.schedInfo.head⟩, .nothing)
    else .ok (⟨s, .leaving⟩, .nothing)
  else do
    let node ← orFault .taskFreed (s.tasks csTask)
    if node.value.active = true ∧ node.value.sTask ≠ 0 ∧
        priorityAt beyond i = some node.value.sPriority ∧
        now - node.value.nTicks ≥ node.value.sTicks then
      let (s, _) ← dispatchTask s csTask now
      pure (⟨s, .running i csTask⟩, .ran csTask)
    else pure (⟨s, .scanning i node.next⟩, .nothing)

/-- What `scheduler()` does when the function of a task has returned. -/
def goOn (s : Scheduler) (i : ℕ) (csTask now : UInt32) :
    Except SchedulerFault (SchedulerState × SchedulerOutput) := do
  let s ← changeTask s csTask fun v => { v with eTicks := now - v.eTicks }
  let node ← orFault .taskFreed (s.tasks csTask)
  pure (⟨s, .scanning i node.next⟩, .nothing)

/-- One event. -/
def schedulerStep (beyond : Option TaskPriority) (z : SchedulerState) :
    SchedulerEvent → Except SchedulerFault (SchedulerState × SchedulerOutput)
  | .call t c =>
      if z.place.mayCall && c.isApi && c.clock.all (· = UInt32.ofNat t) then
        (schedulerCall z.vars c).map fun x => (⟨x.1, z.place⟩, .answer (c.target z.vars) x.2)
      else .error .impossible
  | .enter t =>
      match z.place with
      | .outside =>
          let elapsedTicks := UInt32.ofNat t - z.vars.ticksSnap
          .ok (⟨z.vars, if elapsedTicks ≠ 0 then .scanning 0 z.vars.schedInfo.head
            else .leaving⟩, .nothing)
      | _ => .error .impossible
  | .look t =>
      match z.place with
      | .scanning i csTask => lookAt beyond z.vars i csTask (UInt32.ofNat t)
      | _ => .error .impossible
  | .taskReturn t =>
      match z.place with
      | .running i csTask => goOn z.vars i csTask (UInt32.ofNat t)
      | _ => .error .impossible
  | .leave t =>
      match z.place with
      | .leaving => .ok (⟨{ z.vars with ticksSnap := UInt32.ofNat t }, .outside⟩, .nothing)
      | _ => .error .impossible

/-- One event after the other. -/
def schedulerLoop (beyond : Option TaskPriority) :
    Machine SchedulerState SchedulerEvent SchedulerOutput where
  step z e := (schedulerStep beyond z e).toOption

/-- The events of a run and what came of them. -/
abbrev LoopHistory := List (SchedulerEvent × SchedulerOutput)

variable {s s' : Scheduler} {xs xs' ls rs : Nodes TaskNode} {p q block now : UInt32}
  {v : TaskNode} {hndl : UInt16} {g : TaskNode → TaskNode} {c : SchedulerCall}
  {r : SchedulerAnswer} {z z' : SchedulerState} {e : SchedulerEvent} {o : SchedulerOutput}
  {beyond : Option TaskPriority} {b : Bool} {f : UInt32 → Except SchedulerFault Scheduler}

/-! ### What calls do to the list -/

/-- The ways in which a call changes a task. -/
inductive ChangesTask : SchedulerCall → (TaskNode → TaskNode) → Prop
  | setPriority {hndl : UInt16} {prio : TaskPriority} :
      ChangesTask (.setPriority hndl prio) fun v => { v with sPriority := prio }
  | suspend {hndl : UInt16} : ChangesTask (.suspend hndl) fun v => { v with active := false }
  | resume {hndl : UInt16} {now : UInt32} :
      ChangesTask (.resume hndl now) fun v =>
        { v with active := true, nTicks := now - v.sTicks }
  | setPeriodicTicks {hndl : UInt16} {sTicks : UInt32} {run : Bool} {now : UInt32} :
      ChangesTask (.setPeriodicTicks hndl sTicks run now) fun v =>
        { v with sTicks := sTicks, nTicks := if run then now - sTicks else now }
  | flushMsgs {p : UInt32} : ChangesTask (.flushMsgs p) fun v => { v with sTaskMsg := 0 }
  | dispatch {p now msgHead : UInt32} :
      ChangesTask (.dispatch p now) fun v =>
        { v with nTicks := now, sTaskMsg := msgHead, eTicks := now }
  | elapsed {p now : UInt32} :
      ChangesTask (.elapsed p now) fun v => { v with eTicks := now - v.eTicks }

/-- Whether a call that is answered so has done something to a task. -/
def touchesTasks : SchedulerCall → SchedulerAnswer → Bool
  | .create .., .created hndl => hndl.isSome
  | .delete _, .result success | .setPriority .., .result success | .suspend _, .result success
  | .resume .., .result success | .setPeriodicTicks .., .result success => success
  | .flushMsgs _, _ | .dispatch .., _ | .elapsed .., _ => true
  | _, _ => false

/-- **What a call can do to the list of tasks.** It leaves the tasks alone; it changes one, in
the list or not; it creates one; it deletes one; or it deletes the first one and leaves all the
others behind, where the counter has wrapped round. -/
inductive ListEffect (s s' : Scheduler) (xs : Nodes TaskNode) (c : SchedulerCall)
    (r : SchedulerAnswer) : Nodes TaskNode → Prop
  | kept : touchesTasks c r = false → s'.tasks = s.tasks → s'.schedInfo = s.schedInfo →
      ListEffect s s' xs c r xs
  | changed {g : TaskNode → TaskNode} : touchesTasks c r = true →
      (∃ n, s.tasks (c.target s) = some n) → ChangesTask c g →
      s'.tasks = s.tasks.map (c.target s) (.mapValue g) → s'.schedInfo = s.schedInfo →
      ListEffect s s' xs c r (changeAt (c.target s) g xs)
  | created {id : UInt16} {active : Bool} {prio : TaskPriority} {block sTicks ptr now : UInt32} :
      c = .create block active prio sTicks ptr now → touchesTasks c r = true → block ≠ 0 →
      s.tasks block = none → (∀ a, a ∉ block :: addresses xs → s'.tasks a = s.tasks a) →
      ListEffect s s' xs c r (xs ++ [(block, newTask id active prio sTicks ptr now)])
  | deleted {hndl : UInt16} {p : UInt32} {v : TaskNode} {ls rs : Nodes TaskNode} :
      c = .delete hndl → c.target s = p → xs = ls ++ (p, v) :: rs → s'.tasks p = none →
      (∀ a, a ∉ addresses xs → s'.tasks a = s.tasks a) → ListEffect s s' xs c r (ls ++ rs)
  | abandoned {hndl : UInt16} {p : UInt32} {v : TaskNode} {rs : Nodes TaskNode} :
      c = .delete hndl → c.target s = p → xs = (p, v) :: rs → s'.tasks p = none →
      (∀ a, a ≠ p → s'.tasks a = s.tasks a) → ListEffect s s' xs c r []

/-- A call that neither creates nor deletes a task. -/
def SchedulerCall.keepsTasks : SchedulerCall → Bool
  | .create .. | .delete _ => false
  | _ => true

/-- Such a call that does something to a task changes it where it stands. -/
theorem ListEffect.changedAt (he : ListEffect s s' xs c r xs') (ht : touchesTasks c r = true)
    (hc : c.keepsTasks = true) :
    ∃ g, ChangesTask c g ∧ s'.tasks = s.tasks.map (c.target s) (.mapValue g) ∧
      xs' = changeAt (c.target s) g xs := by
  cases he with
  | kept hnot => exact absurd (hnot.symm.trans ht) nofun
  | changed _ hn hg htasks hinfo => exact ⟨_, hg, htasks, rfl⟩
  | created hcreate =>
      subst hcreate
      cases hc
  | deleted hdelete =>
      subst hdelete
      cases hc
  | abandoned hdelete =>
      subst hdelete
      cases hc

/-- A handle finds a task of the list, if it finds one. -/
theorem sTaskLocate_mem (hl : IsList s.tasks s.schedInfo xs) (hloc : sTaskLocate s hndl = .ok p)
    (hp : p ≠ 0) : ∃ ls v rs, xs = ls ++ (p, v) :: rs := by
  rw [sTaskLocate, hl.start] at hloc
  split at hloc
  · rw [find_spec hl.segment hl.nonzero hl.toIsChain.length_lt, orFault_some] at hloc
    have hfirst := Except.ok.inj hloc
    obtain ⟨ls, hls⟩ := List.dropWhile_suffix (l := xs) fun x => !(x.2.sTaskId = hndl : Bool)
    rcases hdrop : xs.dropWhile fun x => !(x.2.sTaskId = hndl : Bool) with _ | ⟨⟨a, v⟩, rs⟩
    · rw [hdrop] at hfirst
      exact absurd hfirst.symm hp
    · rw [hdrop] at hfirst hls
      obtain rfl : a = p := hfirst
      exact ⟨ls, v, rs, hls.symm⟩
  · rcases xs with _ | ⟨⟨a, v⟩, rs⟩
    · exact absurd (Except.ok.inj hloc).symm hp
    · obtain rfl : a = p := Except.ok.inj hloc
      exact ⟨[], v, rs, rfl⟩

/-- A function on the task with a handle does nothing, or what it does to that task. -/
theorem withTask_eq_ok (h : withTask s hndl f = .ok (s', b)) :
    s' = s ∧ b = false ∨
      b = true ∧ ∃ p, sTaskLocate s hndl = .ok p ∧ p ≠ 0 ∧ f p = .ok s' := by
  obtain ⟨p, hloc, h⟩ := bind_eq_ok.mp h
  split at h
  next hp =>
    obtain ⟨s₁, hf, h⟩ := bind_eq_ok.mp h
    obtain ⟨rfl, rfl⟩ := Prod.mk.inj (Except.ok.inj h)
    exact Or.inr ⟨rfl, p, hloc, hp, hf⟩
  next =>
    obtain ⟨rfl, rfl⟩ := Prod.mk.inj (Except.ok.inj h)
    exact Or.inl ⟨rfl, rfl⟩

/-- A task that is changed is there. -/
theorem changeTask_eq_ok (h : changeTask s p g = .ok s') :
    (∃ n, s.tasks p = some n) ∧ s' = { s with tasks := s.tasks.map p (.mapValue g) } := by
  obtain ⟨tasks, hmod, h⟩ := bind_eq_ok.mp h
  obtain ⟨hn, rfl⟩ := modify_eq_some_iff.mp (orFault_eq_ok.mp hmod)
  exact ⟨hn, (Except.ok.inj h).symm⟩

/-- What a deletion does to the list of tasks, whatever its counter says. -/
theorem sTaskDeleteNode_list (hl : IsList s.tasks s.schedInfo (ls ++ (p, v) :: rs))
    (h : sTaskDeleteNode s p = .ok s') :
    s'.tasks p = none ∧
      (IsList s'.tasks s'.schedInfo (ls ++ rs) ∧
          (∀ a, a ∉ addresses (ls ++ (p, v) :: rs) → s'.tasks a = s.tasks a) ∨
        ls = [] ∧ IsList s'.tasks s'.schedInfo [] ∧ ∀ a, a ≠ p → s'.tasks a = s.tasks a) := by
  obtain ⟨⟨tasks, info⟩, hunlink, h⟩ := bind_eq_ok.mp h
  obtain ⟨node, -, h⟩ := bind_eq_ok.mp h
  obtain ⟨⟨msgs, mbox, hd⟩, -, h⟩ := bind_eq_ok.mp h
  obtain ⟨msgs', -, h⟩ := bind_eq_ok.mp h
  obtain ⟨tasks', hfree, h⟩ := bind_eq_ok.mp h
  obtain rfl := Except.ok.inj h
  have hunlink := orFault_eq_ok.mp hunlink
  obtain rfl : Function.update tasks p none = tasks' := by
    have hfree := orFault_eq_ok.mp hfree
    rw [NodeHeap.free] at hfree
    split at hfree
    · exact Option.some.inj hfree
    · cases hfree
  refine ⟨Function.update_self .., ?_⟩
  by_cases hc : s.schedInfo.count = 1 → ls = [] → rs = []
  · obtain ⟨h₁, l₁, hunlink', hl', -, hframe⟩ := unlink_spec hl hc
    obtain ⟨rfl, rfl⟩ := Prod.mk.inj (Option.some.inj (hunlink.symm.trans hunlink'))
    obtain ⟨hpl, hpr, -⟩ := hl.toIsChain.erase
    refine Or.inl ⟨hl'.congr fun b hb => Function.update_of_ne ?_ .., fun a ha => ?_⟩
    · rintro rfl
      rw [addresses_append] at hb
      exact (List.mem_append.mp hb).elim hpl hpr
    · have hap : a ≠ p := by
        rintro rfl
        exact ha (by simp)
      refine (Function.update_of_ne hap ..).trans (hframe a fun hmem => ha ?_)
      simp only [addresses_append, addresses_cons, List.mem_append, List.mem_cons] at hmem ⊢
      exact hmem.imp_right Or.inr
  · obtain ⟨hcount, hls, -⟩ : s.schedInfo.count = 1 ∧ ls = [] ∧ rs ≠ [] := by
      simpa only [Classical.not_imp] using hc
    subst hls
    rw [List.nil_append] at hl
    obtain ⟨rfl, rfl⟩ := Prod.mk.inj (Option.some.inj (hunlink.symm.trans
      (unlink_wrapped hl hcount)))
    refine Or.inr ⟨rfl, ?_, fun a ha => Function.update_of_ne ha ..⟩
    rw [hcount]
    exact isList_nil

/-- Sending a message leaves the tasks alone. -/
theorem sTaskSendMsg_tasks {src dst : UInt16} {bytes : Source} {count : UInt16}
    {blocks : MessageBlocks} (h : sTaskSendMsg s src dst bytes count blocks = .ok (s', b)) :
    s'.tasks = s.tasks ∧ s'.schedInfo = s.schedInfo := by
  rw [sTaskSendMsg] at h
  split at h
  · obtain ⟨rfl, -⟩ := Prod.mk.inj (Except.ok.inj h)
    exact ⟨rfl, rfl⟩
  · split at h
    · cases h
    · split at h
      · obtain ⟨rfl, -⟩ := Prod.mk.inj (Except.ok.inj h)
        exact ⟨rfl, rfl⟩
      · obtain ⟨data, -, h⟩ := bind_eq_ok.mp h
        obtain ⟨x, -, h⟩ := bind_eq_ok.mp h
        obtain ⟨rfl, -⟩ := Prod.mk.inj (Except.ok.inj h)
        exact ⟨rfl, rfl⟩

/-- The task that a call with a handle is made on. -/
theorem target_of_locate (hloc : sTaskLocate s hndl = .ok p) :
    (match sTaskLocate s hndl with
      | .ok p => p
      | .error _ => 0) = p := by rw [hloc]

/-- A task that is changed has its place in the list, if it was one of it. -/
theorem list_effect_of_change (hl : IsList s.tasks s.schedInfo xs)
    (ht : touchesTasks c r = true) (hc : ChangesTask c g)
    (hn : ∃ n, s.tasks (c.target s) = some n)
    (htasks : s'.tasks = s.tasks.map (c.target s) (.mapValue g))
    (hinfo : s'.schedInfo = s.schedInfo) :
    ∃ xs', IsList s'.tasks s'.schedInfo xs' ∧ ListEffect s s' xs c r xs' := by
  refine ⟨_, ?_, .changed ht hn hc htasks hinfo⟩
  rw [htasks, hinfo]
  exact hl.changeAt

/-- A function that changes the task with a handle leaves the list well formed. -/
theorem list_effect_of_withTask (hl : IsList s.tasks s.schedInfo xs)
    (h : withTask s hndl (fun p => changeTask s p g) = .ok (s', b)) (hc : ChangesTask c g)
    (htouch : touchesTasks c (.result b) = b)
    (ht : ∀ p, sTaskLocate s hndl = .ok p → c.target s = p) :
    ∃ xs', IsList s'.tasks s'.schedInfo xs' ∧ ListEffect s s' xs c (.result b) xs' := by
  rcases withTask_eq_ok h with ⟨rfl, rfl⟩ | ⟨rfl, p, hloc, hp, hchange⟩
  · exact ⟨xs, hl, .kept htouch rfl rfl⟩
  · obtain ⟨hn, rfl⟩ := changeTask_eq_ok hchange
    obtain rfl := ht p hloc
    exact list_effect_of_change hl htouch hc hn rfl rfl

/-- A call that only reads leaves everything as it is. -/
theorem list_effect_of_read {α : Type} {x : Except SchedulerFault α} {k : α → SchedulerAnswer}
    (hl : IsList s.tasks s.schedInfo xs) (h : x.map (fun a => (s, k a)) = .ok (s', r))
    (ht : ∀ a, touchesTasks c (k a) = false) :
    ∃ xs', IsList s'.tasks s'.schedInfo xs' ∧ ListEffect s s' xs c r xs' := by
  obtain ⟨a, -, ha⟩ := map_eq_ok.mp h
  obtain ⟨rfl, rfl⟩ := Prod.mk.inj ha
  exact ⟨xs, hl, .kept (ht a) rfl rfl⟩

/-- What `flushTask` leaves: the messages are gone, and the task has none. -/
theorem flushTask_eq_ok {hndl : UInt16} (h : flushTask s p = .ok (s', hndl)) :
    ∃ msgs, changeTask { s with msgs := msgs } p (fun v => { v with sTaskMsg := 0 }) = .ok s' := by
  obtain ⟨node, -, h⟩ := bind_eq_ok.mp h
  obtain ⟨msgs, -, h⟩ := bind_eq_ok.mp h
  obtain ⟨s₂, hchange, h⟩ := bind_eq_ok.mp h
  obtain ⟨rfl, -⟩ := Prod.mk.inj (Except.ok.inj h)
  exact ⟨msgs, hchange⟩

/-- What `dispatchTask` leaves: the task has its messages, and is marked with the time. -/
theorem dispatchTask_eq_ok {x : UInt16 × List TaskMsg} (h : dispatchTask s p now = .ok (s', x)) :
    ∃ msgs mbox hd, changeTask { s with msgs := msgs, mboxInfo := mbox } p
      (fun v => { v with nTicks := now, sTaskMsg := hd, eTicks := now }) = .ok s' := by
  obtain ⟨node, -, h⟩ := bind_eq_ok.mp h
  obtain ⟨⟨msgs, mbox, hd⟩, -, h⟩ := bind_eq_ok.mp h
  obtain ⟨s₂, hchange, h⟩ := bind_eq_ok.mp h
  obtain ⟨given, -, h⟩ := bind_eq_ok.mp h
  obtain ⟨rfl, -⟩ := Prod.mk.inj (Except.ok.inj h)
  exact ⟨msgs, mbox, hd, hchange⟩

/-- **What a call does to the list of tasks**, whatever their number and their handles. -/
theorem call_effect (hl : IsList s.tasks s.schedInfo xs) (h : schedulerCall s c = .ok (s', r)) :
    ∃ xs', IsList s'.tasks s'.schedInfo xs' ∧ ListEffect s s' xs c r xs' := by
  cases c with
  | create block active prio sTicks ptr now =>
      obtain ⟨o, hcreate, rfl⟩ := answer_eq_ok.mp h
      by_cases hb : block = 0
      · rw [sTaskCreate, if_pos hb] at hcreate
        obtain ⟨rfl, rfl⟩ := Prod.mk.inj (Except.ok.inj hcreate)
        exact ⟨xs, hl, .kept rfl rfl rfl⟩
      · have hmalloc := mallocIsFresh_of_ok h _ _ _ _ _ _ rfl hb
        obtain ⟨s₂, hcreate', hl', -, -, -, hframe⟩ :=
          sTaskCreate_list hl active prio sTicks ptr now hb hmalloc
        obtain ⟨rfl, rfl⟩ := Prod.mk.inj (Except.ok.inj (hcreate.symm.trans hcreate'))
        exact ⟨_, hl', .created rfl rfl hb hmalloc hframe⟩
  | delete hndl =>
      obtain ⟨b, hdel, rfl⟩ := answer_eq_ok.mp h
      rcases withTask_eq_ok hdel with ⟨rfl, rfl⟩ | ⟨rfl, p, hloc, hp, hnode⟩
      · exact ⟨xs, hl, .kept rfl rfl rfl⟩
      · obtain ⟨ls, v, rs, rfl⟩ := sTaskLocate_mem hl hloc hp
        obtain ⟨hfree, ⟨hl', hframe⟩ | ⟨rfl, hl', hframe⟩⟩ := sTaskDeleteNode_list hl hnode
        · exact ⟨_, hl', .deleted rfl (target_of_locate hloc) rfl hfree hframe⟩
        · exact ⟨_, hl', .abandoned rfl (target_of_locate hloc) rfl hfree hframe⟩
  | getHandle ptr => exact list_effect_of_read hl h fun _ => rfl
  | getPriority hndl => exact list_effect_of_read hl h fun _ => rfl
  | getPeriodicTicks hndl => exact list_effect_of_read hl h fun _ => rfl
  | setPriority hndl prio =>
      obtain ⟨b, hset, rfl⟩ := answer_eq_ok.mp h
      exact list_effect_of_withTask hl hset .setPriority rfl fun p hloc => target_of_locate hloc
  | suspend hndl =>
      obtain ⟨b, hset, rfl⟩ := answer_eq_ok.mp h
      exact list_effect_of_withTask hl hset .suspend rfl fun p hloc => target_of_locate hloc
  | resume hndl now =>
      obtain ⟨b, hset, rfl⟩ := answer_eq_ok.mp h
      exact list_effect_of_withTask hl hset .resume rfl fun p hloc => target_of_locate hloc
  | setPeriodicTicks hndl sTicks run now =>
      obtain ⟨b, hset, rfl⟩ := answer_eq_ok.mp h
      exact list_effect_of_withTask hl hset .setPeriodicTicks rfl fun p hloc =>
        target_of_locate hloc
  | sendMsg src dst bytes count blocks =>
      obtain ⟨b, hsend, rfl⟩ := answer_eq_ok.mp h
      obtain ⟨htasks, hinfo⟩ := sTaskSendMsg_tasks hsend
      refine ⟨xs, ?_, .kept rfl htasks hinfo⟩
      rw [htasks, hinfo]
      exact hl
  | flushMsgs p =>
      obtain ⟨b, hflush, rfl⟩ := answer_eq_ok.mp h
      obtain ⟨msgs, hchange⟩ := flushTask_eq_ok hflush
      obtain ⟨hn, rfl⟩ := changeTask_eq_ok hchange
      exact list_effect_of_change hl rfl .flushMsgs hn rfl rfl
  | dispatch p now =>
      obtain ⟨b, hdispatch, rfl⟩ := answer_eq_ok.mp h
      obtain ⟨msgs, mbox, hd, hchange⟩ := dispatchTask_eq_ok hdispatch
      obtain ⟨hn, rfl⟩ := changeTask_eq_ok hchange
      exact list_effect_of_change hl rfl .dispatch hn rfl rfl
  | elapsed p now =>
      obtain ⟨s₁, hchange, heq⟩ := map_eq_ok.mp h
      obtain ⟨rfl, rfl⟩ := Prod.mk.inj heq
      obtain ⟨hn, rfl⟩ := changeTask_eq_ok hchange
      exact list_effect_of_change hl rfl .elapsed hn rfl rfl

/-- A task that is there is dispatched, unless its messages are not. -/
theorem dispatch_cases {n : ListNode TaskNode} (hn : s.tasks p = some n) :
    (∃ x, dispatchTask s p now = .ok x) ∨ dispatchTask s p now = .error .messageFreed := by
  cases hextract : sTaskExtractMsg s.msgs s.mboxInfo n.value.sTaskId n.value.sTaskMsg with
  | none =>
      refine Or.inr ?_
      rw [dispatchTask, hn, orFault_some, ok_bind, hextract]
      rfl
  | some x =>
      obtain ⟨msgs, mbox, msgHead⟩ := x
      have hn₁ : ({ s with msgs := msgs, mboxInfo := mbox } : Scheduler).tasks p = some n := hn
      rw [dispatchTask, hn, orFault_some, ok_bind, hextract, orFault_some, ok_bind]
      dsimp only
      rw [changeTask_eq hn₁, ok_bind]
      cases values FUEL msgs msgHead with
      | none => exact Or.inr rfl
      | some given => exact Or.inl ⟨_, rfl⟩

/-! ### Steps -/

/-- A step of a run is an event that has a result. -/
theorem schedulerLoop_step (hstep : (schedulerLoop beyond).step z e = some (z', o)) :
    schedulerStep beyond z e = .ok (z', o) := by
  change (schedulerStep beyond z e).toOption = _ at hstep
  cases hevent : schedulerStep beyond z e with
  | error f =>
      rw [hevent] at hstep
      cases hstep
  | ok x =>
      rw [hevent] at hstep
      exact congrArg Except.ok (Option.some.inj hstep)

/-- A run is continued by an event that has a result. -/
theorem loop_snoc {z₀ : SchedulerState} {h : LoopHistory} (hr : (schedulerLoop beyond).Run z₀ h z)
    (hevent : schedulerStep beyond z e = .ok (z', o)) :
    (schedulerLoop beyond).Run z₀ (h ++ [(e, o)]) z' :=
  hr.snoc (by simp [schedulerLoop, hevent, Except.toOption])

/-- The ways in which an event goes: a call, and five steps of `scheduler()`. -/
inductive LoopStep (beyond : Option TaskPriority) (z : SchedulerState) :
    SchedulerEvent → SchedulerState → SchedulerOutput → Prop
  | call {t : ℕ} {c : SchedulerCall} {s' : Scheduler} {r : SchedulerAnswer} :
      z.place.mayCall = true → c.isApi = true → (∀ now ∈ c.clock, now = UInt32.ofNat t) →
      schedulerCall z.vars c = .ok (s', r) →
      LoopStep beyond z (.call t c) ⟨s', z.place⟩ (.answer (c.target z.vars) r)
  | enter {t : ℕ} : z.place = .outside →
      LoopStep beyond z (.enter t) ⟨z.vars, if UInt32.ofNat t - z.vars.ticksSnap ≠ 0 then
        .scanning 0 z.vars.schedInfo.head else .leaving⟩ .nothing
  | nextScan {t i : ℕ} : z.place = .scanning i 0 → i + 1 ≤ PRIORITIES_CYCLE_LEN →
      LoopStep beyond z (.look t) ⟨z.vars, .scanning (i + 1) z.vars.schedInfo.head⟩ .nothing
  | lastScan {t i : ℕ} : z.place = .scanning i 0 → ¬ i + 1 ≤ PRIORITIES_CYCLE_LEN →
      LoopStep beyond z (.look t) ⟨z.vars, .leaving⟩ .nothing
  | run {t i : ℕ} {p : UInt32} {n : ListNode TaskNode} {s' : Scheduler} {r : SchedulerAnswer} :
      z.place = .scanning i p → p ≠ 0 → z.vars.tasks p = some n → n.value.active = true →
      n.value.sTask ≠ 0 → priorityAt beyond i = some n.value.sPriority →
      UInt32.ofNat t - n.value.nTicks ≥ n.value.sTicks →
      schedulerCall z.vars (.dispatch p (UInt32.ofNat t)) = .ok (s', r) →
      LoopStep beyond z (.look t) ⟨s', .running i p⟩ (.ran p)
  | skip {t i : ℕ} {p : UInt32} {n : ListNode TaskNode} :
      z.place = .scanning i p → p ≠ 0 → z.vars.tasks p = some n →
      ¬ (n.value.active = true ∧ n.value.sTask ≠ 0 ∧
        priorityAt beyond i = some n.value.sPriority ∧
        UInt32.ofNat t - n.value.nTicks ≥ n.value.sTicks) →
      LoopStep beyond z (.look t) ⟨z.vars, .scanning i n.next⟩ .nothing
  | taskReturn {t i : ℕ} {p : UInt32} {n : ListNode TaskNode} {s' : Scheduler} :
      z.place = .running i p → z.vars.tasks p = some n →
      schedulerCall z.vars (.elapsed p (UInt32.ofNat t)) = .ok (s', .nothing) →
      LoopStep beyond z (.taskReturn t) ⟨s', .scanning i n.next⟩ .nothing
  | leave {t : ℕ} : z.place = .leaving →
      LoopStep beyond z (.leave t)
        ⟨{ z.vars with ticksSnap := UInt32.ofNat t }, .outside⟩ .nothing

/-- **Every event goes in one of these ways.** -/
theorem loop_cases (h : schedulerStep beyond z e = .ok (z', o)) : LoopStep beyond z e z' o := by
  obtain ⟨s, place⟩ := z
  cases e with
  | call t c =>
      rw [schedulerStep] at h
      split at h
      next hmay =>
        rw [Bool.and_eq_true, Bool.and_eq_true] at hmay
        obtain ⟨⟨s', r⟩, hcall, heq⟩ := map_eq_ok.mp h
        obtain ⟨rfl, rfl⟩ := Prod.mk.inj heq
        refine .call hmay.1.1 hmay.1.2 (fun now hnow => ?_) hcall
        have hall := hmay.2
        rw [hnow] at hall
        exact of_decide_eq_true hall
      next => cases h
  | enter t =>
      cases place with
      | outside =>
          obtain ⟨rfl, rfl⟩ := Prod.mk.inj (Except.ok.inj h)
          exact .enter rfl
      | scanning i p => cases h
      | running i p => cases h
      | leaving => cases h
  | look t =>
      cases place with
      | scanning i p =>
          change lookAt beyond s i p (UInt32.ofNat t) = _ at h
          rw [lookAt] at h
          split at h
          next hp =>
            subst hp
            split at h
            next hi =>
              obtain ⟨rfl, rfl⟩ := Prod.mk.inj (Except.ok.inj h)
              exact .nextScan rfl hi
            next hi =>
              obtain ⟨rfl, rfl⟩ := Prod.mk.inj (Except.ok.inj h)
              exact .lastScan rfl hi
          next hp =>
            obtain ⟨n, hn, h⟩ := bind_eq_ok.mp h
            have hn := orFault_eq_ok.mp hn
            split at h
            next hdue =>
              obtain ⟨⟨s₁, given⟩, hdispatch, h⟩ := bind_eq_ok.mp h
              obtain ⟨rfl, rfl⟩ := Prod.mk.inj (Except.ok.inj h)
              have hcall : schedulerCall s (.dispatch p (UInt32.ofNat t)) =
                  .ok (s₁, .given given.1 given.2) := map_eq_ok.mpr ⟨_, hdispatch, rfl⟩
              exact .run rfl hp hn hdue.1 hdue.2.1 hdue.2.2.1 hdue.2.2.2 hcall
            next hdue =>
              obtain ⟨rfl, rfl⟩ := Prod.mk.inj (Except.ok.inj h)
              exact .skip rfl hp hn hdue
      | outside => cases h
      | running i p => cases h
      | leaving => cases h
  | taskReturn t =>
      cases place with
      | running i p =>
          obtain ⟨s₁, hchange, h⟩ := bind_eq_ok.mp h
          obtain ⟨n, hn, h⟩ := bind_eq_ok.mp h
          have hn := orFault_eq_ok.mp hn
          obtain ⟨rfl, rfl⟩ := Prod.mk.inj (Except.ok.inj h)
          obtain ⟨⟨m, hm⟩, rfl⟩ := changeTask_eq_ok hchange
          have hnext : n.next = m.next := by
            dsimp only at hn
            rw [map_self, hm] at hn
            rw [← Option.some.inj hn]
            rfl
          rw [hnext]
          exact .taskReturn rfl hm (map_eq_ok.mpr ⟨_, hchange, rfl⟩)
      | outside => cases h
      | scanning i p => cases h
      | leaving => cases h
  | leave t =>
      cases place with
      | leaving =>
          obtain ⟨rfl, rfl⟩ := Prod.mk.inj (Except.ok.inj h)
          exact .leave rfl
      | outside => cases h
      | scanning i p => cases h
      | running i p => cases h

/-- **The tasks stay a well formed list.** -/
theorem list_step (hl : IsList z.vars.tasks z.vars.schedInfo xs)
    (hstep : LoopStep beyond z e z' o) : ∃ xs', IsList z'.vars.tasks z'.vars.schedInfo xs' := by
  cases hstep with
  | call hmay hapi hclock hcall => exact (call_effect hl hcall).imp fun _ h => h.1
  | run hplace hp hn hactive hfun hprio hdue hcall =>
      exact (call_effect hl hcall).imp fun _ h => h.1
  | taskReturn hplace hn hcall => exact (call_effect hl hcall).imp fun _ h => h.1
  | enter hplace => exact ⟨xs, hl⟩
  | nextScan hplace hi => exact ⟨xs, hl⟩
  | lastScan hplace hi => exact ⟨xs, hl⟩
  | skip hplace hp hn hdue => exact ⟨xs, hl⟩
  | leave hplace => exact ⟨xs, hl⟩

/-- No function sets the snapshot of the ticks. -/
theorem withTask_ticksSnap (h : withTask s hndl f = .ok (s', b))
    (hf : ∀ p s', f p = .ok s' → s'.ticksSnap = s.ticksSnap) : s'.ticksSnap = s.ticksSnap := by
  rcases withTask_eq_ok h with ⟨rfl, -⟩ | ⟨-, p, -, -, hp⟩
  · rfl
  · exact hf p s' hp

/-- Changing a task does not. -/
theorem changeTask_ticksSnap (h : changeTask s p g = .ok s') : s'.ticksSnap = s.ticksSnap := by
  obtain ⟨-, rfl⟩ := changeTask_eq_ok h
  rfl

/-- Only leaving `scheduler()` sets the snapshot of the ticks. -/
theorem call_ticksSnap (h : schedulerCall s c = .ok (s', r)) : s'.ticksSnap = s.ticksSnap := by
  cases c with
  | create block active prio sTicks ptr now =>
      obtain ⟨o, hcreate, -⟩ := answer_eq_ok.mp h
      rw [sTaskCreate] at hcreate
      split at hcreate
      · obtain ⟨rfl, -⟩ := Prod.mk.inj (Except.ok.inj hcreate)
        rfl
      · split at hcreate
        · cases hcreate
        · obtain ⟨x, -, hcreate⟩ := bind_eq_ok.mp hcreate
          obtain ⟨rfl, -⟩ := Prod.mk.inj (Except.ok.inj hcreate)
          rfl
  | delete hndl =>
      obtain ⟨b, hdel, -⟩ := answer_eq_ok.mp h
      refine withTask_ticksSnap hdel fun p s' hnode => ?_
      obtain ⟨⟨tasks, info⟩, -, hnode⟩ := bind_eq_ok.mp hnode
      obtain ⟨node, -, hnode⟩ := bind_eq_ok.mp hnode
      obtain ⟨⟨msgs, mbox, hd⟩, -, hnode⟩ := bind_eq_ok.mp hnode
      obtain ⟨msgs', -, hnode⟩ := bind_eq_ok.mp hnode
      obtain ⟨tasks', -, hnode⟩ := bind_eq_ok.mp hnode
      obtain rfl := Except.ok.inj hnode
      rfl
  | getHandle ptr =>
      obtain ⟨a, -, ha⟩ := map_eq_ok.mp h
      obtain ⟨rfl, -⟩ := Prod.mk.inj ha
      rfl
  | getPriority hndl =>
      obtain ⟨a, -, ha⟩ := map_eq_ok.mp h
      obtain ⟨rfl, -⟩ := Prod.mk.inj ha
      rfl
  | getPeriodicTicks hndl =>
      obtain ⟨a, -, ha⟩ := map_eq_ok.mp h
      obtain ⟨rfl, -⟩ := Prod.mk.inj ha
      rfl
  | setPriority hndl prio =>
      obtain ⟨b, hset, -⟩ := answer_eq_ok.mp h
      exact withTask_ticksSnap hset fun _ _ => changeTask_ticksSnap
  | suspend hndl =>
      obtain ⟨b, hset, -⟩ := answer_eq_ok.mp h
      exact withTask_ticksSnap hset fun _ _ => changeTask_ticksSnap
  | resume hndl now =>
      obtain ⟨b, hset, -⟩ := answer_eq_ok.mp h
      exact withTask_ticksSnap hset fun _ _ => changeTask_ticksSnap
  | setPeriodicTicks hndl sTicks run now =>
      obtain ⟨b, hset, -⟩ := answer_eq_ok.mp h
      exact withTask_ticksSnap hset fun _ _ => changeTask_ticksSnap
  | sendMsg src dst bytes count blocks =>
      obtain ⟨b, hsend, -⟩ := answer_eq_ok.mp h
      rw [sTaskSendMsg] at hsend
      split at hsend
      · obtain ⟨rfl, -⟩ := Prod.mk.inj (Except.ok.inj hsend)
        rfl
      · split at hsend
        · cases hsend
        · split at hsend
          · obtain ⟨rfl, -⟩ := Prod.mk.inj (Except.ok.inj hsend)
            rfl
          · obtain ⟨data, -, hsend⟩ := bind_eq_ok.mp hsend
            obtain ⟨x, -, hsend⟩ := bind_eq_ok.mp hsend
            obtain ⟨rfl, -⟩ := Prod.mk.inj (Except.ok.inj hsend)
            rfl
  | flushMsgs p =>
      obtain ⟨b, hflush, -⟩ := answer_eq_ok.mp h
      obtain ⟨msgs, hchange⟩ := flushTask_eq_ok hflush
      exact (changeTask_ticksSnap hchange).trans rfl
  | dispatch p now =>
      obtain ⟨b, hdispatch, -⟩ := answer_eq_ok.mp h
      obtain ⟨msgs, mbox, hd, hchange⟩ := dispatchTask_eq_ok hdispatch
      exact (changeTask_ticksSnap hchange).trans rfl
  | elapsed p now =>
      obtain ⟨s₁, hchange, heq⟩ := map_eq_ok.mp h
      obtain ⟨rfl, -⟩ := Prod.mk.inj heq
      exact changeTask_ticksSnap hchange

end Muxponder
