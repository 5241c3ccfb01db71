import Muxponder.SchedulerTable

/-!
# The Tasks of the Scheduler

The handle of a task is the number of tasks that have been created, in 16 bits. The counter is
never reset and never looks at the tasks that are there, so after 65536 tasks it gives the null
handle, and then handles of tasks that are still there.

`taskSpec` says what a call is for: a list of tasks in the order in which they were created, of
which a handle picks one.

## Main results

* `taskCall_spec`: where every handle is new, a call does to the linked list what `taskSpec` says,
  and follows no pointer to a task that is not there.
* `taskList_of_run`: in every run that creates tasks with new handles only, the list is well
  formed, the handles are different, and every call does what `taskSpec` says.
* `handles_repeat`: the 65536th task gets the null handle, and the next one that of the idle task.
-/

namespace Muxponder

open LinkedList Memory

/-! ### What the calls are for -/

/-- Changing the task with a handle. -/
def onTask (hndl : UInt16) (g : TaskNode → TaskNode) (ts : List TaskNode) : List TaskNode :=
  ts.map fun t => if t.sTaskId = hndl then g t else t

/-- What a call does to the tasks, if the next one gets the handle `id`, and what it returns. -/
def taskSpec (id : UInt16) (ts : List TaskNode) :
    SchedulerCall → List TaskNode × SchedulerAnswer
  | .create block active prio sTicks ptr now =>
      if block = 0 then (ts, .created none)
      else (ts ++ [newTask id active prio sTicks ptr now], .created (some id))
  | .getHandle ptr => (ts, .handle (((ts.find? (·.sTask = ptr)).map (·.sTaskId)).getD 0))
  | .delete hndl => (ts.filter (·.sTaskId ≠ hndl), .result (isLive hndl ts))
  | .getPriority hndl => (ts, .priority ((ts.find? (·.sTaskId = hndl)).map (·.sPriority)))
  | .setPriority hndl prio =>
      (onTask hndl (fun t => { t with sPriority := prio }) ts, .result (isLive hndl ts))
  | .suspend hndl =>
      (onTask hndl (fun t => { t with active := false }) ts, .result (isLive hndl ts))
  | .resume hndl now =>
      (onTask hndl (fun t => { t with active := true, nTicks := now - t.sTicks }) ts,
        .result (isLive hndl ts))
  | .getPeriodicTicks hndl => (ts, .ticks ((ts.find? (·.sTaskId = hndl)).map (·.sTicks)))
  | .setPeriodicTicks hndl sTicks run now =>
      (onTask hndl (fun t =>
          { t with sTicks := sTicks, nTicks := if run then now - sTicks else now }) ts,
        .result (isLive hndl ts))
  | .sendMsg .. | .flushMsgs _ | .dispatch .. | .elapsed .. => (ts, .nothing)

/-- The calls that are about the list of tasks. -/
def SchedulerCall.isTaskCall : SchedulerCall → Bool
  | .sendMsg .. | .flushMsgs _ | .dispatch .. | .elapsed .. => false
  | _ => true

/-- The handles of the tasks that are there, in the order in which they were created: those that
have been given out and not been deleted. -/
def SchedulerHistory.liveHandles (h : SchedulerHistory) (idle : UInt16) : List UInt16 :=
  h.foldl (fun live e => match e with
    | (.create .., .created (some id)) => live ++ [id]
    | (.delete hndl, .result true) => live.filter (· ≠ hndl)
    | _ => live) [idle]

variable {s s' : Scheduler} {xs ls rs : Nodes TaskNode} {p q block now sTicks ptr : UInt32}
  {v : TaskNode} {hndl id : UInt16} {g : TaskNode → TaskNode} {c : SchedulerCall}
  {r : SchedulerAnswer} {prio : TaskPriority} {active : Bool} {h : SchedulerHistory}

/-! ### Messages that are not there -/

/-- Where the mailbox is empty, nothing is extracted. -/
theorem sTaskExtractMsg_empty {msgs : NodeHeap TaskMsg} {mbox : ListVars} {dst : UInt16}
    (hm : mbox.head = 0) : sTaskExtractMsg msgs mbox dst 0 = some (msgs, mbox, 0) := by
  have hnil : Segment msgs 0 [] 0 := trivial
  have hlast : findLast FUEL msgs 0 0 = some 0 := findLast_spec hnil (by simp) (by simp [FUEL])
  rw [sTaskExtractMsg, hlast, hm]
  rfl

/-- Nothing is freed of an empty list. -/
theorem sTaskFlushMsgs_empty {msgs : NodeHeap TaskMsg} : sTaskFlushMsgs FUEL msgs 0 = some msgs :=
  rfl

/-! ### Calls -/

/-- A table of tasks where no message has been sent. -/
structure SilentTable (s : Scheduler) (xs : Nodes TaskNode) : Prop extends TaskTable s xs where
  mailbox : s.mboxInfo.head = 0
  messages : ∀ x ∈ xs, x.2.sTaskMsg = 0

/-- Changing the task with a handle in a list that is cut there. -/
theorem onTask_split (hn : ((ls ++ (p, v) :: rs).map fun x => x.2.sTaskId).Nodup)
    (hv : v.sTaskId = hndl) : onTask hndl g ((ls ++ (p, v) :: rs).map Prod.snd) =
      (ls ++ (p, g v) :: rs).map Prod.snd := by
  simp only [List.map_append, List.map_cons, List.nodup_middle, List.nodup_cons,
    List.mem_append, not_or, hv] at hn
  have hother (zs : Nodes TaskNode) (hz : hndl ∉ zs.map fun x => x.2.sTaskId) :
      onTask hndl g (zs.map Prod.snd) = zs.map Prod.snd := by
    rw [onTask, List.map_map]
    refine List.map_congr_left fun x hx => if_neg ?_
    rintro rfl
    exact hz (List.mem_map_of_mem (f := fun x => x.2.sTaskId) hx)
  calc onTask hndl g ((ls ++ (p, v) :: rs).map Prod.snd)
      = onTask hndl g (ls.map Prod.snd) ++ g v :: onTask hndl g (rs.map Prod.snd) := by
        simp [onTask, hv]
    _ = ls.map Prod.snd ++ g v :: rs.map Prod.snd := by rw [hother ls hn.1.1, hother rs hn.1.2]
    _ = (ls ++ (p, g v) :: rs).map Prod.snd := by simp

/-- Changing the task with a handle that is not live changes nothing. -/
theorem onTask_dead {ts : List TaskNode} (hdead : isLive hndl ts = false) :
    onTask hndl g ts = ts := by
  rw [onTask, List.map_congr_left, List.map_id]
  intro t ht
  exact if_neg (by simpa using List.any_eq_false.mp hdead t ht)

/-- Nor does deleting it. -/
theorem filter_dead {ts : List TaskNode} (hdead : isLive hndl ts = false) :
    ts.filter (·.sTaskId ≠ hndl) = ts := by
  rw [List.filter_eq_self]
  intro t ht
  simpa using List.any_eq_false.mp hdead t ht

/-- The table behind a function that changes the task with a handle. -/
theorem SilentTable.withTask_change (ht : SilentTable s xs) (hndl : UInt16)
    (hg : ∀ v, (g v).sTaskId = v.sTaskId ∧ (g v).sTaskMsg = v.sTaskMsg) :
    ∃ s' xs', withTask s hndl (fun p => changeTask s p g) =
        .ok (s', isLive hndl (xs.map Prod.snd)) ∧ SilentTable s' xs' ∧
      xs'.map Prod.snd = onTask hndl g (xs.map Prod.snd) := by
  rcases ht.locate_cases hndl with ⟨hdead, hloc⟩ | ⟨ls, p, v, rs, rfl, hv, hp, hlive, hloc⟩
  · rw [hdead]
    exact ⟨s, xs, withTask_dead hloc, ht, (onTask_dead hdead).symm⟩
  · rw [hlive]
    refine ⟨_, ls ++ (p, g v) :: rs, withTask_live hloc hp (changeTask_eq ht.segment.node),
      ⟨ht.toTaskTable.change (hg v).1, ht.mailbox, ?_⟩, (onTask_split ht.handles hv).symm⟩
    have hmsgs := ht.messages
    simp only [List.mem_append, List.mem_cons] at hmsgs ⊢
    rintro x (hx | rfl | hx)
    · exact hmsgs x (Or.inl hx)
    · exact (hg v).2.trans (hmsgs (p, v) (Or.inr (Or.inl rfl)))
    · exact hmsgs x (Or.inr (Or.inr hx))

/-- The table behind a creation. -/
theorem SilentTable.create (ht : SilentTable s xs) (active : Bool) (prio : TaskPriority)
    (sTicks ptr now : UInt32) (hb : block ≠ 0) (hmalloc : s.tasks block = none)
    (hid : s.sTaskId + 1 ≠ 0) (hfresh : s.sTaskId + 1 ∉ xs.map fun x => x.2.sTaskId) :
    ∃ s', sTaskCreate s block active prio sTicks ptr now = .ok (s', some (s.sTaskId + 1)) ∧
      SilentTable s' (xs ++ [(block, newTask (s.sTaskId + 1) active prio sTicks ptr now)]) ∧
      s'.sTaskId = s.sTaskId + 1 := by
  obtain ⟨s', hcreate, ht', -, hmbox, hid'⟩ :=
    ht.toTaskTable.create active prio sTicks ptr now hb hmalloc hid hfresh
  refine ⟨s', hcreate, ⟨ht', by rw [hmbox, ht.mailbox], fun x hx => ?_⟩, hid'⟩
  rcases List.mem_append.mp hx with hx | hx
  · exact ht.messages x hx
  · rw [List.mem_singleton.mp hx]
    rfl

/-- The table behind a deletion. -/
theorem SilentTable.delete (ht : SilentTable s xs) (hndl : UInt16) :
    ∃ s', sTaskDelete s hndl = .ok (s', isLive hndl (xs.map Prod.snd)) ∧
      SilentTable s' (xs.filter fun x => x.2.sTaskId ≠ hndl) ∧ s'.sTaskId = s.sTaskId := by
  rcases ht.locate_cases hndl with ⟨hdead, hloc⟩ | ⟨ls, p, v, rs, rfl, hv, hp, hlive, hloc⟩
  · have hkept : (xs.filter fun x => x.2.sTaskId ≠ hndl) = xs := by
      rw [List.filter_eq_self]
      intro x hx
      simpa using List.any_eq_false.mp hdead x.2 (List.mem_map_of_mem hx)
    rw [hkept, hdead]
    exact ⟨s, withTask_dead hloc, ht, rfl⟩
  · have hmsg : v.sTaskMsg = 0 := ht.messages (p, v) (by simp)
    obtain ⟨s', hdel, ht', -, hmbox, hid⟩ := ht.toTaskTable.delete
      (by rw [hmsg]; exact sTaskExtractMsg_empty ht.mailbox) sTaskFlushMsgs_empty
    rw [hlive, ht.filter_handle hv]
    refine ⟨s', withTask_live hloc hp hdel, ⟨ht', by rw [hmbox, ht.mailbox], fun x hx => ?_⟩,
      hid⟩
    refine ht.messages x ?_
    rcases List.mem_append.mp hx with hx | hx
    · exact List.mem_append_left _ hx
    · exact List.mem_append_right _ (List.mem_cons_of_mem _ hx)

/-- **Where every handle is new, a call does what it is for.** -/
theorem taskCall_spec (ht : SilentTable s xs) (hc : c.isTaskCall = true)
    (hm : MallocIsFresh s c) (hf : FreshHandle s c) :
    ∃ s' xs', schedulerCall s c =
        .ok (s', (taskSpec (s.sTaskId + 1) (xs.map Prod.snd) c).2) ∧ SilentTable s' xs' ∧
      xs'.map Prod.snd = (taskSpec (s.sTaskId + 1) (xs.map Prod.snd) c).1 := by
  cases c with
  | create block active prio sTicks ptr now =>
      by_cases hb : block = 0
      · refine ⟨s, xs, ?_, ht, ?_⟩
        · simp [schedulerCall, sTaskCreate, taskSpec, hb]
        · simp [taskSpec, hb]
      · obtain ⟨hid, hother⟩ := hf _ _ _ _ _ _ rfl hb
        have hfresh : s.sTaskId + 1 ∉ xs.map fun x => x.2.sTaskId := by
          intro hmem
          obtain ⟨⟨a, v⟩, hx, hv⟩ := List.mem_map.mp hmem
          obtain ⟨ls, rs, rfl⟩ := List.append_of_mem hx
          exact hother a _ ht.segment.node hv
        obtain ⟨s', hcreate, ht', -⟩ :=
          ht.create active prio sTicks ptr now hb (hm _ _ _ _ _ _ rfl hb) hid hfresh
        exact ⟨s', _, by simp [schedulerCall, hcreate, taskSpec, hb], ht', by simp [taskSpec, hb]⟩
  | getHandle ptr =>
      exact ⟨s, xs, by simp [schedulerCall, ht.getHandle_spec, taskSpec], ht, rfl⟩
  | delete hndl =>
      obtain ⟨s', hdel, ht', -⟩ := ht.delete hndl
      exact ⟨s', _, by simp [schedulerCall, hdel, taskSpec], ht', by
        simp [taskSpec, List.filter_map, Function.comp_def]⟩
  | getPriority hndl =>
      exact ⟨s, xs, by simp [schedulerCall, sTaskGetPriority, ht.readTask_spec, taskSpec], ht, rfl⟩
  | getPeriodicTicks hndl =>
      exact ⟨s, xs, by simp [schedulerCall, sTaskGetPeriodicTicks, ht.readTask_spec, taskSpec],
        ht, rfl⟩
  | setPriority hndl prio =>
      obtain ⟨s', xs', hset, ht', hxs'⟩ := ht.withTask_change hndl
        (g := fun v => { v with sPriority := prio }) fun v => ⟨rfl, rfl⟩
      exact ⟨s', xs', by simp [schedulerCall, sTaskSetPriority, hset, taskSpec], ht', hxs'⟩
  | suspend hndl =>
      obtain ⟨s', xs', hset, ht', hxs'⟩ := ht.withTask_change hndl
        (g := fun v => { v with active := false }) fun v => ⟨rfl, rfl⟩
      exact ⟨s', xs', by simp [schedulerCall, sTaskSuspend, hset, taskSpec], ht', hxs'⟩
  | resume hndl now =>
      obtain ⟨s', xs', hset, ht', hxs'⟩ := ht.withTask_change hndl
        (g := fun v => { v with active := true, nTicks := now - v.sTicks }) fun v => ⟨rfl, rfl⟩
      exact ⟨s', xs', by simp [schedulerCall, sTaskResume, hset, taskSpec], ht', hxs'⟩
  | setPeriodicTicks hndl sTicks run now =>
      obtain ⟨s', xs', hset, ht', hxs'⟩ := ht.withTask_change hndl
        (g := fun v => { v with sTicks := sTicks, nTicks := if run then now - sTicks else now })
        fun v => ⟨rfl, rfl⟩
      exact ⟨s', xs', by simp [schedulerCall, sTaskSetPeriodicTicks, hset, taskSpec], ht', hxs'⟩
  | sendMsg | flushMsgs | dispatch | elapsed => cases hc

/-! ### Runs -/

/-- The handles of the tasks behind a call are those that have been given out and not been
deleted. -/
theorem liveHandles_taskSpec {idle : UInt16} {ts : List TaskNode} (hc : c.isTaskCall = true)
    (hlive : h.liveHandles idle = ts.map (·.sTaskId)) :
    SchedulerHistory.liveHandles (h ++ [(c, (taskSpec id ts c).2)]) idle =
      (taskSpec id ts c).1.map (·.sTaskId) := by
  have hon (hndl : UInt16) (g : TaskNode → TaskNode) (hg : ∀ v, (g v).sTaskId = v.sTaskId) :
      (onTask hndl g ts).map (·.sTaskId) = ts.map (·.sTaskId) := by
    rw [onTask, List.map_map]
    refine List.map_congr_left fun t _ => ?_
    rw [Function.comp_apply]
    split
    · exact hg t
    · rfl
  rw [SchedulerHistory.liveHandles] at hlive
  rw [SchedulerHistory.liveHandles, List.foldl_append, hlive]
  cases c with
  | create block active prio sTicks ptr now =>
      by_cases hb : block = 0 <;> simp [taskSpec, hb, newTask]
  | delete hndl =>
      cases hl : isLive hndl ts with
      | true => simp [taskSpec, hl, List.filter_map, Function.comp_def]
      | false =>
          have hfilter := filter_dead hl
          simp only [taskSpec, hl, List.foldl_cons, List.foldl_nil, hfilter]
  | getHandle | getPriority | getPeriodicTicks => rfl
  | setPriority | suspend | resume | setPeriodicTicks =>
      simp only [taskSpec, List.foldl_cons, List.foldl_nil]
      rw [hon]
      exact fun _ => rfl
  | sendMsg | flushMsgs | dispatch | elapsed => cases hc

/-- `scheduler_init` creates the idle task. -/
theorem silentTable_init {hidle : UInt16}
    (hinit : schedulerInit schedulerPowerOn block ptr now = .ok (s, some hidle)) :
    hidle = 1 ∧ SilentTable s [(block, newTask 1 true .high 1 ptr now)] := by
  by_cases hb : block = 0
  · rw [schedulerInit, sTaskCreate, if_pos hb] at hinit
    cases hinit
  · have h0 : TaskTable { schedulerPowerOn with
        schedInfo := ⟨0, 0, 0⟩
        mboxInfo := { schedulerPowerOn.mboxInfo with head := 0, tail := 0 } } [] :=
      ⟨isList_nil, List.nodup_nil, by simp, by simp [schedulerPowerOn]⟩
    obtain ⟨s', hcreate, ht, -, hmbox, -⟩ := h0.create true .high 1 ptr now hb rfl
      (by decide) (by simp)
    obtain ⟨rfl, hid⟩ := Prod.mk.inj (Except.ok.inj (hcreate.symm.trans hinit))
    refine ⟨(Option.some.inj hid).symm, ht, by rw [hmbox], fun x hx => ?_⟩
    rw [List.mem_singleton.mp hx]
    rfl

/-- **In every run of calls that creates tasks with new handles only**, the tasks are a well
formed list in the order in which they were created, as long as its counter says, their handles
are not null and different, and every call does to the tasks what it is for: it changes the one
task with its handle, and fails where there is none. -/
theorem taskList_of_run (block sTaskIdle now : UInt32) (s₀ s : Scheduler) (idle : UInt16)
    (hinit : schedulerInit schedulerPowerOn block sTaskIdle now = .ok (s₀, some idle))
    (h : SchedulerHistory) (hr : schedulerCalls.Run s₀ h s)
    (hcalls : ∀ e ∈ h, e.1.isTaskCall = true) (hc : schedulerCalls.Along s₀ h FreshHandle) :
    ∃ xs : Nodes TaskNode, IsList s.tasks s.schedInfo xs ∧
      s.schedInfo.count.toNat = xs.length ∧
      xs.map (fun x => x.2.sTaskId) = h.liveHandles idle ∧
      0 ∉ h.liveHandles idle ∧ (h.liveHandles idle).Nodup ∧
      ∀ c, c.isTaskCall = true → MallocIsFresh s c → FreshHandle s c →
        ∃ s' xs', schedulerCall s c =
            .ok (s', (taskSpec (s.sTaskId + 1) (xs.map Prod.snd) c).2) ∧
          IsList s'.tasks s'.schedInfo xs' ∧
          xs'.map Prod.snd = (taskSpec (s.sTaskId + 1) (xs.map Prod.snd) c).1 := by
  obtain ⟨rfl, h0⟩ := silentTable_init hinit
  have hI : (∀ e ∈ h, e.1.isTaskCall = true) → ∃ xs, SilentTable s xs ∧
      h.liveHandles 1 = (xs.map Prod.snd).map (·.sTaskId) := by
    refine hr.invariant_along (I := fun (h : SchedulerHistory) s =>
      (∀ e ∈ h, e.1.isTaskCall = true) → ∃ xs, SilentTable s xs ∧
        h.liveHandles 1 = (xs.map Prod.snd).map (·.sTaskId)) (fun _ => ⟨_, h0, rfl⟩) ?_ hc
    intro h s c s' r _ hI hfresh hstep hall
    obtain ⟨xs, ht, hlive⟩ := hI fun e he => hall e (List.mem_append_left _ he)
    have htask : c.isTaskCall = true := hall (c, r) (by simp)
    have hcall := schedulerCalls_step hstep
    obtain ⟨s'', xs', hspec, ht', hxs'⟩ :=
      taskCall_spec ht htask (mallocIsFresh_of_ok hcall) hfresh
    obtain ⟨rfl, rfl⟩ := Prod.mk.inj (Except.ok.inj (hcall.symm.trans hspec))
    exact ⟨xs', ht', by rw [hxs', liveHandles_taskSpec htask hlive]⟩
  obtain ⟨xs, ht, hlive⟩ := hI hcalls
  rw [List.map_map] at hlive
  refine ⟨xs, ht.toIsList, ht.count_toNat, hlive.symm, ?_, ?_, fun c htask hm hf => ?_⟩
  · rw [hlive]
    exact ht.handles_ne_zero
  · rw [hlive]
    exact ht.handles
  · obtain ⟨s', xs', hcall, ht', hxs'⟩ := taskCall_spec ht htask hm hf
    exact ⟨s', xs', hcall, ht'.toIsList, hxs'⟩

/-! ### Handles that are given out again -/

/-- The device right after `scheduler_init`, with the idle task at `0x1000`. -/
theorem exists_init : ∃ s₀, schedulerInit schedulerPowerOn 0x1000 0x2000 0 = .ok (s₀, some 1) ∧
    SilentTable s₀ [(0x1000, newTask 1 true .high 1 0x2000 0)] ∧ s₀.sTaskId = 1 := by
  have hinit : schedulerInit schedulerPowerOn 0x1000 0x2000 0 = .ok (_, some 1) := rfl
  exact ⟨_, hinit, (silentTable_init hinit).2, rfl⟩

/-- The creation of a task at `0x3000`. -/
def oneMore : SchedulerCall := .create 0x3000 true .low 5 0x2000 0

/-- A task is created and gets its place behind the idle task. -/
theorem taskList_of_run_oneMore : ∃ (s₀ s : Scheduler) (xs : Nodes TaskNode),
    schedulerInit schedulerPowerOn 0x1000 0x2000 0 = .ok (s₀, some 1) ∧
      schedulerCalls.Run s₀ [(oneMore, .created (some 2))] s ∧
      IsList s.tasks s.schedInfo xs ∧ xs.map (fun x => x.2.sTaskId) = [1, 2] := by
  obtain ⟨s₀, hinit, ht, hid⟩ := exists_init
  have hfree : s₀.tasks 0x3000 = none := ht.toTaskTable.eq_none (by decide)
  have hne : s₀.sTaskId + 1 ≠ 0 := by
    rw [hid]
    decide
  obtain ⟨s, hcreate, -⟩ := ht.create true .low 5 0x2000 0 (by decide) hfree hne (by
    rw [hid]
    decide)
  rw [hid] at hcreate
  have hr : schedulerCalls.Run s₀ [(oneMore, .created (some 2))] s := .single (by
    simp [schedulerCalls, schedulerCall, oneMore, hcreate, Except.toOption])
  have hc : schedulerCalls.Along s₀ [(oneMore, .created (some 2))] FreshHandle :=
    .snoc .nil .nil (ht.toTaskTable.freshHandle hne (by
      rw [hid]
      decide))
  obtain ⟨xs, hl, -, hlive, -⟩ := taskList_of_run 0x1000 0x2000 0 s₀ s 1 hinit _ hr
    (by simp [oneMore, SchedulerCall.isTaskCall]) hc
  exact ⟨s₀, s, xs, hinit, hr, hl, hlive⟩

/-- Tasks are created and deleted, one after the other. -/
theorem exists_oneMore_run {s₀ : Scheduler} (hv : v.sTaskId = 1)
    (h0 : SilentTable s₀ [(0x1000, v)]) (hid : s₀.sTaskId = 1) (n : ℕ) (hn : n ≤ 65534) :
    ∃ h s, schedulerCalls.Run s₀ h s ∧ (∀ e ∈ h, e.1.isTaskCall = true) ∧
      SilentTable s [(0x1000, v)] ∧ s.sTaskId = UInt16.ofNat (n + 1) := by
  induction n with
  | zero => exact ⟨[], s₀, .nil, by simp, h0, hid⟩
  | succ n ih =>
      obtain ⟨h, s, hr, hall, ht, hs⟩ := ih (by omega)
      have hnext : (s.sTaskId + 1).toNat = n + 2 := by
        rw [hs, UInt16.toNat_add, UInt16.toNat_ofNat', UInt16.toNat_one]
        omega
      have hne : s.sTaskId + 1 ≠ 0 := fun h0 => by
        rw [h0] at hnext
        cases hnext
      have hne1 : s.sTaskId + 1 ≠ 1 := fun h1 => by
        rw [h1] at hnext
        change 1 = _ at hnext
        omega
      obtain ⟨s₁, hcreate, ht₁, hs₁⟩ := ht.create true .low 5 0x2000 0
        (show (0x3000 : UInt32) ≠ 0 by decide) (ht.toTaskTable.eq_none (by simp)) hne
        (by simpa [hv] using hne1)
      have hr₁ : schedulerCalls.Run s₀ (h ++ [(oneMore, .created (some (s.sTaskId + 1)))]) s₁ :=
        run_snoc hr (by simp [schedulerCall, oneMore, hcreate])
      obtain ⟨s₂, hdel, ht₂, hs₂⟩ := ht₁.delete (s.sTaskId + 1)
      refine ⟨_, s₂, run_snoc (c := .delete (s.sTaskId + 1)) hr₁
        (by rw [schedulerCall, hdel, map_ok, Prod.map_apply, id]), fun e he => ?_, ?_, ?_⟩
      · simp only [List.mem_append, List.mem_singleton] at he
        rcases he with (he | rfl) | rfl
        · exact hall e he
        · rfl
        · rfl
      · simpa [newTask, hv, hne1.symm] using ht₂
      · rw [hs₂, hs₁, hs]
        exact (UInt16.ofNat_add (n + 1) 1).symm

/-- **Behind 65534 tasks that are created and deleted**, the next one gets the null handle, and
the one behind it the handle of the idle task, which is still there. -/
theorem handles_repeat : ∃ (s₀ s : Scheduler) (h : SchedulerHistory) (xs : Nodes TaskNode),
    schedulerInit schedulerPowerOn 0x1000 0x2000 0 = .ok (s₀, some 1) ∧
      schedulerCalls.Run s₀ h s ∧ (∀ e ∈ h, e.1.isTaskCall = true) ∧
      IsList s.tasks s.schedInfo xs ∧ xs.map (fun x => x.2.sTaskId) = [1, 0, 1] := by
  obtain ⟨s₀, hinit, h0, hid⟩ := exists_init
  obtain ⟨h, s, hr, hall, ht, hs⟩ := exists_oneMore_run rfl h0 hid 65534 (by omega)
  have hwrap : s.sTaskId + 1 = 0 := by
    rw [hs]
    rfl
  obtain ⟨s₁, hcreate₁, hl₁, -, -, hs₁, hframe⟩ := sTaskCreate_list ht.toIsList true .low 5 0x2000 0
    (show (0x3000 : UInt32) ≠ 0 by decide) (ht.toTaskTable.eq_none (by simp))
  have hfree : s₁.tasks 0x4000 = none :=
    (hframe _ (by simp)).trans (ht.toTaskTable.eq_none (by simp))
  obtain ⟨s₂, hcreate₂, hl₂, -⟩ := sTaskCreate_list hl₁ true .low 5 0x2000 0
    (show (0x4000 : UInt32) ≠ 0 by decide) hfree
  have hr₁ : schedulerCalls.Run s₀ (h ++ [(oneMore, .created (some (s.sTaskId + 1)))]) s₁ :=
    run_snoc hr (by simp [schedulerCall, oneMore, hcreate₁])
  refine ⟨s₀, s₂, _, _, hinit, run_snoc (c := .create 0x4000 true .low 5 0x2000 0) hr₁
    (by rw [schedulerCall, hcreate₂, map_ok, Prod.map_apply, id]), fun e he => ?_, hl₂, ?_⟩
  · simp only [List.mem_append, List.mem_singleton] at he
    rcases he with (he | rfl) | rfl
    · exact hall e he
    · rfl
    · rfl
  · simp [newTask, hs₁, hwrap]

end Muxponder
