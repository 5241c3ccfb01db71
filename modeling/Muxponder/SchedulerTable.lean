import Mathlib.Data.List.TakeWhile
import Muxponder.Scheduler

/-!
# The Table of Tasks

A `TaskTable` is a linked list of tasks with handles that are not null and different, which are
all the tasks there are in memory. Its counter of 16 bits is right, as there are no more tasks
than handles, and a handle finds the one task that has it.

## Main results

* `TaskTable.locate_cases`: a handle that is live finds its task, and no other finds one.
* `TaskTable.create`, `TaskTable.change`, `TaskTable.delete`: the table behind a function that
  creates, changes or deletes a task.
-/

namespace Muxponder

open LinkedList Memory

/-- Whether there is a task with a handle. -/
def isLive (hndl : UInt16) (ts : List TaskNode) : Bool := ts.any (·.sTaskId = hndl)

/-- The condition on a call: a task that is created gets a handle that is not null and that no
task in memory has. -/
def FreshHandle (s : Scheduler) (c : SchedulerCall) : Prop :=
  ∀ block active prio sTicks ptr now, c = .create block active prio sTicks ptr now → block ≠ 0 →
    s.sTaskId + 1 ≠ 0 ∧ ∀ a n, s.tasks a = some n → n.value.sTaskId ≠ s.sTaskId + 1

/-- What `malloc` gives a task is not in use. -/
def MallocIsFresh (s : Scheduler) (c : SchedulerCall) : Prop :=
  ∀ block active prio sTicks ptr now, c = .create block active prio sTicks ptr now → block ≠ 0 →
    s.tasks block = none

/-! ### Results -/

section results

variable {α β ε : Type} {f : SchedulerFault} {o : Option α} {a : α} {b : β} {x : Except ε α}
  {g : α → β} {k : α → Except ε β}

@[simp] theorem orFault_eq_ok : orFault f o = .ok a ↔ o = some a := by
  cases o <;> simp [orFault]

@[simp] theorem orFault_some : orFault f (some a) = .ok a := rfl

/-- A sequence has a result where both of its parts have. -/
theorem bind_eq_ok : x >>= k = .ok b ↔ ∃ a, x = .ok a ∧ k a = .ok b := by
  cases x with
  | error e => exact ⟨nofun, fun ⟨_, h, _⟩ => nomatch h⟩
  | ok a => exact ⟨fun h => ⟨a, rfl, h⟩, fun ⟨_, h, hk⟩ => Except.ok.inj h ▸ hk⟩

/-- So has a result that is changed. -/
theorem map_eq_ok : x.map g = .ok b ↔ ∃ a, x = .ok a ∧ g a = b := by
  cases x with
  | error e => exact ⟨nofun, fun ⟨_, h, _⟩ => nomatch h⟩
  | ok a => simp [Except.map]

/-- So has one whose answer is changed. -/
theorem answer_eq_ok {σ : Type} {x : Except ε (σ × α)} {s : σ} :
    x.map (Prod.map id g) = .ok (s, b) ↔ ∃ a, x = .ok (s, a) ∧ g a = b := by
  rw [map_eq_ok]
  constructor
  · rintro ⟨⟨s', a⟩, hx, heq⟩
    obtain ⟨rfl, hg⟩ := Prod.mk.inj heq
    exact ⟨a, hx, hg⟩
  · rintro ⟨a, hx, rfl⟩
    exact ⟨(s, a), hx, rfl⟩

/-- A sequence fails where one of its parts does. -/
theorem bind_eq_error {e : ε} :
    x >>= k = .error e ↔ x = .error e ∨ ∃ a, x = .ok a ∧ k a = .error e := by
  cases x with
  | error e' =>
      refine ⟨fun h => Or.inl (congrArg _ (Except.error.inj h)), fun h => ?_⟩
      rcases h with h | ⟨_, h, _⟩
      · exact congrArg _ (Except.error.inj h)
      · cases h
  | ok a =>
      refine ⟨fun h => Or.inr ⟨a, rfl, h⟩, fun h => ?_⟩
      rcases h with h | ⟨_, h, hk⟩
      · cases h
      · exact Except.ok.inj h ▸ hk

/-- What is missing is the fault that there is. -/
theorem orFault_eq_error {f' : SchedulerFault} (h : orFault f o = .error f') :
    o = none ∧ f = f' := by
  cases o with
  | none => exact ⟨rfl, Except.error.inj h⟩
  | some a => cases h

@[simp] theorem ok_bind : (Except.ok a : Except ε α) >>= k = k a := rfl

@[simp] theorem map_ok : (Except.ok a : Except ε α).map g = .ok (g a) := rfl

end results

variable {s s' : Scheduler} {xs ls rs : Nodes TaskNode} {p q block now sTicks ptr : UInt32}
  {v : TaskNode} {hndl id : UInt16} {g : TaskNode → TaskNode} {c : SchedulerCall}
  {r : SchedulerAnswer} {prio : TaskPriority} {active : Bool} {h : SchedulerHistory}

/-! ### Finding a task -/

/-- A list whose counter is right finds a task by its handle, or none. -/
theorem sTaskLocate_spec (hl : IsList s.tasks s.schedInfo xs) (hlen : xs.length < 2 ^ 16)
    (hndl : UInt16) : sTaskLocate s hndl =
      .ok (first (xs.dropWhile fun x => !(x.2.sTaskId = hndl : Bool)) 0) := by
  rw [sTaskLocate]
  split
  · rw [hl.start, find_spec hl.segment hl.nonzero hl.length_lt, orFault_some]
  next hzero =>
    have hnil : xs = [] := by
      have hcount := congrArg UInt16.toNat (hl.count.symm.trans (not_not.mp hzero))
      rw [UInt16.toNat_ofNat_of_lt' hlen] at hcount
      exact List.length_eq_zero_iff.mp hcount
    subst hnil
    exact congrArg Except.ok hl.start

/-- The first task with a property, and those in front of it and behind it. -/
theorem exists_split {f : TaskNode → Bool} (hany : (xs.map Prod.snd).any f = true) :
    ∃ ls p v rs, xs = ls ++ (p, v) :: rs ∧ f v = true ∧ (xs.map Prod.snd).find? f = some v ∧
      (xs.dropWhile fun x => !f x.2) = (p, v) :: rs := by
  induction xs with
  | nil => cases hany
  | cons x xs ih =>
      obtain ⟨a, w⟩ := x
      cases hw : f w with
      | true => exact ⟨[], a, w, xs, rfl, hw, by simp [hw], by simp [hw]⟩
      | false =>
          have hany' : (xs.map Prod.snd).any f = true := by simpa [hw] using hany
          obtain ⟨ls, p, v, rs, rfl, hv, hfind, hdrop⟩ := ih hany'
          exact ⟨(a, w) :: ls, p, v, rs, rfl, hv, by simpa [hw] using hfind,
            by simpa [hw] using hdrop⟩

/-- Where no task has the property, none is found. -/
theorem not_exists_split {f : TaskNode → Bool} (hany : (xs.map Prod.snd).any f = false) :
    (xs.map Prod.snd).find? f = none ∧ (xs.dropWhile fun x => !f x.2) = [] := by
  have hf (x : UInt32 × TaskNode) (hx : x ∈ xs) : f x.2 = false :=
    Bool.eq_false_of_not_eq_true (List.any_eq_false.mp hany x.2 (List.mem_map_of_mem hx))
  refine ⟨List.find?_eq_none.mpr fun t ht => ?_, List.dropWhile_eq_nil_iff.mpr fun x hx => ?_⟩
  · obtain ⟨x, hx, rfl⟩ := List.mem_map.mp ht
    simp [hf x hx]
  · simp [hf x hx]

/-- With a handle that is not live nothing is done. -/
theorem withTask_dead {f : UInt32 → Except SchedulerFault Scheduler}
    (hloc : sTaskLocate s hndl = .ok 0) : withTask s hndl f = .ok (s, false) := by
  rw [withTask, hloc]
  rfl

/-- With a live one its task is treated. -/
theorem withTask_live {f : UInt32 → Except SchedulerFault Scheduler}
    (hloc : sTaskLocate s hndl = .ok p) (hp : p ≠ 0) (hf : f p = .ok s') :
    withTask s hndl f = .ok (s', true) := by
  rw [withTask, hloc, ok_bind, if_pos hp, hf]
  rfl

/-- Changing the value of a task that is there. -/
theorem changeTask_eq {n : ListNode TaskNode} (hp : s.tasks p = some n) :
    changeTask s p g = .ok { s with tasks := s.tasks.map p (.mapValue g) } := by
  rw [changeTask, modify_eq hp]
  rfl

/-! ### The table of tasks -/

/-- The tasks in memory are the ones of a list, with handles that are not null and different. -/
structure TaskTable (s : Scheduler) (xs : Nodes TaskNode) : Prop
    extends IsList s.tasks s.schedInfo xs where
  handles : (xs.map fun x => x.2.sTaskId).Nodup
  handles_ne_zero : 0 ∉ xs.map fun x => x.2.sTaskId
  allocated : ∀ a n, s.tasks a = some n → a ∈ addresses xs

/-- Different handles other than null are fewer than there are handles. -/
theorem TaskTable.length_lt (ht : TaskTable s xs) : xs.length < 2 ^ 16 := by
  have hnat : ((xs.map fun x => x.2.sTaskId).map UInt16.toNat).Nodup :=
    ht.handles.map fun _ _ heq => UInt16.toNat_inj.mp heq
  have hsub : ((xs.map fun x => x.2.sTaskId).map UInt16.toNat).toFinset ⊆
      Finset.Ioo 0 (2 ^ 16) := by
    intro n hmem
    obtain ⟨a, ha, rfl⟩ := List.mem_map.mp (List.mem_toFinset.mp hmem)
    have hne : a.toNat ≠ 0 := fun h0 =>
      ht.handles_ne_zero ((UInt16.toNat_inj.mp h0 : a = 0) ▸ ha)
    exact Finset.mem_Ioo.mpr ⟨by omega, a.toNat_lt⟩
  have hcard := Finset.card_le_card hsub
  rw [List.toFinset_card_of_nodup hnat, Nat.card_Ioo] at hcard
  simp only [List.length_map] at hcard
  omega

/-- Its counter is right. -/
theorem TaskTable.count_toNat (ht : TaskTable s xs) : s.schedInfo.count.toNat = xs.length := by
  rw [ht.count, UInt16.toNat_ofNat_of_lt' ht.length_lt]

/-- A list with a counter of zero has no task. -/
theorem TaskTable.eq_nil_of_count (ht : TaskTable s xs) (hc : s.schedInfo.count = 0) :
    xs = [] := by
  have hcount := ht.count_toNat
  rw [hc] at hcount
  exact List.length_eq_zero_iff.mp hcount.symm

/-- A list with a counter of one has one task. -/
theorem TaskTable.count_eq_one (ht : TaskTable s (ls ++ (p, v) :: rs))
    (hc : s.schedInfo.count = 1) : rs = [] := by
  have hcount := ht.count_toNat
  rw [hc, List.length_append, List.length_cons] at hcount
  exact List.length_eq_zero_iff.mp (by change 1 = _ at hcount; omega)

/-- Where there is no task of the table there is none in memory. -/
theorem TaskTable.eq_none (ht : TaskTable s xs) (hp : p ∉ addresses xs) : s.tasks p = none :=
  Option.eq_none_iff_forall_ne_some.mpr fun n hn => hp (ht.allocated p n hn)

/-- A task that is changed keeps its place and its handle. -/
theorem TaskTable.change (ht : TaskTable s (ls ++ (p, v) :: rs))
    (hg : (g v).sTaskId = v.sTaskId) :
    TaskTable { s with tasks := s.tasks.map p (.mapValue g) } (ls ++ (p, g v) :: rs) := by
  refine ⟨ht.toIsList.map_value, ?_, ?_, fun a n ha => ?_⟩
  · simpa [hg] using ht.handles
  · simpa [hg] using ht.handles_ne_zero
  · have hmem : a ∈ addresses (ls ++ (p, v) :: rs) := by
      by_cases hap : a = p
      · subst hap
        simp
      · exact ht.allocated a n ((map_of_ne hap).symm.trans ha)
    simpa using hmem

/-- A task that is created goes to the end of the list, whatever its handle. -/
theorem sTaskCreate_list (hl : IsList s.tasks s.schedInfo xs) (active : Bool)
    (prio : TaskPriority) (sTicks ptr now : UInt32) (hb : block ≠ 0)
    (hmalloc : s.tasks block = none) :
    ∃ s', sTaskCreate s block active prio sTicks ptr now = .ok (s', some (s.sTaskId + 1)) ∧
      IsList s'.tasks s'.schedInfo
        (xs ++ [(block, newTask (s.sTaskId + 1) active prio sTicks ptr now)]) ∧
      s'.msgs = s.msgs ∧ s'.mboxInfo = s.mboxInfo ∧ s'.sTaskId = s.sTaskId + 1 ∧
      ∀ a, a ∉ block :: addresses xs → s'.tasks a = s.tasks a := by
  have hnew : block ∉ addresses xs := by
    intro hmem
    obtain ⟨n, hn⟩ := hl.segment.exists_node hmem
    exact absurd (hn.symm.trans hmalloc) nofun
  let node := newTask (s.sTaskId + 1) active prio sTicks ptr now
  let tasks := Function.update s.tasks block (some ⟨node, 0, 0⟩)
  have hl₁ : IsList tasks s.schedInfo xs := hl.congr fun b hmem =>
    Function.update_of_ne (fun heq : b = block => hnew (heq ▸ hmem)) ..
  obtain ⟨tasks', info, happend, hl', hframe⟩ :=
    append_spec hl₁ (Function.update_self ..) hb hnew
  refine ⟨{ s with tasks := tasks', schedInfo := info, sTaskId := s.sTaskId + 1 }, ?_, hl', rfl,
    rfl, rfl, fun a ha => ?_⟩
  · have hnone : ¬ (s.tasks block).isSome = true := by simp [hmalloc]
    rw [sTaskCreate, if_neg hb, if_neg hnone]
    change (orFault .taskFreed (append tasks s.schedInfo block) >>= _) = _
    rw [happend]
    rfl
  · exact (hframe a ha).trans (Function.update_of_ne
      (fun heq : a = block => ha (heq ▸ List.mem_cons_self)) ..)

/-- **A task that is created gets its place in the table.** -/
theorem TaskTable.create (ht : TaskTable s xs) (active : Bool) (prio : TaskPriority)
    (sTicks ptr now : UInt32) (hb : block ≠ 0) (hmalloc : s.tasks block = none)
    (hid : s.sTaskId + 1 ≠ 0) (hfresh : s.sTaskId + 1 ∉ xs.map fun x => x.2.sTaskId) :
    ∃ s', sTaskCreate s block active prio sTicks ptr now = .ok (s', some (s.sTaskId + 1)) ∧
      TaskTable s' (xs ++ [(block, newTask (s.sTaskId + 1) active prio sTicks ptr now)]) ∧
      s'.msgs = s.msgs ∧ s'.mboxInfo = s.mboxInfo ∧ s'.sTaskId = s.sTaskId + 1 := by
  obtain ⟨s', hcreate, hl', hmsgs, hmbox, hid', hframe⟩ :=
    sTaskCreate_list ht.toIsList active prio sTicks ptr now hb hmalloc
  refine ⟨s', hcreate, ⟨hl', ?_, ?_, fun a n ha => ?_⟩, hmsgs, hmbox, hid'⟩
  · rw [List.map_append, List.map_singleton]
    exact List.nodup_append.mpr ⟨ht.handles, List.nodup_singleton _, fun a ha b hb heq => by
      obtain rfl := heq
      obtain rfl : a = s.sTaskId + 1 := List.mem_singleton.mp hb
      exact hfresh ha⟩
  · simpa [newTask] using ⟨by simpa using ht.handles_ne_zero, hid.symm⟩
  · by_contra hmem
    have hne : a ∉ block :: addresses xs := fun h => hmem (by
      rcases List.mem_cons.mp h with rfl | h <;> simp [*])
    exact hne (List.mem_cons_of_mem _ (ht.allocated a n ((hframe a hne).symm.trans ha)))

/-- **A task that is deleted leaves the others as they are**, whatever becomes of the
messages. -/
theorem TaskTable.delete {msgs msgs' : NodeHeap TaskMsg} {mbox : ListVars} {msgHead : UInt32}
    (ht : TaskTable s (ls ++ (p, v) :: rs))
    (hm : sTaskExtractMsg s.msgs s.mboxInfo v.sTaskId v.sTaskMsg = some (msgs, mbox, msgHead))
    (hf : sTaskFlushMsgs FUEL msgs msgHead = some msgs') :
    ∃ s', sTaskDeleteNode s p = .ok s' ∧ TaskTable s' (ls ++ rs) ∧ s'.msgs = msgs' ∧
      s'.mboxInfo = mbox ∧ s'.sTaskId = s.sTaskId := by
  obtain ⟨tasks, info, hunlink, hl, hself, hframe⟩ :=
    unlink_spec ht.toIsList fun hc _ => ht.count_eq_one hc
  have hnode : tasks p = some ⟨v, first rs 0, last 0 ls⟩ := hself.trans ht.segment.node
  obtain ⟨hpl, hpr, -⟩ := ht.toIsChain.erase
  have hfree : tasks.free p = some (Function.update tasks p none) := by
    rw [NodeHeap.free, if_pos (by rw [hnode]; rfl)]
  refine ⟨{ s with
    tasks := Function.update tasks p none
    schedInfo := { info with count := info.count - 1 }
    msgs := msgs'
    mboxInfo := mbox }, ?_, ⟨hl.congr fun b hb => ?_, ?_, ?_, fun a n ha => ?_⟩, rfl, rfl, rfl⟩
  · simp [sTaskDeleteNode, hunlink, hnode, hm, hf, hfree, pure, Except.pure]
  · refine Function.update_of_ne ?_ ..
    rintro rfl
    rw [addresses_append] at hb
    exact (List.mem_append.mp hb).elim hpl hpr
  · have hn := ht.handles
    simp only [List.map_append, List.map_cons, List.nodup_middle, List.nodup_cons] at hn ⊢
    exact hn.2
  · have hz := ht.handles_ne_zero
    simp only [List.map_append, List.map_cons, List.mem_append, List.mem_cons, not_or] at hz ⊢
    exact ⟨hz.1, hz.2.2⟩
  · by_contra hmem
    by_cases hap : a = p
    · subst hap
      dsimp only at ha
      rw [Function.update_self] at ha
      cases ha
    · dsimp only at ha
      rw [Function.update_of_ne hap, hframe a hmem] at ha
      have hall := ht.allocated a n ha
      rw [addresses_append] at hmem
      simp only [addresses_append, addresses_cons, List.mem_append, List.mem_cons, hap,
        false_or] at hall hmem
      exact hmem hall

/-- The tasks with another handle are the others. -/
theorem TaskTable.filter_handle (ht : TaskTable s (ls ++ (p, v) :: rs)) (hv : v.sTaskId = hndl) :
    ((ls ++ (p, v) :: rs).filter fun x => x.2.sTaskId ≠ hndl) = ls ++ rs := by
  have hn := ht.handles
  simp only [List.map_append, List.map_cons, List.nodup_middle, List.nodup_cons,
    List.mem_append, not_or, hv] at hn
  have hpart (zs : Nodes TaskNode) (hz : hndl ∉ zs.map fun x => x.2.sTaskId) :
      (zs.filter fun x => x.2.sTaskId ≠ hndl) = zs := by
    rw [List.filter_eq_self]
    intro x hx
    simpa using fun heq : x.2.sTaskId = hndl =>
      hz (heq ▸ List.mem_map_of_mem (f := fun x => x.2.sTaskId) hx)
  rw [List.filter_append, List.filter_cons, if_neg (by simp [hv]), hpart ls hn.1.1,
    hpart rs hn.1.2]

/-- **A live handle finds its task**, and no other one does. -/
theorem TaskTable.locate_cases (ht : TaskTable s xs) (hndl : UInt16) :
    isLive hndl (xs.map Prod.snd) = false ∧ sTaskLocate s hndl = .ok 0 ∨
      ∃ ls p v rs, xs = ls ++ (p, v) :: rs ∧ v.sTaskId = hndl ∧ p ≠ 0 ∧
        isLive hndl (xs.map Prod.snd) = true ∧ sTaskLocate s hndl = .ok p := by
  have hloc := sTaskLocate_spec ht.toIsList ht.length_lt hndl
  cases hlive : isLive hndl (xs.map Prod.snd) with
  | false =>
      rw [(not_exists_split hlive).2] at hloc
      exact Or.inl ⟨rfl, hloc⟩
  | true =>
      obtain ⟨ls, p, v, rs, rfl, hv, -, hdrop⟩ := exists_split hlive
      rw [hdrop] at hloc
      refine Or.inr ⟨ls, p, v, rs, rfl, by simpa using hv, ?_, rfl, hloc⟩
      rintro rfl
      exact ht.nonzero (by simp)

/-- Reading a task finds the one with the handle. -/
theorem TaskTable.readTask_spec {α : Type} {f : TaskNode → α} (ht : TaskTable s xs) :
    readTask s hndl f = .ok (((xs.map Prod.snd).find? (·.sTaskId = hndl)).map f) := by
  rw [readTask, sTaskLocate_spec ht.toIsList ht.length_lt, ok_bind]
  cases hlive : isLive hndl (xs.map Prod.snd) with
  | false =>
      obtain ⟨hnone, hdrop⟩ := not_exists_split hlive
      rw [hdrop, hnone]
      rfl
  | true =>
      obtain ⟨ls, p, v, rs, rfl, -, hfind, hdrop⟩ := exists_split hlive
      have hp : p ≠ 0 := by
        rintro rfl
        exact ht.nonzero (by simp)
      rw [hdrop, first_cons, if_pos hp, ht.segment.node, hfind]
      rfl

/-- The handle of a function is that of the first task that has it. -/
theorem TaskTable.getHandle_spec (ht : TaskTable s xs) : sTaskGetHandle s ptr =
    .ok ((((xs.map Prod.snd).find? (·.sTask = ptr)).map (·.sTaskId)).getD 0) := by
  have hfind := find_spec (f := fun v : TaskNode => decide (v.sTask = ptr)) ht.segment
    ht.nonzero ht.toIsChain.length_lt
  rw [sTaskGetHandle, ht.start, hfind]
  split
  · rw [orFault_some, ok_bind]
    cases hany : (xs.map Prod.snd).any fun v => decide (v.sTask = ptr) with
    | false =>
        obtain ⟨hnone, hdrop⟩ := not_exists_split hany
        rw [hdrop, hnone]
        rfl
    | true =>
        obtain ⟨ls, p, v, rs, rfl, -, hsome, hdrop⟩ := exists_split hany
        have hp : p ≠ 0 := by
          rintro rfl
          exact ht.nonzero (by simp)
        rw [hdrop, first_cons, if_neg hp, ht.segment.node, hsome]
        rfl
  next hzero =>
    obtain rfl := ht.eq_nil_of_count (not_not.mp hzero)
    rfl

/-- A step of a run is a call that has a result. -/
theorem schedulerCalls_step (hstep : schedulerCalls.step s c = some (s', r)) :
    schedulerCall s c = .ok (s', r) := by
  change (schedulerCall s c).toOption = _ at hstep
  cases hcall : schedulerCall s c with
  | error f =>
      rw [hcall] at hstep
      cases hstep
  | ok x =>
      rw [hcall] at hstep
      exact congrArg Except.ok (Option.some.inj hstep)

/-- A task gets a block only if it is not in use. -/
theorem mallocIsFresh_of_ok (hcall : schedulerCall s c = .ok (s', r)) : MallocIsFresh s c := by
  rintro block active prio sTicks ptr now rfl hb
  by_contra hsome
  have hsome' : (s.tasks block).isSome = true := Option.isSome_iff_ne_none.mpr hsome
  rw [schedulerCall, sTaskCreate, if_neg hb, if_pos hsome'] at hcall
  cases hcall

/-- A handle that no task of the table has is a fresh one. -/
theorem TaskTable.freshHandle (ht : TaskTable s xs) (hid : s.sTaskId + 1 ≠ 0)
    (hfresh : s.sTaskId + 1 ∉ xs.map fun x => x.2.sTaskId) : FreshHandle s c := by
  intro _ _ _ _ _ _ _ _
  refine ⟨hid, fun a n ha hn => hfresh ?_⟩
  obtain ⟨⟨a, v⟩, hx, rfl⟩ := List.mem_map.mp (ht.allocated a n ha)
  obtain ⟨ls, rs, rfl⟩ := List.append_of_mem hx
  obtain rfl := Option.some.inj (ht.segment.node.symm.trans ha)
  exact List.mem_map.mpr ⟨(a, v), by simp, hn⟩

/-- A run is continued by a call that has a result. -/
theorem run_snoc {s₀ : Scheduler} (hr : schedulerCalls.Run s₀ h s)
    (hcall : schedulerCall s c = .ok (s', r)) : schedulerCalls.Run s₀ (h ++ [(c, r)]) s' :=
  hr.snoc (by simp [schedulerCalls, hcall, Except.toOption])


end Muxponder
