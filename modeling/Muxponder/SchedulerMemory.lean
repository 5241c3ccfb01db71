import Muxponder.SchedulerDelivery
import Muxponder.SchedulerLoop

/-!
# What the Scheduler Dereferences

`scheduler()` walks over the list while the tasks that it runs change it. The node it stands on
is used again when the task returns, so it must still be there; what stands behind it may have
changed. The invariant is that there is a way on from that node, either over the rest of the
list or over nodes that a deletion has left behind.

The outer loop counts to `PRIORITIES_CYCLE_LEN` itself, one more than `priority_cycle` has
entries.

## Main results

* `scheduler_dereferences`: where no task deletes itself, no message is longer than its block
  and the seventh scan meets no task that could run, every step is safe.
* `ownDeletion_isFollowed`: each of the three goes wrong.
-/

namespace Muxponder

open LinkedList Memory

variable {s s' : Scheduler} {xs xs' ls rs : Nodes TaskNode} {p q : UInt32} {as bs : List UInt32}
  {c : SchedulerCall} {r : SchedulerAnswer} {z z' : SchedulerState} {e : SchedulerEvent}
  {o : SchedulerOutput} {beyond : Option TaskPriority} {i : ℕ} {hndl : UInt16}

/-! ### What is safe -/

/-- The entry of `priority_cycle` that `scheduler()` is about to read. -/
def readsPriority (z : SchedulerState) : Option ℕ :=
  match z.place with
  | .scanning i csTask =>
      match z.vars.tasks csTask with
      | some n => if csTask ≠ 0 ∧ n.value.active = true ∧ n.value.sTask ≠ 0 then some i else none
      | none => none
  | _ => none

/-- A step is safe if `scheduler()` follows no pointer to a task that is not there, reads no
entry of `priority_cycle` that is not there, and no message is copied behind its block. -/
structure StepIsSafe (beyond : Option TaskPriority) (z : SchedulerState) (e : SchedulerEvent) :
    Prop where
  tasks : (∀ t c, e ≠ .call t c) → schedulerStep beyond z e ≠ .error .taskFreed
  priorities : ∀ t i, e = .look t → readsPriority z = some i → i < priorityCycle.length
  messages : ∀ t src dst bytes count blocks,
    e = .call t (.sendMsg src dst bytes count blocks) →
    schedulerStep beyond z e ≠ .error .dataOverflow

/-- The condition on a step: a task that runs does not delete itself, no message is longer than
its block, and a task that the seventh scan meets is not active or has no function. -/
structure KeepsToMemory (z : SchedulerState) (e : SchedulerEvent) : Prop where
  running : ∀ i csTask t hndl, z.place = .running i csTask → e = .call t (.delete hndl) →
    sTaskLocate z.vars hndl ≠ .ok csTask
  short : ∀ t c, e = .call t c → ShortMessage c
  seventh : ∀ t csTask n, e = .look t → z.place = .scanning PRIORITIES_CYCLE_LEN csTask →
    z.vars.tasks csTask = some n → n.value.active = false ∨ n.value.sTask = 0

/-! ### The way on -/

/-- The way over the nodes that `scheduler()` still has to meet: the rest of the list, or nodes
that are none of the list any more. -/
structure WayOn (s : Scheduler) (xs : Nodes TaskNode) (as : List UInt32) : Prop where
  chain : NextChain s.tasks as
  apart : as <:+ addresses xs ∨ ∀ a ∈ as, a ∉ addresses xs

/-- The way over a list. -/
theorem wayOn_list (hl : IsList s.tasks s.schedInfo xs) (hs : as <:+ addresses xs) :
    WayOn s xs as :=
  ⟨(hl.segment.nextChain hl.nonzero).suffix hs, Or.inl hs⟩

/-- A step along the way. -/
theorem WayOn.tail (hw : WayOn s xs (p :: as)) : WayOn s xs as := by
  refine ⟨hw.chain.2.2, hw.apart.imp (fun hs => (List.suffix_cons p as).trans hs) fun ha a hmem =>
    ha a (List.mem_cons_of_mem _ hmem)⟩

/-- A node taken out from behind the first one of a way leaves a way from that one. -/
theorem exists_suffix_erase (hs : p :: as <:+ bs ++ q :: as') (hpq : q ≠ p) :
    ∃ cs, p :: cs <:+ bs ++ as' := by
  obtain ⟨pre, hpre⟩ := hs
  rcases List.append_eq_append_iff.mp hpre with ⟨mid, rfl, hmid⟩ | ⟨mid, rfl, hmid⟩
  · rcases mid with _ | ⟨b, mid⟩
    · exact absurd (List.cons.inj hmid).1.symm hpq
    · obtain ⟨rfl, -⟩ := List.cons.inj hmid
      exact ⟨mid ++ as', pre, by simp⟩
  · rcases mid with _ | ⟨b, mid⟩
    · exact absurd (List.cons.inj hmid).1 hpq
    · obtain ⟨rfl, rfl⟩ := List.cons.inj hmid
      exact ⟨as, bs ++ mid, by simp⟩

/-- A call that neither creates nor deletes a task leaves every way as it is. -/
theorem WayOn.keep (hw : WayOn s xs as) (he : ListEffect s s' xs c r xs')
    (hc : c.keepsTasks = true) : WayOn s' xs' as := by
  cases he with
  | kept _ htasks hinfo => exact ⟨by rw [htasks]; exact hw.chain, hw.apart⟩
  | changed _ hn hg htasks hinfo =>
      refine ⟨by rw [htasks]; exact hw.chain.map_value, ?_⟩
      rw [addresses_changeAt]
      exact hw.apart
  | created hcreate =>
      subst hcreate
      cases hc
  | deleted hdelete =>
      subst hdelete
      cases hc
  | abandoned hdelete =>
      subst hdelete
      cases hc

/-- **A call leaves a way on from the task that runs**, unless it deletes that task. -/
theorem WayOn.call (hw : WayOn s xs (p :: as)) (hl : IsList s.tasks s.schedInfo xs)
    (hl' : IsList s'.tasks s'.schedInfo xs') (he : ListEffect s s' xs c r xs')
    (hp : ∀ hndl, c = .delete hndl → sTaskLocate s hndl ≠ .ok p) :
    ∃ as', WayOn s' xs' (p :: as') := by
  have hne {hndl : UInt16} {q : UInt32} {v : TaskNode} {ls rs : Nodes TaskNode}
      (hc : c = .delete hndl) (hq : c.target s = q) (hxs : xs = ls ++ (q, v) :: rs) : q ≠ p := by
    rintro rfl
    subst hc
    have hloc := hp hndl rfl
    rw [SchedulerCall.target] at hq
    split at hq
    next a ha =>
      subst hq
      exact hloc ha
    next =>
      subst hq
      exact hw.chain.1 rfl
  by_cases hkeep : c.keepsTasks = true
  · exact ⟨as, hw.keep he hkeep⟩
  cases he with
  | kept _ htasks hinfo => exact ⟨as, by rw [htasks]; exact hw.chain, hw.apart⟩
  | changed _ hn hg => exact absurd (by cases hg <;> rfl) hkeep
  | @created id active prio block sTicks ptr now hc _ hb hfree hframe =>
      rcases hw.apart with ⟨pre, hpre⟩ | hapart
      · refine ⟨as ++ [block], wayOn_list hl' ⟨pre, ?_⟩⟩
        rw [addresses_append, ← hpre]
        simp
      · have hout (a : UInt32) (ha : a ∈ p :: as) : a ∉ block :: addresses xs := by
          intro hmem
          rcases List.mem_cons.mp hmem with rfl | hmem
          · obtain ⟨n, hn⟩ := hw.chain.exists_node ha
            exact absurd (hn.symm.trans hfree) nofun
          · exact hapart a ha hmem
        refine ⟨as, hw.chain.keep fun a ha => hframe a (hout a ha), Or.inr fun a ha hmem => ?_⟩
        rw [addresses_append] at hmem
        rcases List.mem_append.mp hmem with hmem | hmem
        · exact hapart a ha hmem
        · exact hout a ha (List.mem_singleton.mp hmem ▸ List.mem_cons_self)
  | @deleted hndl q v ls rs hc hq hxs hfree hframe =>
      have hqp := hne hc hq hxs
      rcases hw.apart with hs | hapart
      · rw [hxs, addresses_append, addresses_cons] at hs
        obtain ⟨cs, hcs⟩ := exists_suffix_erase hs hqp
        exact ⟨cs, wayOn_list hl' (by rwa [addresses_append])⟩
      · refine ⟨as, hw.chain.keep fun a ha => hframe a (hapart a ha), Or.inr fun a ha hmem => ?_⟩
        refine hapart a ha ?_
        rw [hxs, addresses_append, addresses_cons]
        rw [addresses_append] at hmem
        exact List.mem_append.mpr ((List.mem_append.mp hmem).imp_right (List.mem_cons_of_mem _))
  | @abandoned hndl q v rs hc hq hxs hfree hframe =>
      have hqp := hne hc hq (hxs.trans (List.nil_append _).symm)
      refine ⟨as, hw.chain.keep fun a ha => hframe a ?_, Or.inr fun a _ => List.not_mem_nil⟩
      rintro rfl
      rcases hw.apart with ⟨pre, hpre⟩ | hapart
      · have hnodup := hl.nodup
        rw [hxs, addresses_cons, List.nodup_cons] at hnodup
        rw [hxs, addresses_cons] at hpre
        rcases pre with _ | ⟨b, pre⟩
        · exact hqp (List.cons.inj hpre).1.symm
        · exact hnodup.1 ((List.cons.inj hpre).2 ▸ List.mem_append_right _ ha)
      · exact hapart a ha (hxs ▸ List.mem_cons_self)

/-! ### Runs -/

/-- **The invariant**: from where `scheduler()` is, there is a way on. -/
def OnItsWay (z : SchedulerState) (xs : Nodes TaskNode) : Prop :=
  match z.place with
  | .scanning i csTask =>
      i ≤ PRIORITIES_CYCLE_LEN ∧ ∃ as, csTask = as.headD 0 ∧ WayOn z.vars xs as
  | .running i csTask => i ≤ PRIORITIES_CYCLE_LEN ∧ ∃ as, WayOn z.vars xs (csTask :: as)
  | .outside | .leaving => True

/-- A list starts at its head. -/
theorem head_eq (hl : IsList s.tasks s.schedInfo xs) :
    s.schedInfo.head = (addresses xs).headD 0 := by
  rw [hl.start]
  cases xs <;> rfl

/-- A way from a task goes on behind it. -/
theorem exists_cons (hp : p ≠ 0) (hhead : p = as.headD 0) : ∃ bs, as = p :: bs := by
  cases as with
  | nil => exact absurd hhead hp
  | cons a as => exact ⟨as, by rw [hhead]; rfl⟩

/-- **Every step keeps the invariant.** -/
theorem onItsWay_step (hl : IsList z.vars.tasks z.vars.schedInfo xs) (hz : OnItsWay z xs)
    (hc : KeepsToMemory z e) (hstep : LoopStep beyond z e z' o) :
    ∃ xs', IsList z'.vars.tasks z'.vars.schedInfo xs' ∧ OnItsWay z' xs' := by
  obtain ⟨s, place⟩ := z
  cases hstep with
  | @call t _ _ _ hmay hapi hclock hcall =>
      obtain ⟨xs', hl', he⟩ := call_effect hl hcall
      refine ⟨xs', hl', ?_⟩
      cases place with
      | outside => trivial
      | leaving => trivial
      | scanning i p => cases hmay
      | running i p =>
          obtain ⟨hi, as, hw⟩ := hz
          exact ⟨hi, hw.call hl hl' he fun hndl hdel =>
            hc.running i p t hndl rfl (hdel ▸ rfl)⟩
  | enter hplace =>
      refine ⟨xs, hl, ?_⟩
      rw [OnItsWay]
      split
      next i p hscan =>
        dsimp only at hscan
        split at hscan
        · obtain ⟨rfl, rfl⟩ := SchedulerPlace.scanning.inj hscan
          exact ⟨Nat.zero_le _, _, head_eq hl, wayOn_list hl List.suffix_rfl⟩
        · cases hscan
      next i p hrun =>
        dsimp only at hrun
        split at hrun <;> cases hrun
      · trivial
      · trivial
  | nextScan hplace hi =>
      exact ⟨xs, hl, hi, _, head_eq hl, wayOn_list hl List.suffix_rfl⟩
  | lastScan hplace hi => exact ⟨xs, hl, trivial⟩
  | run hplace hp hn hactive hfun hprio hdue hcall =>
      obtain rfl : place = _ := hplace
      obtain ⟨hi, as, hhead, hw⟩ := hz
      obtain ⟨bs, rfl⟩ := exists_cons hp hhead
      obtain ⟨xs', hl', he⟩ := call_effect hl hcall
      exact ⟨xs', hl', hi, bs, hw.keep he rfl⟩
  | skip hplace hp hn hdue =>
      obtain rfl : place = _ := hplace
      obtain ⟨hi, as, hhead, hw⟩ := hz
      obtain ⟨bs, rfl⟩ := exists_cons hp hhead
      obtain ⟨-, ⟨n', hn', hnext⟩, -⟩ := hw.chain
      obtain rfl := Option.some.inj (hn'.symm.trans hn)
      exact ⟨xs, hl, hi, bs, hnext, hw.tail⟩
  | taskReturn hplace hn hcall =>
      obtain rfl : place = _ := hplace
      obtain ⟨hi, as, hw⟩ := hz
      obtain ⟨xs', hl', he⟩ := call_effect hl hcall
      obtain ⟨-, ⟨n', hn', hnext⟩, -⟩ := hw.chain
      obtain rfl := Option.some.inj (hn'.symm.trans hn)
      exact ⟨xs', hl', hi, as, hnext, hw.tail.keep he rfl⟩
  | leave hplace => exact ⟨xs, hl, trivial⟩

/-- A short message fits its block. -/
theorem sTaskSendMsg_ne_dataOverflow {src dst count : UInt16} {bytes : Source}
    {blocks : MessageBlocks} (hcount : count.toNat ≤ DATA_ALLOC) :
    sTaskSendMsg s src dst bytes count blocks ≠ .error .dataOverflow := by
  intro h
  rw [sTaskSendMsg] at h
  split at h
  · cases h
  · split at h
    · cases h
    · split at h
      · cases h
      next block _ =>
        rcases bind_eq_error.mp h with h | ⟨data, -, h⟩
        · have hnone := (orFault_eq_error h).1
          rw [← List.nil_append block.toList, copyInto_append rfl, if_pos] at hnone
          · cases hnone
          · rw [read_length, Vector.length_toList]
            exact hcount
        · rcases bind_eq_error.mp h with h | ⟨x, -, h⟩
          · cases (orFault_eq_error h).2
          · cases h

/-- **A step from where there is a way on is safe**, if it meets the condition. -/
theorem OnItsWay.stepIsSafe (hz : OnItsWay z xs) (hc : KeepsToMemory z e) :
    StepIsSafe beyond z e := by
  obtain ⟨s, place⟩ := z
  refine ⟨fun hcall h => ?_, fun t i hlook hread => ?_,
    fun t src dst bytes count blocks hsend h => ?_⟩
  · cases e with
    | call t c => exact hcall t c rfl
    | enter t => cases place <;> cases h
    | leave t => cases place <;> cases h
    | look t =>
        cases place with
        | scanning i p =>
            obtain ⟨-, as, hhead, hw⟩ := hz
            change lookAt beyond s i p _ = _ at h
            rw [lookAt] at h
            split at h
            · split at h <;> cases h
            next hp =>
              obtain ⟨bs, rfl⟩ := exists_cons hp hhead
              obtain ⟨-, ⟨n, hn, -⟩, -⟩ := hw.chain
              rw [hn, orFault_some, ok_bind] at h
              split at h
              · rcases bind_eq_error.mp h with h | ⟨x, -, h⟩
                · rcases dispatch_cases hn with ⟨x, hx⟩ | hx
                  · cases h.symm.trans hx
                  · cases h.symm.trans hx
                · cases h
              · cases h
        | outside => cases h
        | running i p => cases h
        | leaving => cases h
    | taskReturn t =>
        cases place with
        | running i p =>
            obtain ⟨-, as, hw⟩ := hz
            obtain ⟨-, ⟨n, hn, -⟩, -⟩ := hw.chain
            have hn : s.tasks p = some n := hn
            change goOn s i p _ = _ at h
            rw [goOn, changeTask_eq hn, ok_bind] at h
            dsimp only at h
            rw [map_self, hn, Option.map_some, orFault_some, ok_bind] at h
            cases h
        | outside => cases h
        | scanning i p => cases h
        | leaving => cases h
  · cases place with
    | scanning j p =>
        obtain ⟨hi, -⟩ := hz
        rw [readsPriority] at hread
        dsimp only at hread
        split at hread
        next n hn =>
          split at hread
          next hmay =>
            obtain rfl := Option.some.inj hread
            refine lt_of_le_of_ne hi ?_
            rintro rfl
            rcases hc.seventh t p n hlook rfl hn with hoff | hnone
            · cases hmay.2.1.symm.trans hoff
            · exact hmay.2.2 hnone
          next => cases hread
        next => cases hread
    | outside => cases hread
    | running i p => cases hread
    | leaving => cases hread
  · subst hsend
    rw [schedulerStep] at h
    split at h
    · obtain ⟨f, hf⟩ | ⟨x, hx⟩ : (∃ f, sTaskSendMsg s src dst bytes count blocks = .error f) ∨
          ∃ x, sTaskSendMsg s src dst bytes count blocks = .ok x := by
        cases sTaskSendMsg s src dst bytes count blocks with
        | error f => exact Or.inl ⟨f, rfl⟩
        | ok x => exact Or.inr ⟨x, rfl⟩
      · simp only [schedulerCall, hf, Except.map] at h
        obtain rfl := Except.error.inj h
        exact sTaskSendMsg_ne_dataOverflow (hc.short t _ rfl _ _ _ _ _ rfl) hf
      · simp only [schedulerCall, hx, Except.map] at h
        cases h
    · cases h

/-- **`scheduler()` follows pointers to tasks that are there**, reads entries of `priority_cycle`
that are there, and no message is copied behind its block, for every list of tasks and whatever
these do while they run: in every run whose steps meet the condition. -/
theorem scheduler_dereferences (beyond : Option TaskPriority) (block sTaskIdle now : UInt32)
    (s₀ : Scheduler) (idle : UInt16)
    (hinit : schedulerInit schedulerPowerOn block sTaskIdle now = .ok (s₀, some idle))
    (h : LoopHistory) (z : SchedulerState)
    (hr : (schedulerLoop beyond).Run ⟨s₀, .outside⟩ h z)
    (hc : (schedulerLoop beyond).Along ⟨s₀, .outside⟩ h KeepsToMemory) (e : SchedulerEvent)
    (he : KeepsToMemory z e) : StepIsSafe beyond z e := by
  have hI : ∃ xs, IsList z.vars.tasks z.vars.schedInfo xs ∧ OnItsWay z xs := by
    refine hr.invariant_along (I := fun (_ : LoopHistory) z =>
      ∃ xs, IsList z.vars.tasks z.vars.schedInfo xs ∧ OnItsWay z xs) ?_ ?_ hc
    · exact ⟨_, (silentTable_init hinit).2.toTaskTable.toIsList, trivial⟩
    · rintro h z e z' o - ⟨xs, hl, hz⟩ hkeeps hstep
      exact onItsWay_step hl hz hkeeps (loop_cases (schedulerLoop_step hstep))
  obtain ⟨xs, -, hz⟩ := hI
  exact hz.stepIsSafe he

/-! ### A task that deletes itself -/

/-- Another task with the priority of the idle task is created. -/
def createsAnother : SchedulerEvent := .call 0 (.create 0x3000 true .high 1 0x2000 0)

/-- A tick later, the idle task runs and returns, and the other one runs. -/
def anotherRuns : LoopHistory :=
  [(createsAnother, .answer 0x3000 (.created (some 2))), (.enter 1, .nothing),
    (.look 1, .ran 0x1000), (.taskReturn 1, .nothing), (.look 1, .ran 0x3000)]

/-- The idle task runs and returns, and five more scans come to their ends. -/
def sixScans : LoopHistory :=
  [(.enter 1, .nothing), (.look 1, .ran 0x1000), (.taskReturn 1, .nothing)] ++
    (List.replicate 5 [(.look 1, .nothing), (.look 1, .nothing)]).flatten ++
    [(.look 1, .nothing)]

/-- The idle task and another one run, one after the other, and all of that is safe. -/
theorem scheduler_dereferences_another : ∃ s₀ z,
    schedulerInit schedulerPowerOn 0x1000 0x2000 0 = .ok (s₀, some 1) ∧
      (schedulerLoop none).Run ⟨s₀, .outside⟩ anotherRuns z ∧
      StepIsSafe none z (.taskReturn 2) := by
  obtain ⟨s₀, hinit, z, hr, hc, he⟩ : ∃ s₀,
      schedulerInit schedulerPowerOn 0x1000 0x2000 0 = .ok (s₀, some 1) ∧
      ∃ z, (schedulerLoop none).Run ⟨s₀, .outside⟩ anotherRuns z ∧
        (schedulerLoop none).Along ⟨s₀, .outside⟩ anotherRuns KeepsToMemory ∧
        KeepsToMemory z (.taskReturn 2) := by
    refine ⟨_, rfl, _, .cons rfl (.cons rfl (.cons rfl (.cons rfl (.single rfl)))),
      .cons rfl ⟨nofun, ?_, nofun⟩ (.cons rfl ⟨nofun, nofun, nofun⟩ (.cons rfl
        ⟨nofun, nofun, nofun⟩ (.cons rfl ⟨nofun, nofun, nofun⟩ (.cons rfl ⟨nofun, nofun, nofun⟩
          .nil)))), ⟨nofun, nofun, nofun⟩⟩
    rintro t c hcall _ _ _ _ _ rfl
    cases hcall
  exact ⟨s₀, z, hinit, hr,
    scheduler_dereferences none 0x1000 0x2000 0 s₀ 1 hinit anotherRuns z hr hc _ he⟩

/-- **A task that deletes itself is used again when it returns**, the seventh scan reads
`priority_cycle[6]`, and a message of three bytes is copied behind its block. -/
theorem ownDeletion_isFollowed : ∃ s₀,
    schedulerInit schedulerPowerOn 0x1000 0x2000 0 = .ok (s₀, some 1) ∧
      (∃ z, (schedulerLoop none).Run ⟨s₀, .outside⟩
          (anotherRuns ++ [(.call 1 (.delete 2), .answer 0x3000 (.result true))]) z ∧
        schedulerStep none z (.taskReturn 2) = .error .taskFreed) ∧
      (∃ z, (schedulerLoop none).Run ⟨s₀, .outside⟩ sixScans z ∧
        readsPriority z = some priorityCycle.length) ∧
      ∃ z, (schedulerLoop none).Run ⟨s₀, .outside⟩ anotherRuns z ∧
        schedulerStep none z (.call 1 (sendIdle [7, 8, 9])) = .error .dataOverflow := by
  refine ⟨_, rfl, ?_, ?_, ?_⟩
  · exact ⟨_, .cons rfl (.cons rfl (.cons rfl (.cons rfl (.cons rfl (.single rfl))))), rfl⟩
  · exact ⟨_, .cons rfl (.cons rfl (.cons rfl (.cons rfl (.cons rfl (.cons rfl (.cons rfl
      (.cons rfl (.cons rfl (.cons rfl (.cons rfl (.cons rfl (.cons rfl (.single rfl))))))))))))),
      rfl⟩
  · exact ⟨_, .cons rfl (.cons rfl (.cons rfl (.cons rfl (.single rfl)))), rfl⟩

end Muxponder
