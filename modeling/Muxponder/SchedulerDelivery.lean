import Muxponder.SchedulerMailbox
import Muxponder.SchedulerTasks

/-!
# The Delivery of Messages

What is sent to a handle and what its task is given are kept in a log for each handle. The log
of a task that is deleted ends with it.

A message is copied to a block of two bytes, the size of its length and not of its bytes, so the
lists are as they should be only as long as no message has more than two.

## Main results

* `mailbox_delivers`: in every run that sends no longer message, the mailbox and the lists of
  the tasks are well formed, and what has been sent to a task has been handed to it or waits, in
  the order of sending.
* `longMessage_overflows`: a message of three bytes is copied behind its block.
-/

namespace Muxponder

open LinkedList Memory

variable {mail mail' : Nodes TaskMsg} {p q : UInt32} {dst hndl : UInt16} {s s' : Scheduler}
  {xs xs' ls rs : Nodes TaskNode} {v v' : TaskNode} {lists lists' : UInt32 → Nodes TaskMsg}
  {c : SchedulerCall} {r : SchedulerAnswer} {g : TaskNode → TaskNode}

/-! ### What calls do to the messages -/

/-- What a receiver sees of a message: where it comes from, where it goes to, and its bytes. -/
structure MessageContent where
  src : UInt16
  dst : UInt16
  bytes : List UInt8
  deriving DecidableEq, Repr

/-- The bytes of a message are the first ones of its block. -/
def TaskMsg.content (m : TaskMsg) : MessageContent :=
  ⟨m.sTaskSrcHndl, m.sTaskDstHndl, m.data.take m.dataSize.toNat⟩

/-- What a receiver sees of the messages of a list. -/
def contents (xs : Nodes TaskMsg) : List MessageContent := xs.map fun x => x.2.content

/-- The condition on a call: no more bytes are sent than are allocated. -/
def ShortMessage (c : SchedulerCall) : Prop :=
  ∀ src dst bytes count blocks, c = .sendMsg src dst bytes count blocks →
    count.toNat ≤ DATA_ALLOC

/-- A call that sends, hands over, flushes or discards messages. -/
def movesMessages : SchedulerCall × SchedulerAnswer → Bool
  | (.sendMsg .., .result true) | (.delete _, .result true) | (.dispatch .., _)
  | (.flushMsgs _, _) => true
  | _ => false

/-- The addresses of tasks with their handles. -/
def handlesOf (xs : Nodes TaskNode) : List (UInt32 × UInt16) :=
  xs.map fun x => (x.1, x.2.sTaskId)

/-- **What a call does to the tasks and their messages**: it moves no message; it creates a task
without messages; it deletes a task with its messages and no others; it sends one to the end of
the mailbox; it gives a task those for it, in their order; or it flushes those of a task. -/
inductive MailEffect (xs : Nodes TaskNode) (mail : Nodes TaskMsg)
    (lists : UInt32 → Nodes TaskMsg) : SchedulerCall → SchedulerAnswer → Nodes TaskNode →
      Nodes TaskMsg → (UInt32 → Nodes TaskMsg) → Prop
  | other {c : SchedulerCall} {r : SchedulerAnswer} {xs' : Nodes TaskNode} :
      movesMessages (c, r) = false → handlesOf xs' = handlesOf xs →
      MailEffect xs mail lists c r xs' mail lists
  | created {c : SchedulerCall} {r : SchedulerAnswer} {p : UInt32} {v : TaskNode} :
      movesMessages (c, r) = false → p ∉ addresses xs →
      v.sTaskId ∉ xs.map (fun x => x.2.sTaskId) →
      MailEffect xs mail lists c r (xs ++ [(p, v)]) mail (Function.update lists p [])
  | deleted {p : UInt32} {v : TaskNode} {ls rs : Nodes TaskNode} :
      xs = ls ++ (p, v) :: rs →
      MailEffect xs mail lists (.delete v.sTaskId) (.result true) (ls ++ rs)
        (notForDst v.sTaskId mail) lists
  | sent {src dst : UInt16} {bytes : Source} {count : UInt16} {blocks : MessageBlocks}
      {m : TaskMsg} : m.content = ⟨src, dst, bytes.read count.toNat⟩ →
      MailEffect xs mail lists (.sendMsg src dst bytes count blocks) (.result true) xs
        (mail ++ [(blocks.node, m)]) lists
  | dispatched {p now : UInt32} {v v' : TaskNode} {ls rs : Nodes TaskNode} :
      xs = ls ++ (p, v) :: rs → v'.sTaskId = v.sTaskId →
      MailEffect xs mail lists (.dispatch p now)
        (.given v.sTaskId ((lists p ++ forDst v.sTaskId mail).map Prod.snd))
        (ls ++ (p, v') :: rs) (notForDst v.sTaskId mail)
        (Function.update lists p (lists p ++ forDst v.sTaskId mail))
  | flushed {p : UInt32} {v v' : TaskNode} {ls rs : Nodes TaskNode} :
      xs = ls ++ (p, v) :: rs → v'.sTaskId = v.sTaskId →
      MailEffect xs mail lists (.flushMsgs p) (.flushed v.sTaskId) (ls ++ (p, v') :: rs) mail
        (Function.update lists p [])

/-- A function that changes a task moves no message. -/
theorem MailTable.withTask_change (ht : MailTable s xs mail lists) (hndl : UInt16)
    (hg : ∀ v, (g v).sTaskId = v.sTaskId ∧ (g v).sTaskMsg = v.sTaskMsg) :
    ∃ s' b xs', withTask s hndl (fun p => changeTask s p g) = .ok (s', b) ∧
      MailTable s' xs' mail lists ∧ handlesOf xs' = handlesOf xs := by
  rcases ht.locate_cases hndl with ⟨-, hloc⟩ | ⟨ls, p, v, rs, rfl, -, hp, -, hloc⟩
  · exact ⟨s, false, xs, withTask_dead hloc, ht, rfl⟩
  · exact ⟨_, true, ls ++ (p, g v) :: rs,
      withTask_live hloc hp (changeTask_eq ht.segment.node), ht.change (hg v), by
        simp [handlesOf, (hg v).1]⟩

/-- What has been sent to a handle, what its task has flushed, and what it has been given and not
flushed. -/
structure MessageLog where
  sent : List MessageContent := []
  flushed : List MessageContent := []
  seen : List MessageContent := []
  deriving DecidableEq, Repr

/-- What the task has been given. -/
def MessageLog.handed (log : MessageLog) : List MessageContent := log.flushed ++ log.seen

/-- One call more. A task that is deleted starts a new log for its handle. -/
def MessageLog.record (hndl : UInt16) (log : MessageLog) :
    SchedulerCall × SchedulerAnswer → MessageLog
  | (.sendMsg src dst bytes count _, .result true) =>
      if dst = hndl then { log with sent := log.sent ++ [⟨src, dst, bytes.read count.toNat⟩] }
      else log
  | (.delete hndl', .result true) => if hndl' = hndl then {} else log
  | (.dispatch .., .given hndl' msgs) =>
      if hndl' = hndl then { log with seen := msgs.map TaskMsg.content } else log
  | (.flushMsgs _, .flushed hndl') =>
      if hndl' = hndl then { log with flushed := log.handed, seen := [] } else log
  | _ => log

/-- The log of a handle. -/
def SchedulerHistory.messageLog (hs : SchedulerHistory) (hndl : UInt16) : MessageLog :=
  hs.foldl (MessageLog.record hndl) {}

variable {hs : SchedulerHistory}

@[simp] theorem messageLog_snoc :
    SchedulerHistory.messageLog (hs ++ [(c, r)]) hndl =
      (hs.messageLog hndl).record hndl (c, r) := by
  simp [SchedulerHistory.messageLog]

/-- What the logs of a run are: what has been sent to a handle has been handed to its task or
waits in the mailbox, and a task has in its list what it has been given and not flushed. -/
structure Delivers (hs : SchedulerHistory) (xs : Nodes TaskNode) (mail : Nodes TaskMsg)
    (lists : UInt32 → Nodes TaskMsg) : Prop where
  fifo : ∀ hndl, (hs.messageLog hndl).sent =
    (hs.messageLog hndl).handed ++ contents (forDst hndl mail)
  seen : ∀ p hndl, (p, hndl) ∈ handlesOf xs → (hs.messageLog hndl).seen = contents (lists p)
  dead : ∀ hndl, hndl ∉ (handlesOf xs).map Prod.snd → (hs.messageLog hndl).handed = []

/-- A call that moves no message is not in a log. -/
theorem record_other {log : MessageLog} (h : movesMessages (c, r) = false) :
    log.record hndl (c, r) = log := by
  unfold MessageLog.record
  split <;> simp_all [movesMessages]

@[simp] theorem contents_append {xs ys : Nodes TaskMsg} :
    contents (xs ++ ys) = contents xs ++ contents ys := List.map_append

@[simp] theorem contents_nil : contents [] = [] := rfl

/-- Without the messages for one destination, those for another are the same. -/
theorem forDst_notForDst {dst' : UInt16} : forDst dst (notForDst dst' mail) =
    if dst = dst' then [] else forDst dst mail := by
  rw [forDst, forDst, notForDst, List.filter_filter]
  split
  next heq =>
    subst heq
    simp
  next hne =>
    refine List.filter_congr fun x _ => ?_
    by_cases hx : x.2.sTaskDstHndl = dst
    · simp [hx, hne]
    · simp [hx]

/-- The handles of tasks, the address left out. -/
theorem handlesOf_snd : (handlesOf xs).map Prod.snd = xs.map fun x => x.2.sTaskId := by
  simp [handlesOf]

/-- The task with a handle is the only one. -/
theorem TaskTable.handle_inj (ht : TaskTable s (ls ++ (p, v) :: rs))
    (hmem : (q, v.sTaskId) ∈ handlesOf (ls ++ (p, v) :: rs)) : q = p := by
  have hn := ht.handles
  rw [← handlesOf_snd] at hn
  have hself : (p, v.sTaskId) ∈ handlesOf (ls ++ (p, v) :: rs) := by simp [handlesOf]
  exact congrArg Prod.fst (List.inj_on_of_nodup_map hn hmem hself rfl)

/-- Nor has it another handle. -/
theorem TaskTable.address_inj (ht : TaskTable s (ls ++ (p, v) :: rs))
    (hmem : (p, hndl) ∈ handlesOf (ls ++ (p, v) :: rs)) : hndl = v.sTaskId := by
  have haddr : (handlesOf (ls ++ (p, v) :: rs)).map Prod.fst = addresses (ls ++ (p, v) :: rs) := by
    simp [handlesOf, addresses, Function.comp_def]
  have hn := ht.nodup
  rw [← haddr] at hn
  have hself : (p, v.sTaskId) ∈ handlesOf (ls ++ (p, v) :: rs) := by simp [handlesOf]
  exact congrArg Prod.snd (List.inj_on_of_nodup_map hn hmem hself rfl)

/-- A task that is changed keeps its handle. -/
theorem handlesOf_changed (hv : v'.sTaskId = v.sTaskId) :
    handlesOf (ls ++ (p, v') :: rs) = handlesOf (ls ++ (p, v) :: rs) := by
  simp [handlesOf, hv]

/-- The list of a task is changed, and no other one. -/
theorem TaskTable.list_update (ht : TaskTable s (ls ++ (p, v) :: rs))
    (hmem : (q, hndl) ∈ handlesOf (ls ++ (p, v) :: rs)) {l : Nodes TaskMsg} :
    Function.update lists p l q = if v.sTaskId = hndl then l else lists q := by
  split
  next heq =>
    subst heq
    obtain rfl := ht.handle_inj hmem
    exact Function.update_self ..
  next hne =>
    have hq : q ≠ p := by
      rintro rfl
      exact hne (ht.address_inj hmem).symm
    exact Function.update_of_ne hq ..

/-- A handle without a task is not that of a task that is there. -/
theorem ne_of_dead (hdead : hndl ∉ (handlesOf (ls ++ (p, v) :: rs)).map Prod.snd) :
    v.sTaskId ≠ hndl := by
  rintro rfl
  exact hdead (by simp [handlesOf])

/-- A call that moves no message. -/
theorem Delivers.other (hd : Delivers hs xs mail lists) (hc : movesMessages (c, r) = false)
    (hids : handlesOf xs' = handlesOf xs) : Delivers (hs ++ [(c, r)]) xs' mail lists := by
  refine ⟨fun η => ?_, fun p η hmem => ?_, fun η hdead => ?_⟩
  · rw [messageLog_snoc, record_other hc]
    exact hd.fifo η
  · rw [messageLog_snoc, record_other hc]
    exact hd.seen p η (hids ▸ hmem)
  · rw [messageLog_snoc, record_other hc]
    exact hd.dead η (hids ▸ hdead)

/-- A task that is created has been given nothing. -/
theorem Delivers.created (hd : Delivers hs xs mail lists) (hc : movesMessages (c, r) = false)
    (hp : p ∉ addresses xs) (hv : v.sTaskId ∉ xs.map fun x => x.2.sTaskId) :
    Delivers (hs ++ [(c, r)]) (xs ++ [(p, v)]) mail (Function.update lists p []) := by
  refine ⟨fun η => ?_, fun q η hmem => ?_, fun η hdead => ?_⟩
  · rw [messageLog_snoc, record_other hc]
    exact hd.fifo η
  · rw [messageLog_snoc, record_other hc]
    simp only [handlesOf, List.map_append, List.mem_append, List.map_cons, List.map_nil,
      List.mem_singleton] at hmem
    rcases hmem with hmem | heq
    · have hq : q ≠ p := by
        rintro rfl
        obtain ⟨x, hx, heq⟩ := List.mem_map.mp hmem
        exact hp (List.mem_map.mpr ⟨x, hx, (Prod.mk.inj heq).1⟩)
      rw [Function.update_of_ne hq]
      exact hd.seen q η hmem
    · obtain ⟨rfl, rfl⟩ := Prod.mk.inj heq
      have hnone := hd.dead v.sTaskId (by rwa [handlesOf_snd])
      rw [Function.update_self, contents_nil]
      exact (List.append_eq_nil_iff.mp hnone).2
  · rw [messageLog_snoc, record_other hc]
    refine hd.dead η fun hmem => hdead ?_
    rw [handlesOf, List.map_append, List.map_append]
    exact List.mem_append_left _ hmem

/-- The handle of a task that is deleted starts a new log, and its mail is taken away. -/
theorem Delivers.deleted (hd : Delivers hs (ls ++ (p, v) :: rs) mail lists)
    (ht : TaskTable s (ls ++ (p, v) :: rs)) :
    Delivers (hs ++ [(.delete v.sTaskId, .result true)]) (ls ++ rs) (notForDst v.sTaskId mail)
      lists := by
  refine ⟨fun η => ?_, fun q η hmem => ?_, fun η hdead => ?_⟩
  · rw [messageLog_snoc, forDst_notForDst, MessageLog.record]
    by_cases hη : v.sTaskId = η
    · rw [if_pos hη, if_pos hη.symm]
      rfl
    · rw [if_neg hη, if_neg (Ne.symm hη)]
      exact hd.fifo η
  · have hold : (q, η) ∈ handlesOf (ls ++ (p, v) :: rs) := by
      simp only [handlesOf, List.map_append, List.mem_append, List.map_cons,
        List.mem_cons] at hmem ⊢
      exact hmem.imp_right Or.inr
    have hη : v.sTaskId ≠ η := by
      rintro rfl
      obtain rfl := ht.handle_inj hold
      obtain ⟨hl, hr, -⟩ := ht.toIsChain.erase
      simp only [handlesOf, List.map_append, List.mem_append, List.mem_map] at hmem
      rcases hmem with ⟨x, hx, heq⟩ | ⟨x, hx, heq⟩
      · exact hl (List.mem_map.mpr ⟨x, hx, (Prod.mk.inj heq).1⟩)
      · exact hr (List.mem_map.mpr ⟨x, hx, (Prod.mk.inj heq).1⟩)
    rw [messageLog_snoc, MessageLog.record, if_neg hη]
    exact hd.seen q η hold
  · rw [messageLog_snoc, MessageLog.record]
    by_cases hη : v.sTaskId = η
    · rw [if_pos hη]
      rfl
    · rw [if_neg hη]
      refine hd.dead η fun hmem => hdead ?_
      simp only [handlesOf, List.map_append, List.mem_append, List.map_cons,
        List.mem_cons] at hmem ⊢
      rcases hmem with hmem | hmem | hmem
      · exact Or.inl hmem
      · exact absurd hmem.symm hη
      · exact Or.inr hmem

/-- A message that is sent waits behind the others for its destination. -/
theorem Delivers.sent {src dst : UInt16} {bytes : Source} {count : UInt16}
    {blocks : MessageBlocks} {m : TaskMsg} {a : UInt32} (hd : Delivers hs xs mail lists)
    (hm : m.content = ⟨src, dst, bytes.read count.toNat⟩) :
    Delivers (hs ++ [(.sendMsg src dst bytes count blocks, .result true)]) xs (mail ++ [(a, m)])
      lists := by
  refine ⟨fun η => ?_, fun q η hmem => ?_, fun η hdead => ?_⟩
  · have hdst : m.sTaskDstHndl = dst := congrArg MessageContent.dst hm
    have hlast : contents (forDst η [(a, m)]) =
        if dst = η then [⟨src, dst, bytes.read count.toNat⟩] else [] := by
      by_cases hη : dst = η <;> simp [forDst, contents, hdst, hη, hm]
    have happend : forDst η (mail ++ [(a, m)]) = forDst η mail ++ forDst η [(a, m)] :=
      List.filter_append ..
    rw [messageLog_snoc, MessageLog.record, happend, contents_append, hlast]
    by_cases hη : dst = η
    · rw [if_pos hη, if_pos hη]
      simp only [MessageLog.handed]
      rw [hd.fifo η, MessageLog.handed, List.append_assoc]
    · rw [if_neg hη, if_neg hη, List.append_nil]
      exact hd.fifo η
  · rw [messageLog_snoc, MessageLog.record]
    split <;> exact hd.seen q η hmem
  · rw [messageLog_snoc, MessageLog.record]
    split <;> exact hd.dead η hdead

/-- **A task that is dispatched** is given the mail for it, in its order. -/
theorem Delivers.dispatched {now : UInt32} (hd : Delivers hs (ls ++ (p, v) :: rs) mail lists)
    (ht : TaskTable s (ls ++ (p, v) :: rs)) (hv : v'.sTaskId = v.sTaskId) :
    Delivers (hs ++ [(.dispatch p now,
        .given v.sTaskId ((lists p ++ forDst v.sTaskId mail).map Prod.snd))])
      (ls ++ (p, v') :: rs) (notForDst v.sTaskId mail)
      (Function.update lists p (lists p ++ forDst v.sTaskId mail)) := by
  have hseen := hd.seen p v.sTaskId (by simp [handlesOf])
  have hgiven : ((lists p ++ forDst v.sTaskId mail).map Prod.snd).map TaskMsg.content =
      contents (lists p) ++ contents (forDst v.sTaskId mail) := by
    rw [← contents_append, contents, List.map_map]
    rfl
  refine ⟨fun η => ?_, fun q η hmem => ?_, fun η hdead => ?_⟩
  · rw [messageLog_snoc, forDst_notForDst, MessageLog.record]
    by_cases hη : v.sTaskId = η
    · subst hη
      rw [if_pos rfl, if_pos rfl, hgiven, contents_nil, List.append_nil]
      simp only [MessageLog.handed]
      rw [hd.fifo, MessageLog.handed, hseen, List.append_assoc]
    · rw [if_neg hη, if_neg (Ne.symm hη)]
      exact hd.fifo η
  · rw [handlesOf_changed hv] at hmem
    rw [messageLog_snoc, MessageLog.record, ht.list_update hmem]
    split
    next => rw [contents_append, hgiven]
    next => exact hd.seen q η hmem
  · rw [handlesOf_changed hv] at hdead
    rw [messageLog_snoc, MessageLog.record, if_neg (ne_of_dead hdead)]
    exact hd.dead η hdead

/-- A task that flushes its messages has none left. -/
theorem Delivers.flushed (hd : Delivers hs (ls ++ (p, v) :: rs) mail lists)
    (ht : TaskTable s (ls ++ (p, v) :: rs)) (hv : v'.sTaskId = v.sTaskId) :
    Delivers (hs ++ [(.flushMsgs p, .flushed v.sTaskId)]) (ls ++ (p, v') :: rs) mail
      (Function.update lists p []) := by
  refine ⟨fun η => ?_, fun q η hmem => ?_, fun η hdead => ?_⟩
  · rw [messageLog_snoc, MessageLog.record]
    split
    · simp only [MessageLog.handed, List.append_nil]
      exact hd.fifo η
    · exact hd.fifo η
  · rw [handlesOf_changed hv] at hmem
    rw [messageLog_snoc, MessageLog.record, ht.list_update hmem]
    split
    next => rfl
    next => exact hd.seen q η hmem
  · rw [handlesOf_changed hv] at hdead
    rw [messageLog_snoc, MessageLog.record, if_neg (ne_of_dead hdead)]
    exact hd.dead η hdead

/-- **A call keeps the logs**: each message is handed over once, and in its turn. -/
theorem Delivers.step (hd : Delivers hs xs mail lists) (ht : MailTable s xs mail lists)
    (he : MailEffect xs mail lists c r xs' mail' lists') :
    Delivers (hs ++ [(c, r)]) xs' mail' lists' := by
  cases he with
  | other hc hids => exact hd.other hc hids
  | created hc hp hv => exact hd.created hc hp hv
  | deleted hxs =>
      subst hxs
      exact hd.deleted ht.toTaskTable
  | sent hm => exact hd.sent hm
  | dispatched hxs hv =>
      subst hxs
      exact hd.dispatched ht.toTaskTable hv
  | flushed hxs hv =>
      subst hxs
      exact hd.flushed ht.toTaskTable hv

/-- A message to the idle task in a node at `0x5000`. -/
def sendIdle (bytes : List UInt8) : SchedulerCall :=
  .sendMsg 1 1 (fun i => bytes.getD i 0) (UInt16.ofNat bytes.length)
    ⟨0x5000, some (Vector.replicate _ 0)⟩

end Muxponder
