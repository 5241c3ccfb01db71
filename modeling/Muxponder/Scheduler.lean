import Muxponder.Lib.LinkedList
import Muxponder.Lib.Machine
import Muxponder.Lib.Region

/-!
# The Scheduler

The co-operative scheduler keeps its tasks in a doubly linked list and the messages between them
in another, the mailbox. A task is run from within `scheduler()`, which walks over the list
seven times, once for each of the six entries of `priority_cycle` and once more, and runs the
tasks whose ticks have elapsed. Before a task is run, its messages are moved from the mailbox to
a list of its own.

The nodes of both lists are allocated and freed. A pointer that is followed to no node is a
fault, and so is a copy that does not fit the block it goes to. What `malloc` returns and when
the clock is read are inputs.

`SchedulerCall` are the functions that tasks may call, and the two ways in which `scheduler()`
itself changes a node; `SchedulerEvent` are these and the steps of `scheduler()`, which a task
that is running interrupts with calls of its own.
-/

namespace Muxponder

open LinkedList Memory

/-- `s_task_priority_t`. -/
inductive TaskPriority
  | high
  | normal
  | low
  deriving DecidableEq, Repr

/-- `PRIORITIES_CYCLE_LEN`. -/
def PRIORITIES_CYCLE_LEN : ℕ := 6

/-- `priority_cycle`. -/
def priorityCycle : List TaskPriority := [.high, .normal, .high, .low, .high, .normal]

/-- `s_task_node_t`, the pointers to its neighbours apart. -/
structure TaskNode where
  sTaskId : UInt16
  active : Bool
  sPriority : TaskPriority
  sTicks : UInt32
  nTicks : UInt32
  eTicks : UInt32
  sTask : UInt32
  sTaskMsg : UInt32
  deriving DecidableEq, Repr

/-- `s_task_msg_t`, the pointers to its neighbours apart, with the block that holds its data. -/
structure TaskMsg where
  sTaskSrcHndl : UInt16
  sTaskDstHndl : UInt16
  data : List UInt8
  dataSize : UInt16
  deriving DecidableEq, Repr

/-- The nodes in memory and the variables of the scheduler. -/
structure Scheduler where
  tasks : NodeHeap TaskNode
  schedInfo : ListVars
  msgs : NodeHeap TaskMsg
  mboxInfo : ListVars
  sTaskId : UInt16
  ticksSnap : UInt32

/-- What goes wrong where the code follows a pointer to no task or to no message, or copies more
bytes than it has allocated; an event that does not happen is not a fault of the code. -/
inductive SchedulerFault
  | taskFreed
  | messageFreed
  | dataOverflow
  | impossible
  deriving DecidableEq, Repr

/-- A result, or a fault where there is none. -/
def orFault {α : Type*} (f : SchedulerFault) : Option α → Except SchedulerFault α
  | none => .error f
  | some a => .ok a

/-! ### Messages -/

/-- The bytes that `s_task_send_msg` allocates: `sizeof(bytes_count)`. -/
def DATA_ALLOC : ℕ := 2

/-- The blocks that `malloc` gives a message: its node, and the one for its data. -/
structure MessageBlocks where
  node : UInt32
  data : Option (Vector UInt8 DATA_ALLOC)

/-- `s_task_send_msg`. -/
def sTaskSendMsg (s : Scheduler) (src dst : UInt16) (msgBytes : Source) (bytesCount : UInt16)
    (blocks : MessageBlocks) : Except SchedulerFault (Scheduler × Bool) :=
  if blocks.node = 0 then .ok (s, false)
  else if (s.msgs blocks.node).isSome then .error .impossible
  else match blocks.data with
    | none => .ok (s, false)
    | some block => do
        let data ← orFault .dataOverflow
          (copyInto block.toList 0 (msgBytes.read bytesCount.toNat))
        let msgs := Function.update s.msgs blocks.node (some ⟨⟨src, dst, data, bytesCount⟩, 0, 0⟩)
        let (msgs, mboxInfo) ← orFault .messageFreed (append msgs s.mboxInfo blocks.node)
        pure ({ s with msgs := msgs, mboxInfo := mboxInfo }, true)

/-- What `s_task_extract_msg` does with a node that it has taken out of the mailbox: it goes behind
the tail of the list. -/
def attachMsg (h : NodeHeap TaskMsg) (msgHead msgTail temp : UInt32) :
    Option (NodeHeap TaskMsg × UInt32 × UInt32) := do
  let h ← h.modify temp (.setNext 0)
  let h ← h.modify temp (.setPrevious 0)
  let (h, msgHead, msgTail) ←
    if msgHead = 0 then pure (h, temp, temp)
    else do
      let h ← h.modify msgTail (.setNext temp)
      let h ← h.modify temp (.setPrevious msgTail)
      pure (h, msgHead, (← h msgTail).next)
  let h ← h.modify msgTail (.setNext 0)
  pure (h, msgHead, msgTail)

/-- The loop of `s_task_extract_msg`: the nodes from `scnr` on that are for the destination go
behind the tail of the list. -/
def extractLoop (dst : UInt16) : ℕ → NodeHeap TaskMsg → ListVars → UInt32 → UInt32 → UInt32 →
    Option (NodeHeap TaskMsg × ListVars × UInt32)
  | 0, _, _, _, _, _ => none
  | fuel + 1, h, mbox, msgHead, msgTail, scnr =>
      if scnr = 0 then some (h, mbox, msgHead)
      else do
        let node ← h scnr
        if node.value.sTaskDstHndl = dst then
          let temp := scnr
          let (h, mbox) ← unlink h mbox temp
          let mbox := { mbox with count := mbox.count - 1 }
          let scnr := (← h temp).next
          let (h, msgHead, msgTail) ← attachMsg h msgHead msgTail temp
          let mbox := if mbox.count = 0 then { mbox with tail := 0 } else mbox
          extractLoop dst fuel h mbox msgHead msgTail scnr
        else extractLoop dst fuel h mbox msgHead msgTail node.next

/-- `s_task_extract_msg`: the memory, the mailbox and the head of the list of the task. -/
def sTaskExtractMsg (h : NodeHeap TaskMsg) (mbox : ListVars) (dst : UInt16) (msgHead : UInt32) :
    Option (NodeHeap TaskMsg × ListVars × UInt32) := do
  let msgTail ← findLast FUEL h 0 msgHead
  extractLoop dst FUEL h mbox msgHead msgTail mbox.head

/-- `s_task_flush_msgs`: the nodes behind the first one are freed before it. -/
def sTaskFlushMsgs : ℕ → NodeHeap TaskMsg → UInt32 → Option (NodeHeap TaskMsg)
  | 0, _, _ => none
  | fuel + 1, h, msgHead =>
      if msgHead = 0 then some h
      else do
        let node ← h msgHead
        let h ← sTaskFlushMsgs fuel h node.next
        let h ← h.modify msgHead (.setNext 0)
        h.free msgHead

/-! ### Tasks -/

/-- The values that `s_task_create` assigns. -/
def newTask (id : UInt16) (active : Bool) (sTaskPrio : TaskPriority)
    (sTicks sTaskPtr now : UInt32) : TaskNode :=
  { sTaskId := id, active := active, sPriority := sTaskPrio, sTicks := sTicks, nTicks := now,
    eTicks := 0, sTask := sTaskPtr, sTaskMsg := 0 }

/-- `s_task_create`: the handle, or none where there is no memory. -/
def sTaskCreate (s : Scheduler) (block : UInt32) (active : Bool) (sTaskPrio : TaskPriority)
    (sTicks sTaskPtr now : UInt32) : Except SchedulerFault (Scheduler × Option UInt16) :=
  if block = 0 then .ok (s, none)
  else if (s.tasks block).isSome then .error .impossible
  else do
    let id := s.sTaskId + 1
    let node := newTask id active sTaskPrio sTicks sTaskPtr now
    let tasks := Function.update s.tasks block (some ⟨node, 0, 0⟩)
    let (tasks, info) ← orFault .taskFreed (append tasks s.schedInfo block)
    pure ({ s with tasks := tasks, schedInfo := info, sTaskId := id }, some id)

/-- `s_task_locate`. -/
def sTaskLocate (s : Scheduler) (hndl : UInt16) : Except SchedulerFault UInt32 :=
  if s.schedInfo.count ≠ 0 then
    orFault .taskFreed (find FUEL s.tasks (fun v => v.sTaskId = hndl) s.schedInfo.head)
  else .ok s.schedInfo.head

/-- `s_task_get_handle`. -/
def sTaskGetHandle (s : Scheduler) (sTaskPtr : UInt32) : Except SchedulerFault UInt16 :=
  if s.schedInfo.count ≠ 0 then do
    let p ← orFault .taskFreed
      (find FUEL s.tasks (fun v => v.sTask = sTaskPtr) s.schedInfo.head)
    if p = 0 then pure 0
    else
      let node ← orFault .taskFreed (s.tasks p)
      pure node.value.sTaskId
  else .ok 0

/-- `s_task_delete_node`. What is in the pointer of the node to its messages is not stored back:
the node is freed. -/
def sTaskDeleteNode (s : Scheduler) (p : UInt32) : Except SchedulerFault Scheduler := do
  let (tasks, info) ← orFault .taskFreed (unlink s.tasks s.schedInfo p)
  let node ← orFault .taskFreed (tasks p)
  let (msgs, mbox, msgHead) ← orFault .messageFreed
    (sTaskExtractMsg s.msgs s.mboxInfo node.value.sTaskId node.value.sTaskMsg)
  let msgs ← orFault .messageFreed (sTaskFlushMsgs FUEL msgs msgHead)
  let tasks ← orFault .taskFreed (tasks.free p)
  pure { s with
    tasks := tasks
    schedInfo := { info with count := info.count - 1 }
    msgs := msgs
    mboxInfo := mbox }

/-- Changing the value of a task that must be there. -/
def changeTask (s : Scheduler) (p : UInt32) (g : TaskNode → TaskNode) :
    Except SchedulerFault Scheduler := do
  let tasks ← orFault .taskFreed (s.tasks.modify p (.mapValue g))
  pure { s with tasks := tasks }

/-- What most functions do with a handle: nothing, if it is not that of a task. -/
def withTask (s : Scheduler) (hndl : UInt16)
    (f : UInt32 → Except SchedulerFault Scheduler) : Except SchedulerFault (Scheduler × Bool) := do
  let p ← sTaskLocate s hndl
  if p ≠ 0 then
    let s ← f p
    pure (s, true)
  else pure (s, false)

/-- `s_task_delete`. -/
def sTaskDelete (s : Scheduler) (hndl : UInt16) : Except SchedulerFault (Scheduler × Bool) :=
  withTask s hndl (sTaskDeleteNode s)

/-- `s_task_set_priority`. -/
def sTaskSetPriority (s : Scheduler) (hndl : UInt16) (sTaskPrio : TaskPriority) :
    Except SchedulerFault (Scheduler × Bool) :=
  withTask s hndl fun p => changeTask s p fun v => { v with sPriority := sTaskPrio }

/-- `s_task_suspend`. -/
def sTaskSuspend (s : Scheduler) (hndl : UInt16) : Except SchedulerFault (Scheduler × Bool) :=
  withTask s hndl fun p => changeTask s p fun v => { v with active := false }

/-- `s_task_resume`. -/
def sTaskResume (s : Scheduler) (hndl : UInt16) (now : UInt32) :
    Except SchedulerFault (Scheduler × Bool) :=
  withTask s hndl fun p => changeTask s p fun v =>
    { v with active := true, nTicks := now - v.sTicks }

/-- `s_task_set_periodic_ticks`. -/
def sTaskSetPeriodicTicks (s : Scheduler) (hndl : UInt16) (sTicks : UInt32) (run : Bool)
    (now : UInt32) : Except SchedulerFault (Scheduler × Bool) :=
  withTask s hndl fun p => changeTask s p fun v =>
    { v with sTicks := sTicks, nTicks := if run then now - sTicks else now }

/-- What the functions that read a task return: none, if the handle is not that of a task. -/
def readTask {α : Type} (s : Scheduler) (hndl : UInt16) (g : TaskNode → α) :
    Except SchedulerFault (Option α) := do
  let p ← sTaskLocate s hndl
  if p ≠ 0 then
    let node ← orFault .taskFreed (s.tasks p)
    pure (some (g node.value))
  else pure none

/-- `s_task_get_priority`. -/
def sTaskGetPriority (s : Scheduler) (hndl : UInt16) :
    Except SchedulerFault (Option TaskPriority) :=
  readTask s hndl TaskNode.sPriority

/-- `s_task_get_periodic_ticks`. -/
def sTaskGetPeriodicTicks (s : Scheduler) (hndl : UInt16) :
    Except SchedulerFault (Option UInt32) :=
  readTask s hndl TaskNode.sTicks

/-! ### Calls -/

/-- What `scheduler()` does with a task that is to run, in front of the call of its function,
and the handle and the messages that the function is given. -/
def dispatchTask (s : Scheduler) (p now : UInt32) :
    Except SchedulerFault (Scheduler × UInt16 × List TaskMsg) := do
  let node ← orFault .taskFreed (s.tasks p)
  let (msgs, mbox, msgHead) ← orFault .messageFreed
    (sTaskExtractMsg s.msgs s.mboxInfo node.value.sTaskId node.value.sTaskMsg)
  let s ← changeTask { s with msgs := msgs, mboxInfo := mbox } p fun v =>
    { v with nTicks := now, sTaskMsg := msgHead, eTicks := now }
  let given ← orFault .messageFreed (values FUEL msgs msgHead)
  pure (s, node.value.sTaskId, given)

/-- `s_task_flush_msgs` with the pointer of a task to its messages, and the handle of the task. -/
def flushTask (s : Scheduler) (p : UInt32) : Except SchedulerFault (Scheduler × UInt16) := do
  let node ← orFault .taskFreed (s.tasks p)
  let msgs ← orFault .messageFreed (sTaskFlushMsgs FUEL s.msgs node.value.sTaskMsg)
  let s ← changeTask { s with msgs := msgs } p fun v => { v with sTaskMsg := 0 }
  pure (s, node.value.sTaskId)

/-- The functions of the scheduler, with their arguments, what `malloc` gives and the clock. The
last two are parts of `scheduler()`: the task `p` is dispatched, and its function has
returned. -/
inductive SchedulerCall
  | create (block : UInt32) (active : Bool) (sTaskPrio : TaskPriority)
      (sTicks sTaskPtr now : UInt32)
  | getHandle (sTaskPtr : UInt32)
  | delete (hndl : UInt16)
  | getPriority (hndl : UInt16)
  | setPriority (hndl : UInt16) (sTaskPrio : TaskPriority)
  | suspend (hndl : UInt16)
  | resume (hndl : UInt16) (now : UInt32)
  | getPeriodicTicks (hndl : UInt16)
  | setPeriodicTicks (hndl : UInt16) (sTicks : UInt32) (run : Bool) (now : UInt32)
  | sendMsg (src dst : UInt16) (msgBytes : Source) (bytesCount : UInt16) (blocks : MessageBlocks)
  | flushMsgs (p : UInt32)
  | dispatch (p now : UInt32)
  | elapsed (p now : UInt32)

/-- What a call returns. A function that is dispatched is given a handle and messages; a list
that is flushed is that of the task with a handle. -/
inductive SchedulerAnswer
  | nothing
  | result (success : Bool)
  | handle (hndl : UInt16)
  | created (hndl : Option UInt16)
  | priority (sTaskPrio : Option TaskPriority)
  | ticks (ticksCount : Option UInt32)
  | given (hndl : UInt16) (msgs : List TaskMsg)
  | flushed (hndl : UInt16)
  deriving DecidableEq, Repr

/-- One call. -/
def schedulerCall (s : Scheduler) :
    SchedulerCall → Except SchedulerFault (Scheduler × SchedulerAnswer)
  | .create block active prio sTicks ptr now =>
      (sTaskCreate s block active prio sTicks ptr now).map (Prod.map id .created)
  | .getHandle ptr => (sTaskGetHandle s ptr).map fun hndl => (s, .handle hndl)
  | .delete hndl => (sTaskDelete s hndl).map (Prod.map id .result)
  | .getPriority hndl => (sTaskGetPriority s hndl).map fun prio => (s, .priority prio)
  | .setPriority hndl prio => (sTaskSetPriority s hndl prio).map (Prod.map id .result)
  | .suspend hndl => (sTaskSuspend s hndl).map (Prod.map id .result)
  | .resume hndl now => (sTaskResume s hndl now).map (Prod.map id .result)
  | .getPeriodicTicks hndl => (sTaskGetPeriodicTicks s hndl).map fun ticks => (s, .ticks ticks)
  | .setPeriodicTicks hndl sTicks run now =>
      (sTaskSetPeriodicTicks s hndl sTicks run now).map (Prod.map id .result)
  | .sendMsg src dst bytes count blocks =>
      (sTaskSendMsg s src dst bytes count blocks).map (Prod.map id .result)
  | .flushMsgs p => (flushTask s p).map (Prod.map id .flushed)
  | .dispatch p now => (dispatchTask s p now).map (Prod.map id fun x => .given x.1 x.2)
  | .elapsed p now =>
      (changeTask s p fun v => { v with eTicks := now - v.eTicks }).map fun s => (s, .nothing)

/-- One call after the other. -/
def schedulerCalls : Machine Scheduler SchedulerCall SchedulerAnswer where
  step s c := (schedulerCall s c).toOption

/-- The calls of a run and what they returned. -/
abbrev SchedulerHistory := List (SchedulerCall × SchedulerAnswer)

/-- The variables before `scheduler_init`: nothing has been allocated. -/
def schedulerPowerOn : Scheduler :=
  { tasks := fun _ => none, schedInfo := ⟨0, 0, 0⟩, msgs := fun _ => none, mboxInfo := ⟨0, 0, 0⟩,
    sTaskId := 0, ticksSnap := 0 }

/-- `scheduler_init`: the lists are emptied and the idle task is created. The counter of the
mailbox is left as it is. -/
def schedulerInit (s : Scheduler) (block sTaskIdle now : UInt32) :
    Except SchedulerFault (Scheduler × Option UInt16) :=
  sTaskCreate { s with
      schedInfo := ⟨0, 0, 0⟩
      mboxInfo := { s.mboxInfo with head := 0, tail := 0 } }
    block true .high 1 sTaskIdle now

end Muxponder
