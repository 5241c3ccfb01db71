import Mathlib.Data.List.Nodup
import Muxponder.AltAlarm
import Muxponder.KursProfile
import Muxponder.Lib.Interrupts

/-!
# Performance Counters

The modules of `ipg_pfc.c` that monitor the ports, and `create_pfc_module` and
`destroy_pfc_module` of `main.c` that allocate and free them. Each holds an alarm, whose callback
counts seconds, and each port a pointer to its module.

The task that changes rates calls these functions; the tick of the system clock and the reads of
the KURS protocol come as interrupts in between. So the functions are programs of single
operations: loads and stores through the pointers, `malloc` and `free`, and the insertion of an
alarm into the list of `alt_tick` and its removal, which are done with the interrupts disabled.
What `malloc` returns is an input, with what is in the block.

The ratios of errors, which are floating point, and `pfc_end_of_period` are left out.

## Main results

* `PfcState.altTick_same`: what a tick leaves alone.
-/

namespace Muxponder

open Interrupts

/-! ### Modules -/

def PFC_TIMER_IDLE : ℤ := 0
def PFC_TIMER_RUNNING : ℤ := 1
def DEF_PFC_PERIOD : UInt32 := 900
def CLIENT_0_PFC_BASE : UInt32 := 0x1000048

/-- An address of the heap that is not null. -/
abbrev PfcAddr := ℕ

/-- `struct performance_counters` -/
structure PerformanceCounters where
  index : UInt32
  base : UInt32
  elapsedTimeS : UInt32
  errSecs : UInt32
  sevErrSecs : UInt32
  backgroundBlockErr : UInt64
  unavailableSecs : UInt32
  state : ℤ
  timer : AltAlarm
  monitorPeriodS : UInt32
  blockPerS : UInt64
  deriving DecidableEq, Repr

/-- The registers of a module. `PERF_CNT` is shifted by the width of its type, which C leaves
undefined: what comes of it is an input. -/
structure PfcRegisters where
  errSecs : UInt32
  sevErrSecs : UInt32
  perfCntShifted : UInt64
  backgroundBlockErr1 : UInt32
  unavailableSecs : UInt32
  deriving DecidableEq, Repr

/-- `refresh_pfc_statistics` -/
def PerformanceCounters.refresh (m : PerformanceCounters) (regs : PfcRegisters) :
    PerformanceCounters :=
  { m with
    errSecs := regs.errSecs
    sevErrSecs := regs.sevErrSecs
    backgroundBlockErr := regs.perfCntShifted ||| regs.backgroundBlockErr1.toUInt64
    unavailableSecs := regs.unavailableSecs }

/-- `pfc_timer_isr`, apart from its result, `alt_ticks_per_second()`. -/
def pfcTimerIsr (regs : PfcRegisters) (m : PerformanceCounters) : PerformanceCounters :=
  let m := { m with elapsedTimeS := m.elapsedTimeS + 1 }
  if m.elapsedTimeS = m.monitorPeriodS then { m with elapsedTimeS := 0 } else m.refresh regs

/-- A store into a module. -/
inductive PfcStore
  | index (w : UInt32)
  | base (w : UInt32)
  | elapsedTimeS (w : UInt32)
  | errSecs (w : UInt32)
  | sevErrSecs (w : UInt32)
  | backgroundBlockErr (w : UInt64)
  | unavailableSecs (w : UInt32)
  | state (z : ℤ)
  | monitorPeriodS (w : UInt32)
  | blockPerS (w : UInt64)
  deriving DecidableEq, Repr

/-- The module behind a store. -/
def PerformanceCounters.store (m : PerformanceCounters) : PfcStore → PerformanceCounters
  | .index w => { m with index := w }
  | .base w => { m with base := w }
  | .elapsedTimeS w => { m with elapsedTimeS := w }
  | .errSecs w => { m with errSecs := w }
  | .sevErrSecs w => { m with sevErrSecs := w }
  | .backgroundBlockErr w => { m with backgroundBlockErr := w }
  | .unavailableSecs w => { m with unavailableSecs := w }
  | .state z => { m with state := z }
  | .monitorPeriodS w => { m with monitorPeriodS := w }
  | .blockPerS w => { m with blockPerS := w }

/-- What a store makes of the timer state. -/
def PfcStore.timerState : PfcStore → ℤ → ℤ
  | .state z, _ => z
  | _, st => st

/-- The counts that the KURS protocol reads. -/
inductive PfcCount
  | es
  | ses
  | uas
  | bbe
  deriving DecidableEq, Repr

/-- `get_pfc_es` and the others, on a module. -/
def PerformanceCounters.count (m : PerformanceCounters) : PfcCount → UInt64
  | .es => m.errSecs.toUInt64
  | .ses => m.sevErrSecs.toUInt64
  | .uas => m.unavailableSecs.toUInt64
  | .bbe => m.backgroundBlockErr

/-! ### Operations -/

/-- An operation of the task. `lineBase` is `_ln_pfc_base[index - LN_INDEX_OFFSET]`, which is
beyond the two elements of the array. -/
inductive PfcOp
  | readPfc (i : Fin INTERFACE_COUNT)
  | writePfc (i : Fin INTERFACE_COUNT) (p : Option PfcAddr)
  | lineBase
  | malloc
  | free (a : PfcAddr)
  | store (p : Option PfcAddr) (f : PfcStore)
  | pulseEop (p : Option PfcAddr)
  | readState (a : PfcAddr)
  | readMonitorPeriod (a : PfcAddr)
  | altAlarmStart (a : PfcAddr)
  | altAlarmStop (a : PfcAddr)
  deriving DecidableEq, Repr

/-- Its answer. -/
inductive PfcAns
  | none
  | ptr (p : Option PfcAddr)
  | block (b : Option (PfcAddr × PerformanceCounters))
  | word (w : UInt32)
  | state (z : ℤ)
  | started (ok : Bool)

/-- A pointer as an answer. -/
def PfcAns.toPtr : PfcAns → Option PfcAddr
  | .ptr p => p
  | .block b => b.map Prod.fst
  | _ => Option.none

@[inherit_doc PfcAns.toPtr]
def PfcAns.toWord : PfcAns → UInt32
  | .word w => w
  | _ => 0

@[inherit_doc PfcAns.toPtr]
def PfcAns.toState : PfcAns → ℤ
  | .state z => z
  | _ => 0

@[inherit_doc PfcAns.toPtr]
def PfcAns.toStarted : PfcAns → Bool
  | .started ok => ok
  | _ => false

/-! ### The functions -/

/-- A piece of the task. -/
abbrev PfcProg := Prog Unit PfcOp PfcAns

/-- An operation without an answer. -/
def pfcDo (o : PfcOp) : PfcProg Unit := do
  let _ ← Prog.op () o
  return ()

/-- The pointer of a port. -/
def readPfc (i : Fin INTERFACE_COUNT) : PfcProg (Option PfcAddr) := do
  return (← Prog.op () (.readPfc i)).toPtr

/-- `reset_pfc_statistics`; `reset_pfc_statistics_callback` is empty. -/
def resetPfcStatistics (p : Option PfcAddr) : PfcProg Unit := do
  pfcDo (.store p (.unavailableSecs 0))
  pfcDo (.store p (.sevErrSecs 0))
  pfcDo (.store p (.errSecs 0))
  pfcDo (.store p (.backgroundBlockErr 0))
  pfcDo (.pulseEop p)

/-- `init_pfc_data` behind `malloc`. -/
def initPfcModule (p : Option PfcAddr) (base : UInt32) : PfcProg Unit := do
  pfcDo (.store p (.base base))
  pfcDo (.store p (.monitorPeriodS DEF_PFC_PERIOD))
  resetPfcStatistics p
  pfcDo (.store p (.blockPerS 12288000))
  pfcDo (.store p (.state PFC_TIMER_IDLE))
  pfcDo (.store p (.elapsedTimeS 0))

/-- `init_pfc_data` for a port without a module. -/
def initPfcData (base : UInt32) : PfcProg (Option PfcAddr) := do
  let p := (← Prog.op () .malloc).toPtr
  initPfcModule p base
  return p

/-- `stop_pfc_monitoring` of a module. -/
def stopModule (a : PfcAddr) : PfcProg Unit := do
  if (← Prog.op () (.readState a)).toState = PFC_TIMER_RUNNING then
    pfcDo (.altAlarmStop a)
    pfcDo (.store (some a) (.state PFC_TIMER_IDLE))

/-- `stop_pfc_monitoring` -/
def stopPfcMonitoring (p : Option PfcAddr) : PfcProg Unit := p.elim (pure ()) stopModule

/-- `start_pfc_monitoring` of a module: whether it succeeds. -/
def startModule (a : PfcAddr) : PfcProg Bool := do
  stopModule a
  if (← Prog.op () (.altAlarmStart a)).toStarted then
    pfcDo (.store (some a) (.state PFC_TIMER_RUNNING))
    pfcDo (.store (some a) (.elapsedTimeS 0))
    return true
  else return false

/-- `start_pfc_monitoring` -/
def startPfcMonitoring (p : Option PfcAddr) : PfcProg Bool := p.elim (pure false) startModule

/-- `set_pfc_monitor_period` of a module. -/
def setModulePeriod (period : UInt32) (a : PfcAddr) : PfcProg Unit := do
  stopModule a
  let previous := (← Prog.op () (.readMonitorPeriod a)).toWord
  pfcDo (.store (some a) (.monitorPeriodS period))
  if ¬ (← startModule a) then pfcDo (.store (some a) (.monitorPeriodS previous))

/-- `set_pfc_monitor_period` -/
def setPfcMonitorPeriod (p : Option PfcAddr) (period : UInt32) : PfcProg Unit :=
  p.elim (pure ()) (setModulePeriod period)

/-- The base of the registers of a port. -/
def pfcBase (i : Fin INTERFACE_COUNT) : PfcProg UInt32 :=
  if i.val < 8 then pure (CLIENT_0_PFC_BASE + 0x4000 * UInt32.ofNat i)
  else if i.val < 16 then pure (0x10000000 + CLIENT_0_PFC_BASE + 0x4000 * UInt32.ofNat i)
  else do return (← Prog.op () .lineBase).toWord

/-- `create_pfc_module` -/
def createPfcModule (i : Fin INTERFACE_COUNT) : PfcProg Unit := do
  if (← readPfc i) = none then
    let base ← pfcBase i
    let p ← initPfcData base
    pfcDo (.writePfc i p)
  let p ← readPfc i
  pfcDo (.store p (.index (UInt32.ofNat i)))
  let _ ← startPfcMonitoring (← readPfc i)

/-- `deinit_pfc`: `free` of the null pointer does nothing. -/
def deinitPfc (p : Option PfcAddr) : PfcProg Unit := p.elim (pure ()) fun a => pfcDo (.free a)

/-- `destroy_pfc_module` -/
def destroyPfcModule (i : Fin INTERFACE_COUNT) : PfcProg Unit := do
  if (← readPfc i) ≠ none then
    stopPfcMonitoring (← readPfc i)
    deinitPfc (← readPfc i)
    pfcDo (.writePfc i none)

/-- What is done with the modules. -/
inductive PfcCommand
  | create (i : Fin INTERFACE_COUNT)
  | destroy (i : Fin INTERFACE_COUNT)
  | start (i : Fin INTERFACE_COUNT)
  | stop (i : Fin INTERFACE_COUNT)
  | setPeriod (i : Fin INTERFACE_COUNT) (period : UInt32)
  deriving DecidableEq, Repr

/-- The program of a command. -/
def pfcMain : PfcCommand → PfcProg Unit
  | .create i => createPfcModule i
  | .destroy i => destroyPfcModule i
  | .start i => do
      let _ ← startPfcMonitoring (← readPfc i)
  | .stop i => do stopPfcMonitoring (← readPfc i)
  | .setPeriod i period => do setPfcMonitorPeriod (← readPfc i) period

/-! ### The system -/

/-- The modules in memory, the pointers to them, and the list of alarms that `alt_tick` goes
through. -/
structure PfcState where
  heap : PfcAddr → Option PerformanceCounters
  pfc : Fin INTERFACE_COUNT → Option PfcAddr
  alarms : List PfcAddr
  tickRate : UInt32
  nticks : UInt32

/-- The timer state of a module, if there is one at the address. -/
def PfcState.timerState (s : PfcState) (a : PfcAddr) : Option ℤ := (s.heap a).map (·.state)

/-- A module is changed. -/
def PfcState.modify (s : PfcState) (a : PfcAddr) (f : PerformanceCounters → PerformanceCounters) :
    PfcState :=
  { s with heap := Function.update s.heap a ((s.heap a).map f) }

/-- The state behind an operation. A store through the null pointer meets no module. -/
def PfcState.act (s : PfcState) : PfcOp → PfcAns → Option PfcState
  | .readPfc i, .ptr p => if p = s.pfc i then some s else none
  | .writePfc i p, .none => some { s with pfc := Function.update s.pfc i p }
  | .lineBase, .word _ => some s
  | .malloc, .block none => some s
  | .malloc, .block (some (a, m)) =>
      if s.heap a = none then some { s with heap := Function.update s.heap a (some m) } else none
  | .free a, .none => some { s with heap := Function.update s.heap a none }
  | .store p f, .none => some (p.elim s fun a => s.modify a (·.store f))
  | .pulseEop _, .none => some s
  | .readState a, .state z => if ∀ m ∈ s.heap a, z = m.state then some s else none
  | .readMonitorPeriod a, .word w =>
      if ∀ m ∈ s.heap a, w = m.monitorPeriodS then some s else none
  | .altAlarmStart a, .started ok =>
      if ok = decide (s.tickRate ≠ 0) then
        if ok then
          let s := s.modify a fun m => { m with timer := altAlarmStart s.tickRate s.nticks }
          some { s with alarms := a :: s.alarms }
        else some s
      else none
  | .altAlarmStop a, .none => some { s with alarms := s.alarms.erase a }
  | _, _ => none

/-- What `alt_tick` does with an alarm of the list: where it is due, its callback is made, and it
is due again after the result of that, or stopped if that is zero. -/
def PfcState.altTickAlarm (regs : UInt32 → PfcRegisters) (s : PfcState) (a : PfcAddr) : PfcState :=
  match s.heap a with
  | none => s
  | some m =>
      match m.timer.tick s.nticks with
      | some timer => s.modify a fun m => { m with timer := timer }
      | none =>
          let time := m.timer.time + s.tickRate
          let s := s.modify a (pfcTimerIsr (regs m.base))
          if s.tickRate = 0 then { s with alarms := s.alarms.erase a }
          else s.modify a fun m => { m with timer := ⟨time, time < s.nticks⟩ }

/-- `alt_tick` -/
def PfcState.altTick (regs : UInt32 → PfcRegisters) (s : PfcState) : PfcState :=
  s.alarms.foldl (PfcState.altTickAlarm regs) { s with nticks := s.nticks + 1 }

/-- What comes between two operations of the task: a tick with the contents of the registers, a
read of the KURS protocol, or the driver of the system clock sets its rate. -/
inductive PfcInterrupt
  | tick (regs : UInt32 → PfcRegisters)
  | kursRead (i : Fin INTERFACE_COUNT) (c : PfcCount)
  | altSysclkInit (nticks : UInt32)

/-- What an interrupt meets: the alarms of freed modules that a tick comes by, the value that a
read returns, or that it goes through a pointer to a freed module. -/
inductive PfcSeen
  | none
  | ticked (freed : List PfcAddr)
  | value (v : UInt64)
  | freed
  deriving DecidableEq, Repr

/-- `get_pfc_es` and the others, on the pointer of a port. -/
def PfcState.kursRead (s : PfcState) (i : Fin INTERFACE_COUNT) (c : PfcCount) : PfcSeen :=
  match s.pfc i with
  | none => .value 0
  | some a => (s.heap a).elim .freed fun m => .value (m.count c)

/-- The state behind an interrupt, and what it meets. -/
def PfcState.interrupt (s : PfcState) : PfcInterrupt → PfcState × PfcSeen
  | .tick regs => (s.altTick regs, .ticked (s.alarms.filter fun a => (s.heap a).isNone))
  | .kursRead i c => (s, s.kursRead i c)
  | .altSysclkInit nticks => (if s.tickRate = 0 then { s with tickRate := nticks } else s, .none)

/-- The task with its interrupts. -/
def pfcSystem : System PfcState PfcInterrupt PfcSeen PfcOp PfcAns where
  act := PfcState.act
  interrupt s e := some (s.interrupt e)

/-- No module has been created. -/
def pfcInit (tickRate nticks : UInt32) : PfcState :=
  { heap := fun _ => none, pfc := fun _ => none, alarms := [], tickRate := tickRate,
    nticks := nticks }

/-- The events of a run. -/
abbrev PfcHistory := History PfcCommand PfcInterrupt PfcSeen Unit PfcOp PfcAns

/-- The runs of the commands. -/
abbrev pfcMachine := pfcSystem.machine pfcMain

/-! ### What interrupts leave alone -/

/-- Two states have the same pointers, alarms and timer states, and the clock is not switched
off. -/
structure PfcState.Same (s s' : PfcState) : Prop where
  pfc : s'.pfc = s.pfc
  alarms : s'.alarms = s.alarms
  timerState : ∀ a, s'.timerState a = s.timerState a
  tickRate : s.tickRate ≠ 0 → s'.tickRate ≠ 0

variable {s s' s'' : PfcState} {a b : PfcAddr} {f : PerformanceCounters → PerformanceCounters}

theorem PfcState.Same.refl (s : PfcState) : s.Same s := ⟨rfl, rfl, fun _ => rfl, id⟩

theorem PfcState.Same.trans (h : s.Same s') (h' : s'.Same s'') : s.Same s'' :=
  ⟨h'.pfc.trans h.pfc, h'.alarms.trans h.alarms,
    fun a => (h'.timerState a).trans (h.timerState a), fun hrate => h'.tickRate (h.tickRate hrate)⟩

/-- The timer states behind a change of a module. -/
theorem PfcState.timerState_modify : (s.modify a f).timerState b =
    if b = a then (s.heap a).map fun m => (f m).state else s.timerState b := by
  simp only [PfcState.timerState, PfcState.modify, Function.update_apply]
  split
  next => rw [Option.map_map]; rfl
  next => rfl

/-- A change of a module that leaves its timer state alone. -/
theorem PfcState.same_modify (hf : ∀ m, (f m).state = m.state) : s.Same (s.modify a f) := by
  refine ⟨rfl, rfl, fun b => ?_, id⟩
  rw [PfcState.timerState_modify]
  split
  next hb =>
    subst hb
    exact congrArg (fun g => (s.heap b).map g) (funext hf)
  next => rfl

/-- The callback does not touch the timer state. -/
theorem pfcTimerIsr_state (regs : PfcRegisters) (m : PerformanceCounters) :
    (pfcTimerIsr regs m).state = m.state := by
  rw [pfcTimerIsr]
  split <;> rfl

/-- An alarm of a tick. -/
theorem PfcState.altTickAlarm_same (regs : UInt32 → PfcRegisters) (hrate : s.tickRate ≠ 0) :
    s.Same (s.altTickAlarm regs a) := by
  rw [PfcState.altTickAlarm]
  split
  next => exact .refl s
  next m hm =>
    split
    next timer ht => exact PfcState.same_modify fun _ => rfl
    next ht =>
      have hisr : s.Same (s.modify a (pfcTimerIsr (regs m.base))) :=
        PfcState.same_modify (pfcTimerIsr_state _)
      rw [if_neg (show (s.modify a (pfcTimerIsr (regs m.base))).tickRate ≠ 0 from hrate)]
      exact hisr.trans (PfcState.same_modify fun _ => rfl)

/-- **A tick** leaves the pointers, the alarms and the timer states alone, if the clock runs. -/
theorem PfcState.altTick_same (regs : UInt32 → PfcRegisters)
    (hrate : s.alarms ≠ [] → s.tickRate ≠ 0) : s.Same (s.altTick regs) := by
  have hcount : s.Same { s with nticks := s.nticks + 1 } := ⟨rfl, rfl, fun _ => rfl, id⟩
  by_cases hnil : s.alarms = []
  · have htick : s.altTick regs = { s with nticks := s.nticks + 1 } := by
      rw [PfcState.altTick, hnil, List.foldl_nil]
    rw [htick]
    exact hcount
  · have hfold : ∀ (as : List PfcAddr) (t : PfcState), t.tickRate ≠ 0 →
        t.Same (as.foldl (PfcState.altTickAlarm regs) t) := by
      intro as
      induction as with
      | nil => exact fun t _ => .refl t
      | cons a as ih =>
          intro t ht
          have hstep := PfcState.altTickAlarm_same (a := a) regs ht
          exact hstep.trans (ih _ (hstep.tickRate ht))
    exact hcount.trans (hfold _ _ (hrate hnil))

/-- **An interrupt** leaves them alone. -/
theorem PfcState.interrupt_same (e : PfcInterrupt) (hrate : s.alarms ≠ [] → s.tickRate ≠ 0) :
    s.Same (s.interrupt e).1 := by
  cases e with
  | tick regs => exact PfcState.altTick_same regs hrate
  | kursRead i c => exact .refl s
  | altSysclkInit nticks =>
      rw [PfcState.interrupt]
      split
      next hzero => exact ⟨rfl, rfl, fun _ => rfl, fun h => absurd hzero h⟩
      next => exact .refl s

end Muxponder
