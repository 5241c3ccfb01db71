import Muxponder.AltAlarm
import Muxponder.Lib.Machine

/-!
# The State Machine of a Transceiver

`ipglb_transceiver.c` for the SFP and SFP+ transceivers of the board: the handlers of the
states, the check of the presence in front of them (`read_transceiver_dynamic_data`), the
start of the wake-up timer (`boot_transceiver`, called by `task_10`) and its callback
(`timer_isr`). What a transceiver answers is the input of a step, and what it is asked over
I2C is its output.

The presence of the module is looked at in front of every handler, so the tests of it inside
the handlers never decide anything. What is left is the machine `ReadStep` of the fields that
steer it.

## Main results

* `readTransceiverDynamicData_step`: a step of the code is one of `ReadStep`.
* `ReadStep.sound`: the handler and the reported state keep in step with the presence.
-/

namespace Muxponder

/-- `transceiver_state_t` -/
inductive TransceiverState
  | absent | ok | notReady | fail | rebooting | booted | unknown
  deriving DecidableEq, Repr

/-- `transceiver_type_t`, the SFP and SFP+ transceivers. -/
inductive TransceiverType
  | sfpElectrical | sfpOptical | sfppElectrical | sfppOptical
  deriving DecidableEq, Repr

/-- The handlers `run_transceiver_..._state` that `state_handler` points to. -/
inductive StateHandler
  | absent | booting | comCheck | query | monitor | fail
  deriving DecidableEq, Repr

/-- `ipg_status_t`, of an input. -/
structure IoStatus where
  previous : Bool
  current : Bool
  change : Bool
  deriving DecidableEq, Repr

/-- `UPDATE_IO` -/
def IoStatus.update (s : IoStatus) (v : Bool) : IoStatus := ⟨s.current, v, v ^^ s.current⟩

/-- `transceiver_state_machine_t` and what the state machine reads and writes of
`transceiver_t`. -/
structure Transceiver where
  type : TransceiverType
  opticalPowerMonitor : Bool
  absent : IoStatus
  fault : IoStatus
  los : IoStatus
  state : TransceiverState
  rebootChange : Bool
  inputComLost : UInt8
  inputBootDone : UInt8
  inputBootStart : UInt8
  stateHandler : StateHandler
  deriving DecidableEq, Repr

/-- What the inputs and the module answer in a step. `connectorLc` is the connector that
`get_sfp_info` reads, and `diagMonitoring` the capability as it leaves it. -/
structure TransceiverAnswers where
  absent : Bool
  fault : Bool
  los : Bool
  comCheck : Bool
  info : Bool
  connectorLc : Bool
  diagMonitoring : Bool
  deriving DecidableEq, Repr

/-- What a module is asked over I2C: `sfp_com_check` or `sfpp_com_check` with its answer, and
the reads and writes behind it. -/
inductive I2cQuery
  | comCheck (ok : Bool)
  | info
  | opticalThresholds
  | diagnostics
  | enableSgmii
  deriving DecidableEq, Repr

/-- `create_transceiver`, with the type that `custom_init_transceiver_data` chooses (an optical
SFP on this card). The memory that `malloc` returns is not cleared. -/
def createTransceiver (type : TransceiverType) (t : Transceiver) : Transceiver :=
  { t with
    type := type
    opticalPowerMonitor := true
    state := .absent
    absent := { t.absent with current := true }
    fault := { t.fault with current := true }
    los := { t.los with current := true }
    stateHandler := .absent }

/-! ### The handlers -/

/-- `run_transceiver_absent_state` -/
def runTransceiverAbsentState (t : Transceiver) : Transceiver :=
  if t.absent.current ∧ ¬ t.absent.previous then
    { t with
      state := .absent
      fault := { t.fault with current := true }
      los := { t.los with current := true } }
  else t

/-- `run_transceiver_booting_state` -/
def runTransceiverBootingState (t : Transceiver) : Transceiver :=
  if t.inputBootStart ≠ 0 then
    { t with state := .rebooting, rebootChange := true, inputBootDone := 0, inputBootStart := 0 }
  else if t.inputBootDone ≠ 0 then { t with stateHandler := .comCheck, inputBootDone := 0 }
  else t

/-- `run_transceiver_com_check_state` -/
def runTransceiverComCheckState (t : Transceiver) (a : TransceiverAnswers) :
    Transceiver × List I2cQuery :=
  if t.absent.current then ({ t with state := .absent, stateHandler := .absent }, [])
  else if t.inputBootStart ≠ 0 then ({ t with stateHandler := .booting }, [])
  else if a.comCheck then
    ({ t with stateHandler := .query, inputComLost := 0 }, [.comCheck true])
  else
    let lost := t.inputComLost + 1
    ({ t with
        inputComLost := lost
        stateHandler := if lost = 3 then .fail else t.stateHandler }, [.comCheck false])

/-- `run_transceiver_fail_state` -/
def runTransceiverFailState (t : Transceiver) : Transceiver :=
  { t with state := .fail, stateHandler := .comCheck }

/-- `callback_on_transceiver_state_change`: an electrical module is switched to Ethernet when
it comes to be monitored. -/
def callbackOnTransceiverStateChange (t : Transceiver) : List I2cQuery :=
  if t.stateHandler = .monitor ∧ t.type = .sfpElectrical then [.enableSgmii] else []

/-- The end of a handler: a new state is reported to the application. -/
def changeState (t : Transceiver) (newState : StateHandler) (queries : List I2cQuery) :
    Transceiver × List I2cQuery :=
  if newState ≠ t.stateHandler then
    ({ t with stateHandler := newState },
      queries ++ callbackOnTransceiverStateChange { t with stateHandler := newState })
  else (t, queries)

/-- `read_if_transceiver_info`: whether it succeeds, what it learns, and what it asks. -/
def readIfTransceiverInfo (t : Transceiver) (a : TransceiverAnswers) :
    Bool × Transceiver × List I2cQuery :=
  let learned := { t with opticalPowerMonitor := a.diagMonitoring }
  match t.type with
  | .sfppElectrical => (false, t, [])
  | .sfppOptical => (a.info, learned, [.info])
  | .sfpOptical | .sfpElectrical =>
      if a.info then
        (true, { learned with type := if a.connectorLc then .sfpOptical else .sfpElectrical },
          [.info])
      else (false, learned, [.info])

/-- `read_if_transceiver_opt_pwr_thresholds`, of a module that monitors its optical power. -/
def readIfTransceiverOptPwrThresholds (t : Transceiver) : List I2cQuery :=
  if t.opticalPowerMonitor ∧ (t.type = .sfppOptical ∨ t.type = .sfpOptical) then
    [.opticalThresholds]
  else []

/-- `read_if_transceiver_diagnostics` -/
def readIfTransceiverDiagnostics (t : Transceiver) : List I2cQuery :=
  if t.opticalPowerMonitor ∧ t.type ≠ .sfppElectrical then [.diagnostics] else []

/-- `run_transceiver_query_state` -/
def runTransceiverQueryState (t : Transceiver) (a : TransceiverAnswers) :
    Transceiver × List I2cQuery :=
  if t.absent.current then changeState { t with state := .absent } .absent []
  else if t.inputBootStart ≠ 0 then changeState t .booting []
  else
    match readIfTransceiverInfo t a with
    | (true, t', queries) =>
        changeState t' .monitor (queries ++ readIfTransceiverOptPwrThresholds t')
    | (false, t', queries) => changeState t' .comCheck queries

/-- `run_transceiver_monitor_state`; the dependent part of an SFP is to report it as
operational. -/
def runTransceiverMonitorState (t : Transceiver) (a : TransceiverAnswers) :
    Transceiver × List I2cQuery :=
  if t.absent.current then changeState { t with state := .absent } .absent []
  else if t.inputBootStart ≠ 0 then changeState t .booting []
  else
    let fault := t.fault.update a.fault
    let state :=
      if fault.current then if fault.change then .notReady else t.state else .ok
    changeState { t with fault := fault, state := state, los := t.los.update a.los } .monitor
      (readIfTransceiverDiagnostics t)

/-! ### The steps -/

/-- `on_transceiver_plug_unplug_event` -/
def onTransceiverPlugUnplugEvent (t : Transceiver) : Transceiver :=
  if t.absent.current then { t with stateHandler := .absent, type := .sfpOptical }
  else { t with inputBootStart := 1, stateHandler := .booting }

/-- The call through `state_handler`. -/
def runStateHandler (t : Transceiver) (a : TransceiverAnswers) : Transceiver × List I2cQuery :=
  match t.stateHandler with
  | .absent => (runTransceiverAbsentState t, [])
  | .booting => (runTransceiverBootingState t, [])
  | .comCheck => runTransceiverComCheckState t a
  | .query => runTransceiverQueryState t a
  | .monitor => runTransceiverMonitorState t a
  | .fail => (runTransceiverFailState t, [])

/-- `read_transceiver_dynamic_data` -/
def readTransceiverDynamicData (t : Transceiver) (a : TransceiverAnswers) :
    Transceiver × List I2cQuery :=
  let t := { t with absent := t.absent.update a.absent }
  runStateHandler (if t.absent.change then onTransceiverPlugUnplugEvent t else t) a

/-- `timer_isr` -/
def timerIsr (t : Transceiver) : Transceiver := { t with inputBootDone := 1 }

/-! ### What steers the machine -/

/-- The fields that decide what a step does. -/
structure TransceiverControl where
  absent : Bool
  state : TransceiverState
  rebootChange : Bool
  inputComLost : UInt8
  inputBootDone : UInt8
  inputBootStart : UInt8
  stateHandler : StateHandler
  deriving DecidableEq, Repr

/-- Those fields of a transceiver. -/
def Transceiver.control (t : Transceiver) : TransceiverControl where
  absent := t.absent.current
  state := t.state
  rebootChange := t.rebootChange
  inputComLost := t.inputComLost
  inputBootDone := t.inputBootDone
  inputBootStart := t.inputBootStart
  stateHandler := t.stateHandler

/-- The handler and the reported state are those of the last reading of the presence, and a
start of the boot has been seen. -/
structure TransceiverControl.Sound (c : TransceiverControl) : Prop where
  unplugged : c.absent = true → c.stateHandler = .absent ∧ c.state = .absent
  plugged : c.absent = false →
    c.stateHandler ≠ .absent ∧ c.state ≠ .absent ∧ c.inputBootStart = 0

/-- A question other than the check of the communication. -/
def I2cQuery.IsOther (q : I2cQuery) : Prop := ∀ ok, q ≠ .comCheck ok

/-- What a step does, by the presence that it reads. -/
inductive ReadStep (c : TransceiverControl) :
    Bool → TransceiverControl → List I2cQuery → Prop
  | unplugged :
      ReadStep c true { c with absent := true, stateHandler := .absent, state := .absent } []
  | plugged (habsent : c.absent = true) :
      ReadStep c false
        { c with
          absent := false, stateHandler := .booting, state := .rebooting
          rebootChange := true, inputBootDone := 0, inputBootStart := 0 } []
  | waiting (hpresent : c.absent = false) (hstate : c.stateHandler = .booting)
      (hdone : c.inputBootDone = 0) : ReadStep c false c []
  | booted (hpresent : c.absent = false) (hstate : c.stateHandler = .booting)
      (hdone : c.inputBootDone ≠ 0) :
      ReadStep c false { c with stateHandler := .comCheck, inputBootDone := 0 } []
  | answered (hpresent : c.absent = false) (hstate : c.stateHandler = .comCheck) :
      ReadStep c false { c with stateHandler := .query, inputComLost := 0 } [.comCheck true]
  | lost (hpresent : c.absent = false) (hstate : c.stateHandler = .comCheck)
      (hlost : c.inputComLost + 1 ≠ 3) :
      ReadStep c false { c with inputComLost := c.inputComLost + 1 } [.comCheck false]
  | gaveUp (hpresent : c.absent = false) (hstate : c.stateHandler = .comCheck)
      (hlost : c.inputComLost + 1 = 3) :
      ReadStep c false { c with inputComLost := 3, stateHandler := .fail } [.comCheck false]
  | queried (next : StateHandler) (qs : List I2cQuery) (hpresent : c.absent = false)
      (hstate : c.stateHandler = .query) (hnext : next = .monitor ∨ next = .comCheck)
      (hqs : ∀ q ∈ qs, q.IsOther) : ReadStep c false { c with stateHandler := next } qs
  | monitored (state : TransceiverState) (qs : List I2cQuery) (hpresent : c.absent = false)
      (hstate : c.stateHandler = .monitor)
      (hreport : state = c.state ∨ state = .ok ∨ state = .notReady)
      (hqs : ∀ q ∈ qs, q.IsOther) : ReadStep c false { c with state := state } qs
  | failed (hpresent : c.absent = false) (hstate : c.stateHandler = .fail) :
      ReadStep c false { c with state := .fail, stateHandler := .comCheck } []

variable {t : Transceiver} {a : TransceiverAnswers} {c c' : TransceiverControl}
  {absent : Bool} {qs : List I2cQuery}

/-- A module that has been created is reported absent. -/
theorem sound_createTransceiver (type : TransceiverType) (t : Transceiver) :
    (createTransceiver type t).control.Sound :=
  ⟨fun _ => ⟨rfl, rfl⟩, fun h => by cases h⟩

/-- What a present module has to keep. -/
theorem TransceiverControl.Sound.of_present (hp : c.absent = false)
    (hhandler : c.stateHandler ≠ .absent) (hstate : c.state ≠ .absent)
    (hstart : c.inputBootStart = 0) : c.Sound :=
  ⟨fun h => absurd h (by simp [hp]), fun _ => ⟨hhandler, hstate, hstart⟩⟩

/-- **A step keeps the handler and the reported state in step with the presence.** -/
theorem ReadStep.sound (h : ReadStep c absent c' qs) (hs : c.Sound) : c'.Sound := by
  cases h with
  | unplugged => exact ⟨fun _ => ⟨rfl, rfl⟩, fun h => by cases h⟩
  | plugged _ => exact .of_present rfl nofun nofun rfl
  | waiting _ _ _ => exact hs
  | booted hp _ _ | answered hp _ | gaveUp hp _ _ =>
      obtain ⟨-, hstate, hstart⟩ := hs.plugged hp
      exact .of_present hp nofun hstate hstart
  | lost hp _ _ =>
      obtain ⟨hhandler, hstate, hstart⟩ := hs.plugged hp
      exact .of_present hp hhandler hstate hstart
  | queried next _ hp _ hnext _ =>
      obtain ⟨-, hstate, hstart⟩ := hs.plugged hp
      refine .of_present hp ?_ hstate hstart
      rcases hnext with rfl | rfl <;> nofun
  | monitored state _ hp _ hreport _ =>
      obtain ⟨hhandler, hstate, hstart⟩ := hs.plugged hp
      refine .of_present hp hhandler ?_ hstart
      rcases hreport with rfl | rfl | rfl
      · exact hstate
      · nofun
      · nofun
  | failed hp _ =>
      obtain ⟨-, -, hstart⟩ := hs.plugged hp
      exact .of_present hp nofun nofun hstart

/-- A callback on a change of state checks no communication. -/
theorem isOther_callback {q : I2cQuery} (hq : q ∈ callbackOnTransceiverStateChange t) :
    q.IsOther := by
  rw [callbackOnTransceiverStateChange] at hq
  split at hq
  · obtain rfl := List.mem_singleton.mp hq
    exact fun _ h => by cases h
  · exact absurd hq List.not_mem_nil

/-- The end of a handler sets the state, and asks nothing else. -/
theorem changeState_control {newState : StateHandler} (hqs : ∀ q ∈ qs, q.IsOther) :
    (changeState t newState qs).1.control = { t.control with stateHandler := newState } ∧
      ∀ q ∈ (changeState t newState qs).2, q.IsOther := by
  rw [changeState]
  split
  next =>
    refine ⟨rfl, fun q hq => ?_⟩
    rcases List.mem_append.mp hq with hq | hq
    · exact hqs q hq
    · exact isOther_callback hq
  next hsame =>
    rw [ne_eq, not_not] at hsame
    exact ⟨by rw [hsame]; rfl, hqs⟩

/-- Reading the information of a module changes nothing that steers the machine. -/
theorem readIfTransceiverInfo_control :
    (readIfTransceiverInfo t a).2.1.control = t.control ∧
      ∀ q ∈ (readIfTransceiverInfo t a).2.2, q.IsOther := by
  rw [readIfTransceiverInfo]
  cases t.type <;> cases a.info <;> simp [Transceiver.control, I2cQuery.IsOther]

/-- Nor does reading its thresholds. -/
theorem isOther_thresholds {q : I2cQuery} (hq : q ∈ readIfTransceiverOptPwrThresholds t) :
    q.IsOther := by
  rw [readIfTransceiverOptPwrThresholds] at hq
  split at hq
  · obtain rfl := List.mem_singleton.mp hq
    exact fun _ h => by cases h
  · exact absurd hq List.not_mem_nil

@[inherit_doc isOther_thresholds]
theorem isOther_diagnostics {q : I2cQuery} (hq : q ∈ readIfTransceiverDiagnostics t) :
    q.IsOther := by
  rw [readIfTransceiverDiagnostics] at hq
  split at hq
  · obtain rfl := List.mem_singleton.mp hq
    exact fun _ h => by cases h
  · exact absurd hq List.not_mem_nil

/-- A step that stays in its handler and sets the reported state. -/
theorem monitored_of_eq {state : TransceiverState} (hpresent : c.absent = false)
    (hstate : c.stateHandler = .monitor)
    (hreport : state = c.state ∨ state = .ok ∨ state = .notReady)
    (hqs : ∀ q ∈ qs, q.IsOther) :
    ReadStep c false { c with state := state, stateHandler := .monitor } qs := by
  rw [← hstate]
  exact .monitored state qs hpresent hstate hreport hqs

/-- The handler of a module that is there and was there before. -/
theorem runStateHandler_step (hpresent : t.absent.current = false) (hs : t.control.Sound) :
    ReadStep t.control false (runStateHandler t a).1.control (runStateHandler t a).2 := by
  have hp : t.control.absent = false := hpresent
  obtain ⟨hne, -, hstart⟩ := hs.plugged hp
  have hpresent' : ¬ t.absent.current = true := by simp [hpresent]
  have hstart' : ¬ t.inputBootStart ≠ 0 := not_not.mpr hstart
  cases hh : t.stateHandler with
  | absent => exact absurd hh hne
  | booting =>
      simp only [runStateHandler, hh, runTransceiverBootingState, if_neg hstart']
      split
      next hdone => exact .booted hp hh hdone
      next hdone => exact .waiting hp hh (not_not.mp hdone)
  | comCheck =>
      simp only [runStateHandler, hh, runTransceiverComCheckState, if_neg hpresent',
        if_neg hstart']
      split
      next => exact .answered hp hh
      next =>
        split
        next hlost => simpa [Transceiver.control, hlost] using ReadStep.gaveUp hp hh hlost
        next hlost => simpa [Transceiver.control, hh] using ReadStep.lost hp hh hlost
  | query =>
      have hinfo := readIfTransceiverInfo_control (t := t) (a := a)
      simp only [runStateHandler, hh, runTransceiverQueryState, if_neg hpresent',
        if_neg hstart']
      split
      next t' qs heq =>
        rw [heq] at hinfo
        have hqs : ∀ q ∈ qs ++ readIfTransceiverOptPwrThresholds t', q.IsOther := by
          intro q hq
          rcases List.mem_append.mp hq with hq | hq
          · exact hinfo.2 q hq
          · exact isOther_thresholds hq
        rw [(changeState_control hqs).1, hinfo.1]
        exact .queried _ _ hp hh (Or.inl rfl) (changeState_control hqs).2
      next t' qs heq =>
        rw [heq] at hinfo
        rw [(changeState_control hinfo.2).1, hinfo.1]
        exact .queried _ _ hp hh (Or.inr rfl) (changeState_control hinfo.2).2
  | monitor =>
      simp only [runStateHandler, hh, runTransceiverMonitorState, if_neg hpresent',
        if_neg hstart']
      have hqs : ∀ q ∈ readIfTransceiverDiagnostics t, q.IsOther :=
        fun q hq => isOther_diagnostics hq
      rw [(changeState_control hqs).1]
      refine monitored_of_eq hp hh ?_ (changeState_control hqs).2
      split
      next =>
        split
        · exact Or.inr (Or.inr rfl)
        · exact Or.inl rfl
      next => exact Or.inr (Or.inl rfl)
  | fail =>
      simp only [runStateHandler, hh, runTransceiverFailState]
      exact .failed hp hh

/-- **A step of the code is one of the machine.** -/
theorem readTransceiverDynamicData_step (hs : t.control.Sound) :
    ReadStep t.control a.absent (readTransceiverDynamicData t a).1.control
      (readTransceiverDynamicData t a).2 := by
  cases hread : a.absent with
  | true =>
      cases hwas : t.absent.current with
      | true =>
          obtain ⟨hhandler, hstate⟩ := hs.unplugged hwas
          have hh : t.stateHandler = .absent := hhandler
          have hstay : readTransceiverDynamicData t a =
              ({ t with absent := t.absent.update true }, []) := by
            simp [readTransceiverDynamicData, IoStatus.update, hread, hwas, runStateHandler, hh,
              runTransceiverAbsentState]
          have hctl : ({ t with absent := t.absent.update true } : Transceiver).control =
              { t.control with absent := true, stateHandler := .absent, state := .absent } := by
            rw [← hhandler, ← hstate]
            rfl
          rw [hstay, hctl]
          exact .unplugged
      | false =>
          simp only [readTransceiverDynamicData, IoStatus.update, hread, hwas,
            onTransceiverPlugUnplugEvent, runStateHandler, runTransceiverAbsentState]
          exact .unplugged
  | false =>
      cases hwas : t.absent.current with
      | true =>
          simp only [readTransceiverDynamicData, IoStatus.update, hread, hwas,
            onTransceiverPlugUnplugEvent, runStateHandler, runTransceiverBootingState]
          exact .plugged hwas
      | false =>
          have hctl : ({ t with absent := t.absent.update false } : Transceiver).control =
              t.control := by
            simp only [Transceiver.control, IoStatus.update, hwas]
          have hstep := runStateHandler_step (t := { t with absent := t.absent.update false })
            (a := a) rfl (by rw [hctl]; exact hs)
          rw [hctl] at hstep
          simpa [readTransceiverDynamicData, hread, IoStatus.update, hwas] using hstep

end Muxponder
