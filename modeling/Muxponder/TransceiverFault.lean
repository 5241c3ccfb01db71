import Muxponder.TransceiverPresence

/-!
# The Reported Fault of a Transceiver

In the monitor state an SFP is reported as not ready where its fault input has changed to
asserted. The input it is compared with is preset to asserted when a module is pulled out and
when the slot is created, and a boot leaves it as it was. A module whose input is asserted all
along is never reported: the state stays the one that its boot has left.

A boot is requested by a plug-in, and by a command of the diagnostic protocol.

## Main results

* `faultReport_iff`: when the report of a step in the monitor state is right.
* `faultReport_wrong`: a module that is plugged in with a fault.
-/

namespace Muxponder

/-- `handle_if_transceiver_reboot_func`, where it requests a reboot. -/
def handleIfTransceiverReboot (t : Transceiver) : Transceiver :=
  { t with inputBootStart := 1, stateHandler := .booting }

/-- What happens to a slot, the command included. -/
inductive FaultEvent
  | slot (e : TransceiverEvent)
  | rebootCommand
  deriving DecidableEq, Repr

/-- The transceiver that the handler of a reading is called with. -/
def Transceiver.dispatched (t : Transceiver) (a : TransceiverAnswers) : Transceiver :=
  let t := { t with absent := t.absent.update a.absent }
  if t.absent.change then onTransceiverPlugUnplugEvent t else t

/-- A reading is executed in the monitor state, with the module present and no reboot
requested. -/
def MonitorStep (t : Transceiver) (a : TransceiverAnswers) : Prop :=
  (t.dispatched a).stateHandler = .monitor ∧ (t.dispatched a).absent.current = false ∧
    (t.dispatched a).inputBootStart = 0

instance (t : Transceiver) (a : TransceiverAnswers) : Decidable (MonitorStep t a) :=
  inferInstanceAs (Decidable (_ ∧ _ ∧ _))

/-- The slot, with whether an event has been a step in the monitor state. -/
def faultSlot : Machine Transceiver FaultEvent Bool where
  step t
    | .slot (.read a) => some ((readTransceiverDynamicData t a).1, MonitorStep t a)
    | .slot .timerIsr => some (timerIsr t, false)
    | .slot .reboot => some (taskReboot t, false)
    | .rebootCommand => some (handleIfTransceiverReboot t, false)

/-- A run of it. -/
abbrev FaultHistory := List (FaultEvent × Bool)

/-- What the history says of the fault input: `remembered` is what it was at the latest step in
the monitor state since the plug-in, asserted where there was none; `heard` says that at such a
step since the latest boot it was deasserted, or asserted behind one where it was not. -/
@[ext] structure FaultRecord where
  remembered : Bool
  heard : Bool
  deriving DecidableEq, Repr

/-- An event in the record. -/
def FaultRecord.after (r : FaultRecord) : FaultEvent × Bool → FaultRecord
  | (.slot (.read a), monitored) =>
      if a.absent then ⟨true, false⟩
      else if monitored then ⟨a.fault, r.heard || !a.fault || !r.remembered⟩
      else r
  | (.slot _, _) => r
  | (.rebootCommand, _) => { r with heard := false }

/-- The record of a history. -/
def FaultHistory.record (h : FaultHistory) : FaultRecord :=
  h.foldl FaultRecord.after ⟨true, false⟩

variable {h : FaultHistory} {t t' : Transceiver} {a : TransceiverAnswers} {r : FaultRecord}
  {e : FaultEvent} {x : Bool}

/-- The record grows with the history. -/
theorem record_append : FaultHistory.record (h ++ [(e, x)]) = h.record.after (e, x) := by
  simp [FaultHistory.record, List.foldl_append]

/-- What the slot keeps. -/
structure FaultInvariant (r : FaultRecord) (t : Transceiver) : Prop where
  fault_eq : t.fault.current = r.remembered
  empty : t.absent.current = true → r.remembered = true
  started : t.stateHandler ≠ .absent → t.stateHandler ≠ .booting → t.inputBootStart = 0
  present : t.stateHandler = .query ∨ t.stateHandler = .monitor → t.absent.current = false
  heard : r.heard = true →
    t.stateHandler = .monitor ∧ t.state = if r.remembered then .notReady else .ok
  silent : r.heard = false → t.stateHandler = .booting ∧ t.inputBootStart ≠ 0 ∨
    t.state ≠ .ok ∧ t.state ≠ .notReady

/-- A step in the monitor state sees neither a plug-in nor the opposite. -/
theorem MonitorStep.inv (hm : MonitorStep t a) :
    a.absent = false ∧ t.absent.current = false ∧ t.stateHandler = .monitor ∧
      t.inputBootStart = 0 := by
  obtain ⟨hhandler, hpresent, hstart⟩ := hm
  simp only [Transceiver.dispatched, IoStatus.update, onTransceiverPlugUnplugEvent] at *
  cases hread : a.absent <;> cases hwas : t.absent.current <;> simp_all

/-- What a step in the monitor state does. -/
theorem MonitorStep.spec (hm : MonitorStep t a) :
    (readTransceiverDynamicData t a).1 =
      { t with
        absent := t.absent.update false
        fault := t.fault.update a.fault
        state :=
          if a.fault then if t.fault.current then t.state else .notReady else .ok
        los := t.los.update a.los } := by
  obtain ⟨hread, hwas, hhandler, hstart⟩ := hm.inv
  cases hfault : a.fault <;> cases hremembered : t.fault.current <;>
    simp [readTransceiverDynamicData, runStateHandler, runTransceiverMonitorState, changeState,
      IoStatus.update, hread, hwas, hhandler, hstart, hfault, hremembered]

/-- A step in the monitor state keeps the invariant. -/
theorem FaultInvariant.monitor (hI : FaultInvariant r t) (hm : MonitorStep t a) :
    FaultInvariant (r.after (.slot (.read a), true)) (readTransceiverDynamicData t a).1 := by
  obtain ⟨hread, -, hhandler, hstart⟩ := hm.inv
  have hafter : r.after (.slot (.read a), true) =
      ⟨a.fault, r.heard || !a.fault || !r.remembered⟩ := by
    simp [FaultRecord.after, hread]
  rw [hafter, hm.spec]
  refine ⟨rfl, fun h => absurd h (by simp [IoStatus.update]), fun _ _ => hstart, fun _ => rfl,
    fun hheard => ⟨hhandler, ?_⟩, fun hsilent => ?_⟩
  · cases hfault : a.fault with
    | false => rfl
    | true =>
        cases hremembered : t.fault.current with
        | false => simp
        | true =>
            have hbefore : r.heard = true := by
              simpa [hfault, ← hI.fault_eq, hremembered] using hheard
            simpa [← hI.fault_eq, hremembered] using (hI.heard hbefore).2
  · obtain ⟨⟨hbefore, hfault⟩, hremembered⟩ : (r.heard = false ∧ a.fault = true) ∧
        r.remembered = true := by simpa using hsilent
    rcases hI.silent hbefore with ⟨hboot, -⟩ | hstate
    · rw [hhandler] at hboot
      cases hboot
    · exact .inr (by simpa [hfault, hI.fault_eq, hremembered] using hstate)

/-- Where nothing has been heard, and the fault input is as it was. -/
theorem FaultInvariant.of_silent (hheard : r.heard = false)
    (hfault : t.fault.current = r.remembered)
    (hempty : t.absent.current = true → r.remembered = true)
    (hstarted : t.stateHandler ≠ .absent → t.stateHandler ≠ .booting → t.inputBootStart = 0)
    (hpresent : t.stateHandler = .query ∨ t.stateHandler = .monitor → t.absent.current = false)
    (hstate : t.state ≠ .ok ∧ t.state ≠ .notReady) : FaultInvariant r t where
  fault_eq := hfault
  empty := hempty
  started := hstarted
  present := hpresent
  heard := fun h => absurd h (by simp [hheard])
  silent := fun _ => .inr hstate

/-- In another state than that of the monitor nothing has been heard. -/
theorem FaultInvariant.heard_eq (hI : FaultInvariant r t) (hh : t.stateHandler ≠ .monitor) :
    r.heard = false := by
  by_contra hne
  exact hh (hI.heard (by simpa using hne)).1

/-- The query state of a module that is there goes on, and leaves the rest. -/
theorem runTransceiverQueryState_spec (hhandler : t.stateHandler = .query)
    (hpresent : t.absent.current = false) (hstart : t.inputBootStart = 0) :
    ∃ type opticalPowerMonitor next, (next = .monitor ∨ next = .comCheck) ∧
      (runTransceiverQueryState t a).1 =
        { t with
          type := type, opticalPowerMonitor := opticalPowerMonitor, stateHandler := next } := by
  cases htype : t.type <;> cases hinfo : a.info <;>
    simp [runTransceiverQueryState, readIfTransceiverInfo, changeState, hhandler, hpresent,
      hstart, htype, hinfo]

/-- Such a state keeps the invariant, where the presence has not changed. -/
theorem FaultInvariant.handled (hI : FaultInvariant r t)
    (hsame : t.absent.current = true → t.absent.previous = true)
    (hh : t.stateHandler ≠ .monitor) : FaultInvariant r (runStateHandler t a).1 := by
  have hheard := hI.heard_eq hh
  have hsilent := hI.silent hheard
  cases hhandler : t.stateHandler with
  | absent =>
      have hrun : runTransceiverAbsentState t = t := by
        rw [runTransceiverAbsentState, if_neg]
        exact fun h => h.2 (hsame h.1)
      simpa [runStateHandler, hhandler, hrun] using hI
  | booting =>
      by_cases hstart : t.inputBootStart = 0
      · have hstate : t.state ≠ .ok ∧ t.state ≠ .notReady := by simpa [hstart] using hsilent
        by_cases hdone : t.inputBootDone = 0
        · simpa [runStateHandler, runTransceiverBootingState, hhandler, hstart, hdone]
            using hI
        · simp only [runStateHandler, runTransceiverBootingState, hhandler, hstart,
            hdone, ne_eq, not_true, if_false, not_false_iff, if_true]
          exact .of_silent hheard hI.fault_eq hI.empty (fun _ _ => rfl) (by simp) hstate
      · simp only [runStateHandler, runTransceiverBootingState, hhandler, ne_eq, hstart,
          not_false_iff, if_true]
        exact .of_silent hheard hI.fault_eq hI.empty (fun _ _ => rfl) (by simp)
          ⟨by simp, by simp⟩
  | comCheck =>
      have hstart := hI.started (by simp [hhandler]) (by simp [hhandler])
      have hstate : t.state ≠ .ok ∧ t.state ≠ .notReady := by simpa [hhandler] using hsilent
      simp only [runStateHandler, runTransceiverComCheckState, hhandler, hstart, ne_eq,
        not_true, if_false]
      split
      next => exact .of_silent hheard hI.fault_eq hI.empty (by simp) (by simp) ⟨by simp, by simp⟩
      next hpresent =>
        have hpresent' : t.absent.current = false := by simpa using hpresent
        split
        next =>
          exact .of_silent hheard hI.fault_eq hI.empty (fun _ _ => rfl) (fun _ => hpresent') hstate
        next =>
          exact .of_silent hheard hI.fault_eq hI.empty (fun _ _ => rfl) (fun _ => hpresent') hstate
  | query =>
      have hstart := hI.started (by simp [hhandler]) (by simp [hhandler])
      have hstate : t.state ≠ .ok ∧ t.state ≠ .notReady := by simpa [hhandler] using hsilent
      have hpresent := hI.present (.inl hhandler)
      obtain ⟨type, monitored, next, hnext, hquery⟩ :=
        runTransceiverQueryState_spec (a := a) hhandler hpresent hstart
      simp only [runStateHandler, hhandler, hquery]
      exact .of_silent hheard hI.fault_eq hI.empty (fun _ _ => hstart) (fun _ => hpresent) hstate
  | monitor => exact absurd hhandler hh
  | fail =>
      have hstart := hI.started (by simp [hhandler]) (by simp [hhandler])
      simp only [runStateHandler, hhandler, runTransceiverFailState]
      exact .of_silent hheard hI.fault_eq hI.empty (fun _ _ => hstart) (by simp)
        ⟨by simp, by simp⟩

/-- An empty slot is not monitored. -/
theorem FaultInvariant.not_monitor (hI : FaultInvariant r t) (habsent : t.absent.current = true) :
    t.stateHandler ≠ .monitor := by
  intro hh
  have hpresent := hI.present (.inr hh)
  rw [habsent] at hpresent
  cases hpresent

/-- A reading of the presence that finds no change leaves the invariant. -/
theorem FaultInvariant.update (hI : FaultInvariant r t) :
    FaultInvariant r { t with absent := t.absent.update t.absent.current } :=
  ⟨hI.fault_eq, hI.empty, hI.started, hI.present, hI.heard, hI.silent⟩

/-- A reading without a change of the presence calls the handler. -/
theorem readTransceiverDynamicData_same (hsame : a.absent = t.absent.current) :
    readTransceiverDynamicData t a =
      runStateHandler { t with absent := t.absent.update t.absent.current } a := by
  simp [readTransceiverDynamicData, IoStatus.update, hsame]

/-- **A reading keeps the invariant.** -/
theorem FaultInvariant.read (hI : FaultInvariant r t) :
    FaultInvariant (r.after (.slot (.read a), MonitorStep t a))
      (readTransceiverDynamicData t a).1 := by
  by_cases hm : MonitorStep t a
  · simpa [hm] using hI.monitor hm
  have hafter : r.after (.slot (.read a), MonitorStep t a) =
      if a.absent then ⟨true, false⟩ else r := by
    simp [FaultRecord.after, hm]
  rw [hafter]
  by_cases hsame : a.absent = t.absent.current
  · have hh : t.stateHandler ≠ .monitor := by
      intro hh
      have hpresent := hI.present (.inr hh)
      refine hm ⟨?_, ?_, ?_⟩ <;> simp [Transceiver.dispatched, IoStatus.update, hsame, hpresent, hh]
      exact hI.started (by simp [hh]) (by simp [hh])
    rw [readTransceiverDynamicData_same hsame]
    have hkept := hI.update.handled (a := a) id hh
    split
    next habsent =>
      have hr : r = ⟨true, false⟩ := FaultRecord.ext (hI.empty (hsame ▸ habsent)) (hI.heard_eq hh)
      exact hr ▸ hkept
    next => exact hkept
  · cases hwas : t.absent.current with
    | true =>
        have hread : a.absent = false := by simpa [hwas] using hsame
        rw [if_neg (by simp [hread])]
        refine .of_silent (hI.heard_eq (hI.not_monitor hwas)) ?_ ?_ ?_ ?_ ?_ <;>
          simp [readTransceiverDynamicData, IoStatus.update, hread, hwas, runStateHandler,
            onTransceiverPlugUnplugEvent, runTransceiverBootingState, hI.fault_eq]
    | false =>
        have hread : a.absent = true := by simpa [hwas] using hsame
        rw [if_pos hread]
        refine .of_silent rfl ?_ (fun _ => rfl) ?_ ?_ ?_ <;>
          simp [readTransceiverDynamicData, IoStatus.update, hread, hwas, runStateHandler,
            onTransceiverPlugUnplugEvent, runTransceiverAbsentState]

/-- **The invariant holds in every state of every run.** -/
theorem faultInvariant_run {type : TransceiverType} {t₀ : Transceiver}
    (hr : faultSlot.Run (createTransceiver type t₀) h t) : FaultInvariant h.record t := by
  refine hr.invariant (I := fun h t => FaultInvariant (FaultHistory.record h) t) ?_
    fun h t e t' x _ hI hstep => ?_
  · exact .of_silent rfl rfl (fun _ => rfl) (fun h => absurd rfl h) nofun ⟨nofun, nofun⟩
  · rw [record_append]
    cases e with
    | slot e =>
        cases e with
        | read a =>
            obtain ⟨rfl, rfl⟩ := Prod.mk.inj (Option.some.inj hstep)
            exact hI.read
        | timerIsr | reboot =>
            obtain ⟨rfl, rfl⟩ := Prod.mk.inj (Option.some.inj hstep)
            exact ⟨hI.fault_eq, hI.empty, hI.started, hI.present, hI.heard, hI.silent⟩
    | rebootCommand =>
        obtain ⟨rfl, rfl⟩ := Prod.mk.inj (Option.some.inj hstep)
        exact ⟨hI.fault_eq, hI.empty, fun _ hne => absurd rfl hne, nofun, nofun,
          fun _ => .inl ⟨rfl, by simp [handleIfTransceiverReboot]⟩⟩

/-- **When the report is right**: behind every history, a step in the monitor state reports the
fault input if and only if the input has been heard since the latest boot. -/
theorem faultReport_iff {type : TransceiverType} {t₀ : Transceiver}
    (hr : faultSlot.Run (createTransceiver type t₀) h t) (hm : MonitorStep t a) :
    ((readTransceiverDynamicData t a).1.state = if a.fault then .notReady else .ok) ↔
      (FaultHistory.record (h ++ [(.slot (.read a), true)])).heard = true := by
  have hI := (faultInvariant_run hr).monitor hm
  have hremembered : (h.record.after (.slot (.read a), true)).remembered = a.fault := by
    simp [FaultRecord.after, hm.inv.1]
  have hhandler := (congrArg Transceiver.stateHandler hm.spec).trans hm.inv.2.2.1
  rw [record_append]
  constructor
  · intro hreport
    by_contra hne
    rcases hI.silent (by simpa using hne) with ⟨hboot, -⟩ | hstate
    · rw [hhandler] at hboot
      cases hboot
    · rw [hreport] at hstate
      cases hfault : a.fault <;> simp [hfault] at hstate
  · intro hheard
    rw [(hI.heard hheard).2, hremembered]

/-! ### A module with a fault -/

/-- The answers of a module that is there, and whether its transmitter has failed. -/
def presentAnswers (fault : Bool) : TransceiverAnswers where
  absent := false
  fault := fault
  los := false
  comCheck := true
  info := true
  connectorLc := true
  diagMonitoring := true

/-- A slot before it is created. -/
def blankTransceiver : Transceiver where
  type := .sfpOptical
  opticalPowerMonitor := false
  absent := ⟨false, false, false⟩
  fault := ⟨false, false, false⟩
  los := ⟨false, false, false⟩
  state := .unknown
  rebootChange := false
  inputComLost := 0
  inputBootDone := 0
  inputBootStart := 0
  stateHandler := .absent

/-- A module is plugged in, woken up, checked and queried. -/
def plugInSteps (fault : Bool) : FaultHistory :=
  [(.slot (.read (presentAnswers fault)), false), (.slot .reboot, false), (.slot .timerIsr, false),
    (.slot (.read (presentAnswers fault)), false), (.slot (.read (presentAnswers fault)), false),
    (.slot (.read (presentAnswers fault)), false)]

/-- A module without a fault is reported as operational. -/
theorem faultReport_ok : ∃ t,
    faultSlot.Run (createTransceiver .sfpOptical blankTransceiver) (plugInSteps false) t ∧
      (readTransceiverDynamicData t (presentAnswers false)).1.state = .ok := by
  obtain ⟨t, hr, hm⟩ : ∃ t,
      faultSlot.Run (createTransceiver .sfpOptical blankTransceiver) (plugInSteps false) t ∧
        MonitorStep t (presentAnswers false) := ⟨_, Machine.run_of_exec rfl, by decide⟩
  exact ⟨t, hr, (faultReport_iff hr hm).mpr (by decide)⟩

/-- **A fault is not reported**: the module has had it since it was plugged in. -/
theorem faultReport_wrong : ∃ t,
    faultSlot.Run (createTransceiver .sfpOptical blankTransceiver) (plugInSteps true) t ∧
      MonitorStep t (presentAnswers true) ∧
      (readTransceiverDynamicData t (presentAnswers true)).1.state = .rebooting :=
  ⟨_, Machine.run_of_exec rfl, by decide, by decide⟩

end Muxponder
