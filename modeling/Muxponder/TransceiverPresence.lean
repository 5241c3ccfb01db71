import Muxponder.Transceiver

/-!
# Presence of a Transceiver

Runs of the state machine of a slot: readings, callbacks of the wake-up timer and the boots
that `task_10` starts, in any order. A module is reported absent exactly while it is read
absent, and nothing is asked of it before the timer has called back since it was plugged in.

## Main results

* `transceiver_presence_safe`: the reported state and the questions of every run.
-/

namespace Muxponder

/-- What happens to a slot: `read_transceiver_dynamic_data`, the callback of its timer, and
the reboot part of `task_10`. -/
inductive TransceiverEvent
  | read (a : TransceiverAnswers)
  | timerIsr
  | reboot
  deriving DecidableEq, Repr

/-- The reboot part of `task_10`: `boot_transceiver` starts the timer, if there is a request
for it, and the request is cleared. -/
def taskReboot (t : Transceiver) : Transceiver := { t with rebootChange := false }

/-- The slot of a transceiver, with the callback of its timer at any time. -/
def transceiver : Machine Transceiver TransceiverEvent (List I2cQuery) where
  step t
    | .read a => some (readTransceiverDynamicData t a)
    | .timerIsr => some (timerIsr t, [])
    | .reboot => some (taskReboot t, [])

/-- A run of a slot: the events, each with the questions it has led to. -/
abbrev SlotHistory := List (TransceiverEvent × List I2cQuery)

/-- The presence as it was read last. A slot starts out empty. -/
def SlotHistory.readAbsent (h : SlotHistory) : Bool :=
  h.foldl (fun b e => match e.1 with
    | .read a => a.absent
    | .timerIsr | .reboot => b) true

/-- The timer has called back while the module was there that is there now. -/
def SlotHistory.Signalled (h : SlotHistory) : Prop :=
  ∃ before since, h = before ++ (.timerIsr, []) :: since ∧
    SlotHistory.readAbsent before = false ∧ ∀ a qs, (.read a, qs) ∈ since → a.absent = false

variable {h : SlotHistory} {t t' : Transceiver} {a : TransceiverAnswers} {e : TransceiverEvent}
  {qs : List I2cQuery}

@[simp] theorem readAbsent_read :
    SlotHistory.readAbsent (h ++ [(.read a, qs)]) = a.absent := by
  simp [SlotHistory.readAbsent]

@[simp] theorem readAbsent_timerIsr :
    SlotHistory.readAbsent (h ++ [(.timerIsr, qs)]) = h.readAbsent := by
  simp [SlotHistory.readAbsent]

@[simp] theorem readAbsent_reboot :
    SlotHistory.readAbsent (h ++ [(.reboot, qs)]) = h.readAbsent := by
  simp [SlotHistory.readAbsent]

/-- A callback stays one until the module is pulled out. -/
theorem SlotHistory.Signalled.snoc (hs : h.Signalled)
    (he : ∀ a, e = .read a → a.absent = false) :
    SlotHistory.Signalled (h ++ [(e, qs)]) := by
  obtain ⟨before, since, rfl, hbefore, hsince⟩ := hs
  refine ⟨before, since ++ [(e, qs)], by simp, hbefore, fun a qs' hmem => ?_⟩
  rcases List.mem_append.mp hmem with hmem | hmem
  · exact hsince a qs' hmem
  · obtain ⟨rfl, -⟩ := Prod.mk.inj (List.mem_singleton.mp hmem)
    exact he a rfl

/-- What the slot keeps: the machine is sound, and it leaves the booting state with a
callback of the timer only. -/
structure SlotInvariant (h : SlotHistory) (t : Transceiver) : Prop where
  absent_eq : t.absent.current = h.readAbsent
  sound : t.control.Sound
  signalled : h.readAbsent = false →
    t.inputBootDone ≠ 0 ∨ t.stateHandler ≠ .booting → h.Signalled

/-- A step of the machine asks nothing of an absent or booting module. -/
theorem ReadStep.queries {c c' : TransceiverControl} {absent : Bool}
    (hstep : ReadStep c absent c' qs) (hqs : qs ≠ []) :
    absent = false ∧ c.absent = false ∧ c.stateHandler ≠ .booting := by
  cases hstep with
  | unplugged | plugged _ | waiting _ _ _ | booted _ _ _ | failed _ _ => exact absurd rfl hqs
  | answered hp hh | lost hp hh _ | gaveUp hp hh _ | queried _ _ hp hh _ _
  | monitored _ _ hp hh _ _ =>
      exact ⟨rfl, hp, by rw [hh]; nofun⟩

/-- A module that is out of the booting state was so before, or the timer has called back. -/
theorem ReadStep.booted_of {c c' : TransceiverControl} (hstep : ReadStep c false c' qs)
    (h : c'.inputBootDone ≠ 0 ∨ c'.stateHandler ≠ .booting) :
    c.absent = false ∧ (c.inputBootDone ≠ 0 ∨ c.stateHandler ≠ .booting) := by
  cases hstep with
  | plugged _ => exact absurd h (by simp)
  | waiting hp hh hd => exact absurd h (by simp [hd, hh])
  | booted hp hh hd => exact ⟨hp, Or.inl hd⟩
  | answered hp hh | lost hp hh _ | gaveUp hp hh _ | queried _ _ hp hh _ _
  | monitored _ _ hp hh _ _ | failed hp hh =>
      exact ⟨hp, Or.inr (by rw [hh]; nofun)⟩

/-- A step has the presence that it reads. -/
theorem ReadStep.absent_eq {c c' : TransceiverControl} {absent : Bool}
    (hstep : ReadStep c absent c' qs) : c'.absent = absent := by
  cases hstep with
  | unplugged | plugged _ => rfl
  | waiting hp _ _ | booted hp _ _ | answered hp _ | lost hp _ _ | gaveUp hp _ _
  | queried _ _ hp _ _ _ | monitored _ _ hp _ _ _ | failed hp _ => exact hp

/-- A reading keeps the invariant. -/
theorem SlotInvariant.read (hI : SlotInvariant h t) :
    SlotInvariant (h ++ [(.read a, (readTransceiverDynamicData t a).2)])
      (readTransceiverDynamicData t a).1 := by
  have hstep := readTransceiverDynamicData_step (a := a) hI.sound
  refine ⟨?_, hstep.sound hI.sound, ?_⟩
  · rw [readAbsent_read]
    exact hstep.absent_eq
  · intro hpresent hready
    rw [readAbsent_read] at hpresent
    rw [hpresent] at hstep
    obtain ⟨hwas, hready'⟩ := hstep.booted_of hready
    have hsig : h.Signalled := hI.signalled (hI.absent_eq.symm.trans hwas) hready'
    refine hsig.snoc fun a' ha => ?_
    obtain rfl := TransceiverEvent.read.inj ha
    exact hpresent

/-- An event keeps the invariant. -/
theorem SlotInvariant.step (hI : SlotInvariant h t) (hs : transceiver.step t e = some (t', qs)) :
    SlotInvariant (h ++ [(e, qs)]) t' := by
  cases e with
  | read a =>
      obtain ⟨rfl, rfl⟩ := Prod.mk.inj (Option.some.inj hs)
      exact hI.read
  | timerIsr =>
      obtain ⟨rfl, rfl⟩ := Prod.mk.inj (Option.some.inj hs)
      refine ⟨by rw [readAbsent_timerIsr]; exact hI.absent_eq,
        ⟨hI.sound.unplugged, hI.sound.plugged⟩, fun hpresent _ => ?_⟩
      rw [readAbsent_timerIsr] at hpresent
      exact ⟨h, [], rfl, hpresent, by simp⟩
  | reboot =>
      obtain ⟨rfl, rfl⟩ := Prod.mk.inj (Option.some.inj hs)
      refine ⟨by rw [readAbsent_reboot]; exact hI.absent_eq,
        ⟨hI.sound.unplugged, hI.sound.plugged⟩, fun hpresent hready => ?_⟩
      rw [readAbsent_reboot] at hpresent
      exact (hI.signalled hpresent hready).snoc nofun

/-- A slot that has been created. -/
theorem SlotInvariant.create (type : TransceiverType) (t : Transceiver) :
    SlotInvariant [] (createTransceiver type t) :=
  ⟨rfl, sound_createTransceiver type t, fun h => by cases h⟩

/-- The invariant holds of every run. -/
theorem slotInvariant_of_run {type : TransceiverType} {t₀ : Transceiver}
    (hr : transceiver.Run (createTransceiver type t₀) h t) : SlotInvariant h t :=
  hr.invariant (.create type t₀) fun _ _ _ _ _ _ hI hs => hI.step hs

/-- Questions are asked by readings. -/
theorem SlotInvariant.signalled_of_queries (hI : SlotInvariant h t)
    (hs : transceiver.step t e = some (t', qs)) (hqs : qs ≠ []) :
    h.Signalled ∧ ∃ a, e = .read a ∧ a.absent = false := by
  cases e with
  | read a =>
      obtain ⟨-, rfl⟩ := Prod.mk.inj (Option.some.inj hs)
      have hstep := readTransceiverDynamicData_step (a := a) hI.sound
      obtain ⟨hpresent, hwas, hhandler⟩ := hstep.queries hqs
      exact ⟨hI.signalled (hI.absent_eq.symm.trans hwas) (Or.inr hhandler), a, rfl, hpresent⟩
  | timerIsr | reboot =>
      obtain ⟨-, rfl⟩ := Prod.mk.inj (Option.some.inj hs)
      exact absurd rfl hqs

/-- **A module is reported absent exactly while it is read absent, and is asked nothing before
the timer has called back since it was plugged in.** -/
theorem transceiver_presence_safe (type : TransceiverType) (t₀ : Transceiver) (h : SlotHistory)
    (t : Transceiver) (hr : transceiver.Run (createTransceiver type t₀) h t) :
    (h.readAbsent = true → t.stateHandler = .absent ∧ t.state = .absent) ∧
      (h.readAbsent = false → t.state ≠ .absent) ∧
      ∀ h₁ e qs h₂, h = h₁ ++ (e, qs) :: h₂ → qs ≠ [] →
        SlotHistory.Signalled h₁ ∧ ∃ a, e = .read a ∧ a.absent = false := by
  have hI := slotInvariant_of_run hr
  refine ⟨fun habsent => ?_, fun hpresent => ?_, ?_⟩
  · exact hI.sound.unplugged (hI.absent_eq.trans habsent)
  · exact (hI.sound.plugged (hI.absent_eq.trans hpresent)).2.1
  · rintro h₁ e qs h₂ rfl hqs
    obtain ⟨m, hr₁, hr₂⟩ := hr.split
    obtain ⟨m', hs, -⟩ := hr₂.cons_inv
    exact (slotInvariant_of_run hr₁).signalled_of_queries hs hqs

/-! ### A module that is plugged in -/

/-- A slot whose memory is cleared. -/
def clearedSlot : Transceiver where
  type := .sfpOptical
  opticalPowerMonitor := false
  absent := ⟨false, false, false⟩
  fault := ⟨false, false, false⟩
  los := ⟨false, false, false⟩
  state := .absent
  rebootChange := false
  inputComLost := 0
  inputBootDone := 0
  inputBootStart := 0
  stateHandler := .absent

/-- A module that is there and answers. -/
def goodAnswers : TransceiverAnswers where
  absent := false
  fault := false
  los := false
  comCheck := true
  info := true
  connectorLc := true
  diagMonitoring := true

/-- A module is plugged in, boots and is checked. -/
def bootHistory : SlotHistory :=
  [(.read goodAnswers, []), (.reboot, []), (.timerIsr, []), (.read goodAnswers, []),
    (.read goodAnswers, [.comCheck true])]

/-- It is reported while it boots, and asked behind the callback. -/
theorem transceiver_presence_safe_boot : ∃ t : Transceiver,
    (SlotHistory.readAbsent bootHistory = false → t.state ≠ .absent) ∧
      SlotHistory.Signalled (bootHistory.take 4) := by
  obtain ⟨t, hr⟩ : ∃ t, transceiver.Run (createTransceiver .sfpOptical clearedSlot)
      bootHistory t :=
    ⟨_, .cons rfl (.cons rfl (.cons rfl (.cons rfl (.single rfl))))⟩
  obtain ⟨-, hpresent, hqueries⟩ := transceiver_presence_safe _ _ _ _ hr
  exact ⟨t, hpresent, (hqueries _ (.read goodAnswers) [.comCheck true] [] rfl nofun).1⟩

end Muxponder
