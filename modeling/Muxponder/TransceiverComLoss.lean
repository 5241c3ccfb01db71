import Muxponder.TransceiverPresence

/-!
# Loss of the Communication with a Transceiver

The check of the communication counts its failures in `input_com_lost` and gives a module up at
the third. The counter is reset by a check that succeeds and by nothing else: not when a module
is pulled out, and not when the slot is created. A module may start with the failures of the one
before it, and is then given up too early, or not at all.

## Main results

* `comLoss_reported`: where every module starts with a counter of zero, exactly three failures in
  a row are reported.
* `comLoss_not_reported`: where one does not, neither direction holds.
-/

namespace Muxponder

/-- The failures in a row of the module that is there, since its latest plug-in or success. -/
def SlotHistory.failuresInARow (h : SlotHistory) : ℕ :=
  h.foldl (fun n e => match e.1 with
    | .read a =>
        if a.absent ∨ .comCheck true ∈ e.2 then 0
        else if .comCheck false ∈ e.2 then n + 1
        else n
    | .timerIsr | .reboot => n) 0

/-- The condition on an event: a module is plugged in while the counter is zero. -/
def PlugsWithoutLosses (t : Transceiver) (e : TransceiverEvent) : Prop :=
  ∀ a, e = .read a → a.absent = false → t.absent.current = true → t.inputComLost = 0

variable {h : SlotHistory} {t t' : Transceiver} {a : TransceiverAnswers} {e : TransceiverEvent}
  {qs : List I2cQuery} {c c' : TransceiverControl} {absent : Bool} {n : ℕ}

@[simp] theorem failuresInARow_read : SlotHistory.failuresInARow (h ++ [(.read a, qs)]) =
    if a.absent ∨ .comCheck true ∈ qs then 0
    else if .comCheck false ∈ qs then h.failuresInARow + 1
    else h.failuresInARow := by
  simp [SlotHistory.failuresInARow]

@[simp] theorem failuresInARow_timerIsr :
    SlotHistory.failuresInARow (h ++ [(.timerIsr, qs)]) = h.failuresInARow := by
  simp [SlotHistory.failuresInARow]

@[simp] theorem failuresInARow_reboot :
    SlotHistory.failuresInARow (h ++ [(.reboot, qs)]) = h.failuresInARow := by
  simp [SlotHistory.failuresInARow]

/-- What the machine keeps about `n` failures in a row of the module that is there. -/
structure LossInvariant (n : ℕ) (c : TransceiverControl) : Prop where
  empty : c.absent = true → n = 0
  count : c.absent = false → c.inputComLost = UInt8.ofNat n
  quiet : c.absent = false → c.stateHandler ≠ .comCheck → c.stateHandler ≠ .fail → n = 0
  gaveUp : c.absent = false → c.stateHandler = .fail → 3 ≤ n
  reported : c.absent = false → 3 ≤ n → c.stateHandler ≠ .fail → c.state = .fail

/-- The failures behind a step. -/
def failuresAfter (n : ℕ) (absent : Bool) (qs : List I2cQuery) : ℕ :=
  if absent ∨ .comCheck true ∈ qs then 0 else if .comCheck false ∈ qs then n + 1 else n

/-- Other questions leave the failures as they are. -/
theorem failuresAfter_other (hqs : ∀ q ∈ qs, q.IsOther) : failuresAfter n false qs = n := by
  have htrue : ¬ I2cQuery.comCheck true ∈ qs := fun hq => hqs _ hq true rfl
  have hfalse : ¬ I2cQuery.comCheck false ∈ qs := fun hq => hqs _ hq false rfl
  simp [failuresAfter, htrue, hfalse]

/-- A counter at its limit has counted. -/
theorem three_le_of_count (hn : UInt8.ofNat n + 1 = 3) : 3 ≤ n + 1 := by
  have hcount := congrArg UInt8.toNat hn
  simp only [UInt8.toNat_add, UInt8.toNat_ofNat', UInt8.reduceToNat] at hcount
  omega

/-- A module in front of its first check has not failed. -/
theorem LossInvariant.of_zero (hcount : c.absent = false → c.inputComLost = 0)
    (hfail : c.stateHandler ≠ .fail) : LossInvariant 0 c :=
  ⟨fun _ => rfl, hcount, fun _ _ _ => rfl, fun _ h => absurd h hfail,
    fun _ h => absurd h (by omega)⟩

/-- **A step keeps count of the failures**, if a module is plugged in with a counter of zero. -/
theorem LossInvariant.read (hI : LossInvariant n c) (hstep : ReadStep c absent c' qs)
    (hplug : absent = false → c.absent = true → c.inputComLost = 0) :
    LossInvariant (failuresAfter n absent qs) c' := by
  cases hstep with
  | unplugged => exact .of_zero nofun nofun
  | plugged habsent =>
      obtain rfl := hI.empty habsent
      exact .of_zero (fun _ => hplug rfl habsent) nofun
  | waiting _ _ _ => exact hI
  | booted hp hh _ =>
      obtain rfl := hI.quiet hp (by rw [hh]; nofun) (by rw [hh]; nofun)
      exact .of_zero hI.count nofun
  | answered hp hh => exact .of_zero (fun _ => rfl) nofun
  | lost hp hh hlost =>
      have hn : failuresAfter n false [.comCheck false] = n + 1 := by simp [failuresAfter]
      rw [hn]
      refine ⟨fun h => absurd (h.symm.trans hp) nofun, fun _ => ?_,
        fun _ h => absurd hh h, fun _ h => absurd (hh.symm.trans h) nofun, fun _ hle hne => ?_⟩
      · rw [hI.count hp]
        exact (UInt8.ofNat_add n 1).symm
      · -- a third failure would have given the module up
        rcases Nat.lt_or_ge n 3 with hlt | hge
        · obtain rfl : n = 2 := by omega
          exact absurd (by rw [hI.count hp]; rfl) hlost
        · exact hI.reported hp hge hne
  | gaveUp hp hh hlost =>
      have hn : failuresAfter n false [.comCheck false] = n + 1 := by simp [failuresAfter]
      rw [hI.count hp] at hlost
      rw [hn]
      refine ⟨fun h => absurd (h.symm.trans hp) nofun, fun _ => ?_, fun _ _ h => absurd rfl h,
        fun _ _ => three_le_of_count hlost, fun _ _ h => absurd rfl h⟩
      exact hlost.symm.trans (UInt8.ofNat_add n 1).symm
  | queried next _ hp hh hnext hqs =>
      obtain rfl := hI.quiet hp (by rw [hh]; nofun) (by rw [hh]; nofun)
      rw [failuresAfter_other hqs]
      exact .of_zero hI.count (by rcases hnext with rfl | rfl <;> nofun)
  | monitored _ _ hp hh _ hqs =>
      obtain rfl := hI.quiet hp (by rw [hh]; nofun) (by rw [hh]; nofun)
      rw [failuresAfter_other hqs]
      exact .of_zero hI.count (by rw [hh]; nofun)
  | failed hp hh =>
      exact ⟨fun h => absurd (h.symm.trans hp) nofun, hI.count, fun _ h => absurd rfl h, nofun,
        fun _ _ _ => rfl⟩

/-- An allowed event keeps the invariant. -/
theorem LossInvariant.step (hs : t.control.Sound) (hI : LossInvariant h.failuresInARow t.control)
    (hplug : PlugsWithoutLosses t e) (hstep : transceiver.step t e = some (t', qs)) :
    LossInvariant (SlotHistory.failuresInARow (h ++ [(e, qs)])) t'.control := by
  cases e with
  | read a =>
      obtain ⟨rfl, rfl⟩ := Prod.mk.inj (Option.some.inj hstep)
      rw [failuresInARow_read]
      exact hI.read (readTransceiverDynamicData_step hs) (hplug a rfl)
  | timerIsr =>
      obtain ⟨rfl, rfl⟩ := Prod.mk.inj (Option.some.inj hstep)
      rw [failuresInARow_timerIsr]
      exact ⟨hI.empty, hI.count, hI.quiet, hI.gaveUp, hI.reported⟩
  | reboot =>
      obtain ⟨rfl, rfl⟩ := Prod.mk.inj (Option.some.inj hstep)
      rw [failuresInARow_reboot]
      exact ⟨hI.empty, hI.count, hI.quiet, hI.gaveUp, hI.reported⟩

/-- The invariant holds of every allowed run. -/
theorem lossInvariant_of_run {type : TransceiverType} {t₀ : Transceiver}
    (hr : transceiver.Run (createTransceiver type t₀) h t)
    (hc : transceiver.Along (createTransceiver type t₀) h PlugsWithoutLosses) :
    LossInvariant h.failuresInARow t.control := by
  refine hr.invariant_along (I := fun (h : SlotHistory) t =>
    LossInvariant h.failuresInARow t.control) ?_ ?_ hc
  · exact .of_zero (fun h => by cases h) (fun h => by cases h)
  · intro h t e t' qs hr hI hplug hstep
    exact hI.step (slotInvariant_of_run hr).sound hplug hstep

/-- A report of a failure comes from the handler of that state. -/
theorem ReadStep.fail_report (hstep : ReadStep c absent c' qs) (h : c'.state = .fail) :
    c.state = .fail ∨ c.absent = false ∧ c.stateHandler = .fail := by
  cases hstep with
  | unplugged | plugged _ => cases h
  | monitored state _ _ _ hreport _ =>
      rcases hreport with rfl | rfl | rfl
      · exact Or.inl h
      · cases h
      · cases h
  | failed hp hh => exact Or.inr ⟨hp, hh⟩
  | _ => exact Or.inl h

/-- A module that is to be given up, or reported so, is reported behind the next step. -/
theorem ReadStep.fail_of (hstep : ReadStep c false c' qs) (hp : c.absent = false)
    (h : c.stateHandler = .fail ∨ c.state = .fail ∧ c.stateHandler = .comCheck) :
    c'.state = .fail := by
  cases hstep with
  | plugged habsent => exact absurd (habsent.symm.trans hp) nofun
  | failed _ _ => rfl
  | answered _ hh | lost _ hh _ | gaveUp _ hh _ => simpa [hh] using h
  | waiting _ hh _ | booted _ hh _ | queried _ _ _ hh _ _ | monitored _ _ _ hh _ _ =>
      simp [hh] at h

/-- **In every run that plugs modules in with a counter of zero**, three failures in a row are
reported by the next step, and nothing else is. -/
theorem comLoss_reported (type : TransceiverType) (t₀ : Transceiver) (h : SlotHistory)
    (t : Transceiver) (hr : transceiver.Run (createTransceiver type t₀) h t)
    (hc : transceiver.Along (createTransceiver type t₀) h PlugsWithoutLosses) :
    (3 ≤ h.failuresInARow → ∀ a, a.absent = false →
      (readTransceiverDynamicData t a).1.state = .fail) ∧
      ∀ e t' qs, transceiver.step t e = some (t', qs) → t.state ≠ .fail → t'.state = .fail →
        3 ≤ h.failuresInARow := by
  have hI := lossInvariant_of_run hr hc
  have hsound := (slotInvariant_of_run hr).sound
  constructor
  · intro hthree a hpresent
    have hstep := readTransceiverDynamicData_step (a := a) hsound
    rw [hpresent] at hstep
    have hp : t.control.absent = false := by
      by_contra habsent
      have hzero := hI.empty (Bool.of_not_eq_false habsent)
      omega
    refine hstep.fail_of hp ?_
    by_cases hfail : t.control.stateHandler = .fail
    · exact Or.inl hfail
    · refine Or.inr ⟨hI.reported hp hthree hfail, ?_⟩
      by_contra hcheck
      have hzero := hI.quiet hp hcheck hfail
      omega
  · intro e t' qs hstep hne hreport
    cases e with
    | read a =>
        obtain ⟨rfl, rfl⟩ := Prod.mk.inj (Option.some.inj hstep)
        rcases (readTransceiverDynamicData_step hsound).fail_report hreport with hwas | ⟨hp, hh⟩
        · exact absurd hwas hne
        · exact hI.gaveUp hp hh
    | timerIsr | reboot =>
        obtain ⟨rfl, rfl⟩ := Prod.mk.inj (Option.some.inj hstep)
        exact absurd hreport hne

/-! ### Modules that do not answer -/

/-- A module that is there and does not answer. -/
def muteAnswers : TransceiverAnswers := { goodAnswers with comCheck := false }

/-- A module is plugged in and booted. -/
def muteBoot : SlotHistory :=
  [(.read muteAnswers, []), (.reboot, []), (.timerIsr, []), (.read muteAnswers, [])]

/-- Its communication is checked in vain. -/
abbrev muteCheck : TransceiverEvent × List I2cQuery := (.read muteAnswers, [.comCheck false])

/-- A module that fails three times is reported. -/
theorem comLoss_reported_mute : ∃ t : Transceiver,
    transceiver.Run (createTransceiver .sfpOptical clearedSlot)
      (muteBoot ++ [muteCheck, muteCheck, muteCheck]) t ∧
      (readTransceiverDynamicData t goodAnswers).1.state = .fail := by
  have hr : transceiver.Run (createTransceiver .sfpOptical clearedSlot)
      (muteBoot ++ [muteCheck, muteCheck, muteCheck]) _ :=
    .cons rfl (.cons rfl (.cons rfl (.cons rfl (.cons rfl (.cons rfl (.single rfl))))))
  have hc : transceiver.Along (createTransceiver .sfpOptical clearedSlot)
      (muteBoot ++ [muteCheck, muteCheck, muteCheck]) PlugsWithoutLosses :=
    .cons rfl (fun _ _ _ _ => rfl) (.cons rfl nofun (.cons rfl nofun (.cons rfl nofun
      (.cons rfl nofun (.cons rfl nofun (.cons rfl nofun .nil))))))
  exact ⟨_, hr, (comLoss_reported _ _ _ _ hr hc).1 (by decide) _ rfl⟩

/-- It is pulled out again. -/
def unplug : TransceiverEvent × List I2cQuery := (.read { goodAnswers with absent := true }, [])

/-- **A module that is plugged in with failures in the counter** is reported as failed behind
its first failure, or not behind its third. -/
theorem comLoss_not_reported :
    (∃ (h : SlotHistory) (t : Transceiver),
      transceiver.Run (createTransceiver .sfpOptical clearedSlot) h t ∧
      h.failuresInARow = 1 ∧ t.state ≠ .fail ∧
      (readTransceiverDynamicData t goodAnswers).1.state = .fail) ∧
    ∃ (h : SlotHistory) (t : Transceiver),
      transceiver.Run (createTransceiver .sfpOptical clearedSlot) h t ∧
      h.failuresInARow = 3 ∧ (readTransceiverDynamicData t goodAnswers).1.state ≠ .fail := by
  constructor
  · exact ⟨muteBoot ++ [muteCheck, muteCheck, unplug] ++ muteBoot ++ [muteCheck], _,
      Machine.run_of_exec rfl, rfl, nofun, rfl⟩
  · exact ⟨muteBoot ++ [muteCheck, muteCheck, muteCheck, unplug] ++ muteBoot ++
      [muteCheck, muteCheck, muteCheck], _, Machine.run_of_exec rfl, rfl, nofun⟩

end Muxponder
