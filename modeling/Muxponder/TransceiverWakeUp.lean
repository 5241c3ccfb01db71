import Muxponder.TransceiverPresence

/-!
# Wake-Up Time of a Transceiver

The slot of a transceiver with its timer: the alarm that `boot_transceiver` starts over one
second, and the ticks of the system clock that carry it. Nothing stops the alarm when the
module is pulled out. A module that is plugged in while the alarm of the last one is pending is
woken up by it too early, and its own boot starts an alarm that is registered already.

## Main results

* `wakeUp_in_time`: where modules are plugged in with no alarm pending, each is given its
  second, and no pending alarm is started.
* `wakeUp_too_early`: where they are not, neither holds.
-/

namespace Muxponder

/-- A slot, its timer while it is registered, and the count of the ticks. -/
structure TimedSlot where
  transceiver : Transceiver
  timer : Option AltAlarm
  nticks : UInt32
  deriving DecidableEq, Repr

/-- What happens to the slot: a reading, the reboot part of `task_10`, and a tick of the
clock. -/
inductive TimedEvent
  | read (a : TransceiverAnswers)
  | reboot
  | tick
  deriving DecidableEq, Repr

/-- `alt_tick`, for the alarm of the slot. -/
def TimedSlot.tick (s : TimedSlot) : TimedSlot :=
  let nticks := s.nticks + 1
  match s.timer with
  | none => { s with nticks := nticks }
  | some alarm =>
      match alarm.tick nticks with
      | none => ⟨timerIsr s.transceiver, none, nticks⟩
      | some alarm => { s with timer := some alarm, nticks := nticks }

/-- The reboot part of `task_10`. An alarm that is registered already is put into the list of
alarms a second time, and the next tick does not come to the end of that list. -/
def TimedSlot.reboot (s : TimedSlot) : Option TimedSlot :=
  if s.transceiver.rebootChange then
    match s.timer with
    | none => some { s with
        transceiver := taskReboot s.transceiver
        timer := some (altAlarmStart TICKS_PER_SEC s.nticks) }
    | some _ => none
  else some s

/-- A slot with its timer. -/
def timedSlot : Machine TimedSlot TimedEvent (List I2cQuery) where
  step s
    | .read a =>
        let r := readTransceiverDynamicData s.transceiver a
        some ({ s with transceiver := r.1 }, r.2)
    | .reboot => s.reboot.map fun s => (s, [])
    | .tick => some (s.tick, [])

/-- A slot that has been created: `card` is static, so no boot is requested. -/
def TimedSlot.start (type : TransceiverType) (t : Transceiver) (nticks : UInt32) : TimedSlot where
  transceiver := createTransceiver type { t with rebootChange := false }
  timer := none
  nticks := nticks

/-- A run of a slot with its timer. -/
abbrev TimedHistory := List (TimedEvent × List I2cQuery)

/-- The ticks since the latest plug-in, while a module is there. -/
def TimedHistory.ticksSincePlugIn (h : TimedHistory) : Option ℕ :=
  h.foldl (fun k e => match e.1 with
    | .read a => if a.absent then none else some (k.getD 0)
    | .reboot => k
    | .tick => k.map (· + 1)) none

/-- The condition on a step: a module is plugged in while no alarm is pending. -/
def PlugsWhileIdle (s : TimedSlot) (e : TimedEvent) : Prop :=
  ∀ a, e = .read a → a.absent = false → s.transceiver.absent.current = true → s.timer = none

variable {h : TimedHistory} {s s' : TimedSlot} {a : TransceiverAnswers} {e : TimedEvent}
  {qs : List I2cQuery}

@[simp] theorem ticksSincePlugIn_read : TimedHistory.ticksSincePlugIn (h ++ [(.read a, qs)]) =
    if a.absent then none else some (h.ticksSincePlugIn.getD 0) := by
  simp [TimedHistory.ticksSincePlugIn]

@[simp] theorem ticksSincePlugIn_reboot :
    TimedHistory.ticksSincePlugIn (h ++ [(.reboot, qs)]) = h.ticksSincePlugIn := by
  simp [TimedHistory.ticksSincePlugIn]

@[simp] theorem ticksSincePlugIn_tick :
    TimedHistory.ticksSincePlugIn (h ++ [(.tick, qs)]) = h.ticksSincePlugIn.map (· + 1) := by
  simp [TimedHistory.ticksSincePlugIn]

/-- What the slot keeps, with the ticks `k` since the latest plug-in. -/
structure TimedInvariant (k : Option ℕ) (s : TimedSlot) : Prop where
  sound : s.transceiver.control.Sound
  absent_iff : s.transceiver.absent.current = true ↔ k = none
  idle_of_request : s.transceiver.rebootChange = true → s.timer = none
  waits : ∀ alarm ∈ s.timer, ∃ c e, alarm.Waits TICKS_PER_SEC c e ∧
    s.nticks = c + UInt32.ofNat e ∧ ∀ m ∈ k, e ≤ m
  awake : ∀ m ∈ k, s.transceiver.inputBootDone ≠ 0 ∨ s.transceiver.stateHandler ≠ .booting →
    TICKS_PER_SEC.toNat ≤ m

/-- The count behind a tick. -/
theorem count_succ {c : UInt32} {e : ℕ} :
    c + UInt32.ofNat e + 1 = c + UInt32.ofNat (e + 1) := by
  rw [UInt32.ofNat_add, UInt32.add_assoc]
  rfl

/-- A tick keeps the invariant: the callback comes one tick later than a second behind the
start of the alarm. -/
theorem TimedInvariant.tick {k : Option ℕ} (hI : TimedInvariant k s) :
    TimedInvariant (k.map (· + 1)) s.tick := by
  have habsent : s.transceiver.absent.current = true ↔ k.map (· + 1) = none := by
    rw [hI.absent_iff, Option.map_eq_none_iff]
  have hawake : ∀ m ∈ k.map (· + 1),
      s.transceiver.inputBootDone ≠ 0 ∨ s.transceiver.stateHandler ≠ .booting →
      TICKS_PER_SEC.toNat ≤ m := by
    intro m hm hready
    obtain ⟨m, hk, rfl⟩ := Option.map_eq_some_iff.mp hm
    exact Nat.le_succ_of_le (hI.awake m hk hready)
  rw [TimedSlot.tick]
  cases htimer : s.timer with
  | none =>
      exact ⟨hI.sound, habsent, fun _ => rfl, nofun, hawake⟩
  | some alarm =>
      obtain ⟨c, e, hwaits, hcount, hle⟩ := hI.waits alarm htimer
      have hnext : s.nticks + 1 = c + UInt32.ofNat (e + 1) := by rw [hcount, count_succ]
      have hidle : s.transceiver.rebootChange = false := by
        by_contra hreq
        have hnone := hI.idle_of_request (Bool.of_not_eq_false hreq)
        rw [htimer] at hnone
        exact absurd hnone nofun
      dsimp only
      rw [hnext]
      rcases Nat.lt_or_eq_of_le hwaits.elapsed_le with hlt | hdue
      · obtain ⟨alarm', htick, hwaits'⟩ := hwaits.tick_early (by decide) hlt
        rw [htick]
        refine ⟨hI.sound, habsent, fun hreq => ?_, ?_, hawake⟩
        · exact absurd hreq (by simp [hidle])
        · rintro _ ⟨⟩
          refine ⟨c, e + 1, hwaits', rfl, fun m hm => ?_⟩
          obtain ⟨m, hk, rfl⟩ := Option.map_eq_some_iff.mp hm
          exact Nat.succ_le_succ (hle m hk)
      · rw [hwaits.tick_due hdue]
        refine ⟨⟨hI.sound.unplugged, hI.sound.plugged⟩, habsent, fun _ => rfl, nofun, ?_⟩
        intro m hm _
        obtain ⟨m, hk, rfl⟩ := Option.map_eq_some_iff.mp hm
        exact Nat.le_succ_of_le (hdue ▸ hle m hk)

/-- A boot is requested by a plug-in. -/
theorem ReadStep.request {c c' : TransceiverControl} {absent : Bool}
    (hstep : ReadStep c absent c' qs) (hreq : c'.rebootChange = true) :
    c.rebootChange = true ∨ c.absent = true ∧ absent = false := by
  cases hstep with
  | plugged habsent => exact Or.inr ⟨habsent, rfl⟩
  | _ => exact Or.inl hreq

/-- A reading keeps the invariant, if it is no plug-in with an alarm pending. -/
theorem TimedInvariant.read {k : Option ℕ} (hI : TimedInvariant k s)
    (hidle : PlugsWhileIdle s (.read a)) :
    TimedInvariant (if a.absent then none else some (k.getD 0))
      { s with transceiver := (readTransceiverDynamicData s.transceiver a).1 } := by
  have hstep := readTransceiverDynamicData_step (a := a) hI.sound
  have hplug : s.transceiver.absent.current = true → a.absent = false → s.timer = none :=
    fun hwas hpresent => hidle a rfl hpresent hwas
  refine ⟨hstep.sound hI.sound, ?_, fun hreq => ?_, fun alarm ha => ?_, fun m hm hready => ?_⟩
  · have habsent := hstep.absent_eq
    exact (Bool.eq_iff_iff.mp habsent).trans (by cases a.absent <;> simp)
  · rcases hstep.request hreq with hreq | ⟨hwas, hpresent⟩
    · exact hI.idle_of_request hreq
    · exact hplug hwas hpresent
  · obtain ⟨c, e, hwaits, hcount, hle⟩ := hI.waits alarm ha
    refine ⟨c, e, hwaits, hcount, fun m hm => ?_⟩
    cases hpresent : a.absent with
    | true => simp [hpresent] at hm
    | false =>
        cases hk : k with
        | none =>
            have hnone := hplug (hI.absent_iff.mpr hk) hpresent
            rw [hnone] at ha
            exact absurd ha nofun
        | some n =>
            obtain rfl : n = m := by simpa [hpresent, hk] using hm
            exact hle n hk
  · cases hpresent : a.absent with
    | true => simp [hpresent] at hm
    | false =>
        rw [hpresent] at hstep
        obtain ⟨hwas, hready'⟩ := hstep.booted_of hready
        cases hk : k with
        | none =>
            have hwas' : s.transceiver.absent.current = true := hI.absent_iff.mpr hk
            exact absurd (hwas'.symm.trans hwas) nofun
        | some n =>
            obtain rfl : n = m := by simpa [hpresent, hk] using hm
            exact hI.awake n hk hready'

/-- The reboot part of `task_10` keeps the invariant. -/
theorem TimedInvariant.reboot {k : Option ℕ} (hI : TimedInvariant k s)
    (hs : s.reboot = some s') : TimedInvariant k s' := by
  rw [TimedSlot.reboot] at hs
  split at hs
  next hreq =>
    rw [hI.idle_of_request hreq] at hs
    obtain rfl := Option.some.inj hs
    refine ⟨⟨hI.sound.unplugged, hI.sound.plugged⟩, hI.absent_iff, nofun, ?_, hI.awake⟩
    rintro _ ⟨⟩
    exact ⟨s.nticks, 0, waits_altAlarmStart (by decide), (UInt32.add_zero _).symm,
      fun _ _ => Nat.zero_le _⟩
  next =>
    obtain rfl := Option.some.inj hs
    exact hI

/-- An allowed event keeps the invariant. -/
theorem TimedInvariant.step (hI : TimedInvariant h.ticksSincePlugIn s)
    (hidle : PlugsWhileIdle s e) (hs : timedSlot.step s e = some (s', qs)) :
    TimedInvariant (TimedHistory.ticksSincePlugIn (h ++ [(e, qs)])) s' := by
  cases e with
  | read a =>
      obtain ⟨rfl, rfl⟩ := Prod.mk.inj (Option.some.inj hs)
      rw [ticksSincePlugIn_read]
      exact hI.read hidle
  | reboot =>
      obtain ⟨s₁, hs₁, heq⟩ := Option.map_eq_some_iff.mp hs
      obtain ⟨rfl, rfl⟩ := Prod.mk.inj heq
      rw [ticksSincePlugIn_reboot]
      exact hI.reboot hs₁
  | tick =>
      obtain ⟨rfl, rfl⟩ := Prod.mk.inj (Option.some.inj hs)
      rw [ticksSincePlugIn_tick]
      exact hI.tick

/-- The invariant holds of every allowed run. -/
theorem timedInvariant_of_run {type : TransceiverType} {t₀ : Transceiver} {nticks : UInt32}
    (hr : timedSlot.Run (.start type t₀ nticks) h s)
    (hc : timedSlot.Along (.start type t₀ nticks) h PlugsWhileIdle) :
    TimedInvariant h.ticksSincePlugIn s := by
  have hstart : TimedInvariant none (.start type t₀ nticks) :=
    ⟨sound_createTransceiver _ _, ⟨fun _ => rfl, fun _ => rfl⟩, fun _ => rfl, nofun, nofun⟩
  exact hr.invariant_along
    (I := fun (h : TimedHistory) s => TimedInvariant h.ticksSincePlugIn s) hstart
    (fun _ _ _ _ _ _ hI hidle hs => hI.step hidle hs) hc

/-- A module whose communication is checked is out of the booting state. -/
theorem ReadStep.of_comCheck {c c' : TransceiverControl} {absent ok : Bool}
    (hstep : ReadStep c absent c' qs) (hq : .comCheck ok ∈ qs) :
    c.absent = false ∧ c.stateHandler ≠ .booting := by
  have hqs : qs ≠ [] := List.ne_nil_of_mem hq
  exact (hstep.queries hqs).2

/-- **In every run that plugs modules in with no alarm pending**, a module is checked no earlier
than a second behind its plug-in, and no pending alarm is started. -/
theorem wakeUp_in_time (type : TransceiverType) (t₀ : Transceiver) (nticks : UInt32)
    (h : TimedHistory) (s : TimedSlot) (hr : timedSlot.Run (.start type t₀ nticks) h s)
    (hc : timedSlot.Along (.start type t₀ nticks) h PlugsWhileIdle) :
    (s.transceiver.rebootChange = true → s.timer = none) ∧
      ∀ h₁ e qs h₂ ok, h = h₁ ++ (e, qs) :: h₂ → .comCheck ok ∈ qs →
        ∃ k, TimedHistory.ticksSincePlugIn h₁ = some k ∧ TICKS_PER_SEC.toNat ≤ k := by
  refine ⟨(timedInvariant_of_run hr hc).idle_of_request, ?_⟩
  rintro h₁ e qs h₂ ok rfl hq
  obtain ⟨m, hr₁, hr₂⟩ := hr.split
  obtain ⟨m', hs, -⟩ := hr₂.cons_inv
  have hI := timedInvariant_of_run hr₁ hc.init
  cases e with
  | read a =>
      obtain ⟨-, rfl⟩ := Prod.mk.inj (Option.some.inj hs)
      have hstep := readTransceiverDynamicData_step (a := a) hI.sound
      obtain ⟨hpresent, hhandler⟩ := hstep.of_comCheck hq
      cases hk : h₁.ticksSincePlugIn with
      | none =>
          have habsent : m.transceiver.absent.current = true := hI.absent_iff.mpr hk
          exact absurd (habsent.symm.trans hpresent) nofun
      | some k => exact ⟨k, rfl, hI.awake k hk (Or.inr hhandler)⟩
  | reboot =>
      obtain ⟨s₁, -, heq⟩ := Option.map_eq_some_iff.mp hs
      obtain ⟨-, rfl⟩ := Prod.mk.inj heq
      exact absurd hq List.not_mem_nil
  | tick =>
      obtain ⟨-, rfl⟩ := Prod.mk.inj (Option.some.inj hs)
      exact absurd hq List.not_mem_nil

/-! ### Modules that are plugged in -/

/-- An empty slot. -/
def emptyAnswers : TransceiverAnswers := { goodAnswers with absent := true }

/-- A slot that is started with a cleared memory. -/
abbrev clearedStart : TimedSlot := .start .sfpOptical clearedSlot 0

/-- A module is plugged in, and its boot is started. -/
theorem wakeUp_in_time_boot : ∃ s : TimedSlot,
    timedSlot.Run clearedStart [(.read goodAnswers, []), (.reboot, [])] s ∧
      (s.transceiver.rebootChange = true → s.timer = none) := by
  have hboot : timedSlot.Run clearedStart [(.read goodAnswers, []), (.reboot, [])] _ :=
    .cons rfl (.single rfl)
  have hc : timedSlot.Along clearedStart [(.read goodAnswers, []), (.reboot, [])]
      PlugsWhileIdle :=
    .cons rfl (fun _ _ _ _ => rfl) (.cons rfl nofun .nil)
  exact ⟨_, hboot, (wakeUp_in_time _ _ _ _ _ hboot hc).1⟩

/-- A module is pulled out half a second behind the start of its boot and plugged in again, and
the alarm of its first boot calls back half a second later. -/
def hotSwap : List TimedEvent :=
  [.read goodAnswers, .reboot] ++ List.replicate 500 .tick ++
    [.read emptyAnswers, .read goodAnswers] ++ List.replicate 501 .tick ++ [.read goodAnswers]

/-- **The boot of the second module would start an alarm that is pending, and the module is
checked half a second behind its plug-in.** -/
theorem wakeUp_too_early :
    (∃ h s, timedSlot.Run clearedStart h s ∧
      s.transceiver.rebootChange = true ∧ s.timer ≠ none) ∧
      ∃ h s, timedSlot.Run clearedStart (h ++ [(.read goodAnswers, [.comCheck true])]) s ∧
        TimedHistory.ticksSincePlugIn h = some 501 := by
  constructor
  · exact ⟨[(.read goodAnswers, []), (.reboot, []), (.read emptyAnswers, []),
        (.read goodAnswers, [])], _,
      .cons rfl (.cons rfl (.cons rfl (.single rfl))), rfl, nofun⟩
  · have hexec : (timedSlot.exec clearedStart
        ((hotSwap.map (·, []) ++ [(.read goodAnswers, [.comCheck true])] : TimedHistory).map
          Prod.fst)).map Prod.snd =
        some ((hotSwap.map (·, []) ++ [(.read goodAnswers, [.comCheck true])] :
          TimedHistory).map Prod.snd) := by
      decide +kernel
    obtain ⟨⟨s, qs⟩, he, rfl⟩ := Option.map_eq_some_iff.mp hexec
    exact ⟨_, s, Machine.run_of_exec he, by decide +kernel⟩

end Muxponder
