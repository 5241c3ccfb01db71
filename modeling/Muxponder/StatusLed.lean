import Muxponder.Ipglb2Protocol
import Muxponder.KursCard
import Muxponder.KursRefresh
import Muxponder.Lib.OnChange
import Muxponder.Task10

/-!
# The Status LED

`task_55` of `main.c` visits one interface in each call. With the last interface a cycle is over:
the two alarms of the card are computed from what the interfaces report, the LEDs of the front
panel are asked for, and if an alarm has changed since the cycle before, the ARM is told to set the
status LED. What `set_status_led` returns is not looked at.

A cycle is a round of `OnChange`, in which the pair of alarms is sent when it changes. That a
change is lost when its exchange fails, and is not made up for, is what the library says of such
rounds.

## Main results

* `task55_shown`: a call is a round, or it leaves the alarms and the LED as they are.
* `statusLed_converges_iff`: when the LED follows the alarms.
-/

namespace Muxponder

open OnChange

/-! ### The alarms of the card -/

/-- `SEVERITY_WARNING` and `SEVERITY_CRITICAL`. -/
def SEVERITY_WARNING : UInt32 := 1
@[inherit_doc SEVERITY_WARNING]
def SEVERITY_CRITICAL : UInt32 := 2

/-- `PORT_PROTOCOL_SONET`. -/
def PORT_PROTOCOL_SONET : UInt32 := 0x03

/-- What the alarms of the card are computed from, for one interface. -/
structure InterfaceReading where
  monitor : UInt32
  temperatureMonitor : Bool
  temperatureAlarm : UInt32
  opticalPowerMonitor : Bool
  pinAlarm : UInt32
  poutAlarm : UInt32
  fecCapable : Bool
  fecLoadAlarm : UInt32
  line : Bool
  oduxAlarms : UInt32
  prot : UInt32
  ethAlarms : UInt32
  stmxAlarms : UInt32
  otuxAlarms : UInt32
  deriving DecidableEq, Repr

/-- And for the card. -/
structure AlarmReading where
  temperatureAlarm : UInt32
  interface : Fin INTERFACE_COUNT → InterfaceReading

/-- A diagnostic value of an interface has an alarm of this severity. -/
def InterfaceReading.diagnosed (r : InterfaceReading) (severity : UInt32) : Bool :=
  (r.temperatureMonitor && r.temperatureAlarm == severity) ||
    (r.opticalPowerMonitor && (r.pinAlarm == severity || r.poutAlarm == severity)) ||
    (r.fecCapable && r.fecLoadAlarm == severity)

/-- The traffic of an interface has an alarm. -/
def InterfaceReading.disturbed (r : InterfaceReading) : Bool :=
  (r.line && r.oduxAlarms != 0) ||
    (r.prot == PORT_PROTOCOL_ETHERNET && r.ethAlarms != 0) ||
    ((r.prot == PORT_PROTOCOL_SONET || r.prot == PORT_PROTOCOL_SDH) && r.stmxAlarms != 0) ||
    (r.prot == PORT_PROTOCOL_OTU && r.otuxAlarms != 0)

/-- One of the interfaces that are monitored. -/
def AlarmReading.monitored (r : AlarmReading) (p : InterfaceReading → Bool) : Bool :=
  (List.finRange INTERFACE_COUNT).any fun i =>
    (r.interface i).monitor == ACTIVITY_MONITOR_ON && p (r.interface i)

/-- `current`, `previous` and `change` of `ipg_status_t`, which are all 0 or 1 here. -/
structure AlarmStatus where
  current : Bool
  previous : Bool
  change : Bool
  deriving DecidableEq, Repr

/-- An alarm is computed anew. -/
def AlarmStatus.update (a : AlarmStatus) (raised : Bool) : AlarmStatus :=
  ⟨raised, a.current, raised ^^ a.current⟩

/-- The readings raise the first alarm. -/
def AlarmReading.raises1 (r : AlarmReading) : Bool :=
  r.temperatureAlarm == SEVERITY_WARNING || r.monitored fun i => i.diagnosed SEVERITY_WARNING

/-- The readings raise the second alarm. -/
def AlarmReading.raises2 (r : AlarmReading) : Bool :=
  r.temperatureAlarm == SEVERITY_CRITICAL ||
    r.monitored fun i => i.diagnosed SEVERITY_CRITICAL || i.disturbed

/-- `update_card_alarm1`. -/
def updateCardAlarm1 (r : AlarmReading) (a : AlarmStatus) : AlarmStatus := a.update r.raises1

/-- `update_card_alarm2`. -/
def updateCardAlarm2 (r : AlarmReading) (a : AlarmStatus) : AlarmStatus := a.update r.raises2

/-! ### `task_55` -/

/-- `COLOR_GREEN`. -/
def COLOR_GREEN : UInt8 := 1

/-- The state of the task, and the pair of alarms that was last delivered to the ARM. -/
structure LedState where
  slotId : UInt8
  selectedIf : Fin INTERFACE_COUNT
  alarm1 : AlarmStatus
  alarm2 : AlarmStatus
  powerLed : UInt8
  statusLed : UInt8
  blockOk : Bool
  delivered : Option (Bool × Bool)
  deriving DecidableEq, Repr

/-- What a call finds: what the alarms are computed from, the answer of `get_fp_leds`, and what
`set_status_led` returns if it is called. -/
structure Task55Call where
  reading1 : AlarmReading
  reading2 : AlarmReading
  fpLeds : Except RetCode (UInt8 × UInt8)
  setStatusLed : RetCode

/-- `get_fp_leds`. -/
def getFpLeds (answer : Except RetCode (UInt8 × UInt8)) (s : LedState) : LedState :=
  match answer with
  | .ok leds => { s with powerLed := leds.1, statusLed := leds.2 }
  | .error _ => s

/-- `set_status_led`: what it sends is delivered where it succeeds. -/
def setStatusLed (rc : RetCode) (s : LedState) : LedState :=
  if rc = .success then { s with delivered := some (s.alarm2.current, s.alarm1.current) } else s

/-- The end of a cycle. -/
def endOfCycle (c : Task55Call) (s : LedState) : LedState :=
  let s := { s with
    alarm1 := updateCardAlarm1 c.reading1 s.alarm1
    alarm2 := updateCardAlarm2 c.reading2 s.alarm2 }
  let s := getFpLeds c.fpLeds s
  let s := { s with blockOk := s.powerLed == COLOR_GREEN }
  if s.alarm1.change || s.alarm2.change then setStatusLed c.setStatusLed s else s

/-- A call is the last one of its cycle. -/
def LedState.EndsCycle (s : LedState) : Prop := s.selectedIf = Fin.last 17

instance (s : LedState) : Decidable s.EndsCycle := inferInstanceAs (Decidable (_ = _))

/-- `task_55`. The slot id is an unsigned byte, and is compared with -1. -/
def task55 (s : LedState) (c : Task55Call) : LedState :=
  let next := { s with selectedIf := s.selectedIf + 1 }
  if s.EndsCycle then
    if (s.slotId.toNat : Int) ≠ -1 then endOfCycle c next else next
  else next

/-- The state behind a sequence of calls. -/
def LedState.run (s : LedState) (cs : List Task55Call) : LedState := cs.foldl task55 s

/-! ### What is expected of the LED -/

/-- The LED state that was last delivered is that of the alarms. -/
def LedState.Agrees (s : LedState) : Prop :=
  s.delivered = some (s.alarm2.current, s.alarm1.current)

/-- The alarms that a call computes. -/
def Task55Call.alarms (c : Task55Call) : Bool × Bool := (c.reading2.raises2, c.reading1.raises1)

/-- A call delivers, or tries to: it ends its cycle, and an alarm has changed. -/
def LedState.Delivers (s : LedState) (c : Task55Call) : Prop :=
  s.EndsCycle ∧ c.alarms ≠ (s.alarm2.current, s.alarm1.current)

/-- No exchange of a call fails. -/
def LedState.NoneFails (s : LedState) (c : Task55Call) : Prop :=
  (s.EndsCycle → ∃ leds, c.fpLeds = .ok leds) ∧ (s.Delivers c → c.setStatusLed = .success)

/-- No exchange of a sequence of calls fails. -/
def LedState.NoneFail (s : LedState) (cs : List Task55Call) : Prop :=
  ∀ pre c, pre ++ [c] <+: cs → (s.run pre).NoneFails c

/-- Every delivery of a sequence of calls succeeds. -/
def LedState.AllDelivered (s : LedState) (cs : List Task55Call) : Prop :=
  ∀ pre c, pre ++ [c] <+: cs → (s.run pre).Delivers c → c.setStatusLed = .success

/-- **The LED converges** in a sequence of calls: it agrees with the alarms at the end of every
cycle in which no exchange fails. -/
def LedState.Converges (s : LedState) (cs : List Task55Call) : Prop :=
  ∀ pre c, pre ++ [c] <+: cs → (s.run pre).EndsCycle → (s.run pre).NoneFails c →
    (s.run (pre ++ [c])).Agrees

/-- It converges as soon as no exchange fails any more. -/
def LedState.Recovers (s : LedState) : Prop := ∀ cs, s.NoneFail cs → s.Converges cs

variable {s : LedState} {c : Task55Call} {cs pre : List Task55Call}

/-! ### A call is a round -/

/-- The alarms, and what is shown of them. -/
def LedState.shown (s : LedState) : State (Bool × Bool) :=
  ⟨(s.alarm2.current, s.alarm1.current), s.delivered⟩

/-- The round of a call. -/
def Task55Call.round (c : Task55Call) : Round (Bool × Bool) := ⟨c.alarms, c.setStatusLed = .success⟩

/-- The alarms of a pair that have changed. -/
theorem xor_or_eq_true {a b a' b' : Bool} :
    (b ^^ b' || a ^^ a') = true ↔ (a, b) ≠ (a', b') := by
  revert a b a' b'
  decide

/-- Asking for the LEDs leaves the alarms. -/
theorem getFpLeds_eq (answer : Except RetCode (UInt8 × UInt8)) (s : LedState) :
    ∃ power status, getFpLeds answer s = { s with powerLed := power, statusLed := status } := by
  cases answer with
  | ok leds => exact ⟨_, _, rfl⟩
  | error rc => exact ⟨_, _, rfl⟩

/-- Setting the LED shows the alarms where it succeeds. -/
theorem setStatusLed_shown (rc : RetCode) (s : LedState) : (setStatusLed rc s).shown =
    ⟨s.shown.current, if rc = .success then some s.shown.current else s.shown.shown⟩ := by
  rw [setStatusLed]
  split <;> rfl

/-- **The end of a cycle is a round.** -/
theorem endOfCycle_shown : (endOfCycle c s).shown = s.shown.round c.round := by
  obtain ⟨power, status, hleds⟩ := getFpLeds_eq c.fpLeds { s with
    alarm1 := updateCardAlarm1 c.reading1 s.alarm1
    alarm2 := updateCardAlarm2 c.reading2 s.alarm2 }
  rw [endOfCycle, hleds]
  simp only [updateCardAlarm1, updateCardAlarm2, AlarmStatus.update, xor_or_eq_true]
  by_cases hchange : (c.reading2.raises2, c.reading1.raises1) ≠
      (s.alarm2.current, s.alarm1.current)
  · rw [if_pos hchange, setStatusLed_shown]
    simp only [LedState.shown, State.round, Task55Call.round, Task55Call.alarms, hchange, ne_eq,
      not_false_iff, true_and, decide_eq_true_eq]
  · rw [if_neg hchange]
    simp only [LedState.shown, State.round, Task55Call.round, Task55Call.alarms, hchange, false_and,
      if_false]

/-- The round of a call, if it ends its cycle. -/
def LedState.roundOf (s : LedState) (c : Task55Call) : Option (Round (Bool × Bool)) :=
  if s.EndsCycle then some c.round else none

/-- **A call** is a round where it ends its cycle, and leaves the alarms and the LED alone
otherwise. -/
theorem task55_shown : OnChange.Follows task55 LedState.shown LedState.roundOf := by
  intro s c
  have hslot : (s.slotId.toNat : Int) ≠ -1 := by omega
  simp only [task55, hslot, ne_eq, not_false_iff, if_true, LedState.roundOf]
  split
  · exact endOfCycle_shown
  · rfl

/-- The LED agrees where the display is in step. -/
theorem agrees_iff : s.Agrees ↔ s.shown.InStep := Iff.rfl

/-- A delivery that fails is a loss. -/
theorem keeps_iff : (∀ r, s.roundOf c = some r → ¬ s.shown.Loses r) ↔
    (s.Delivers c → c.setStatusLed = .success) := by
  rw [LedState.roundOf, LedState.Delivers]
  by_cases hends : s.EndsCycle
  · simp only [hends, if_true, Option.some.injEq, forall_eq', State.Loses, Task55Call.round,
      LedState.shown, decide_eq_false_iff_not, true_and, not_and, not_not]
  · simp [hends]

/-- **The LED agrees throughout** a sequence of calls exactly if it agrees at first and every
delivery succeeds. -/
theorem agrees_throughout_iff : (∀ pre, pre <+: cs → (s.run pre).Agrees) ↔
    s.Agrees ∧ s.AllDelivered cs := by
  refine (stays_iff task55_shown).trans (and_congr_right' ?_)
  simp only [LedState.AllDelivered, ← keeps_iff]
  rfl

/-- So it converges there. -/
theorem LedState.Agrees.converges (h : s.Agrees) (hcs : s.AllDelivered cs) : s.Converges cs :=
  fun _ _ hpre _ _ => agrees_throughout_iff.mpr ⟨h, hcs⟩ _ hpre

/-- The state behind one more call. -/
theorem run_append_call : s.run (cs ++ [c]) = task55 (s.run cs) c := by
  simp [LedState.run, List.foldl_append]

/-! ### Calls that change nothing -/

/-- An interface that is not monitored. -/
def unmonitored : InterfaceReading :=
  ⟨0, false, 0, false, 0, 0, false, 0, false, 0, 0, 0, 0, 0⟩

/-- Nothing is reported but an alarm of the card's temperature. -/
def temperatureReading (severity : UInt32) : AlarmReading := ⟨severity, fun _ => unmonitored⟩

/-- A call that finds the alarms as they are, and whose exchanges succeed. -/
def quietCall (s : LedState) : Task55Call where
  reading1 := temperatureReading (if s.alarm1.current then SEVERITY_WARNING else 0)
  reading2 := temperatureReading (if s.alarm2.current then SEVERITY_CRITICAL else 0)
  fpLeds := .ok (COLOR_GREEN, 0)
  setStatusLed := .success

/-- It computes the alarms of the state. -/
theorem quietCall_alarms : (quietCall s).alarms = s.shown.current := by
  have hquiet : ∀ b : Bool,
      (temperatureReading (if b then SEVERITY_WARNING else 0)).raises1 = b ∧
      (temperatureReading (if b then SEVERITY_CRITICAL else 0)).raises2 = b := by decide
  exact Prod.ext (hquiet s.alarm2.current).2 (hquiet s.alarm1.current).1

/-- A call that finds the alarms as they are leaves them and the LED. -/
theorem task55_quiet (h : c.alarms = s.shown.current) : (task55 s c).shown = s.shown := by
  rw [task55_shown, LedState.roundOf]
  split
  · exact round_of_eq h
  · rfl

/-- The interface moves on. -/
theorem task55_selectedIf : (task55 s c).selectedIf = s.selectedIf + 1 := by
  have hcycle : ∀ t : LedState, (endOfCycle c t).selectedIf = t.selectedIf := by
    intro t
    obtain ⟨power, status, hleds⟩ := getFpLeds_eq c.fpLeds { t with
      alarm1 := updateCardAlarm1 c.reading1 t.alarm1
      alarm2 := updateCardAlarm2 c.reading2 t.alarm2 }
    simp only [endOfCycle, hleds, setStatusLed]
    split_ifs <;> rfl
  simp only [task55]
  split_ifs
  · exact hcycle _
  · rfl
  · rfl

/-- Calls that find the alarms as they are. -/
theorem run_quiet (h : c.alarms = s.shown.current) (n : Nat) :
    (s.run (List.replicate n c)).shown = s.shown ∧
      (s.run (List.replicate n c)).selectedIf.val = (s.selectedIf.val + n) % 18 := by
  induction n with
  | zero => exact ⟨rfl, (Nat.mod_eq_of_lt s.selectedIf.isLt).symm⟩
  | succ n ih =>
      obtain ⟨hshown, hselected⟩ := ih
      rw [List.replicate_succ', run_append_call, task55_selectedIf]
      refine ⟨(task55_quiet (by rw [h, hshown])).trans hshown, ?_⟩
      rw [Fin.val_add, hselected, ← Nat.add_assoc]
      exact Nat.mod_add_mod _ 18 1

/-- The end of a cycle is reached by such calls. -/
theorem exists_endsCycle (h : c.alarms = s.shown.current) :
    ∃ n, (s.run (List.replicate n c)).EndsCycle := by
  refine ⟨17 - s.selectedIf.val, Fin.ext ?_⟩
  have hlt : s.selectedIf.val < 18 := s.selectedIf.isLt
  rw [(run_quiet h _).2, Fin.val_last]
  omega

/-- **A state from which the LED recovers** is one in which it agrees. -/
theorem recovers_agrees (h : s.Recovers) : s.Agrees := by
  have halarms : (quietCall s).alarms = s.shown.current := quietCall_alarms
  obtain ⟨n, hends⟩ := exists_endsCycle halarms
  have hquiet : ∀ t : LedState, t.NoneFails (quietCall s) :=
    fun t => ⟨fun _ => ⟨_, rfl⟩, fun _ => rfl⟩
  have hnone : s.NoneFail (List.replicate (n + 1) (quietCall s)) := by
    intro pre c hpre
    obtain rfl := List.eq_of_mem_replicate (hpre.subset (by simp) : c ∈ _)
    exact hquiet _
  have hprefix : List.replicate n (quietCall s) ++ [quietCall s] <+:
      List.replicate (n + 1) (quietCall s) := by
    rw [List.replicate_succ']
  have hagrees := h _ hnone _ _ hprefix hends (hquiet _)
  rw [← List.replicate_succ', agrees_iff, (run_quiet halarms (n + 1)).1] at hagrees
  exact hagrees

/-- **The LED follows the alarms** exactly as long as it agrees with them at first and every
delivery succeeds: from every state of such a run on it is right behind every cycle without a
failure, and a delivery that has failed is not made up for. -/
theorem statusLed_converges_iff (s : LedState) (cs : List Task55Call) :
    (s.Agrees ∧ s.AllDelivered cs → s.Converges cs) ∧
      ((∀ pre, pre <+: cs → (s.run pre).Recovers) ↔ s.Agrees ∧ s.AllDelivered cs) := by
  refine ⟨fun h => h.1.converges h.2, ?_⟩
  rw [← agrees_throughout_iff]
  constructor
  · intro h pre hpre
    exact recovers_agrees (h pre hpre)
  · intro h pre hpre k hk
    exact (h pre hpre).converges fun pre' c hpre' => (hk pre' c hpre').2

/-- A cycle is about to end, and the LED has been told that there is no alarm. -/
def noAlarms : LedState where
  slotId := 3
  selectedIf := 17
  alarm1 := ⟨false, false, false⟩
  alarm2 := ⟨false, false, false⟩
  powerLed := COLOR_GREEN
  statusLed := 0
  blockOk := true
  delivered := some (false, false)

/-- The temperature of the card is too high by a warning. -/
def warmCall (rc : RetCode) : Task55Call where
  reading1 := temperatureReading SEVERITY_WARNING
  reading2 := temperatureReading SEVERITY_WARNING
  fpLeds := .ok (COLOR_GREEN, 0)
  setStatusLed := rc

/-- It raises the first alarm. -/
theorem warmCall_alarms (rc : RetCode) : (warmCall rc).alarms = (false, true) := by
  have hwarm : (temperatureReading SEVERITY_WARNING).raises2 = false ∧
      (temperatureReading SEVERITY_WARNING).raises1 = true := by decide
  exact Prod.ext hwarm.1 hwarm.2

/-- **A delivery that has timed out is not made up for**: in the cycle behind it no exchange fails,
but none is made either. -/
theorem statusLed_stays_behind :
    ¬ noAlarms.Converges (warmCall .timeout :: List.replicate 18 (warmCall .success)) := by
  intro h
  obtain ⟨t, ht⟩ : ∃ t, task55 noAlarms (warmCall .timeout) = t := ⟨_, rfl⟩
  have hrun : ∀ cs, noAlarms.run (warmCall .timeout :: cs) = t.run cs := by
    intro cs
    rw [← ht]
    rfl
  have hlast : noAlarms.EndsCycle := rfl
  have hshown : t.shown = ⟨(false, true), some (false, false)⟩ := by
    rw [← ht, task55_shown, LedState.roundOf, if_pos hlast, Option.elim_some, State.round,
      Task55Call.round, warmCall_alarms]
    rfl
  have hselected : t.selectedIf.val = 0 := by
    rw [← ht, task55_selectedIf]
    rfl
  have halarms : (warmCall .success).alarms = t.shown.current := by
    rw [warmCall_alarms, hshown]
  have hprefix : (warmCall .timeout :: List.replicate 17 (warmCall .success)) ++
      [warmCall .success] <+: warmCall .timeout :: List.replicate 18 (warmCall .success) := by
    rw [List.cons_append, ← List.replicate_succ']
  have hends : (noAlarms.run (warmCall .timeout :: List.replicate 17
      (warmCall .success))).EndsCycle := by
    rw [hrun]
    refine Fin.ext ?_
    rw [(run_quiet halarms 17).2, hselected]
    rfl
  have hagrees := h _ _ hprefix hends ⟨fun _ => ⟨_, rfl⟩, fun _ => rfl⟩
  rw [List.cons_append, ← List.replicate_succ', agrees_iff, hrun, (run_quiet halarms 18).1,
    hshown] at hagrees
  exact absurd (Option.some.inj hagrees) (by decide)

end Muxponder
