import Mathlib.Algebra.Order.Ring.Rat
import Mathlib.Logic.Function.Iterate
import Mathlib.Tactic.NormNum
import Muxponder.StatusLed

/-!
# The Alarms of the Card

A diagnostic has a value, four thresholds and an alarm. `update_alarms` of `ipglb_adapter.c` goes
through the interfaces and brings the alarms of their diagnostics up to date, each with the alarm
it had before. Then `update_card_alarm1` and `update_card_alarm2` sum up what is at warning and what
is critical. The numbers are rationals, with the tolerance of `float_compare_lt` and
`float_compare_gt`.

The temperature of the card is updated inside the loop, once for each interface. With two of them
its alarm of the cycle before is gone.

## Main results

* `updateAlarms_eq`: what the loop does to the diagnostics.
* `alarmCycle_iff`: when a cycle leaves every alarm as it should be.
* `alarmCycle_not_correct`: a card that gets hot has been hot before.
-/

namespace Muxponder

/-! ### Diagnostics -/

/-- `float_compare_lt` -/
def floatCompareLt (a b resolution : ℚ) : Bool := resolution < b - a

/-- `float_compare_gt` -/
def floatCompareGt (a b resolution : ℚ) : Bool := resolution < a - b

/-- `SEVERITY_NORMAL`. -/
def SEVERITY_NORMAL : UInt32 := 0

/-- The resolution of the thresholds. -/
def ALARM_RESOLUTION : ℚ := 1 / 100000

/-- `ipg_status_t`. -/
structure IpgStatus where
  previous : UInt32
  current : UInt32
  change : UInt32
  deriving DecidableEq, Repr

/-- `diagnostics_t`. -/
structure Diagnostics where
  value : ℚ
  criticalMin : ℚ
  criticalMax : ℚ
  warningMin : ℚ
  warningMax : ℚ
  alarm : IpgStatus
  deriving DecidableEq, Repr

/-- A value below the lower or above the upper one of two thresholds. -/
def Diagnostics.outside (d : Diagnostics) (min max : ℚ) : Bool :=
  floatCompareLt d.value min ALARM_RESOLUTION || floatCompareGt d.value max ALARM_RESOLUTION

/-- **The severity of a value**: its class under the thresholds. -/
def Diagnostics.severity (d : Diagnostics) : UInt32 :=
  if d.outside d.criticalMin d.criticalMax then SEVERITY_CRITICAL
  else if d.outside d.warningMin d.warningMax then SEVERITY_WARNING
  else SEVERITY_NORMAL

/-- `update_diagnostic_alarms`. -/
def updateDiagnosticAlarms (d : Diagnostics) : Diagnostics :=
  { d with alarm := { d.alarm with previous := d.alarm.current, current := d.severity } }

/-! ### The card -/

/-- What the alarms of an interface are computed from. -/
structure AlarmInterface where
  monitor : UInt32
  temperatureMonitor : Bool
  opticalPowerMonitor : Bool
  fecCapable : Bool
  line : Bool
  temperature : Diagnostics
  pin : Diagnostics
  pout : Diagnostics
  fecLoad : Diagnostics
  prot : UInt32
  oduxAlarms : UInt32
  ethAlarms : UInt32
  stmxAlarms : UInt32
  otuxAlarms : UInt32

/-- A card of `n` interfaces. -/
structure AlarmCard (n : ℕ) where
  interfaces : Fin n → AlarmInterface
  temperature : Diagnostics
  alarm1 : IpgStatus
  alarm2 : IpgStatus

/-- What the summary reads of an interface. -/
def AlarmInterface.reading (f : AlarmInterface) : InterfaceReading where
  monitor := f.monitor
  temperatureMonitor := f.temperatureMonitor
  temperatureAlarm := f.temperature.alarm.current
  opticalPowerMonitor := f.opticalPowerMonitor
  pinAlarm := f.pin.alarm.current
  poutAlarm := f.pout.alarm.current
  fecCapable := f.fecCapable
  fecLoadAlarm := f.fecLoad.alarm.current
  line := f.line
  oduxAlarms := f.oduxAlarms
  prot := f.prot
  ethAlarms := f.ethAlarms
  stmxAlarms := f.stmxAlarms
  otuxAlarms := f.otuxAlarms

/-- The diagnostics of an interface, brought up to date. -/
def AlarmInterface.update (f : AlarmInterface) : AlarmInterface :=
  { f with
    temperature := updateDiagnosticAlarms f.temperature
    pin := updateDiagnosticAlarms f.pin
    pout := updateDiagnosticAlarms f.pout
    fecLoad := if f.fecCapable then updateDiagnosticAlarms f.fecLoad else f.fecLoad }

namespace AlarmCard

variable {n : ℕ}

/-- The body of the loop of `update_alarms`. -/
def updateAt (c : AlarmCard n) (i : Fin n) : AlarmCard n :=
  { c with
    interfaces := Function.update c.interfaces i (c.interfaces i).update
    temperature := updateDiagnosticAlarms c.temperature }

/-- `update_alarms`. -/
def updateAlarms (c : AlarmCard n) : AlarmCard n := (List.finRange n).foldl updateAt c

/-- One of the interfaces that are monitored. -/
def monitored (c : AlarmCard n) (p : InterfaceReading → Bool) : Bool :=
  (List.finRange n).any fun i =>
    (c.interfaces i).monitor == ACTIVITY_MONITOR_ON && p (c.interfaces i).reading

/-- An alarm is computed anew. -/
def raise (a : IpgStatus) (raised : Bool) : IpgStatus :=
  let current := if raised then 1 else 0
  ⟨a.current, current, current ^^^ a.current⟩

/-- `update_card_alarm1`. -/
def updateCardAlarm1 (c : AlarmCard n) : AlarmCard n :=
  { c with
    alarm1 := raise c.alarm1 (c.temperature.alarm.current == SEVERITY_WARNING ||
      c.monitored fun r => r.diagnosed SEVERITY_WARNING) }

/-- `update_card_alarm2`. -/
def updateCardAlarm2 (c : AlarmCard n) : AlarmCard n :=
  { c with
    alarm2 := raise c.alarm2 (c.temperature.alarm.current == SEVERITY_CRITICAL ||
      c.monitored fun r => r.diagnosed SEVERITY_CRITICAL || r.disturbed) }

end AlarmCard

/-- One cycle. -/
def alarmCycle {n : ℕ} (c : AlarmCard n) : AlarmCard n :=
  c.updateAlarms.updateCardAlarm1.updateCardAlarm2

/-! ### What a cycle is for -/

/-- The diagnostics of an interface that are enabled. -/
def AlarmInterface.enabled (f : AlarmInterface) : List Diagnostics :=
  (if f.temperatureMonitor then [f.temperature] else []) ++
    (if f.opticalPowerMonitor then [f.pin, f.pout] else []) ++
    if f.fecCapable then [f.fecLoad] else []

/-- The alarm registers of an interface that its operation and its protocol select. -/
def AlarmInterface.selected (f : AlarmInterface) : List UInt32 :=
  (if f.line then [f.oduxAlarms] else []) ++
    if f.prot = PORT_PROTOCOL_ETHERNET then [f.ethAlarms]
    else if f.prot = PORT_PROTOCOL_SONET ∨ f.prot = PORT_PROTOCOL_SDH then [f.stmxAlarms]
    else if f.prot = PORT_PROTOCOL_OTU then [f.otuxAlarms]
    else []

/-- An alarm has followed the value of its diagnostic. -/
structure AlarmFollows (d d' : Diagnostics) : Prop where
  current : d'.alarm.current = d.severity
  previous : d'.alarm.previous = d.alarm.current

/-- An enabled diagnostic of some monitored interface has a severity. -/
def AlarmCard.At {n : ℕ} (c : AlarmCard n) (severity : UInt32) : Prop :=
  ∃ i, (c.interfaces i).monitor = ACTIVITY_MONITOR_ON ∧
    ∃ d ∈ (c.interfaces i).enabled, d.severity = severity

/-- A selected register of some monitored interface is not zero. -/
def AlarmCard.Disturbed {n : ℕ} (c : AlarmCard n) : Prop :=
  ∃ i, (c.interfaces i).monitor = ACTIVITY_MONITOR_ON ∧ ∃ r ∈ (c.interfaces i).selected, r ≠ 0

/-- **A cycle has done its work**: every alarm follows its value, that of a FEC load where there is
a FEC, the two alarms of the card sum them up, and their flags say whether they have changed. -/
structure CycleCorrect {n : ℕ} (c c' : AlarmCard n) : Prop where
  temperatures : ∀ i, AlarmFollows (c.interfaces i).temperature (c'.interfaces i).temperature
  pins : ∀ i, AlarmFollows (c.interfaces i).pin (c'.interfaces i).pin
  pouts : ∀ i, AlarmFollows (c.interfaces i).pout (c'.interfaces i).pout
  fecLoads : ∀ i, (c.interfaces i).fecCapable = true →
    AlarmFollows (c.interfaces i).fecLoad (c'.interfaces i).fecLoad
  card : AlarmFollows c.temperature c'.temperature
  alarm1 : c'.alarm1.current = 1 ↔
    c.temperature.severity = SEVERITY_WARNING ∨ c.At SEVERITY_WARNING
  alarm2 : c'.alarm2.current = 1 ↔
    c.temperature.severity = SEVERITY_CRITICAL ∨ c.At SEVERITY_CRITICAL ∨ c.Disturbed
  change1 : c'.alarm1.change = 1 ↔ c'.alarm1.current ≠ c.alarm1.current
  change2 : c'.alarm2.change = 1 ↔ c'.alarm2.current ≠ c.alarm2.current

/-! ### When it does -/

/-- How the alarm of a diagnostic has to stand in front of a loop that updates it once for each of
`n` interfaces. -/
def Diagnostics.StandsFor : ℕ → Diagnostics → Prop
  | 0, d => d.alarm.current = d.severity ∧ d.alarm.previous = d.alarm.current
  | 1, _ => True
  | _ + 2, d => d.alarm.current = d.severity

/-- **The condition**: the alarms of the card are flags, and with more than one interface the
temperature of the card is of the class that it was of before. -/
structure AlarmCard.CycleFine {n : ℕ} (c : AlarmCard n) : Prop where
  flag1 : c.alarm1.current ≤ 1
  flag2 : c.alarm2.current ≤ 1
  temperature : c.temperature.StandsFor n

variable {n : ℕ} {c : AlarmCard n} {d : Diagnostics} {f : AlarmInterface} {severity : UInt32}

/-! ### Updates of a diagnostic -/

/-- The value and the thresholds stay. -/
@[simp] theorem severity_update : (updateDiagnosticAlarms d).severity = d.severity := rfl

/-- One update follows the value. -/
theorem follows_update : AlarmFollows d (updateDiagnosticAlarms d) := ⟨rfl, rfl⟩

/-- Updates do not change the class. -/
theorem severity_iterate (k : ℕ) : (updateDiagnosticAlarms^[k] d).severity = d.severity := by
  induction k with
  | zero => rfl
  | succ k ih => rw [Function.iterate_succ_apply', severity_update, ih]

/-- **Several updates**: the class is there from the first one on, and the one before it is gone
with the second one. -/
theorem follows_iterate_iff : AlarmFollows d (updateDiagnosticAlarms^[n] d) ↔ d.StandsFor n := by
  match n with
  | 0 => exact ⟨fun h => ⟨h.current, h.previous⟩, fun h => ⟨h.1, h.2⟩⟩
  | 1 => exact iff_of_true follows_update trivial
  | k + 2 =>
      have hprevious : (updateDiagnosticAlarms^[k + 2] d).alarm.previous = d.severity := by
        rw [Function.iterate_succ_apply', Function.iterate_succ_apply']
        exact severity_iterate k
      have hcurrent : (updateDiagnosticAlarms^[k + 2] d).alarm.current = d.severity := by
        rw [Function.iterate_succ_apply']
        exact severity_iterate (k + 1)
      constructor
      · intro h
        exact h.previous.symm.trans hprevious
      · intro h
        exact ⟨hcurrent, hprevious.trans h.symm⟩

/-! ### The loop -/

/-- A part of the loop: the interfaces it has come to are up to date, and the temperature of the
card has been updated for each of them. -/
theorem updateAt_foldl {l : List (Fin n)} (hl : l.Nodup) :
    l.foldl AlarmCard.updateAt c =
      { c with
        interfaces := fun i => if i ∈ l then (c.interfaces i).update else c.interfaces i
        temperature := updateDiagnosticAlarms^[l.length] c.temperature } := by
  induction l generalizing c with
  | nil => simp
  | cons j l ih =>
      obtain ⟨hj, hl⟩ := List.nodup_cons.mp hl
      rw [List.foldl_cons, ih hl]
      simp only [AlarmCard.updateAt, List.length_cons, Function.iterate_succ_apply,
        AlarmCard.mk.injEq, and_true]
      funext i
      by_cases hi : i = j
      · subst hi
        simp [hj]
      · simp [hi]

/-- **What the loop does to the diagnostics.** -/
theorem updateAlarms_eq : c.updateAlarms =
    { c with
      interfaces := fun i => (c.interfaces i).update
      temperature := updateDiagnosticAlarms^[n] c.temperature } := by
  rw [AlarmCard.updateAlarms, updateAt_foldl (List.nodup_finRange n)]
  simp

/-! ### The summary -/

/-- An interface that is up to date shows the severities of its enabled diagnostics. -/
theorem diagnosed_update :
    f.update.reading.diagnosed severity = true ↔ ∃ d ∈ f.enabled, d.severity = severity := by
  rw [InterfaceReading.diagnosed, AlarmInterface.enabled]
  simp only [AlarmInterface.reading, AlarmInterface.update, updateDiagnosticAlarms]
  cases f.temperatureMonitor <;> cases f.opticalPowerMonitor <;> cases f.fecCapable <;>
    simp [or_assoc]

/-- Its traffic has an alarm if a selected register has one. -/
theorem disturbed_update :
    f.update.reading.disturbed = true ↔ ∃ r ∈ f.selected, r ≠ 0 := by
  rw [InterfaceReading.disturbed, AlarmInterface.selected]
  simp only [AlarmInterface.reading, AlarmInterface.update]
  have hprot : ∀ prot : UInt32,
      ((prot == PORT_PROTOCOL_ETHERNET && f.ethAlarms != 0) ||
        ((prot == PORT_PROTOCOL_SONET || prot == PORT_PROTOCOL_SDH) && f.stmxAlarms != 0) ||
        (prot == PORT_PROTOCOL_OTU && f.otuxAlarms != 0)) = true ↔
      ∃ r ∈ (if prot = PORT_PROTOCOL_ETHERNET then [f.ethAlarms]
        else if prot = PORT_PROTOCOL_SONET ∨ prot = PORT_PROTOCOL_SDH then [f.stmxAlarms]
        else if prot = PORT_PROTOCOL_OTU then [f.otuxAlarms]
        else []), r ≠ 0 := by
    intro prot
    by_cases heth : prot = PORT_PROTOCOL_ETHERNET
    · subst heth
      simp [PORT_PROTOCOL_ETHERNET, PORT_PROTOCOL_SONET, PORT_PROTOCOL_SDH, PORT_PROTOCOL_OTU]
    by_cases hstmx : prot = PORT_PROTOCOL_SONET ∨ prot = PORT_PROTOCOL_SDH
    · have hotu : prot ≠ PORT_PROTOCOL_OTU := by
        rcases hstmx with rfl | rfl <;> decide
      simp [heth, hstmx, hotu]
    by_cases hotu : prot = PORT_PROTOCOL_OTU
    · subst hotu
      simp [PORT_PROTOCOL_ETHERNET, PORT_PROTOCOL_SONET, PORT_PROTOCOL_SDH, PORT_PROTOCOL_OTU]
    · simp [heth, hstmx, hotu]
  cases f.line <;> simp [← hprot, Bool.or_assoc]

/-- A monitored interface that shows something, behind the loop. -/
theorem monitored_iff {p : InterfaceReading → Bool} :
    c.updateAlarms.monitored p = true ↔
      ∃ i, (c.interfaces i).monitor = ACTIVITY_MONITOR_ON ∧
        p (c.interfaces i).update.reading = true := by
  rw [updateAlarms_eq, AlarmCard.monitored, List.any_eq_true]
  simp [AlarmInterface.update]

/-- A flag is raised or it is not. -/
theorem raise_current (a : IpgStatus) {raised : Bool} :
    (AlarmCard.raise a raised).current = 1 ↔ raised = true := by
  cases raised <;> simp [AlarmCard.raise]

/-- A flag that is not raised is 0. -/
theorem raise_flag (a : IpgStatus) (raised : Bool) :
    (AlarmCard.raise a raised).current = 0 ∨ (AlarmCard.raise a raised).current = 1 := by
  cases raised <;> simp [AlarmCard.raise]

/-- **A change of a flag** shows as 1 exactly if it was a flag before. -/
theorem change_iff {a : IpgStatus} {raised : Bool} :
    ((AlarmCard.raise a raised).change = 1 ↔
      (AlarmCard.raise a raised).current ≠ a.current) ↔ a.current ≤ 1 := by
  have hflag : a.current ≤ 1 ↔ a.current = 0 ∨ a.current = 1 := by
    rw [UInt32.le_iff_toNat_le, ← UInt32.toNat_inj, ← UInt32.toNat_inj]
    simp only [UInt32.toNat_ofNat, Nat.reducePow, Nat.reduceMod]
    omega
  change (((AlarmCard.raise a raised).current ^^^ a.current = 1 ↔ _) ↔ _)
  rw [hflag]
  rcases raise_flag a raised with h | h <;> rw [h]
  · rw [UInt32.zero_xor]
    constructor
    · intro hchange
      by_cases h0 : a.current = 0
      · exact .inl h0
      · exact .inr (hchange.mpr (Ne.symm h0))
    · rintro (h0 | h1)
      · simp [h0]
      · simp [h1]
  · have hone : 1 ^^^ a.current = 1 ↔ a.current = 0 := by
      have hcancel : (1 : UInt32) ^^^ a.current = 1 ^^^ 0 ↔ a.current = 0 :=
        UInt32.xor_right_inj 1
      rwa [UInt32.xor_zero] at hcancel
    rw [hone]
    constructor
    · intro hchange
      by_cases h1 : a.current = 1
      · exact .inr h1
      · exact .inl (hchange.mpr (Ne.symm h1))
    · rintro (h0 | h1)
      · simp [h0]
      · simp [h1]

/-! ### Cycles -/

/-- **When a cycle does its work**: for every card, of however many interfaces, exactly if the
alarms of the card are flags and its temperature, updated more than once, stays in its class. -/
theorem alarmCycle_iff {n : ℕ} (c : AlarmCard n) : CycleCorrect c (alarmCycle c) ↔ c.CycleFine := by
  have htemperature : (alarmCycle c).temperature = updateDiagnosticAlarms^[n] c.temperature := by
    change c.updateAlarms.temperature = _
    rw [updateAlarms_eq]
  have hinterfaces : (alarmCycle c).interfaces = fun i => (c.interfaces i).update := by
    change c.updateAlarms.interfaces = _
    rw [updateAlarms_eq]
  have halarms : c.updateAlarms.alarm1 = c.alarm1 ∧ c.updateAlarms.alarm2 = c.alarm2 := by
    rw [updateAlarms_eq]
    exact ⟨rfl, rfl⟩
  have hchange1 : ((alarmCycle c).alarm1.change = 1 ↔
      (alarmCycle c).alarm1.current ≠ c.alarm1.current) ↔ c.alarm1.current ≤ 1 := by
    rw [← halarms.1]
    exact change_iff
  have hchange2 : ((alarmCycle c).alarm2.change = 1 ↔
      (alarmCycle c).alarm2.current ≠ c.alarm2.current) ↔ c.alarm2.current ≤ 1 := by
    rw [← halarms.2]
    exact change_iff
  constructor
  · intro h
    refine ⟨hchange1.mp h.change1, hchange2.mp h.change2, ?_⟩
    exact follows_iterate_iff.mp (htemperature ▸ h.card)
  · rintro ⟨hflag1, hflag2, hstands⟩
    have hcard : AlarmFollows c.temperature (alarmCycle c).temperature :=
      htemperature ▸ follows_iterate_iff.mpr hstands
    have hcurrent : c.updateAlarms.temperature.alarm.current = c.temperature.severity :=
      hcard.current
    constructor
    · exact fun i => hinterfaces ▸ follows_update
    · exact fun i => hinterfaces ▸ follows_update
    · exact fun i => hinterfaces ▸ follows_update
    · intro i hfec
      simp only [hinterfaces, AlarmInterface.update, if_pos hfec]
      exact follows_update
    · exact hcard
    · refine (raise_current _).trans ?_
      rw [Bool.or_eq_true, beq_iff_eq, hcurrent, monitored_iff]
      simp only [diagnosed_update, AlarmCard.At]
    · refine (raise_current _).trans ?_
      change (c.updateAlarms.temperature.alarm.current == SEVERITY_CRITICAL ||
        c.updateAlarms.monitored fun r => r.diagnosed SEVERITY_CRITICAL || r.disturbed) = true ↔ _
      rw [Bool.or_eq_true, beq_iff_eq, hcurrent, monitored_iff]
      simp only [Bool.or_eq_true, diagnosed_update, disturbed_update, AlarmCard.At,
        AlarmCard.Disturbed, and_or_left, exists_or]
    · exact hchange1.mpr hflag1
    · exact hchange2.mpr hflag2

/-- A diagnostic within its thresholds of 0 and 70, which has been so before. -/
def normalDiagnostics : Diagnostics := ⟨25, 0, 70, 0, 70, ⟨0, 0, 0⟩⟩

/-- An interface that is not monitored. -/
def quietInterface : AlarmInterface where
  monitor := ACTIVITY_MONITOR_OFF
  temperatureMonitor := false
  opticalPowerMonitor := false
  fecCapable := false
  line := false
  temperature := normalDiagnostics
  pin := normalDiagnostics
  pout := normalDiagnostics
  fecLoad := normalDiagnostics
  prot := PORT_PROTOCOL_ETHERNET
  oduxAlarms := 0
  ethAlarms := 0
  stmxAlarms := 0
  otuxAlarms := 0

/-- The card with its 18 interfaces, which has come from 25 to 75 degrees. -/
def hotCard : AlarmCard INTERFACE_COUNT where
  interfaces := fun _ => quietInterface
  temperature := { normalDiagnostics with value := 75 }
  alarm1 := ⟨0, 0, 0⟩
  alarm2 := ⟨0, 0, 0⟩

/-- **A card that gets hot has been hot before**: behind the cycle the alarm of its temperature
says so. -/
theorem alarmCycle_not_correct : ¬ CycleCorrect hotCard (alarmCycle hotCard) := by
  intro h
  have htemperature : (alarmCycle hotCard).temperature =
      updateDiagnosticAlarms^[16 + 2] hotCard.temperature := by
    change hotCard.updateAlarms.temperature = _
    rw [updateAlarms_eq]
  have hstands : hotCard.temperature.StandsFor (16 + 2) :=
    follows_iterate_iff.mp (htemperature ▸ h.card)
  have hclass : hotCard.temperature.alarm.current = hotCard.temperature.severity := hstands
  have hhot : hotCard.temperature.severity = SEVERITY_CRITICAL := by
    norm_num [Diagnostics.severity, Diagnostics.outside, floatCompareLt, floatCompareGt, hotCard,
      normalDiagnostics, ALARM_RESOLUTION]
  rw [hhot] at hclass
  exact absurd hclass (by decide)

end Muxponder
