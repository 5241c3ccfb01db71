import Mathlib.Data.UInt

/-!
# Alarms of the System Clock

The alarms of the hardware abstraction layer, `alt_alarm_start.c` and `alt_tick.c`, for an
alarm whose callback returns zero and is called once. The counter of the ticks is a 32-bit
word that starts over, and an alarm keeps in `rollover` whether it has to do so first.

## Main results

* `AltAlarm.Waits.tick_early`, `AltAlarm.Waits.tick_due`: an alarm over `n` ticks is called
  by the tick `n + 1` behind its start, whatever the counter was, and by none before.
-/

namespace Muxponder

/-- `TIMER_0_TICKS_PER_SEC`, the value of `alt_ticks_per_second`. -/
def TICKS_PER_SEC : UInt32 := 1000

/-- `alt_alarm`: the count at which it is due, and whether the counter starts over first. -/
structure AltAlarm where
  time : UInt32
  rollover : Bool
  deriving DecidableEq, Repr

/-- `alt_alarm_start` at a count of the ticks. -/
def altAlarmStart (nticks currentNticks : UInt32) : AltAlarm :=
  let time := nticks + currentNticks + 1
  ⟨time, time < currentNticks⟩

/-- What `alt_tick` does with a registered alarm at the next count: `none` where it makes the
callback, which takes the alarm from the list. -/
def AltAlarm.tick (nticks : UInt32) (a : AltAlarm) : Option AltAlarm :=
  let rollover := a.rollover && nticks ≠ 0
  if a.time ≤ nticks ∧ rollover = false then none else some ⟨a.time, rollover⟩

/-- An alarm over `n` ticks that was started at the count `c`, `e` ticks ago. -/
structure AltAlarm.Waits (n c : UInt32) (e : ℕ) (a : AltAlarm) : Prop where
  time_eq : a.time = n + c + 1
  elapsed_le : e ≤ n.toNat
  rollover_iff : a.rollover = true ↔ 2 ^ 32 ≤ c.toNat + n.toNat + 1 ∧ c.toNat + e < 2 ^ 32

variable {n c : UInt32} {e : ℕ} {a : AltAlarm}

/-- The count `e` ticks behind `c`. -/
theorem count_toNat : (c + UInt32.ofNat e).toNat = (c.toNat + e) % 2 ^ 32 := by
  rw [UInt32.toNat_add, UInt32.toNat_ofNat', Nat.add_mod_mod]

/-- The count is zero where the counter starts over. -/
theorem count_ne_zero : c + UInt32.ofNat e ≠ 0 ↔ (c.toNat + e) % 2 ^ 32 ≠ 0 := by
  rw [← count_toNat, ne_eq, ← UInt32.toNat_inj, UInt32.toNat_zero]

/-- The count at which an alarm is due. -/
theorem due_toNat : (n + c + 1).toNat = (c.toNat + n.toNat + 1) % 2 ^ 32 := by
  have hn := n.toNat_lt
  have hc := c.toNat_lt
  simp only [UInt32.toNat_add, UInt32.reduceToNat]
  omega

/-- An alarm waits from its start on. -/
theorem waits_altAlarmStart (hn : n.toNat + 1 < 2 ^ 32) :
    (altAlarmStart n c).Waits n c 0 := by
  refine ⟨rfl, Nat.zero_le _, ?_⟩
  have hc := c.toNat_lt
  have hdue := due_toNat (n := n) (c := c)
  simp only [altAlarmStart, decide_eq_true_eq, UInt32.lt_iff_toNat_lt, hdue]
  omega

/-- An alarm stays registered while its ticks have not elapsed. -/
theorem AltAlarm.Waits.tick_early (h : a.Waits n c e) (hn : n.toNat + 1 < 2 ^ 32)
    (he : e < n.toNat) : ∃ a', a.tick (c + UInt32.ofNat (e + 1)) = some a' ∧
      a'.Waits n c (e + 1) := by
  obtain ⟨htime, -, hroll⟩ := h
  have hc := c.toNat_lt
  have hdue := due_toNat (n := n) (c := c)
  have hcount := count_toNat (c := c) (e := e + 1)
  have hkept : (a.rollover && decide (c + UInt32.ofNat (e + 1) ≠ 0)) = true ↔
      2 ^ 32 ≤ c.toNat + n.toNat + 1 ∧ c.toNat + (e + 1) < 2 ^ 32 := by
    rw [Bool.and_eq_true, decide_eq_true_iff, hroll, count_ne_zero]
    omega
  have hwaits : ¬ (a.time ≤ c + UInt32.ofNat (e + 1) ∧
      (a.rollover && decide (c + UInt32.ofNat (e + 1) ≠ 0)) = false) := by
    rw [htime, UInt32.le_iff_toNat_le, hdue, hcount, ← Bool.not_eq_true, hkept]
    omega
  exact ⟨_, if_neg hwaits, htime, he, hkept⟩

/-- The next tick makes the callback. -/
theorem AltAlarm.Waits.tick_due (h : a.Waits n c e) (he : e = n.toNat) :
    a.tick (c + UInt32.ofNat (e + 1)) = none := by
  obtain ⟨htime, -, hroll⟩ := h
  have hc := c.toNat_lt
  have hdue := due_toNat (n := n) (c := c)
  have hcount := count_toNat (c := c) (e := e + 1)
  refine if_pos ⟨?_, ?_⟩
  · rw [htime, UInt32.le_iff_toNat_le, hdue, hcount]
    omega
  · rw [← Bool.not_eq_true, Bool.and_eq_true, decide_eq_true_iff, hroll, count_ne_zero]
    omega

end Muxponder
