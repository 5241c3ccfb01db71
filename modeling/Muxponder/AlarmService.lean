import Muxponder.AltAlarm
import Muxponder.Lib.CircularList
import Muxponder.Lib.Machine

/-!
# The Alarms of the Card

All the alarms of the system clock together: the circular list that `alt_alarm_start.c` and
`alt_tick.c` keep them in, the 32-bit count of the ticks, and the callbacks, which say how long it
is to the next one. A callback does not start or stop alarms itself, and none of the card's does.

What it comes to is a list of deadlines on a clock that does not start over. It asks of its callers
that an alarm is not started while it is pending, that one that was never started is not stopped,
and that no alarm is started over `2 ^ 32 - 1` ticks, for which the count comes out as the one it is
started at.

## Main results

* `represents_run`: the list of alarms runs like the deadlines, with the same callbacks.
* `alarm_called_iff`: an alarm is called at the ticks it asked for, and at no other.
* `restart_hangs`: an alarm that is started while it is pending has the next tick never return.
-/

namespace Muxponder.AlarmService

/-- An element of the list of alarms: its head `alt_alarm_list`, or an alarm. -/
inductive AlarmEntry (α : Type*)
  | altAlarmList
  | alarm (a : α)
  deriving DecidableEq

/-- What the system keeps of its alarms. -/
structure AlarmSystem (α : Type*) where
  llist : Links (AlarmEntry α)
  alarm : α → AltAlarm
  altNticks : UInt32
  altTickRate : UInt32

/-- What `alt_alarm_start` and `alt_sysclk_init` return. -/
inductive AlarmRet
  | ok
  | EINVAL
  | ENOTSUP
  | fail
  deriving DecidableEq, Repr

/-- A call into the alarms: by the driver of the clock, or by the program. In a tick every alarm has
an answer for when it is called. -/
inductive AlarmCall (α : Type*)
  | sysclkInit (nticks : UInt32)
  | start (alarm : Option α) (nticks : UInt32)
  | stop (alarm : α)
  | tick (callback : α → UInt32)

/-- Whether a call is a tick. -/
def AlarmCall.isTick {α : Type*} : AlarmCall α → Bool
  | .tick _ => true
  | _ => false

/-- What comes of it: the value that is returned, and the alarms that were called, in order. -/
structure AlarmReply (α : Type*) where
  ret : AlarmRet
  called : List α
  deriving DecidableEq

variable {α : Type*}

/-! ### The program -/

section Program

variable [DecidableEq α]

/-- An alarm is written. -/
def AlarmSystem.setAlarm (s : AlarmSystem α) (a : α) (v : AltAlarm) : AlarmSystem α :=
  { s with alarm := Function.update s.alarm a v }

@[simp] theorem setAlarm_self {s : AlarmSystem α} {a : α} {v : AltAlarm} :
    (s.setAlarm a v).alarm a = v := Function.update_self _ _ _

theorem setAlarm_of_ne {s : AlarmSystem α} {a b : α} {v : AltAlarm} (h : b ≠ a) :
    (s.setAlarm a v).alarm b = s.alarm b := Function.update_of_ne h _ _

@[simp] theorem setAlarm_setAlarm {s : AlarmSystem α} {a : α} {v w : AltAlarm} :
    (s.setAlarm a v).setAlarm a w = s.setAlarm a w := by
  simp [AlarmSystem.setAlarm]

@[simp] theorem setAlarm_llist {s : AlarmSystem α} {a : α} {v : AltAlarm} :
    (s.setAlarm a v).llist = s.llist := rfl

@[simp] theorem setAlarm_nticks {s : AlarmSystem α} {a : α} {v : AltAlarm} :
    (s.setAlarm a v).altNticks = s.altNticks := rfl

@[simp] theorem setAlarm_rate {s : AlarmSystem α} {a : α} {v : AltAlarm} :
    (s.setAlarm a v).altTickRate = s.altTickRate := rfl

/-- `alt_sysclk_init`. -/
def altSysclkInit (nticks : UInt32) (s : AlarmSystem α) : AlarmRet × AlarmSystem α :=
  if s.altTickRate = 0 then (.ok, { s with altTickRate := nticks }) else (.fail, s)

/-- `alt_alarm_start`. -/
def altAlarmStart (alarm : Option α) (nticks : UInt32) (s : AlarmSystem α) :
    AlarmRet × AlarmSystem α :=
  if s.altTickRate ≠ 0 then
    match alarm with
    | some a =>
        let s := s.setAlarm a (Muxponder.altAlarmStart nticks s.altNticks)
        (.ok, { s with llist := s.llist.insert .altAlarmList (.alarm a) })
    | none => (.EINVAL, s)
  else (.ENOTSUP, s)

/-- `alt_alarm_stop`. -/
def altAlarmStop (alarm : α) (s : AlarmSystem α) : AlarmSystem α :=
  { s with llist := s.llist.remove (.alarm alarm) }

/-- The body of the loop of `alt_tick`: whether the callback is made, and the system behind it. -/
def altTickAlarm (callback : α → UInt32) (alarm : α) (s : AlarmSystem α) : Bool × AlarmSystem α :=
  let a := s.alarm alarm
  let a := if a.rollover = true ∧ s.altNticks = 0 then { a with rollover := false } else a
  let s := s.setAlarm alarm a
  if a.time ≤ s.altNticks ∧ a.rollover = false then
    let next_callback := callback alarm
    if next_callback = 0 then (true, altAlarmStop alarm s)
    else
      let time := a.time + next_callback
      (true, s.setAlarm alarm ⟨time, if time < s.altNticks then true else a.rollover⟩)
  else (false, s)

/-- The loop of `alt_tick`, from an element on. The next element is read before the callback. -/
def altTickLoop (callback : α → UInt32) :
    ℕ → AlarmEntry α → AlarmSystem α → Option (List α × AlarmSystem α)
  | 0, _, _ => none
  | _ + 1, .altAlarmList, s => some ([], s)
  | fuel + 1, .alarm a, s =>
      let next := s.llist.next (.alarm a)
      let r := altTickAlarm callback a s
      (altTickLoop callback fuel next r.2).map fun t => (if r.1 then a :: t.1 else t.1, t.2)

/-- `alt_tick`. -/
def altTick (fuel : ℕ) (callback : α → UInt32) (s : AlarmSystem α) :
    Option (List α × AlarmSystem α) :=
  altTickLoop callback fuel (s.llist.next .altAlarmList) { s with altNticks := s.altNticks + 1 }

/-- The alarms as a machine. -/
def alarmMachine (fuel : ℕ) : Machine (AlarmSystem α) (AlarmCall α) (AlarmReply α) where
  step s
    | .sysclkInit nticks => some ((altSysclkInit nticks s).2, ⟨(altSysclkInit nticks s).1, []⟩)
    | .start alarm nticks =>
        some ((altAlarmStart alarm nticks s).2, ⟨(altAlarmStart alarm nticks s).1, []⟩)
    | .stop alarm => some (altAlarmStop alarm s, ⟨.ok, []⟩)
    | .tick callback => (altTick fuel callback s).map fun r => (r.2, ⟨.ok, r.1⟩)

end Program

/-- The system behind a reset. The alarms have not been written. -/
structure AtReset (s : AlarmSystem α) : Prop where
  nticks : s.altNticks = 0
  rate : s.altTickRate = 0
  empty : s.llist.Linked .altAlarmList .altAlarmList

/-! ### The deadlines -/

/-- The pending alarms with their deadlines, counted in ticks since the reset. -/
structure Schedule (α : Type*) where
  rate : UInt32
  now : ℕ
  started : List α
  pending : List (α × ℕ)

/-- Nothing is pending behind a reset. -/
def Schedule.atReset : Schedule α := ⟨0, 0, [], []⟩

/-- The alarms that a tick calls. -/
def dueNow (now : ℕ) (ds : List (α × ℕ)) : List α :=
  (ds.filter fun e => e.2 = now).map Prod.fst

/-- What becomes of a deadline at a tick. -/
def renew (callback : α → UInt32) (now : ℕ) (e : α × ℕ) : Option (α × ℕ) :=
  if e.2 = now then
    if callback e.1 = 0 then none else some (e.1, now + (callback e.1).toNat)
  else some e

/-- The deadlines as a machine: it has no step where the program is asked for what it cannot do. -/
def scheduleMachine [DecidableEq α] : Machine (Schedule α) (AlarmCall α) (AlarmReply α) where
  step d
    | .sysclkInit nticks =>
        if d.rate = 0 then some ({ d with rate := nticks }, ⟨.ok, []⟩) else some (d, ⟨.fail, []⟩)
    | .start alarm nticks =>
        if d.rate ≠ 0 then
          match alarm with
          | some a =>
              if a ∉ d.pending.map Prod.fst ∧ nticks ≠ 0xffffffff then
                some ({ d with
                  started := a :: d.started
                  pending := (a, d.now + nticks.toNat + 1) :: d.pending }, ⟨.ok, []⟩)
              else none
          | none => some (d, ⟨.EINVAL, []⟩)
        else some (d, ⟨.ENOTSUP, []⟩)
    | .stop alarm =>
        if alarm ∈ d.started then
          some ({ d with pending := d.pending.filter fun e => e.1 ≠ alarm }, ⟨.ok, []⟩)
        else none
    | .tick callback =>
        some ({ d with
          now := d.now + 1
          pending := d.pending.filterMap (renew callback (d.now + 1)) },
          ⟨.ok, dueNow (d.now + 1) d.pending⟩)

/-! ### One alarm and its deadline -/

/-- An alarm has a deadline: the counts agree, and `rollover` says whether the counter starts over
in between. -/
structure DueAt (a : AltAlarm) (now deadline : ℕ) : Prop where
  time_eq : a.time = UInt32.ofNat deadline
  rollover_iff : a.rollover = true ↔ now / 2 ^ 32 < deadline / 2 ^ 32
  later : now < deadline
  near : deadline < now + 2 ^ 32

section Alarm

variable {a : AltAlarm} {now deadline : ℕ} {n : UInt32}

/-- An alarm that is started has its deadline. -/
theorem dueAt_start (hn : n ≠ 0xffffffff) :
    DueAt (Muxponder.altAlarmStart n (UInt32.ofNat now)) now (now + n.toNat + 1) := by
  have hlt : n.toNat + 1 < 2 ^ 32 := by
    have hle := n.toNat_lt
    have hne : n.toNat ≠ 0xffffffff := fun heq => hn (UInt32.toNat_inj.mp heq)
    omega
  have htime : (n + UInt32.ofNat now + 1).toNat = (now + n.toNat + 1) % 2 ^ 32 := by
    simp only [UInt32.toNat_add, UInt32.toNat_ofNat', UInt32.reduceToNat]
    omega
  refine ⟨UInt32.toNat_inj.mp ?_, ?_, by omega, by omega⟩
  · rw [UInt32.toNat_ofNat']
    exact htime
  · simp only [Muxponder.altAlarmStart, decide_eq_true_eq, UInt32.lt_iff_toNat_lt, htime,
      UInt32.toNat_ofNat']
    omega

/-- What a tick reads of an alarm: `rollover`, which it may have to clear. -/
theorem DueAt.rollover_next (h : DueAt a now deadline) :
    (if a.rollover = true ∧ UInt32.ofNat (now + 1) = 0 then { a with rollover := false } else a) =
      ⟨UInt32.ofNat deadline, decide ((now + 1) / 2 ^ 32 < deadline / 2 ^ 32)⟩ := by
  obtain ⟨htime, hroll, hlater, hnear⟩ := h
  have hzero : UInt32.ofNat (now + 1) = 0 ↔ (now + 1) % 2 ^ 32 = 0 := by
    rw [← UInt32.toNat_inj, UInt32.toNat_ofNat', UInt32.toNat_zero]
  have hkept : (a.rollover = true ∧ ¬ UInt32.ofNat (now + 1) = 0) ↔
      (now + 1) / 2 ^ 32 < deadline / 2 ^ 32 := by
    rw [hroll, hzero]
    omega
  rw [← htime]
  split
  · next hc =>
      have hclear : ¬ (now + 1) / 2 ^ 32 < deadline / 2 ^ 32 := fun hlt => (hkept.mpr hlt).2 hc.2
      rw [decide_eq_false hclear]
  · next hc =>
      have hsame : decide ((now + 1) / 2 ^ 32 < deadline / 2 ^ 32) = a.rollover := by
        rw [Bool.eq_iff_iff, decide_eq_true_iff, ← hkept]
        exact ⟨And.left, fun hr => ⟨hr, fun hz => hc ⟨hr, hz⟩⟩⟩
      rw [hsame]

/-- It is called at its deadline, and not before. -/
theorem DueAt.fires_iff (h : DueAt a now deadline) :
    (UInt32.ofNat deadline ≤ UInt32.ofNat (now + 1) ∧
      decide ((now + 1) / 2 ^ 32 < deadline / 2 ^ 32) = false) ↔ deadline = now + 1 := by
  obtain ⟨-, -, hlater, hnear⟩ := h
  rw [UInt32.le_iff_toNat_le, UInt32.toNat_ofNat', UInt32.toNat_ofNat', decide_eq_false_iff_not]
  omega

/-- Before its deadline it keeps it. -/
theorem DueAt.keep (h : DueAt a now deadline) (hne : deadline ≠ now + 1) :
    DueAt ⟨UInt32.ofNat deadline, decide ((now + 1) / 2 ^ 32 < deadline / 2 ^ 32)⟩ (now + 1)
      deadline := by
  obtain ⟨-, -, hlater, hnear⟩ := h
  exact ⟨rfl, decide_eq_true_iff, by omega, by omega⟩

/-- At its deadline it gets another one. -/
theorem dueAt_renew (hn : n ≠ 0) {rollover : Bool} (hroll : rollover = false) :
    DueAt ⟨UInt32.ofNat now + n,
      if UInt32.ofNat now + n < UInt32.ofNat now then true else rollover⟩ now (now + n.toNat) := by
  subst hroll
  have hpos : n.toNat ≠ 0 := fun heq => hn (UInt32.toNat_inj.mp heq)
  have hlt := n.toNat_lt
  have htime : (UInt32.ofNat now + n).toNat = (now + n.toNat) % 2 ^ 32 := by
    rw [UInt32.toNat_add, UInt32.toNat_ofNat', Nat.mod_add_mod]
  refine ⟨UInt32.toNat_inj.mp ?_, ?_, by omega, by omega⟩
  · rw [UInt32.toNat_ofNat']
    exact htime
  · simp only [UInt32.lt_iff_toNat_lt, htime, UInt32.toNat_ofNat']
    split <;> simp <;> omega

end Alarm

/-! ### What a system has in common with a schedule -/

/-- The elements of the list for some deadlines. -/
def entries (ds : List (α × ℕ)) : List (AlarmEntry α) := ds.map fun e => .alarm e.1

/-- The system in a tick that has come past some of the deadlines. -/
structure Walking (s : AlarmSystem α) (started : List α) (now : ℕ) (past ds : List (α × ℕ)) :
    Prop where
  nticks : s.altNticks = UInt32.ofNat (now + 1)
  ring : s.llist.Ring .altAlarmList (entries (past ++ ds))
  past_due : ∀ e ∈ past, DueAt (s.alarm e.1) (now + 1) e.2
  due : ∀ e ∈ ds, DueAt (s.alarm e.1) now e.2
  idle : ∀ a ∈ started, a ∉ (past ++ ds).map Prod.fst → s.llist.Linked (.alarm a) (.alarm a)

/-- A system whose alarms have the deadlines of a schedule. -/
structure Represents (s : AlarmSystem α) (d : Schedule α) : Prop where
  nticks : s.altNticks = UInt32.ofNat d.now
  rate : s.altTickRate = d.rate
  ring : s.llist.Ring .altAlarmList (entries d.pending)
  due : ∀ e ∈ d.pending, DueAt (s.alarm e.1) d.now e.2
  idle : ∀ a ∈ d.started, a ∉ d.pending.map Prod.fst → s.llist.Linked (.alarm a) (.alarm a)
  rated : d.pending ≠ [] → d.rate ≠ 0

section Tick

variable {s s' : AlarmSystem α} {d d' : Schedule α} {started : List α} {now fuel : ℕ}
  {past ds : List (α × ℕ)} {a : α} {callback : α → UInt32}

@[simp] theorem mem_entries : .alarm a ∈ entries ds ↔ a ∈ ds.map Prod.fst := by
  simp [entries]

@[simp] theorem entries_append : entries (past ++ ds) = entries past ++ entries ds :=
  List.map_append

@[simp] theorem entries_cons {e : α × ℕ} : entries (e :: ds) = .alarm e.1 :: entries ds := rfl

/-- An alarm is pending once. -/
theorem nodup_of_ring {l : Links (AlarmEntry α)} (h : l.Ring .altAlarmList (entries ds)) :
    (ds.map Prod.fst).Nodup := by
  have hnodup := (List.nodup_cons.mp h.nodup).2
  refine List.Nodup.of_map AlarmEntry.alarm ?_
  rwa [List.map_map]

/-- No deadline is pending behind a reset. -/
theorem represents_atReset (h : AtReset s) : Represents s Schedule.atReset where
  nticks := h.nticks
  rate := h.rate
  ring := ⟨h.empty, by simp [Schedule.atReset, entries]⟩
  due := by simp [Schedule.atReset]
  idle := by simp [Schedule.atReset]
  rated := by simp [Schedule.atReset]

variable [DecidableEq α]

/-- **One step of the walk.** -/
theorem Walking.step {deadline : ℕ} (callback : α → UInt32)
    (h : Walking s started now past ((a, deadline) :: ds)) :
    ∃ s', altTickAlarm callback a s = (decide (deadline = now + 1), s') ∧
      s'.altTickRate = s.altTickRate ∧
      Walking s' started now (past ++ (renew callback (now + 1) (a, deadline)).toList) ds := by
  have hdue : DueAt (s.alarm a) now deadline := h.due (a, deadline) List.mem_cons_self
  have hnodup := nodup_of_ring h.ring
  rw [List.map_append, List.map_cons] at hnodup
  obtain ⟨-, hnodup, hdisjoint⟩ := List.nodup_append.mp hnodup
  have hpast : ∀ e ∈ past, e.1 ≠ a := fun e he =>
    hdisjoint e.1 (List.mem_map_of_mem he) a List.mem_cons_self
  have hds : ∀ e ∈ ds, e.1 ≠ a := by
    intro e he heq
    have hmem : e.1 ∈ ds.map Prod.fst := List.mem_map_of_mem he
    exact (List.nodup_cons.mp hnodup).1 (heq ▸ hmem)
  have hring : s.llist.Ring .altAlarmList (entries past ++ .alarm a :: entries ds) := by
    have hr := h.ring
    rwa [entries_append, entries_cons] at hr
  -- an alarm that keeps its place
  have hkeep : ∀ v d, DueAt v (now + 1) d →
      Walking (s.setAlarm a v) started now (past ++ [(a, d)]) ds := by
    intro v d hv
    have happend : past ++ [(a, d)] ++ ds = past ++ (a, d) :: ds := by simp
    refine ⟨h.nticks, ?_, fun e he => ?_, fun e he => ?_, fun b hb hout => ?_⟩
    · rwa [happend, entries_append, entries_cons]
    · rcases List.mem_append.mp he with he | he
      · rw [setAlarm_of_ne (hpast e he)]
        exact h.past_due e he
      · obtain rfl := List.mem_singleton.mp he
        rwa [setAlarm_self]
    · rw [setAlarm_of_ne (hds e he)]
      exact h.due e (List.mem_cons_of_mem _ he)
    · refine h.idle b hb ?_
      rw [happend] at hout
      simpa using hout
  simp only [altTickAlarm, h.nticks, hdue.rollover_next, setAlarm_nticks, hdue.fires_iff]
  by_cases hfires : deadline = now + 1
  · subst hfires
    rw [if_pos rfl, renew, if_pos rfl, decide_eq_true rfl]
    by_cases hzero : callback a = 0
    · -- the callback has the alarm removed
      rw [if_pos hzero, if_pos hzero]
      obtain ⟨hring', hself⟩ := hring.remove
      refine ⟨_, rfl, rfl, h.nticks, ?_, ?_, ?_, ?_⟩
      · simpa [altAlarmStop] using hring'
      · intro e he
        rw [Option.toList_none, List.append_nil] at he
        rw [altAlarmStop, setAlarm_of_ne (hpast e he)]
        exact h.past_due e he
      · intro e he
        rw [altAlarmStop, setAlarm_of_ne (hds e he)]
        exact h.due e (List.mem_cons_of_mem _ he)
      · intro b hb hout
        rw [Option.toList_none, List.append_nil] at hout
        by_cases hba : b = a
        · subst hba
          exact hself
        · have hnot : b ∉ (past ++ (a, now + 1) :: ds).map Prod.fst := by
            simpa [hba] using hout
          obtain ⟨hn, hp⟩ := h.idle b hb hnot
          have hframe : AlarmEntry.alarm b ∉
              AlarmEntry.altAlarmList :: (entries past ++ .alarm a :: entries ds) := by
            simpa [entries] using hnot
          obtain ⟨hn', hp'⟩ := hring.remove_frame hframe
          exact ⟨hn'.trans hn, hp'.trans hp⟩
    · rw [if_neg hzero, if_neg hzero]
      have hclear : decide ((now + 1) / 2 ^ 32 < (now + 1) / 2 ^ 32) = false :=
        decide_eq_false (lt_irrefl _)
      rw [setAlarm_setAlarm]
      exact ⟨_, rfl, rfl, hkeep _ _ (dueAt_renew hzero hclear)⟩
  · rw [if_neg hfires, renew, if_neg hfires, decide_eq_false hfires]
    exact ⟨_, rfl, rfl, hkeep _ _ (hdue.keep hfires)⟩

/-- **The walk comes to the end** of the list, and calls the alarms that are due. -/
theorem altTickLoop_spec (callback : α → UInt32) (h : Walking s started now past ds)
    (hfuel : ds.length < fuel) :
    ∃ s', altTickLoop callback fuel ((entries ds).headD .altAlarmList) s =
        some (dueNow (now + 1) ds, s') ∧ s'.altTickRate = s.altTickRate ∧
      Walking s' started now (past ++ ds.filterMap (renew callback (now + 1))) [] := by
  induction ds generalizing fuel s past with
  | nil =>
      obtain ⟨fuel, rfl⟩ : ∃ n, fuel = n + 1 := ⟨fuel - 1, by omega⟩
      exact ⟨s, rfl, rfl, by simpa using h⟩
  | cons e ds ih =>
      obtain ⟨fuel, rfl⟩ : ∃ n, fuel = n + 1 := ⟨fuel - 1, by omega⟩
      obtain ⟨a, deadline⟩ := e
      have hring := h.ring
      rw [entries_append, entries_cons] at hring
      have hnext : s.llist.next (.alarm a) = (entries ds).headD .altAlarmList :=
        (Links.path_append.mp hring.path).2.next_eq
      obtain ⟨s₁, hbody, hrate₁, h₁⟩ := h.step callback
      have hfuel : ds.length < fuel := by simpa using hfuel
      obtain ⟨s₂, hloop, hrate₂, h₂⟩ := ih h₁ hfuel
      refine ⟨s₂, ?_, hrate₂.trans hrate₁, ?_⟩
      · have hfirst : (entries ((a, deadline) :: ds)).headD .altAlarmList = .alarm a := rfl
        rw [hfirst, altTickLoop, hnext, hbody]
        simp only [hloop, Option.map_some]
        by_cases hdue : deadline = now + 1 <;> simp [dueNow, hdue]
      · have hsplit : ((a, deadline) :: ds).filterMap (renew callback (now + 1)) =
            (renew callback (now + 1) (a, deadline)).toList ++
              ds.filterMap (renew callback (now + 1)) := by
          cases hr : renew callback (now + 1) (a, deadline) <;> simp [hr]
        rw [hsplit, ← List.append_assoc]
        exact h₂

/-- **A tick does what the deadlines say.** -/
theorem altTick_spec (callback : α → UInt32) (h : Represents s d)
    (hfuel : d.pending.length < fuel) :
    ∃ s', altTick fuel callback s = some (dueNow (d.now + 1) d.pending, s') ∧
      Represents s' { d with
        now := d.now + 1
        pending := d.pending.filterMap (renew callback (d.now + 1)) } := by
  have hwalk : Walking { s with altNticks := s.altNticks + 1 } d.started d.now [] d.pending := by
    refine ⟨?_, h.ring, by simp, h.due, h.idle⟩
    rw [h.nticks, UInt32.ofNat_add]
    rfl
  obtain ⟨s', hloop, hrate, h'⟩ := altTickLoop_spec callback hwalk hfuel
  have hring := h'.ring
  have hidle := h'.idle
  rw [List.append_nil, List.nil_append] at hring hidle
  refine ⟨s', ?_, h'.nticks, hrate.trans h.rate, hring, fun e he => h'.past_due e he, hidle, ?_⟩
  · rw [altTick, h.ring.path.next_eq]
    exact hloop
  · intro hne
    refine h.rated fun hnil => hne ?_
    rw [hnil, List.filterMap_nil]

/-! ### Starting and stopping -/

/-- **A started alarm gets its deadline.** -/
theorem altAlarmStart_spec {n : UInt32} (h : Represents s d) (hrate : d.rate ≠ 0)
    (hnew : a ∉ d.pending.map Prod.fst) (hn : n ≠ 0xffffffff) :
    ∃ s', altAlarmStart (some a) n s = (.ok, s') ∧
      Represents s' { d with
        started := a :: d.started
        pending := (a, d.now + n.toNat + 1) :: d.pending } := by
  have hout : AlarmEntry.alarm a ∉ AlarmEntry.altAlarmList :: entries d.pending := by
    simpa [entries] using hnew
  have hrun : altAlarmStart (some a) n s =
      (.ok, { s.setAlarm a (Muxponder.altAlarmStart n s.altNticks) with
        llist := s.llist.insert .altAlarmList (.alarm a) }) := if_pos (by rwa [h.rate])
  refine ⟨_, hrun, h.nticks, h.rate, ?_, ?_, ?_, ?_⟩
  · exact h.ring.insert hout
  · intro e he
    rcases List.mem_cons.mp he with rfl | he
    · rw [setAlarm_self, h.nticks]
      exact dueAt_start hn
    · have hne : e.1 ≠ a := fun heq => hnew (heq ▸ List.mem_map_of_mem he)
      rw [setAlarm_of_ne hne]
      exact h.due e he
  · intro b hb hnot
    rw [List.map_cons, List.mem_cons, not_or] at hnot
    obtain ⟨hba, hnot⟩ := hnot
    have hb : b ∈ d.started := (List.mem_cons.mp hb).resolve_left hba
    obtain ⟨hn, hp⟩ := h.idle b hb hnot
    have hframe : AlarmEntry.alarm b ∉ AlarmEntry.altAlarmList :: entries d.pending := by
      simpa [entries] using hnot
    have hne : AlarmEntry.alarm b ≠ .alarm a := fun heq => hba (AlarmEntry.alarm.inj heq)
    obtain ⟨hn', hp'⟩ := h.ring.insert_frame hne hframe
    exact ⟨hn'.trans hn, hp'.trans hp⟩
  · exact fun _ => hrate

/-- **A stopped alarm has none.** One that is not pending is not in the list, and stopping it
changes nothing. -/
theorem altAlarmStop_spec (h : Represents s d) (hstarted : a ∈ d.started) :
    Represents (altAlarmStop a s) { d with pending := d.pending.filter fun e => e.1 ≠ a } := by
  by_cases hp : a ∈ d.pending.map Prod.fst
  · obtain ⟨e, he, rfl⟩ := List.mem_map.mp hp
    obtain ⟨front, back, hsplit⟩ := List.append_of_mem he
    have hnodup := nodup_of_ring h.ring
    have hring := h.ring
    rw [hsplit, entries_append, entries_cons] at hring
    rw [hsplit, List.map_append, List.map_cons] at hnodup
    obtain ⟨-, hnodup, hdisjoint⟩ := List.nodup_append.mp hnodup
    have hfilter : d.pending.filter (fun x => x.1 ≠ e.1) = front ++ back := by
      have hfront : ∀ x ∈ front, x.1 ≠ e.1 := fun x hx =>
        hdisjoint x.1 (List.mem_map_of_mem hx) e.1 List.mem_cons_self
      have hback : ∀ x ∈ back, x.1 ≠ e.1 := by
        intro x hx heq
        have hmem : x.1 ∈ back.map Prod.fst := List.mem_map_of_mem hx
        exact (List.nodup_cons.mp hnodup).1 (heq ▸ hmem)
      rw [hsplit, List.filter_append, List.filter_cons_of_neg (by simp),
        List.filter_eq_self.mpr (by simpa using hfront),
        List.filter_eq_self.mpr (by simpa using hback)]
    obtain ⟨hring', hself⟩ := hring.remove
    refine ⟨h.nticks, h.rate, ?_, ?_, ?_, ?_⟩
    · rw [hfilter, entries_append]
      exact hring'
    · intro x hx
      exact h.due x (List.mem_of_mem_filter hx)
    · intro b hb hnot
      by_cases hba : b = e.1
      · subst hba
        exact hself
      · have hnot : b ∉ d.pending.map Prod.fst := by
          intro hin
          obtain ⟨x, hx, rfl⟩ := List.mem_map.mp hin
          exact hnot (List.mem_map_of_mem (List.mem_filter.mpr ⟨hx, by simpa using hba⟩))
        obtain ⟨hn, hp⟩ := h.idle b hb hnot
        have hframe : AlarmEntry.alarm b ∉
            AlarmEntry.altAlarmList :: (entries front ++ .alarm e.1 :: entries back) := by
          rw [hsplit] at hnot
          simpa [entries] using hnot
        obtain ⟨hn', hp'⟩ := hring.remove_frame hframe
        exact ⟨hn'.trans hn, hp'.trans hp⟩
    · exact fun _ => h.rated (List.ne_nil_of_mem he)
  · have hfilter : d.pending.filter (fun x => x.1 ≠ a) = d.pending := by
      refine List.filter_eq_self.mpr fun x hx => ?_
      have hne : x.1 ≠ a := fun heq => hp (heq ▸ List.mem_map_of_mem hx)
      simpa using hne
    rw [altAlarmStop, Links.remove_self (h.idle a hstarted hp), hfilter]
    exact h

/-! ### Runs -/

variable {h : List (AlarmCall α × AlarmReply α)}

/-- **Each step of the deadlines is one of the alarms.** -/
theorem represents_step {c : AlarmCall α} {o : AlarmReply α} (h : Represents s d)
    (hstep : scheduleMachine.step d c = some (d', o)) (hfuel : d.pending.length < fuel) :
    ∃ s', (alarmMachine fuel).step s c = some (s', o) ∧ Represents s' d' ∧
      d'.pending.length ≤ d.pending.length + 1 := by
  cases c with
  | sysclkInit nticks =>
      simp only [scheduleMachine] at hstep
      by_cases hrate : d.rate = 0
      · rw [if_pos hrate] at hstep
        cases hstep
        refine ⟨{ s with altTickRate := nticks }, ?_,
          ⟨h.nticks, rfl, h.ring, h.due, h.idle, fun hne => absurd hrate (h.rated hne)⟩,
          Nat.le_succ _⟩
        simp [alarmMachine, altSysclkInit, h.rate, hrate]
      · rw [if_neg hrate] at hstep
        cases hstep
        refine ⟨s, ?_, h, Nat.le_succ _⟩
        simp [alarmMachine, altSysclkInit, h.rate, hrate]
  | start alarm n =>
      simp only [scheduleMachine] at hstep
      by_cases hrate : d.rate = 0
      · rw [if_neg (not_not.mpr hrate)] at hstep
        cases hstep
        refine ⟨s, ?_, h, Nat.le_succ _⟩
        simp [alarmMachine, altAlarmStart, h.rate, hrate]
      · rw [if_pos hrate] at hstep
        cases alarm with
        | none =>
            cases hstep
            refine ⟨s, ?_, h, Nat.le_succ _⟩
            simp [alarmMachine, altAlarmStart, h.rate, hrate]
        | some a =>
            simp only at hstep
            split at hstep
            · next hallowed =>
                cases hstep
                obtain ⟨s', hstart, h'⟩ := altAlarmStart_spec h hrate hallowed.1 hallowed.2
                refine ⟨s', ?_, h', le_rfl⟩
                simp only [alarmMachine, hstart]
            · cases hstep
  | stop alarm =>
      simp only [scheduleMachine] at hstep
      split at hstep
      · next hstarted =>
          cases hstep
          exact ⟨_, rfl, altAlarmStop_spec h hstarted,
            (List.length_filter_le _ _).trans (Nat.le_succ _)⟩
      · cases hstep
  | tick callback =>
      cases hstep
      obtain ⟨s', htick, h'⟩ := altTick_spec callback h hfuel
      refine ⟨s', ?_, h', (List.length_filterMap_le _ _).trans (Nat.le_succ _)⟩
      simp only [alarmMachine, htick, Option.map_some]

/-- Every run of the deadlines is one of the alarms. -/
theorem represents_history (h₀ : AtReset s) (hr : scheduleMachine.Run Schedule.atReset h d)
    (hfuel : h.length < fuel) :
    ∃ s', (alarmMachine fuel).Run s h s' ∧ Represents s' d ∧ d.pending.length ≤ h.length := by
  induction hr with
  | nil => exact ⟨s, .nil, represents_atReset h₀, Nat.zero_le _⟩
  | @snoc h d d' c o hr hstep ih =>
      rw [List.length_append, List.length_singleton] at hfuel
      obtain ⟨s₁, hr₁, h₁, hlen⟩ := ih (by omega)
      have hroom : d.pending.length < fuel := by omega
      obtain ⟨s₂, hstep₂, h₂, hlen₂⟩ := represents_step h₁ hstep hroom
      refine ⟨s₂, hr₁.snoc hstep₂, h₂, ?_⟩
      rw [List.length_append, List.length_singleton]
      omega

/-- **The alarms run like the deadlines**: every history of calls that keeps to what they ask for is
one of the program, with the same answers and the same callbacks in the same order, and all its
ticks return. Behind it every alarm has the deadline it should have. -/
theorem represents_run (s : AlarmSystem α) (h₀ : AtReset s)
    (h : List (AlarmCall α × AlarmReply α)) (d : Schedule α)
    (hr : scheduleMachine.Run Schedule.atReset h d) (fuel : ℕ) (hfuel : h.length < fuel) :
    ∃ s', (alarmMachine fuel).Run s h s' ∧ Represents s' d := by
  obtain ⟨s', hrun, h', -⟩ := represents_history h₀ hr hfuel
  exact ⟨s', hrun, h'⟩

end Tick

/-- The alarms of the main program that mark its periods. -/
inductive Heartbeat
  | alarm_10ms
  | alarm_100ms
  | alarm_125ms
  | alarm_1000ms
  | alarm_2000ms
  deriving DecidableEq, Repr

/-- What each is started with, and what its callback returns: `ALT_TICKS_10MS` and so on. -/
def Heartbeat.period : Heartbeat → UInt32
  | .alarm_10ms => 10
  | .alarm_100ms => 100
  | .alarm_125ms => 125
  | .alarm_1000ms => 1000
  | .alarm_2000ms => 2000

/-- The alarms behind a reset. -/
def systemAtReset : AlarmSystem Heartbeat where
  llist := ⟨fun _ => .altAlarmList, fun _ => .altAlarmList⟩
  alarm := fun _ => ⟨0, false⟩
  altNticks := 0
  altTickRate := 0

theorem systemAtReset_atReset : AtReset systemAtReset := ⟨rfl, rfl, rfl, rfl⟩

/-- The start of the first two. -/
def startHeartbeat : List (AlarmCall Heartbeat × AlarmReply Heartbeat) :=
  [(.sysclkInit 1000, ⟨.ok, []⟩), (.start (some .alarm_10ms) 10, ⟨.ok, []⟩),
    (.start (some .alarm_100ms) 100, ⟨.ok, []⟩)]

/-- The deadlines that they have behind it. -/
def heartbeatSchedule : Schedule Heartbeat where
  rate := 1000
  now := 0
  started := [.alarm_100ms, .alarm_10ms]
  pending := [(.alarm_100ms, 101), (.alarm_10ms, 11)]

theorem startHeartbeat_run :
    scheduleMachine.Run Schedule.atReset startHeartbeat heartbeatSchedule :=
  .cons rfl (.cons rfl (.cons rfl .nil))

/-- So they run on the card. -/
theorem represents_run_heartbeat : ∃ s', (alarmMachine 4).Run systemAtReset startHeartbeat s' ∧
    Represents s' heartbeatSchedule :=
  represents_run systemAtReset systemAtReset_atReset startHeartbeat heartbeatSchedule
    startHeartbeat_run 4 (by decide)

/-! ### When an alarm is called -/

/-- The ticks of a history. -/
def ticks (h : List (AlarmCall α × AlarmReply α)) : ℕ := h.countP fun e => e.1.isTick

/-- A call that is not about an alarm, and leaves it to answer with a period. -/
def Leaves (a : α) (p : UInt32) : AlarmCall α → Prop
  | .sysclkInit _ => True
  | .start alarm _ => alarm ≠ some a
  | .stop alarm => alarm ≠ a
  | .tick callback => callback a = p

/-- The deadlines of an alarm that was to be called at one time first, and then periodically. -/
def Periodic (a : α) (first : ℕ) (p : UInt32) (d : Schedule α) : Prop :=
  ∀ D, (a, D) ∈ d.pending ↔
    d.now < D ∧ first ≤ D ∧ p.toNat ∣ D - first ∧ (D = first ∨ D ≤ d.now + p.toNat)

section Calls

variable {s s' : AlarmSystem α} {d d' : Schedule α} {ds : List (α × ℕ)} {a : α}
  {callback : α → UInt32} {h : List (AlarmCall α × AlarmReply α)} {first t D fuel : ℕ} {p : UInt32}

theorem mem_dueNow : a ∈ dueNow t ds ↔ (a, t) ∈ ds := by
  simp [dueNow]

/-- Where a deadline comes from. -/
theorem mem_renew : (a, D) ∈ ds.filterMap (renew callback t) ↔
    ((a, D) ∈ ds ∧ D ≠ t) ∨ ((a, t) ∈ ds ∧ callback a ≠ 0 ∧ D = t + (callback a).toNat) := by
  rw [List.mem_filterMap]
  constructor
  · rintro ⟨⟨b, d⟩, hmem, hrenew⟩
    rw [renew] at hrenew
    split at hrenew
    · next hd =>
        obtain rfl : d = t := hd
        split at hrenew
        · cases hrenew
        · next hzero =>
            cases hrenew
            exact .inr ⟨hmem, hzero, rfl⟩
    · next hd =>
        cases hrenew
        exact .inl ⟨hmem, hd⟩
  · rintro (⟨hmem, hd⟩ | ⟨hmem, hzero, rfl⟩)
    · exact ⟨_, hmem, if_neg hd⟩
    · refine ⟨_, hmem, ?_⟩
      rw [renew, if_pos rfl, if_neg hzero]

/-- A periodic alarm is called at the ticks that it should be called at. -/
theorem Periodic.called_iff (h : Periodic a first p d) :
    a ∈ dueNow (d.now + 1) d.pending ↔ first ≤ d.now + 1 ∧ p.toNat ∣ d.now + 1 - first := by
  rw [mem_dueNow, h]
  constructor
  · rintro ⟨-, hle, hdvd, -⟩
    exact ⟨hle, hdvd⟩
  · rintro ⟨hle, hdvd⟩
    refine ⟨by omega, hle, hdvd, ?_⟩
    by_cases hp : p.toNat = 0
    · rw [hp, Nat.zero_dvd] at hdvd
      omega
    · omega

/-- It stays periodic. -/
theorem Periodic.tick (h : Periodic a first p d) (hp : callback a = p) :
    Periodic a first p { d with
      now := d.now + 1
      pending := d.pending.filterMap (renew callback (d.now + 1)) } := by
  have hzero : callback a ≠ 0 ↔ p.toNat ≠ 0 := by
    rw [hp, ne_eq, ← UInt32.toNat_inj, UInt32.toNat_zero]
  intro D
  rw [mem_renew, h, h, hzero, hp]
  constructor
  · rintro (⟨⟨hlt, hle, hdvd, hnear⟩, hne⟩ | ⟨⟨-, hle, hdvd, -⟩, hpos, rfl⟩)
    · exact ⟨by show d.now + 1 < D; omega, hle, hdvd, by show _ ∨ D ≤ d.now + 1 + _; omega⟩
    · refine ⟨by show d.now + 1 < _; omega, by omega, ?_, .inr le_rfl⟩
      have hsum : d.now + 1 + p.toNat - first = d.now + 1 - first + p.toNat := by omega
      rw [hsum]
      exact Nat.dvd_add hdvd (dvd_refl _)
  · rintro ⟨hlt, hle, hdvd, hnear⟩
    replace hlt : d.now + 1 < D := hlt
    replace hnear : D = first ∨ D ≤ d.now + 1 + p.toNat := hnear
    by_cases hold : D = first ∨ D ≤ d.now + p.toNat
    · exact .inl ⟨⟨by omega, hle, hdvd, hold⟩, by omega⟩
    · -- the next period
      have hD : D = d.now + 1 + p.toNat := by omega
      have hperiod : p.toNat ≤ D - first := Nat.le_of_dvd (by omega) hdvd
      have hdvd' : p.toNat ∣ d.now + 1 - first := by
        have hsub : d.now + 1 - first = D - first - p.toNat := by omega
        rw [hsub]
        exact Nat.dvd_sub hdvd (dvd_refl _)
      exact .inr ⟨⟨by omega, by omega, hdvd', by omega⟩, by omega, hD⟩

/-- Calls that are not about it leave it periodic. -/
theorem Periodic.congr (h : Periodic a first p d) (hnow : d'.now = d.now)
    (hpending : ∀ D, (a, D) ∈ d'.pending ↔ (a, D) ∈ d.pending) : Periodic a first p d' := by
  intro D
  rw [hpending, h, hnow]

/-- An alarm that has been started is periodic. -/
theorem periodic_start {n : UInt32} (hnew : a ∉ d.pending.map Prod.fst) :
    Periodic a (d.now + n.toNat + 1) p { d with
      started := a :: d.started
      pending := (a, d.now + n.toNat + 1) :: d.pending } := by
  intro D
  have hout : (a, D) ∉ d.pending := fun hin => hnew (List.mem_map_of_mem hin)
  simp only [List.mem_cons, Prod.mk.injEq, true_and, hout, or_false]
  constructor
  · rintro rfl
    exact ⟨by omega, le_rfl, by simp, .inl rfl⟩
  · rintro ⟨-, hle, hdvd, rfl | hnear⟩
    · rfl
    · by_contra hne
      have hperiod : p.toNat ≤ D - (d.now + n.toNat + 1) := Nat.le_of_dvd (by omega) hdvd
      omega

variable [DecidableEq α]

/-- **What one call makes of a periodic alarm.** -/
theorem Periodic.step {c : AlarmCall α} {o : AlarmReply α} (h : Periodic a first p d)
    (hstep : scheduleMachine.step d c = some (d', o)) (hc : Leaves a p c) :
    Periodic a first p d' ∧ d'.now = d.now + (if c.isTick then 1 else 0) := by
  cases c with
  | sysclkInit nticks =>
      simp only [scheduleMachine] at hstep
      split at hstep <;> cases hstep <;> exact ⟨h.congr rfl fun _ => Iff.rfl, rfl⟩
  | start alarm n =>
      simp only [scheduleMachine] at hstep
      split at hstep
      · cases alarm with
        | none =>
            cases hstep
            exact ⟨h, rfl⟩
        | some b =>
            have hne : a ≠ b := fun heq => hc (heq ▸ rfl)
            simp only at hstep
            split at hstep
            · cases hstep
              exact ⟨h.congr rfl fun D => by simp [hne], rfl⟩
            · cases hstep
      · cases hstep
        exact ⟨h, rfl⟩
  | stop b =>
      have hne : a ≠ b := fun heq => hc heq.symm
      simp only [scheduleMachine] at hstep
      split at hstep
      · cases hstep
        exact ⟨h.congr rfl fun D => by simp [hne], rfl⟩
      · cases hstep
  | tick callback =>
      cases hstep
      exact ⟨h.tick hc, rfl⟩

/-- And what a history makes of it. -/
theorem Periodic.run (h₀ : Periodic a first p d) (hr : scheduleMachine.Run d h d')
    (hleaves : ∀ e ∈ h, Leaves a p e.1) :
    Periodic a first p d' ∧ d'.now = d.now + ticks h := by
  induction hr with
  | nil => exact ⟨h₀, rfl⟩
  | @snoc h d₁ d₂ c o hr hstep ih =>
      obtain ⟨h₁, hnow₁⟩ := ih fun e he => hleaves e (List.mem_append_left _ he)
      obtain ⟨h₂, hnow₂⟩ := h₁.step hstep (hleaves (c, o) (by simp))
      refine ⟨h₂, ?_⟩
      rw [hnow₂, hnow₁, ticks, ticks, List.countP_append, List.countP_singleton, Nat.add_assoc]

/-- **An alarm is called when it asked for it, and only then**: one that was started over `n` ticks,
and whose callback answers with `p`, is called at the tick `n + 1` behind its start and at every
`p`th one behind that, once each, whatever becomes of the others. For `p = 0` there is no other. -/
theorem alarm_called_iff (s : AlarmSystem α) (h₀ : AtReset s)
    (h₁ h₂ : List (AlarmCall α × AlarmReply α)) (a : α) (n p : UInt32) (d : Schedule α)
    (hr : scheduleMachine.Run Schedule.atReset
      (h₁ ++ (.start (some a) n, ⟨.ok, []⟩) :: h₂) d)
    (hleaves : ∀ e ∈ h₂, Leaves a p e.1) (fuel : ℕ)
    (hfuel : (h₁ ++ (.start (some a) n, ⟨.ok, []⟩) :: h₂).length < fuel) :
    ∃ s', (alarmMachine fuel).Run s (h₁ ++ (.start (some a) n, ⟨.ok, []⟩) :: h₂) s' ∧
      ∀ h₃ callback o h₄, h₂ = h₃ ++ (.tick callback, o) :: h₄ →
        o.called.Nodup ∧
          (a ∈ o.called ↔ n.toNat ≤ ticks h₃ ∧ p.toNat ∣ ticks h₃ - n.toNat) := by
  obtain ⟨s', hrun, -, -⟩ := represents_history h₀ hr hfuel
  refine ⟨s', hrun, ?_⟩
  rintro h₃ callback o h₄ rfl
  obtain ⟨d₁, hr₁, hr₂⟩ := hr.split
  obtain ⟨d₂, hstart, hr₂⟩ := hr₂.cons_inv
  obtain ⟨d₃, hr₃, hr₄⟩ := hr₂.split
  obtain ⟨d₄, htick, -⟩ := hr₄.cons_inv
  -- the start
  obtain ⟨hnow, hperiodic⟩ : d₂.now = d₁.now ∧ Periodic a (d₁.now + n.toNat + 1) p d₂ := by
    simp only [scheduleMachine] at hstart
    split at hstart
    · split at hstart
      · next hallowed =>
          cases hstart
          exact ⟨rfl, periodic_start hallowed.1⟩
      · cases hstart
    · cases hstart
  obtain ⟨hperiodic, hnow₃⟩ := hperiodic.run hr₃ fun e he => hleaves e (List.mem_append_left _ he)
  cases htick
  constructor
  · have hlen : (h₁ ++ (AlarmCall.start (some a) n, AlarmReply.mk .ok []) :: h₃).length < fuel := by
      simp only [List.length_append, List.length_cons] at hfuel ⊢
      omega
    obtain ⟨_, -, hheld, -⟩ := represents_history h₀ (hr₁.append (.cons hstart hr₃)) hlen
    have hnodup := nodup_of_ring hheld.ring
    exact hnodup.sublist (List.Sublist.map _ List.filter_sublist)
  · show a ∈ dueNow (d₃.now + 1) d₃.pending ↔ _
    rw [hperiodic.called_iff, hnow₃, hnow]
    have hsub : d₁.now + ticks h₃ + 1 - (d₁.now + n.toNat + 1) = ticks h₃ - n.toNat := by omega
    rw [hsub]
    exact and_congr_left fun _ => by omega

/-- The alarm of ten milliseconds is called at the ticks 11, 21, and so on. -/
theorem alarm_called_iff_heartbeat : ∃ s', (alarmMachine 5).Run systemAtReset
      (startHeartbeat ++ [(.tick Heartbeat.period, ⟨.ok, []⟩)]) s' ∧
    ∀ h₃ callback o h₄,
      [(.start (some .alarm_100ms) 100, ⟨.ok, []⟩), (.tick Heartbeat.period, ⟨.ok, []⟩)] =
          h₃ ++ (.tick callback, o) :: h₄ →
        o.called.Nodup ∧ (Heartbeat.alarm_10ms ∈ o.called ↔
          (10 : UInt32).toNat ≤ ticks h₃ ∧ (10 : UInt32).toNat ∣ ticks h₃ - (10 : UInt32).toNat) :=
  alarm_called_iff systemAtReset systemAtReset_atReset [(.sysclkInit 1000, ⟨.ok, []⟩)]
    [(.start (some .alarm_100ms) 100, ⟨.ok, []⟩), (.tick Heartbeat.period, ⟨.ok, []⟩)]
    .alarm_10ms 10 10 { heartbeatSchedule with now := 1 } (startHeartbeat_run.snoc rfl)
    (by simp [Leaves, Heartbeat.period]) 5 (by decide)

/-! ### An alarm that is started again -/

/-- What the body of the loop does to the list. -/
theorem altTickAlarm_llist (callback : α → UInt32) (a : α) (s : AlarmSystem α) :
    (altTickAlarm callback a s).2.llist = s.llist ∨
    (altTickAlarm callback a s).2.llist = s.llist.remove (.alarm a) := by
  obtain ⟨v, hv⟩ : ∃ v, (if (s.alarm a).rollover = true ∧ s.altNticks = 0 then
      { s.alarm a with rollover := false } else s.alarm a) = v := ⟨_, rfl⟩
  simp only [altTickAlarm, hv]
  split
  · split
    · exact .inr rfl
    · exact .inl rfl
  · exact .inl rfl

/-- A walk does not come out of a cycle that the head is not on. -/
theorem altTickLoop_closed {C : Set (AlarmEntry α)} {x : AlarmEntry α} (hclosed : s.llist.Closed C)
    (hhead : .altAlarmList ∉ C) (hx : x ∈ C) : altTickLoop callback fuel x s = none := by
  induction fuel generalizing s x with
  | zero => rfl
  | succ fuel ih =>
      cases x with
      | altAlarmList => exact absurd hx hhead
      | alarm a =>
          have hnext : s.llist.next (.alarm a) ∈ C := hclosed _ hx
          have hkept : (altTickAlarm callback a s).2.llist.Closed C := by
            rcases altTickAlarm_llist callback a s with heq | heq
            · rwa [heq]
            · rw [heq]
              exact hclosed.remove hx
          rw [altTickLoop, ih hkept hnext, Option.map_none]

/-- **An alarm that is started while it is pending** closes the list into a cycle, so that the next
tick does not return, whatever the callbacks answer. -/
theorem restart_hangs (s : AlarmSystem α) (h₀ : AtReset s)
    (h : List (AlarmCall α × AlarmReply α)) (d : Schedule α)
    (hr : scheduleMachine.Run Schedule.atReset h d) (fuel : ℕ) (hfuel : h.length < fuel) (a : α)
    (hpending : a ∈ d.pending.map Prod.fst) (n : UInt32) :
    ∃ s', (alarmMachine fuel).Run s h s' ∧ (altAlarmStart (some a) n s').1 = .ok ∧
      ∀ fuel' callback, altTick fuel' callback (altAlarmStart (some a) n s').2 = none := by
  obtain ⟨s', hrun, h', -⟩ := represents_history h₀ hr hfuel
  obtain ⟨e, he, rfl⟩ := List.mem_map.mp hpending
  have hrate : s'.altTickRate ≠ 0 := by
    rw [h'.rate]
    exact h'.rated (List.ne_nil_of_mem he)
  obtain ⟨front, back, hsplit⟩ := List.append_of_mem he
  have hring := h'.ring
  rw [hsplit, entries_append, entries_cons] at hring
  obtain ⟨C, hclosed, hhead, hfirst⟩ := hring.insert_again
  have hstart : altAlarmStart (some e.1) n s' =
      (.ok, { s'.setAlarm e.1 (Muxponder.altAlarmStart n s'.altNticks) with
        llist := s'.llist.insert .altAlarmList (.alarm e.1) }) := if_pos hrate
  refine ⟨s', hrun, by rw [hstart], fun fuel' callback => ?_⟩
  rw [hstart]
  exact altTickLoop_closed hclosed hhead hfirst

/-- So it is for the alarm of ten milliseconds. -/
theorem restart_hangs_heartbeat : ∃ s', (alarmMachine 4).Run systemAtReset startHeartbeat s' ∧
    (altAlarmStart (some .alarm_10ms) 10 s').1 = .ok ∧
      ∀ fuel' callback, altTick fuel' callback (altAlarmStart (some .alarm_10ms) 10 s').2 = none :=
  restart_hangs systemAtReset systemAtReset_atReset startHeartbeat heartbeatSchedule
    startHeartbeat_run 4 (by decide) .alarm_10ms (by decide) 10

end Calls

end Muxponder.AlarmService
