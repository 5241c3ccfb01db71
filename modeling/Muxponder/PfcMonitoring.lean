import Muxponder.Lib.Uninterrupted
import Muxponder.PfcLifecycle

/-!
# The Monitoring of Performance Counters

The functions of `ipg_pfc.c` as they are called: a module is initialised, its monitoring is started
and stopped, its period is changed, and in between its callback counts seconds and publishes what
the registers hold. The count of a module stays below its period, since the period is changed while
the alarm is stopped and the count starts over behind that.

The background block errors are published as they are read: their upper part is shifted out of an
`int`, so it is lost.

## Main results

* `pfcGood_run`: the count stays below the period.
* `pfcWellDefined_iff`: the statistics are well defined if and only if the upper part is 0.
* `setPfcMonitorPeriod_atomic`: a change of the period takes place as a whole or not at all.
-/

namespace Muxponder

open Interrupts

/-! ### The functions without interrupts -/

/-- A step without interrupts. -/
abbrev pfcStep (s : PfcState) (o : PfcOp) (w : PfcAns) (s' : PfcState) : Prop := s.act o w = some s'

/-- A module is as asked. -/
abbrev PfcState.Module (s : PfcState) (a : PfcAddr) (A : PerformanceCounters → Prop) : Prop :=
  ∀ m, s.heap a = some m → A m

/-- The count is below the period, and the rate of the blocks is that of `init_pfc_data`. -/
structure PerformanceCounters.Good (m : PerformanceCounters) : Prop where
  elapsed : m.elapsedTimeS < m.monitorPeriodS
  blockPerS : m.blockPerS = 12288000

/-- All modules are good. -/
def PfcState.Good (s : PfcState) : Prop := ∀ a, s.Module a PerformanceCounters.Good

/-- A pointer leads to a module that is as asked, and all others are good. -/
def PfcState.At (s : PfcState) (p : Option PfcAddr) (A : PerformanceCounters → Prop) : Prop :=
  ∀ a, s.Module a fun m => if p = some a then A m else m.Good

variable {s s' : PfcState} {p : Option PfcAddr} {a b : PfcAddr} {o : PfcOp} {f : PfcStore}
  {i : Fin INTERFACE_COUNT} {period : UInt32} {A B : PerformanceCounters → Prop}
  {m : PerformanceCounters} {Q : Unit → PfcState → Prop}

/-- Good modules are good wherever a pointer leads. -/
theorem PfcState.at_good : s.At p PerformanceCounters.Good ↔ s.Good := by
  simp only [PfcState.At, PfcState.Good, ite_self]

theorem PfcState.At.mono (h : s.At p A) (hA : ∀ m, A m → B m) : s.At p B := by
  intro a m hm
  have hm := h a m hm
  split
  next hp => exact hA m (by simpa [hp] using hm)
  next hp => simpa [hp] using hm

/-- A change of the module. -/
theorem PfcState.At.modify {f : PerformanceCounters → PerformanceCounters} (h : s.At (some a) A)
    (hf : ∀ m, A m → B (f m)) : (s.modify a f).At (some a) B := by
  intro b m hm
  simp only [PfcState.modify, Function.update_apply] at hm
  by_cases hb : b = a
  · rw [if_pos hb] at hm
    obtain ⟨m', hm', rfl⟩ := Option.map_eq_some_iff.mp hm
    have hgood : if some a = some a then A m' else m'.Good := h a m' hm'
    rw [if_pos rfl] at hgood
    rw [if_pos (congrArg some hb.symm)]
    exact hf m' hgood
  · rw [if_neg hb] at hm
    have hgood : if some a = some b then A m else m.Good := h b m hm
    have hne : ¬ some a = some b := fun heq => hb (Option.some.inj heq).symm
    rw [if_neg hne] at hgood ⊢
    exact hgood

/-! ### Operations -/

/-- An operation without an answer ends in one state. -/
theorem wp_pfcDo (hact : ∀ w, s.act o w = if w matches .none then some s' else none) :
    (pfcDo o).wp pfcStep Q s ↔ Q () s' := by
  constructor
  · intro h
    exact h .none s' (hact _)
  · intro h w s₁ hs₁
    rw [pfcStep, hact] at hs₁
    split at hs₁
    · obtain rfl := Option.some.inj hs₁
      exact h
    · cases hs₁

theorem wp_store : (pfcDo (.store p f)).wp pfcStep Q s ↔
    Q () (p.elim s fun a => s.modify a (·.store f)) := wp_pfcDo fun w => by cases w <;> rfl

theorem wp_pulseEop : (pfcDo (.pulseEop p)).wp pfcStep Q s ↔ Q () s :=
  wp_pfcDo fun w => by cases w <;> rfl

theorem wp_altAlarmStop : (pfcDo (.altAlarmStop a)).wp pfcStep Q s ↔
    Q () { s with alarms := s.alarms.erase a } := wp_pfcDo fun w => by cases w <;> rfl

theorem wp_writePfc : (pfcDo (.writePfc i p)).wp pfcStep Q s ↔
    Q () { s with pfc := Function.update s.pfc i p } := wp_pfcDo fun w => by cases w <;> rfl

theorem wp_free : (pfcDo (.free a)).wp pfcStep Q s ↔
    Q () { s with heap := Function.update s.heap a none } := wp_pfcDo fun w => by cases w <;> rfl

/-- A store through the pointer. -/
theorem ends_store (h : s.At p A) (hf : ∀ m, A m → B (m.store f)) :
    (pfcDo (.store p f)).wp pfcStep (fun _ s' => s'.At p B) s := by
  refine wp_store.mpr ?_
  cases p with
  | none => exact fun b m hm => h b m hm
  | some a => exact h.modify hf

/-- Its timer state is read. -/
theorem ends_readState {Q : PfcAns → PfcState → Prop}
    (h : ∀ z, (∀ m, s.heap a = some m → z = m.state) → Q (.state z) s) :
    (Prog.op () (.readState a) : PfcProg PfcAns).wp pfcStep Q s := by
  intro w s' hs
  cases w with
  | state z =>
      obtain ⟨hz, heq⟩ := Option.ite_none_right_eq_some.mp hs
      obtain rfl := Option.some.inj heq
      exact h z hz
  | _ => cases hs

/-- Its period is read. -/
theorem ends_readMonitorPeriod {Q : PfcAns → PfcState → Prop}
    (h : ∀ v, (∀ m, s.heap a = some m → v = m.monitorPeriodS) → Q (.word v) s) :
    (Prog.op () (.readMonitorPeriod a) : PfcProg PfcAns).wp pfcStep Q s := by
  intro w s' hs
  cases w with
  | word v =>
      obtain ⟨hv, heq⟩ := Option.ite_none_right_eq_some.mp hs
      obtain rfl := Option.some.inj heq
      exact h v hv
  | _ => cases hs

/-- Its alarm is started. -/
theorem ends_altAlarmStart (h : s.At (some a) A)
    (hA : ∀ m timer, A m → A { m with timer := timer }) :
    (Prog.op () (.altAlarmStart a) : PfcProg PfcAns).wp pfcStep
      (fun _ s' => s'.At (some a) A) s := by
  intro w s' hs
  cases w with
  | started ok =>
      obtain ⟨-, hs⟩ := Option.ite_none_right_eq_some.mp hs
      cases ok with
      | true =>
          obtain rfl := Option.some.inj hs
          exact h.modify fun m hm => hA m _ hm
      | false =>
          obtain rfl := Option.some.inj hs
          exact h
  | _ => cases hs

/-- The pointer of a port is read. -/
theorem ends_readPfc {Q : Option PfcAddr → PfcState → Prop}
    (h : Q (s.pfc i) s) : (readPfc i).wp pfcStep Q s := by
  refine Prog.wp_bind.mpr ?_
  intro w s' hs
  cases w with
  | ptr p =>
      obtain ⟨rfl, heq⟩ := Option.ite_none_right_eq_some.mp hs
      obtain rfl := Option.some.inj heq
      exact h
  | _ => cases hs

/-- The monitoring of a module is stopped. -/
theorem ends_stopModule (h : s.At (some a) A) (hA : ∀ m st, A m → A { m with state := st }) :
    (stopModule a).wp pfcStep (fun _ s' => s'.At (some a) A) s := by
  refine Prog.wp_bind.mpr (ends_readState fun z _ => ?_)
  refine Prog.wp_ite.mpr ⟨fun _ => ?_, fun _ => h⟩
  have hstopped : PfcState.At { s with alarms := s.alarms.erase a } (some a) A := h
  exact Prog.wp_bind.mpr (wp_altAlarmStop.mpr (ends_store hstopped fun m hm => hA m _ hm))

/-- What does not depend on the fields that the start of the monitoring changes. -/
structure Unmonitored (A : PerformanceCounters → Prop) : Prop where
  state : ∀ m st, A m → A { m with state := st }
  timer : ∀ m timer, A m → A { m with timer := timer }

/-- **The monitoring of a module is started**: its count starts over, or it is as it was. -/
theorem ends_startModule (h : s.At (some a) A) (hA : Unmonitored A)
    (hB : ∀ m, A m → B { m with elapsedTimeS := 0 }) :
    (startModule a).wp pfcStep (fun ok s' => s'.At (some a) (if ok then B else A)) s := by
  refine Prog.wp_bind.mpr (Prog.wp_mono (ends_stopModule h hA.state) fun _ s₁ hs₁ => ?_)
  refine Prog.wp_bind.mpr (Prog.wp_mono (ends_altAlarmStart hs₁ hA.timer) fun w s₂ hs₂ => ?_)
  refine Prog.wp_ite.mpr ⟨fun _ => ?_, fun _ => hs₂⟩
  refine Prog.wp_bind.mpr (Prog.wp_mono (ends_store hs₂ fun m hm => hA.state m _ hm) ?_)
  intro _ s₃ hs₃
  exact Prog.wp_bind.mpr (ends_store hs₃ hB)

/-- What is read of the module holds of it. -/
theorem PfcState.At.and (h : s.At (some a) A) (hB : s.Module a B) :
    s.At (some a) fun m => A m ∧ B m := by
  intro b m hm
  have hb : if some a = some b then A m else m.Good := h b m hm
  split
  next heq =>
    obtain rfl := Option.some.inj heq
    rw [if_pos rfl] at hb
    exact ⟨hb, hB m hm⟩
  next heq =>
    rw [if_neg heq] at hb
    exact hb

/-- The alarm and its state do not matter to the count. -/
theorem unmonitored_good : Unmonitored PerformanceCounters.Good :=
  ⟨fun _ _ h => ⟨h.elapsed, h.blockPerS⟩, fun _ _ h => ⟨h.elapsed, h.blockPerS⟩⟩

/-- A count that starts over is below every period. -/
theorem PerformanceCounters.Good.restart (h : m.Good) :
    ({ m with elapsedTimeS := 0 } : PerformanceCounters).Good := by
  refine ⟨?_, h.blockPerS⟩
  have helapsed := UInt32.lt_iff_toNat_lt.mp h.elapsed
  exact UInt32.lt_iff_toNat_lt.mpr (Nat.lt_of_le_of_lt (Nat.zero_le _) helapsed)

/-- The statistics are reset. -/
theorem ends_resetPfcStatistics (h : s.At p A)
    (hA : ∀ m es ses bbe uas, A m → A { m with
      errSecs := es, sevErrSecs := ses, backgroundBlockErr := bbe, unavailableSecs := uas }) :
    (resetPfcStatistics p).wp pfcStep (fun _ s' => s'.At p A) s := by
  refine Prog.wp_bind.mpr (Prog.wp_mono (ends_store h fun m hm => hA m _ _ _ _ hm) ?_)
  intro _ s₁ hs₁
  refine Prog.wp_bind.mpr (Prog.wp_mono (ends_store hs₁ fun m hm => hA m _ _ _ _ hm) ?_)
  intro _ s₂ hs₂
  refine Prog.wp_bind.mpr (Prog.wp_mono (ends_store hs₂ fun m hm => hA m _ _ _ _ hm) ?_)
  intro _ s₃ hs₃
  refine Prog.wp_bind.mpr (Prog.wp_mono (ends_store hs₃ fun m hm => hA m _ _ _ _ hm) ?_)
  intro _ s₄ hs₄
  exact wp_pulseEop.mpr hs₄

/-- **A module is initialised**, whatever was in its block. -/
theorem ends_initPfcModule {base : UInt32} (h : s.At p fun _ => True) :
    (initPfcModule p base).wp pfcStep (fun _ s' => s'.Good) s := by
  refine Prog.wp_bind.mpr (Prog.wp_mono (ends_store (B := fun _ => True) h fun _ hm => hm) ?_)
  intro _ s₁ hs₁
  refine Prog.wp_bind.mpr (Prog.wp_mono (ends_store
    (B := fun m => m.monitorPeriodS = DEF_PFC_PERIOD) hs₁ fun _ _ => rfl) ?_)
  intro _ s₂ hs₂
  refine Prog.wp_bind.mpr (Prog.wp_mono
    (ends_resetPfcStatistics hs₂ fun _ _ _ _ _ hm => hm) ?_)
  intro _ s₃ hs₃
  refine Prog.wp_bind.mpr (Prog.wp_mono (ends_store
    (B := fun m => m.monitorPeriodS = DEF_PFC_PERIOD ∧ m.blockPerS = 12288000) hs₃
    fun _ hm => ⟨hm, rfl⟩) ?_)
  intro _ s₄ hs₄
  refine Prog.wp_bind.mpr (Prog.wp_mono (ends_store
    (B := fun m => m.monitorPeriodS = DEF_PFC_PERIOD ∧ m.blockPerS = 12288000) hs₄
    fun _ hm => hm) ?_)
  intro _ s₅ hs₅
  refine Prog.wp_mono (ends_store (B := PerformanceCounters.Good) hs₅ fun m hm => ⟨?_, hm.2⟩) ?_
  · have hperiod : (m.store (.elapsedTimeS 0)).monitorPeriodS = DEF_PFC_PERIOD := hm.1
    rw [hperiod]
    exact (by decide : (0 : UInt32) < DEF_PFC_PERIOD)
  · intro _ s₆ hs₆
    exact PfcState.at_good.mp hs₆

/-- **A change of the period** keeps the count below it: while the period is changed the alarm is
stopped, and where it cannot be started again the period is put back. -/
theorem ends_setModulePeriod (hperiod : period ≠ 0) (h : s.Good) :
    (setModulePeriod period a).wp pfcStep (fun _ s' => s'.Good) s := by
  have hat : s.At (some a) PerformanceCounters.Good := PfcState.at_good.mpr h
  refine Prog.wp_bind.mpr (Prog.wp_mono (ends_stopModule hat unmonitored_good.state) ?_)
  intro _ s₁ hs₁
  refine Prog.wp_bind.mpr (ends_readMonitorPeriod fun previous hprevious => ?_)
  have hcount := (hs₁.and hprevious).mono
    (B := fun m => m.elapsedTimeS < previous ∧ m.blockPerS = 12288000)
    fun m hm => ⟨hm.2 ▸ hm.1.elapsed, hm.1.blockPerS⟩
  refine Prog.wp_bind.mpr (Prog.wp_mono (ends_store (B := fun m => m.monitorPeriodS = period ∧
    m.elapsedTimeS < previous ∧ m.blockPerS = 12288000) hcount fun m hm => ⟨rfl, hm⟩) ?_)
  intro _ s₂ hs₂
  refine Prog.wp_bind.mpr (Prog.wp_mono (ends_startModule hs₂ ⟨fun _ _ hm => hm, fun _ _ hm => hm⟩
    (B := PerformanceCounters.Good) fun m hm => ⟨?_, hm.2.2⟩) ?_)
  · rw [hm.1, UInt32.lt_iff_toNat_lt]
    exact Nat.pos_of_ne_zero fun h0 => hperiod (UInt32.toNat_inj.mp h0)
  · intro ok s₃ hs₃
    cases ok with
    | true => exact PfcState.at_good.mp hs₃
    | false =>
        exact Prog.wp_mono (ends_store hs₃ fun m hm => ⟨hm.2.1, hm.2.2⟩) fun _ s₄ hs₄ =>
          PfcState.at_good.mp hs₄

/-! ### The commands -/

/-- The base of the registers is read, or computed. -/
theorem ends_pfcBase (h : s.Good) :
    (pfcBase i).wp pfcStep (fun _ s' => s'.Good) s := by
  refine Prog.wp_ite.mpr ⟨fun _ => h, fun _ => Prog.wp_ite.mpr ⟨fun _ => h, fun _ => ?_⟩⟩
  refine Prog.wp_bind.mpr ?_
  intro w s' hs
  cases w with
  | word w =>
      obtain rfl := Option.some.inj hs
      exact h
  | _ => cases hs

/-- A block is allocated: what is in it is not known. -/
theorem ends_malloc (h : s.Good) : (Prog.op () .malloc : PfcProg PfcAns).wp pfcStep
    (fun w s' => s'.At w.toPtr fun _ => True) s := by
  intro w s' hs
  cases w with
  | block block =>
      cases block with
      | none =>
          obtain rfl := Option.some.inj hs
          exact fun a m hm => h a m hm
      | some block =>
          obtain ⟨a, m⟩ := block
          obtain ⟨-, heq⟩ := Option.ite_none_right_eq_some.mp hs
          obtain rfl := Option.some.inj heq
          intro b m' hm'
          by_cases hb : b = a
          · subst hb
            simp [PfcAns.toPtr]
          · have hne : ¬ (PfcAns.block (some (a, m))).toPtr = some b :=
              fun heq => hb (Option.some.inj heq).symm
            rw [if_neg hne]
            exact h b m' (by simpa [Function.update_apply, hb] using hm')
  | _ => cases hs

/-- A block is freed. -/
theorem ends_free (h : s.Good) : (pfcDo (.free a)).wp pfcStep (fun _ s' => s'.Good) s := by
  refine wp_free.mpr fun b m hm => ?_
  by_cases hb : b = a
  · simp [hb] at hm
  · exact h b m (by simpa [Function.update_apply, hb] using hm)

/-- The start and the stop of the monitoring, through any pointer. -/
theorem ends_startPfcMonitoring (h : s.Good) :
    (startPfcMonitoring p).wp pfcStep (fun _ s' => s'.Good) s := by
  cases p with
  | none => exact h
  | some a =>
      refine Prog.wp_mono (ends_startModule (PfcState.at_good.mpr h) unmonitored_good
        fun _ hm => hm.restart) fun ok s' hs' => ?_
      rw [ite_self] at hs'
      exact PfcState.at_good.mp hs'

@[inherit_doc ends_startPfcMonitoring]
theorem ends_stopPfcMonitoring (h : s.Good) :
    (stopPfcMonitoring p).wp pfcStep (fun _ s' => s'.Good) s := by
  cases p with
  | none => exact h
  | some a =>
      exact Prog.wp_mono (ends_stopModule (PfcState.at_good.mpr h) unmonitored_good.state)
        fun _ _ hs' => PfcState.at_good.mp hs'

/-- A module is created and started. -/
theorem ends_createPfcModule (h : s.Good) :
    (createPfcModule i).wp pfcStep (fun _ s' => s'.Good) s := by
  have hrest : ∀ s : PfcState, s.Good → Prog.wp pfcStep (do
      let p ← readPfc i
      pfcDo (.store p (.index (UInt32.ofNat i)))
      let _ ← startPfcMonitoring (← readPfc i)) (fun _ s' => s'.Good) s := by
    intro s hs
    refine Prog.wp_bind.mpr (ends_readPfc ?_)
    refine Prog.wp_bind.mpr (Prog.wp_mono (ends_store (B := PerformanceCounters.Good)
      (PfcState.at_good.mpr hs) fun m hm => ⟨hm.elapsed, hm.blockPerS⟩) fun _ s₁ hs₁ => ?_)
    refine Prog.wp_bind.mpr (ends_readPfc ?_)
    exact Prog.wp_bind.mpr (ends_startPfcMonitoring (PfcState.at_good.mp hs₁))
  refine Prog.wp_bind.mpr (ends_readPfc (Prog.wp_ite.mpr ⟨fun _ => ?_, fun _ => hrest s h⟩))
  refine Prog.wp_bind.mpr (Prog.wp_mono (ends_pfcBase h) fun base s₁ hs₁ => ?_)
  refine Prog.wp_bind.mpr (Prog.wp_bind.mpr (Prog.wp_mono (ends_malloc hs₁) fun w s₂ hs₂ => ?_))
  refine Prog.wp_bind.mpr (Prog.wp_mono (ends_initPfcModule hs₂) fun _ s₃ hs₃ => ?_)
  exact Prog.wp_bind.mpr (wp_writePfc.mpr (hrest _ hs₃))

/-- A module is destroyed. -/
theorem ends_destroyPfcModule (h : s.Good) :
    (destroyPfcModule i).wp pfcStep (fun _ s' => s'.Good) s := by
  refine Prog.wp_bind.mpr (ends_readPfc (Prog.wp_ite.mpr ⟨fun _ => ?_, fun _ => h⟩))
  refine Prog.wp_bind.mpr (ends_readPfc (Prog.wp_bind.mpr ?_))
  refine Prog.wp_mono (ends_stopPfcMonitoring h) fun _ s₁ hs₁ => ?_
  refine Prog.wp_bind.mpr (ends_readPfc (Prog.wp_bind.mpr ?_))
  have hdeinit : ∀ p, (deinitPfc p).wp pfcStep (fun _ s' => s'.Good) s₁ := by
    intro p
    cases p with
    | none => exact hs₁
    | some a => exact ends_free hs₁
  exact Prog.wp_mono (hdeinit _) fun _ s₂ hs₂ => wp_writePfc.mpr hs₂

/-- **Every command** leaves the modules good. -/
theorem ends_pfcMain {c : PfcCommand} (hc : ∀ i period, c = .setPeriod i period → period ≠ 0)
    (h : s.Good) : (pfcMain c).wp pfcStep (fun _ s' => s'.Good) s := by
  cases c with
  | create i => exact ends_createPfcModule h
  | destroy i => exact ends_destroyPfcModule h
  | start i => exact Prog.wp_bind.mpr (ends_readPfc (Prog.wp_bind.mpr (ends_startPfcMonitoring h)))
  | stop i => exact Prog.wp_bind.mpr (ends_readPfc (ends_stopPfcMonitoring h))
  | setPeriod i period =>
      refine Prog.wp_bind.mpr (ends_readPfc ?_)
      cases s.pfc i with
      | none => exact h
      | some a => exact ends_setModulePeriod (hc i period rfl) h

/-! ### The ticks -/

/-- **A second** is counted, or the period is over. -/
theorem PerformanceCounters.Good.isr (h : m.Good) (regs : PfcRegisters) :
    (pfcTimerIsr regs m).Good := by
  have helapsed := UInt32.lt_iff_toNat_lt.mp h.elapsed
  have hperiod := m.monitorPeriodS.toNat_lt
  rw [pfcTimerIsr]
  split
  next => exact h.restart
  next hne =>
    have hcount : (m.elapsedTimeS + 1).toNat = m.elapsedTimeS.toNat + 1 := by
      rw [UInt32.toNat_add]
      exact Nat.mod_eq_of_lt (by change m.elapsedTimeS.toNat + 1 < 2 ^ 32; omega)
    refine ⟨?_, h.blockPerS⟩
    change m.elapsedTimeS + 1 < m.monitorPeriodS
    have hne : (m.elapsedTimeS + 1).toNat ≠ m.monitorPeriodS.toNat :=
      fun heq => hne (UInt32.toNat_inj.mp heq)
    rw [UInt32.lt_iff_toNat_lt]
    omega

/-- A change of a module that keeps it good. -/
theorem PfcState.Good.modify {f : PerformanceCounters → PerformanceCounters} (h : s.Good)
    (hf : ∀ m, m.Good → (f m).Good) : (s.modify a f).Good :=
  PfcState.at_good.mp ((PfcState.at_good.mpr h).modify hf)

/-- An alarm of a tick. -/
theorem PfcState.Good.altTickAlarm (h : s.Good) (regs : UInt32 → PfcRegisters) :
    (s.altTickAlarm regs a).Good := by
  have htimer : ∀ {s : PfcState} timer, s.Good →
      (s.modify a fun m => { m with timer := timer }).Good :=
    fun timer hs => hs.modify fun m hm => unmonitored_good.timer m timer hm
  rw [PfcState.altTickAlarm]
  split
  next => exact h
  next m hm =>
    split
    next timer ht => exact htimer timer h
    next ht =>
      have hisr : (s.modify a (pfcTimerIsr (regs m.base))).Good :=
        h.modify fun _ hm => hm.isr _
      dsimp only
      split
      next => exact hisr
      next => exact htimer _ hisr

/-- **An interrupt** leaves the modules good. -/
theorem PfcState.Good.interrupt (h : s.Good) (e : PfcInterrupt) : (s.interrupt e).1.Good := by
  cases e with
  | tick regs =>
      have hfold : ∀ (as : List PfcAddr) (t : PfcState), t.Good →
          (as.foldl (PfcState.altTickAlarm regs) t).Good := by
        intro as
        induction as with
        | nil => exact fun t ht => ht
        | cons a as ih => exact fun t ht => ih _ (ht.altTickAlarm regs)
      exact hfold _ _ h
  | kursRead i c => exact h
  | altSysclkInit nticks =>
      rw [PfcState.interrupt]
      split
      next => exact h
      next => exact h

/-! ### Runs -/

/-- **The condition on the calls**: the functions are called one after the other, with positive
periods; the ticks come in between. -/
def PfcCalls : Condition PfcState PfcCommand PfcInterrupt PfcSeen Unit PfcOp PfcAns :=
  fun _ _ next e => (∀ x, e = .interrupt x → next = none) ∧
    ∀ i period, e = .start (.setPeriod i period) → period ≠ 0

variable {tickRate nticks : UInt32} {h : PfcHistory} {z : PfcState × PfcProg Unit}

/-- **Behind every call and every tick** the modules are good. -/
theorem pfcGood_run (hr : pfcMachine.Run (pfcInit tickRate nticks, .done ()) h z)
    (hc : pfcSystem.Meets pfcMain (pfcInit tickRate nticks) PfcCalls h)
    (hrest : z.2.head = none) : z.1.Good := by
  have hwp : z.2.wp pfcStep (fun _ s' => s'.Good) z.1 := by
    refine System.wp_invariant (I := PfcState.Good) ?_ ?_ (fun _ _ hm => by cases hm) hr hc
    · intro h s c hcond hgood
      exact ends_pfcMain (fun i period heq => hcond.2 i period (congrArg _ heq)) hgood
    · intro h s next e s' y hcond hint
      obtain ⟨rfl, -⟩ := Prod.mk.inj (Option.some.inj hint)
      exact ⟨hcond.1 e rfl, fun hgood => hgood.interrupt e⟩
  obtain ⟨s, p⟩ := z
  cases p with
  | done _ => exact hwp
  | step place o k => cases hrest

/-! ### The statistics -/

/-- The denominator of the background block error rate. -/
def PerformanceCounters.bberDenominator (m : PerformanceCounters) : UInt64 :=
  (m.monitorPeriodS - m.unavailableSecs - m.sevErrSecs).toUInt64 * m.blockPerS

/-- The denominator of the ratios of errored and severely errored seconds. -/
def PerformanceCounters.ratioDenominator (m : PerformanceCounters) : UInt32 :=
  m.monitorPeriodS - m.unavailableSecs

/-- What the registers of a module hold. -/
structure PfcHardware where
  errSecs : UInt32
  sevErrSecs : UInt32
  perfCnt : BitVec 13
  backgroundBlockErr1 : UInt32
  unavailableSecs : UInt32
  deriving DecidableEq, Repr

/-- The registers as `refresh_pfc_statistics` reads them. `PERF_CNT` is an `int` of 32 bits where
`shl` shifts it by 32, and it is the result of that which is made an `alt_u64`. -/
def PfcHardware.read (hw : PfcHardware) (shl : Int32 → Int32) : PfcRegisters where
  errSecs := hw.errSecs
  sevErrSecs := hw.sevErrSecs
  perfCntShifted := (shl (Int32.ofBitVec (hw.perfCnt.setWidth 32))).toInt64.toUInt64
  backgroundBlockErr1 := hw.backgroundBlockErr1
  unavailableSecs := hw.unavailableSecs

/-- The statistics of a module are well defined, for what its registers hold in the next second. -/
structure PfcWellDefined (shl : Int32 → Int32) (m : PerformanceCounters) (hw : PfcHardware) :
    Prop where
  /-- The count is below the period. -/
  elapsed : m.elapsedTimeS < m.monitorPeriodS
  /-- No denominator is 0, if the hardware has not counted more seconds than there have been. -/
  denominators : hw.unavailableSecs.toNat + hw.sevErrSecs.toNat ≤ (m.elapsedTimeS + 1).toNat →
    m.elapsedTimeS + 1 ≠ m.monitorPeriodS →
    0 < (pfcTimerIsr (hw.read shl) m).bberDenominator ∧
      0 < (pfcTimerIsr (hw.read shl) m).ratioDenominator
  /-- Both parts of the background block errors are published. -/
  backgroundBlockErr : (m.refresh (hw.read shl)).backgroundBlockErr.toNat =
    hw.perfCnt.toNat * 2 ^ 32 + hw.backgroundBlockErr1.toNat

/-- The denominators of a good module are computed without overflow. -/
theorem PerformanceCounters.Good.denominators (h : m.Good)
    (hsum : m.unavailableSecs.toNat + m.sevErrSecs.toNat ≤ m.elapsedTimeS.toNat) :
    m.bberDenominator.toNat =
        (m.monitorPeriodS.toNat - m.unavailableSecs.toNat - m.sevErrSecs.toNat) * 12288000 ∧
      m.ratioDenominator.toNat = m.monitorPeriodS.toNat - m.unavailableSecs.toNat := by
  have helapsed := UInt32.lt_iff_toNat_lt.mp h.elapsed
  have hperiod := m.monitorPeriodS.toNat_lt
  have hratio : m.ratioDenominator.toNat = m.monitorPeriodS.toNat - m.unavailableSecs.toNat :=
    UInt32.toNat_sub_of_le _ _ (UInt32.le_iff_toNat_le.mpr (by omega))
  refine ⟨?_, hratio⟩
  have hseconds : (m.ratioDenominator - m.sevErrSecs).toNat =
      m.monitorPeriodS.toNat - m.unavailableSecs.toNat - m.sevErrSecs.toNat := by
    rw [UInt32.toNat_sub_of_le _ _ (UInt32.le_iff_toNat_le.mpr (by omega)), hratio]
  change ((m.ratioDenominator - m.sevErrSecs).toUInt64 * m.blockPerS).toNat = _
  rw [UInt64.toNat_mul, UInt32.toNat_toUInt64, hseconds, h.blockPerS]
  exact Nat.mod_eq_of_lt (by change _ * 12288000 < 2 ^ 64; omega)

/-- They are positive behind a second in which the statistics are read. -/
theorem PerformanceCounters.Good.denominators_pos (h : m.Good) {regs : PfcRegisters}
    (hsum : regs.unavailableSecs.toNat + regs.sevErrSecs.toNat ≤ (m.elapsedTimeS + 1).toNat)
    (hne : m.elapsedTimeS + 1 ≠ m.monitorPeriodS) :
    0 < (pfcTimerIsr regs m).bberDenominator ∧ 0 < (pfcTimerIsr regs m).ratioDenominator := by
  have hisr : pfcTimerIsr regs m =
      PerformanceCounters.refresh { m with elapsedTimeS := m.elapsedTimeS + 1 } regs := if_neg hne
  have hgood : (pfcTimerIsr regs m).Good := h.isr regs
  rw [hisr] at hgood ⊢
  have helapsed := UInt32.lt_iff_toNat_lt.mp hgood.elapsed
  obtain ⟨hbber, hratio⟩ := hgood.denominators hsum
  change (m.elapsedTimeS + 1).toNat < m.monitorPeriodS.toNat at helapsed
  change _ = (m.monitorPeriodS.toNat - regs.unavailableSecs.toNat - regs.sevErrSecs.toNat) *
    12288000 at hbber
  change _ = m.monitorPeriodS.toNat - regs.unavailableSecs.toNat at hratio
  refine ⟨UInt64.lt_iff_toNat_lt.mpr ?_, UInt32.lt_iff_toNat_lt.mpr ?_⟩
  · rw [hbber]
    change 0 < _
    omega
  · rw [hratio]
    change 0 < _
    omega

/-- The upper half of what an `int` and a register make up is the sign of the `int`. -/
theorem signed_or_div (r : Int32) (low : UInt32) :
    (r.toInt64.toUInt64 ||| low.toUInt64).toNat / 2 ^ 32 =
      if r.toBitVec.msb then 2 ^ 32 - 1 else 0 := by
  have hr : r.toInt64.toUInt64.toNat =
      r.toBitVec.toNat + if r.toBitVec.msb then 2 ^ 64 - 2 ^ 32 else 0 := by
    change r.toInt64.toBitVec.toNat = _
    rw [Int32.toBitVec_toInt64, BitVec.toNat_signExtend, BitVec.toNat_setWidth_of_le (by decide)]
  have hlt : r.toBitVec.toNat < 2 ^ 32 := r.toBitVec.isLt
  rw [UInt64.toNat_or, ← Nat.shiftRight_eq_div_pow, Nat.shiftRight_or_distrib,
    Nat.shiftRight_eq_div_pow, Nat.shiftRight_eq_div_pow, hr, UInt32.toNat_toUInt64,
    Nat.div_eq_of_lt low.toNat_lt, Nat.or_zero]
  split <;> omega

/-- **The upper part is lost**: it is shifted out of the `int`, and what is left of that is a
sign. -/
theorem perfCnt_of_published {shl : Int32 → Int32} {hw : PfcHardware}
    (h : (m.refresh (hw.read shl)).backgroundBlockErr.toNat =
      hw.perfCnt.toNat * 2 ^ 32 + hw.backgroundBlockErr1.toNat) : hw.perfCnt = 0 := by
  have hlow := hw.backgroundBlockErr1.toNat_lt
  have hcnt : hw.perfCnt.toNat < 2 ^ 13 := hw.perfCnt.isLt
  have hdiv := signed_or_div (shl (Int32.ofBitVec (hw.perfCnt.setWidth 32)))
    hw.backgroundBlockErr1
  change (m.refresh (hw.read shl)).backgroundBlockErr.toNat / 2 ^ 32 = _ at hdiv
  have hupper : (hw.perfCnt.toNat * 2 ^ 32 + hw.backgroundBlockErr1.toNat) / 2 ^ 32 =
      hw.perfCnt.toNat := by omega
  rw [h, hupper] at hdiv
  refine BitVec.toNat_inj.mp ?_
  split at hdiv
  next => omega
  next => exact hdiv

/-- Where it is 0, the lower part is all there is to publish. -/
theorem published_of_perfCnt {shl : Int32 → Int32} (hshl : shl 0 = 0) {hw : PfcHardware}
    (h : hw.perfCnt = 0) : (m.refresh (hw.read shl)).backgroundBlockErr.toNat =
      hw.perfCnt.toNat * 2 ^ 32 + hw.backgroundBlockErr1.toNat := by
  have hread : (hw.read shl).perfCntShifted = 0 := by
    change (shl (Int32.ofBitVec (hw.perfCnt.setWidth 32))).toInt64.toUInt64 = 0
    rw [h]
    change (shl 0).toInt64.toUInt64 = 0
    rw [hshl]
    rfl
  change ((hw.read shl).perfCntShifted ||| hw.backgroundBlockErr1.toUInt64).toNat = _
  rw [hread, UInt64.zero_or, UInt32.toNat_toUInt64, h]
  simp

/-- **The statistics** of every module are well defined behind every call and every tick if and only
if the upper part of the background block errors is 0. -/
theorem pfcWellDefined_iff (hr : pfcMachine.Run (pfcInit tickRate nticks, .done ()) h z)
    (hc : pfcSystem.Meets pfcMain (pfcInit tickRate nticks) PfcCalls h) (hrest : z.2.head = none)
    (hm : z.1.heap a = some m) {shl : Int32 → Int32} (hshl : shl 0 = 0) (hw : PfcHardware) :
    PfcWellDefined shl m hw ↔ hw.perfCnt = 0 := by
  have hgood : m.Good := pfcGood_run hr hc hrest a m hm
  constructor
  · intro hdefined
    exact perfCnt_of_published hdefined.backgroundBlockErr
  · intro hcnt
    exact ⟨hgood.elapsed, fun hsum hne => hgood.denominators_pos hsum hne,
      published_of_perfCnt hshl hcnt⟩

/-- A module is created and started. -/
theorem exists_created : ∃ h z m, pfcMachine.Run (pfcInit 1000 0, .done ()) h z ∧
    pfcSystem.Meets pfcMain (pfcInit 1000 0) PfcCalls h ∧ z.2 = .done () ∧
      z.1.pfc 0 = some 4 ∧ z.1.heap 4 = some m ∧ m.state = PFC_TIMER_RUNNING := by
  have hexec : pfcMachine.exec (pfcInit 1000 0, .done ()) createEvents = some (_, _) := rfl
  obtain ⟨h, hr, hfst, -⟩ := Machine.exec_eq_some_iff.mp hexec
  refine ⟨h, _, _, hr, System.Meets.nil.append ?_, rfl, rfl, rfl, rfl⟩
  intro e he _ _ _
  have hmem : e.1 ∈ createEvents := hfst ▸ List.mem_map_of_mem he
  have hcreate : ∀ x ∈ createEvents, (∀ y, x ≠ .interrupt y) ∧
      ∀ i period, x ≠ .start (.setPeriod i period) := by
    simp [createEvents]
  obtain ⟨hnone, hset⟩ := hcreate _ hmem
  exact ⟨fun y hy => absurd hy (hnone y), fun i period hy => absurd hy (hset i period)⟩

/-- So it is of a module that has been created and started. -/
theorem pfcWellDefined_iff_created : ∃ h z m,
    pfcMachine.Run (pfcInit 1000 0, .done ()) h z ∧ m.state = PFC_TIMER_RUNNING ∧
      z.1.heap 4 = some m ∧
      (PfcWellDefined (fun _ => 0) m ⟨2, 1, 0, 7, 0⟩ ↔ (0 : BitVec 13) = 0) := by
  obtain ⟨h, ⟨s, p⟩, m, hr, hc, rfl, -, hm, hrunning⟩ := exists_created
  exact ⟨h, _, m, hr, hrunning, hm, pfcWellDefined_iff hr hc rfl hm rfl ⟨2, 1, 0, 7, 0⟩⟩

/-- The upper part of the errors of such a module is lost, whatever the shift does. -/
theorem upper_part_lost : ∃ h z m, pfcMachine.Run (pfcInit 1000 0, .done ()) h z ∧
    pfcSystem.Meets pfcMain (pfcInit 1000 0) PfcCalls h ∧ z.2.head = none ∧
      z.1.heap 4 = some m ∧ ∀ shl, ¬ PfcWellDefined shl m ⟨2, 1, 1, 7, 0⟩ := by
  obtain ⟨h, ⟨s, p⟩, m, hr, hc, rfl, -, hm, -⟩ := exists_created
  refine ⟨h, _, m, hr, hc, rfl, hm, ?_⟩
  intro shl hdefined
  have hzero := perfCnt_of_published hdefined.backgroundBlockErr
  revert hzero
  decide

/-! ### A failed change of the period -/

/-- A call that is not interrupted takes one state to another. -/
def PfcState.Calls (s : PfcState) (c : PfcCommand) (s' : PfcState) : Prop :=
  ∃ h, pfcMachine.Run (s, .done ()) ((.start c, .started) :: h) (s', .done ()) ∧
    ∀ e ∈ h, ∃ w y, e = (.task w, y)

/-- A change of the period of a module takes place as a whole or not at all. -/
structure PeriodAtomic (a : PfcAddr) (m : PerformanceCounters) (period : UInt32)
    (s s' : PfcState) : Prop where
  /-- The module is left as it was, if the alarm cannot be started. -/
  failed : s.tickRate = 0 → s'.heap a = some m ∧ s'.alarms = s.alarms
  /-- Otherwise it is monitoring with the new period. -/
  changed : s.tickRate ≠ 0 → a ∈ s'.alarms ∧
    ∃ m', s'.heap a = some m' ∧ m'.state = PFC_TIMER_RUNNING ∧ m'.monitorPeriodS = period

/-- Every operation has an answer. -/
theorem pfcAct_total (s : PfcState) (o : PfcOp) : ∃ w s', s.act o w = some s' := by
  cases o with
  | readPfc i => exact ⟨.ptr (s.pfc i), s, if_pos rfl⟩
  | writePfc i p => exact ⟨.none, _, rfl⟩
  | lineBase => exact ⟨.word 0, _, rfl⟩
  | malloc => exact ⟨.block none, _, rfl⟩
  | free a => exact ⟨.none, _, rfl⟩
  | store p f => exact ⟨.none, _, rfl⟩
  | pulseEop p => exact ⟨.none, _, rfl⟩
  | readState a =>
      refine ⟨.state ((s.heap a).elim 0 (·.state)), s, if_pos ?_⟩
      intro m hm
      rw [hm]
      rfl
  | readMonitorPeriod a =>
      refine ⟨.word ((s.heap a).elim 0 (·.monitorPeriodS)), s, if_pos ?_⟩
      intro m hm
      rw [hm]
      rfl
  | altAlarmStart a =>
      cases hrate : decide (s.tickRate ≠ 0) with
      | true => exact ⟨.started true, _, by rw [PfcState.act, if_pos hrate.symm, if_pos rfl]⟩
      | false => exact ⟨.started false, s, by rw [PfcState.act, if_pos hrate.symm]; rfl⟩
  | altAlarmStop a => exact ⟨.none, _, rfl⟩

/-- A call returns. -/
theorem PfcState.exists_calls (s : PfcState) (c : PfcCommand) : ∃ s', s.Calls c s' := by
  have hanswer : ∀ (h : PfcHistory) s (place : Unit) o, ∃ w s', pfcSystem.act s o w = some s' ∧
      anyPfcEvent h s (some (place, o)) (.task w) := by
    intro h s place o
    obtain ⟨w, s', hs⟩ := pfcAct_total s o
    exact ⟨w, s', hs, trivial⟩
  have hstart : anyPfcEvent [] s none (.start c) := trivial
  have hrun : ∃ h s', pfcMachine.Run (s, .done ()) ((.start c, .started) :: h) (s', .done ()) ∧
      pfcSystem.Meets pfcMain s anyPfcEvent ((.start c, .started) :: h) ∧
      ∀ e ∈ h, ∃ w y, e = (.task w, y) := System.exists_run hanswer hstart
  obtain ⟨h, s', hr, -, htask⟩ := hrun
  exact ⟨s', h, hr, htask⟩

/-- It ends as its program does. -/
theorem PfcState.Calls.ends {c : PfcCommand} {Q : PfcState → Prop} (h : s.Calls c s')
    (hwp : (pfcMain c).wp pfcStep (fun _ s' => Q s') s) : Q s' := by
  obtain ⟨h, hr, htask⟩ := h
  have hany : pfcSystem.Meets pfcMain s anyPfcEvent ((.start c, .started) :: h) :=
    fun _ _ _ _ _ _ _ => trivial
  exact System.wp_run (fun _ _ _ _ _ _ _ hs => hs) hr hany htask hwp

/-- What a change of a module makes of it. -/
theorem PfcState.heap_modify {f : PerformanceCounters → PerformanceCounters}
    (hm : s.heap a = some m) : (s.modify a f).heap a = some (f m) := by
  simp [PfcState.modify, hm]

/-- The stop of a module that is not monitoring. -/
theorem ends_stopModule_idle (hm : s.heap a = some m)
    (hidle : m.state ≠ PFC_TIMER_RUNNING) (h : Q () s) : (stopModule a).wp pfcStep Q s := by
  refine Prog.wp_bind.mpr (ends_readState fun z hz => ?_)
  have hne : ¬ (PfcAns.state z).toState = PFC_TIMER_RUNNING := by
    rw [hz m hm]
    exact hidle
  rw [if_neg hne]
  exact h

/-- The stop of one that is. -/
theorem ends_stopModule_running (hm : s.heap a = some m)
    (hrunning : m.state = PFC_TIMER_RUNNING)
    (h : Q () (({ s with alarms := s.alarms.erase a } : PfcState).modify a
      (·.store (.state PFC_TIMER_IDLE)))) : (stopModule a).wp pfcStep Q s := by
  refine Prog.wp_bind.mpr (ends_readState fun z hz => ?_)
  have heq : (PfcAns.state z).toState = PFC_TIMER_RUNNING := by
    rw [hz m hm]
    exact hrunning
  rw [if_pos heq]
  exact Prog.wp_bind.mpr (wp_altAlarmStop.mpr (wp_store.mpr h))

/-- In both cases the module is stopped, and nothing else of it is changed. -/
theorem ends_stopModule_stopped (hm : s.heap a = some m) : (stopModule a).wp pfcStep
    (fun _ s' => s'.tickRate = s.tickRate ∧ ∃ st, st ≠ PFC_TIMER_RUNNING ∧
      s'.heap a = some { m with state := st }) s := by
  by_cases hrunning : m.state = PFC_TIMER_RUNNING
  · refine ends_stopModule_running hm hrunning ⟨rfl, PFC_TIMER_IDLE, by decide, ?_⟩
    exact PfcState.heap_modify hm
  · exact ends_stopModule_idle hm hrunning ⟨rfl, m.state, hrunning, hm⟩

/-- The start of a module that is not monitoring, without a clock, changes nothing. -/
theorem ends_startModule_noClock {Q : Bool → PfcState → Prop} (hm : s.heap a = some m)
    (hidle : m.state ≠ PFC_TIMER_RUNNING) (hrate : s.tickRate = 0) (h : Q false s) :
    (startModule a).wp pfcStep Q s := by
  refine Prog.wp_bind.mpr (ends_stopModule_idle hm hidle (Prog.wp_bind.mpr ?_))
  intro w s' hs
  cases w with
  | started ok =>
      obtain ⟨hok, hs⟩ := Option.ite_none_right_eq_some.mp hs
      obtain rfl : ok = false := by simpa [hrate] using hok
      obtain rfl := Option.some.inj hs
      exact h
  | _ => cases hs

/-- With one it is monitoring behind it, with the period it had. -/
theorem ends_startModule_clock (hm : s.heap a = some m) (hrate : s.tickRate ≠ 0) :
    (startModule a).wp pfcStep (fun ok s' => ok = true ∧ a ∈ s'.alarms ∧
      ∃ m', s'.heap a = some m' ∧ m'.state = PFC_TIMER_RUNNING ∧
        m'.monitorPeriodS = m.monitorPeriodS) s := by
  refine Prog.wp_bind.mpr (Prog.wp_mono (ends_stopModule_stopped hm) ?_)
  rintro _ s₁ ⟨hrate₁, st, -, hm₁⟩
  refine Prog.wp_bind.mpr ?_
  intro w s₂ hs₂
  cases w with
  | started ok =>
      obtain ⟨hok, hs₂⟩ := Option.ite_none_right_eq_some.mp hs₂
      obtain rfl : ok = true := by simpa [hrate₁, hrate] using hok
      obtain rfl := Option.some.inj hs₂
      refine Prog.wp_bind.mpr (wp_store.mpr (Prog.wp_bind.mpr (wp_store.mpr ?_)))
      have hstarted := PfcState.heap_modify
        (f := fun m => { m with timer := altAlarmStart s₁.tickRate s₁.nticks }) hm₁
      let m' : PerformanceCounters :=
        { m with
          state := PFC_TIMER_RUNNING
          timer := altAlarmStart s₁.tickRate s₁.nticks
          elapsedTimeS := 0 }
      refine ⟨rfl, List.mem_cons_self, m', ?_, rfl, rfl⟩
      exact PfcState.heap_modify (PfcState.heap_modify hstarted)
  | _ => cases hs₂

/-- **A change of the period without a clock** is undone, but for the timer state. -/
theorem ends_setPeriod_noClock (hpfc : s.pfc i = some a) (hm : s.heap a = some m)
    (hrate : s.tickRate = 0) : (pfcMain (.setPeriod i period)).wp pfcStep
      (fun _ s' => (∃ st, st ≠ PFC_TIMER_RUNNING ∧ s'.heap a = some { m with state := st }) ∧
        (m.state ≠ PFC_TIMER_RUNNING → s'.heap a = some m ∧ s'.alarms = s.alarms)) s := by
  refine Prog.wp_bind.mpr (ends_readPfc ?_)
  rw [hpfc]
  have hstop : (stopModule a).wp pfcStep (fun _ s' => s'.tickRate = s.tickRate ∧ ∃ st,
      st ≠ PFC_TIMER_RUNNING ∧ s'.heap a = some { m with state := st } ∧
        (m.state ≠ PFC_TIMER_RUNNING → st = m.state ∧ s'.alarms = s.alarms)) s := by
    by_cases hrunning : m.state = PFC_TIMER_RUNNING
    · refine ends_stopModule_running hm hrunning ⟨rfl, PFC_TIMER_IDLE, by decide, ?_, ?_⟩
      · exact PfcState.heap_modify hm
      · exact fun hidle => absurd hrunning hidle
    · exact ends_stopModule_idle hm hrunning ⟨rfl, m.state, hrunning, hm, fun _ => ⟨rfl, rfl⟩⟩
  refine Prog.wp_bind.mpr (Prog.wp_mono hstop ?_)
  rintro _ s₁ ⟨hrate₁, st, hst, hm₁, hkeep⟩
  refine Prog.wp_bind.mpr (ends_readMonitorPeriod fun previous hprevious => ?_)
  have hm₂ := PfcState.heap_modify (f := (·.store (.monitorPeriodS period))) hm₁
  refine Prog.wp_bind.mpr (wp_store.mpr (Prog.wp_bind.mpr ?_))
  refine ends_startModule_noClock hm₂ hst (hrate₁.trans hrate) ?_
  refine wp_store.mpr ?_
  have hback : previous = m.monitorPeriodS := hprevious { m with state := st } hm₁
  subst hback
  have hm₃ : _ = some { m with state := st } :=
    PfcState.heap_modify (f := (·.store (.monitorPeriodS m.monitorPeriodS))) hm₂
  refine ⟨⟨st, hst, hm₃⟩, fun hidle => ?_⟩
  obtain ⟨rfl, halarms⟩ := hkeep hidle
  exact ⟨hm₃, halarms⟩

/-- **With one** the module is monitoring with the new period behind it. -/
theorem ends_setPeriod_clock (hpfc : s.pfc i = some a) (hm : s.heap a = some m)
    (hrate : s.tickRate ≠ 0) : (pfcMain (.setPeriod i period)).wp pfcStep
      (fun _ s' => a ∈ s'.alarms ∧ ∃ m', s'.heap a = some m' ∧
        m'.state = PFC_TIMER_RUNNING ∧ m'.monitorPeriodS = period) s := by
  refine Prog.wp_bind.mpr (ends_readPfc ?_)
  rw [hpfc]
  refine Prog.wp_bind.mpr (Prog.wp_mono (ends_stopModule_stopped hm) ?_)
  rintro _ s₁ ⟨hrate₁, st, -, hm₁⟩
  refine Prog.wp_bind.mpr (ends_readMonitorPeriod fun previous _ => ?_)
  have hm₂ := PfcState.heap_modify (f := (·.store (.monitorPeriodS period))) hm₁
  refine Prog.wp_bind.mpr (wp_store.mpr (Prog.wp_bind.mpr ?_))
  refine Prog.wp_mono (ends_startModule_clock hm₂ (hrate₁.trans_ne hrate)) ?_
  rintro ok s₃ ⟨rfl, harmed, m', hm', hrunning, hperiod⟩
  exact ⟨harmed, m', hm', hrunning, hperiod⟩

/-- **A change of the period** takes place as a whole or not at all, unless the module is monitoring
and there is no clock. No run comes to such a state. -/
theorem setPfcMonitorPeriod_atomic (hpfc : s.pfc i = some a) (hm : s.heap a = some m) :
    ((∀ s', s.Calls (.setPeriod i period) s' → PeriodAtomic a m period s s') ↔
        ¬ (m.state = PFC_TIMER_RUNNING ∧ s.tickRate = 0)) ∧
      ∀ tickRate nticks h, pfcMachine.Run (pfcInit tickRate nticks, .done ()) h (s, .done ()) →
        ∀ s', s.Calls (.setPeriod i period) s' → PeriodAtomic a m period s s' := by
  have hatomic : ¬ (m.state = PFC_TIMER_RUNNING ∧ s.tickRate = 0) →
      ∀ s', s.Calls (.setPeriod i period) s' → PeriodAtomic a m period s s' := by
    intro hcond s' hcall
    refine ⟨fun hrate => ?_, fun hrate => hcall.ends (ends_setPeriod_clock hpfc hm hrate)⟩
    exact (hcall.ends (ends_setPeriod_noClock hpfc hm hrate)).2 fun hrunning =>
      hcond ⟨hrunning, hrate⟩
  refine ⟨⟨?_, hatomic⟩, fun tickRate nticks h hr => hatomic ?_⟩
  · rintro hall ⟨hrunning, hrate⟩
    obtain ⟨s', hcall⟩ := s.exists_calls (.setPeriod i period)
    obtain ⟨st, hst, hm'⟩ := (hcall.ends (ends_setPeriod_noClock hpfc hm hrate)).1
    rw [((hall s' hcall).failed hrate).1] at hm'
    exact hst ((congrArg PerformanceCounters.state (Option.some.inj hm')).symm.trans hrunning)
  · rintro ⟨hrunning, hrate⟩
    have horder := pfcOrder_run hr
    have hstate : s.timerState a = some m.state := by rw [PfcState.timerState, hm]; rfl
    have harmed : a ∈ s.alarms := (horder.armed i a m.state hpfc hstate).mpr hrunning
    exact horder.rate (List.ne_nil_of_mem harmed) hrate

/-- So it does for a module that has been created and started. -/
theorem setPfcMonitorPeriod_atomic_created : ∃ s s' m, s.pfc 0 = some 4 ∧ s.heap 4 = some m ∧
    m.state = PFC_TIMER_RUNNING ∧ s.Calls (.setPeriod 0 10) s' ∧ PeriodAtomic 4 m 10 s s' := by
  obtain ⟨h, ⟨s, p⟩, m, hr, -, rfl, hpfc, hm, hrunning⟩ := exists_created
  obtain ⟨s', hcall⟩ := s.exists_calls (.setPeriod 0 10)
  exact ⟨s, s', m, hpfc, hm, hrunning, hcall,
    (setPfcMonitorPeriod_atomic hpfc hm).2 1000 0 h hr s' hcall⟩

/-- Without a clock a module that is monitoring is stopped. -/
theorem failed_change_stops : ∃ s s' m, s.pfc 0 = some 4 ∧ s.heap 4 = some m ∧
    s.Calls (.setPeriod 0 10) s' ∧ ¬ PeriodAtomic 4 m 10 s s' := by
  let s : PfcState :=
    { heap := Function.update (fun _ => none) 4 (some strayModule), pfc := fun _ => some 4,
      alarms := [4], tickRate := 0, nticks := 0 }
  obtain ⟨s', hcall⟩ := s.exists_calls (.setPeriod 0 10)
  refine ⟨s, s', strayModule, rfl, rfl, hcall, fun hatomic => ?_⟩
  obtain ⟨st, hst, hm'⟩ := (hcall.ends (ends_setPeriod_noClock (s := s) rfl rfl rfl)).1
  rw [(hatomic.failed rfl).1] at hm'
  exact hst (congrArg PerformanceCounters.state (Option.some.inj hm')).symm

end Muxponder
