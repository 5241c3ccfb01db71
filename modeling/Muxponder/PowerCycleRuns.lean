import Muxponder.KursText
import Muxponder.PowerCycle
import Muxponder.SaveCoherence

/-!
# A Power Cycle at the End of a Run

A unit that has come up serves requests and makes passes of `task_10`. Its hardware has then been
set to what it has stored, but for requests that are pending (`Settled`); so once all have been
applied, it is known which settings a power cycle brings back.

## Main results

* `taskInterface_settled`: a pass keeps what is settled, and leaves nothing pending.
* `CardMemory.Settled.step`, `CardMemory.Reached.settled`: so do requests, and whole runs.
* `settings_comeBack_iff`: when the settings behind a power cycle are those before it.
* `category_lost`: the category of the fifth client is not.
-/

namespace Muxponder

open Memory Interrupts LastWrite

/-! ### An interface that is settled -/

section port

variable {i : Fin INTERFACE_COUNT} {v : PortView} {w : UInt32} {p : Place} {f : PortField}
  {rated : Prop} {done : List Control}

/-- The hardware of an interface has been set to what is stored, but for what is pending, and the
rate where it is asked for. An interface out of service has its transmitter off, or that is
requested. -/
structure PortSettled (i : Fin INTERFACE_COUNT) (rated : Prop) (v : PortView) : Prop where
  tx : v.word (.control .txDisable .change) = 0 →
    v.word (.control .txDisable .current) = if v.txDisable then 1 else 0
  txNext : v.word (.control .txDisable .change) ≠ 0 →
    v.word (.control .txDisable .next) = 0 ∨ v.word (.control .txDisable .next) = 1
  outOfService : v.word (.control .serviceState .change) = 0 →
    v.word (.control .serviceState .current) = IF_SERVICE_STATE_OOS →
      (v.word (.control .txDisable .change) = 0 → v.txDisable = true) ∧
        (v.word (.control .txDisable .change) ≠ 0 → v.word (.control .txDisable .next) = 1)
  loopback : v.word (.control .loopbackMode .change) = 0 →
    ∀ b ∈ loopbackBit i (v.word (.control .loopbackMode .current)), v.serialLoopback = b
  rate : rated → isClient i = true →
    v.rateSelect = topLevelRate (v.word (.control .rate .current)) ∧
      v.rateRx = v.word (.control .rate .current)
  multiRate : v.word .capabilities &&& MULTI_RATE ≠ 0 ↔ isClient i = true

/-- It is settled, and some of its controls are not asked to change. -/
structure PortIdle (i : Fin INTERFACE_COUNT) (rated : Prop) (done : List Control) (v : PortView) :
    Prop where
  settled : PortSettled i rated v
  idle : ∀ c ∈ done, v.word (.control c .change) = 0

/-- The words that it does not depend on. -/
theorem PortIdle.set (h : PortIdle i rated done v)
    (hf : f = .control .resetCounters .change ∧ .resetCounters ∉ done ∨
      f = .rebootChange ∨ f = .monitor ∨ f = .monitorRate ∨ f = .control .rate .next) :
    PortIdle i rated done (v.set f w) := by
  obtain ⟨⟨htx, htxNext, hoos, hloopback, hrate, hmulti⟩, hidle⟩ := h
  have hset : ∀ g, g ≠ f → (v.set f w).word g = v.word g := fun g hg => Function.update_of_ne hg ..
  have hidle' : (∀ c ∈ done, .control c .change ≠ f) →
      ∀ c ∈ done, (v.set f w).word (.control c .change) = 0 := fun hne c hc =>
    (hset _ (hne c hc)).trans (hidle c hc)
  rcases hf with ⟨rfl, hreset⟩ | rfl | rfl | rfl | rfl
  · refine ⟨⟨htx, htxNext, hoos, hloopback, hrate, hmulti⟩, hidle' ?_⟩
    rintro c hc ⟨⟩
    exact hreset hc
  all_goals exact ⟨⟨htx, htxNext, hoos, hloopback, hrate, hmulti⟩, hidle' (by simp)⟩

attribute [local simp] PortView.did Prog.wp_ite

/-- **The service state.** -/
theorem servicePart_settled (h : PortIdle i rated [] v) :
    (servicePart i).wp PortView.Step (fun _ => PortIdle i rated [.serviceState]) v := by
  obtain ⟨⟨htx, htxNext, hoos, hloopback, hrate, hmulti⟩, -⟩ := h
  by_cases hchange : v.word (.control .serviceState .change) = 0
  · simp [servicePart, hchange]
    exact ⟨⟨htx, htxNext, hoos, hloopback, hrate, hmulti⟩, List.forall_mem_singleton.mpr hchange⟩
  · by_cases hout : v.word (.control .serviceState .next) = IF_SERVICE_STATE_OOS
    · have hone : (1 : UInt32) ≠ 0 := by decide
      simp [servicePart, switchState, stateCases, hchange, hout]
      exact ⟨⟨fun h0 => absurd h0 hone, fun _ => .inr rfl,
        fun _ _ => ⟨fun h0 => absurd h0 hone, fun _ => rfl⟩, hloopback, hrate, hmulti⟩,
        List.forall_mem_singleton.mpr rfl⟩
    · simp [servicePart, switchState, stateCases, hchange, hout]
      have hin : ∀ {q : Prop}, v.word (.control .serviceState .next) = IF_SERVICE_STATE_OOS → q :=
        fun h => absurd h hout
      refine ⟨fun _ => ?_, fun _ => ⟨fun _ => ?_, fun _ => ?_⟩⟩
      · exact ⟨⟨htx, htxNext, fun _ => hin, hloopback, hrate, hmulti⟩,
          List.forall_mem_singleton.mpr rfl⟩
      · exact ⟨⟨htx, htxNext, fun _ => hin, hloopback, hrate, hmulti⟩,
          List.forall_mem_singleton.mpr rfl⟩
      · exact ⟨⟨htx, htxNext, fun _ => hin, hloopback, hrate, hmulti⟩,
          List.forall_mem_singleton.mpr rfl⟩

/-- Setting a rate in the registers and storing it. -/
theorem PortIdle.setRate {rate : UInt32} (h : PortIdle i rated done v) :
    PortIdle i rated done (v.setRate rate) := by
  obtain ⟨⟨htx, htxNext, hoos, hloopback, -, hmulti⟩, hidle⟩ := h
  refine ⟨⟨htx, htxNext, hoos, hloopback, fun _ _ => ⟨rfl, rfl⟩, hmulti⟩, fun c hc => ?_⟩
  exact (Function.update_of_ne (by simp) ..).trans (hidle c hc)

/-- **The loopback mode.** -/
theorem loopbackPart_settled (h : PortIdle i rated [.serviceState] v) :
    (loopbackPart i).wp PortView.Step
      (fun _ => PortIdle i rated [.serviceState, .loopbackMode]) v := by
  have hbit : ∀ mode, ∀ b ∈ loopbackBit i mode,
      (loopbackBit i mode).getD v.serialLoopback = b := by
    rintro mode b hb
    rw [hb]
    rfl
  obtain ⟨⟨htx, htxNext, hoos, hloopback, hrate, hmulti⟩, hidle⟩ := h
  have hservice : v.word (.control .serviceState .change) = 0 := hidle _ List.mem_cons_self
  have hswitch : ∀ mode, (switchLoopback i mode).wp PortView.Step
      (fun _ v' => v' = v.looped i mode) v := fun _ => switchLoopback_looped hmulti
  simp only [loopbackPart, setIfPortLoopback, Prog.wp_bind, Prog.wp_ite, wp_readWord, wp_perform,
    wp_writeWord, Prog.wp_pure, PortView.did]
  refine ⟨fun _ => Prog.wp_mono (hswitch _) ?_, fun h0 => ?_⟩
  · rintro _ v' rfl
    rw [PortView.looped]
    dsimp only
    split
    next =>
      exact ⟨⟨htx, htxNext, hoos, fun _ => hbit _, fun _ _ => ⟨rfl, rfl⟩, hmulti⟩,
        List.forall_mem_cons.mpr ⟨hservice, List.forall_mem_singleton.mpr rfl⟩⟩
    next =>
      exact ⟨⟨htx, htxNext, hoos, fun _ => hbit _, hrate, hmulti⟩,
        List.forall_mem_cons.mpr ⟨hservice, List.forall_mem_singleton.mpr rfl⟩⟩
  · have hchange : v.word (.control .loopbackMode .change) = 0 := not_not.mp h0
    exact ⟨⟨htx, htxNext, hoos, hloopback, hrate, hmulti⟩,
      List.forall_mem_cons.mpr ⟨hservice, List.forall_mem_singleton.mpr hchange⟩⟩

/-- A bit of the capabilities other than `MULTI_RATE` changes nothing. -/
theorem PortIdle.setCapability : KeepsCapability (PortIdle i rated done) := by
  intro v mask on hmask hmask' h
  obtain ⟨⟨htx, htxNext, hoos, hloopback, hrate, hmulti⟩, hidle⟩ := h
  have hword : (v.setCapability mask on).word .capabilities &&& MULTI_RATE =
      v.word .capabilities &&& MULTI_RATE := capability_multiRate hmask hmask'
  refine ⟨⟨htx, htxNext, hoos, hloopback, hrate, ?_⟩, hidle⟩
  rw [hword]
  exact hmulti

/-- The request for the rate is cleared. -/
theorem PortIdle.rateDone (h : PortIdle i rated [.serviceState, .loopbackMode] v) :
    PortIdle i rated [.serviceState, .loopbackMode, .rate] (v.set (.control .rate .change) 0) := by
  obtain ⟨⟨htx, htxNext, hoos, hloopback, hrate, hmulti⟩, hidle⟩ := h
  refine ⟨⟨htx, htxNext, hoos, hloopback, hrate, hmulti⟩, ?_⟩
  simp only [List.forall_mem_cons] at hidle ⊢
  exact ⟨hidle.1, hidle.2.1, rfl, by simp⟩

/-- The rate that is asked for is the one that has been set. -/
theorem PortIdle.rateStored (h : PortIdle i rated done v)
    (hset : v.word (.control .rate .current) = v.word (.control .rate .next)) :
    PortIdle i rated done (v.set (.control .rate .current) (v.word (.control .rate .next))) := by
  have hsame : v.set (.control .rate .current) (v.word (.control .rate .next)) = v := by
    rw [← hset, PortView.set, Function.update_eq_self]
  rwa [hsame]

/-- **The rate is confirmed**, or not: it has been set. -/
theorem confirmRate_settled (h : PortIdle i rated [.serviceState, .loopbackMode] v)
    (hset : v.word (.control .rate .current) = v.word (.control .rate .next)) :
    (confirmRate i p).wp PortView.Step
      (fun _ => PortIdle i rated [.serviceState, .loopbackMode, .rate]) v := by
  refine Prog.wp_mono (confirmRate_keeps (A := fun v =>
    PortIdle i rated [.serviceState, .loopbackMode] v ∧
      v.word (.control .rate .current) = v.word (.control .rate .next))
    (fun _ _ h => ⟨h.1.set (by simp), h.2⟩) (fun _ h => ⟨?_, h.2⟩)
    (fun _ h => ⟨h.1.rateStored h.2, rfl⟩)
    (fun _ _ _ hmask hmask' h => ⟨h.1.setCapability _ _ _ hmask hmask', h.2⟩) ⟨h, hset⟩) ?_
  · exact ⟨h.1.rateDone.settled, fun c hc => h.1.rateDone.idle c (by simp at hc ⊢; tauto)⟩
  · rintro _ _ ⟨v₁, ⟨h₁, -⟩, rfl⟩
    exact (h₁.set (by simp)).rateDone

/-- **The rate.** -/
theorem ratePart_settled (h : PortIdle i rated [.serviceState, .loopbackMode] v) :
    (ratePart i).wp PortView.Step
      (fun _ => PortIdle i rated [.serviceState, .loopbackMode, .rate]) v := by
  have hmulti := h.settled.multiRate
  by_cases hchange : v.word (.control .rate .change) = 0
  · simp [ratePart, hchange]
    have hidle := h.idle
    refine ⟨h.settled, ?_⟩
    simp only [List.forall_mem_cons] at hidle ⊢
    exact ⟨hidle.1, hidle.2.1, hchange, hidle.2.2⟩
  · cases hclient : isClient i with
    | true =>
        simp [ratePart, hchange, hmulti.mpr hclient, wp_setRate, hmulti, hclient]
        exact confirmRate_settled h.setRate rfl
    | false =>
        have hsingle := not_not.mp (mt hmulti.mp (by simp [hclient]))
        simp [ratePart, hsingle, cancelRequest, hchange]
        exact h.rateDone.set (by simp)

/-- **The transmitter.** -/
theorem txPart_settled (h : PortIdle i rated [.serviceState, .loopbackMode, .rate] v) :
    (txPart i).wp PortView.Step
      (fun _ => PortIdle i rated [.serviceState, .loopbackMode, .rate, .txDisable]) v := by
  obtain ⟨⟨htx, htxNext, hoos, hloopback, hrate, hmulti⟩, hidle⟩ := h
  simp only [List.forall_mem_cons] at hidle
  by_cases hchange : v.word (.control .txDisable .change) = 0
  · simp [txPart, hchange]
    refine ⟨⟨htx, htxNext, hoos, hloopback, hrate, hmulti⟩, ?_⟩
    simp only [List.forall_mem_cons]
    exact ⟨hidle.1, hidle.2.1, hidle.2.2.1, hchange, by simp⟩
  · have hoff : v.word (.control .serviceState .current) = IF_SERVICE_STATE_OOS →
        v.word (.control .txDisable .next) = 1 := fun hout => (hoos hidle.1 hout).2 hchange
    have hone : (1 : UInt32) ≠ 0 := by decide
    rcases htxNext hchange with hnext | hnext
    · have hin : ∀ {q : Prop}, v.word (.control .serviceState .current) = IF_SERVICE_STATE_OOS →
          q := fun hout => absurd ((hnext.symm.trans (hoff hout)).symm) hone
      simp [txPart, hchange, hnext, PortView.set]
      refine ⟨⟨fun _ => rfl, fun h0 => absurd rfl h0, fun _ => hin, hloopback, hrate, hmulti⟩, ?_⟩
      simp only [List.forall_mem_cons]
      exact ⟨hidle.1, hidle.2.1, hidle.2.2.1, rfl, by simp⟩
    · simp [txPart, hchange, hnext, PortView.set]
      refine ⟨⟨fun _ => rfl, fun h0 => absurd rfl h0,
        fun _ _ => ⟨fun _ => rfl, fun h0 => absurd rfl h0⟩, hloopback, hrate, hmulti⟩, ?_⟩
      simp only [List.forall_mem_cons]
      exact ⟨hidle.1, hidle.2.1, hidle.2.2.1, rfl, by simp⟩

/-- **A pass of the task over an interface** keeps it settled, and leaves nothing pending. -/
theorem taskInterface_settled (h : PortSettled i rated v) : (taskInterface i).wp PortView.Step
    (fun _ => PortIdle i rated [.serviceState, .loopbackMode, .rate, .txDisable]) v := by
  simp only [taskInterface, Prog.wp_bind]
  have h : PortIdle i rated [] v := ⟨h, by simp⟩
  refine Prog.wp_mono (resetPart_keeps (fun _ => h.set (by simp)) h) fun _ v₀ h₀ => ?_
  refine Prog.wp_mono (servicePart_settled h₀) fun _ v₁ h₁ => ?_
  refine Prog.wp_mono (loopbackPart_settled h₁) fun _ v₂ h₂ => ?_
  refine Prog.wp_mono (ratePart_settled h₂) fun _ v₃ h₃ => ?_
  exact Prog.wp_mono (txPart_settled h₃) fun _ v₄ h₄ =>
    rebootPart_keeps (fun _ => h₄.set (by simp)) h₄

/-! ### Requests -/

/-- The variables that it depends on whether a unit is settled. -/
def PortField.isSettled : PortField → Bool
  | .control .resetCounters _ => false
  | .control _ _ | .als | .alsControl | .capabilities => true
  | _ => false

/-- The other words do not matter. -/
theorem PortSettled.congr {words : PortField → UInt32} (h : PortSettled i rated v)
    (hwords : ∀ f : PortField, f.isSettled = true → f ≠ .alsControl → words f = v.word f) :
    PortSettled i rated { v with word := words } := by
  have hcontrol : ∀ c p, c ≠ .resetCounters →
      words (.control c p) = v.word (.control c p) := fun c p hc =>
    hwords _ (by cases c <;> first | rfl | exact absurd rfl hc) (by simp)
  obtain ⟨htx, htxNext, hoos, hloopback, hrate, hmulti⟩ := h
  constructor <;> dsimp only
  · rwa [hcontrol _ _ (by simp), hcontrol _ _ (by simp)]
  · rwa [hcontrol _ _ (by simp), hcontrol _ _ (by simp)]
  · rwa [hcontrol _ _ (by simp), hcontrol _ _ (by simp), hcontrol _ _ (by simp),
      hcontrol _ _ (by simp)]
  · rwa [hcontrol _ _ (by simp), hcontrol _ _ (by simp)]
  · rwa [hcontrol _ _ (by simp)]
  · rwa [hwords .capabilities rfl (by simp)]

/-- **A request for a control** leaves its interface settled: it is pending. The transmitter of an
interface out of service is refused. -/
theorem PortSettled.request {q : ControlRequest} {E : KursEnv}
    {words : PortField → Fin INTERFACE_COUNT → UInt32}
    (h : PortSettled i rated { v with word := fun f => words f i })
    (hadmits : q.control = .txDisable →
      words (.control .serviceState .current) q.port ≠ IF_SERVICE_STATE_OOS) :
    PortSettled i rated { v with word := fun f => q.words E words f i } := by
  by_cases hi : i = q.port
  · subst hi
    obtain ⟨htx, htxNext, hoos, hloopback, hrate, hmulti⟩ := h
    cases hc : q.control with
    | resetCounters => exact absurd hc q.control_ne
    | serviceState =>
        constructor <;> simp [ControlRequest.words, hc]
        · exact htx
        · exact htxNext
        · simpa using hloopback
        · exact hrate
        · exact hmulti
    | txDisable =>
        have hout := hadmits hc
        have hasked : q.asked E = 0 ∨ q.asked E = 1 := by
          simp only [ControlRequest.asked, hc]
          split
          · exact .inr rfl
          · exact .inl rfl
        constructor <;> simp [ControlRequest.words, hc]
        · exact hasked
        · exact fun _ hoos' => absurd hoos' hout
        · simpa using hloopback
        · exact hrate
        · exact hmulti
    | loopbackMode =>
        constructor <;> simp [ControlRequest.words, hc]
        · exact htx
        · exact htxNext
        · exact hoos
        · exact hrate
        · exact hmulti
    | rate =>
        constructor <;> simp [ControlRequest.words, hc]
        · exact htx
        · exact htxNext
        · exact hoos
        · simpa using hloopback
        · exact hrate
        · exact hmulti
  · refine h.congr fun f _ _ => ?_
    simp [ControlRequest.words, hi]

end port

section unit

variable {L : Layout}

/-- The row of the ALS mode of an interface. -/
def alsRow (i : Fin INTERFACE_COUNT) : Row :=
  scratchRow (ID_3_CL1_SET_ALS_MODE + ifIndex i) true .enum 245 false

/-- It is one of `section_3`. -/
example : ∀ i, alsRow i ∈ section3 := by decide +kernel

/-- The request for an ALS mode as `HandleKursSetParamValue` carries it out, and whether it is
accepted: the callback sets the mode in the hardware. -/
def CardMemory.setAlsMode (C : CardMemory L) (E : KursEnv) (stray : UInt32) (u : UnitState)
    (i : Fin INTERFACE_COUNT) (value : UInt32) : UnitState × Bool :=
  match storeWord E L (C.param (alsRow i)).toProfileParam value u.card.mem with
  | (true, m) => (⟨{ u.card with mem := m.store8 L.save 1 }, u.als.setMode stray i (value &&& 3)⟩,
      true)
  | (false, m) => ({ u with card.mem := m }, false)

/-- The variables that it depends on whether a unit is settled. -/
def settledVars : Set CardVar := {v | ∃ f : PortField, f.isSettled = true ∧ ∃ i, v = .port f i}

/-- **A step of a unit**: a pass of `task_10`, a set request that is accepted, or what other code
does to other variables. The data type is that of the first client; the identifiers of the others
lead to no interface. -/
inductive CardMemory.UnitStep (C : CardMemory L) (u : UnitState) : UnitState → Prop
  | pass {E : KursEnv} {u' : UnitState} : C.AppliedPass E u u' → C.UnitStep u u'
  | control {E : KursEnv} {q : ControlRequest} : (q.control = .rate → q.port = 0) →
      (C.setRequest E u.card q).2 = true →
      C.UnitStep u { u with card := (C.setRequest E u.card q).1 }
  | als {E : KursEnv} {stray : UInt32} {i : Fin INTERFACE_COUNT} {value : UInt32} :
      (C.setAlsMode E stray u i value).2 = true →
      C.UnitStep u (C.setAlsMode E stray u i value).1
  | stored {E : KursEnv} {k : Fin PROFILE_SECTION_COUNT} {r : Row} {data : List UInt8}
      {size : UInt16} {m : Mem} : r ∈ cardRows k → r.data ∈ storedTexts ++ storedWords →
      setStrValueItem E L (C.param r).toProfileParam data size u.card.mem = some (true, m) →
      C.UnitStep u { u with card.mem := m.store8 L.save 1 }
  | other {m : Mem} : C.Writes settledVarsᶜ u.card.mem m → C.UnitStep u { u with card.mem := m }

/-- **What holds of a unit between two passes.** -/
structure CardMemory.Settled (C : CardMemory L) (u : UnitState) : Prop where
  port : ∀ i, PortSettled i True (C.portView i u.card)
  als : ∀ i, ∀ c ∈ asClient i, ∀ stray,
    u.als.enabledMode c = alsEnabled stray (C.word u.card.mem .alsControl i)
  pointers : C.AlsReady u.card.mem

/-- Nothing is pending that has to do with a setting. -/
def CardMemory.Quiet (C : CardMemory L) (m : Mem) : Prop :=
  ∀ c ∈ [Control.serviceState, .loopbackMode, .rate, .txDisable], ∀ i,
    C.word m (.control c .change) i = 0

variable {C : CardMemory L} {E : KursEnv} {T : DefaultTexts} {heap : Heap} {u u' b b' : UnitState}
  {stray w : UInt32} {i j : Fin INTERFACE_COUNT} {r : Row} {m m' m₁ : Mem}
  {k : Fin PROFILE_SECTION_COUNT} {data : List UInt8} {size : UInt16} {q : ControlRequest}

/-- **Where nothing is pending all requests have been applied.** -/
theorem CardMemory.Settled.applied (h : C.Settled u) (hquiet : C.Quiet u.card.mem) (i) :
    C.Applied u i := by
  obtain ⟨htx, -, hoos, hloopback, hrate, -⟩ := h.port i
  have hidle : ∀ c ∈ [Control.serviceState, .loopbackMode, .rate, .txDisable],
      (C.portView i u.card).word (.control c .change) = 0 := fun c hc => hquiet c hc i
  exact ⟨htx (hidle _ (by simp)), fun hout => (hoos (hidle _ (by simp)) hout).1 (hidle _ (by simp)),
    hloopback (hidle _ (by simp)), hrate trivial, h.als i⟩

/-- What does not depend on a variable that is written. -/
theorem CardMemory.Settled.of_writes (h : C.Settled u)
    (hwrites : C.Writes settledVarsᶜ u.card.mem m) : C.Settled { u with card.mem := m } := by
  have hword : ∀ f : PortField, f.isSettled = true → ∀ i, C.word m f i = C.word u.card.mem f i :=
    fun f hf i => hwrites.load32 (not_not.mpr ⟨f, hf, i, rfl⟩) f.four_le_size
  refine ⟨fun i => (h.port i).congr fun f hf _ => hword f hf i, fun i c hc stray => ?_, fun i => ?_⟩
  · exact (h.als i c hc stray).trans (congrArg (alsEnabled stray) (hword .alsControl rfl i).symm)
  · exact (congrArg (fun w => w + L.alsControl) (hword .als rfl i)).trans (h.pointers i)

/-- A pass leaves the words that are none of the task's. -/
theorem appliedPass_word (hpass : C.AppliedPass E u u') {f : PortField} (hf : f.isTasks = false) :
    C.word u'.card.mem f i = C.word u.card.mem f i := by
  refine (appliedPass_writes hpass).load32 ?_ f.four_le_size
  rintro ⟨g, hg, j, ⟨⟩⟩
  rw [hf] at hg
  cases hg

/-- **A pass leaves nothing pending**, and settled what has been. -/
theorem appliedPass_idle {rated : Prop} (hpass : C.AppliedPass E u u')
    (h : ∀ i, PortSettled i rated (C.portView i u.card)) :
    (∀ i, PortSettled i rated (C.portView i u'.card)) ∧ C.Quiet u'.card.mem := by
  have hports := appliedPass_ports (A := fun i => PortSettled i rated)
    (B := fun i => PortIdle i rated [.serviceState, .loopbackMode, .rate, .txDisable])
    (fun i v => taskInterface_settled) hpass h
  exact ⟨fun i => (hports i).settled, fun c hc i => (hports i).idle c hc⟩

/-- A pass has nothing to do with the ALS. -/
theorem appliedPass_als (hpass : C.AppliedPass E u u')
    (h : ∀ i, ∀ c ∈ asClient i, ∀ stray,
      u.als.enabledMode c = alsEnabled stray (C.word u.card.mem .alsControl i))
    (hpointers : C.AlsReady u.card.mem) :
    (∀ i, ∀ c ∈ asClient i, ∀ stray,
      u'.als.enabledMode c = alsEnabled stray (C.word u'.card.mem .alsControl i)) ∧
      C.AlsReady u'.card.mem := by
  refine ⟨fun i c hc stray => ?_, fun i => ?_⟩
  · rw [hpass.1, appliedPass_word hpass rfl]
    exact h i c hc stray
  · exact (congrArg (fun w => w + L.alsControl) (appliedPass_word (f := .als) hpass rfl)).trans
      (hpointers i)

/-- **A pass leaves the unit settled.** -/
theorem CardMemory.Settled.pass (h : C.Settled u) (hpass : C.AppliedPass E u u') :
    C.Settled u' := by
  obtain ⟨hals, hpointers⟩ := appliedPass_als hpass h.als h.pointers
  exact ⟨(appliedPass_idle hpass h.port).1, hals, hpointers⟩

/-- **The first pass**: what has been asked for at boot is applied. -/
theorem firstPass_settled (hpass : C.AppliedPass E b u)
    (hasked : ∀ i, PortRestored i (C.portView i b.card) 0 (C.portView i b.card))
    (htx : ∀ i, C.word b.card.mem (.control .txDisable .next) i = 0 ∨
      C.word b.card.mem (.control .txDisable .next) i = 1)
    (hset : ∀ i, isClient i = true → RateSet i (C.portView i b.card) 4)
    (hals : ∀ i, ∀ c ∈ asClient i, ∀ stray,
      b.als.enabledMode c = alsEnabled stray (C.word b.card.mem .alsControl i))
    (hpointers : C.AlsReady b.card.mem) : C.Settled u ∧ C.Quiet u.card.mem := by
  obtain ⟨hports, hquiet⟩ : (∀ i, PortSettled i False (C.portView i u.card)) ∧
      C.Quiet u.card.mem := appliedPass_idle hpass fun i => by
    obtain ⟨⟨-, hservice⟩, ⟨-, hloopback, -⟩, -, -, -, -, -, ⟨-, hchange⟩, -, -, hmulti⟩ := hasked i
    exact ⟨fun h0 => absurd h0 hchange, fun _ => htx i, fun h0 => absurd h0 hservice,
      fun h0 => absurd h0 hloopback, False.elim, hmulti⟩
  have hrestored : ∀ i, PortRestored i (C.portView i b.card) 4 (C.portView i u.card) :=
    appliedPass_ports (A := fun i v => PortRestored i (C.portView i b.card) 0 v)
      (fun i v => taskInterface_restored) hpass hasked
  obtain ⟨hals, hpointers⟩ := appliedPass_als hpass hals hpointers
  refine ⟨⟨fun i => ?_, hals, hpointers⟩, hquiet⟩
  obtain ⟨htx, htxNext, hoos, hloopback, -, hmulti⟩ := hports i
  refine ⟨htx, htxNext, hoos, hloopback, fun _ hclient => ?_, hmulti⟩
  rw [(hrestored i).rateCurrent]
  exact (hrestored i).rateSet hclient (hset i hclient)

/-! ### What the requests write -/

/-- A value that the callback takes; it also marks section 3 as changed. -/
theorem profileUsersetValue_accepted (hid : r.paramId ≠ 0)
    (hswitch : usersetSwitch E L (usersetCase r.paramId) w m = (true, m₁)) :
    ∃ m', profileUsersetValue E L (C.param r).toProfileParam w m = (true, m') ∧
      C.Writes {.card .section3Changed} m₁ m' := by
  have hrow : (C.param r).toProfileParam.paramId = r.paramId := rfl
  rw [profileUsersetValue, hrow, if_neg (fun h => hid h.1), kursUsersetValue, hrow, if_neg hid,
    hswitch]
  dsimp only
  split
  next =>
    refine ⟨_, rfl, ?_⟩
    rw [← C.section3Changed_eq]
    exact .store8 rfl (by decide)
  next => exact ⟨m₁, rfl, .refl⟩

/-- A value that it refuses. -/
theorem profileUsersetValue_refuses (hid : r.paramId ≠ 0)
    (hswitch : (usersetSwitch E L (usersetCase r.paramId) w m).1 = false) :
    (profileUsersetValue E L (C.param r).toProfileParam w m).1 = false := by
  have hrow : (C.param r).toProfileParam.paramId = r.paramId := rfl
  rw [profileUsersetValue, hrow, if_neg (fun h => hid h.1), kursUsersetValue, hrow, if_neg hid]
  obtain ⟨m₁, hm₁⟩ : ∃ m₁, usersetSwitch E L (usersetCase r.paramId) w m = (false, m₁) :=
    ⟨_, Prod.ext hswitch rfl⟩
  rw [hm₁]

/-- The row of an ALS mode. -/
theorem usersetCase_alsRow (i : Fin INTERFACE_COUNT) : (alsRow i).paramId ≠ 0 ∧
    usersetCase (alsRow i).paramId = .setAlsMode (ifIndex i) := by
  revert i
  decide +kernel

/-- **A request for an ALS mode** that is accepted. -/
theorem setAlsMode_accepted (hals : C.AlsReady u.card.mem)
    (h : (C.setAlsMode E stray u i w).2 = true) :
    ∃ m, (C.setAlsMode E stray u i w).1 =
        ⟨{ u.card with mem := m }, u.als.setMode stray i (w &&& 3)⟩ ∧
      C.Writes {.card .section3Changed, .card .dummyU32, .card .save}
        (u.card.mem.store32 (C.addr (.port .alsControl i)) (w &&& 3)) m := by
  obtain ⟨hid, hcase⟩ := usersetCase_alsRow i
  have huser : (C.param (alsRow i)).toProfileParam.userSet = true := rfl
  have hpointer : u.card.mem.load32 (L.ofInterface (ifIndex i) L.als) + L.alsControl =
      C.addr (.port .alsControl i) := by
    rw [← C.als_eq]
    exact hals i
  have hswitch : usersetSwitch E L (usersetCase (alsRow i).paramId) w u.card.mem =
      if E.alsSetMode (ifIndex i) (w &&& 3) then
        (true, u.card.mem.store32 (C.addr (.port .alsControl i)) (w &&& 3))
      else (false, u.card.mem) := by
    rw [hcase, usersetSwitch, hpointer]
  rw [CardMemory.setAlsMode, storeWord, if_pos huser] at h ⊢
  cases haccepts : E.alsSetMode (ifIndex i) (w &&& 3) with
  | false =>
      rw [haccepts] at hswitch
      have hrefused := profileUsersetValue_refuses (C := C) hid (congrArg Prod.fst hswitch)
      obtain ⟨m', hm'⟩ : ∃ m', profileUsersetValue E L (C.param (alsRow i)).toProfileParam w
          u.card.mem = (false, m') := ⟨_, Prod.ext hrefused rfl⟩
      rw [hm'] at h
      cases h
  | true =>
      rw [haccepts] at hswitch
      obtain ⟨m', hm', hwrites⟩ := profileUsersetValue_accepted (C := C) hid hswitch
      rw [hm']
      refine ⟨_, rfl, ?_⟩
      have hstore : C.Writes {.card .section3Changed, .card .dummyU32, .card .save} m'
          (m'.store32 (C.addr (.card .dummyU32)) w) := .store32 (by simp) (by decide)
      have hsave : C.Writes {.card .section3Changed, .card .dummyU32, .card .save}
          (m'.store32 (C.addr (.card .dummyU32)) w)
          ((m'.store32 (C.addr (.card .dummyU32)) w).store8 L.save 1) := by
        rw [← C.save_eq]
        exact .store8 (by simp) (by decide)
      exact ((hwrites.mono (by simp)).trans hstore).trans hsave

/-- A variable that is stored and nothing else. -/
def CardVar.isStored : CardVar → Bool
  | .card f =>
      match f with
      | .pid | .serialNumber | .temperatureLimit _ => true
      | _ => false
  | .port f _ =>
      match f with
      | .inInfo | .destination | .inCat | .thresholdMode => true
      | .pin _ | .pout _ | .sfpTemperatureLimit _ | .fecLoadLimit _ => true
      | _ => false

theorem stored_isStored : ∀ v ∈ storedTexts ++ storedWords, v.isStored = true := by
  decide +kernel

/-- It is not what it depends on whether a unit is settled. -/
theorem CardVar.isStored.not_settled {v : CardVar} (hv : v.isStored = true) : v ∉ settledVars := by
  rintro ⟨f, hf, i, rfl⟩
  cases f with
  | control | als | alsControl | capabilities => cases hv
  | _ => cases hf

/-- Neither is a variable there is one of. -/
theorem card_not_settled (f : CardField) : .card f ∉ settledVars := by
  rintro ⟨g, -, i, ⟨⟩⟩

/-- The rows of what is stored and nothing else: texts, and words that have a callback where they
are limits of a power. -/
theorem storedRow_cases (k : Fin PROFILE_SECTION_COUNT) : ∀ r ∈ cardRows k,
    r.data.isStored = true →
      r.type = .str ∧ r.userSet = false ∧ 0 < r.dSize.toNat ∧ r.dSize.toNat ≤ r.data.size.toNat ∨
      (r.type = .u32 ∨ r.type = .float) ∧ 4 ≤ r.data.size.toNat ∧ (r.userSet = true →
        r.paramId ≠ 0 ∧ ∃ j, usersetCase r.paramId = .powerThreshold (ifIndex j)) := by
  revert k
  decide +kernel

/-- **A word of what is stored and nothing else.** -/
theorem storeWord_writes (hdata : r.data.isStored = true)
    (hsize : 4 ≤ r.data.size.toNat)
    (huser : r.userSet = true →
      r.paramId ≠ 0 ∧ ∃ j, usersetCase r.paramId = .powerThreshold (ifIndex j))
    (h : storeWord E L (C.param r).toProfileParam w m = (true, m')) :
    C.Writes settledVarsᶜ m m' := by
  have hstore : ∀ m, C.Writes settledVarsᶜ m (m.store32 (C.addr r.data) w) := fun m =>
    .store32 (CardVar.isStored.not_settled hdata) hsize
  have hrow : (C.param r).toProfileParam.userSet = r.userSet := rfl
  rw [storeWord, hrow] at h
  cases hset : r.userSet with
  | false =>
      rw [hset, if_neg (by decide)] at h
      obtain rfl := (Prod.mk.inj h).2
      exact hstore m
  | true =>
      obtain ⟨hid, j, hcase⟩ := huser hset
      have hswitch : usersetSwitch E L (usersetCase r.paramId) w m =
          (true, m.store32 (C.addr (.port .thresholdMode j)) 1) := by
        rw [hcase, usersetSwitch, C.thresholdMode_eq]
      obtain ⟨m₁, hm₁, hflag⟩ := profileUsersetValue_accepted (C := C) hid hswitch
      rw [hset, if_pos rfl, hm₁] at h
      obtain rfl := (Prod.mk.inj h).2
      have hmode : C.Writes settledVarsᶜ m (m.store32 (C.addr (.port .thresholdMode j)) 1) := by
        refine .store32 ?_ (PortField.four_le_size .thresholdMode)
        rintro ⟨f, hf, i, ⟨⟩⟩
        cases hf
      refine (hmode.trans (hflag.mono ?_)).trans (hstore m₁)
      rintro v rfl
      exact card_not_settled _

/-- A word that has been parsed. -/
theorem storeParsed_accepted {value : Option UInt32}
    (h : storeParsed E L (C.param r).toProfileParam m value = (true, m')) :
    ∃ w, storeWord E L (C.param r).toProfileParam w m = (true, m') := by
  cases value with
  | none => cases h
  | some w =>
      rw [storeParsed] at h
      split at h
      · exact ⟨w, h⟩
      · cases h

/-- **A request for what is stored and nothing else** writes nothing that it depends on whether a
unit is settled. -/
theorem storedRequest_writes (hr : r ∈ cardRows k) (hdata : r.data.isStored = true)
    (h : setStrValueItem E L (C.param r).toProfileParam data size m = some (true, m')) :
    C.Writes settledVarsᶜ m m' := by
  have htype : (C.param r).toProfileParam.type = r.type := rfl
  rw [setStrValueItem, htype] at h
  obtain ⟨hstr, huser, hpos, hsize⟩ | ⟨hword, hsize, huser⟩ := storedRow_cases k r hr hdata
  · have hrow : (C.param r).toProfileParam.userSet = r.userSet := rfl
    rw [hstr] at h
    dsimp only at h
    rw [setText, hrow, huser, if_neg (by decide)] at h
    obtain rfl := (Prod.mk.inj (Option.some.inj h)).2
    intro x hx
    refine copyText_of_le hpos ?_
    have hout : ¬ (x - C.addr r.data).toNat < r.data.size.toNat :=
      hx _ (CardVar.isStored.not_settled hdata)
    exact hsize.trans (Nat.le_of_not_lt hout)
  · obtain ⟨value, hvalue⟩ : ∃ value, storeParsed E L (C.param r).toProfileParam m value =
        (true, m') := by
      rcases hword with hu32 | hfloat
      · rw [hu32] at h
        obtain ⟨value, -, hvalue⟩ := Option.map_eq_some_iff.mp h
        exact ⟨value, hvalue⟩
      · rw [hfloat] at h
        exact ⟨_, Option.some.inj h⟩
    obtain ⟨w, hw⟩ := storeParsed_accepted hvalue
    exact storeWord_writes hdata hsize huser hw

/-! ### Runs -/

/-- A request for a control. -/
theorem CardMemory.Settled.control (h : C.Settled u) (hrate : q.control = .rate → q.port = 0)
    (haccepted : (C.setRequest E u.card q).2 = true) :
    C.Settled { u with card := (C.setRequest E u.card q).1 } := by
  obtain ⟨hadmits, hhw, hwords⟩ := setRequest_spec (C := C) (E := E) (s := u.card) hrate
  rw [haccepted] at hadmits
  simp only [← hadmits, if_true] at hwords
  have hother : ∀ f i, (∀ p, f ≠ .control q.control p) →
      C.word (C.setRequest E u.card q).1.mem f i = C.word u.card.mem f i := by
    intro f i hf
    rw [hwords]
    simp [ControlRequest.words, hf]
  have hview : ∀ i, C.portView i (C.setRequest E u.card q).1 =
      { C.portView i u.card with word := fun f => q.words E (C.word u.card.mem) f i } := by
    intro i
    simp only [CardMemory.portView, hhw, hwords]
  refine ⟨fun i => ?_, fun i c hc stray => ?_, fun i => ?_⟩
  · rw [hview]
    exact (h.port i).request (admits_cases hadmits.symm).2
  · rw [hother .alsControl i (by simp)]
    exact h.als i c hc stray
  · exact (congrArg (fun w => w + L.alsControl) (hother .als i (by simp))).trans (h.pointers i)

/-- The modes that a request can set are the same for all that is undefined. -/
theorem alsEnabled_masked (stray stray' : UInt32) :
    alsEnabled stray (w &&& 3) = alsEnabled stray' (w &&& 3) := by
  have hlt : (w &&& 3).toNat < 4 := by
    rw [UInt32.toNat_and]
    exact Nat.lt_of_le_of_lt Nat.and_le_right (by decide)
  have hcases : w &&& 3 = 0 ∨ w &&& 3 = 1 ∨ w &&& 3 = 2 ∨ w &&& 3 = 3 := by
    simp only [← UInt32.toNat_inj, UInt32.reduceToNat]
    omega
  rcases hcases with h | h | h | h <;> rw [h] <;> rfl

/-- A request for an ALS mode. -/
theorem CardMemory.Settled.alsMode (h : C.Settled u)
    (haccepted : (C.setAlsMode E stray u i w).2 = true) :
    C.Settled (C.setAlsMode E stray u i w).1 := by
  obtain ⟨m, hm, hwrites⟩ := setAlsMode_accepted h.pointers haccepted
  have hrest : ∀ f j, C.word m f j =
      C.word (u.card.mem.store32 (C.addr (.port .alsControl i)) (w &&& 3)) f j := fun f j =>
    hwrites.load32 (by simp) f.four_le_size
  have hword : ∀ f j, C.word m f j =
      if f = .alsControl ∧ j = i then w &&& 3 else C.word u.card.mem f j := fun f j =>
    (hrest f j).trans word_store32
  have hother : ∀ f j, f ≠ .alsControl → C.word m f j = C.word u.card.mem f j := fun f j hf =>
    (hword f j).trans (if_neg fun h => hf h.1)
  rw [hm]
  refine ⟨fun j => ?_, fun j c hc stray' => ?_, fun j => ?_⟩
  · exact (h.port j).congr fun f _ hf => hother f j hf
  · by_cases hij : j = i
    · subst hij
      rw [enabledMode_setMode hc, hword, if_pos ⟨rfl, rfl⟩]
      exact alsEnabled_masked stray stray'
    · rw [enabledMode_setMode_other hc (Ne.symm hij), hword, if_neg fun h => hij h.2]
      exact h.als j c hc stray'
  · exact (congrArg (fun w => w + L.alsControl) (hother .als j (by simp))).trans (h.pointers j)

/-- **A step leaves a unit settled.** -/
theorem CardMemory.Settled.step (h : C.Settled u) (hstep : C.UnitStep u u') : C.Settled u' := by
  cases hstep with
  | pass hpass => exact h.pass hpass
  | control hrate haccepted => exact h.control hrate haccepted
  | als haccepted => exact h.alsMode haccepted
  | stored hr hdata hset =>
      refine h.of_writes ((storedRequest_writes hr (stored_isStored _ hdata) hset).trans ?_)
      rw [← C.save_eq]
      exact .store8 (card_not_settled _) (by decide)
  | other hwrites => exact h.of_writes hwrites

/-- Booting leaves the pointers to the ALS modules alone. -/
theorem bootLoop_pointers {s : UnitState} (hs : C.AlsReady s.card.mem) :
    C.AlsReady ((List.finRange INTERFACE_COUNT).foldl (C.bootUnit stray) s).card.mem := by
  intro i
  have hals : ((List.finRange INTERFACE_COUNT).foldl (C.bootUnit stray) s).card.mem.load32
      (C.addr (.port .als i)) = s.card.mem.load32 (C.addr (.port .als i)) :=
    (bootLoop_card stray s _).1.load32 (by rintro ⟨c, p, j, ⟨⟩⟩) (PortField.four_le_size .als)
  rw [hals]
  exact hs i

/-- The unit behind its first pass, booted with the default preferences. -/
theorem boot_settled (hb : C.Configured b.card.mem)
    (hpass : C.AppliedPass E (C.boot T stray b) u) : C.Settled u ∧ C.Quiet u.card.mem := by
  have hasked : ∀ i, PortAsked i (C.bootView i (C.boot T stray b)).1 ∧
      (C.bootView i (C.boot T stray b)).2 = (asClient i).map fun _ => false := boot_asked hb
  have hdefaults : C.Configured
      ((kursProfileSetDefault T 0xFFFFFFF).foldl C.storeDefault b.card.mem) :=
    defaults_configured hb bootDefaults_fit
  have hpointers : C.AlsReady (C.boot T stray b).card.mem := by
    obtain ⟨m, hm⟩ : ∃ m, m = (kursProfileSetDefault T 0xFFFFFFF).foldl C.storeDefault b.card.mem :=
      ⟨_, rfl⟩
    rw [← hm] at hdefaults
    rw [CardMemory.boot, ← hm]
    exact bootLoop_pointers (s := { b with card.mem := m }) hdefaults.als
  -- the state behind the boot is large, and is not looked at again
  obtain ⟨u₀, hu₀⟩ : ∃ u₀, u₀ = C.boot T stray b := ⟨_, rfl⟩
  rw [← hu₀] at hasked hpointers hpass
  have hword : ∀ i, PortAsked i fun f => C.word u₀.card.mem f i := fun i => (hasked i).1
  have hnone : ∀ i, ¬ RateSet i (C.portView i u₀.card) 0 := fun i => by simp [RateSet]
  have hheld : PORT_RATE_STM1 ∉ heldRates := by decide
  refine firstPass_settled hpass (fun i => ?_) (fun i => .inl (hword i).txNext) (fun i _ => ?_)
    (fun i c hc stray => ?_) hpointers
  · have hcurrent : (C.portView i u₀.card).word (.control .rate .current) ∉ heldRates := by
      rw [show (C.portView i u₀.card).word _ = _ from (hword i).rateCurrent]
      exact hheld
    have hstate : (C.portView i u₀.card).word (.control .serviceState .next) ≠
        IF_SERVICE_STATE_OOS := by
      rw [show (C.portView i u₀.card).word _ = _ from (hword i).serviceNext]
      decide
    exact ⟨⟨rfl, (hword i).serviceChange⟩, ⟨rfl, (hword i).loopbackChange, rfl⟩, rfl,
      fun _ => (hword i).rateNext.trans (hword i).rateCurrent.symm,
      fun _ hclient => iff_of_false ((hword i).rateChange hclient) hcurrent,
      fun _ h => absurd h (hnone i), fun _ _ => ⟨rfl, rfl⟩, ⟨rfl, (hword i).txChange⟩,
      fun h => absurd h hstate, rfl, (hword i).multiRate⟩
  · refine .inr ⟨by decide, ?_⟩
    rw [show (C.portView i u₀.card).word _ = _ from (hword i).rateCurrent]
    exact hheld
  · have henable : (asClient i).map u₀.als.enable = (asClient i).map fun _ => false := (hasked i).2
    rw [hc] at henable
    rw [(hword i).alsControl, alsEnabled, if_pos rfl]
    exact enabledMode_eq_none.mpr (Option.some.inj henable)

/-- The unit behind its first pass, booted with what has been saved. -/
theorem powerUp_settled {record : List UInt8} (h : C.Settled u) (hquiet : C.Quiet u.card.mem)
    (hb : C.Configured b.card.mem)
    (hcommit : commitUserSettings heap u.card.mem C.preferences = some record)
    (hboot : C.powerUp T stray record b = some b')
    (hrates : ∀ i, isClient i = true → C.RateComesBack u.card.mem i)
    (hpass : C.AppliedPass E b' u') : C.Settled u' := by
  obtain ⟨m, hm, hb'⟩ := powerUp_readBack hb hcommit hboot
  have hcontrols := fun i => powerUp_controls (i := i) hm hb'
  have hpointers : C.AlsReady b'.card.mem := by
    rw [hb']
    exact bootLoop_pointers hm.configured.als
  refine (firstPass_settled hpass (fun i => (hcontrols i).1.restored) (fun i => ?_)
    (fun i hclient => (rateSet_powerUp (hcontrols i).1).mpr (hrates i hclient))
    (fun i c hc stray' => ?_) hpointers).1
  · rw [(hcontrols i).1.txNext]
    split
    next => exact .inr rfl
    next =>
      rw [(h.applied hquiet i).tx]
      cases u.card.hw.txDisable i
      · exact .inl rfl
      · exact .inr rfl
  · obtain ⟨hbooted, hmode⟩ := hcontrols i
    rw [hc] at hmode
    have hsame : alsEnabled stray (C.word u.card.mem .alsControl i) =
        alsEnabled stray' (C.word u.card.mem .alsControl i) :=
      (h.als i c hc stray).symm.trans (h.als i c hc stray')
    rw [hbooted.alsControl, ← hsame]
    exact Option.some.inj hmode

/-- **The units that are reached**: a unit boots with the default preferences and makes a pass; it
goes on with passes and requests; and it may be switched off and on where nothing is pending and the
preferences have been saved, with rates that come back. -/
inductive CardMemory.Reached (C : CardMemory L) : UnitState → Prop
  | boot {E : KursEnv} {T : DefaultTexts} {stray : UInt32} {b u : UnitState} :
      C.Configured b.card.mem → C.AppliedPass E (C.boot T stray b) u → C.Reached u
  | step {u u' : UnitState} : C.Reached u → C.UnitStep u u' → C.Reached u'
  | powerCycle {E : KursEnv} {T : DefaultTexts} {heap : Heap} {stray : UInt32}
      {record : List UInt8} {u b b' u' : UnitState} : C.Reached u → C.Quiet u.card.mem →
      C.Configured b.card.mem →
      commitUserSettings heap u.card.mem C.preferences = some record →
      C.powerUp T stray record b = some b' →
      (∀ i, isClient i = true → C.RateComesBack u.card.mem i) → C.AppliedPass E b' u' →
      C.Reached u'

/-- **A unit that is reached is settled.** -/
theorem CardMemory.Reached.settled (h : C.Reached u) : C.Settled u := by
  induction h with
  | boot hb hpass => exact (boot_settled hb hpass).1
  | step _ hstep ih => exact ih.step hstep
  | powerCycle _ hquiet hb hcommit hboot hrates hpass ih =>
      exact powerUp_settled ih hquiet hb hcommit hboot hrates hpass

/-- What has been saved is read at boot. -/
theorem savedUnit_powerUp (C : CardMemory L) (T : DefaultTexts) (heap : Heap) (stray : UInt32)
    (u b : UnitState) : ∃ record b',
      commitUserSettings heap u.card.mem C.preferences = some record ∧
        C.powerUp T stray record b = some b' := by
  have hcommit : commitUserSettings heap u.card.mem C.preferences =
      some (prefsRecord u.card.mem C.preferences) := commitUserSettings_of_fits preferences_fits
  refine ⟨prefsRecord u.card.mem C.preferences, ?_⟩
  rw [CardMemory.powerUp, readBack hcommit]
  exact ⟨_, hcommit, rfl⟩

/-- **The settings behind a power cycle** are those before it exactly where all of them come back:
the category of a client from the fifth on is 0; a loopback mode sets its register, or this comes up
as it was; and a rate is asked for or set along with the loopback mode, or its registers come up as
they were. -/
theorem settings_comeBack_iff (C : CardMemory L) (T : DefaultTexts) (heap : Heap) (E : KursEnv)
    (stray : UInt32) (u b : UnitState) (hu : C.Reached u) (hquiet : C.Quiet u.card.mem)
    (hb : C.Configured b.card.mem) : ∃ record b',
      commitUserSettings heap u.card.mem C.preferences = some record ∧
      C.powerUp T stray record b = some b' ∧
      ∀ u', C.AppliedPass E b' u' →
        (C.settings u' = C.settings u ↔ ∀ i, C.ComesBack u.card.mem u.card.hw b.card.hw i) := by
  obtain ⟨record, b', hcommit, hboot⟩ := savedUnit_powerUp C T heap stray u b
  obtain ⟨m, hm, hb'⟩ := powerUp_readBack hb hcommit hboot
  exact ⟨record, b', hcommit, hboot, fun u' hpass =>
    settings_powerUp (hu.settled.applied hquiet) hm hb' hpass⟩

/-- A pass behind a boot with the default preferences writes nothing else than the task and the boot
do. -/
theorem bootedPass_writes (hpass : C.AppliedPass E (C.boot T stray b) u) :
    C.Writes (taskVars ∪ controlVars)
      ((kursProfileSetDefault T 0xFFFFFFF).foldl C.storeDefault b.card.mem) u.card.mem := by
  obtain ⟨m, hm⟩ : ∃ m, m = (kursProfileSetDefault T 0xFFFFFFF).foldl C.storeDefault b.card.mem :=
    ⟨_, rfl⟩
  have hbootLoop : C.Writes controlVars m (C.boot T stray b).card.mem := by
    rw [CardMemory.boot, ← hm]
    exact (bootLoop_card stray { b with card.mem := m } _).1
  rw [← hm]
  exact (hbootLoop.mono Set.subset_union_right).trans
    ((appliedPass_writes hpass).mono Set.subset_union_left)

end unit

/-! ### A card -/

/-- A unit where the limit of the categories stands in memory. -/
def limitedUnit : UnitState where
  card := { idleCard with
    mem := configuredMemory.store32 (cardMemory.addr (.card .u32MinMax99)) 99 }
  als := ⟨fun _ => false, fun _ => 0⟩

theorem limitedUnit_configured : cardMemory.Configured limitedUnit.card.mem :=
  configured_of_writes configuredMemory_configured
    (Placement.Writes.store32 (v := CardVar.card .u32MinMax99) rfl (by decide)) rfl

/-- A row without a format is of any type. -/
theorem unformatted {t : DataType} : (none : Option Format) ≠ none → t = .float := absurd rfl

/-- The row of the category of a client. -/
def categoryRow (i : Fin INTERFACE_COUNT) : Row :=
  ⟨ID_103_PORT_CL_1_IN_INFO + 2 * ifIndex i + 1, false, false, .u32, 245, .port .inCat i, 4, none,
    some .u32MinMax99, false, none, unformatted⟩

theorem categoryRow_mem : ∀ i ∈ clients, categoryRow i ∈ cardRows 11 := by
  decide +kernel

/-- The limit is none of the defaults. -/
theorem defaults_ne_limit : ∀ st ∈ kursProfileSetDefault emptyTexts 0xFFFFFFF,
    st.1 ≠ .card .u32MinMax99 := by
  decide +kernel

/-- A category is set. -/
theorem setCategory {m : Mem} {i : Fin INTERFACE_COUNT}
    (hlimit : m.load32 (cardMemory.addr (.card .u32MinMax99)) = 99) :
    setStrValueItem alsEnv cardLayout (cardMemory.param (categoryRow i)).toProfileParam
      (CString.ascii "57;8996") 4 m =
        some (true, m.store32 (cardMemory.addr (.port .inCat i)) 57) := by
  have hparsed : strToU32 (CString.ascii "57;8996") = some (some 57) := by decide
  have hwithin : withinLimits alsEnv (cardMemory.param (categoryRow i)).toProfileParam 57 m =
      true := by
    simp [withinLimits, CardMemory.param, categoryRow, hlimit, DataType.lt]
  have htype : (cardMemory.param (categoryRow i)).toProfileParam.type = .u32 := rfl
  rw [setStrValueItem, htype]
  dsimp only
  rw [hparsed, Option.map_some, storeParsed, if_pos hwithin]
  rfl

/-- **A unit boots, and the category of a client is set to 57.** -/
theorem exists_categorized {i : Fin INTERFACE_COUNT} (hi : i ∈ clients) :
    ∃ u, cardMemory.Reached u ∧ cardMemory.Quiet u.card.mem ∧
      (∀ j, cardMemory.word u.card.mem .inCat j = if j = i then 57 else 0) ∧
      ∀ j, cardMemory.word u.card.mem (.control .loopbackMode .current) j = MODE_LB_NORMAL ∧
        cardMemory.word u.card.mem (.control .rate .current) j = PORT_RATE_STM1 := by
  obtain ⟨u, hpass⟩ := appliedPass_exists (C := cardMemory) (E := alsEnv)
    (cardMemory.boot emptyTexts 0 limitedUnit)
  have hreached : cardMemory.Reached u := .boot limitedUnit_configured hpass
  have hquiet := (boot_settled limitedUnit_configured hpass).2
  have hwrites := bootedPass_writes hpass
  have hcategory : ∀ j, cardMemory.word u.card.mem .inCat j = 0 := by
    intro j
    have hdefault : latest (.port .inCat j) (kursProfileSetDefault emptyTexts 0xFFFFFFF) =
        some (.word 0) := by
      rw [kursProfileSetDefault_boot]
      exact latest_append (latest_inCat j)
    have hstored : CardVar.port .inCat j ∈ storedTexts ++ storedWords :=
      List.mem_append_right _ (inCat_stored j)
    exact (hwrites.load32 (stored_not_written _ hstored) (PortField.four_le_size .inCat)).trans
      (defaults_word limitedUnit_configured bootDefaults_fit ⟨rfl, PortField.four_le_size .inCat⟩
        hdefault)
  have hlimit : u.card.mem.load32 (cardMemory.addr (.card .u32MinMax99)) = 99 := by
    have hbooted := hwrites.load32 (u := .card .u32MinMax99)
      (by rintro (⟨f, -, j, ⟨⟩⟩ | ⟨c, p, j, ⟨⟩⟩)) (by decide)
    have hdefaults := (defaults_writes (m := limitedUnit.card.mem) limitedUnit_configured.als
      (bootDefaults_fit (T := emptyTexts))).load32 (u := .card .u32MinMax99)
        (by
          rintro ⟨st, hst, heq⟩
          exact defaults_ne_limit st hst heq.symm) (by decide)
    rw [hbooted, hdefaults]
    exact load32_store32
  have heffective : ∀ j, cardMemory.effective u j =
      settledSettings j ((asClient j).map fun _ => none) := fun j =>
    boot_effective limitedUnit_configured hpass
  have hword : ∀ f j, cardMemory.word ((u.card.mem.store32
      (cardMemory.addr (.port .inCat i)) 57).store8 cardLayout.save 1) f j =
        if f = .inCat ∧ j = i then 57 else cardMemory.word u.card.mem f j := by
    intro f j
    rw [← cardMemory.save_eq, word_store8_card (by decide), word_store32]
  refine ⟨_, hreached.step (.stored (categoryRow_mem i hi) ?_ (setCategory hlimit)), ?_, ?_, ?_⟩
  · exact List.mem_append_right _ (inCat_stored i)
  · intro c hc j
    rw [hword, if_neg (by simp)]
    exact hquiet c hc j
  · intro j
    rw [hword, hcategory]
    simp
  · intro j
    rw [hword, hword, if_neg (by simp), if_neg (by simp)]
    exact ⟨congrArg (fun s => s.loopbackMode.1) (heffective j),
      congrArg PortSettings.rate (heffective j)⟩

/-- What is restored of such a unit: all but the category, maybe. -/
theorem comesBack_defaults {m : Mem} {hw hw₀ : PortHardware} {j : Fin INTERFACE_COUNT}
    (hloopback : cardMemory.word m (.control .loopbackMode .current) j = MODE_LB_NORMAL)
    (hrate : cardMemory.word m (.control .rate .current) j = PORT_RATE_STM1) :
    cardMemory.ComesBack m hw hw₀ j ↔
      (j ∈ clients.drop 4 → cardMemory.word m .inCat j = 0) := by
  refine ⟨CardMemory.ComesBack.category, fun hcategory => ⟨hcategory, fun hnone => ?_,
    fun _ hlost => absurd (.inl ?_) hlost⟩⟩
  · rw [hloopback] at hnone
    cases hnone
  · rw [hrate]
    decide

/-- **The category of the first client comes back.** -/
theorem settings_comeBack_first : ∃ u record b' u', cardMemory.Reached u ∧
    cardMemory.word u.card.mem .inCat 0 = 57 ∧
    commitUserSettings clearedHeap u.card.mem cardMemory.preferences = some record ∧
    cardMemory.powerUp emptyTexts 0 record configuredUnit = some b' ∧
    cardMemory.AppliedPass alsEnv b' u' ∧ cardMemory.settings u' = cardMemory.settings u := by
  obtain ⟨u, hreached, hquiet, hcategory, hdefaults⟩ := exists_categorized (i := 0) (by decide)
  obtain ⟨record, b', hcommit, hboot, hiff⟩ := settings_comeBack_iff cardMemory emptyTexts
    clearedHeap alsEnv 0 u configuredUnit hreached hquiet configuredMemory_configured
  obtain ⟨u', hpass⟩ := appliedPass_exists (C := cardMemory) (E := alsEnv) b'
  refine ⟨u, record, b', u', hreached, hcategory 0, hcommit, hboot, hpass,
    (hiff u' hpass).mpr fun j => ?_⟩
  refine (comesBack_defaults (hdefaults j).1 (hdefaults j).2).mpr fun hj => ?_
  rw [hcategory, if_neg]
  rintro rfl
  revert hj
  decide

/-- **The category of the fifth client is lost.** -/
theorem category_lost : ∃ u record b' u', cardMemory.Reached u ∧ cardMemory.Quiet u.card.mem ∧
    commitUserSettings clearedHeap u.card.mem cardMemory.preferences = some record ∧
    cardMemory.powerUp emptyTexts 0 record configuredUnit = some b' ∧
    cardMemory.AppliedPass alsEnv b' u' ∧ cardMemory.word u.card.mem .inCat 4 = 57 ∧
    cardMemory.settings u' ≠ cardMemory.settings u := by
  obtain ⟨u, hreached, hquiet, hcategory, hdefaults⟩ := exists_categorized (i := 4) (by decide)
  obtain ⟨record, b', hcommit, hboot⟩ : ∃ record b',
      commitUserSettings clearedHeap u.card.mem cardMemory.preferences = some record ∧
        cardMemory.powerUp emptyTexts 0 record configuredUnit = some b' :=
    savedUnit_powerUp cardMemory emptyTexts clearedHeap 0 u configuredUnit
  obtain ⟨u', hpass⟩ := appliedPass_exists (C := cardMemory) (E := alsEnv) b'
  obtain ⟨m, hm, hb'⟩ := powerUp_readBack configuredMemory_configured hcommit hboot
  refine ⟨u, record, b', u', hreached, hquiet, hcommit, hboot, hpass, hcategory 4, fun heq => ?_⟩
  have hback := (settings_powerUp (hreached.settled.applied hquiet) hm hb' hpass).mp heq 4
  have hlost := hback.category (by decide)
  rw [hcategory 4] at hlost
  revert hlost
  decide

end Muxponder
