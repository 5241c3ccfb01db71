import Muxponder.KursRequests
import Mathlib.Logic.Relation

/-!
# The Write Gate

Until the first `0x49` request the profile is closed: the three handlers that write test
`set_param_enabled` before their first write. What requests change until then is what they
refresh in order to show it. A refresh does not ask whether a parameter is read-only: a
setting with `user_get` is refreshed like a measurement, into a scratch variable that it has
in common with the measurements.

## Main results

* `writeGate`: in every run before the first `0x49` request no variable changes but the
  scratch variables, and neither do colours, language pack or save flag.
* `writeGate_refreshes_setting`: reading section 3 changes the data of a setting.
-/

namespace Muxponder

open Memory Relation

variable {L : Layout} {T : KursTables L} {tps : UInt32} {S S' S'' : KursState} {c : KursCall}
  {r : List UInt8}

/-- The scratch variables. -/
def KursTables.Scratch (T : KursTables L) (a : UInt32) : Prop :=
  (a - T.dummyU32).toNat < 4 ∨ (a - T.dummyU64).toNat < 8 ∨ (a - T.dummyFloat).toNat < 4

/-- `KURS_userget_value` on a parameter of the tables with `user_get`. -/
def RefreshStep (T : KursTables L) (m m' : Mem) : Prop :=
  ∃ R i, ∃ p ∈ T.params i, p.userGet = true ∧ m' = kursUsergetValue L R p.toProfileParam m

/-- What a closed profile allows: refreshes and evaluated colours. -/
structure OnlyRefreshed (T : KursTables L) (S S' : KursState) : Prop where
  mem : ReflTransGen (RefreshStep T) S.mem S'.mem
  adds : ∀ a, Recoloured (S.adds a) (S'.adds a)
  lngpack : S'.lngpack = S.lngpack
  closed : S'.setParamEnabled = S.setParamEnabled

/-- Nothing happens. -/
theorem OnlyRefreshed.refl (S : KursState) : OnlyRefreshed T S S :=
  ⟨.refl, fun a => .refl (S.adds a), rfl, rfl⟩

/-- One after the other. -/
theorem OnlyRefreshed.trans (h : OnlyRefreshed T S S') (h' : OnlyRefreshed T S' S'') :
    OnlyRefreshed T S S'' where
  mem := h.mem.trans h'.mem
  adds := fun a => (h.adds a).trans (h'.adds a)
  lngpack := h'.lngpack.trans h.lngpack
  closed := h'.closed.trans h.closed

/-! ### What the handlers leave alone -/

/-- Showing a parameter refreshes it and evaluates its colour. -/
theorem showParam_onlyRefreshed {colored : Bool} {i : Fin PROFILE_SECTION_COUNT}
    {p : SectionParam} (hp : p ∈ T.params i) :
    OnlyRefreshed T S (showParam L c colored S p).1 := by
  have hmem : ReflTransGen (RefreshStep T) S.mem
      (refresh L c.readings p.toProfileParam S.mem) := by
    rw [refresh]
    split
    next huser => exact .single ⟨c.readings, i, p, hp, huser, rfl⟩
    · exact .refl
  rw [showParam]
  split
  · exact ⟨hmem, fun a => .refl _, rfl, rfl⟩
  next a _ =>
    refine ⟨hmem, fun b => ?_, rfl, rfl⟩
    by_cases hb : b = a
    · subst hb
      simpa using showColor_evaluates
    · simpa [hb] using Recoloured.refl _

/-- Showing a section. -/
theorem showSection_onlyRefreshed {colored : Bool} {i : Fin PROFILE_SECTION_COUNT}
    {ps : List SectionParam} (hps : ∀ p ∈ ps, p ∈ T.params i) :
    OnlyRefreshed T S (showSection L c colored ps S).1 := by
  induction ps generalizing S with
  | nil => exact .refl S
  | cons p ps ih =>
      have hfirst : OnlyRefreshed T S (showParam L c colored S p).1 :=
        showParam_onlyRefreshed (hps p List.mem_cons_self)
      exact hfirst.trans (ih fun q hq => hps q (List.mem_cons_of_mem p hq))

/-- Reading a section. -/
theorem readSection_onlyRefreshed {n : UInt32} {i : Fin PROFILE_SECTION_COUNT} :
    OnlyRefreshed T S (readSection T S c n i).1 := by
  rw [readSection]
  split
  · exact showSection_onlyRefreshed fun _ hp => hp
  · exact .refl S

/-- A set request is refused before it writes. -/
theorem setParam_closed {E : KursEnv} {P : Profile} {m : Mem} {strRx : List UInt8}
    {o : SetOutcome} (hclosed : P.setParamEnabled = false)
    (h : handleKursSetParamValue E L P m strRx = some o) : o.mem = m := by
  rcases handleKursSetParamValue_cases h with ⟨F, rfl, -⟩ | ⟨F, data, t, -, hset⟩
  · rfl
  rcases setItem_cases hset with ⟨rfl, -⟩ | ⟨size, ok, m', -, hw, -⟩
  · rfl
  · simp [writable, hclosed] at hw

/-- A colour request is refused before it writes. -/
theorem setColors_closed (hclosed : S.setParamEnabled = false)
    (h : handleKursSetColorDegradeAndFailure T S c = some (S', r)) : S' = S := by
  obtain ⟨F, -, ⟨hsame, -, -⟩ | ⟨colors, p, a, -, haccepted, -⟩⟩ := setColors_cases h
  · exact hsame
  · simp [ColorFields.accepted, hclosed] at haccepted

/-- A language block is refused before it is stored. -/
theorem writeLangPack_closed (hclosed : S.setParamEnabled = false)
    (h : handleKursWriteLangPackCommand S c = some (S', r)) : S' = S := by
  obtain ⟨blockIndex, -, h⟩ := Option.bind_eq_some_iff.mp h
  obtain ⟨found, -, h⟩ := Option.bind_eq_some_iff.mp h
  cases found with
  | none => exact (Prod.mk.inj (Option.some.inj h)).1.symm
  | some k =>
      have hno : ¬ (blockIndex.toNat < LANG_BLOCK_MAX_CNT ∧ S.setParamEnabled = true) := by
        simp [hclosed]
      simp only [dif_neg hno] at h
      exact (Prod.mk.inj (Option.some.inj h)).1.symm

/-! ### Runs of a closed profile -/

/-- **One request to a closed profile**, other than the one that opens it. -/
theorem handleRequests_closed (hclosed : S.setParamEnabled = false)
    (hcmd : c.command ≠ .enSetParams) (h : kursHandleRequests tps T S c = some (S', r)) :
    OnlyRefreshed T S S' := by
  have hsame : S' = S → OnlyRefreshed T S S' := by
    rintro rfl
    exact .refl S'
  rw [kursHandleRequests] at h
  cases hc : c.command with
  | enSetParams => exact absurd hc hcmd
  | safeReprogramming =>
      simp only [hc] at h
      obtain ⟨u, -, hu⟩ := Option.map_eq_some_iff.mp h
      obtain ⟨rfl, -⟩ := Prod.mk.inj hu
      exact ⟨.refl, fun a => .refl _, rfl, rfl⟩
  | rdProfileParams =>
      simp only [hc] at h
      obtain ⟨n, -, h⟩ := Option.bind_eq_some_iff.mp h
      split at h
      · exact hsame (Prod.mk.inj (Option.some.inj h)).1.symm
      · obtain ⟨i, -, hi⟩ := Option.map_eq_some_iff.mp h
        obtain ⟨rfl, -⟩ := Prod.mk.inj hi
        exact readSection_onlyRefreshed
  | setProfileParams =>
      simp only [hc] at h
      obtain ⟨o, ho, hS⟩ := Option.map_eq_some_iff.mp h
      obtain ⟨rfl, -⟩ := Prod.mk.inj hS
      have hmem := setParam_closed (P := T.profile S) hclosed ho
      exact hsame (by rw [hmem])
  | setColorDegradeAndFailure =>
      simp only [hc] at h
      exact hsame (setColors_closed hclosed h)
  | writeLanguagePack =>
      simp only [hc] at h
      exact hsame (writeLangPack_closed hclosed h)
  | rdProfileLine =>
      simp only [hc] at h
      obtain ⟨n, -, h⟩ := Option.bind_eq_some_iff.mp h
      obtain ⟨line, -, hline⟩ := Option.map_eq_some_iff.mp h
      exact hsame (Prod.mk.inj hline).1.symm
  | readLanguagePack | getColorDegradeAndFailure =>
      simp only [hc] at h
      obtain ⟨n, -, hn⟩ := Option.map_eq_some_iff.mp h
      exact hsame (Prod.mk.inj hn).1.symm
  | extendedConfigRdWr =>
      simp only [hc] at h
      obtain ⟨text, -, htext⟩ := Option.map_eq_some_iff.mp h
      exact hsame (Prod.mk.inj htext).1.symm
  | rdDeviceClass | extendedDeviceClass | extendedEnSetParams | unknown =>
      simp only [hc] at h
      exact hsame (Prod.mk.inj (Option.some.inj h)).1.symm

/-- A run of requests to a closed profile. -/
theorem run_closed {h : List (KursCall × List UInt8)} (hclosed : S.setParamEnabled = false)
    (hrun : (kursRequests tps T).Run S h S') (hcmd : ∀ e ∈ h, e.1.command ≠ .enSetParams) :
    OnlyRefreshed T S S' := by
  induction hrun with
  | nil => exact .refl S
  | snoc hrun hstep ih =>
      have hupto := ih fun e he => hcmd e (List.mem_append_left _ he)
      have hlast := hcmd _ (List.mem_append_right _ (List.mem_singleton.mpr rfl))
      exact hupto.trans (handleRequests_closed (hupto.closed.trans hclosed) hlast hstep)

/-- Refreshes change the scratch variables alone. -/
theorem refreshes_unchanged {m m' : Mem} {a : UInt32}
    (h : ReflTransGen (RefreshStep T) m m') (ha : ¬ T.Scratch a) : m' a = m a := by
  induction h with
  | refl => rfl
  | tail hupto hstep ih =>
      obtain ⟨R, i, p, hp, huser, rfl⟩ := hstep
      rw [← ih]
      exact kursUsergetValue_of_le fun hin => ha (T.refreshesScratch i p hp huser a hin)

/-- What a closed profile keeps: every variable but the scratch variables, which
`KURS_userget_value` alone changes, the save flag, the colours that can be set, and the
language pack. -/
structure WriteGated (T : KursTables L) (S S' : KursState) : Prop where
  unscratched : ∀ a, ¬ T.Scratch a → S'.mem a = S.mem a
  refreshed : ReflTransGen (RefreshStep T) S.mem S'.mem
  save : S'.mem L.save = S.mem L.save
  colors : ∀ a, (S'.adds a).colorDegrade = (S.adds a).colorDegrade ∧
    (S'.adds a).colorFailure = (S.adds a).colorFailure
  lngpack : S'.lngpack = S.lngpack

/-- **The write gate**: in every run from `KURS_profile_init` on, before the first request
that enables setting. -/
theorem writeGate (tps : UInt32) (T : KursTables L) {S S' : KursState}
    {h : List (KursCall × List UInt8)}
    (hrun : (kursRequests tps T).Run (kursProfileInit S) h S')
    (hcmd : ∀ e ∈ h, e.1.command ≠ .enSetParams) : WriteGated T (kursProfileInit S) S' := by
  have honly := run_closed rfl hrun hcmd
  refine ⟨fun a ha => refreshes_unchanged honly.mem ha, honly.mem,
    refreshes_unchanged honly.mem T.saveApart, fun a => ?_, honly.lngpack⟩
  obtain ⟨color, status, hA⟩ := honly.adds a
  rw [hA]
  exact ⟨rfl, rfl⟩

/-! ### A setting that is refreshed -/

/-- `ID_3_CL1_ENABLE_TX` of section 3: a setting, refreshed into `dummy_u32`. -/
def enableTxParam : SectionParam where
  paramId := ID_3_CL1_ENABLE_TX
  userGet := true
  userSet := true
  type := .enum
  access := 245
  data := 0x900
  dSize := 4
  dMin := none
  dMax := none
  dAdd := none
  format := none
  formatFloat := by simp

/-- A profile whose section 3 has this setting. -/
def settingSections : KursSections where
  parameters := fun i => if i = 2 then some fun _ => enableTxParam else none
  sectionParamCount := fun i => if i = 2 then 1 else 0

/-- The parameters of that profile. -/
theorem settingSections_params {i : Fin PROFILE_SECTION_COUNT} {p : SectionParam}
    (hp : p ∈ settingSections.params i) : p = enableTxParam := by
  rw [KursSections.params, settingSections] at hp
  by_cases hi : i = 2
  · simpa [hi] using hp
  · simp [hi] at hp

/-- The same as tables, with the scratch variables behind each other. -/
def settingTables : KursTables sampleLayout where
  toKursSections := settingSections
  class_ := []
  text := fun _ => []
  lineCount := 0
  dummyU32 := 0x900
  dummyU64 := 0x908
  dummyFloat := 0x910
  classFits := by simp
  textFits := by simp
  stringFits := by
    intro i p hp htype
    rw [settingSections_params hp] at htype
    simp [enableTxParam] at htype
  section2Fits := Nat.zero_le _
  refreshesScratch := by
    intro i p hp _ a ha
    rw [settingSections_params hp] at ha
    exact Or.inl ha
  saveApart := by decide

/-- A state with everything zero. -/
def zeroState : KursState where
  setParamEnabled := true
  saveParamEnabled := true
  mem := fun _ => 0
  adds := fun _ => ⟨0, 0, 0, 0, none, none, none, none, .norm, 0⟩
  lngpack := fun _ => Vector.replicate LANG_BLOCK_SIZE 0
  expectedBlckCnt := 0
  newLngFile := false
  update := updateInit fun _ => 0

/-- A request to ports with some readings. -/
def requestTo (R : Readings) (q : KursRequest) : KursCall where
  request := q
  readings := R
  alsSetMode := fun _ _ => false
  ipglbRate := 0
  tmi := sampleEnv.tmi
  atof := fun _ => 0
  floatCompareLt := fun _ _ => false
  nticks := 0
  nticksBlock := 0
  memory := fun _ => 0

/-- `q3`: read section 3. -/
def readSection3 : KursRequest := ⟨0x80, CString.ascii "q3", by decide, []⟩

/-- Reading section 3 refreshes the setting. -/
theorem readSection3_step : ∃ S' r, (kursRequests 0 settingTables).step
    (kursProfileInit zeroState) (requestTo idleReadings readSection3) = some (S', r) ∧
      S'.mem.load32 enableTxParam.data = 1 :=
  ⟨_, _, rfl, by decide⟩

/-- It is no `0x49` request. -/
theorem readSection3_command :
    (requestTo idleReadings readSection3).command ≠ .enSetParams := by
  have hcmd : (requestTo idleReadings readSection3).command = .rdProfileParams := rfl
  rw [hcmd]
  simp

/-- The gate along this request. -/
theorem writeGate_readSection3 : ∃ S' r, (kursRequests 0 settingTables).Run
    (kursProfileInit zeroState) [(requestTo idleReadings readSection3, r)] S' ∧
      WriteGated settingTables (kursProfileInit zeroState) S' := by
  obtain ⟨S', r, hstep, -⟩ := readSection3_step
  have hrun := Machine.Run.single hstep
  refine ⟨S', r, hrun, writeGate 0 settingTables hrun fun e he => ?_⟩
  obtain rfl := List.mem_singleton.mp he
  exact readSection3_command

/-- **Reading changes the data of a setting**: before any `0x49` request, that of a
parameter which is not read-only. -/
theorem writeGate_refreshes_setting : ∃ S' r, (kursRequests 0 settingTables).Run
    (kursProfileInit zeroState) [(requestTo idleReadings readSection3, r)] S' ∧
      (requestTo idleReadings readSection3).command ≠ .enSetParams ∧
      ∃ p ∈ settingTables.params 2, p.access &&& 0xAA ≠ 0 ∧
        S'.mem.load32 p.data ≠ (kursProfileInit zeroState).mem.load32 p.data := by
  obtain ⟨S', r, hstep, hload⟩ := readSection3_step
  refine ⟨S', r, .single hstep, readSection3_command, enableTxParam,
    List.mem_singleton.mpr rfl, by decide, ?_⟩
  rw [hload]
  decide

end Muxponder
