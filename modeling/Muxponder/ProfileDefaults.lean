import Muxponder.Lib.LastWrite
import Muxponder.RegisterMap
import Muxponder.Task10

/-!
# Defaults, at Boot and on Request

`KURS_profile_set_default` gives the parameters of the profile their default values. It is called
at boot, in front of the loop that restores the user's settings, and by the main loop where a reset
to the defaults has been requested; each of the two then asks `task_10` to apply the settings, in
its own way. The ALS mode is the exception: it is set in the hardware at boot, and by the request
for it.

Both pieces of code are functions on the memory and the ALS hardware here. The texts of the card
are copied from literals that are shorter than the variables: what stands behind them is an input,
as is the mode that `map_als_from_kurs_value` leaves undefined.

## Main results

* `defaults_load32`: the words behind a list of stores.
* `mainLoop_pending`, `boot_pending`: both leave the same requests behind.
-/

namespace Muxponder

open Memory LastWrite

/-! ### Stores -/

/-- What is stored in a variable. -/
inductive DefaultValue
  | word (w : UInt32)
  | bytes (bs : List UInt8)
  deriving DecidableEq, Repr

/-- A store into a variable. -/
abbrev DefaultStore := CardVar × DefaultValue

/-- The literals that are copied into the texts of the card, with what stands behind them. -/
structure DefaultTexts where
  pid : Vector UInt8 65
  serialNumber : Vector UInt8 17
  hwNumber : Vector UInt8 65

/-- `memset` to zero. -/
def clearText (v : CardVar) : DefaultStore := (v, .bytes (List.replicate v.size.toNat 0))

@[inherit_doc clearText]
def defaultWord (v : CardVar) (w : UInt32) : DefaultStore := (v, .word w)

/-- The texts that are not kept. -/
def defaultNumbers (T : DefaultTexts) : List DefaultStore :=
  [clearText (.card .hwNumber), (.card .hwNumber, .bytes T.hwNumber.toList),
      clearText (.card .fpgaSwNumber), clearText (.card .swNumber)] ++
    (List.finRange INTERFACE_COUNT).flatMap fun i =>
      [clearText (.port .destination i), clearText (.port .sfpVn i), clearText (.port .sfpSn i),
        clearText (.port .sfpHn i)]

/-- Section 1. -/
def defaultSection1 (T : DefaultTexts) : List DefaultStore :=
  [clearText (.card .pid), (.card .pid, .bytes T.pid.toList), clearText (.card .serialNumber),
    (.card .serialNumber, .bytes T.serialNumber.toList)]

/-- `DEF_TEMP_CMIN` and the others: 0, 10, 60 and 70 degrees. -/
def defaultTemperature : Limit → UInt32
  | .criticalMin => 0
  | .warningMin => 0x41200000
  | .warningMax => 0x42700000
  | .criticalMax => 0x428C0000

/-- `DEF_SFP_PIN_CMIN` and the others: -17, -14, -2 and -0.5. -/
def defaultPin : Limit → UInt32
  | .criticalMin => 0xC1880000
  | .warningMin => 0xC1600000
  | .warningMax => 0xC0000000
  | .criticalMax => 0xBF000000

/-- `DEF_SFP_POUT_CMIN` and the others: -8, -6, -1 and 1. -/
def defaultPout : Limit → UInt32
  | .criticalMin => 0xC1000000
  | .warningMin => 0xC0C00000
  | .warningMax => 0xBF800000
  | .criticalMax => 0x3F800000

/-- `DEF_FEC_LOAD_CMIN` and the others: 0, 0, 50 and 75. -/
def defaultFecLoad : Limit → UInt32
  | .criticalMin => 0
  | .warningMin => 0
  | .warningMax => 0x42480000
  | .criticalMax => 0x42960000

/-- Section 4. -/
def defaultSection4 : List DefaultStore :=
  (limits.map fun l => defaultWord (.card (.temperatureLimit l)) (defaultTemperature l)) ++
    ((List.finRange INTERFACE_COUNT).flatMap fun i =>
      limits.map fun l => defaultWord (.port (.sfpTemperatureLimit l) i) (defaultTemperature l)) ++
    ((List.finRange INTERFACE_COUNT).flatMap fun i =>
      defaultWord (.port .thresholdMode i) 0 ::
        ((limits.map fun l => defaultWord (.port (.pin l) i) (defaultPin l)) ++
          limits.map fun l => defaultWord (.port (.pout l) i) (defaultPout l))) ++
    lines.flatMap fun i =>
      limits.map fun l => defaultWord (.port (.fecLoadLimit l) i) (defaultFecLoad l)

/-- Section 2. The load of the FEC is that of the first line alone. -/
def defaultSection2 : List DefaultStore :=
  [defaultWord (.card .sysUptime) 0, defaultWord (.card .alarm1) 1, defaultWord (.card .alarm2) 1,
      defaultWord (.card .blockColor) 0, defaultWord (.card .blockState) 1,
      defaultWord (.card .temperature) 0] ++
    ((List.finRange INTERFACE_COUNT).flatMap fun i =>
      [defaultWord (.port .sfpTemperature i) 0xC0A00000, defaultWord (.port .oduxAlarms i) 0]) ++
    [defaultWord (.port .fecLoad 16) 0]

/-- Section 3: the settings of an interface. -/
def defaultInterface (i : Fin INTERFACE_COUNT) : List DefaultStore :=
  [defaultWord (.control .serviceState .next i) IF_SERVICE_STATE_IS,
    defaultWord (.control .serviceState .current i) IF_SERVICE_STATE_IS,
    defaultWord (.port .monitor i) ACTIVITY_MONITOR_ON,
    defaultWord (.control .txDisable .next i) 0, defaultWord (.control .txDisable .current i) 0,
    defaultWord (.port .alsControl i) ALS_CONTROL_DISABLED,
    defaultWord (.control .loopbackMode .next i) MODE_LB_NORMAL,
    defaultWord (.control .loopbackMode .current i) MODE_LB_NORMAL,
    defaultWord (.port .thresholdModeReset i) 0,
    defaultWord (.control .rate .next i) PORT_RATE_STM1,
    defaultWord (.control .rate .current i) PORT_RATE_STM1]

@[inherit_doc defaultInterface]
def defaultSection3 : List DefaultStore :=
  (List.finRange INTERFACE_COUNT).flatMap defaultInterface ++
    [defaultWord (.card .resetSettings) 0]

/-- Section 5. -/
def defaultSection5 : List DefaultStore :=
  [defaultWord (.card .statusLed) 0, defaultWord (.card .powerLed) 0]

/-- Section 103: empty texts. -/
def defaultSection103 : List DefaultStore :=
  (lines ++ clients).flatMap fun i =>
    [(.port .inInfo i, .bytes [0]), defaultWord (.port .inCat i) 0]

/-- `KURS_profile_set_default`, store by store. -/
def kursProfileSetDefault (T : DefaultTexts) (selectedSections : UInt32) : List DefaultStore :=
  List.flatten
    [if selectedSections &&& 0x8000000 ≠ 0 then defaultNumbers T else [],
      if selectedSections &&& 0x01 ≠ 0 then defaultSection1 T else [],
      if selectedSections &&& 0x08 ≠ 0 then defaultSection4 else [],
      if selectedSections &&& 0x02 ≠ 0 then defaultSection2 else [],
      if selectedSections &&& 0x04 ≠ 0 then defaultSection3 else [],
      if selectedSections &&& 0x10 ≠ 0 then defaultSection5 else [],
      if selectedSections &&& 0x20 ≠ 0 then defaultSection103 else []]

/-- The requests of the main loop for an interface. -/
def restoreRequests (i : Fin INTERFACE_COUNT) : List DefaultStore :=
  [defaultWord (.control .serviceState .change i) 1, defaultWord (.control .rate .change i) 1,
    defaultWord (.control .txDisable .change i) 1, defaultWord (.control .loopbackMode .change i) 1,
    defaultWord (.control .resetCounters .change i) 1]

/-! ### The unit -/

/-- The bits `io_enable` and `ALS_MODE` of the clients. The ALS modules of the lines have been
given no address. -/
structure AlsHardware where
  enable : Client → Bool
  mode : Client → UInt32

/-- `map_als_from_kurs_value`, where another value leaves its result undefined. -/
def mapAlsFromKursValue (stray mode : UInt32) : UInt32 :=
  if mode = 1 then 1 else if mode = 2 then 0 else if mode = ALS_CONTROL_REMOTE then 2 else stray

/-- `set_port_als_mode` on the hardware. -/
def AlsHardware.setMode (a : AlsHardware) (stray : UInt32) (i : Fin INTERFACE_COUNT)
    (mode : UInt32) : AlsHardware :=
  (asClient i).elim a fun c =>
    if mode = ALS_CONTROL_DISABLED then { a with enable := Function.update a.enable c false }
    else
      { enable := Function.update a.enable c true
        mode := Function.update a.mode c (mapAlsFromKursValue stray mode) }

/-- The card and its ALS hardware. -/
structure UnitState where
  card : CardState
  als : AlsHardware

section card

variable {L : Layout}

/-- A store. The ALS mode is reached through the pointer of its port. -/
def CardMemory.storeDefault (C : CardMemory L) (m : Mem) : DefaultStore → Mem
  | (.port .alsControl i, .word w) => m.store32 (m.load32 (C.addr (.port .als i)) + L.alsControl) w
  | (v, .word w) => m.store32 (C.addr v) w
  | (v, .bytes bs) => m.blit (C.addr v) bs

/-- The body of the main loop, as far as a reset to the defaults goes. -/
def CardMemory.mainLoop (C : CardMemory L) (T : DefaultTexts) (m : Mem) : Mem :=
  if m (C.addr (.card .restore)) = 1 then
    let m := (kursProfileSetDefault T 0x3FFFFFF).foldl C.storeDefault m
    let m := ((List.finRange INTERFACE_COUNT).flatMap restoreRequests).foldl C.storeDefault m
    m.store8 (C.addr (.card .restore)) 0
  else m

/-- A word of an interface is written. -/
def CardMemory.setWord (C : CardMemory L) (f : PortField) (i : Fin INTERFACE_COUNT) (w : UInt32)
    (m : Mem) : Mem :=
  m.store32 (C.addr (.port f i)) w

/-- The settings of an interface are restored at boot. -/
def CardMemory.bootInterface (C : CardMemory L) (m : Mem) (i : Fin INTERFACE_COUNT) : Mem :=
  let m := C.setWord (.control .serviceState .next) i
    (C.word m (.control .serviceState .current) i) m
  let m := C.setWord (.control .serviceState .change) i 1 m
  let m := if isClient i then
      let m := C.setWord (.control .rate .next) i (C.word m (.control .rate .current) i) m
      let next := C.word m (.control .rate .next) i
      C.setWord (.control .rate .change) i
        (if next = PORT_RATE_OTU1 ∨ next = PORT_RATE_STM16 ∨ next = PORT_RATE_FC2 then 0 else 1) m
    else m
  let m := C.setWord (.control .resetCounters .change) i 1 m
  let m := C.setWord (.control .loopbackMode .next) i
    (C.word m (.control .loopbackMode .current) i) m
  let m := C.setWord (.control .loopbackMode .change) i 1 m
  if C.word m (.control .serviceState .next) i = IF_SERVICE_STATE_OOS then
    let m := C.setWord (.control .txDisable .current) i 1 m
    let m := C.setWord (.control .txDisable .next) i 1 m
    C.setWord (.control .txDisable .change) i 1 m
  else
    let m := C.setWord (.control .txDisable .next) i
      (C.word m (.control .txDisable .current) i) m
    C.setWord (.control .txDisable .change) i 1 m

/-- An interface at boot, with its ALS mode. -/
def CardMemory.bootUnit (C : CardMemory L) (stray : UInt32) (s : UnitState)
    (i : Fin INTERFACE_COUNT) : UnitState where
  card := { s.card with mem := C.bootInterface s.card.mem i }
  als := s.als.setMode stray i
    (s.card.mem.load32 (s.card.mem.load32 (C.addr (.port .als i)) + L.alsControl))

/-- Booting with the default preferences: those of `profile.Init`, where `read_user_settings` finds
none in the flash. -/
def CardMemory.boot (C : CardMemory L) (T : DefaultTexts) (stray : UInt32) (s : UnitState) :
    UnitState :=
  let m := (kursProfileSetDefault T 0xFFFFFFF).foldl C.storeDefault s.card.mem
  (List.finRange INTERFACE_COUNT).foldl (C.bootUnit stray) { s with card.mem := m }

/-! ### The words behind a list of stores -/

/-- A variable that holds a text. -/
def CardVar.isText : CardVar → Bool
  | .card .pid | .card .serialNumber | .card .hwNumber | .card .swNumber | .card .fpgaSwNumber =>
      true
  | .port .destination _ | .port .sfpVn _ | .port .sfpSn _ | .port .sfpHn _ | .port .inInfo _ =>
      true
  | _ => false

/-- A variable that is set up at boot: the pointer to an ALS module, or the capabilities. -/
def CardVar.isConfigured : CardVar → Bool
  | .port .als _ | .port .capabilities _ => true
  | _ => false

/-- A store stays in its variable, and spares what has been set up at boot. -/
def DefaultStore.Fits (st : DefaultStore) : Prop :=
  (match st.2 with
    | .word _ => 4 ≤ st.1.size.toNat ∧ st.1.isText = false
    | .bytes bs => bs.length ≤ st.1.size.toNat ∧ st.1.isText = true) ∧
  st.1.isConfigured = false

instance (st : DefaultStore) : Decidable st.Fits := by
  unfold DefaultStore.Fits
  split <;> infer_instance

/-- What has been set up at boot: the pointers to the ALS modules, and the clients have several
rates. -/
structure CardMemory.Configured (C : CardMemory L) (m : Mem) : Prop where
  als : C.AlsReady m
  multiRate : ∀ i, C.word m .capabilities i &&& MULTI_RATE ≠ 0 ↔ isClient i = true

variable {C : CardMemory L} {m : Mem} {st : DefaultStore} {ws : List DefaultStore}
  {T : DefaultTexts} {i j : Fin INTERFACE_COUNT} {f : PortField} {w : UInt32}

/-- A store of a word, with the pointer of the port in place. -/
theorem storeDefault_word (hals : C.AlsReady m) (v : CardVar) :
    C.storeDefault m (v, .word w) = m.store32 (C.addr v) w := by
  cases v with
  | card k => rfl
  | port f i =>
      cases f with
      | alsControl => exact congrArg (fun a => m.store32 a w) (hals i)
      | _ => rfl

/-- A store writes its variable. -/
theorem storeDefault_writes (hals : C.AlsReady m) (hfits : st.Fits) :
    C.Writes {st.1} m (C.storeDefault m st) := by
  obtain ⟨v, x⟩ := st
  cases x with
  | word w =>
      rw [storeDefault_word hals]
      exact Placement.Writes.store32 rfl hfits.1.1
  | bytes bs =>
      have hstore : C.storeDefault m (v, .bytes bs) = m.blit (C.addr v) bs := by
        cases v with
        | card k => rfl
        | port f i => cases f <;> rfl
      rw [hstore]
      exact Placement.Writes.blit rfl hfits.1.1

/-- What has been set up at boot is left alone where another variable is written. -/
theorem configured_of_writes {m' : Mem} {v : CardVar} (hm : C.Configured m)
    (hwrites : C.Writes {v} m m') (hv : v.isConfigured = false) : C.Configured m' := by
  have hspared : ∀ u : CardVar, u.isConfigured = true → u ∉ ({v} : Set CardVar) := by
    rintro u hu rfl
    rw [hv] at hu
    cases hu
  refine ⟨?_, ?_⟩
  · intro i
    rw [hwrites.load32 (hspared (.port .als i) rfl) (PortField.four_le_size .als)]
    exact hm.als i
  · intro i
    rw [CardMemory.word, hwrites.load32 (hspared (.port .capabilities i) rfl)
      (PortField.four_le_size .capabilities)]
    exact hm.multiRate i

/-- A store leaves it alone. -/
theorem storeDefault_configured (hm : C.Configured m) (hfits : st.Fits) :
    C.Configured (C.storeDefault m st) :=
  configured_of_writes hm (storeDefault_writes hm.als hfits) hfits.2

/-- So does a list of stores. -/
theorem defaults_configured (hm : C.Configured m) (hfits : ∀ st ∈ ws, st.Fits) :
    C.Configured (ws.foldl C.storeDefault m) := by
  induction ws generalizing m with
  | nil => exact hm
  | cons st ws ih =>
      exact ih (storeDefault_configured hm (hfits st List.mem_cons_self))
        fun st' hst' => hfits st' (List.mem_cons_of_mem _ hst')

/-- The word in a variable, unless that holds a text or is too short for one. -/
def CardMemory.wordOf (C : CardMemory L) (m : Mem) (v : CardVar) : Option UInt32 :=
  if v.isText = false ∧ 4 ≤ v.size.toNat then some (m.load32 (C.addr v)) else none

/-- What a store leaves in its variable, in the same way. -/
def DefaultValue.wordOf (v : CardVar) : DefaultValue → Option UInt32
  | .word w => if v.isText = false ∧ 4 ≤ v.size.toNat then some w else none
  | .bytes _ => none

/-- **The words behind a list of stores**: what was last stored. -/
theorem defaults_word (hm : C.Configured m) (hfits : ∀ st ∈ ws, st.Fits) {v : CardVar}
    (hv : v.isText = false ∧ 4 ≤ v.size.toNat) (hlatest : latest v ws = some (.word w)) :
    (ws.foldl C.storeDefault m).load32 (C.addr v) = w := by
  have hgood : GoodAlong C.storeDefault (fun m st => C.Configured m ∧ DefaultStore.Fits st) m
      ws := by
    rintro pre st post rfl
    refine ⟨defaults_configured hm fun st' hst' => hfits st' ?_, hfits st ?_⟩
    · exact List.mem_append_left _ hst'
    · exact List.mem_append_right _ List.mem_cons_self
  have hown : ∀ m st, (C.Configured m ∧ DefaultStore.Fits st) →
      C.wordOf (C.storeDefault m st) st.1 = st.2.wordOf st.1 := by
    rintro m ⟨u, x⟩ ⟨hm, hfits⟩
    cases x with
    | word w =>
        obtain ⟨⟨hsize, htext⟩, -⟩ := hfits
        rw [storeDefault_word hm.als, CardMemory.wordOf, DefaultValue.wordOf,
          if_pos ⟨htext, hsize⟩, if_pos ⟨htext, hsize⟩, load32_store32]
    | bytes bs =>
        obtain ⟨⟨-, htext⟩, -⟩ := hfits
        exact if_neg fun h => by simp [htext] at h
  have hother : ∀ m st u, (C.Configured m ∧ DefaultStore.Fits st) → u ≠ st.1 →
      C.wordOf (C.storeDefault m st) u = C.wordOf m u := by
    rintro m st u ⟨hm, hfits⟩ hu
    rw [CardMemory.wordOf, CardMemory.wordOf]
    split
    next hword => rw [(storeDefault_writes hm.als hfits).load32 (fun h => hu h) hword.2]
    next => rfl
  have hview : C.wordOf (ws.foldl C.storeDefault m) v = DefaultValue.wordOf v (.word w) :=
    view_latest hown hother hgood hlatest
  rw [CardMemory.wordOf, DefaultValue.wordOf, if_pos hv, if_pos hv] at hview
  exact Option.some.inj hview

/-! ### Requests for the defaults -/

/-- The words of an interface ask for the defaults. The rate is asked for where it can be set. -/
structure PortAsked (i : Fin INTERFACE_COUNT) (w : PortField → UInt32) : Prop where
  serviceNext : w (.control .serviceState .next) = IF_SERVICE_STATE_IS
  serviceChange : w (.control .serviceState .change) ≠ 0
  loopbackNext : w (.control .loopbackMode .next) = MODE_LB_NORMAL
  loopbackChange : w (.control .loopbackMode .change) ≠ 0
  txNext : w (.control .txDisable .next) = 0
  txChange : w (.control .txDisable .change) ≠ 0
  rateNext : w (.control .rate .next) = PORT_RATE_STM1
  rateCurrent : w (.control .rate .current) = PORT_RATE_STM1
  rateChange : isClient i = true → w (.control .rate .change) ≠ 0
  alsControl : w .alsControl = ALS_CONTROL_DISABLED
  multiRate : w .capabilities &&& MULTI_RATE ≠ 0 ↔ isClient i = true

/-- The stores behind those that depend on the texts. -/
def defaultSettings : List DefaultStore :=
  defaultSection3 ++ (defaultSection5 ++ defaultSection103)

/-- The defaults of the sections that are restored, the settings last. -/
theorem kursProfileSetDefault_restore : kursProfileSetDefault T 0x3FFFFFF =
    (defaultSection1 T ++ (defaultSection4 ++ defaultSection2)) ++ defaultSettings := by
  rw [kursProfileSetDefault, if_neg (by decide), if_pos (by decide), if_pos (by decide),
    if_pos (by decide), if_pos (by decide), if_pos (by decide), if_pos (by decide)]
  simp [defaultSettings]

/-- The defaults of all sections. -/
theorem kursProfileSetDefault_boot : kursProfileSetDefault T 0xFFFFFFF =
    (defaultNumbers T ++ (defaultSection1 T ++ (defaultSection4 ++ defaultSection2))) ++
      defaultSettings := by
  rw [kursProfileSetDefault, if_pos (by decide), if_pos (by decide), if_pos (by decide),
    if_pos (by decide), if_pos (by decide), if_pos (by decide), if_pos (by decide)]
  simp [defaultSettings]

/-- The stores into the texts stay in them. -/
theorem defaultTexts_fit : ∀ st ∈ defaultNumbers T ++ defaultSection1 T, DefaultStore.Fits st := by
  simp [defaultNumbers, defaultSection1, clearText, DefaultStore.Fits, CardVar.size,
    CardField.size, PortField.size, CardVar.isText, CardVar.isConfigured, or_imp, forall_and]

/-- So do those into the limits and the measurements. -/
theorem defaultMeasured_fit :
    ∀ st : DefaultStore, st ∈ defaultSection4 ++ defaultSection2 → st.Fits := by
  decide +kernel

/-- The settings, and the requests of the main loop for all interfaces. -/
def restoreSettings : List DefaultStore :=
  defaultSettings ++ (List.finRange INTERFACE_COUNT).flatMap restoreRequests

/-- They stay in their variables. -/
theorem restoreSettings_fit : ∀ st : DefaultStore, st ∈ restoreSettings → st.Fits := by
  decide +kernel

/-- So do the defaults of all sections. -/
theorem bootDefaults_fit : ∀ st ∈ kursProfileSetDefault T 0xFFFFFFF, DefaultStore.Fits st := by
  intro st hst
  rw [kursProfileSetDefault_boot, ← List.append_assoc] at hst
  rcases List.mem_append.mp hst with hfirst | hlast
  · rcases List.mem_append.mp hfirst with htexts | hmeasured
    · exact defaultTexts_fit (T := T) st htexts
    · exact defaultMeasured_fit st hmeasured
  · exact restoreSettings_fit st (List.mem_append_left _ hlast)

/-- What the settings of an interface store last is what all of them do. -/
theorem latest_settings {x : DefaultValue} (hf : f ≠ .inInfo ∧ f ≠ .inCat)
    (h : latest (.port f i) (defaultInterface i) = some x) :
    latest (.port f i) defaultSettings = some x := by
  have hrest : ∀ st : DefaultStore, st ∈ defaultSection5 ++ defaultSection103 →
      st.1 ≠ .port f i := by
    intro st hst hkey
    rcases List.mem_append.mp hst with h5 | h103
    · simp only [defaultSection5, defaultWord, List.mem_cons, List.not_mem_nil, or_false] at h5
      rcases h5 with rfl | rfl <;> cases hkey
    · obtain ⟨j, -, hj⟩ := List.mem_flatMap.mp h103
      simp only [defaultWord, List.mem_cons, List.not_mem_nil, or_false] at hj
      rcases hj with rfl | rfl
      · exact hf.1 (CardVar.port.inj hkey).1.symm
      · exact hf.2 (CardVar.port.inj hkey).1.symm
  rw [defaultSettings, latest_append_other hrest, defaultSection3,
    latest_append_other (by simp [defaultWord])]
  refine latest_flatMap (List.mem_finRange i) ?_ h
  intro j hj st hst hkey
  have hport : ∃ g, st.1 = .port g j := by
    simp only [defaultInterface, defaultWord, List.mem_cons, List.not_mem_nil, or_false] at hst
    rcases hst with rfl | rfl | rfl | rfl | rfl | rfl | rfl | rfl | rfl | rfl | rfl <;>
      exact ⟨_, rfl⟩
  obtain ⟨g, hg⟩ := hport
  exact hj (CardVar.port.inj (hg.symm.trans hkey)).2

/-- So it is in front of the requests, which write other variables. -/
theorem latest_restored {x : DefaultValue} (hf : f ≠ .inInfo ∧ f ≠ .inCat)
    (hchange : ∀ c, f ≠ .control c .change)
    (h : latest (.port f i) (defaultInterface i) = some x) :
    latest (.port f i) restoreSettings = some x := by
  have hrest : ∀ st : DefaultStore,
      st ∈ (List.finRange INTERFACE_COUNT).flatMap restoreRequests → st.1 ≠ .port f i := by
    simp [restoreRequests, defaultWord, or_imp, forall_and, fun c => (hchange c).symm]
  rw [restoreSettings, latest_append_other hrest]
  exact latest_settings hf h

/-- A request of the main loop. -/
theorem latest_requested {c : Control} {x : DefaultValue}
    (h : latest (.control c .change i) (restoreRequests i) = some x) :
    latest (.control c .change i) restoreSettings = some x := by
  refine latest_append (latest_flatMap (List.mem_finRange i) ?_ h)
  intro j hj st hst hkey
  have hport : ∃ g, st.1 = .port g j := by
    simp only [restoreRequests, defaultWord, List.mem_cons, List.not_mem_nil, or_false] at hst
    rcases hst with rfl | rfl | rfl | rfl | rfl <;> exact ⟨_, rfl⟩
  obtain ⟨g, hg⟩ := hport
  exact hj (CardVar.port.inj (hg.symm.trans hkey)).2

/-- A word of an interface behind a list of stores that ends with what is known. -/
theorem defaults_port {vs : List DefaultStore} (hm : C.Configured m)
    (hvs : ∀ st ∈ vs, DefaultStore.Fits st) (hws : ∀ st ∈ ws, DefaultStore.Fits st)
    (hf : CardVar.isText (.port f i) = false)
    (hlatest : latest (.port f i) ws = some (.word w)) :
    C.word ((vs ++ ws).foldl C.storeDefault m) f i = w := by
  refine defaults_word hm ?_ ⟨hf, f.four_le_size⟩ (latest_append hlatest)
  intro st hst
  rcases List.mem_append.mp hst with h | h
  · exact hvs st h
  · exact hws st h

/-- **The main loop asks for the defaults of all interfaces.** -/
theorem mainLoop_asked (hm : C.Configured m) (hrestore : m (C.addr (.card .restore)) = 1) :
    ∀ i, PortAsked i fun f => C.word (C.mainLoop T m) f i := by
  have hfirst : ∀ st ∈ defaultSection1 T ++ (defaultSection4 ++ defaultSection2),
      DefaultStore.Fits st := by
    intro st hst
    rcases List.mem_append.mp hst with h | h
    · exact defaultTexts_fit (T := T) st (List.mem_append_right _ h)
    · exact defaultMeasured_fit st h
  have hloop : ∀ f i, C.word (C.mainLoop T m) f i =
      C.word (((defaultSection1 T ++ (defaultSection4 ++ defaultSection2)) ++
        restoreSettings).foldl C.storeDefault m) f i := by
    intro f i
    rw [CardMemory.mainLoop, if_pos hrestore, word_store8_card (by decide), ← List.foldl_append,
      kursProfileSetDefault_restore, restoreSettings]
    simp only [List.append_assoc]
  have hword : ∀ {f : PortField} {i : Fin INTERFACE_COUNT} {w : UInt32},
      CardVar.isText (.port f i) = false → latest (.port f i) restoreSettings = some (.word w) →
        C.word (C.mainLoop T m) f i = w := by
    intro f i w hf hlatest
    rw [hloop]
    exact defaults_port hm hfirst restoreSettings_fit hf hlatest
  have hset : ∀ {f : PortField} {i : Fin INTERFACE_COUNT} {w : UInt32},
      CardVar.isText (.port f i) = false → f ≠ .inCat → (∀ c, f ≠ .control c .change) →
        latest (.port f i) (defaultInterface i) = some (.word w) →
          C.word (C.mainLoop T m) f i = w := by
    intro f i w hf hcat hchange hlatest
    have hinfo : f ≠ .inInfo := by
      rintro rfl
      cases hf
    exact hword hf (latest_restored ⟨hinfo, hcat⟩ hchange hlatest)
  have hchange : ∀ {c : Control} {i : Fin INTERFACE_COUNT},
      latest (.control c .change i) (restoreRequests i) = some (.word 1) →
        C.word (C.mainLoop T m) (.control c .change) i ≠ 0 := by
    intro c i hlatest
    rw [hword rfl (latest_requested hlatest)]
    decide
  intro i
  refine ⟨?_, ?_, ?_, ?_, ?_, ?_, ?_, ?_, ?_, ?_, ?_⟩
  · exact hset rfl (by simp) (by simp) (by simp [latest, defaultInterface, defaultWord])
  · exact hchange (by simp [latest, restoreRequests, defaultWord])
  · exact hset rfl (by simp) (by simp) (by simp [latest, defaultInterface, defaultWord])
  · exact hchange (by simp [latest, restoreRequests, defaultWord])
  · exact hset rfl (by simp) (by simp) (by simp [latest, defaultInterface, defaultWord])
  · exact hchange (by simp [latest, restoreRequests, defaultWord])
  · exact hset rfl (by simp) (by simp) (by simp [latest, defaultInterface, defaultWord])
  · exact hset rfl (by simp) (by simp) (by simp [latest, defaultInterface, defaultWord])
  · exact fun _ => hchange (by simp [latest, restoreRequests, defaultWord])
  · exact hset rfl (by simp) (by simp) (by simp [latest, defaultInterface, defaultWord])
  · rw [hloop]
    refine (defaults_configured hm ?_).multiRate i
    intro st hst
    rcases List.mem_append.mp hst with h | h
    · exact hfirst st h
    · exact restoreSettings_fit st h

/-! ### The loop at boot -/

/-- Steps for the members of a list, each of which takes the view of its member from one assertion
to another and leaves the views of the others alone. -/
theorem foldl_views {σ τ κ : Type} (step : σ → κ → σ) (view : κ → σ → τ) (A B : κ → τ → Prop)
    (hframe : ∀ s i j, i ≠ j → view j (step s i) = view j s)
    (hstep : ∀ s i, A i (view i s) → B i (view i (step s i))) {is : List κ} (hnodup : is.Nodup)
    {s : σ} (hA : ∀ i ∈ is, A i (view i s)) : ∀ i ∈ is, B i (view i (is.foldl step s)) := by
  have hkeep : ∀ (js : List κ) (s : σ) i, i ∉ js → view i (js.foldl step s) = view i s := by
    intro js
    induction js with
    | nil => exact fun _ _ _ => rfl
    | cons j js ih =>
        intro s i hi
        have hji : j ≠ i := fun hji => hi (hji ▸ List.mem_cons_self)
        have hjs : i ∉ js := fun hmem => hi (List.mem_cons_of_mem _ hmem)
        exact (ih _ i hjs).trans (hframe s j i hji)
  induction is generalizing s with
  | nil => exact fun i hi => by cases hi
  | cons i is ih =>
      obtain ⟨hi, hnodup⟩ := List.nodup_cons.mp hnodup
      intro j hj
      rcases List.mem_cons.mp hj with rfl | hj
      · rw [List.foldl_cons, hkeep is _ j hi]
        exact hstep s j (hA j List.mem_cons_self)
      · refine ih hnodup ?_ j hj
        intro k hk
        rw [hframe s i k fun hik => hi (hik ▸ hk)]
        exact hA k (List.mem_cons_of_mem _ hk)

/-- A word that is written, among the words of an interface. -/
@[simp] theorem word_setWord {g : PortField} : C.word (C.setWord f i w m) g j =
    if g = f ∧ j = i then w else C.word m g j := word_store32

/-- What an interface shows at boot: its words, and whether its ALS is enabled. -/
def CardMemory.bootView (C : CardMemory L) (i : Fin INTERFACE_COUNT) (s : UnitState) :
    (PortField → UInt32) × Option Bool :=
  (fun f => C.word s.card.mem f i, (asClient i).map s.als.enable)

/-- The interface has its default settings, and its ALS module is in place. -/
structure PortDefault (C : CardMemory L) (i : Fin INTERFACE_COUNT) (w : PortField → UInt32) :
    Prop where
  service : w (.control .serviceState .current) = IF_SERVICE_STATE_IS
  loopback : w (.control .loopbackMode .current) = MODE_LB_NORMAL
  tx : w (.control .txDisable .current) = 0
  rateNext : w (.control .rate .next) = PORT_RATE_STM1
  rateCurrent : w (.control .rate .current) = PORT_RATE_STM1
  alsControl : w .alsControl = ALS_CONTROL_DISABLED
  als : w .als + L.alsControl = C.addr (.port .alsControl i)
  multiRate : w .capabilities &&& MULTI_RATE ≠ 0 ↔ isClient i = true

/-- Two interfaces are not the same client. -/
theorem asClient_ne {c d : Client} (hi : asClient i = some c) (hj : asClient j = some d)
    (hij : i ≠ j) : d ≠ c := by
  rintro rfl
  simp only [asClient, Option.dite_none_right_eq_some, Option.some.injEq] at hi hj
  obtain ⟨_, hi⟩ := hi
  obtain ⟨_, hj⟩ := hj
  exact hij (Fin.ext (Fin.mk.inj (hi.trans hj.symm)))

/-- **An interface at boot** leaves the others alone. -/
theorem bootUnit_other {stray : UInt32} {s : UnitState} (hij : i ≠ j) :
    C.bootView j (C.bootUnit stray s i) = C.bootView j s := by
  refine Prod.ext (funext fun f => ?_) ?_
  · have hword : C.word (C.bootInterface s.card.mem i) f j = C.word s.card.mem f j := by
      rw [CardMemory.bootInterface]
      simp only [apply_ite (fun m => C.word m f j), word_setWord, Ne.symm hij, and_false, if_false,
        ite_self]
    exact hword
  · simp only [CardMemory.bootView, CardMemory.bootUnit, AlsHardware.setMode]
    cases hi : asClient i with
    | none => rfl
    | some c =>
        cases hj : asClient j with
        | none => rfl
        | some d =>
            have hne := asClient_ne hi hj hij
            simp only [Option.elim_some, Option.map_some]
            split <;> simp [Function.update_of_ne hne]

/-- **An interface at boot** asks for its default settings, and its ALS is disabled. -/
theorem bootUnit_asked {stray : UInt32} {s : UnitState}
    (h : PortDefault C i (C.bootView i s).1) :
    PortAsked i (C.bootView i (C.bootUnit stray s i)).1 ∧
      (C.bootView i (C.bootUnit stray s i)).2 = (asClient i).map fun _ => false := by
  obtain ⟨hservice, hloop, htx, hnext, hcurrent, hcontrol, hals, hmulti⟩ := h
  simp only [CardMemory.bootView] at hservice hloop htx hnext hcurrent hcontrol hals hmulti
  constructor
  · have hin : IF_SERVICE_STATE_IS ≠ IF_SERVICE_STATE_OOS := by decide
    have hrate : ¬ (PORT_RATE_STM1 = PORT_RATE_OTU1 ∨ PORT_RATE_STM1 = PORT_RATE_STM16 ∨
        PORT_RATE_STM1 = PORT_RATE_FC2) := by decide
    cases hclient : isClient i with
    | false =>
        constructor <;> simp [CardMemory.bootView, CardMemory.bootUnit, CardMemory.bootInterface,
          hclient, hservice, hloop, htx, hnext, hcurrent, hcontrol, hmulti, hin]
    | true =>
        constructor <;> simp [CardMemory.bootView, CardMemory.bootUnit, CardMemory.bootInterface,
          hclient, hservice, hloop, htx, hcurrent, hcontrol, hmulti, hin, hrate]
  · have hpointer : s.card.mem.load32 (C.addr (.port .als i)) + L.alsControl =
        C.addr (.port .alsControl i) := hals
    have hmode : s.card.mem.load32 (C.addr (.port .alsControl i)) = ALS_CONTROL_DISABLED :=
      hcontrol
    simp only [CardMemory.bootView, CardMemory.bootUnit, AlsHardware.setMode, hpointer, hmode]
    cases asClient i with
    | none => rfl
    | some c => simp

/-- The loop over the interfaces. -/
theorem bootLoop_asked {stray : UInt32} {s : UnitState}
    (h : ∀ i, PortDefault C i (C.bootView i s).1) :
    ∀ i, PortAsked i (C.bootView i ((List.finRange INTERFACE_COUNT).foldl
      (C.bootUnit stray) s)).1 ∧
        (C.bootView i ((List.finRange INTERFACE_COUNT).foldl (C.bootUnit stray) s)).2 =
          (asClient i).map fun _ => false := by
  have hview := foldl_views (C.bootUnit stray) C.bootView (fun i v => PortDefault C i v.1)
    (fun i v => PortAsked i v.1 ∧ v.2 = (asClient i).map fun _ => false)
    (fun s i j hij => bootUnit_other hij) (fun s i h => bootUnit_asked h)
    (List.nodup_finRange INTERFACE_COUNT) fun i _ => h i
  exact fun i => hview i (List.mem_finRange i)

/-- **Booting asks for the defaults of all interfaces**, and disables the ALS of all clients. -/
theorem boot_asked {stray : UInt32} {s : UnitState} (hm : C.Configured s.card.mem) :
    ∀ i, PortAsked i (C.bootView i (C.boot T stray s)).1 ∧
      (C.bootView i (C.boot T stray s)).2 = (asClient i).map fun _ => false := by
  obtain ⟨s₀, hs₀⟩ : ∃ s₀ : UnitState, s₀ = { s with
    card.mem := (kursProfileSetDefault T 0xFFFFFFF).foldl C.storeDefault s.card.mem } := ⟨_, rfl⟩
  have hmem : s₀.card.mem = (kursProfileSetDefault T 0xFFFFFFF).foldl C.storeDefault
      s.card.mem := by rw [hs₀]
  have hboot : C.boot T stray s =
      (List.finRange INTERFACE_COUNT).foldl (C.bootUnit stray) s₀ := by
    rw [CardMemory.boot, hs₀]
  have hset : ∀ {f : PortField} {i : Fin INTERFACE_COUNT} {w : UInt32},
      CardVar.isText (.port f i) = false → f ≠ .inCat →
        latest (.port f i) (defaultInterface i) = some (.word w) →
          (C.bootView i s₀).1 f = w := by
    intro f i w hf hcat hlatest
    have hinfo : f ≠ .inInfo := by
      rintro rfl
      cases hf
    rw [CardMemory.bootView, hmem]
    refine defaults_word hm bootDefaults_fit ⟨hf, f.four_le_size⟩ ?_
    rw [kursProfileSetDefault_boot]
    exact latest_append (latest_settings ⟨hinfo, hcat⟩ hlatest)
  have hconfigured : C.Configured s₀.card.mem := by
    rw [hmem]
    exact defaults_configured hm bootDefaults_fit
  rw [hboot]
  refine bootLoop_asked fun i => ?_
  refine ⟨?_, ?_, ?_, ?_, ?_, ?_, hconfigured.als i, hconfigured.multiRate i⟩
  all_goals exact hset rfl (by simp) (by simp [latest, defaultInterface, defaultWord])

end card

end Muxponder
