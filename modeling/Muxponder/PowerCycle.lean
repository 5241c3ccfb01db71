import Muxponder.ResetToDefaults

/-!
# Settings across a Power Cycle

At boot all variables get their defaults, `read_user_settings` gives the registered ones the values
of the record in the flash, and `main` asks `task_10` to apply the settings anew. Not all of them
come back: the categories of the clients from the fifth on are not registered, and three rates are
not asked for at boot, so that they are set along with the loopback mode or not at all.

## Main results

* `readBack`: what is read at boot is what was saved.
* `taskInterface_restored`: what a pass of `task_10` leaves of what has been asked for at boot.
* `portEffect_powerUp`: the settings of an interface behind a power cycle.
* `settings_powerUp`: when the settings of the unit are what they were before it.
-/

namespace Muxponder

open Memory LastWrite Interrupts

/-! ### The settings -/

/-- The texts among the settings. -/
def storedTexts : List CardVar :=
  [.card .pid, .card .serialNumber] ++
    (List.finRange INTERFACE_COUNT).flatMap fun i => [.port .inInfo i, .port .destination i]

/-- The settings that are stored and nothing else: categories and thresholds. -/
def storedWords : List CardVar :=
  List.flatten
    [limits.map fun l => .card (.temperatureLimit l),
      (List.finRange INTERFACE_COUNT).flatMap fun i => [.port .inCat i, .port .thresholdMode i],
      (List.finRange INTERFACE_COUNT).flatMap fun i => limits.flatMap fun l =>
        [.port (.pin l) i, .port (.pout l) i, .port (.sfpTemperatureLimit l) i],
      lines.flatMap fun i => limits.map fun l => .port (.fecLoadLimit l) i]

/-- What a loopback mode sets the register of an interface to, if it does. -/
def loopbackBit (i : Fin INTERFACE_COUNT) (mode : UInt32) : Option Bool :=
  if mode = MODE_LB_NORMAL then some false
  else if mode = MODE_LB_LN then some true
  else if mode = MODE_LB_CL ∧ isClient i then some false
  else none

/-- The mode that a control value enables the ALS of a client in. -/
def alsEnabled (stray control : UInt32) : Option UInt32 :=
  if control = ALS_CONTROL_DISABLED then none else some (mapAlsFromKursValue stray control)

/-- The effective settings of an interface: what is stored, and what the hardware has been set
to. -/
structure PortEffect where
  serviceState : UInt32
  txDisable : UInt32 × Bool
  loopbackMode : UInt32 × Bool
  rate : UInt32
  /-- For a client: the selection, and the rate of the receiver. -/
  registers : Option (UInt32 × UInt32)
  alsControl : UInt32
  /-- For a client: the mode that its ALS is enabled in. -/
  als : Option (Option UInt32)

/-- The settings of the unit. -/
@[ext] structure UnitSettings where
  texts : List (List UInt8)
  words : List UInt32
  port : Fin INTERFACE_COUNT → PortEffect

section card

variable {L : Layout}

/-- The effective settings of an interface. -/
def CardMemory.portEffect (C : CardMemory L) (u : UnitState) (i : Fin INTERFACE_COUNT) :
    PortEffect where
  serviceState := C.word u.card.mem (.control .serviceState .current) i
  txDisable := (C.word u.card.mem (.control .txDisable .current) i, u.card.hw.txDisable i)
  loopbackMode :=
    (C.word u.card.mem (.control .loopbackMode .current) i, u.card.hw.serialLoopback i)
  rate := C.word u.card.mem (.control .rate .current) i
  registers := if isClient i then some (u.card.hw.rateSelect i, u.card.hw.rateRx i) else none
  alsControl := C.word u.card.mem .alsControl i
  als := (asClient i).map u.als.enabledMode

/-- The settings of the unit. -/
def CardMemory.settings (C : CardMemory L) (u : UnitState) : UnitSettings where
  texts := storedTexts.map fun v => u.card.mem.valueOf (C.region v)
  words := storedWords.map fun v => u.card.mem.load32 (C.addr v)
  port := C.portEffect u

/-- All requests have been applied to an interface: the hardware has been set to what is stored. An
interface that is out of service has its transmitter off, and the ALS mode is one that a request can
set. -/
structure CardMemory.Applied (C : CardMemory L) (u : UnitState) (i : Fin INTERFACE_COUNT) :
    Prop where
  tx : C.word u.card.mem (.control .txDisable .current) i = if u.card.hw.txDisable i then 1 else 0
  outOfService : C.word u.card.mem (.control .serviceState .current) i = IF_SERVICE_STATE_OOS →
    u.card.hw.txDisable i = true
  loopback : ∀ b ∈ loopbackBit i (C.word u.card.mem (.control .loopbackMode .current) i),
    u.card.hw.serialLoopback i = b
  rate : isClient i = true →
    u.card.hw.rateSelect i = topLevelRate (C.word u.card.mem (.control .rate .current) i) ∧
      u.card.hw.rateRx i = C.word u.card.mem (.control .rate .current) i
  als : ∀ c ∈ asClient i, ∀ stray,
    u.als.enabledMode c = alsEnabled stray (C.word u.card.mem .alsControl i)

/-- Booting with a record in the flash. -/
def CardMemory.powerUp (C : CardMemory L) (T : DefaultTexts) (stray : UInt32)
    (record : List UInt8) (b : UnitState) : Option UnitState :=
  let m := (kursProfileSetDefault T 0xFFFFFFF).foldl C.storeDefault b.card.mem
  (readUserSettings C.preferences (fun _ => (RET_SUCCESS, record)) m).map fun r =>
    (List.finRange INTERFACE_COUNT).foldl (C.bootUnit stray) { b with card.mem := r.2 }

/-- The rates that are not asked for at boot. -/
def heldRates : List UInt32 := [PORT_RATE_OTU1, PORT_RATE_STM16, PORT_RATE_FC2]

/-- Applying a loopback mode sets the rate of a client as well. -/
def LoopbackSetsRate (i : Fin INTERFACE_COUNT) (mode rate : UInt32) : Prop :=
  if i.val < 8 then mode = MODE_LB_NORMAL ∨ mode = MODE_LB_CL ∨ mode = MODE_LB_LN
  else mode = MODE_LB_NORMAL ∧ rate ∈ heldRates ∨ mode = MODE_LB_CL

variable {C : CardMemory L} {T : DefaultTexts} {heap : Heap} {record : List UInt8} {m m' : Mem}
  {i : Fin INTERFACE_COUNT} {v : CardVar}

/-! ### What is read back -/

/-- **What is read at boot is what was saved.** -/
theorem readBack (hcommit : commitUserSettings heap m C.preferences = some record) :
    readUserSettings C.preferences (fun _ => (RET_SUCCESS, record)) m' =
      some (RET_SUCCESS, restore C.preferences.nodes (snapshot m C.preferences.nodes) m') := by
  obtain ⟨hfits, rfl⟩ := commitUserSettings_eq_some_iff.mp hcommit
  rw [readUserSettings_fields hfits signature_length intBytes_length snapshot_length
    signature_length rfl, if_pos ⟨rfl, rfl, rfl⟩]

/-- A variable that is registered as a whole comes back. -/
theorem restored_agree (hv : Preference.whole v ∈ buildPreferencesList) : m.AgreeOn
    (restore C.preferences.nodes (snapshot m C.preferences.nodes) m') (C.region v) := by
  intro x hx
  have hnode : C.region v ∈ C.preferences.nodes := by
    rw [preferences_nodes]
    exact List.mem_map_of_mem hv
  have hrestored : restore C.preferences.nodes (snapshot m C.preferences.nodes ++ []) m' x = m x :=
    restore_snapshot (.inr ⟨_, hnode, hx⟩)
  rwa [List.append_nil] at hrestored

/-- One that is not registered stays. -/
theorem restored_other (m m' : Mem) (hv : ∀ p ∈ buildPreferencesList, p.object ≠ v) : m'.AgreeOn
    (restore C.preferences.nodes (snapshot m C.preferences.nodes) m') (C.region v) := by
  intro x hx
  refine restore_frame fun r hr hrx => ?_
  rw [preferences_nodes] at hr
  obtain ⟨p, hp, rfl⟩ := List.mem_map.mp hr
  refine C.apart _ _ (hv p hp) x ?_ hx
  exact Nat.lt_of_lt_of_le hrx (preference_size_le p hp)

/-- The settings of an interface are registered. -/
theorem interface_registered {p : Preference} (hp : p ∈ interfacePreferences i) :
    p ∈ buildPreferencesList := by
  have hall : p ∈ (List.finRange INTERFACE_COUNT).flatMap interfacePreferences :=
    List.mem_flatMap.mpr ⟨i, List.mem_finRange i, hp⟩
  exact List.mem_flatten.mpr ⟨_, by simp, hall⟩

/-- The texts are registered. -/
theorem texts_registered : ∀ v ∈ storedTexts, Preference.whole v ∈ buildPreferencesList := by
  intro v hv
  rcases List.mem_append.mp hv with hcard | hport
  · have hfirst : Preference.whole v ∈
        [Preference.whole (.card .pid), Preference.whole (.card .serialNumber)] :=
      List.mem_map_of_mem hcard
    exact List.mem_flatten.mpr ⟨_, List.mem_cons_self, hfirst⟩
  · obtain ⟨i, -, hi⟩ := List.mem_flatMap.mp hport
    simp only [List.mem_cons, List.not_mem_nil, or_false] at hi
    rcases hi with rfl | rfl
    · have hinfo : Preference.whole (.port .inInfo i) ∈
          (clients ++ lines).map fun i => Preference.whole (.port .inInfo i) := by
        refine List.mem_map_of_mem ?_
        revert i
        decide
      exact List.mem_flatten.mpr ⟨_, by simp, hinfo⟩
    · exact interface_registered (i := i) (by simp [interfacePreferences])

/-- So are the words, but for the categories of the clients from the fifth on. -/
theorem words_registered : ∀ v ∈ storedWords,
    Preference.whole v ∈ buildPreferencesList ∨ ∃ i ∈ clients.drop 4, v = .port .inCat i := by
  intro v hv
  simp only [storedWords, List.flatten_cons, List.flatten_nil, List.append_nil, List.mem_append]
    at hv
  rcases hv with hcard | hport | hlimit | hload
  · obtain ⟨l, hl, rfl⟩ := List.mem_map.mp hcard
    have hlimits : Preference.whole (.card (.temperatureLimit l)) ∈
        limits.map fun l => Preference.whole (.card (.temperatureLimit l)) := List.mem_map_of_mem hl
    exact .inl (List.mem_flatten.mpr ⟨_, by simp, hlimits⟩)
  · obtain ⟨i, -, hi⟩ := List.mem_flatMap.mp hport
    simp only [List.mem_cons, List.not_mem_nil, or_false] at hi
    rcases hi with rfl | rfl
    · have hclass : ∀ i, i ∈ clients.take 4 ∨ i ∈ clients.drop 4 ∨ i ∈ lines := by decide
      rcases hclass i with hfirst | hrest | hline
      · have hcat : Preference.whole (.port .inCat i) ∈
            (clients.take 4).map fun i => Preference.whole (.port .inCat i) :=
          List.mem_map_of_mem hfirst
        exact .inl (List.mem_flatten.mpr ⟨_, by simp, hcat⟩)
      · exact .inr ⟨i, hrest, rfl⟩
      · have hcat : Preference.whole (.port .inCat i) ∈
            lines.map fun i => Preference.whole (.port .inCat i) := List.mem_map_of_mem hline
        exact .inl (List.mem_flatten.mpr ⟨_, by simp, hcat⟩)
    · exact .inl (interface_registered (i := i) (by simp [interfacePreferences]))
  · obtain ⟨i, -, hi⟩ := List.mem_flatMap.mp hlimit
    obtain ⟨l, -, hv⟩ := List.mem_flatMap.mp hi
    simp only [List.mem_cons, List.not_mem_nil, or_false] at hv
    refine .inl (interface_registered (i := i) ?_)
    rcases hv with rfl | rfl | rfl <;> cases l <;>
      simp [interfacePreferences, limits, Preference.whole]
  · obtain ⟨i, hi, hl⟩ := List.mem_flatMap.mp hload
    obtain ⟨l, -, rfl⟩ := List.mem_map.mp hl
    have hloads : Preference.whole (.port (.fecLoadLimit l) i) ∈ lines.flatMap fun i =>
        [.whole (.port (.fecLoadLimit .criticalMin) i),
          .whole (.port (.fecLoadLimit .criticalMax) i),
          .whole (.port (.fecLoadLimit .warningMin) i),
          .whole (.port (.fecLoadLimit .warningMax) i)] := by
      refine List.mem_flatMap.mpr ⟨i, hi, ?_⟩
      cases l <;> simp
    exact .inl (List.mem_flatten.mpr ⟨_, by simp, hloads⟩)

/-- Those are not registered. -/
theorem inCat_not_registered (hi : i ∈ clients.drop 4) :
    ∀ p ∈ buildPreferencesList, p.object ≠ .port .inCat i := by
  have hcategories : ∀ p ∈ buildPreferencesList, ∀ i ∈ clients.drop 4,
      p.object ≠ .port .inCat i := by
    decide +kernel
  exact fun p hp => hcategories p hp i hi

/-- Neither is what has been set up at boot. -/
theorem configured_not_registered (hv : v.isConfigured = true) :
    ∀ p ∈ buildPreferencesList, p.object ≠ v := by
  have hfalse : ∀ p ∈ buildPreferencesList, p.object.isConfigured = false := by
    decide +kernel
  rintro p hp rfl
  rw [hfalse p hp] at hv
  cases hv

/-- Their default is 0. -/
theorem latest_inCat : ∀ i, latest (.port .inCat i) defaultSettings = some (.word 0) := by
  decide +kernel

/-! ### Booting -/

/-- What an interface shows at boot: its words, and the mode that its ALS is enabled in. -/
def CardMemory.powerView (C : CardMemory L) (i : Fin INTERFACE_COUNT) (s : UnitState) :
    (PortField → UInt32) × Option (Option UInt32) :=
  (fun f => C.word s.card.mem f i, (asClient i).map s.als.enabledMode)

/-- What is asked for at boot, with the words of the interface before. -/
structure PortBooted (i : Fin INTERFACE_COUNT) (x w : PortField → UInt32) : Prop where
  serviceNext : w (.control .serviceState .next) = x (.control .serviceState .current)
  serviceChange : w (.control .serviceState .change) ≠ 0
  loopbackNext : w (.control .loopbackMode .next) = x (.control .loopbackMode .current)
  loopbackChange : w (.control .loopbackMode .change) ≠ 0
  txNext : w (.control .txDisable .next) =
    if x (.control .serviceState .current) = IF_SERVICE_STATE_OOS then 1
    else x (.control .txDisable .current)
  txChange : w (.control .txDisable .change) ≠ 0
  rateCurrent : w (.control .rate .current) = x (.control .rate .current)
  rateNext : isClient i = true → w (.control .rate .next) = x (.control .rate .current)
  rateChange : isClient i = true →
    (w (.control .rate .change) = 0 ↔ x (.control .rate .current) ∈ heldRates)
  alsControl : w .alsControl = x .alsControl
  multiRate : w .capabilities &&& MULTI_RATE ≠ 0 ↔ isClient i = true

variable {stray : UInt32} {s : UnitState} {j : Fin INTERFACE_COUNT} {x : PortField → UInt32}

/-- A mode is set for a client. -/
theorem enabledMode_setMode {a : AlsHardware} {c : Client} {mode : UInt32}
    (hi : asClient i = some c) :
    (a.setMode stray i mode).enabledMode c = alsEnabled stray mode := by
  rw [AlsHardware.setMode, hi, Option.elim_some, alsEnabled]
  split
  next => simp [AlsHardware.enabledMode]
  next => simp [AlsHardware.enabledMode]

/-- The others are left alone. -/
theorem enabledMode_setMode_other {a : AlsHardware} {d : Client} {mode : UInt32}
    (hj : asClient j = some d) (hij : i ≠ j) :
    (a.setMode stray i mode).enabledMode d = a.enabledMode d := by
  rw [AlsHardware.setMode]
  cases hi : asClient i with
  | none => rfl
  | some c =>
      have hne : d ≠ c := asClient_ne hi hj hij
      rw [Option.elim_some]
      split <;> simp [AlsHardware.enabledMode, Function.update_of_ne hne]

/-- An interface at boot leaves the others alone. -/
theorem bootUnit_powerView_other (hij : i ≠ j) :
    C.powerView j (C.bootUnit stray s i) = C.powerView j s := by
  have hwords : (C.bootView j (C.bootUnit stray s i)).1 = (C.bootView j s).1 :=
    congrArg Prod.fst (bootUnit_other hij)
  refine Prod.ext hwords ?_
  · simp only [CardMemory.powerView, CardMemory.bootUnit]
    cases hj : asClient j with
    | none => rfl
    | some d => exact congrArg some (enabledMode_setMode_other hj hij)

/-- Its ALS is set to the mode that is stored. -/
theorem bootUnit_als
    (hals : C.word s.card.mem .als i + L.alsControl = C.addr (.port .alsControl i)) :
    (C.powerView i (C.bootUnit stray s i)).2 =
      (asClient i).map fun _ => alsEnabled stray (C.word s.card.mem .alsControl i) := by
  have hpointer : s.card.mem.load32 (C.addr (.port .als i)) + L.alsControl =
      C.addr (.port .alsControl i) := hals
  simp only [CardMemory.powerView, CardMemory.bootUnit, hpointer]
  cases hi : asClient i with
  | none => rfl
  | some c => exact congrArg some (enabledMode_setMode hi)

/-- **An interface at boot** asks for its settings anew. -/
theorem bootUnit_booted
    (hmulti : C.word s.card.mem .capabilities i &&& MULTI_RATE ≠ 0 ↔ isClient i = true) :
    PortBooted i (C.powerView i s).1 (C.powerView i (C.bootUnit stray s i)).1 := by
  have hheld : (C.word s.card.mem (.control .rate .current) i = PORT_RATE_OTU1 ∨
      C.word s.card.mem (.control .rate .current) i = PORT_RATE_STM16 ∨
      C.word s.card.mem (.control .rate .current) i = PORT_RATE_FC2) ↔
        C.word s.card.mem (.control .rate .current) i ∈ heldRates := by
    simp [heldRates]
  by_cases hoos : C.word s.card.mem (.control .serviceState .current) i = IF_SERVICE_STATE_OOS <;>
    cases hclient : isClient i
  all_goals
    constructor <;> simp [CardMemory.powerView, CardMemory.bootUnit, CardMemory.bootInterface,
      hclient, hoos, hmulti, hheld]

/-- **Booting asks for the settings of all interfaces anew.** -/
theorem bootLoop_booted (stray : UInt32) (s : UnitState) (hm : C.Configured s.card.mem) : ∀ i,
    PortBooted i (C.powerView i s).1
        (C.powerView i ((List.finRange INTERFACE_COUNT).foldl (C.bootUnit stray) s)).1 ∧
      (C.powerView i ((List.finRange INTERFACE_COUNT).foldl (C.bootUnit stray) s)).2 =
        (asClient i).map fun _ => alsEnabled stray (C.word s.card.mem .alsControl i) := by
  have hview := foldl_views (C.bootUnit stray) C.powerView (fun i x => x = C.powerView i s)
    (fun i x => PortBooted i (C.powerView i s).1 x.1 ∧
      x.2 = (asClient i).map fun _ => alsEnabled stray (C.word s.card.mem .alsControl i))
    (fun s i j hij => bootUnit_powerView_other hij) ?_
    (List.nodup_finRange INTERFACE_COUNT) fun i _ => rfl
  · exact fun i => hview i (List.mem_finRange i)
  · intro s' i hsame
    have hword : ∀ f, C.word s'.card.mem f i = C.word s.card.mem f i := fun f =>
      congrFun (congrArg Prod.fst hsame) f
    rw [← hsame, ← hword .alsControl]
    refine ⟨bootUnit_booted ?_, bootUnit_als ?_⟩
    · rw [hword]
      exact hm.multiRate i
    · rw [hword]
      exact hm.als i

/-- The variables of the controls. -/
def controlVars : Set CardVar := {v | ∃ c p i, v = .control c p i}

/-- An interface at boot has the variables of its controls written. -/
theorem bootInterface_writes : C.Writes controlVars m (C.bootInterface m i) := by
  have hset : ∀ {c p} {w : UInt32} {m₁ : Mem}, C.Writes controlVars m m₁ →
      C.Writes controlVars m (C.setWord (.control c p) i w m₁) := fun {c p _ _} h =>
    h.trans (.store32 ⟨c, p, i, rfl⟩ (PortField.four_le_size _))
  unfold CardMemory.bootInterface
  extract_lets -lift _ behindService _ _ behindRate _ _ behindLoopback
  have hservice : C.Writes controlVars m behindService := hset (hset .refl)
  have hrate : C.Writes controlVars m behindRate := by
    change C.Writes controlVars m (if isClient i then _ else behindService)
    split
    · exact hset (hset hservice)
    · exact hservice
  have hloopback : C.Writes controlVars m behindLoopback := hset (hset (hset hrate))
  split
  · exact hset (hset (hset hloopback))
  · exact hset (hset hloopback)

/-- Booting writes no others, and leaves the registers of the task alone. -/
theorem bootLoop_card (stray : UInt32) (s : UnitState) (is : List (Fin INTERFACE_COUNT)) :
    C.Writes controlVars s.card.mem (is.foldl (C.bootUnit stray) s).card.mem ∧
      (is.foldl (C.bootUnit stray) s).card.hw = s.card.hw := by
  induction is generalizing s with
  | nil => exact ⟨.refl, rfl⟩
  | cons i is ih =>
      have hfirst : C.Writes controlVars s.card.mem (C.bootUnit stray s i).card.mem :=
        bootInterface_writes
      obtain ⟨hwrites, hhw⟩ := ih (C.bootUnit stray s i)
      rw [List.foldl_cons]
      exact ⟨hfirst.trans hwrites, hhw⟩

end card

/-! ### The settings are applied anew -/

section port

variable {i : Fin INTERFACE_COUNT} {x v : PortView} {parts : ℕ} {w : UInt32} {p : Place}
  {f : PortField}

/-- The rate of a client has been set behind so many parts of the task, in the order of the task:
service state, loopback mode, rate, transmitter. -/
def RateSet (i : Fin INTERFACE_COUNT) (x : PortView) (parts : ℕ) : Prop :=
  1 < parts ∧ LoopbackSetsRate i (x.word (.control .loopbackMode .next))
      (x.word (.control .rate .current)) ∨
    2 < parts ∧ x.word (.control .rate .current) ∉ heldRates

/-- How far the settings of an interface have been applied, with the interface as it was behind
the boot. -/
structure PortRestored (i : Fin INTERFACE_COUNT) (x : PortView) (parts : ℕ) (v : PortView) :
    Prop where
  service :
    if 0 < parts then
      v.word (.control .serviceState .current) = x.word (.control .serviceState .next)
    else
      v.word (.control .serviceState .next) = x.word (.control .serviceState .next) ∧
        v.word (.control .serviceState .change) ≠ 0
  loopback :
    if 1 < parts then
      v.word (.control .loopbackMode .current) = x.word (.control .loopbackMode .next) ∧
        v.serialLoopback =
          (loopbackBit i (x.word (.control .loopbackMode .next))).getD x.serialLoopback
    else
      v.word (.control .loopbackMode .next) = x.word (.control .loopbackMode .next) ∧
        v.word (.control .loopbackMode .change) ≠ 0 ∧ v.serialLoopback = x.serialLoopback
  rateCurrent : v.word (.control .rate .current) = x.word (.control .rate .current)
  rateNext : isClient i = true →
    v.word (.control .rate .next) = x.word (.control .rate .current)
  rateChange : parts ≤ 2 → isClient i = true →
    (v.word (.control .rate .change) = 0 ↔ x.word (.control .rate .current) ∈ heldRates)
  rateSet : isClient i = true → RateSet i x parts →
    v.rateSelect = topLevelRate (x.word (.control .rate .current)) ∧
      v.rateRx = x.word (.control .rate .current)
  rateNotSet : isClient i = true → ¬ RateSet i x parts →
    v.rateSelect = x.rateSelect ∧ v.rateRx = x.rateRx
  tx :
    if 3 < parts then
      v.word (.control .txDisable .current) =
          (if x.word (.control .txDisable .next) = 0 then 0 else 1) ∧
        v.txDisable = !decide (x.word (.control .txDisable .next) = 0)
    else
      v.word (.control .txDisable .next) = x.word (.control .txDisable .next) ∧
        v.word (.control .txDisable .change) ≠ 0
  outOfService : x.word (.control .serviceState .next) = IF_SERVICE_STATE_OOS →
    x.word (.control .txDisable .next) = 1
  alsControl : v.word .alsControl = x.word .alsControl
  multiRate : v.word .capabilities &&& MULTI_RATE ≠ 0 ↔ isClient i = true

/-- The words that are asked for apart are not these. -/
theorem PortRestored.set (h : PortRestored i x parts v)
    (hf : f = .control .resetCounters .change ∨ f = .rebootChange ∨ f = .monitor ∨
      f = .monitorRate) :
    PortRestored i x parts (v.set f w) := by
  obtain ⟨hservice, hloopback, hcurrent, hnext, hchange, hset, hnot, htx, hout, hals, hmulti⟩ := h
  rcases hf with rfl | rfl | rfl | rfl <;>
    exact ⟨hservice, hloopback, hcurrent, hnext, hchange, hset, hnot, htx, hout, hals, hmulti⟩

/-- The service state does not set the rate. -/
theorem rateSet_one : RateSet i x 1 ↔ RateSet i x 0 := by simp [RateSet]

attribute [local simp] PortView.did Prog.wp_ite

/-- **The service state** is applied. -/
theorem servicePart_restored (h : PortRestored i x 0 v) :
    (servicePart i).wp PortView.Step (fun _ => PortRestored i x 1) v := by
  obtain ⟨⟨hnext, hchange⟩, hloopback, hcurrent, hrnext, hrchange, hset, hnot, htx, hout, hals,
    hmulti⟩ := h
  rw [← rateSet_one] at hset hnot
  by_cases hoos : x.word (.control .serviceState .next) = IF_SERVICE_STATE_OOS
  · have hoff : (1 : UInt32) = x.word (.control .txDisable .next) := (hout hoos).symm
    have hone : (1 : UInt32) ≠ 0 := by decide
    simp [servicePart, switchState, stateCases, hnext, hchange, hoos]
    exact ⟨hnext, hloopback, hcurrent, hrnext, fun _ => hrchange (by decide), hset, hnot,
      ⟨hoff, hone⟩, hout, hals, hmulti⟩
  · simp [servicePart, switchState, stateCases, hnext, hchange, hoos]
    have hrest := fun _ : 1 ≤ 2 => hrchange (by decide)
    refine ⟨fun _ => ?_, fun _ => ⟨fun _ => ?_, fun _ => ?_⟩⟩
    · exact ⟨hnext, hloopback, hcurrent, hrnext, hrest, hset, hnot, htx, hout, hals, hmulti⟩
    · exact ⟨hnext, hloopback, hcurrent, hrnext, hrest, hset, hnot, htx, hout, hals, hmulti⟩
    · exact ⟨rfl, hloopback, hcurrent, hrnext, hrest, hset, hnot, htx, hout, hals, hmulti⟩

instance {mode rate : UInt32} : Decidable (LoopbackSetsRate i mode rate) := by
  unfold LoopbackSetsRate
  infer_instance

/-- An interface behind the cases of a loopback mode: a client has the rate set that is asked
for. -/
def PortView.looped (v : PortView) (i : Fin INTERFACE_COUNT) (mode : UInt32) : PortView :=
  let v := { v with serialLoopback := (loopbackBit i mode).getD v.serialLoopback }
  if isClient i = true ∧ LoopbackSetsRate i mode (v.word (.control .rate .next)) then
    v.setRate (v.word (.control .rate .next))
  else v

/-- **The cases of a loopback mode.** -/
theorem switchLoopback_looped {mode : UInt32}
    (hmulti : v.word .capabilities &&& MULTI_RATE ≠ 0 ↔ isClient i = true) :
    (switchLoopback i mode).wp PortView.Step (fun _ v' => v' = v.looped i mode) v := by
  have hset : ∀ (b : Bool) p q, (setIfPortRate i p q).wp PortView.Step
      (fun _ v' => v' = if isClient i = true then
        ({ v with serialLoopback := b } : PortView).setRate (v.word (.control .rate .next))
        else { v with serialLoopback := b }) { v with serialLoopback := b } := by
    intro b p q
    refine (wp_setRate (v := { v with serialLoopback := b }) hmulti).mpr ?_
    split <;> rfl
  have hnl : MODE_LB_NORMAL ≠ MODE_LB_LN := by decide
  have hcl : MODE_LB_CL ≠ MODE_LB_LN := by decide
  have hcn : MODE_LB_CL ≠ MODE_LB_NORMAL := by decide
  by_cases h8 : i.val < 8
  · have hclient : isClient i = true := by
      simp [isClient]
      omega
    simp only [hclient, if_true] at hset
    by_cases hn : mode = MODE_LB_NORMAL
    · subst hn
      simp [switchLoopback, h8, hset, PortView.looped, loopbackBit, LoopbackSetsRate, hclient]
    · by_cases hl : mode = MODE_LB_LN
      · subst hl
        simp [switchLoopback, h8, hset, PortView.looped, loopbackBit, LoopbackSetsRate, hclient,
          hcl.symm, hnl.symm]
      · by_cases hc : mode = MODE_LB_CL
        · subst hc
          simp [switchLoopback, h8, hset, PortView.looped, loopbackBit, LoopbackSetsRate, hclient,
            hcl, hcn]
        · simp [switchLoopback, h8, PortView.looped, loopbackBit, LoopbackSetsRate, hn, hl, hc]
  · cases hclient : isClient i with
    | true =>
        simp only [hclient, if_true] at hset
        by_cases hn : mode = MODE_LB_NORMAL
        · subst hn
          simp [switchLoopback, h8, PortView.looped, loopbackBit, LoopbackSetsRate, hclient,
            heldRates, hcn.symm]
          refine ⟨fun h => ?_, fun _ => ⟨fun h => ?_, fun _ => ⟨fun h => ?_, fun _ => ?_⟩⟩⟩
          · rw [if_pos (.inl h)]
            exact hset _ _ _
          · rw [if_pos (.inr (.inl h))]
            exact hset _ _ _
          · rw [if_pos (.inr (.inr h))]
            exact hset _ _ _
          · rintro (h | h | h) <;> contradiction
        · by_cases hl : mode = MODE_LB_LN
          · subst hl
            simp [switchLoopback, h8, PortView.looped, loopbackBit, LoopbackSetsRate, hclient,
              hcl.symm, hnl.symm]
          · by_cases hc : mode = MODE_LB_CL
            · subst hc
              simp [switchLoopback, h8, hset, PortView.looped, loopbackBit, LoopbackSetsRate,
                hclient, hcl, hcn]
            · simp [switchLoopback, h8, PortView.looped, loopbackBit, LoopbackSetsRate, hclient, hn,
                hl, hc]
    | false =>
        by_cases hn : mode = MODE_LB_NORMAL
        · subst hn
          simp [switchLoopback, h8, PortView.looped, loopbackBit, hclient]
        · by_cases hl : mode = MODE_LB_LN
          · subst hl
            simp [switchLoopback, h8, PortView.looped, loopbackBit, hclient, hnl.symm]
          · simp [switchLoopback, h8, PortView.looped, loopbackBit, hclient, hn, hl]

/-- **The loopback mode** is applied. -/
theorem loopbackPart_restored (h : PortRestored i x 1 v) :
    (loopbackPart i).wp PortView.Step (fun _ => PortRestored i x 2) v := by
  obtain ⟨hservice, ⟨hnext, hchange, hserial⟩, hcurrent, hrnext, hrchange, hset, hnot, htx, hout,
    hals, hmulti⟩ := h
  have hswitch : ∀ mode, (switchLoopback i mode).wp PortView.Step
      (fun _ v' => v' = v.looped i mode) v := fun _ => switchLoopback_looped hmulti
  have hbit := congrArg (loopbackBit i (x.word (.control .loopbackMode .next))).getD hserial
  have hbefore : ¬ RateSet i x 1 := by simp [RateSet]
  have hbehind : RateSet i x 2 ↔ LoopbackSetsRate i (x.word (.control .loopbackMode .next))
      (x.word (.control .rate .current)) := by simp [RateSet]
  have hrest := fun _ : 2 ≤ 2 => hrchange (by decide)
  simp only [loopbackPart, setIfPortLoopback, Prog.wp_bind, Prog.wp_ite, wp_readWord, wp_perform,
    wp_writeWord, Prog.wp_pure, PortView.did, hnext]
  refine ⟨fun _ => Prog.wp_mono (hswitch _) ?_, fun h0 => absurd hchange h0⟩
  rintro _ v' rfl
  rw [PortView.looped]
  dsimp only
  split
  next hsets =>
    obtain ⟨hclient, hsets⟩ := hsets
    have hstored := hrnext hclient
    rw [hstored, ← hbehind] at hsets
    refine ⟨hservice, ⟨hnext, hbit⟩, hstored, hrnext, hrest, fun _ _ => ?_,
      fun _ hnone => absurd hsets hnone, htx, hout, hals, hmulti⟩
    exact ⟨congrArg topLevelRate hstored, hstored⟩
  next hsets =>
    refine ⟨hservice, ⟨hnext, hbit⟩, hcurrent, hrnext, hrest, fun hclient hsome => ?_,
      fun hclient _ => hnot hclient hbefore, htx, hout, hals, hmulti⟩
    rw [hbehind, ← hrnext hclient] at hsome
    exact absurd ⟨hclient, hsome⟩ hsets

/-- The rate is read back. -/
theorem readIfPortRate_monitors : (readIfPortRate i p).wp PortView.Step
    (fun _ v' => v' = v ∨ ∃ w, v' = v.set .monitorRate w) v := by
  have hmonitor : ∀ rate, (storeMonitorRate i p rate).wp PortView.Step
      (fun _ v' => v' = v ∨ ∃ w, v' = v.set .monitorRate w) v := by
    intro rate
    cases rate with
    | none => exact .inl rfl
    | some rate => simp [storeMonitorRate]
  simp [readIfPortRate, hmonitor]

/-- **Confirming a rate**, or not, keeps what does not depend on the rate that is read back, on its
request and on storing it. -/
theorem confirmRate_keeps {A : PortView → Prop}
    (hmonitor : ∀ v w, A v → A (v.set .monitorRate w))
    (hchange : ∀ v, A v → A (v.set (.control .rate .change) 0))
    (hstore : ∀ v, A v → A (v.set (.control .rate .current) (v.word (.control .rate .next))))
    (hcap : KeepsCapability A) (h : A v) : (confirmRate i p).wp PortView.Step
      (fun _ v' => ∃ v₁, A v₁ ∧
        v' = (v₁.set (.control .resetCounters .change) 1).set (.control .rate .change) 0) v := by
  rw [confirmRate, Prog.wp_bind]
  refine Prog.wp_mono readIfPortRate_monitors fun read v₁ h₁ => ?_
  have h₁ : A v₁ := by
    rcases h₁ with rfl | ⟨w, rfl⟩
    · exact h
    · exact hmonitor v w h
  cases read with
  | false =>
      simp
      exact ⟨v₁, h₁, rfl⟩
  | true =>
      simp
      refine ⟨fun _ => Prog.wp_mono (rateModified_keeps hcap ?_) fun _ v₂ h₂ => ⟨v₂, h₂, rfl⟩,
        fun _ => ⟨v₁, h₁, rfl⟩⟩
      exact hstore _ (hchange _ (hchange _ h₁))

/-- A bit of the capabilities other than `MULTI_RATE` changes nothing. -/
theorem PortRestored.setCapability : KeepsCapability (PortRestored i x parts) := by
  intro v mask on hmask hmask' h
  obtain ⟨hservice, hloopback, hcurrent, hnext, hchange, hset, hnot, htx, hout, hals, hmulti⟩ := h
  refine ⟨hservice, hloopback, hcurrent, hnext, hchange, hset, hnot, htx, hout, hals, ?_⟩
  have hword : (v.setCapability mask on).word .capabilities &&& MULTI_RATE =
      v.word .capabilities &&& MULTI_RATE := capability_multiRate hmask hmask'
  rw [hword]
  exact hmulti

/-- The request for the rate is cleared. -/
theorem PortRestored.rateDone (h : PortRestored i x 3 v) :
    PortRestored i x 3 (v.set (.control .rate .change) 0) := by
  obtain ⟨hservice, hloopback, hcurrent, hnext, -, hset, hnot, htx, hout, hals, hmulti⟩ := h
  exact ⟨hservice, hloopback, hcurrent, hnext, by simp, hset, hnot, htx, hout, hals, hmulti⟩

/-- The rate that is asked for is the one that is stored. -/
theorem PortRestored.rateStored (h : PortRestored i x 3 v) (hclient : isClient i = true) :
    PortRestored i x 3 (v.set (.control .rate .current) (v.word (.control .rate .next))) := by
  obtain ⟨hservice, hloopback, -, hnext, hchange, hset, hnot, htx, hout, hals, hmulti⟩ := h
  exact ⟨hservice, hloopback, hnext hclient, hnext, hchange, hset, hnot, htx, hout, hals, hmulti⟩

/-- **The rate is confirmed**, or not. -/
theorem confirmRate_restored (hclient : isClient i = true) (h : PortRestored i x 3 v) :
    (confirmRate i p).wp PortView.Step (fun _ => PortRestored i x 3) v := by
  refine Prog.wp_mono (confirmRate_keeps (A := PortRestored i x 3)
    (fun _ _ h => h.set (.inr (.inr (.inr rfl)))) (fun _ h => h.rateDone)
    (fun _ h => h.rateStored hclient) PortRestored.setCapability h) ?_
  rintro _ _ ⟨v₁, h₁, rfl⟩
  exact (h₁.set (.inl rfl)).rateDone

/-- **The rate** is applied where it is asked for. -/
theorem ratePart_restored (h : PortRestored i x 2 v) :
    (ratePart i).wp PortView.Step (fun _ => PortRestored i x 3) v := by
  have hheld : x.word (.control .rate .current) ∈ heldRates → (RateSet i x 3 ↔ RateSet i x 2) :=
    fun hrate => by simp [RateSet, hrate]
  have hasked : x.word (.control .rate .current) ∉ heldRates → RateSet i x 3 :=
    fun hrate => .inr ⟨by decide, hrate⟩
  obtain ⟨hservice, hloopback, hcurrent, hnext, hchange, hset, hnot, htx, hout, hals, hmulti⟩ := h
  cases hclient : isClient i with
  | true =>
      have hcap := hmulti.mpr hclient
      by_cases hrate : x.word (.control .rate .current) ∈ heldRates
      · have hidle := (hchange le_rfl hclient).mpr hrate
        rw [← hheld hrate] at hset hnot
        simp [ratePart, hidle]
        exact ⟨hservice, hloopback, hcurrent, hnext, by simp, hset, hnot, htx, hout, hals, hmulti⟩
      · have hpending := mt (hchange le_rfl hclient).mp hrate
        simp [ratePart, hpending, hcap, wp_setRate, hmulti, hclient, hnext hclient]
        refine confirmRate_restored hclient ⟨hservice, hloopback, rfl, hnext, by simp,
          fun _ _ => ⟨rfl, rfl⟩, fun _ hnone => absurd (hasked hrate) hnone, htx, hout, hals,
          hmulti⟩
  | false =>
      have hsingle := not_not.mp (mt hmulti.mp (by simp [hclient]))
      have hnone : ∀ {q : Prop}, isClient i = true → q := fun h => absurd h (by simp [hclient])
      simp [ratePart, hsingle, cancelRequest]
      refine ⟨fun _ => ?_, fun _ => ?_⟩
      · exact ⟨hservice, hloopback, hcurrent, hnext, by simp, hnone, hnone, htx, hout, hals, hmulti⟩
      · exact ⟨hservice, hloopback, hcurrent, hnone, by simp, hnone, hnone, htx, hout, hals, hmulti⟩

/-- **The transmitter** is applied. -/
theorem txPart_restored (h : PortRestored i x 3 v) :
    (txPart i).wp PortView.Step (fun _ => PortRestored i x 4) v := by
  obtain ⟨hservice, hloopback, hcurrent, hrnext, -, hset, hnot, ⟨hnext, hchange⟩, hout, hals,
    hmulti⟩ := h
  have hthree : RateSet i x 4 ↔ RateSet i x 3 := by simp [RateSet]
  rw [← hthree] at hset hnot
  simp [txPart, hnext, hchange]
  refine ⟨fun _ => ?_, fun _ => ?_⟩
  · exact ⟨hservice, hloopback, hcurrent, hrnext, by simp, hset, hnot, ⟨rfl, rfl⟩, hout, hals,
      hmulti⟩
  · exact ⟨hservice, hloopback, hcurrent, hrnext, by simp, hset, hnot, ⟨rfl, rfl⟩, hout, hals,
      hmulti⟩

/-- **A pass of the task over an interface** applies its settings anew. -/
theorem taskInterface_restored (h : PortRestored i x 0 v) :
    (taskInterface i).wp PortView.Step (fun _ => PortRestored i x 4) v := by
  simp only [taskInterface, Prog.wp_bind]
  refine Prog.wp_mono (resetPart_keeps (fun _ => h.set (.inl rfl)) h) fun _ v₀ h₀ => ?_
  refine Prog.wp_mono (servicePart_restored h₀) fun _ v₁ h₁ => ?_
  refine Prog.wp_mono (loopbackPart_restored h₁) fun _ v₂ h₂ => ?_
  refine Prog.wp_mono (ratePart_restored h₂) fun _ v₃ h₃ => ?_
  exact Prog.wp_mono (txPart_restored h₃) fun _ v₄ h₄ =>
    rebootPart_keeps (fun _ => h₄.set (.inr (.inl rfl))) h₄

/-- The variables that the task writes. -/
def PortField.isTasks : PortField → Bool
  | .control _ _ | .monitor | .monitorRate | .capabilities | .rebootChange => true
  | _ => false

/-- An operation writes none but those. -/
def StoresTasks (_ : Place) (o : TaskOp) : Prop := ∀ f ∈ o.stored, f.isTasks = true

attribute [local simp] allOps_op_bind allOps_ite allOps_ite_bind allOps_map allOps_perform
  allOps_perform_bind allOps_readWord_bind writeWord StoresTasks TaskOp.stored PortField.isTasks

/-- Setting the rate of an interface. -/
theorem setIfPortRate_stores {q : UInt32 → Place} : (setIfPortRate i p q).AllOps StoresTasks := by
  simp [setIfPortRate]

/-- The confirmation of a rate. -/
theorem confirmRate_stores : (confirmRate i p).AllOps StoresTasks := by
  have hstore : ∀ rate, (storeMonitorRate i p rate).AllOps StoresTasks := by
    intro rate
    cases rate with
    | none => trivial
    | some rate => simp [storeMonitorRate]
  have hread : (readIfPortRate i p).AllOps StoresTasks := by
    simp [readIfPortRate, hstore]
  refine hread.bind fun read => ?_
  simp [rateModified]

/-- What the task does for an interface. -/
theorem taskInterface_stores : (taskInterface i).AllOps StoresTasks := by
  have hreset : (resetPart i).AllOps StoresTasks := by simp [resetPart]
  have hservice : (servicePart i).AllOps StoresTasks := by
    simp [servicePart, switchState, stateCases]
  have hswitch : ∀ mode, (switchLoopback i mode).AllOps StoresTasks := by
    intro mode
    simp [switchLoopback, setIfPortRate_stores]
  have hloopback : (loopbackPart i).AllOps StoresTasks := by
    simp [loopbackPart, setIfPortLoopback]
    intro _ _ mode
    refine (hswitch mode).bind fun _ => ?_
    simp
  have hrate : (ratePart i).AllOps StoresTasks := by
    simp [ratePart, cancelRequest]
    intro _ _ cap _
    refine setIfPortRate_stores.bind fun set => ?_
    cases set with
    | none => simp
    | some rate => exact confirmRate_stores
  have htx : (txPart i).AllOps StoresTasks := by simp [txPart]
  have hreboot : (rebootPart i).AllOps StoresTasks := by simp [rebootPart]
  exact hreset.bind fun _ => hservice.bind fun _ => hloopback.bind fun _ => hrate.bind fun _ =>
    htx.bind fun _ => hreboot

end port

/-! ### A power cycle -/

section unit

variable {L : Layout} {C : CardMemory L} {E : KursEnv} {u u' b b' : UnitState}
  {T : DefaultTexts} {stray : UInt32} {heap : Heap} {record : List UInt8}
  {i : Fin INTERFACE_COUNT} {v : CardVar} {m m' : Mem}

/-- The variables that the task writes. -/
def taskVars : Set CardVar := {v | ∃ f : PortField, f.isTasks = true ∧ ∃ i, v = .port f i}

/-- **A pass writes no others.** -/
theorem appliedPass_writes (hpass : C.AppliedPass E u u') :
    C.Writes taskVars u.card.mem u'.card.mem := by
  obtain ⟨-, h, hr, hmeets, htask⟩ := hpass
  have hstep : ∀ (h : TaskHistory) s p o w s', C.Succeeds h s (some (p, o)) (.task w) →
      (C.system E).act s o w = some s' → C.Step s o w s' := fun h s p o w s' hc hact =>
    ⟨hact, hc p o w rfl rfl⟩
  intro x hx
  have hkeeps : ∀ p o, StoresTasks p o → ∀ s w s', C.Step s o w s' →
      (fun s : CardState => s.mem x) s' = (fun s : CardState => s.mem x) s := by
    rintro p o ho s w s' ⟨hact, -⟩
    refine act_writes hact x ?_
    rintro v ⟨f, hf, i, rfl⟩
    exact hx _ ⟨f, ho f hf, i, rfl⟩
  have hall : task10.AllOps StoresTasks := allOps_forM fun i _ => taskInterface_stores
  exact System.wp_run hstep hr hmeets htask (Prog.wp_frame hall hkeeps)

/-- No text and no threshold is written at boot or by the task. -/
theorem stored_not_written : ∀ v ∈ storedTexts ++ storedWords, v ∉ taskVars ∪ controlVars := by
  have hports : (storedTexts ++ storedWords).all (fun v => match v with
      | .port f _ => !f.isTasks
      | .card _ => true) = true := by
    decide +kernel
  intro v hv hmem
  have hv := List.all_eq_true.mp hports v hv
  rcases hmem with ⟨f, hf, i, rfl⟩ | ⟨c, p, i, rfl⟩
  · simp [hf] at hv
  · simp [PortField.isTasks] at hv

/-- **What a unit comes up with**: the registered variables as they were saved, and category 0 for
the clients from the fifth on. -/
structure CardMemory.ReadBack (C : CardMemory L) (m m' : Mem) : Prop where
  registered : ∀ v, Preference.whole v ∈ buildPreferencesList → m.AgreeOn m' (C.region v)
  category : ∀ i ∈ clients.drop 4, C.word m' .inCat i = 0
  configured : C.Configured m'

/-- **Booting with a record.** -/
theorem powerUp_readBack (hb : C.Configured b.card.mem)
    (hcommit : commitUserSettings heap u.card.mem C.preferences = some record)
    (hboot : C.powerUp T stray record b = some b') :
    ∃ m, C.ReadBack u.card.mem m ∧
      b' = (List.finRange INTERFACE_COUNT).foldl (C.bootUnit stray) { b with card.mem := m } := by
  obtain ⟨r, hr, rfl⟩ := Option.map_eq_some_iff.mp hboot
  obtain ⟨m₀, hm₀⟩ : ∃ m₀, m₀ = (kursProfileSetDefault T 0xFFFFFFF).foldl C.storeDefault
    b.card.mem := ⟨_, rfl⟩
  have hconfigured : C.Configured m₀ := by
    rw [hm₀]
    exact defaults_configured hb bootDefaults_fit
  rw [← hm₀, readBack hcommit] at hr
  obtain rfl := Option.some.inj hr
  have hother : ∀ (f : PortField) i, (∀ p ∈ buildPreferencesList, p.object ≠ .port f i) →
      C.word (restore C.preferences.nodes (snapshot u.card.mem C.preferences.nodes) m₀) f i =
        C.word m₀ f i := fun f i hf =>
    (restored_other u.card.mem m₀ hf).load32 f.four_le_size
  dsimp only
  refine ⟨restore C.preferences.nodes (snapshot u.card.mem C.preferences.nodes) m₀,
    ⟨fun v hv => restored_agree hv, fun i hi => ?_, fun i => ?_, fun i => ?_⟩, rfl⟩
  · have hdefault : latest (.port .inCat i) (kursProfileSetDefault T 0xFFFFFFF) =
        some (.word 0) := by
      rw [kursProfileSetDefault_boot]
      exact latest_append (latest_inCat i)
    rw [hother .inCat i (inCat_not_registered hi), hm₀]
    exact defaults_word hb bootDefaults_fit ⟨rfl, PortField.four_le_size .inCat⟩ hdefault
  · have hpointer := hother .als i (configured_not_registered rfl)
    exact (congrArg (fun w => w + L.alsControl) hpointer).trans (hconfigured.als i)
  · rw [hother .capabilities i (configured_not_registered rfl)]
    exact hconfigured.multiRate i

/-- The rate of a client is asked for at boot, or set along with its loopback mode. -/
def CardMemory.RateComesBack (C : CardMemory L) (m : Mem) (i : Fin INTERFACE_COUNT) : Prop :=
  C.word m (.control .rate .current) i ∉ heldRates ∨
    LoopbackSetsRate i (C.word m (.control .loopbackMode .current) i)
      (C.word m (.control .rate .current) i)

instance : Decidable (C.RateComesBack m i) := by
  unfold CardMemory.RateComesBack
  infer_instance

/-- The transmitter that is asked for at boot. -/
def CardMemory.txAsked (C : CardMemory L) (m : Mem) (i : Fin INTERFACE_COUNT) : UInt32 :=
  if C.word m (.control .serviceState .current) i = IF_SERVICE_STATE_OOS then 1
  else C.word m (.control .txDisable .current) i

/-- The effective settings of an interface behind a power cycle, by the memory before and the
registers in between. -/
def CardMemory.cameBack (C : CardMemory L) (stray : UInt32) (m : Mem) (hw : PortHardware)
    (i : Fin INTERFACE_COUNT) : PortEffect where
  serviceState := C.word m (.control .serviceState .current) i
  txDisable := (if C.txAsked m i = 0 then 0 else 1, !decide (C.txAsked m i = 0))
  loopbackMode :=
    let mode := C.word m (.control .loopbackMode .current) i
    (mode, (loopbackBit i mode).getD (hw.serialLoopback i))
  rate := C.word m (.control .rate .current) i
  registers :=
    if isClient i then
      some (if C.RateComesBack m i then
          (topLevelRate (C.word m (.control .rate .current) i),
            C.word m (.control .rate .current) i)
        else (hw.rateSelect i, hw.rateRx i))
    else none
  alsControl := C.word m .alsControl i
  als := (asClient i).map fun _ => alsEnabled stray (C.word m .alsControl i)

/-- What an interface asks for behind the boot. -/
theorem PortBooted.restored {x : PortView} {y : PortField → UInt32} (h : PortBooted i y x.word) :
    PortRestored i x 0 x := by
  have hnone : ¬ RateSet i x 0 := by simp [RateSet]
  refine ⟨⟨rfl, h.serviceChange⟩, ⟨rfl, h.loopbackChange, rfl⟩, rfl, fun hclient => ?_,
    fun _ hclient => ?_, fun _ hset => absurd hset hnone, fun _ _ => ⟨rfl, rfl⟩,
    ⟨rfl, h.txChange⟩, fun hoos => ?_, rfl, h.multiRate⟩
  · rw [h.rateNext hclient, h.rateCurrent]
  · rw [h.rateChange hclient, h.rateCurrent]
  · rw [h.serviceNext] at hoos
    rw [h.txNext, if_pos hoos]

/-- What is saved of the controls of an interface is what is asked for behind the boot. -/
theorem powerUp_controls (hm : C.ReadBack u.card.mem m)
    (hb' : b' = (List.finRange INTERFACE_COUNT).foldl (C.bootUnit stray) { b with card.mem := m }) :
    PortBooted i (fun f => C.word u.card.mem f i) (fun f => C.word b'.card.mem f i) ∧
      (asClient i).map b'.als.enabledMode =
        (asClient i).map fun _ => alsEnabled stray (C.word u.card.mem .alsControl i) := by
  have hword : ∀ f, Preference.whole (.port f i) ∈ interfacePreferences i →
      C.word m f i = C.word u.card.mem f i := fun f hf =>
    (hm.registered _ (interface_registered hf)).load32 f.four_le_size
  obtain ⟨hbooted, hals⟩ := bootLoop_booted stray { b with card.mem := m } hm.configured i
  rw [← hb'] at hbooted hals
  obtain ⟨hservice, hchange, hloopback, hlchange, htx, htchange, hcurrent, hnext, hrchange,
    hcontrol, hmulti⟩ := hbooted
  have hstored : ∀ f, Preference.whole (.port f i) ∈ interfacePreferences i →
      (C.powerView i { b with card.mem := m }).1 f = C.word u.card.mem f i := hword
  have hr := hstored (.control .rate .current) (by simp [interfacePreferences])
  have hs := hstored (.control .serviceState .current) (by simp [interfacePreferences])
  have hl := hstored (.control .loopbackMode .current) (by simp [interfacePreferences])
  have ht := hstored (.control .txDisable .current) (by simp [interfacePreferences])
  have ha := hstored .alsControl (by simp [interfacePreferences])
  rw [hr] at hcurrent hnext hrchange
  rw [hs] at hservice htx
  rw [ht] at htx
  rw [hl] at hloopback
  rw [ha] at hcontrol
  rw [hword .alsControl (by simp [interfacePreferences])] at hals
  exact ⟨⟨hservice, hchange, hloopback, hlchange, htx, htchange, hcurrent, hnext, hrchange,
    hcontrol, hmulti⟩, hals⟩

/-- The rate of a client is set behind the boot exactly where it comes back. -/
theorem rateSet_powerUp (h : PortBooted i (fun f => C.word u.card.mem f i)
    (fun f => C.word b'.card.mem f i)) :
    RateSet i (C.portView i b'.card) 4 ↔ C.RateComesBack u.card.mem i := by
  simp only [RateSet, CardMemory.RateComesBack, CardMemory.portView, h.loopbackNext, h.rateCurrent]
  simp [or_comm]

/-- **The effective settings behind a power cycle.** -/
theorem portEffect_powerUp (hm : C.ReadBack u.card.mem m)
    (hb' : b' = (List.finRange INTERFACE_COUNT).foldl (C.bootUnit stray) { b with card.mem := m })
    (hpass : C.AppliedPass E b' u') :
    C.portEffect u' i = C.cameBack stray u.card.mem b.card.hw i := by
  have hcontrols := fun i => powerUp_controls (i := i) hm hb'
  have hhw : b'.card.hw = b.card.hw := by
    rw [hb']
    exact (bootLoop_card stray _ _).2
  have hrestored : PortRestored i (C.portView i b'.card) 4 (C.portView i u'.card) := by
    refine appliedPass_ports (A := fun i v => v = C.portView i b'.card)
      (B := fun i => PortRestored i (C.portView i b'.card) 4) ?_ hpass (fun i => rfl) i
    rintro i v rfl
    exact taskInterface_restored (hcontrols i).1.restored
  obtain ⟨hservice, ⟨hloopback, hserial⟩, hrate, -, -, hset, hnot, ⟨htx, hline⟩, -, hals, -⟩ :=
    hrestored
  rw [rateSet_powerUp (hcontrols i).1] at hset hnot
  obtain ⟨⟨hbservice, -, hbloopback, -, hbtx, -, hbrate, -, -, hbals, -⟩, hmode⟩ := hcontrols i
  simp only [CardMemory.portView] at hservice hloopback hserial hrate hset hnot htx hline hals
  rw [if_pos (by decide), hbservice] at hservice
  have hasked : C.word b'.card.mem (.control .txDisable .next) i = C.txAsked u.card.mem i := hbtx
  simp only [hasked] at htx hline
  rw [hbloopback] at hloopback hserial
  rw [hhw] at hserial
  rw [hbrate] at hrate hset
  rw [hbals] at hals
  have hregisters : isClient i = true → (u'.card.hw.rateSelect i, u'.card.hw.rateRx i) =
      if C.RateComesBack u.card.mem i then
        (topLevelRate (C.word u.card.mem (.control .rate .current) i),
          C.word u.card.mem (.control .rate .current) i)
      else (b.card.hw.rateSelect i, b.card.hw.rateRx i) := by
    intro hclient
    split
    next hback =>
      obtain ⟨hselect, hrx⟩ := hset hclient hback
      exact Prod.ext hselect hrx
    next hlost =>
      obtain ⟨hselect, hrx⟩ := hnot hclient hlost
      rw [hselect, hrx, hhw]
  rw [CardMemory.portEffect, CardMemory.cameBack, hservice, htx, hline, hloopback, hserial, hrate,
    hals, hpass.1, hmode]
  dsimp only
  cases hclient : isClient i with
  | true => rw [if_pos rfl, if_pos rfl, hregisters hclient]
  | false => rfl

/-- **What an interface is set to comes back**, by the memory and the registers before and the
registers in between: the category is registered, or 0; the loopback mode sets its register, or it
comes back by itself; and so do those of the rate. -/
structure CardMemory.ComesBack (C : CardMemory L) (m : Mem) (hw hw₀ : PortHardware)
    (i : Fin INTERFACE_COUNT) : Prop where
  category : i ∈ clients.drop 4 → C.word m .inCat i = 0
  loopback : loopbackBit i (C.word m (.control .loopbackMode .current) i) = none →
    hw₀.serialLoopback i = hw.serialLoopback i
  rate : isClient i = true → ¬ C.RateComesBack m i →
    hw₀.rateSelect i = hw.rateSelect i ∧ hw₀.rateRx i = hw.rateRx i

/-- The ALS of a client that has been applied is in the mode that is stored. -/
theorem CardMemory.Applied.als_eq (h : C.Applied u i) (stray : UInt32) :
    (asClient i).map u.als.enabledMode =
      (asClient i).map fun _ => alsEnabled stray (C.word u.card.mem .alsControl i) := by
  cases hi : asClient i with
  | none => rfl
  | some c => exact congrArg some (h.als c hi stray)

/-- So is its transmitter, which is off where it is out of service. -/
theorem CardMemory.Applied.tx_eq (h : C.Applied u i) :
    (if C.txAsked u.card.mem i = 0 then (0 : UInt32) else 1,
        !decide (C.txAsked u.card.mem i = 0)) =
      (C.word u.card.mem (.control .txDisable .current) i, u.card.hw.txDisable i) := by
  rw [CardMemory.txAsked, h.tx]
  split
  next hoos =>
    rw [h.outOfService hoos]
    rfl
  next => cases u.card.hw.txDisable i <;> rfl

/-- **The settings of an interface that has been applied come back** exactly then. -/
theorem portEffect_eq_iff {hw₀ : PortHardware} (h : C.Applied u i) :
    C.cameBack stray u.card.mem hw₀ i = C.portEffect u i ↔
      (loopbackBit i (C.word u.card.mem (.control .loopbackMode .current) i) = none →
        hw₀.serialLoopback i = u.card.hw.serialLoopback i) ∧
      (isClient i = true → ¬ C.RateComesBack u.card.mem i →
        hw₀.rateSelect i = u.card.hw.rateSelect i ∧ hw₀.rateRx i = u.card.hw.rateRx i) := by
  have hloopback : (loopbackBit i (C.word u.card.mem (.control .loopbackMode .current) i)).getD
      (hw₀.serialLoopback i) = u.card.hw.serialLoopback i ↔
        (loopbackBit i (C.word u.card.mem (.control .loopbackMode .current) i) = none →
          hw₀.serialLoopback i = u.card.hw.serialLoopback i) := by
    cases hbit : loopbackBit i (C.word u.card.mem (.control .loopbackMode .current) i) with
    | none => simp
    | some b => simp [h.loopback b hbit]
  have hrate : (if C.RateComesBack u.card.mem i then
        (topLevelRate (C.word u.card.mem (.control .rate .current) i),
          C.word u.card.mem (.control .rate .current) i)
      else (hw₀.rateSelect i, hw₀.rateRx i)) = (u.card.hw.rateSelect i, u.card.hw.rateRx i) ∨
        isClient i = false ↔
      (isClient i = true → ¬ C.RateComesBack u.card.mem i →
        hw₀.rateSelect i = u.card.hw.rateSelect i ∧ hw₀.rateRx i = u.card.hw.rateRx i) := by
    cases hclient : isClient i with
    | false => simp
    | true =>
        obtain ⟨hselect, hrx⟩ := h.rate hclient
        split <;> simp_all
  rw [CardMemory.cameBack, CardMemory.portEffect, h.tx_eq, h.als_eq stray, ← hloopback,
    ← hrate]
  cases hclient : isClient i <;> simp [and_comm]

/-- The words that are stored are words. -/
theorem storedWords_size : ∀ v ∈ storedWords, 4 ≤ v.size.toNat := by
  decide +kernel

/-- The categories are among them. -/
theorem inCat_stored (i : Fin INTERFACE_COUNT) : .port .inCat i ∈ storedWords := by
  revert i
  decide +kernel

/-- **The settings behind a power cycle** are those before it exactly where all of them come
back. -/
theorem settings_powerUp (happlied : ∀ i, C.Applied u i) (hm : C.ReadBack u.card.mem m)
    (hb' : b' = (List.finRange INTERFACE_COUNT).foldl (C.bootUnit stray) { b with card.mem := m })
    (hpass : C.AppliedPass E b' u') :
    C.settings u' = C.settings u ↔ ∀ i, C.ComesBack u.card.mem u.card.hw b.card.hw i := by
  have hwrites : C.Writes (taskVars ∪ controlVars) m u'.card.mem := by
    have hbootLoop := (bootLoop_card (C := C) stray { b with card.mem := m }
      (List.finRange INTERFACE_COUNT)).1
    rw [← hb'] at hbootLoop
    exact (hbootLoop.mono Set.subset_union_right).trans
      ((appliedPass_writes hpass).mono Set.subset_union_left)
  have hstored : ∀ v ∈ storedTexts ++ storedWords, Preference.whole v ∈ buildPreferencesList →
      u.card.mem.AgreeOn u'.card.mem (C.region v) := fun v hv hregistered x hx =>
    (hwrites.agreeOn (stored_not_written v hv) x hx).trans (hm.registered v hregistered x hx)
  have htexts : (C.settings u').texts = (C.settings u).texts :=
    List.map_congr_left fun v hv =>
      valueOf_congr (hstored v (List.mem_append_left _ hv) (texts_registered v hv))
  have hwords : (C.settings u').words = (C.settings u).words ↔
      ∀ i ∈ clients.drop 4, C.word u.card.mem .inCat i = 0 := by
    have hcategory : ∀ i ∈ clients.drop 4, C.word u'.card.mem .inCat i = 0 := by
      intro i hi
      have hmem : CardVar.port .inCat i ∈ storedTexts ++ storedWords :=
        List.mem_append_right _ (inCat_stored i)
      exact (hwrites.load32 (stored_not_written _ hmem) (PortField.four_le_size _)).trans
        (hm.category i hi)
    rw [CardMemory.settings, CardMemory.settings, List.map_inj_left]
    constructor
    · intro h i hi
      exact (h _ (inCat_stored i)).symm.trans (hcategory i hi)
    · intro h v hv
      obtain hregistered | ⟨i, hi, rfl⟩ := words_registered v hv
      · exact (hstored v (List.mem_append_right _ hv) hregistered).load32 (storedWords_size v hv)
      · exact (hcategory i hi).trans (h i hi).symm
  have hports : (C.settings u').port = (C.settings u).port ↔ ∀ i,
      C.cameBack stray u.card.mem b.card.hw i = C.portEffect u i := by
    rw [funext_iff]
    exact forall_congr' fun i => by
      rw [← portEffect_powerUp hm hb' hpass]
      rfl
  have hsettings : C.settings u' = C.settings u ↔
      (C.settings u').texts = (C.settings u).texts ∧ (C.settings u').words = (C.settings u).words ∧
        (C.settings u').port = (C.settings u).port := by
    rw [UnitSettings.ext_iff]
  rw [hsettings, hwords, hports]
  constructor
  · rintro ⟨-, hcategories, hport⟩ i
    obtain ⟨hloopback, hrate⟩ := (portEffect_eq_iff (happlied i)).mp (hport i)
    exact ⟨hcategories i, hloopback, hrate⟩
  · intro h
    exact ⟨htexts, fun i => (h i).category, fun i =>
      (portEffect_eq_iff (happlied i)).mpr ⟨(h i).loopback, (h i).rate⟩⟩

end unit

end Muxponder
