import Muxponder.KursColors
import Muxponder.Lib.Machine

/-!
# Colours and their History

`TestProg` compares a value with its thresholds, and stores the colour it comes to in the
field that it looks at first: a record whose `COLOR` is `COLOR_NA` has no colour. A threshold
whose colour is `COLOR_NA` takes the record's colour away by that, whatever the value does
afterwards, and only a call with monitoring off gives it one again. The colour branch of
`HandleKursRdStrValueAndColor` does not make that call: it passes over a record without a
colour.

## Main results

* `historyIndependent_iff`: the colours of a run are those of its values exactly if every
  monitored call without a colour is one for a value without a colour.
* `historyIndependent_of_colored`: no run of a parameter whose colours are none of them
  `COLOR_NA` depends on its history.
* `historyIndependent_not`: a value that goes back to normal keeps the colour `COLOR_NA`.
-/

namespace Muxponder

open Memory

/-! ### Parameters with thresholds -/

/-- A parameter of section 2 that is coloured by its thresholds, with its record. -/
structure ThresholdParam extends ProfileParam where
  add : ParamsT2Add
  typed : type = .bool ∨ type = .u32 ∨ type = .hex ∨ type = .s32
  tip : add.colorTip = COLOR_TIP_POROG

/-- The number that a type makes of a word. -/
def DataType.number : DataType → UInt32 → ℤ
  | .s32, v => v.toInt32.toInt
  | _, v => v.toNat

namespace ThresholdParam

/-- Monitoring is on. -/
def monitored (P : ThresholdParam) (m : Mem) : Bool := m.load32 P.add.monitorOn ≠ 0

/-- The number that is compared. -/
def value (P : ThresholdParam) (m : Mem) : ℤ := P.type.number (m.load32 P.data)

/-- The value has come to one of two thresholds, of those there are. -/
def reached (P : ThresholdParam) (m : Mem) (high low : Option UInt32) : Bool :=
  (high.any fun a => P.type.number (m.load32 a) ≤ P.value m) ||
    low.any fun a => P.value m ≤ P.type.number (m.load32 a)

/-- **The colour of a value**: that of a failure in front of that of a degrade, and normal
where no threshold is reached. A `DC_BOOL` has one of the two colours. -/
def colorOf (P : ThresholdParam) (m : Mem) : Int8 :=
  if P.type = .bool then
    if m.load32 P.data = 0 then toChar COLOR_Normal
    else if P.add.colorDegrade ≠ COLOR_NA then toChar P.add.colorDegrade
    else if P.add.colorFailure ≠ COLOR_NA then toChar P.add.colorFailure
    else toChar COLOR_Normal
  else if P.reached m P.add.cMax P.add.cMin then toChar P.add.colorFailure
  else if P.reached m P.add.wMax P.add.wMin then toChar P.add.colorDegrade
  else toChar COLOR_Normal

end ThresholdParam

/-! ### Runs -/

/-- A record and the memory. -/
structure ColorState where
  add : ParamsT2Add
  mem : Mem

/-- What happens: `TestProg` is called, a request reads the parameter with its colour, or a
variable is stored, be it the value, a threshold or the one that turns monitoring on. -/
inductive ColorEvent
  | testProg
  | read
  | store (a v : UInt32)
  deriving DecidableEq, Repr

/-- One event, with the colour that a call of `TestProg` returns. -/
def colorStep (lt : UInt32 → UInt32 → Bool) (R : Readings) (P : ThresholdParam)
    (s : ColorState) : ColorEvent → ColorState × Option Int8
  | .testProg =>
      let r := testProg lt R P.toProfileParam s.add s.mem
      (⟨r.1, s.mem⟩, some r.2)
  | .read =>
      (⟨(showColor lt R P.toProfileParam s.add s.mem).1, s.mem⟩,
        if s.add.color = COLOR_NA then none
        else some (testProg lt R P.toProfileParam s.add s.mem).2)
  | .store a v => (⟨s.add, s.mem.store32 a v⟩, none)

/-- The machine of a parameter. -/
def colorMachine (lt : UInt32 → UInt32 → Bool) (R : Readings) (P : ThresholdParam) :
    Machine ColorState ColorEvent (Option Int8) :=
  ⟨fun s e => some (colorStep lt R P s e)⟩

/-- **History independence**: every colour that `TestProg` returns while monitoring is on is
that of the value. -/
def HistoryIndependent (lt : UInt32 → UInt32 → Bool) (R : Readings) (P : ThresholdParam)
    (m : Mem) (h : List (ColorEvent × Option Int8)) : Prop :=
  ∀ h₁ e color h₂ s, h = h₁ ++ (e, some color) :: h₂ →
    (colorMachine lt R P).Run ⟨P.add, m⟩ h₁ s → P.monitored s.mem = true →
    color = P.colorOf s.mem

/-! ### Colours that are taken away -/

/-- The memory, and whether the record has lost its colour. -/
structure Mark where
  mem : Mem
  lost : Bool

/-- What an event makes of it: a monitored call for a value without a colour loses it, and a
call with monitoring off brings it back. A request does not call for a record that has
none. -/
def Mark.after (P : ThresholdParam) (k : Mark) : ColorEvent → Mark
  | .testProg =>
      { k with lost := P.monitored k.mem && (k.lost || P.colorOf k.mem = toChar COLOR_NA) }
  | .read =>
      { k with lost := k.lost || (P.monitored k.mem && P.colorOf k.mem = toChar COLOR_NA) }
  | .store a v => { k with mem := k.mem.store32 a v }

/-- Before the first event. -/
def Mark.initial (P : ThresholdParam) (m : Mem) : Mark := ⟨m, P.add.color = COLOR_NA⟩

/-- Behind a list of events. -/
def Mark.behind (P : ThresholdParam) (m : Mem) (events : List ColorEvent) : Mark :=
  events.foldl (Mark.after P) (.initial P m)

/-- **The condition**: whenever `TestProg` is called with monitoring on for a record that has
lost its colour, the value has none either. -/
def LostAlike (P : ThresholdParam) (m : Mem) (events : List ColorEvent) : Prop :=
  ∀ before rest, events = before ++ .testProg :: rest →
    P.monitored (Mark.behind P m before).mem = true → (Mark.behind P m before).lost = true →
    P.colorOf (Mark.behind P m before).mem = toChar COLOR_NA

variable {lt : UInt32 → UInt32 → Bool} {R : Readings} {P : ThresholdParam} {A : ParamsT2Add}
  {m : Mem} {s s' : ColorState} {k : Mark} {e : ColorEvent} {color : Int8}
  {h : List (ColorEvent × Option Int8)}

/-! ### One call -/

/-- A threshold there is, in numbers. -/
theorem reached_eq (high low : Option UInt32) {ge le : UInt32 → Bool}
    (hge : ∀ v, ge v = decide (P.type.number v ≤ P.value m))
    (hle : ∀ v, le v = decide (P.value m ≤ P.type.number v)) :
    P.reached m high low = (meets high m ge || meets low m le) := by
  simp only [ThresholdParam.reached, meets, hge, hle]

/-- The colour of a status that the thresholds lead to. -/
theorem statusColor_threshold {ge le : UInt32 → Bool} (hbool : P.type ≠ .bool)
    (hge : ∀ v, ge v = decide (P.type.number v ≤ P.value m))
    (hle : ∀ v, le v = decide (P.value m ≤ P.type.number v)) :
    statusColor P.add (thresholdStatus P.add m ge le) = P.colorOf m := by
  rw [ThresholdParam.colorOf, if_neg hbool, reached_eq _ _ hge hle, reached_eq _ _ hge hle,
    thresholdStatus]
  cases meets P.add.cMax m ge <;> cases meets P.add.cMin m le <;>
    cases meets P.add.wMax m ge <;> cases meets P.add.wMin m le <;> rfl

/-- **The status that `TestProg` finds has the colour of the value.** -/
theorem statusColor_testStatus :
    statusColor P.add (testStatus lt P.toProfileParam P.add m) = P.colorOf m := by
  rcases P.typed with htype | htype | htype | htype
  · rw [testStatus, htype, ThresholdParam.colorOf, if_pos htype]
    dsimp only
    split
    · rfl
    split
    · rfl
    split <;> rfl
  · rw [testStatus, htype]
    refine statusColor_threshold (by simp [htype]) (fun v => ?_) fun v => ?_ <;>
      simp [ThresholdParam.value, htype, DataType.number, UInt32.le_iff_toNat_le]
  · rw [testStatus, htype]
    refine statusColor_threshold (by simp [htype]) (fun v => ?_) fun v => ?_ <;>
      simp [ThresholdParam.value, htype, DataType.number, UInt32.le_iff_toNat_le]
  · rw [testStatus, htype]
    refine statusColor_threshold (by simp [htype]) (fun v => ?_) fun v => ?_ <;>
      simp [ThresholdParam.value, htype, DataType.number, Int32.le_iff_toInt_le]

/-- An evaluation leaves what the colours are computed from. -/
theorem Recoloured.statusColor_eq (hA : Recoloured P.add A) :
    statusColor A (testStatus lt P.toProfileParam A m) = P.colorOf m := by
  obtain ⟨color, status, rfl⟩ := hA
  exact statusColor_testStatus

/-- **One call of `TestProg`.** -/
theorem testProg_eq (hA : Recoloured P.add A) :
    testProg lt R P.toProfileParam A m =
      if P.monitored m = true then
        if A.color = COLOR_NA then (A, toChar COLOR_NA)
        else ({ A with
          color := ofChar (P.colorOf m), status := testStatus lt P.toProfileParam A m },
            P.colorOf m)
      else ({ A with color := COLOR_NO }, toChar COLOR_NO) := by
  have hmonitor : m.load32 A.monitorOn = m.load32 P.add.monitorOn := by
    obtain ⟨color, status, rfl⟩ := hA
    rfl
  have htip : A.colorTip ≠ COLOR_TIP_GET := by
    obtain ⟨color, status, rfl⟩ := hA
    change P.add.colorTip ≠ COLOR_TIP_GET
    rw [P.tip]
    decide
  rw [testProg, hmonitor, if_neg htip, ThresholdParam.monitored]
  by_cases hoff : m.load32 P.add.monitorOn = 0
  · rw [if_pos hoff, if_neg (by simpa using hoff)]
  · have hon : decide (m.load32 P.add.monitorOn ≠ 0) = true := decide_eq_true hoff
    rw [if_neg hoff, if_pos hon]
    dsimp only
    rw [hA.statusColor_eq]

/-- The colour branch calls `TestProg` unless the record has no colour. -/
theorem showColor_fst (hA : Recoloured P.add A) :
    (showColor lt R P.toProfileParam A m).1 =
      if A.color = COLOR_NA then A else (testProg lt R P.toProfileParam A m).1 := by
  have htip : A.colorTip = COLOR_TIP_POROG := by
    obtain ⟨color, status, rfl⟩ := hA
    exact P.tip
  rw [showColor]
  by_cases hna : A.color = COLOR_NA
  · rw [if_pos hna, if_pos hna]
  · rw [if_neg hna, if_neg hna, if_pos htip]

/-- Only the `char` of `COLOR_NA` is stored as `COLOR_NA`. -/
theorem ofChar_eq_NA_iff : ofChar color = COLOR_NA ↔ color = toChar COLOR_NA := by
  constructor
  · intro hna
    have hwide : color.toInt16 = 0 := by
      have hbits := congrArg UInt16.toInt16 hna
      simpa [ofChar, COLOR_NA] using hbits
    apply Int8.toInt_inj.mp
    rw [← Int8.toInt_toInt16, hwide]
    rfl
  · rintro rfl
    rfl

/-! ### Runs of calls -/

/-- A state is as the events have left it. -/
structure StandsAs (P : ThresholdParam) (s : ColorState) (k : Mark) : Prop where
  recoloured : Recoloured P.add s.add
  mem : s.mem = k.mem
  lost : s.add.color = COLOR_NA ↔ k.lost = true

/-- What a call leaves of the record's colour. -/
theorem testProg_lost (hA : Recoloured P.add A) :
    (testProg lt R P.toProfileParam A m).1.color = COLOR_NA ↔
      (P.monitored m && (decide (A.color = COLOR_NA) || P.colorOf m = toChar COLOR_NA)) =
        true := by
  rw [testProg_eq hA]
  cases P.monitored m with
  | false => simp [COLOR_NO, COLOR_NA]
  | true =>
      by_cases hna : A.color = COLOR_NA
      · simp [hna]
      · simp [hna, ofChar_eq_NA_iff]

/-- **The step lemma**: an event moves the state as it moves the mark. -/
theorem standsAs_step (hs : StandsAs P s k) :
    StandsAs P (colorStep lt R P s e).1 (k.after P e) := by
  obtain ⟨A, m⟩ := s
  obtain ⟨m', lost⟩ := k
  obtain ⟨hA, hmem, hlost⟩ := hs
  obtain rfl : m = m' := hmem
  have hdec : decide (A.color = COLOR_NA) = lost := by
    rw [Bool.eq_iff_iff, decide_eq_true_eq]
    exact hlost
  have hcall : (testProg lt R P.toProfileParam A m).1.color = COLOR_NA ↔
      (P.monitored m && (lost || P.colorOf m = toChar COLOR_NA)) = true := by
    rw [← hdec]
    exact testProg_lost hA
  cases e with
  | testProg => exact ⟨hA.trans testProg_evaluates, rfl, hcall⟩
  | read =>
      refine ⟨hA.trans showColor_evaluates, rfl, ?_⟩
      simp only [colorStep, Mark.after, showColor_fst hA]
      by_cases hna : A.color = COLOR_NA
      · have hgone : lost = true := hlost.mp hna
        simp [hna, hgone]
      · have hkept : lost = false := by rw [← hdec, decide_eq_false hna]
        rw [if_neg hna, hcall, hkept]
        simp
  | store a v => exact ⟨hA, rfl, hlost⟩

/-- **The run lemma**: behind every run the state is as the events have left it. -/
theorem standsAs_run (hr : (colorMachine lt R P).Run ⟨P.add, m⟩ h s) :
    StandsAs P s (Mark.behind P m (h.map Prod.fst)) := by
  refine hr.invariant (I := fun h s => StandsAs P s (Mark.behind P m (h.map Prod.fst))) ?_ ?_
  · exact ⟨.refl P.add, rfl, decide_eq_true_iff.symm⟩
  · intro h s e s' o _ hs hstep
    have hnext : (colorStep lt R P s e).1 = s' := congrArg Prod.fst (Option.some.inj hstep)
    rw [List.map_append, Mark.behind, List.foldl_append, ← hnext]
    exact standsAs_step hs

/-- **The colour that a monitored call returns**: none for a record that has lost its
colour. -/
theorem color_of_call (hs : StandsAs P s k) (hmon : P.monitored s.mem = true)
    (hcall : (colorStep lt R P s e).2 = some color) :
    color = if e = .testProg ∧ k.lost = true then toChar COLOR_NA else P.colorOf s.mem := by
  cases e with
  | testProg =>
      obtain rfl := Option.some.inj hcall
      rw [testProg_eq hs.recoloured, if_pos hmon]
      by_cases hna : s.add.color = COLOR_NA
      · rw [if_pos hna, if_pos ⟨rfl, hs.lost.mp hna⟩]
      · rw [if_neg hna, if_neg fun hlost => hna (hs.lost.mpr hlost.2)]
  | read =>
      simp only [colorStep] at hcall
      split at hcall
      · simp at hcall
      · next hna =>
          obtain rfl := Option.some.inj hcall
          rw [testProg_eq hs.recoloured, if_pos hmon, if_neg hna, if_neg (by simp)]
  | store a v => simp [colorStep] at hcall

/-! ### History independence -/

/-- **Where colours do not depend on the history**: in every run, be the record, the memory
and the events what they may, the monitored colours are those of the values exactly if every
call for a record that has lost its colour is one for a value without a colour. -/
theorem historyIndependent_iff (lt : UInt32 → UInt32 → Bool) (R : Readings) (P : ThresholdParam)
    (m : Mem) (h : List (ColorEvent × Option Int8)) (s : ColorState)
    (hr : (colorMachine lt R P).Run ⟨P.add, m⟩ h s) :
    HistoryIndependent lt R P m h ↔ LostAlike P m (h.map Prod.fst) := by
  constructor
  · intro hind before rest hevents hmon hlost
    obtain ⟨h₁, h', rfl, rfl, htail⟩ := List.map_eq_append_iff.mp hevents
    obtain ⟨⟨e, o⟩, h₂, rfl, rfl, -⟩ := List.map_eq_cons_iff.mp htail
    obtain ⟨s₁, hr₁, hr₂⟩ := hr.split
    have hs := standsAs_run hr₁
    obtain ⟨s₂, hstep, -⟩ := hr₂.cons_inv
    have hout : (colorStep lt R P s₁ .testProg).2 = o :=
      congrArg Prod.snd (Option.some.inj hstep)
    rw [← hs.mem] at hmon ⊢
    have hcall : (colorStep lt R P s₁ .testProg).2 =
        some (testProg lt R P.toProfileParam s₁.add s₁.mem).2 := rfl
    have hcolor := color_of_call hs hmon hcall
    rw [if_pos ⟨rfl, hlost⟩] at hcolor
    rw [← hcolor]
    exact (hind h₁ .testProg _ h₂ s₁ (by rw [← hout, hcall]) hr₁ hmon).symm
  · intro hlike h₁ e color h₂ s₁ hsplit hr₁ hmon
    have hs := standsAs_run hr₁
    rw [hsplit] at hr
    obtain ⟨s₂, hr₁', hr₂⟩ := hr.split
    obtain rfl := hr₁.det hr₁'
    obtain ⟨s₃, hstep, -⟩ := hr₂.cons_inv
    have hcolor := color_of_call hs hmon (congrArg Prod.snd (Option.some.inj hstep))
    split at hcolor
    · next hlost =>
        obtain ⟨rfl, hlost⟩ := hlost
        rw [hcolor, hs.mem]
        refine (hlike (h₁.map Prod.fst) (h₂.map Prod.fst) ?_ (hs.mem ▸ hmon) hlost).symm
        rw [hsplit, List.map_append, List.map_cons]
    · exact hcolor

/-- **Colours that are all colours**: where neither the record at the start nor any value has
`COLOR_NA`, no run depends on its history. -/
theorem historyIndependent_of_colored (hstart : P.add.color ≠ COLOR_NA)
    (hcolor : ∀ m, P.colorOf m ≠ toChar COLOR_NA) (hr : (colorMachine lt R P).Run ⟨P.add, m⟩ h s) :
    HistoryIndependent lt R P m h := by
  intro h₁ e color h₂ s₁ hsplit hr₁ hmon
  have hkept : ∀ events, (Mark.behind P m events).lost = false := by
    intro events
    induction events using List.reverseRecOn with
    | nil => exact decide_eq_false hstart
    | append_singleton events e ih =>
        rw [Mark.behind, List.foldl_append]
        change (Mark.after P (Mark.behind P m events) e).lost = false
        cases e <;> simp [Mark.after, ih, hcolor]
  rw [hsplit] at hr
  obtain ⟨s₂, hr₁', hr₂⟩ := hr.split
  obtain rfl := hr₁.det hr₁'
  obtain ⟨s₃, hstep, -⟩ := hr₂.cons_inv
  rw [color_of_call (standsAs_run hr₁) hmon (congrArg Prod.snd (Option.some.inj hstep)),
    if_neg (by simp [hkept])]

/-- A counter with an upper critical threshold, and no colour for it. -/
def uncolouredLimit : ThresholdParam where
  paramId := 1
  userGet := false
  userSet := false
  type := .u32
  access := 85
  data := 0x100
  dSize := 4
  dMin := none
  dMax := none
  add := ⟨COLOR_Normal, COLOR_Minor, COLOR_NA, COLOR_TIP_POROG, some 0x104, none, none, none,
    .norm, 0x108⟩
  typed := .inr (.inl rfl)
  tip := rfl

/-- The counter is at its threshold of 10, and monitored. -/
def atLimit : Mem := fun a =>
  if a = 0x100 ∨ a = 0x104 then 10 else if a = 0x108 then 1 else 0

/-- The counter is cleared between two calls. -/
def clearedCounter : List (ColorEvent × Option Int8) :=
  [(.testProg, some 0), (.store 0x100 0, none), (.testProg, some 0)]

/-- The counter has no colour, and keeps none when it is back at 0. -/
theorem historyIndependent_iff_cleared :
    ∃ s, (colorMachine (fun _ _ => false) idleReadings uncolouredLimit).Run
        ⟨uncolouredLimit.add, atLimit⟩ clearedCounter s ∧
      (HistoryIndependent (fun _ _ => false) idleReadings uncolouredLimit atLimit clearedCounter ↔
        LostAlike uncolouredLimit atLimit [.testProg, .store 0x100 0, .testProg]) := by
  have hr : (colorMachine (fun _ _ => false) idleReadings uncolouredLimit).Run
      ⟨uncolouredLimit.add, atLimit⟩ clearedCounter _ := Machine.run_of_exec rfl
  exact ⟨_, hr, historyIndependent_iff _ _ _ _ _ _ hr⟩

/-- **Colours depend on their history**: a counter that goes back below its threshold keeps
the colour `COLOR_NA`, where its value is normal. -/
theorem historyIndependent_not :
    ∃ s, (colorMachine (fun _ _ => false) idleReadings uncolouredLimit).Run
        ⟨uncolouredLimit.add, atLimit⟩ clearedCounter s ∧
      ¬ HistoryIndependent (fun _ _ => false) idleReadings uncolouredLimit atLimit
        clearedCounter := by
  refine ⟨_, Machine.run_of_exec rfl, fun hind => ?_⟩
  have hnormal := hind [(.testProg, some 0), (.store 0x100 0, none)] .testProg 0 [] _ rfl
    (Machine.run_of_exec rfl) rfl
  exact absurd hnormal (by decide)

end Muxponder
