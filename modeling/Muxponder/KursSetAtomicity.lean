import Muxponder.KursSetParam

/-!
# Refused Set Requests

A set request that is answered with `NA` should have changed nothing, and no descriptor
outside the addressed table should be read. Both hold but for two orders of steps in the
code: `T_UK` is dereferenced for the type of the item before the item is checked against
the count of the table, and a text is copied into its variable before the callback may
refuse it.

## Main results

* `setParam_atomic_iff`: the handler is atomic exactly on the requests that come into
  neither of these two cases.
* `setParam_not_atomic`: a request for item 0, and a refused text.
-/

namespace Muxponder

open Memory CString Digits

/-- The variables that a refused request has to leave alone: the data of the parameters,
the requests to controls, and the flags of the main loop. -/
inductive Watched (P : Profile) (L : Layout) : UInt32 → Prop
  | data {i : Fin PROFILE_SECTION_COUNT} {entries : ℤ → ProfileParam} {k : ℤ} {a : UInt32}
      (hentries : P.parameters i = some entries)
      (hk : 0 ≤ k ∧ k < (P.sectionParamCount i).toNat)
      (ha : (a - (entries k).data).toNat < (entries k).dSize.toNat) : Watched P L a
  | next (c : Control) {i : ℕ} {a : UInt32} (hi : i < INTERFACE_COUNT)
      (ha : (a - L.next c (UInt32.ofNat i)).toNat < 4) : Watched P L a
  | change (c : Control) {i : ℕ} {a : UInt32} (hi : i < INTERFACE_COUNT)
      (ha : (a - L.change c (UInt32.ofNat i)).toNat < 4) : Watched P L a
  | restore : Watched P L L.restore
  | save : Watched P L L.save

/-- **Atomicity of a set request**: an `NA` leaves the watched variables as they were, and
the descriptor that was read is one of its section. -/
structure SetAtomic (P : Profile) (L : Layout) (m : Mem) (o : SetOutcome) : Prop where
  unchanged : o.answer = none → ∀ a, Watched P L a → o.mem a = m a
  inside : ∀ s ∈ o.accessed, 0 ≤ s.2 ∧ s.2 < (P.sectionParamCount s.1).toNat

/-- The request passes its checksum and its fields and names a table: the handler goes on
to the descriptor of its item. -/
structure Reaches (P : Profile) (strRx : List UInt8) (F : SetFields) (data : List UInt8)
    (t : Table) : Prop where
  fields : setFields strRx = some F
  data : F.data = some data
  table : P.table F.table = some t

/-- The request reaches a table with an item that the table does not have. -/
def ItemOutside (P : Profile) (strRx : List UInt8) : Prop :=
  ∃ F data t, Reaches P strRx F data t ∧ (F.item = 0 ∨ t.count < F.item)

/-- A text comes to its callback, which refuses it, and the text is not what the variables
held before. -/
def TextRefused (E : KursEnv) (L : Layout) (P : Profile) (m : Mem) (strRx : List UInt8) :
    Prop :=
  ∃ F data t T size, Reaches P strRx F data t ∧ T = t.entries F.index ∧
    dataSize T data = some (some size) ∧ writable P (strRx.getD 1 0) F t T = true ∧
    (T.type = .oid ∨ T.type = .str) ∧ T.userSet = true ∧
    (textCallback E L T data size m).1 = false ∧
    ∃ a, Watched P L a ∧ copyText T data size m a ≠ m a

/-! ### The outcomes of the handler -/

section Outcomes

variable {E : KursEnv} {L : Layout} {P : Profile} {m m' : Mem} {strRx data : List UInt8}
  {F : SetFields} {t : Table} {T : ProfileParam} {o : SetOutcome} {size : UInt16}

/-- A table is a section with parameters. -/
theorem table_eq_some {table : UInt16} (h : P.table table = some t) :
    P.parameters t.index = some t.entries ∧ t.count = P.sectionParamCount t.index := by
  rw [Profile.table] at h
  obtain ⟨i, -, h⟩ := Option.bind_eq_some_iff.mp h
  obtain ⟨entries, hentries, h⟩ := Option.bind_eq_some_iff.mp h
  split at h
  · obtain rfl := Option.some.inj h
    exact ⟨hentries, rfl⟩
  · simp at h

/-- What a request reaches is determined by it. -/
theorem Reaches.unique {F' : SetFields} {data' : List UInt8} {t' : Table}
    (h : Reaches P strRx F data t) (h' : Reaches P strRx F' data' t') :
    F = F' ∧ data = data' ∧ t = t' := by
  obtain rfl := Option.some.inj (h.fields.symm.trans h'.fields)
  exact ⟨rfl, Option.some.inj (h.data.symm.trans h'.data),
    Option.some.inj (h.table.symm.trans h'.table)⟩

/-- **The outcomes of a request**: it reaches no descriptor, or it goes on with the one of
its item. -/
theorem handleKursSetParamValue_cases (h : handleKursSetParamValue E L P m strRx = some o) :
    (∃ F : SetFields, o = F.refuse none m ∧ ∀ F' data t, ¬ Reaches P strRx F' data t) ∨
      ∃ F data t, Reaches P strRx F data t ∧
        setItem E L P m (strRx.getD 1 0) F data t = some o := by
  rw [handleKursSetParamValue] at h
  obtain ⟨F, hF, h⟩ := Option.bind_eq_some_iff.mp h
  cases hdata : F.data with
  | none =>
      rw [hdata] at h
      refine Or.inl ⟨F, (Option.some.inj h).symm, fun F' data t hreach => ?_⟩
      obtain rfl := Option.some.inj (hF.symm.trans hreach.fields)
      simpa [hdata] using hreach.data
  | some data =>
      rw [hdata] at h
      cases htable : P.table F.table with
      | none =>
          simp only [htable] at h
          refine Or.inl ⟨F, (Option.some.inj h).symm, fun F' data t hreach => ?_⟩
          obtain rfl := Option.some.inj (hF.symm.trans hreach.fields)
          simpa [htable] using hreach.table
      | some t =>
          simp only [htable] at h
          exact Or.inr ⟨F, data, t, ⟨hF, hdata, htable⟩, h⟩

/-- With a descriptor reached, the item is refused before `SetStrValueItem` or has its
result. -/
theorem setItem_cases {cmd : UInt8} (h : setItem E L P m cmd F data t = some o) :
    (o = F.refuse (some (t.index, F.index)) m ∧
        ∀ size, dataSize (t.entries F.index) data = some (some size) →
          writable P cmd F t (t.entries F.index) = false) ∨
      ∃ size ok m', dataSize (t.entries F.index) data = some (some size) ∧
        writable P cmd F t (t.entries F.index) = true ∧
        setStrValueItem E L (t.entries F.index) data size m = some (ok, m') ∧
        o = if ok then F.accept E L (t.entries F.index) (some (t.index, F.index)) m'
          else F.refuse (some (t.index, F.index)) m' := by
  rw [setItem] at h
  obtain ⟨r, hr, h⟩ := Option.bind_eq_some_iff.mp h
  cases r with
  | none =>
      refine Or.inl ⟨(Option.some.inj h).symm, fun size hsize => ?_⟩
      simp [hr] at hsize
  | some size =>
      simp only at h
      split at h
      · next hw =>
          obtain ⟨⟨ok, m'⟩, hset, ho⟩ := Option.map_eq_some_iff.mp h
          refine Or.inr ⟨size, ok, m', hr, hw, hset, ?_⟩
          cases ok <;> exact ho.symm
      · next hw =>
          exact Or.inl ⟨(Option.some.inj h).symm, fun _ _ => by simpa using hw⟩

/-- The descriptor that is read is that of the item. -/
theorem setItem_accessed {cmd : UInt8} (h : setItem E L P m cmd F data t = some o) :
    o.accessed = some (t.index, F.index) := by
  rcases setItem_cases h with ⟨rfl, -⟩ | ⟨size, ok, m', -, -, -, rfl⟩
  · rfl
  · cases ok <;> rfl

/-- A word that is refused has not been stored. -/
theorem storeWord_refused {tm : UInt32} (h : (storeWord E L T tm m).1 = false) :
    (storeWord E L T tm m).2 = m := by
  rw [storeWord] at h ⊢
  split at h
  · next huser =>
      rw [if_pos huser]
      split at h
      · simp at h
      · next m' hcall =>
          have hm := profileUsersetValue_refused (by rw [hcall])
          rwa [hcall] at hm
  · simp at h

/-- A parsed number that is refused has not been stored. -/
theorem storeParsed_refused {r : Option UInt32} (h : (storeParsed E L T m r).1 = false) :
    (storeParsed E L T m r).2 = m := by
  cases r with
  | none => rfl
  | some tm =>
      simp only [storeParsed] at h ⊢
      split at h
      · next hlim =>
          rw [if_pos hlim]
          exact storeWord_refused h
      · next hlim => rw [if_neg hlim]

/-- A text that its callback refuses is left as it was copied. -/
theorem textCallback_refused (h : (textCallback E L T data size m).1 = false) :
    (textCallback E L T data size m).2 = copyText T data size m :=
  profileUsersetValue_refused h

/-- **What a refused value leaves behind**: nothing, but for a text whose callback refused
it. -/
theorem setStrValueItem_refused
    (h : setStrValueItem E L T data size m = some (false, m')) :
    m' = m ∨ ((T.type = .oid ∨ T.type = .str) ∧ T.userSet = true ∧
      (textCallback E L T data size m).1 = false ∧ m' = copyText T data size m) := by
  have hparsed : ∀ {r : Option UInt32}, storeParsed E L T m r = (false, m') → m' = m := by
    intro r hr
    have hm := storeParsed_refused (m := m) (r := r) (by rw [hr])
    rwa [hr] at hm
  have htext : setText E L T data size m = (false, m') →
      T.userSet = true ∧ (textCallback E L T data size m).1 = false ∧
        m' = copyText T data size m := by
    intro hr
    rw [setText] at hr
    split at hr
    · next huser =>
        have hm := textCallback_refused (by rw [hr])
        rw [hr] at hm
        exact ⟨huser, by rw [hr], hm⟩
    · simp at hr
  rw [setStrValueItem] at h
  split at h
  case h_1 | h_2 | h_3 =>
      obtain ⟨r, -, hr⟩ := Option.map_eq_some_iff.mp h
      exact Or.inl (hparsed hr)
  case h_4 | h_5 | h_8 => exact Or.inl (hparsed (Option.some.inj h))
  case h_6 htype => exact Or.inr ⟨Or.inl htype, htext (Option.some.inj h)⟩
  case h_7 htype => exact Or.inr ⟨Or.inr htype, htext (Option.some.inj h)⟩
  case h_9 =>
      have hm := storeWord_refused (m := m) (by rw [Option.some.inj h])
      rw [Option.some.inj h] at hm
      exact Or.inl hm
  case h_10 => simp at h

/-- A text that its callback refuses stays in its variable. -/
theorem setStrValueItem_text_refused (htype : T.type = .oid ∨ T.type = .str)
    (huser : T.userSet = true)
    (hcall : (textCallback E L T data size m).1 = false) :
    setStrValueItem E L T data size m = some (false, copyText T data size m) := by
  have htext : setText E L T data size m = (false, copyText T data size m) := by
    rw [setText, if_pos huser]
    exact Prod.ext hcall (textCallback_refused hcall)
  rcases htype with htype | htype <;> simp only [setStrValueItem, htype, htext]

/-! ### Atomicity -/

/-- An item of its table is one of its descriptors. -/
theorem index_inside_iff (h : P.table F.table = some t) :
    (0 ≤ F.index ∧ F.index < (P.sectionParamCount t.index).toNat) ↔
      ¬ (F.item = 0 ∨ t.count < F.item) := by
  have hzero : F.item = 0 ↔ F.item.toNat = 0 := by
    rw [← UInt16.toNat_inj]
    rfl
  have hlt : t.count < F.item ↔ t.count.toNat < F.item.toNat := UInt16.lt_iff_toNat_lt
  rw [← (table_eq_some h).2, SetFields.index, hzero, hlt]
  omega

/-- The descriptor that is read is inside exactly if the request names no item outside. -/
theorem accessed_inside_iff (h : handleKursSetParamValue E L P m strRx = some o) :
    (∀ s ∈ o.accessed, 0 ≤ s.2 ∧ s.2 < (P.sectionParamCount s.1).toNat) ↔
      ¬ ItemOutside P strRx := by
  rcases handleKursSetParamValue_cases h with ⟨F, rfl, hnone⟩ | ⟨F, data, t, hreach, hset⟩
  · refine iff_of_true (by simp [SetFields.refuse]) ?_
    rintro ⟨F', data, t, hreach, -⟩
    exact hnone F' data t hreach
  · have houtside : ItemOutside P strRx ↔ (F.item = 0 ∨ t.count < F.item) := by
      constructor
      · rintro ⟨F', data', t', hreach', hitem⟩
        obtain ⟨rfl, -, rfl⟩ := hreach.unique hreach'
        exact hitem
      · exact fun hitem => ⟨F, data, t, hreach, hitem⟩
    rw [setItem_accessed hset, houtside, ← index_inside_iff hreach.table]
    simp

/-- An `NA` has changed a watched variable exactly if a text was refused. -/
theorem unchanged_iff (h : handleKursSetParamValue E L P m strRx = some o) :
    (o.answer = none → ∀ a, Watched P L a → o.mem a = m a) ↔
      ¬ TextRefused E L P m strRx := by
  rcases handleKursSetParamValue_cases h with ⟨F, rfl, hnone⟩ | ⟨F, data, t, hreach, hset⟩
  · refine iff_of_true (fun _ _ _ => rfl) ?_
    rintro ⟨F', data, t, T, size, hreach, -⟩
    exact hnone F' data t hreach
  -- what a refused text says about this request
  have hrefused : ∀ {T size}, T = t.entries F.index →
      dataSize T data = some (some size) → writable P (strRx.getD 1 0) F t T = true →
      (T.type = .oid ∨ T.type = .str) → T.userSet = true →
      (textCallback E L T data size m).1 = false →
      o = F.refuse (some (t.index, F.index)) (copyText T data size m) := by
    rintro T size rfl hsize hw htype huser hcall
    have hstr := setStrValueItem_text_refused htype huser hcall
    rcases setItem_cases hset with ⟨-, hnot⟩ | ⟨size', ok, m', hsize', -, hstr', rfl⟩
    · rw [hnot size hsize] at hw
      simp at hw
    · obtain rfl : size = size' := by simpa [hsize] using hsize'
      rw [hstr] at hstr'
      obtain ⟨rfl, rfl⟩ := Prod.mk.inj (Option.some.inj hstr')
      rfl
  constructor
  · rintro hsame ⟨F', data', t', T, size, hreach', hT, hsize, hw, htype, huser, hcall, a, ha,
      hne⟩
    obtain ⟨rfl, rfl, rfl⟩ := hreach.unique hreach'
    obtain rfl := hrefused hT hsize hw htype huser hcall
    exact hne (hsame rfl a ha)
  · intro htext hanswer a ha
    rcases setItem_cases hset with ⟨rfl, -⟩ | ⟨size, ok, m', hsize, hw, hstr, rfl⟩
    · rfl
    cases ok with
    | true => simp [SetFields.accept] at hanswer
    | false =>
        rcases setStrValueItem_refused hstr with rfl | ⟨htype, huser, hcall, rfl⟩
        · rfl
        · by_contra hne
          exact htext ⟨F, data, t, _, size, hreach, rfl, hsize, hw, htype, huser, hcall, a,
            ha, hne⟩

end Outcomes

/-- **Where set requests are atomic**: on every string, whatever the profile, the memory
and the callback, exactly if the request names no item outside its table and refuses no
text that it has already copied. -/
theorem setParam_atomic_iff (E : KursEnv) (L : Layout) (P : Profile) (m : Mem) (s : Str)
    (rest : List UInt8) :
    ∃ o, handleKursSetParamValue E L P m (s.mem rest) = some o ∧
      (SetAtomic P L m o ↔
        ¬ ItemOutside P (s.mem rest) ∧ ¬ TextRefused E L P m (s.mem rest)) := by
  obtain ⟨o, ho⟩ := Option.isSome_iff_exists.mp
    (handleKursSetParamValue_isSome (E := E) (L := L) (P := P) (m := m) s rest)
  refine ⟨o, ho, ?_⟩
  rw [← accessed_inside_iff ho, ← unchanged_iff ho]
  exact ⟨fun hatomic => ⟨hatomic.inside, hatomic.unchanged⟩, fun h => ⟨h.2, h.1⟩⟩

/-! ### A request that is not atomic -/

/-- A card without hardware. -/
def sampleEnv : KursEnv where
  alsSetMode := fun _ _ => false
  ipglbRate := 0
  tmi := ⟨#[0, 0, 0, 0], rfl⟩
  atof := fun _ => 0
  floatCompareLt := fun _ _ => false
  usergetValue := fun _ m => m
  getStrParamValueItem := fun _ _ => []

/-- Variables behind each other. -/
def sampleLayout : Layout where
  interfaces := 0x1000
  sizeofInterface := 0x100
  control := fun
    | .serviceState => 0x00
    | .txDisable => 0x10
    | .loopbackMode => 0x20
    | .rate => 0x30
    | .resetCounters => 0x40
  transceiverState := 0x50
  capabilities := 0x54
  als := 0x58
  alsControl := 0x20
  thresholdMode := 0x5C
  restore := 0x800
  save := 0x801
  sectionParamChanged := 0x810

/-- A profile with one parameter in section 1. -/
def sampleProfile (T : ProfileParam) : Profile where
  parameters := fun i => if i = 0 then some fun _ => T else none
  sectionParamCount := fun i => if i = 0 then 1 else 0
  setParamEnabled := true

/-- A text of three characters, with a callback that knows no such parameter. -/
def sampleText : ProfileParam where
  paramId := 5
  userGet := false
  userSet := true
  type := .str
  access := 213
  data := 0x100
  dSize := 4
  dMin := none
  dMax := none

/-- `r1;0;x;40358`: a text for item 0. -/
def itemZero : Str := ⟨0x80 :: ascii "r1;0;x;40358\r", by decide⟩

/-- `r1;1;x;24999`: a text for item 1. -/
def itemOne : Str := ⟨0x80 :: ascii "r1;1;x;24999\r", by decide⟩

/-- **Set requests are not atomic**: the request for item 0 is answered with `NA` after
reading the descriptor in front of section 1, the refused text has been stored. -/
theorem setParam_not_atomic :
    (∃ o, handleKursSetParamValue sampleEnv sampleLayout (sampleProfile sampleText)
        (fun _ => 0) (itemZero.mem []) = some o ∧
      ¬ SetAtomic (sampleProfile sampleText) sampleLayout (fun _ => 0) o) ∧
    ∃ o, handleKursSetParamValue sampleEnv sampleLayout (sampleProfile sampleText)
        (fun _ => 0) (itemOne.mem []) = some o ∧
      ¬ SetAtomic (sampleProfile sampleText) sampleLayout (fun _ => 0) o := by
  constructor
  · refine ⟨_, rfl, fun hatomic => ?_⟩
    have hneg : (0 : ℤ) ≤ -1 := (hatomic.inside (0, -1) rfl).1
    omega
  · refine ⟨_, rfl, fun hatomic => ?_⟩
    have hentries : (sampleProfile sampleText).parameters 0 = some fun _ => sampleText := rfl
    have hdata : Watched (sampleProfile sampleText) sampleLayout 0x100 :=
      .data (k := 0) hentries ⟨le_rfl, by decide⟩ (by decide)
    exact absurd (hatomic.unchanged rfl 0x100 hdata) (by decide)

end Muxponder
