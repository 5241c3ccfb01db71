import Muxponder.KursReplyLength

/-!
# The Size of a Reply

A reply that shows a section is as long as its values are wide in print, and nothing keeps
it below the 2048 bytes of its buffer. The widths are those of the values after their
refresh, so they are read off the state and the ports.

## Main results

* `replyFits_iff`: a reply is built and fits exactly where it has room (`ReplyRoom`).
* `reply_not_bounded`: a request for a line without its number, and one for section 8 with
  full counters.
-/

namespace Muxponder

open Memory CString Digits Printf

variable {L : Layout} {T : KursTables L} {tps : UInt32} {S S' : KursState} {c : KursCall}
  {r text : List UInt8} {n : UInt32}

/-- The handler builds a reply that fits, with the terminator that `kurs_service` puts
behind it. -/
def ReplyFits (tps : UInt32) (T : KursTables L) (S : KursState) (c : KursCall) : Prop :=
  ∃ S' r, kursHandleRequests tps T S c = some (S', r) ∧ r.length + 1 ≤ TX_BUFF_SIZE

/-! ### Widths of a section -/

/-- The width of a parameter: its `';'`, its value after the refresh, and its colour. -/
def paramWidth (L : Layout) (c : KursCall) (colored : Bool) (S : KursState)
    (p : SectionParam) : ℕ :=
  let m := refresh L c.readings p.toProfileParam S.mem
  let color := (if colored then p.dAdd else none).bind fun a =>
    shownColor c.floatCompareLt c.readings p.toProfileParam (S.adds a) m
  1 + valueWidth p m + (color.map fun z => 1 + integerWidth z).getD 0

/-- The width of parameters in print, each in the state that those before it leave. -/
def sectionWidth (L : Layout) (c : KursCall) (colored : Bool) :
    List SectionParam → KursState → ℕ
  | [], _ => 0
  | p :: ps, S =>
      paramWidth L c colored S p + sectionWidth L c colored ps (showParam L c colored S p).1

/-- The width of a section, `;NA` for one without parameters. -/
def readWidth (T : KursTables L) (S : KursState) (c : KursCall) (n : UInt32)
    (i : Fin PROFILE_SECTION_COUNT) : ℕ :=
  if T.filled i then sectionWidth L c (c.colored n) (T.params i) S else 3

/-- The room that a section has: 2048 bytes but for address and command, the last `';'`,
the end of the packet and the terminator, with the digits of its number and of the
checksum. -/
def SectionFits (T : KursTables L) (S : KursState) (c : KursCall) (n : UInt32)
    (i : Fin PROFILE_SECTION_COUNT) : Prop :=
  integerWidth (asInt n) + readWidth T S c n i + checksumWidth (c.header ++ sectionText T S c n i)
    ≤ 2043

/-- **Where a reply has room**: a line is asked for by a number, a section has room for its
widths, colours are set for a parameter that has some, and the checksum of a reprogramming
request is found inside its buffer. -/
def ReplyRoom (T : KursTables L) (S : KursState) (c : KursCall) : Prop :=
  match c.command with
  | .rdProfileLine => c.number ≠ some 0xFFFFFFFF
  | .rdProfileParams => ∀ n ∈ c.number, n ≠ 0xFFFFFFFF →
      ∀ i ∈ T.sectionIndex (asInt n), SectionFits T S c n i
  | .setColorDegradeAndFailure => ∀ F ∈ colorFields c.strRx, F.colors.isSome = true →
      F.accepted T S = true → ((T.colorParam F).bind fun p => p.dAdd).isSome = true
  | .safeReprogramming => (checkRequest c.strRx).isSome = true
  | _ => True

/-- The width of a parameter is that of its print. -/
theorem showParam_length {colored : Bool} {p : SectionParam} :
    (showParam L c colored S p).2.length = paramWidth L c colored S p := by
  rw [showParam, paramWidth]
  split
  next h => simp [h, getStrParamValueItem_length, Nat.add_comm]
  next a h =>
    simp only [h, List.length_cons, List.length_append, getStrParamValueItem_length,
      showColor_length, Option.bind_some]
    omega

/-- The width of parameters is that of their print. -/
theorem showSection_length {colored : Bool} {ps : List SectionParam} :
    (showSection L c colored ps S).2.length = sectionWidth L c colored ps S := by
  induction ps generalizing S with
  | nil => rfl
  | cons p ps ih =>
      rw [showSection, sectionWidth, List.length_append, ih, showParam_length]

/-- The width of a section is that of its print. -/
theorem readSection_length {i : Fin PROFILE_SECTION_COUNT} :
    (readSection T S c n i).2.length = readWidth T S c n i := by
  rw [readSection, readWidth]
  split
  · exact showSection_length
  · rfl

/-- The reply that shows a section. -/
theorem section_fits_iff {i : Fin PROFILE_SECTION_COUNT} :
    (c.checked (sectionText T S c n i)).length + 1 ≤ TX_BUFF_SIZE ↔ SectionFits T S c n i := by
  have htext : (sectionText T S c n i).length =
      integerWidth (asInt n) + readWidth T S c n i + 1 := by
    rw [sectionText, List.length_append, List.length_append, integer_length,
      readSection_length, List.length_singleton]
    omega
  rw [checked_length, SectionFits, TX_BUFF_SIZE, htext]
  omega

/-! ### Reading -/

/-- A line has room, unless the request has no number: it is then -1 for the code, which
looks for its line in front of the first one. -/
theorem rdProfile_fits_iff :
    (∃ S' r, handleKursRdProfile T S c = some (S', r) ∧ r.length + 1 ≤ TX_BUFF_SIZE) ↔
      c.number ≠ some 0xFFFFFFFF := by
  obtain ⟨n, hn⟩ := number_eq_some (c := c)
  have hline : 0 ≤ asInt n → ∃ line, lineText T (asInt n) = some line ∧ line.length ≤ 180 := by
    intro hpos
    have hint := width_int n
    rw [lineText]
    split
    · refine ⟨_, rfl, ?_⟩
      have hcount := width_word T.lineCount
      simp only [List.length_append, List.length_cons, integer_length, unsigned_length]
      omega
    split
    next hzero hle =>
      have htext := T.textFits ((asInt n).toNat - 1) (by omega)
      rw [if_neg (by omega)]
      refine ⟨_, rfl, ?_⟩
      simp only [List.length_append, List.length_cons, integer_length, PROFILE_LINE_LENGTH]
        at htext ⊢
      omega
    · exact ⟨_, rfl, by simp [ascii]⟩
  rw [handleKursRdProfile, hn, Option.bind_some]
  constructor
  · rintro ⟨S', r, h, -⟩ hnone
    obtain rfl := Option.some.inj hnone
    have hminus : asInt 0xFFFFFFFF = -1 := rfl
    rw [hminus, lineText, if_neg (by omega), if_pos (by omega), if_pos (by omega)] at h
    simp at h
  · intro hsome
    obtain ⟨line, hline, hlen⟩ := hline
      ((number_cases hn).resolve_left fun hnone => hsome (congrArg some hnone))
    refine ⟨S, _, by rw [hline]; rfl, checked_fits ?_⟩
    rw [List.length_append, List.length_singleton]
    omega

/-- A number that is not negative comes to a section. -/
theorem sectionIndex_eq_some {z : ℤ} (hz : 0 ≤ z) : ∃ i, T.sectionIndex z = some i := by
  rw [KursSections.sectionIndex, if_neg (by omega)]
  cases namedSection z with
  | none => exact ⟨_, rfl⟩
  | some i => exact ⟨_, rfl⟩

/-- A section that is read has room for its widths. -/
theorem rdStrValueAndColor_fits_iff :
    (∃ S' r, handleKursRdStrValueAndColor T S c = some (S', r) ∧
        r.length + 1 ≤ TX_BUFF_SIZE) ↔
      ∀ n ∈ c.number, n ≠ 0xFFFFFFFF →
        ∀ i ∈ T.sectionIndex (asInt n), SectionFits T S c n i := by
  obtain ⟨n, hn⟩ := number_eq_some (c := c)
  rw [handleKursRdStrValueAndColor, hn]
  simp only [Option.bind_some, Option.mem_some_iff, forall_eq']
  by_cases hnone : n = 0xFFFFFFFF
  · rw [if_pos hnone]
    refine iff_of_true ⟨S, [], rfl, ?_⟩ (fun h => absurd hnone h)
    rw [TX_BUFF_SIZE, List.length_nil]
    omega
  · rw [if_neg hnone]
    obtain ⟨i, hi⟩ := sectionIndex_eq_some (T := T) ((number_cases hn).resolve_left hnone)
    rw [hi, Option.map_some]
    constructor
    · rintro ⟨S', r, h, hfits⟩ - j hj
      obtain rfl := Option.some.inj hj
      obtain ⟨-, rfl⟩ := Prod.mk.inj (Option.some.inj h)
      exact section_fits_iff.mp hfits
    · intro h
      exact ⟨_, _, rfl, section_fits_iff.mpr (h hnone i rfl)⟩

/-! ### All requests -/

/-- **The reply buffer**: for every request, state and profile, a reply is built and fits
exactly where it has room. -/
theorem replyFits_iff (tps : UInt32) (T : KursTables L) (S : KursState) (c : KursCall) :
    ReplyFits tps T S c ↔ ReplyRoom T S c := by
  have hplain : ∀ {S' : KursState} {text : List UInt8}, text.length ≤ 2044 →
      ∃ S₁ r, some (S', c.plain text) = some (S₁, r) ∧ r.length + 1 ≤ TX_BUFF_SIZE :=
    fun htext => ⟨_, _, rfl, plain_fits htext⟩
  rw [ReplyFits, kursHandleRequests, ReplyRoom]
  cases c.command with
  | rdProfileLine => exact rdProfile_fits_iff
  | rdProfileParams => exact rdStrValueAndColor_fits_iff
  | setColorDegradeAndFailure => exact setColors_fits_iff
  | safeReprogramming => exact safeReprogramming_fits_iff
  | setProfileParams => exact iff_of_true setParam_fits trivial
  | writeLanguagePack => exact iff_of_true writeLangPack_fits trivial
  | readLanguagePack => exact iff_of_true readLangPack_fits trivial
  | getColorDegradeAndFailure => exact iff_of_true getColors_fits trivial
  | extendedDeviceClass => exact iff_of_true extendedRdDeviceClass_fits trivial
  | extendedConfigRdWr => exact iff_of_true extendedConfigRdWr_fits trivial
  | extendedEnSetParams =>
      exact iff_of_true ⟨S, _, rfl, checked_fits (show 3 ≤ 2039 by omega)⟩ trivial
  | rdDeviceClass =>
      have hclass := T.classFits
      exact iff_of_true (hplain (by omega)) trivial
  | enSetParams => exact iff_of_true (hplain (show 2 ≤ 2044 by omega)) trivial
  | unknown => exact iff_of_true (hplain (show 2 ≤ 2044 by omega)) trivial

/-! ### Requests that do not fit -/

/-- The width of a stored value in print. -/
def Stored.width : Stored → ℕ
  | .word v => unsignedWidth v.toNat
  | .double v => unsignedWidth v.toNat

/-- The type of the variable that a value is stored in. -/
def Stored.type : Stored → DataType
  | .word _ => .u32
  | .double _ => .u64

/-- The cases of the counters. -/
def UsergetCase.isCounter : UsergetCase → Bool
  | .pfc _ _ _ | .eth _ _ => true
  | _ => false

/-- The value of a counter is read off the ports alone. -/
theorem usergetSwitch_counter {R : Readings} {m m' : Mem} {k : UsergetCase}
    (hk : k.isCounter = true) : usergetSwitch L R m k = usergetSwitch L R m' k := by
  cases k with
  | pfc p counter i => cases counter <;> rfl
  | eth counter i => rfl
  | _ => simp [UsergetCase.isCounter] at hk

/-- The width of a parameter that is refreshed is that of the value it is refreshed to. -/
theorem paramWidth_of_stored {p : SectionParam} {st : Stored} (hdata : p.data ≠ 0)
    (huser : p.userGet = true) (htype : p.type = st.type)
    (hst : usergetSwitch L c.readings S.mem (usergetCase p.paramId) = some st) :
    paramWidth L c false S p = 1 + st.width := by
  have hget : ¬ (p.paramId = 0 ∧ p.userGet = false) := by simp [huser]
  cases st with
  | word v =>
      have hrefresh : refresh L c.readings p.toProfileParam S.mem = S.mem.store32 p.data v := by
        rw [refresh, if_pos huser, kursUsergetValue, if_neg hget, hst]
      have htype : p.type = .u32 := htype
      simp [paramWidth, hrefresh, valueWidth, hdata, htype, load32_store32, Stored.width]
  | double v =>
      have hrefresh : refresh L c.readings p.toProfileParam S.mem = S.mem.store64 p.data v := by
        rw [refresh, if_pos huser, kursUsergetValue, if_neg hget, hst]
      have htype : p.type = .u64 := htype
      simp [paramWidth, hrefresh, valueWidth, hdata, htype, load64_store64, Stored.width]

/-- Where no width depends on the state, that of a section is their sum. -/
theorem sectionWidth_eq_sum {colored : Bool} {w : SectionParam → ℕ} {ps : List SectionParam}
    (h : ∀ p ∈ ps, ∀ S, paramWidth L c colored S p = w p) :
    sectionWidth L c colored ps S = (ps.map w).sum := by
  induction ps generalizing S with
  | nil => rfl
  | cons p ps ih =>
      rw [sectionWidth, h p List.mem_cons_self, List.map_cons, List.sum_cons,
        ih fun p hp => h p (List.mem_cons_of_mem _ hp)]

/-- A counter of `section_8`, refreshed into `dummy_u32` or `dummy_u64`. -/
def counterParam (paramId : UInt32) (double : Bool) : SectionParam where
  paramId := paramId
  userGet := true
  userSet := false
  type := if double then .u64 else .u32
  access := 85
  data := if double then 0x908 else 0x900
  dSize := if double then 8 else 4
  dMin := none
  dMax := none
  dAdd := none
  format := none
  formatFloat := by simp

/-- The OTU counters of a port in `section_8`, by the index of the interface. -/
def otuCounters (i : UInt32) : List SectionParam :=
  [counterParam (ID_8_CL_1_OTU_ES + i) false, counterParam (ID_8_CL_1_OTU_SES + i) false,
    counterParam (ID_8_CL_1_OTU_BBE + i) true, counterParam (ID_8_CL_1_OTU_UAS + i) false]

/-- The SDH counters of a client. -/
def sdhCounters (i : UInt32) : List SectionParam :=
  [counterParam (ID_8_CL_1_SDH_ES + i) false, counterParam (ID_8_CL_1_SDH_SES + i) false,
    counterParam (ID_8_CL_1_SDH_BBE + i) true, counterParam (ID_8_CL_1_SDH_UAS + i) false]

/-- The Ethernet counters of a client. The octets that the clients from the eighth on have
received go by identifiers of their own. -/
def ethCounters (i : UInt32) : List SectionParam :=
  [counterParam (ID_8_CL_1_ETH_RX_PKTS + i) true,
    counterParam (if i < 7 then ID_8_CL_1_ETH_RX_OCTS + i else ID_8_CL_8_ETH_RX_OCTS + (i - 7))
      true,
    counterParam (ID_8_CL_1_ETH_RX_ERRS + i) true, counterParam (ID_8_CL_1_ETH_TX_PKTS + i) true,
    counterParam (ID_8_CL_1_ETH_TX_OCTS + i) true]

/-- `section_8`: the counters of the two lines and of the sixteen clients. -/
def section8 : List SectionParam :=
  otuCounters 16 ++ otuCounters 17 ++ (List.range 16).flatMap fun k =>
    let i := UInt32.ofNat k
    otuCounters i ++ sdhCounters i ++ ethCounters i

/-- A profile with `section_8`. -/
def section8Sections : KursSections where
  parameters := fun i =>
    if i = 7 then some fun k => section8.getD k.toNat (counterParam 0 false) else none
  sectionParamCount := fun i => if i = 7 then 216 else 0

/-- The parameters of that profile. -/
theorem section8Sections_params : section8Sections.params 7 = section8 := by
  have hlen : section8.length = 216 := by decide +kernel
  have hall : ∀ k : ℕ, section8.getD (k : ℤ).toNat (counterParam 0 false) =
      section8.getD k (counterParam 0 false) := fun k => by rw [Int.toNat_natCast]
  change (List.range 216).map (fun k : ℕ => section8.getD (k : ℤ).toNat (counterParam 0 false)) =
    section8
  simp only [hall]
  exact List.ext_getElem (by simp [hlen]) fun k _ hk => by simp [hk]

/-- There are no others. -/
theorem section8Sections_mem {i : Fin PROFILE_SECTION_COUNT} {p : SectionParam}
    (hp : p ∈ section8Sections.params i) : p ∈ section8 := by
  by_cases hi : i = 7
  · rwa [hi, section8Sections_params] at hp
  · simp [KursSections.params, section8Sections, hi] at hp

/-- A counter is refreshed into a scratch variable that it fits into. -/
theorem section8_scratch : ∀ p ∈ section8,
    (p.data = 0x900 ∧ p.type = .u32 ∧ (usergetCase p.paramId).width = 4) ∨
      (p.data = 0x908 ∧ p.type = .u64 ∧ (usergetCase p.paramId).width = 8) := by
  decide +kernel

/-- The same as tables. -/
def section8Tables : KursTables sampleLayout where
  toKursSections := section8Sections
  class_ := []
  text := fun _ => []
  lineCount := 0
  dummyU32 := 0x900
  dummyU64 := 0x908
  dummyFloat := 0x910
  classFits := settingTables.classFits
  textFits := settingTables.textFits
  stringFits := by
    intro i p hp htype
    rcases section8_scratch p (section8Sections_mem hp) with ⟨-, ht, -⟩ | ⟨-, ht, -⟩ <;>
      simp [ht] at htype
  section2Fits := Nat.zero_le _
  refreshesScratch := by
    intro i p hp _ a ha
    rcases section8_scratch p (section8Sections_mem hp) with ⟨hd, -, hw⟩ | ⟨hd, -, hw⟩
    · rw [Refreshed, hd, hw] at ha
      exact Or.inl ha
    · rw [Refreshed, hd, hw] at ha
      exact Or.inr (Or.inl ha)
  saveApart := settingTables.saveApart

/-- Ports whose counters are full: Ethernet clients, and lines at the rate of OTU1. -/
def fullReadings : Readings :=
  { idleReadings with
    prot := fun _ => PORT_PROTOCOL_ETHERNET
    rate := fun i => if i = 16 ∨ i = 17 then PORT_RATE_OTU1 else PORT_RATE_GE
    pfc := fun _ _ => 0xFFFFFFFF
    pfcBbe := fun _ => 0xFFFFFFFFFFFFFFFF
    eth := fun _ _ => 0xFFFFFFFFFFFFFFFF }

/-- `q8`: read section 8. -/
def readSection8 : KursRequest := ⟨0x80, ascii "q8", by decide, []⟩

/-- `s`: read a line, without its number. -/
def readLine : KursRequest := ⟨0x80, ascii "s", by decide, []⟩

/-- What a full counter is refreshed to. -/
def fullCounter (p : SectionParam) : Option Stored :=
  usergetSwitch sampleLayout fullReadings (fun _ => 0) (usergetCase p.paramId)

/-- Section 8 in print, with full counters. -/
theorem section8_width {q : KursRequest} :
    sectionWidth sampleLayout (requestTo fullReadings q) false section8 S = 2044 := by
  have hcounter : ∀ p ∈ section8, p.data ≠ 0 ∧ p.userGet = true ∧
      (usergetCase p.paramId).isCounter = true ∧
        ∃ st ∈ fullCounter p, p.type = st.type := by
    decide +kernel
  have hparam : ∀ p ∈ section8, ∀ S, paramWidth sampleLayout (requestTo fullReadings q) false S p =
      1 + ((fullCounter p).map Stored.width).getD 0 := by
    intro p hp S
    obtain ⟨hdata, huser, hk, st, hst, htype⟩ := hcounter p hp
    rw [Option.mem_def] at hst
    rw [hst]
    exact paramWidth_of_stored hdata huser htype ((usergetSwitch_counter hk).trans hst)
  rw [sectionWidth_eq_sum hparam]
  decide +kernel

/-- **Replies are not bounded**: a line in front of the profile has no known length, and
section 8 with full counters is longer than the buffer. -/
theorem reply_not_bounded :
    ¬ ReplyFits 0 settingTables zeroState (requestTo idleReadings readLine) ∧
      ¬ ReplyFits 0 section8Tables zeroState (requestTo fullReadings readSection8) := by
  constructor
  · intro h
    exact rdProfile_fits_iff.mp h rfl
  · intro h
    have hnumber : (requestTo fullReadings readSection8).number = some 8 := rfl
    have hindex : section8Tables.sectionIndex (asInt 8) = some 7 := rfl
    have hfits := rdStrValueAndColor_fits_iff.mp h 8 hnumber (by decide) 7 hindex
    have hwidth : readWidth section8Tables zeroState (requestTo fullReadings readSection8) 8 7 =
        2044 := by
      have hfilled : section8Tables.filled 7 = true := rfl
      have hparams : section8Tables.params 7 = section8 := section8Sections_params
      rw [readWidth, if_pos hfilled, hparams]
      exact section8_width
    rw [SectionFits, hwidth] at hfits
    omega

end Muxponder
