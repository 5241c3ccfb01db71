import Muxponder.KursCardSections
import Muxponder.KursFraming
import Muxponder.KursSetGrammar

/-!
# Texts that are Set

A set request for a text carries it between its second and its third `';'`.
`HandleKursSetParamValue` measures it there, `SetStrValueItem` copies as much of it as leaves
room for a terminator, and `GetStrParamValueItem` prints the variable up to its last byte.
The length is a number of 16 bits, and a request is never that long: it stands in a receive
buffer.

A callback finds the text in its variable. No text of the card has one (`rows_textCallback`).

## Main results

* `published_received`: what is published is a string that its buffer has room for.
* `setText_roundTrip`: an accepted text is stored in its variable, cut off where that ends, and
  printed as it is stored.
-/

namespace Muxponder

open Memory CString Digits KursProcessor

/-! ### Strings in a receive buffer -/

/-- A string in a receive buffer, with its terminator. -/
structure ReceivedStr extends Str where
  fits : chars.length < KURS_MAX_BUFFER

/-- A buffer with a terminator in it holds a string. -/
theorem Buffer.received {b : Buffer} (h : 0 ∈ b.toList) :
    ∃ (s : ReceivedStr) (rest : List UInt8), b.toList = s.mem rest := by
  obtain ⟨chars, rest, hsplit, h0⟩ := List.eq_append_cons_of_mem h
  have hlen := congrArg List.length hsplit
  rw [Vector.length_toList, List.length_append, List.length_cons] at hlen
  have hfits : chars.length < KURS_MAX_BUFFER := by omega
  exact ⟨⟨⟨chars, h0⟩, hfits⟩, rest, hsplit⟩

/-- **A published request** is a string that its buffer has room for. -/
theorem published_received {handler : Buffer → Buffer} {s s' : KursSystem} {e : KursEvent}
    {b : BuffId} {content : Buffer} (h : kursStep handler s e = some (s', .published b content)) :
    ∃ (r : ReceivedStr) (rest : List UInt8), content.toList = r.mem rest := by
  cases e with
  | service =>
      simp only [kursStep] at h
      split at h
      · split at h
        · simp [Option.map_eq_some_iff] at h
        · simp at h
      all_goals simp at h
  | byte data =>
      obtain ⟨p, hp, hpair⟩ := Option.map_eq_some_iff.mp h
      have hobs := (Prod.mk.inj hpair).2
      split at hobs
      · next hdone =>
          obtain ⟨hpayload, rfl⟩ := of_decide_eq_true hdone
          rw [kursReceive, hpayload] at hp
          obtain ⟨q, hq, hpub⟩ := listenPayload_eop hp
          obtain ⟨v, hv, -, -, -, -, -, -, hbuf, -⟩ := publish_eq_some hpub
          obtain ⟨-, rfl⟩ := KursObs.published.inj hobs
          obtain ⟨-, hbuff, -⟩ := push_frame hq
          obtain ⟨hi, rfl⟩ := Buffer.store_eq_some_iff.mp hv
          rw [← hbuff, hbuf]
          refine Buffer.received ?_
          rw [Vector.toList_set]
          exact List.mem_set (by simpa using hi) 0
      · simp at hobs

/-! ### The text of a request -/

/-- The field that a string carries as its value: the one between its second and its third
separator. -/
def CarriesField (s : Str) (field : List UInt8) : Prop :=
  ∃ pre mid behind,
    s.chars = pre ++ SEMICOLON :: (mid ++ SEMICOLON :: (field ++ SEMICOLON :: behind)) ∧
      SEMICOLON ∉ pre ∧ SEMICOLON ∉ mid ∧ SEMICOLON ∉ field

/-- What the callback of a text makes of the memory that holds it, where there is one. -/
def afterCallback (E : KursEnv) (L : Layout) (T : ProfileParam) (m : Mem) : Mem :=
  if T.userSet then (profileUsersetValue E L T (m.load32 T.data) m).2 else m

/-- The callback leaves the variable of its text as it is. -/
def CallbackKeeps (E : KursEnv) (L : Layout) (T : ProfileParam) (m : Mem) : Prop :=
  ∀ k < T.dSize.toNat,
    afterCallback E L T m (T.data + UInt32.ofNat k) = m (T.data + UInt32.ofNat k)

/-- The variable of a parameter shows a text: it has a terminator, and what is printed are the
first characters of the text, as many as there is room for in front of the last byte. -/
structure ShowsText (param : SectionParam) (field : List UInt8) (m : Mem) : Prop where
  terminated : ∃ k < param.dSize.toNat, m (param.data + UInt32.ofNat k) = 0
  printed : getStrParamValueItem param m = field.take (param.dSize.toNat - 1)

section Texts

variable {E : KursEnv} {L : Layout} {P : Profile} {m m' : Mem} {F : SetFields}
  {field data rest : List UInt8} {t : Table} {T : ProfileParam} {param : SectionParam}
  {o : SetOutcome} {size : UInt16}

/-- A field stands in front of its terminator. -/
theorem CarriesField.noNul {s : Str} (h : CarriesField s field) : 0 ∉ field := by
  obtain ⟨pre, mid, behind, hchars, -⟩ := h
  intro h0
  exact s.noNul (by simp [hchars, h0])

/-- A field is shorter than its string. -/
theorem CarriesField.length_lt {s : ReceivedStr} (h : CarriesField s.toStr field) :
    field.length < 2 ^ 16 := by
  obtain ⟨pre, mid, behind, hchars, -⟩ := h
  have hfits := s.fits
  rw [hchars] at hfits
  simp only [List.length_append, List.length_cons, KURS_MAX_BUFFER] at hfits
  omega

/-- **The value starts where the field does.** -/
theorem CarriesField.data_eq {s : Str} (h : CarriesField s field)
    (hfields : setFields (s.mem rest) = some F) (hdata : F.data = some data) :
    ∃ behind, data = field ++ SEMICOLON :: behind := by
  obtain ⟨pre, mid, behind, hchars, hpre, hmid, -⟩ := h
  obtain ⟨-, -, pre', mid', hsplit, hpre', -, hmid', -, -⟩ := setFields_data hfields hdata
  rw [Str.mem, hchars] at hsplit
  simp only [List.append_assoc, List.cons_append] at hsplit
  obtain ⟨-, htail⟩ := split_unique hsplit hpre hpre'
  obtain ⟨-, rfl⟩ := split_unique htail hmid hmid'
  exact ⟨_, rfl⟩

/-- The copy of a text writes to its variable alone. -/
theorem copyText_of_le {x : UInt32} {str : List UInt8} (hpos : 0 < T.dSize.toNat)
    (hx : T.dSize.toNat ≤ (x - T.data).toNat) : copyText T str size m x = m x := by
  have hlen : (copyLength T size).toNat = min (T.dSize.toNat - 1) size.toNat :=
    copyLength_toNat hpos
  have hne : x ≠ T.data + copyLength T size := by
    rintro rfl
    rw [add_sub_cancel_left, hlen] at hx
    omega
  rw [copyText, store8_of_ne hne, strncpy_of_le (by omega), clear_of_le hx]

/-- A text that is held is shown. -/
theorem showsText_of_holdsText (htext : param.type = .str ∨ param.type = .oid)
    (hpos : 0 < param.dSize.toNat) (hdata : param.data ≠ 0) (h0 : 0 ∉ field)
    (h : m.HoldsText param.data (field.take (param.dSize.toNat - 1))) :
    ShowsText param field m := by
  have hlen := List.length_take_le (param.dSize.toNat - 1) field
  refine ⟨⟨_, by omega, h.2⟩, ?_⟩
  have hcstr := cstr_of_holdsText h (fun hmem => h0 (List.mem_of_mem_take hmem)) hlen
  rw [getStrParamValueItem, if_neg hdata]
  rcases htext with htype | htype <;> simp only [htype, hcstr]

/-- The same bytes show the same text. -/
theorem ShowsText.congr (htext : param.type = .str ∨ param.type = .oid)
    (h : ShowsText param field m) (hsame : ∀ k < param.dSize.toNat,
      m' (param.data + UInt32.ofNat k) = m (param.data + UInt32.ofNat k)) :
    ShowsText param field m' := by
  obtain ⟨⟨k, hk, hend⟩, hprinted⟩ := h
  refine ⟨⟨k, hk, by rw [hsame k hk, hend]⟩, ?_⟩
  have hcstr : m'.cstr param.data (param.dSize.toNat - 1) =
      m.cstr param.data (param.dSize.toNat - 1) := cstr_congr fun k hk => hsame k (by omega)
  rw [← hprinted, getStrParamValueItem, getStrParamValueItem]
  rcases htext with htype | htype <;> simp only [htype, hcstr]

/-- `SetStrValueItem` on a text that is taken: its copy, and the callback. -/
theorem setStrValueItem_text {str : List UInt8} (htext : T.type = .str ∨ T.type = .oid)
    (h : setStrValueItem E L T str size m = some (true, m')) :
    m' = afterCallback E L T (copyText T str size m) := by
  have hset : setText E L T str size m = (true, m') := by
    rcases htext with htype | htype <;> simpa [setStrValueItem, htype] using h
  rw [setText] at hset
  rw [afterCallback]
  split at hset
  · next huser =>
      rw [if_pos huser]
      exact (congrArg Prod.snd hset).symm
  · next huser => rw [if_neg huser, (Prod.mk.inj hset).2]

/-- The length of a text is the number of its characters. -/
theorem dataSize_text {behind : List UInt8} (htext : T.type = .str ∨ T.type = .oid)
    (hsep : SEMICOLON ∉ field) (h0 : 0 ∉ field) :
    dataSize T (field ++ SEMICOLON :: behind) = some (some (UInt16.ofNat field.length)) := by
  rw [dataSize, if_pos htext, strchr_append hsep h0]
  rfl

/-! ### The round trip -/

/-- **A text comes back**: whatever a set request carries for a text, the copy of an accepted
one stays within the variable and shows its first characters, and so does the memory behind
the callback unless that has written to the variable. -/
theorem setText_roundTrip (E : KursEnv) (L : Layout) (P : Profile) (m : Mem) (s : ReceivedStr)
    (rest : List UInt8) (hrun : handleKursSetParamValue E L P m (s.mem rest) = some o)
    (hanswer : o.answer ≠ none) (htable : P.table o.table = some t)
    (hparam : o.param t = param.toProfileParam) (htext : param.type = .str ∨ param.type = .oid)
    (hsize : 2 ≤ param.dSize.toNat) (hdata : param.data ≠ 0)
    (hfield : CarriesField s.toStr field) :
    ∃ copied : Mem,
      (∀ x : UInt32, param.dSize.toNat ≤ (x - param.data).toNat → copied x = m x) ∧
        ShowsText param field copied ∧
        o.stored = afterCallback E L param.toProfileParam copied ∧
        (CallbackKeeps E L param.toProfileParam copied → ShowsText param field o.stored) := by
  rcases handleKursSetParamValue_cases hrun with ⟨F, rfl, -⟩ | ⟨F, data, t', hreach, hset⟩
  · exact absurd rfl hanswer
  obtain rfl : t = t' := by
    have htable' := hreach.table
    rw [← (setItem_numbers hset).1, htable] at htable'
    exact Option.some.inj htable'
  obtain ⟨size, hsized, -, hstr⟩ := setItem_accepted hset hanswer
  rw [← setItem_param hset, hparam] at hsized hstr
  obtain ⟨behind, rfl⟩ := hfield.data_eq hreach.fields hreach.data
  have h0 := hfield.noNul
  have hsep : SEMICOLON ∉ field := by
    obtain ⟨-, -, -, -, -, -, hsep⟩ := hfield
    exact hsep
  rw [dataSize_text htext hsep h0] at hsized
  obtain rfl : UInt16.ofNat field.length = size := by simpa using hsized
  have hpos : 0 < param.dSize.toNat := by omega
  have hshows : ShowsText param field (copyText param.toProfileParam
      (field ++ SEMICOLON :: behind) (UInt16.ofNat field.length) m) :=
    showsText_of_holdsText htext hpos hdata h0 (copyText_holdsText hpos hfield.length_lt h0)
  have hstored := setStrValueItem_text htext hstr
  refine ⟨_, fun x hx => copyText_of_le hpos hx, hshows, hstored, fun hkeeps => ?_⟩
  exact hstored ▸ hshows.congr htext hkeeps

end Texts

/-- A text of two characters. -/
def sampleLabel : SectionParam where
  toProfileParam := { sampleText with userSet := false, dSize := 3 }
  dAdd := none
  format := none
  formatFloat := absurd rfl

/-- `r1;1;CH1;25619`: a text of three characters. -/
def labelRequest : ReceivedStr :=
  ⟨⟨0x80 :: ascii "r1;1;CH1;25619\r", by decide⟩, by decide⟩

/-- A text that its variable has no room for is cut off. -/
theorem setText_roundTrip_label :
    ∃ o copied, handleKursSetParamValue sampleEnv sampleLayout
        (sampleProfile sampleLabel.toProfileParam) (fun _ => 0xFF) (labelRequest.mem []) =
          some o ∧
      (∀ x : UInt32, 3 ≤ (x - 0x100).toNat → copied x = 0xFF) ∧
      ShowsText sampleLabel (ascii "CH1") copied ∧
      o.stored = afterCallback sampleEnv sampleLayout sampleLabel.toProfileParam copied ∧
      (CallbackKeeps sampleEnv sampleLayout sampleLabel.toProfileParam copied →
        ShowsText sampleLabel (ascii "CH1") o.stored) := by
  have hrun : (handleKursSetParamValue sampleEnv sampleLayout
      (sampleProfile sampleLabel.toProfileParam) (fun _ => 0xFF) (labelRequest.mem [])).map
        (fun o => (o.answer, o.table, o.item)) = some (some [], 1, 1) := rfl
  obtain ⟨o, ho, hout⟩ := Option.map_eq_some_iff.mp hrun
  obtain ⟨hanswer, hnumbers⟩ := Prod.mk.inj hout
  obtain ⟨htable, hitem⟩ := Prod.mk.inj hnumbers
  have hfield : CarriesField labelRequest.toStr (ascii "CH1") :=
    ⟨0x80 :: ascii "r1", ascii "1", ascii "25619\r", by decide, by decide, by decide, by decide⟩
  have hsome : o.answer ≠ none := by rw [hanswer]; exact Option.some_ne_none _
  let t : Table := ⟨0, fun _ => sampleLabel.toProfileParam, 1⟩
  have hparam : o.param t = sampleLabel.toProfileParam := rfl
  obtain ⟨copied, hcopied⟩ := setText_roundTrip sampleEnv sampleLayout
    (sampleProfile sampleLabel.toProfileParam) (fun _ => 0xFF) labelRequest [] ho hsome
    (by rw [htable]; rfl) hparam (Or.inl rfl) (by decide) (by decide) hfield
  exact ⟨o, copied, ho, hcopied⟩

/-! ### The texts of the card -/

/-- The texts of the card have room for a character, and no callback. -/
theorem rows_textCallback (i : Fin PROFILE_SECTION_COUNT) : ∀ r ∈ cardRows i,
    r.type = .str ∨ r.type = .oid → 2 ≤ r.dSize.toNat ∧ r.userSet = false := by
  revert i
  decide +kernel

/-- **What is copied of a text of the card is what is stored.** -/
theorem afterCallback_param {L : Layout} {C : CardMemory L} {i : Fin PROFILE_SECTION_COUNT}
    {r : Row} {E : KursEnv} {m : Mem} (hr : r ∈ cardRows i)
    (htext : r.type = .str ∨ r.type = .oid) :
    afterCallback E L (C.param r).toProfileParam m = m := by
  have huser : (C.param r).userSet = false := (rows_textCallback i r hr htext).2
  rw [afterCallback, huser]
  rfl

end Muxponder
