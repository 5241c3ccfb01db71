import Muxponder.KursReadBounds

/-!
# The Language Pack

The requests `0x7A` and `0x7B` of `kurs_core.c`. A block is what stands behind the first
semicolon of a request, 256 characters of it as `strlen` counts them: the end-of-packet
character is one of them unless a NUL stands in front of it. In a reply a NUL, the
end-of-packet character and, but for block 0, a semicolon are replaced by control
characters, which a block may also hold itself.

## Main results

* `writeLangPack_accepted`, `writeLangPack_refused`: what a write request does.
* `langPack_roundTrip`: which blocks have the same reply.
-/

namespace Muxponder

open CString Digits Printf

variable {S S' : KursState} {c q : KursCall} {r data : List UInt8} {n : UInt32}
  {i : Fin LANG_BLOCK_MAX_CNT}

/-! ### Writing -/

/-- The block that a request brings, by its index, and the characters from it on, if it is
accepted. -/
def acceptedBlock (S : KursState) (c : KursCall) :
    Option (Fin LANG_BLOCK_MAX_CNT × List UInt8) :=
  c.number.bind fun n => (strchr SEMICOLON c.strRx).join.bind fun k =>
    if h : n.toNat < LANG_BLOCK_MAX_CNT ∧ S.setParamEnabled = true ∧
        strlen (c.strRx.drop (k + 1)) = some LANG_BLOCK_SIZE then
      some (⟨n.toNat, h.1⟩, c.strRx.drop (k + 1))
    else none

/-- The answer to a request whose block is accepted. -/
def okReply (c : KursCall) (i : Fin LANG_BLOCK_MAX_CNT) : List UInt8 :=
  c.checked (integer (i.val : ℤ) ++ ascii ";OK;")

/-- What an accepted request is made of. -/
theorem acceptedBlock_eq_some_iff :
    acceptedBlock S c = some (i, data) ↔
      ∃ n k, c.number = some n ∧ n.toNat = i.val ∧ strchr SEMICOLON c.strRx = some (some k) ∧
        data = c.strRx.drop (k + 1) ∧ S.setParamEnabled = true ∧
          strlen data = some LANG_BLOCK_SIZE := by
  constructor
  · intro h
    obtain ⟨n, hn, h⟩ := Option.bind_eq_some_iff.mp h
    obtain ⟨k, hk, h⟩ := Option.bind_eq_some_iff.mp h
    split at h
    next hok =>
      obtain ⟨rfl, rfl⟩ := Prod.mk.inj (Option.some.inj h)
      exact ⟨n, k, hn, rfl, Option.join_eq_some_iff.mp hk, rfl, hok.2⟩
    · simp at h
  · rintro ⟨n, k, hn, hi, hk, rfl, hok⟩
    have hlt : n.toNat < LANG_BLOCK_MAX_CNT := hi ▸ i.isLt
    obtain rfl : ⟨n.toNat, hlt⟩ = i := Fin.ext hi
    rw [acceptedBlock, hn, Option.bind_some, hk, Option.join_some, Option.bind_some,
      dif_pos ⟨hlt, hok⟩]

/-- A small number is itself as an `int`. -/
theorem asInt_of_lt (h : n.toNat < 2 ^ 31) : asInt n = (n.toNat : ℤ) := by
  have hint : asInt n = n.toBitVec.toInt := rfl
  have hnat : n.toBitVec.toNat < 2 ^ 31 := h
  rw [hint, BitVec.toInt_eq_toNat_cond, if_pos (by omega)]
  rfl

/-- **An accepted block** is stored. -/
theorem writeLangPack_accepted (h : acceptedBlock S c = some (i, data)) :
    handleKursWriteLangPackCommand S c = (writeBlock S i data).map fun S' => (S', okReply c i) := by
  obtain ⟨n, k, hn, hi, hk, rfl, hen, hlen⟩ := acceptedBlock_eq_some_iff.mp h
  have hlt : n.toNat < LANG_BLOCK_MAX_CNT := hi ▸ i.isLt
  obtain rfl : ⟨n.toNat, hlt⟩ = i := Fin.ext hi
  have hint : asInt n = (n.toNat : ℤ) := asInt_of_lt (by
    have hmax : LANG_BLOCK_MAX_CNT = 150 := rfl
    omega)
  rw [handleKursWriteLangPackCommand, hn, Option.bind_some, hk, Option.bind_some]
  simp only [dif_pos (And.intro hlt hen), hlen, Option.bind_some, if_true, okReply, hint]

/-- **Any other request** changes nothing and is not answered with `OK`. -/
theorem writeLangPack_refused (h : acceptedBlock S c = none) :
    ∃ text, handleKursWriteLangPackCommand S c = some (S, c.checked (text ++ ascii ";NA;")) := by
  obtain ⟨n, hn⟩ := number_eq_some (c := c)
  obtain ⟨found, hfound⟩ :=
    Option.isSome_iff_exists.mp (strchr_isSome (c := SEMICOLON) (strRx_terminated (c := c)))
  have hno : ∃ text, (if n = 0xFFFFFFFF then c.checked (ascii "0;NA;")
      else c.checked (integer (asInt n) ++ ascii ";NA;")) = c.checked (text ++ ascii ";NA;") := by
    by_cases hnone : n = 0xFFFFFFFF
    · exact ⟨ascii "0", by rw [if_pos hnone]; rfl⟩
    · exact ⟨integer (asInt n), by rw [if_neg hnone]⟩
  obtain ⟨text, hno⟩ := hno
  rw [handleKursWriteLangPackCommand, hn, Option.bind_some, hfound, Option.bind_some]
  cases found with
  | none => exact ⟨text, by simp only [hno]⟩
  | some k =>
      by_cases hen : n.toNat < LANG_BLOCK_MAX_CNT ∧ S.setParamEnabled = true
      · obtain ⟨len, hlen⟩ := strlen_eq_some (strchr_terminated hfound strRx_terminated)
        have hshort : len ≠ LANG_BLOCK_SIZE := by
          rintro rfl
          rw [acceptedBlock, hn, Option.bind_some, hfound, Option.join_some, Option.bind_some,
            dif_pos ⟨hen.1, hen.2, hlen⟩] at h
          simp at h
        refine ⟨integer (asInt n), ?_⟩
        simp only [dif_pos hen, hlen, Option.bind_some, if_neg hshort]
      · exact ⟨text, by simp only [dif_neg hen, hno]⟩

/-- Block 0 announces a number. The bytes that the `memset` clears are its own. -/
theorem writeBlock_first : writeBlock S 0 data =
    (strToU32Def data 0xFFFFFFFF).map fun cnt => { S with
      expectedBlckCnt := cnt, lngpack := Function.update S.lngpack 0 (blockOf data) } := by
  simp only [writeBlock, show (0 : Fin LANG_BLOCK_MAX_CNT).val = 0 from rfl, if_true,
    Function.update_idem]

/-- Any other block is stored, and the one with the announced number ends the pack. -/
theorem writeBlock_other (hi : i ≠ 0) : writeBlock S i data = some { S with
    newLngFile := S.newLngFile || UInt32.ofNat i.val = S.expectedBlckCnt
    lngpack := Function.update S.lngpack i (blockOf data) } :=
  if_neg fun h0 => hi (Fin.ext h0)

/-- Storing a block leaves the other blocks alone. -/
theorem writeBlock_lngpack (h : writeBlock S i data = some S') :
    S'.lngpack = Function.update S.lngpack i (blockOf data) := by
  by_cases hi : i = 0
  · rw [hi, writeBlock_first] at h
    obtain ⟨cnt, -, rfl⟩ := Option.map_eq_some_iff.mp h
    rw [hi]
  · rw [writeBlock_other hi] at h
    obtain rfl := Option.some.inj h
    rfl

/-! ### Reading -/

/-- A block as a reply shows it. -/
def encodeBlock (i : Fin LANG_BLOCK_MAX_CNT) (block : LangBlock) : List UInt8 :=
  block.toList.map (encodeByte i.val)

/-- The reply to a request for a block. -/
theorem readLangPack_eq (hn : c.number = some n) (hi : n.toNat = i.val) :
    handleKursReadLangPackCommand S c = some (S, c.checked
      (unsigned n.toNat ++ SEMICOLON :: (encodeBlock i (S.lngpack i) ++ [SEMICOLON]))) := by
  have hlt : n.toNat < LANG_BLOCK_MAX_CNT := hi ▸ i.isLt
  obtain rfl : ⟨n.toNat, hlt⟩ = i := Fin.ext hi
  rw [handleKursReadLangPackCommand, hn, Option.map_some]
  simp only [dif_pos hlt, encodeBlock]

@[simp] theorem encodeBlock_length {block : LangBlock} :
    (encodeBlock i block).length = LANG_BLOCK_SIZE := by
  rw [encodeBlock, List.length_map, Vector.length_toList]

/-- A byte in a reply is none of those that are replaced. -/
theorem encodeByte_ne {k : ℕ} {ch : UInt8} :
    encodeByte k ch ≠ KURS_EOP ∧ encodeByte k ch ≠ 0 ∧ (k ≠ 0 → encodeByte k ch ≠ SEMICOLON) := by
  have heop : KURS_EOP = 13 := rfl
  have hsemicolon : SEMICOLON = 59 := rfl
  rw [encodeByte]
  grind

/-- Two bytes that a reply does not tell apart: the semicolon, but for block 0, and the
end-of-packet character look like the control characters that replace them. -/
def Confused (k : ℕ) (a b : UInt8) : Prop :=
  a = b ∨ k ≠ 0 ∧ (a = SEMICOLON ∧ b = 0x02 ∨ a = 0x02 ∧ b = SEMICOLON) ∨
    (a = KURS_EOP ∧ b = 0x01 ∨ a = 0x01 ∧ b = KURS_EOP)

/-- Which bytes look the same in a reply. -/
theorem encodeByte_eq_iff {k : ℕ} {a b : UInt8} (ha : a ≠ 0) (hb : b ≠ 0) :
    encodeByte k a = encodeByte k b ↔ Confused k a b := by
  have heop : KURS_EOP = 13 := rfl
  have hsemicolon : SEMICOLON = 59 := rfl
  rw [encodeByte, encodeByte, Confused, heop, hsemicolon]
  grind

/-- A byte of a block. -/
theorem blockOf_get {k : Fin LANG_BLOCK_SIZE} : (blockOf data).get k = data.getD k.val 0 :=
  Vector.getElem_ofFn k.isLt

/-- The length of a string in front of its terminator. -/
theorem strlen_append {s rest : List UInt8} (h : 0 ∉ s) :
    strlen (s ++ 0 :: rest) = some s.length := by
  rw [strlen, strchr_append h h, Option.join_some]

/-- A block that is accepted holds no NUL. -/
theorem blockOf_ne_zero (h : strlen data = some LANG_BLOCK_SIZE) (k : Fin LANG_BLOCK_SIZE) :
    (blockOf data).get k ≠ 0 := by
  obtain ⟨pre, rest, rfl, hlen, -, h0⟩ := strchr_eq_some_iff.mp (Option.join_eq_some_iff.mp h)
  have hk : k.val < pre.length := by
    rw [hlen]
    exact k.isLt
  have hget : (blockOf (pre ++ 0 :: rest)).get k = pre.get ⟨k.val, hk⟩ := by
    rw [blockOf_get, List.getD_append _ _ _ _ hk, List.getD_eq_getElem _ _ hk]
    rfl
  rw [hget]
  exact fun hzero => h0 (hzero ▸ List.get_mem _ _)

/-- Replies to one request show the same block exactly if the blocks look the same. -/
theorem encodeBlock_eq_iff {b₁ b₂ : LangBlock} (h₁ : ∀ k, b₁.get k ≠ 0)
    (h₂ : ∀ k, b₂.get k ≠ 0) :
    encodeBlock i b₁ = encodeBlock i b₂ ↔ ∀ k, Confused i.val (b₁.get k) (b₂.get k) := by
  constructor
  · intro h k
    rw [← encodeByte_eq_iff (h₁ k) (h₂ k)]
    have hk := congrArg (fun l : List UInt8 => l[k.val]?) h
    simpa [encodeBlock, Vector.get] using hk
  · intro h
    refine List.ext_getElem (by simp) fun k hk _ => ?_
    have hk' : k < LANG_BLOCK_SIZE := by simpa using hk
    have hbyte := (encodeByte_eq_iff (h₁ ⟨k, hk'⟩) (h₂ ⟨k, hk'⟩)).mpr (h ⟨k, hk'⟩)
    simpa [encodeBlock, Vector.get] using hbyte

/-- A stored block has been accepted and is read back. -/
theorem lngpack_of_accepted (hacc : acceptedBlock S c = some (i, data))
    (hw : handleKursWriteLangPackCommand S c = some (S', r)) :
    S'.lngpack i = blockOf data ∧ r = okReply c i := by
  rw [writeLangPack_accepted hacc] at hw
  obtain ⟨S'', hS, heq⟩ := Option.map_eq_some_iff.mp hw
  obtain ⟨rfl, rfl⟩ := Prod.mk.inj heq
  exact ⟨by rw [writeBlock_lngpack hS, Function.update_self], rfl⟩

/-- **The round trip of a block**: what is written is stored and shown without the
characters that end a reply or its fields, and two blocks have the same reply exactly if
they differ in characters that look the same. -/
theorem langPack_roundTrip {S₁ S₂ S₁' S₂' : KursState} {c₁ c₂ q : KursCall}
    {data₁ data₂ r₁ r₂ : List UInt8} {n : UInt32} {i : Fin LANG_BLOCK_MAX_CNT}
    (hacc₁ : acceptedBlock S₁ c₁ = some (i, data₁))
    (hacc₂ : acceptedBlock S₂ c₂ = some (i, data₂))
    (hw₁ : handleKursWriteLangPackCommand S₁ c₁ = some (S₁', r₁))
    (hw₂ : handleKursWriteLangPackCommand S₂ c₂ = some (S₂', r₂))
    (hn : q.number = some n) (hi : n.toNat = i.val) :
    S₁'.lngpack i = blockOf data₁ ∧
      (∃ shown, handleKursReadLangPackCommand S₁' q = some (S₁', q.checked
          (unsigned n.toNat ++ SEMICOLON :: (shown ++ [SEMICOLON]))) ∧
        shown.length = LANG_BLOCK_SIZE ∧
        ∀ ch ∈ shown, ch ≠ KURS_EOP ∧ ch ≠ 0 ∧ (i.val ≠ 0 → ch ≠ SEMICOLON)) ∧
      ((handleKursReadLangPackCommand S₁' q).map Prod.snd =
          (handleKursReadLangPackCommand S₂' q).map Prod.snd ↔
        ∀ k, Confused i.val ((blockOf data₁).get k) ((blockOf data₂).get k)) := by
  obtain ⟨hstored₁, -⟩ := lngpack_of_accepted hacc₁ hw₁
  obtain ⟨hstored₂, -⟩ := lngpack_of_accepted hacc₂ hw₂
  obtain ⟨-, -, -, -, -, -, -, hlen₁⟩ := acceptedBlock_eq_some_iff.mp hacc₁
  obtain ⟨-, -, -, -, -, -, -, hlen₂⟩ := acceptedBlock_eq_some_iff.mp hacc₂
  refine ⟨hstored₁, ⟨_, readLangPack_eq hn hi, encodeBlock_length, ?_⟩, ?_⟩
  · intro ch hch
    obtain ⟨a, -, rfl⟩ := List.mem_map.mp hch
    exact encodeByte_ne
  · rw [readLangPack_eq hn hi, readLangPack_eq hn hi, hstored₁, hstored₂,
      ← encodeBlock_eq_iff (blockOf_ne_zero hlen₁) (blockOf_ne_zero hlen₂)]
    simp only [Option.map_some, Option.some.injEq]
    constructor
    · intro h
      rw [← List.cons_append, ← List.append_assoc, ← List.cons_append, ← List.append_assoc] at h
      have htext := List.append_cancel_left (checked_semicolon_inj h)
      exact (List.cons.inj htext).2
    · rintro h
      rw [h]

/-! ### Blocks that look the same -/

/-- `z1;` and 255 times a character. -/
def fillBlock (ch : UInt8) (hch : ch ≠ KURS_EOP) : KursRequest where
  sop := 0x80
  payload := ascii "z1;" ++ List.replicate 255 ch
  noEop := by
    intro h
    rcases List.mem_append.mp h with h | h
    · exact absurd h (by decide)
    · exact hch (List.eq_of_mem_replicate h).symm
  rest := []

/-- The characters of its block, up to the terminator. -/
def fillData (ch : UInt8) : List UInt8 := List.replicate 255 ch ++ [KURS_EOP, 0]

/-- The block fills its place. -/
theorem fillData_strlen {ch : UInt8} (h0 : ch ≠ 0) :
    strlen (fillData ch) = some LANG_BLOCK_SIZE := by
  have hnul : 0 ∉ List.replicate 255 ch ++ [KURS_EOP] := by
    intro h
    rcases List.mem_append.mp h with h | h
    · exact h0 (List.eq_of_mem_replicate h).symm
    · exact absurd (List.mem_singleton.mp h) (by decide)
  have hdata : fillData ch = (List.replicate 255 ch ++ [KURS_EOP]) ++ 0 :: [] := by
    rw [fillData, List.append_assoc]
    rfl
  rw [hdata, strlen_append hnul, List.length_append, List.length_replicate]
  rfl

/-- Such a block is accepted. -/
theorem fillBlock_accepted {ch : UInt8} (hch : ch ≠ KURS_EOP) (h0 : ch ≠ 0) :
    acceptedBlock zeroState (requestTo idleReadings (fillBlock ch hch)) =
      some (1, fillData ch) := by
  have hlen := fillData_strlen h0
  exact acceptedBlock_eq_some_iff.mpr ⟨1, 3, rfl, rfl, rfl, rfl, rfl, hlen⟩

/-- Its bytes are not NUL. -/
theorem fillBlock_get_ne_zero {ch : UInt8} (hch : ch ≠ KURS_EOP) (h0 : ch ≠ 0)
    (k : Fin LANG_BLOCK_SIZE) : (blockOf (fillData ch)).get k ≠ 0 := by
  obtain ⟨-, -, -, -, -, -, -, hlen⟩ := acceptedBlock_eq_some_iff.mp (fillBlock_accepted hch h0)
  exact blockOf_ne_zero hlen k

/-- Its bytes are the character and, at the end, the end-of-packet character. -/
theorem fillData_get {ch : UInt8} {k : Fin LANG_BLOCK_SIZE} :
    (blockOf (fillData ch)).get k = if k.val < 255 then ch else KURS_EOP := by
  have hlen : (List.replicate 255 ch).length = 255 := List.length_replicate
  rw [blockOf_get, fillData]
  split
  next hk =>
    rw [List.getD_append _ _ _ _ (by rw [hlen]; exact hk), List.getD_replicate]
    exact hk
  next hk =>
    have hlast : k.val = 255 := by
      have hlt : k.val < 256 := k.isLt
      omega
    rw [List.getD_append_right _ _ _ _ (by omega), hlen, hlast]
    rfl

/-- A block of index 1 is stored. -/
theorem fillBlock_written {ch : UInt8} (hch : ch ≠ KURS_EOP) (h0 : ch ≠ 0) :
    ∃ S', handleKursWriteLangPackCommand zeroState (requestTo idleReadings (fillBlock ch hch)) =
      some (S', okReply (requestTo idleReadings (fillBlock ch hch)) 1) := by
  rw [writeLangPack_accepted (fillBlock_accepted hch h0)]
  exact ⟨_, rfl⟩

/-- `{1`: read block 1. -/
def readBlock1 : KursRequest := ⟨0x80, [0x7B, 0x31], by decide, []⟩

/-- **Two blocks with the same reply**: semicolons, and the character that replaces a
semicolon. -/
theorem langPack_confused :
    ∃ S₁ S₂, handleKursWriteLangPackCommand zeroState
        (requestTo idleReadings (fillBlock SEMICOLON (by decide))) =
          some (S₁, okReply (requestTo idleReadings (fillBlock SEMICOLON (by decide))) 1) ∧
      handleKursWriteLangPackCommand zeroState
        (requestTo idleReadings (fillBlock 0x02 (by decide))) =
          some (S₂, okReply (requestTo idleReadings (fillBlock 0x02 (by decide))) 1) ∧
      S₁.lngpack 1 ≠ S₂.lngpack 1 ∧
      (handleKursReadLangPackCommand S₁ (requestTo idleReadings readBlock1)).map Prod.snd =
        (handleKursReadLangPackCommand S₂ (requestTo idleReadings readBlock1)).map Prod.snd := by
  have hsemi : SEMICOLON ≠ 0 := by decide
  have hctrl : (0x02 : UInt8) ≠ 0 := by decide
  obtain ⟨S₁, h₁⟩ := fillBlock_written (by decide) hsemi
  obtain ⟨S₂, h₂⟩ := fillBlock_written (by decide) hctrl
  obtain ⟨hb₁, -⟩ := lngpack_of_accepted (fillBlock_accepted (by decide) hsemi) h₁
  obtain ⟨hb₂, -⟩ := lngpack_of_accepted (fillBlock_accepted (by decide) hctrl) h₂
  refine ⟨S₁, S₂, h₁, h₂, ?_, ?_⟩
  · rw [hb₁, hb₂]
    intro heq
    have hfirst : (blockOf (fillData SEMICOLON)).get 0 = (blockOf (fillData 0x02)).get 0 := by
      rw [heq]
    rw [blockOf_get, blockOf_get] at hfirst
    exact absurd hfirst (by decide)
  · have hsame : encodeBlock 1 (S₁.lngpack 1) = encodeBlock 1 (S₂.lngpack 1) := by
      rw [hb₁, hb₂]
      refine (encodeBlock_eq_iff (fillBlock_get_ne_zero (by decide) hsemi)
        (fillBlock_get_ne_zero (by decide) hctrl)).mpr fun k => ?_
      rw [fillData_get, fillData_get]
      split
      · exact Or.inr (Or.inl ⟨by decide, Or.inl ⟨rfl, rfl⟩⟩)
      · exact Or.inl rfl
    rw [readLangPack_eq (i := 1) rfl rfl, readLangPack_eq (i := 1) rfl rfl, hsame]
    rfl

/-- The round trip of a block of semicolons and one of letters. -/
theorem langPack_roundTrip_letters : ∃ S₁ S₂,
    S₁.lngpack 1 = blockOf (fillData SEMICOLON) ∧
      (∃ shown, handleKursReadLangPackCommand S₁ (requestTo idleReadings readBlock1) =
          some (S₁, (requestTo idleReadings readBlock1).checked
            (unsigned (1 : UInt32).toNat ++ SEMICOLON :: (shown ++ [SEMICOLON]))) ∧
        shown.length = LANG_BLOCK_SIZE ∧
        ∀ ch ∈ shown, ch ≠ KURS_EOP ∧ ch ≠ 0 ∧
          ((1 : Fin LANG_BLOCK_MAX_CNT).val ≠ 0 → ch ≠ SEMICOLON)) ∧
      ((handleKursReadLangPackCommand S₁ (requestTo idleReadings readBlock1)).map Prod.snd =
          (handleKursReadLangPackCommand S₂ (requestTo idleReadings readBlock1)).map Prod.snd ↔
        ∀ k, Confused (1 : Fin LANG_BLOCK_MAX_CNT).val ((blockOf (fillData SEMICOLON)).get k)
          ((blockOf (fillData 0x41)).get k)) := by
  have hsemi : SEMICOLON ≠ 0 := by decide
  have hletter : (0x41 : UInt8) ≠ 0 := by decide
  obtain ⟨S₁, h₁⟩ := fillBlock_written (by decide) hsemi
  obtain ⟨S₂, h₂⟩ := fillBlock_written (by decide) hletter
  exact ⟨S₁, S₂, langPack_roundTrip (fillBlock_accepted (by decide) hsemi)
    (fillBlock_accepted (by decide) hletter) h₁ h₂ rfl rfl⟩

end Muxponder
