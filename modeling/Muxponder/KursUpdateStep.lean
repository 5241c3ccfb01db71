import Muxponder.KursRemoteUpdate

/-!
# One Reprogramming Request

What a single call of `HandleKursSafeReprogramming` can do. A request is classified by its
text alone (`isHexload`, `isFinish`, `isBlock`); `UpdateStep` lists the outcomes of a call
with the conditions under which each is taken, and `update_step` is the inversion every
invariant of a session rests on. The flash driver and the block writer are summarised on
the addresses a session reaches (`Cursor`).

## Main results

* `update_step`: every call is one of the outcomes of `UpdateStep`.
* `loadBlock_cases`, `finishLoad_cases`: what a block and a `FINISH` do in a session.
-/

namespace Muxponder

open CString Digits NorFlash

/-! ### Classifying requests -/

/-- The text of a request whose checksum matches. -/
def UpdateCall.text (c : UpdateCall) : Option (List UInt8) :=
  match checkRequest c.str_rx with
  | some (.valid str) => some str
  | _ => none

/-- A valid request with a given command. -/
def UpdateCall.hasCommand (lit : String) (c : UpdateCall) : Bool :=
  c.text.any fun str => startsWith lit (str.drop 2)

/-- A valid `HEXLOAD` request. -/
def UpdateCall.isHexload (c : UpdateCall) : Bool := c.hasCommand "HEXLOAD"

/-- A valid `FINISH` request. -/
def UpdateCall.isFinish (c : UpdateCall) : Bool := c.hasCommand "FINISH"

/-- A valid request that is answered alike inside and outside a session. -/
def UpdateCall.isSetting (c : UpdateCall) : Bool :=
  c.hasCommand "FWCONFIG" || c.hasCommand "DISABLESIGNATURE" || c.hasCommand "SOFTRESET"

/-- Any other valid request: inside a session, a data block. -/
def UpdateCall.isBlock (c : UpdateCall) : Bool :=
  c.text.isSome && !c.isHexload && !c.isFinish && !c.isSetting

/-- The commands of reprogramming. -/
def commands : List String := ["FWCONFIG", "DISABLESIGNATURE", "SOFTRESET", "HEXLOAD", "FINISH"]

/-- No command goes on as another one. -/
theorem commands_apart :
    ∀ lit ∈ commands, ∀ lit' ∈ commands, lit' ≠ lit → ¬ ascii lit <+: ascii lit' := by decide

/-- A text has at most one command. -/
theorem command_exclusive {lit : String} {s : List UInt8} (h : startsWith lit s = true)
    (hlit : lit ∈ commands) : ∀ lit' ∈ commands, lit' ≠ lit → startsWith lit' s = false := by
  intro lit' hlit' hne
  rw [← Bool.not_eq_true]
  intro h'
  rcases List.prefix_or_prefix_of_prefix (List.isPrefixOf_iff_prefix.mp h)
    (List.isPrefixOf_iff_prefix.mp h') with hp | hp
  · exact commands_apart lit hlit lit' hlit' hne hp
  · exact commands_apart lit' hlit' lit hlit hne.symm hp

section Commands

variable {tps : UInt32} {s : RemoteUpdate} {c : UpdateCall} {header str : List UInt8}

/-- `HEXLOAD` starts a session in any state. -/
theorem handleCommand_hexload (h : startsWith "HEXLOAD" (str.drop 2) = true) :
    handleCommand tps s c header str = some (hexload tps s c header) := by
  have hother := command_exclusive h (by simp [commands])
  have hfw := hother "FWCONFIG" (by simp [commands]) (by simp)
  have hsig := hother "DISABLESIGNATURE" (by simp [commands]) (by simp)
  have hres := hother "SOFTRESET" (by simp [commands]) (by simp)
  simp only [handleCommand, hfw, hsig, hres, h, Bool.false_eq_true, if_false, if_true]

/-- `FINISH` ends a session that is alive. -/
theorem handleCommand_finish (h : startsWith "FINISH" (str.drop 2) = true)
    (ht : ¬ s.dwLastTimeout < c.nticks - s.dwLastActionTime)
    (hs : s.bFwUpdateStarted = true) :
    handleCommand tps s c header str = finishLoad s c header := by
  have hother := command_exclusive h (by simp [commands])
  have hfw := hother "FWCONFIG" (by simp [commands]) (by simp)
  have hsig := hother "DISABLESIGNATURE" (by simp [commands]) (by simp)
  have hres := hother "SOFTRESET" (by simp [commands]) (by simp)
  have hhex := hother "HEXLOAD" (by simp [commands]) (by simp)
  simp only [handleCommand, hfw, hsig, hres, hhex, h, ht, hs, Bool.and_self,
    Bool.false_eq_true, if_false, if_true]

/-- Any other text is a block to a session that is alive. -/
theorem handleCommand_block (h : ∀ lit ∈ commands, startsWith lit (str.drop 2) = false)
    (ht : ¬ s.dwLastTimeout < c.nticks - s.dwLastActionTime)
    (hs : s.bFwUpdateStarted = true) :
    handleCommand tps s c header str = loadBlock tps s c header str := by
  have hfw := h "FWCONFIG" (by simp [commands])
  have hsig := h "DISABLESIGNATURE" (by simp [commands])
  have hres := h "SOFTRESET" (by simp [commands])
  have hhex := h "HEXLOAD" (by simp [commands])
  have hfin := h "FINISH" (by simp [commands])
  simp only [handleCommand, hfw, hsig, hres, hhex, hfin, ht, hs, Bool.and_false,
    Bool.false_eq_true, if_false, if_true]

end Commands

/-- The command of a valid request. -/
theorem UpdateCall.hasCommand_of_text {c : UpdateCall} {str : List UInt8}
    (h : c.text = some str) (lit : String) :
    c.hasCommand lit = startsWith lit (str.drop 2) := by
  rw [UpdateCall.hasCommand, h, Option.any_some]

/-- The text of a request that passed the tests. -/
theorem UpdateCall.text_eq_some_iff {c : UpdateCall} {str : List UInt8} :
    c.text = some str ↔ checkRequest c.str_rx = some (.valid str) := by
  rw [UpdateCall.text]
  split
  · next h => simp [h]
  · next h =>
      constructor
      · intro hno
        simp at hno
      · intro hyes
        exact absurd hyes (h _)

/-- **A valid request**: its text ends in four digits of checksum before the end of the
packet, and they match. -/
theorem checkRequest_valid_iff {str_rx str : List UInt8} :
    checkRequest str_rx = some (.valid str) ↔
      ∃ dwLen, strchr 0x0D str_rx = some (some dwLen) ∧ 6 ≤ dwLen ∧
        str = str_rx.set (dwLen - 4) 0 ∧
        str4HexToU16 (str_rx.drop (dwLen - 4)) =
          some (some (getCrc16Ascii str (dwLen - 4))) := by
  constructor
  · intro h
    obtain ⟨e, he, h⟩ := Option.bind_eq_some_iff.mp h
    rcases e with _ | dwLen
    · simp at h
    rcases Nat.lt_or_ge dwLen 6 with hlen | hlen
    · simp [hlen] at h
    simp only [Option.getD_some, Nat.not_lt.mpr hlen, if_false] at h
    obtain ⟨crc, hcrc, h⟩ := Option.map_eq_some_iff.mp h
    by_cases hmatch : crc = some (getCrc16Ascii (str_rx.set (dwLen - 4) 0) (dwLen - 4))
    · rw [if_pos hmatch, RequestCheck.valid.injEq] at h
      refine ⟨dwLen, he, hlen, h.symm, ?_⟩
      rw [hcrc, hmatch, h]
    · rw [if_neg hmatch] at h
      simp at h
  · rintro ⟨dwLen, he, hlen, rfl, hcrc⟩
    rw [checkRequest, he]
    simp [Nat.not_lt.mpr hlen, hcrc]

/-! ### Answers -/

/-- Two answers to one request have the same text. -/
theorem makeAnswerHEXCRC_inj {header a b : List UInt8}
    (h : makeAnswerHEXCRC header a = makeAnswerHEXCRC header b) : a = b := by
  simp only [makeAnswerHEXCRC, List.append_assoc] at h
  have htail := List.append_cancel_left h
  refine (List.append_inj' htail ?_).1
  simp [wordToHexStr]

/-- No answer is empty. -/
theorem makeAnswerHEXCRC_ne_nil {header a : List UInt8} : makeAnswerHEXCRC header a ≠ [] := by
  simp [makeAnswerHEXCRC]

/-- A text with a letter beyond `F` is no address. -/
theorem uintToHexStr_ne {a : UInt32} {t : List UInt8} (h : ∃ ch ∈ t, 0x46 < ch.toNat) :
    uintToHexStr a ≠ t := by
  rintro rfl
  obtain ⟨ch, hch, hlt⟩ := h
  obtain ⟨d, hd, rfl⟩ := mem_writeHex hch
  have := (hexDigit_range hd).2
  omega

/-! ### The flash driver -/

/-- A whole page on a page boundary is one operation. -/
theorem lldMemcpy_page {offset : ℕ} {p : List UInt8} (ho : offset % 64 = 0)
    (hp : p.length = 64) : lldMemcpy offset 64 p = some [.program offset p] := by
  have hop : lldWriteBufferProgramOp offset 64 p = some (.program offset p) := by
    rw [lldWriteBufferProgramOp, if_pos (by omega), List.take_of_length_le (by omega)]
  rw [lldMemcpy, LLD_BUFFER_SIZE, if_pos ho, lldMemcpyPages, LLD_BUFFER_SIZE,
    if_pos (by omega), hop, Option.bind_some, lldMemcpyPages, LLD_BUFFER_SIZE,
    if_neg (by omega), if_pos (by omega)]
  rfl

/-- Enough data for a copy of whole pages keeps the driver inside it. -/
theorem lldMemcpyPages_isSome {offset word_cnt : ℕ} {d : List UInt8} (h : word_cnt ≤ d.length) :
    (lldMemcpyPages offset word_cnt d).isSome = true := by
  induction word_cnt using Nat.strong_induction_on generalizing offset d with
  | _ word_cnt ih =>
      rw [lldMemcpyPages]
      split
      next hpage =>
        rw [lldWriteBufferProgramOp, if_pos (hpage.trans h), Option.bind_some, Option.isSome_map]
        refine ih (word_cnt - LLD_BUFFER_SIZE) ?_ ?_
        · rw [LLD_BUFFER_SIZE] at hpage ⊢
          omega
        · rw [List.length_drop]
          omega
      split
      · rfl
      · rw [lldWriteBufferProgramOp, if_pos h]
        rfl

/-- Enough data for a copy keeps the driver inside it, wherever the pages lie. -/
theorem lldMemcpy_isSome {offset word_cnt : ℕ} {d : List UInt8} (h : word_cnt ≤ d.length) :
    (lldMemcpy offset word_cnt d).isSome = true := by
  rw [lldMemcpy]
  split
  · exact lldMemcpyPages_isSome h
  · dsimp only
    rw [lldWriteBufferProgramOp, if_pos ((min_le_left _ _).trans h), Option.bind_some]
    split
    · rfl
    · rw [Option.isSome_map]
      exact lldMemcpyPages_isSome (by rw [List.length_drop]; omega)

/-- The four bytes behind the image are one operation. -/
theorem lldMemcpy_slot {d : List UInt8} (hd : d.length = 4) :
    lldMemcpy (FLASH_COPY_END - 4) 4 d = some [.program (FLASH_COPY_END - 4) d] := by
  have hop : lldWriteBufferProgramOp (FLASH_COPY_END - 4) 4 d =
      some (.program (FLASH_COPY_END - 4) d) := by
    rw [lldWriteBufferProgramOp, if_pos (by omega), List.take_of_length_le (by omega)]
  have hmod : ¬ (FLASH_COPY_END - 4) % LLD_BUFFER_SIZE = 0 := by decide
  have hmin : min 4 (LLD_BUFFER_SIZE - (FLASH_COPY_END - 4) % LLD_BUFFER_SIZE) = 4 := by decide
  rw [lldMemcpy, if_neg hmod]
  simp only [hmin, hop, Option.bind_some]
  rfl

/-- The four bytes `WriteToProgCopy` takes for the checksum: those the processor's memory
holds at the address that the checksum makes. -/
def checksumBytes (memory : ℕ → UInt8) (flash : Contents) : List UInt8 :=
  (List.range 4).map fun i => memory ((imageCrc flash).toNat + i)

/-- Outside the copy region `WriteToProgCopy` does nothing. -/
theorem writeToProgCopy_refused {memory : ℕ → UInt8} {flash : Contents} {a size : UInt32}
    {p : List UInt8} {fin ident : Bool}
    (h : a.toNat < FLASH_COPY_START ∨ FLASH_COPY_END ≤ a.toNat ∨
      FLASH_COPY_END < (a + size).toNat) :
    writeToProgCopy memory flash a p size fin ident = some ⟨1, [], a⟩ := by
  simp only [writeToProgCopy, h, decide_true, if_true]

/-- Inside it a block is programmed at its address. -/
theorem writeToProgCopy_block {memory : ℕ → UInt8} {flash : Contents} {a : UInt32}
    {p : List UInt8} {ident : Bool} (hlo : FLASH_COPY_START ≤ a.toNat)
    (hhi : a.toNat + 64 ≤ FLASH_COPY_END) (ha : a.toNat % 64 = 0) (hp : p.length = 64) :
    writeToProgCopy memory flash a p (UInt32.ofNat FWHEX_PACKET_SIZE) false ident =
      some ⟨0, [.program a.toNat p],
        a + trimmedSize a (UInt32.ofNat FWHEX_PACKET_SIZE)⟩ := by
  have hend : FLASH_COPY_END = 0x640000 := rfl
  have hsum : (a + UInt32.ofNat FWHEX_PACKET_SIZE).toNat = a.toNat + 64 := by
    have h64 : (UInt32.ofNat FWHEX_PACKET_SIZE).toNat = 64 := rfl
    rw [UInt32.toNat_add, h64]
    omega
  have hin : ¬ (a.toNat < FLASH_COPY_START ∨ FLASH_COPY_END ≤ a.toNat ∨
      FLASH_COPY_END < (a + UInt32.ofNat FWHEX_PACKET_SIZE).toNat) := by
    rw [hsum]
    omega
  have hsize : ¬ UInt32.ofNat FWHEX_PACKET_SIZE = 0 := by decide
  simp only [writeToProgCopy, hin, hsize, decide_false, Bool.false_eq_true, if_false,
    lldMemcpy_page ha hp, Option.map_some, Option.bind_some]

/-- Inside it the end of the image programs the checksum's four bytes. -/
theorem writeToProgCopy_finish {memory : ℕ → UInt8} {flash : Contents} {a : UInt32}
    {ident : Bool} (hlo : FLASH_COPY_START ≤ a.toNat) (hhi : a.toNat < FLASH_COPY_END) :
    writeToProgCopy memory flash a [] 0 true ident =
      some ⟨0, [.program (FLASH_COPY_END - 4) (checksumBytes memory flash)], a⟩ := by
  have hin : ¬ (a.toNat < FLASH_COPY_START ∨ FLASH_COPY_END ≤ a.toNat ∨
      FLASH_COPY_END < (a + 0).toNat) := by
    rw [UInt32.add_zero]
    omega
  have hslot := lldMemcpy_slot (d := checksumBytes memory flash) (by simp [checksumBytes])
  simp only [writeToProgCopy, hin, decide_false, Bool.false_eq_true, if_false, if_true,
    Option.bind_some, run_nil, List.nil_append]
  rw [checksumBytes] at hslot
  rw [hslot]
  rfl

/-- `WriteToProgCopy` stays inside a block, or copies none. -/
theorem writeToProgCopy_isSome {memory : ℕ → UInt8} {flash : Contents} {a size : UInt32}
    {p : List UInt8} {fin ident : Bool} (h : size = 0 ∨ p.length = 64) :
    (writeToProgCopy memory flash a p size fin ident).isSome = true := by
  rw [writeToProgCopy]
  split
  · rfl
  have hcopy : ∃ w, (if size = 0 then some ([], a)
      else (lldMemcpy a.toNat 64 p).map fun ops => (ops, a + trimmedSize a size)) = some w := by
    split
    · exact ⟨_, rfl⟩
    next hsize =>
      rw [← Option.isSome_iff_exists, Option.isSome_map]
      exact lldMemcpy_isSome (h.resolve_left hsize).ge
  obtain ⟨w, hw⟩ := hcopy
  rw [hw, Option.bind_some]
  split
  · rw [Option.isSome_map]
    exact lldMemcpy_isSome (by simp)
  · rfl

/-! ### The outcomes of a call -/

/-- The texts of the answers that have no part in a session. -/
def plainTexts : List (List UInt8) :=
  [ascii "NA", blCfg, ascii "DISABLESIGNATURE;OK", ascii "OK"]

/-- The outcomes of a call: the request is rejected or a setting, starts a session, comes
too late, finds no session, ends one, or is a block of one. -/
inductive UpdateStep (tps : UInt32) (s : RemoteUpdate) (c : UpdateCall) :
    RemoteUpdate → UpdateReply → Prop
  | apart {s' : RemoteUpdate} {o : UpdateReply} (hx : c.isHexload = false)
      (hf : c.isFinish = false) (hb : c.isBlock = false)
      (hs : ∃ b, s' = { s with bVerifyIdent := b })
      (ho : o = { reply := [] } ∨ ∃ header, ∃ t ∈ plainTexts,
        requestHeader c.str_rx = some header ∧ o = { reply := makeAnswerHEXCRC header t }) :
      UpdateStep tps s c s' o
  | hexload {header : List UInt8} (hh : requestHeader c.str_rx = some header)
      (hx : c.isHexload = true) :
      UpdateStep tps s c (hexload tps s c header).1 (hexload tps s c header).2
  | timeout {header : List UInt8} (hh : requestHeader c.str_rx = some header)
      (hx : c.isHexload = false) (ht : s.dwLastTimeout < c.nticks - s.dwLastActionTime) :
      UpdateStep tps s c { s with bFwUpdateStarted := false }
        { reply := makeAnswerHEXCRC header (ascii "EFINISH") }
  | idle {header : List UInt8} (hh : requestHeader c.str_rx = some header)
      (hx : c.isHexload = false) (hs : s.bFwUpdateStarted = false) :
      UpdateStep tps s c s { reply := makeAnswerHEXCRC header (ascii "NA") }
  | finish {header : List UInt8} {s' : RemoteUpdate} {o : UpdateReply}
      (hh : requestHeader c.str_rx = some header) (hx : c.isHexload = false)
      (hf : c.isFinish = true) (ht : c.nticks - s.dwLastActionTime ≤ s.dwLastTimeout)
      (hs : s.bFwUpdateStarted = true) (hstep : finishLoad s c header = some (s', o)) :
      UpdateStep tps s c s' o
  | block {header str : List UInt8} {s' : RemoteUpdate} {o : UpdateReply}
      (hh : requestHeader c.str_rx = some header) (hx : c.isHexload = false)
      (hf : c.isFinish = false) (hb : c.isBlock = true) (hstr : c.text = some str)
      (ht : c.nticks - s.dwLastActionTime ≤ s.dwLastTimeout)
      (hs : s.bFwUpdateStarted = true)
      (hstep : loadBlock tps s c header str = some (s', o)) :
      UpdateStep tps s c s' o

/-- A rejected request has no command. -/
theorem UpdateCall.hasCommand_of_text_none {c : UpdateCall} (h : c.text = none) :
    c.isHexload = false ∧ c.isFinish = false ∧ c.isBlock = false := by
  simp [UpdateCall.isHexload, UpdateCall.isFinish, UpdateCall.isBlock,
    UpdateCall.hasCommand, h]

/-- A setting is neither `HEXLOAD` nor `FINISH` nor a block. -/
theorem UpdateCall.not_session_of_setting {c : UpdateCall} (h : c.isSetting = true) :
    c.isHexload = false ∧ c.isFinish = false ∧ c.isBlock = false := by
  have hb : c.isBlock = false := by simp [UpdateCall.isBlock, h]
  cases htext : c.text with
  | none => exact UpdateCall.hasCommand_of_text_none htext
  | some str =>
      simp only [UpdateCall.isSetting, UpdateCall.hasCommand_of_text htext,
        Bool.or_eq_true] at h
      simp only [hb, UpdateCall.isHexload, UpdateCall.isFinish,
        UpdateCall.hasCommand_of_text htext, and_true]
      rcases h with (h | h) | h
      all_goals
        have hother := command_exclusive h (by simp [commands])
        exact ⟨hother "HEXLOAD" (by simp [commands]) (by simp),
          hother "FINISH" (by simp [commands]) (by simp)⟩

/-- What the commands of a valid request do. -/
theorem handleCommand_step {tps : UInt32} {s s' : RemoteUpdate} {c : UpdateCall}
    {o : UpdateReply} {header str : List UInt8} (hh : requestHeader c.str_rx = some header)
    (hstr : c.text = some str) (h : handleCommand tps s c header str = some (s', o)) :
    UpdateStep tps s c s' o := by
  have hcmd := UpdateCall.hasCommand_of_text hstr
  -- a setting answers with its own text and has no part in a session
  have happart : ∀ lit, (lit = "FWCONFIG" ∨ lit = "DISABLESIGNATURE" ∨ lit = "SOFTRESET") →
      startsWith lit (str.drop 2) = true → ∀ t ∈ plainTexts,
      (∃ b, s' = { s with bVerifyIdent := b }) →
      o = { reply := makeAnswerHEXCRC header t } → UpdateStep tps s c s' o := by
    intro lit hlit hstart t ht hs ho
    have hset : c.isSetting = true := by
      simp only [UpdateCall.isSetting, hcmd, Bool.or_eq_true]
      rcases hlit with rfl | rfl | rfl <;> simp [hstart]
    obtain ⟨hx, hf, hb⟩ := UpdateCall.not_session_of_setting hset
    exact .apart hx hf hb hs (Or.inr ⟨header, t, ht, hh, ho⟩)
  simp only [handleCommand] at h
  split at h
  · next hc =>
      obtain ⟨rfl, rfl⟩ := Prod.mk.inj (Option.some.inj h)
      exact happart _ (Or.inl rfl) hc blCfg (by simp [plainTexts]) ⟨_, rfl⟩ rfl
  split at h
  · next hc =>
      obtain ⟨rfl, rfl⟩ := Prod.mk.inj (Option.some.inj h)
      exact happart _ (Or.inr (Or.inl rfl)) hc _ (by simp [plainTexts]) ⟨_, rfl⟩ rfl
  split at h
  · next hc =>
      obtain ⟨rfl, rfl⟩ := Prod.mk.inj (Option.some.inj h)
      exact happart _ (Or.inr (Or.inr rfl)) hc _ (by simp [plainTexts]) ⟨_, rfl⟩ rfl
  next hc1 hc2 hc3 =>
  split at h
  · next hc =>
      obtain ⟨rfl, rfl⟩ := Prod.mk.inj (Option.some.inj h)
      exact .hexload hh (by rw [UpdateCall.isHexload, hcmd, hc])
  next hc4 =>
  have hx : c.isHexload = false := by
    rw [UpdateCall.isHexload, hcmd]
    simpa using hc4
  split at h
  · next ht =>
      obtain ⟨rfl, rfl⟩ := Prod.mk.inj (Option.some.inj h)
      exact .timeout hh hx ht
  next ht =>
  split at h
  · next hc =>
      obtain ⟨hs, hfin⟩ := Bool.and_eq_true_iff.mp hc
      exact .finish hh hx (by rw [UpdateCall.isFinish, hcmd, hfin]) (UInt32.not_lt.mp ht) hs h
  next hc5 =>
  split at h
  · next hs =>
      have hf : c.isFinish = false := by
        rw [UpdateCall.isFinish, hcmd]
        simpa [hs] using hc5
      have hb : c.isBlock = true := by
        simp [UpdateCall.isBlock, UpdateCall.isSetting, hstr, hx, hf, hcmd, hc1, hc2, hc3]
      exact .block hh hx hf hb hstr (UInt32.not_lt.mp ht) hs h
  · next hs =>
      obtain ⟨rfl, rfl⟩ := Prod.mk.inj (Option.some.inj h)
      exact .idle hh hx (by simpa using hs)

/-- **Inversion**: every call is one of the outcomes. -/
theorem update_step {tps : UInt32} {s s' : RemoteUpdate} {c : UpdateCall} {o : UpdateReply}
    (h : (updateMachine tps).step s c = some (s', o)) : UpdateStep tps s c s' o := by
  obtain ⟨header, hh, h⟩ := Option.bind_eq_some_iff.mp h
  obtain ⟨check, hcheck, h⟩ := Option.bind_eq_some_iff.mp h
  cases check with
  | tooShort =>
      obtain ⟨rfl, rfl⟩ := Prod.mk.inj (Option.some.inj h)
      have htext : c.text = none := by rw [UpdateCall.text, hcheck]
      obtain ⟨hx, hf, hb⟩ := UpdateCall.hasCommand_of_text_none htext
      exact .apart hx hf hb ⟨_, rfl⟩ (Or.inr ⟨header, _, by simp [plainTexts], hh, rfl⟩)
  | crcMismatch =>
      obtain ⟨rfl, rfl⟩ := Prod.mk.inj (Option.some.inj h)
      have htext : c.text = none := by rw [UpdateCall.text, hcheck]
      obtain ⟨hx, hf, hb⟩ := UpdateCall.hasCommand_of_text_none htext
      cases hs : s.bFwUpdateStarted with
      | true => exact .apart hx hf hb ⟨_, rfl⟩ (Or.inl (by simp))
      | false =>
          exact .apart hx hf hb ⟨_, rfl⟩
            (Or.inr ⟨header, ascii "NA", by simp [plainTexts], hh, by simp⟩)
  | valid str =>
      exact handleCommand_step hh (UpdateCall.text_eq_some_iff.mpr hcheck) h

/-! ### Blocks and the end of a session -/

/-- A session stands behind `n` accepted blocks. -/
structure Cursor (s : RemoteUpdate) (n : ℕ) : Prop where
  copyAddr : s.dwCurCopyAddr.toNat = FLASH_COPY_START + 64 * n
  fwAddr : s.dwCurFwAddr.toNat = FLASH_PROG_START + 64 * n
  le : n ≤ 32768

/-- The data of a block has the size of a packet. -/
theorem hexBytes_length {n : ℕ} {str bs : List UInt8} (h : hexBytes n str = some bs) :
    bs.length = n := by
  induction n generalizing str bs with
  | zero =>
      obtain rfl : [] = bs := by simpa [hexBytes] using h
      rfl
  | succ n ih =>
      obtain ⟨b, -, h⟩ := Option.bind_eq_some_iff.mp h
      obtain ⟨bs', hbs', rfl⟩ := Option.map_eq_some_iff.mp h
      rw [List.length_cons, ih hbs']

/-- So has what a request has as its block. -/
theorem blockData_length {a : UInt32} {str p : List UInt8} (h : blockData a str = some p) :
    p.length = 64 := by
  obtain ⟨dwAddrRcv, -, hif⟩ := Option.bind_eq_some_iff.mp h
  split at hif
  · exact hexBytes_length hif
  · simp at hif

/-- **A block of a session**: not the expected one, written behind the earlier ones, or
refused at the end of the region. -/
theorem loadBlock_cases {tps : UInt32} {s s' : RemoteUpdate} {c : UpdateCall}
    {o : UpdateReply} {header str : List UInt8} {n : ℕ} (hc : Cursor s n)
    (h : loadBlock tps s c header str = some (s', o)) :
    (blockData s.dwCurFwAddr str = none ∧
      s' = { s with dwLastActionTime := c.nticksBlock, dwLastTimeout := 3 * tps } ∧
      o = { reply := makeAddrAnswerHEXCRC header s.dwCurFwAddr }) ∨
    (∃ p, blockData s.dwCurFwAddr str = some p ∧ p.length = 64 ∧ n < 32768 ∧
      Cursor s' (n + 1) ∧
      s' = { s with
        dwLastActionTime := c.nticksBlock, dwLastTimeout := 3 * tps,
        dwCurFwAddr := s'.dwCurFwAddr, dwCurCopyAddr := s'.dwCurCopyAddr,
        flash := (Op.program (FLASH_COPY_START + 64 * n) p).apply CFI_SECTOR_SIZE s.flash } ∧
      o = { reply := makeAddrAnswerHEXCRC header s'.dwCurFwAddr,
            ops := [.program (FLASH_COPY_START + 64 * n) p], accepted := some p }) ∨
    (n = 32768 ∧
      s' = { s with dwLastActionTime := c.nticksBlock, dwLastTimeout := 3 * tps,
                    bFwUpdateStarted := false } ∧
      o = { reply := makeAnswerHEXCRC header (ascii "EFINISH"), writeFailed := true }) := by
  have hstart : FLASH_COPY_START = 0x440000 := rfl
  have hprog : FLASH_PROG_START = 0x440000 := rfl
  have hend : FLASH_COPY_END = 0x640000 := rfl
  have hcopy := hc.copyAddr
  have hfw := hc.fwAddr
  have hle := hc.le
  simp only [loadBlock] at h
  cases hdata : blockData s.dwCurFwAddr str with
  | none =>
      simp only [hdata] at h
      obtain ⟨rfl, rfl⟩ := Prod.mk.inj (Option.some.inj h)
      exact Or.inl ⟨rfl, rfl, rfl⟩
  | some p =>
      have hp := blockData_length hdata
      simp only [hdata] at h
      rcases Nat.lt_or_ge n 32768 with hn | hn
      · right; left
        rw [writeToProgCopy_block (by omega) (by omega) (by omega) hp] at h
        obtain ⟨rfl, rfl⟩ := Prod.mk.inj (Option.some.inj h)
        have h64 : (UInt32.ofNat FWHEX_PACKET_SIZE).toNat = 64 := rfl
        have hcopy' : (s.dwCurCopyAddr + UInt32.ofNat FWHEX_PACKET_SIZE).toNat =
            FLASH_COPY_START + 64 * (n + 1) := by
          rw [UInt32.toNat_add, h64, hcopy]
          omega
        have hfw' : (s.dwCurFwAddr + UInt32.ofNat FWHEX_PACKET_SIZE).toNat =
            FLASH_PROG_START + 64 * (n + 1) := by
          rw [UInt32.toNat_add, h64, hfw]
          omega
        refine ⟨p, rfl, hp, hn, ⟨hcopy', hfw', by omega⟩, ?_, ?_⟩
        · simp [hcopy]
        · simp [hcopy]
      · right; right
        have hn : n = 32768 := by omega
        rw [writeToProgCopy_refused (Or.inr (Or.inl (by omega)))] at h
        obtain ⟨rfl, rfl⟩ := Prod.mk.inj (Option.some.inj h)
        exact ⟨hn, rfl, rfl⟩

/-- **The end of a session**: the checksum's bytes are programmed, unless the blocks fill
the region. -/
theorem finishLoad_cases {s s' : RemoteUpdate} {c : UpdateCall} {o : UpdateReply}
    {header : List UInt8} {n : ℕ} (hc : Cursor s n)
    (h : finishLoad s c header = some (s', o)) :
    (n < 32768 ∧
      s' = { s with
        bFwUpdateStarted := false, bVerifyIdent := true, rebootNios := true,
        flash := (Op.program (FLASH_COPY_END - 4) (checksumBytes c.memory s.flash)).apply
          CFI_SECTOR_SIZE s.flash } ∧
      o = { reply := makeAnswerHEXCRC header (ascii "COMPLETE"),
            ops := [.program (FLASH_COPY_END - 4) (checksumBytes c.memory s.flash)] }) ∨
    (n = 32768 ∧ s' = { s with bFwUpdateStarted := false, bVerifyIdent := true } ∧
      o = { reply := makeAnswerHEXCRC header (ascii "EFINISH") }) := by
  have hstart : FLASH_COPY_START = 0x440000 := rfl
  have hend : FLASH_COPY_END = 0x640000 := rfl
  have hcopy := hc.copyAddr
  have hle := hc.le
  rw [finishLoad] at h
  rcases Nat.lt_or_ge n 32768 with hn | hn
  · left
    rw [writeToProgCopy_finish (by omega) (by omega)] at h
    obtain ⟨rfl, rfl⟩ := Prod.mk.inj (Option.some.inj h)
    exact ⟨hn, rfl, rfl⟩
  · right
    have hn : n = 32768 := by omega
    rw [writeToProgCopy_refused (Or.inr (Or.inl (by omega)))] at h
    obtain ⟨rfl, rfl⟩ := Prod.mk.inj (Option.some.inj h)
    exact ⟨hn, rfl, rfl⟩

/-- The end of a session is defined at every address. -/
theorem finishLoad_isSome (s : RemoteUpdate) (c : UpdateCall) (header : List UInt8) :
    (finishLoad s c header).isSome = true := by
  rw [finishLoad, Option.isSome_map]
  exact writeToProgCopy_isSome (Or.inl rfl)

/-- So is a block. -/
theorem loadBlock_isSome (tps : UInt32) (s : RemoteUpdate) (c : UpdateCall)
    (header str : List UInt8) : (loadBlock tps s c header str).isSome = true := by
  rw [loadBlock]
  dsimp only
  split
  · rfl
  next p hdata =>
    rw [Option.isSome_map]
    exact writeToProgCopy_isSome (Or.inr (blockData_length hdata))

end Muxponder
