import Muxponder.KursUpdateStep

/-!
# The Sender's Requests

The requests a sender forms for a reprogramming session: a text behind the address and
command bytes, sealed with its checksum (`sealRequest`). The handler recovers the text
(`checkRequest_sealRequest`), and a session whose sender reads the replies loses nothing:
`load_run` is the run that starts a session and loads any list of blocks the region has
room for. It is what shows that the states a property speaks of are reached.

## Main results

* `hexload_step`, `sendBlock_step`, `sendFinish_step`: a session's requests are taken.
* `load_run`: every list of up to 32768 blocks can be loaded.
-/

namespace Muxponder

open CString Digits NorFlash

/-- A request: its text, four digits of checksum, the end-of-packet character and the
terminator the listener puts behind it. -/
def sealRequest (body : List UInt8) : List UInt8 :=
  body ++ wordToHexStr (getCrc16Ascii body body.length) ++ [0x0D, 0]

/-- A call with a request, at tick zero. -/
def callOf (body : List UInt8) : UpdateCall where
  str_rx := sealRequest body
  nticks := 0
  nticksBlock := 0
  memory := fun _ => 0

/-- The address and command bytes of a `0x0F` request. -/
def updateHeader : List UInt8 := [0x81, 0x0F]

/-- The digits of a block's data. -/
def hexText (p : List UInt8) : List UInt8 := p.flatMap fun b => writeHex 2 b.toNat

/-- The `HEXLOAD` request. -/
def hexloadCall : UpdateCall := callOf (updateHeader ++ ascii "HEXLOAD")

/-- The `FINISH` request. -/
def finishCall : UpdateCall := callOf (updateHeader ++ ascii "FINISH")

/-- The request for a block. -/
def blockCall (a : UInt32) (p : List UInt8) : UpdateCall :=
  callOf (updateHeader ++ uintToHexStr a ++ hexText p)

/-- What is written in hexadecimal digits has neither a terminator nor an end of packet. -/
theorem writeHex_plain {n v : ℕ} : 0x0D ∉ writeHex n v ∧ 0 ∉ writeHex n v := by
  constructor <;>
  · intro h
    obtain ⟨d, hd, heq⟩ := mem_writeHex h
    have hrange := (hexDigit_range hd).1
    rw [← heq] at hrange
    exact absurd hrange (by decide)

/-- An address has eight digits. -/
theorem uintToHexStr_length (a : UInt32) : (uintToHexStr a).length = 8 := writeHex_length _ _

/-- A text with its checksum behind it is recovered, with the checksum cut off by a
terminator, whatever follows the end of the packet. -/
theorem checkRequest_append {body rest : List UInt8} (hcr : 0x0D ∉ body) (h0 : 0 ∉ body)
    (hlo : 2 ≤ body.length) (hhi : body.length < 2 ^ 16) :
    ∃ rest', checkRequest (body ++ wordToHexStr (getCrc16Ascii body body.length) ++
      0x0D :: rest) = some (.valid (body ++ 0 :: rest')) := by
  obtain ⟨crc, hcrc⟩ : ∃ crc, getCrc16Ascii body body.length = crc := ⟨_, rfl⟩
  have hdigits : (wordToHexStr crc).length = 4 := writeHex_length _ _
  rw [hcrc]
  have hlen : strchr 0x0D (body ++ wordToHexStr crc ++ 0x0D :: rest) =
      some (some (body.length + 4)) := by
    refine strchr_eq_some_iff.mpr ⟨body ++ wordToHexStr crc, rest, rfl, ?_, ?_, ?_⟩
    · rw [List.length_append, hdigits]
    · rw [List.mem_append, not_or]
      exact ⟨hcr, writeHex_plain.1⟩
    · rw [List.mem_append, not_or]
      exact ⟨h0, writeHex_plain.2⟩
  obtain ⟨d, ds, hds⟩ : ∃ d ds, wordToHexStr crc = d :: ds := by
    cases hw : wordToHexStr crc with
    | nil => rw [hw] at hdigits; simp at hdigits
    | cons d ds => exact ⟨d, ds, rfl⟩
  refine ⟨ds ++ 0x0D :: rest, checkRequest_valid_iff.mpr
    ⟨body.length + 4, hlen, by omega, ?_, ?_⟩⟩
  · rw [hds, Nat.add_sub_cancel, List.append_assoc, List.set_append_right _ _ le_rfl,
      Nat.sub_self]
    rfl
  · have hsame : getCrc16Ascii (body ++ 0 :: (ds ++ 0x0D :: rest)) body.length = crc := by
      rw [← hcrc, getCrc16Ascii, getCrc16Ascii, Nat.mod_eq_of_lt hhi, List.take_left,
        List.take_length]
    rw [Nat.add_sub_cancel, hsame, List.append_assoc, List.drop_left]
    exact str4HexToU16_wordToHexStr crc rest

/-- **The handler recovers a sealed text**, with the checksum cut off by a terminator. -/
theorem checkRequest_sealRequest {body : List UInt8} (hcr : 0x0D ∉ body) (h0 : 0 ∉ body)
    (hlo : 2 ≤ body.length) (hhi : body.length < 2 ^ 16) :
    ∃ rest, checkRequest (sealRequest body) = some (.valid (body ++ 0 :: rest)) :=
  checkRequest_append hcr h0 hlo hhi

/-- A text without terminator or end of packet. -/
structure PlainText (t : List UInt8) : Prop where
  noEop : 0x0D ∉ t
  noNul : 0 ∉ t

/-- Digits are plain text. -/
theorem plainText_writeHex (n v : ℕ) : PlainText (writeHex n v) :=
  ⟨writeHex_plain.1, writeHex_plain.2⟩

/-- Plain texts join. -/
theorem PlainText.append {t u : List UInt8} (ht : PlainText t) (hu : PlainText u) :
    PlainText (t ++ u) := by
  constructor
  · simp [ht.noEop, hu.noEop]
  · simp [ht.noNul, hu.noNul]

/-- The digits of data are plain text. -/
theorem plainText_hexText (p : List UInt8) : PlainText (hexText p) := by
  induction p with
  | nil => exact ⟨by simp [hexText], by simp [hexText]⟩
  | cons b p ih => exact (plainText_writeHex 2 b.toNat).append ih

/-- Two digits for each byte of data. -/
theorem hexText_length (p : List UInt8) : (hexText p).length = 2 * p.length := by
  induction p with
  | nil => rfl
  | cons b p ih =>
      have hcons : hexText (b :: p) = writeHex 2 b.toNat ++ hexText p := rfl
      rw [hcons, List.length_append, writeHex_length, ih, List.length_cons]
      omega

/-- Data written in digits reads back. -/
theorem hexBytes_hexText (p rest : List UInt8) :
    hexBytes p.length (hexText p ++ rest) = some p := by
  induction p with
  | nil => rfl
  | cons b p ih =>
      have hcons : hexText (b :: p) ++ rest = writeHex 2 b.toNat ++ (hexText p ++ rest) := by
        simp [hexText]
      rw [hcons, List.length_cons, hexBytes, str2HexToU8_writeHex, Option.bind_some,
        List.drop_append_of_le_length (by simp), List.drop_of_length_le (by simp),
        List.nil_append, ih]
      rfl

/-- The text of a call with a plain text behind its header. -/
theorem callOf_text {t : List UInt8} (ht : PlainText t) (hlen : t.length < 1000) :
    ∃ rest, (callOf (updateHeader ++ t)).text = some (updateHeader ++ t ++ 0 :: rest) := by
  have hplain : PlainText (updateHeader ++ t) := PlainText.append ⟨by decide, by decide⟩ ht
  have hsum : (updateHeader ++ t).length = 2 + t.length := by simp [updateHeader]; omega
  obtain ⟨rest, hrest⟩ := checkRequest_sealRequest hplain.noEop hplain.noNul (by omega)
    (by omega)
  exact ⟨rest, UpdateCall.text_eq_some_iff.mpr hrest⟩

/-- Every call of the sender carries its header. -/
theorem callOf_header (t : List UInt8) :
    requestHeader (callOf (updateHeader ++ t)).str_rx = some updateHeader := rfl

/-- A call whose text is known is handled as a command. -/
theorem step_of_text {tps : UInt32} {s : RemoteUpdate} {c : UpdateCall}
    {header str : List UInt8} (hh : requestHeader c.str_rx = some header)
    (hstr : c.text = some str) :
    (updateMachine tps).step s c = handleCommand tps s c header str := by
  have hcheck := UpdateCall.text_eq_some_iff.mp hstr
  simp only [updateMachine, handleKursSafeReprogramming, hh, hcheck, Option.bind_some]

/-- A text keeps what it starts with when it goes on. -/
theorem startsWith_append {lit : String} {t rest : List UInt8}
    (h : (ascii lit).isPrefixOf t = true) : startsWith lit (t ++ rest) = true :=
  List.isPrefixOf_iff_prefix.mpr
    ((List.isPrefixOf_iff_prefix.mp h).trans (List.prefix_append _ _))

/-- Every command has a letter behind `F` among its first eight. -/
theorem commands_letter : ∀ lit ∈ commands, ∃ ch ∈ (ascii lit).take 8, 0x46 < ch.toNat := by
  decide

/-- A text that starts with an address has no command. -/
theorem startsWith_digits {lit : String} {a : UInt32} {rest : List UInt8}
    (h : ∃ ch ∈ (ascii lit).take 8, 0x46 < ch.toNat) :
    startsWith lit (uintToHexStr a ++ rest) = false := by
  rw [← Bool.not_eq_true]
  intro hstart
  obtain ⟨ch, hch, hlt⟩ := h
  obtain ⟨u, hu⟩ := List.isPrefixOf_iff_prefix.mp hstart
  have hmem : ch ∈ (ascii lit ++ u).take 8 := by
    rw [List.take_append]
    exact List.mem_append_left _ hch
  rw [hu, List.take_left' (uintToHexStr_length a)] at hmem
  obtain ⟨d, hd, rfl⟩ := mem_writeHex hmem
  have := (hexDigit_range hd).2
  omega

/-! ### The requests of a session -/

/-- A state in which a session waits at tick zero for block `n`. -/
structure Waiting (s : RemoteUpdate) (n : ℕ) : Prop where
  started : s.bFwUpdateStarted = true
  cursor : Cursor s n
  lastAction : s.dwLastActionTime = 0

/-- At tick zero no time has passed. -/
theorem Waiting.inTime {s : RemoteUpdate} {n : ℕ} (hs : Waiting s n) :
    ¬ s.dwLastTimeout < 0 - s.dwLastActionTime := by
  rw [hs.lastAction, UInt32.sub_self]
  exact UInt32.not_lt.mpr UInt32.zero_le

/-- **`HEXLOAD` starts a session** from any state. -/
theorem hexload_step (tps : UInt32) (s : RemoteUpdate) :
    (updateMachine tps).step s hexloadCall =
        some (hexload tps s hexloadCall updateHeader) ∧
      hexloadCall.isHexload = true := by
  obtain ⟨rest, htext⟩ := callOf_text (t := ascii "HEXLOAD") ⟨by decide, by decide⟩ (by decide)
  have hcmd : startsWith "HEXLOAD" ((updateHeader ++ ascii "HEXLOAD" ++ 0 :: rest).drop 2) =
      true := startsWith_append (by decide)
  constructor
  · rw [hexloadCall, step_of_text (callOf_header _) htext, handleCommand_hexload hcmd]
  · rw [UpdateCall.isHexload, hexloadCall, UpdateCall.hasCommand_of_text htext, hcmd]

/-- **A waiting session takes the next block.** -/
theorem sendBlock_step (tps : UInt32) {s : RemoteUpdate} {n : ℕ} {p : List UInt8}
    (hs : Waiting s n) (hn : n < 32768) (hp : p.length = 64) :
    ∃ s' o, (updateMachine tps).step s (blockCall s.dwCurFwAddr p) = some (s', o) ∧
      (blockCall s.dwCurFwAddr p).isHexload = false ∧ o.accepted = some p ∧
      Waiting s' (n + 1) := by
  obtain ⟨a, ha⟩ : ∃ a, s.dwCurFwAddr = a := ⟨_, rfl⟩
  have hplain : PlainText (uintToHexStr a ++ hexText p) :=
    (plainText_writeHex 8 a.toNat).append (plainText_hexText p)
  have hlen : (uintToHexStr a ++ hexText p).length < 1000 := by
    rw [List.length_append, hexText_length, hp, uintToHexStr_length]
    omega
  obtain ⟨rest, htext⟩ := callOf_text hplain hlen
  rw [← List.append_assoc] at htext
  have h2 : (updateHeader ++ uintToHexStr a ++ hexText p ++ 0 :: rest).drop 2 =
      uintToHexStr a ++ (hexText p ++ 0 :: rest) := by simp [updateHeader]
  have hcmd : ∀ lit ∈ commands,
      startsWith lit ((updateHeader ++ uintToHexStr a ++ hexText p ++ 0 :: rest).drop 2) =
        false := by
    intro lit hlit
    rw [h2]
    exact startsWith_digits (commands_letter lit hlit)
  have hdata : blockData a (updateHeader ++ uintToHexStr a ++ hexText p ++ 0 :: rest) =
      some p := by
    have h10 : (updateHeader ++ uintToHexStr a ++ hexText p ++ 0 :: rest).drop (2 + 8) =
        hexText p ++ 0 :: rest := by
      rw [← List.drop_drop, h2]
      exact List.drop_left' (uintToHexStr_length a)
    have hbytes := hexBytes_hexText p (0 :: rest)
    rw [hp] at hbytes
    rw [blockData, h2, str8HexToU32_uintToHexStr, Option.bind_some, if_pos rfl, h10]
    exact hbytes
  have hhead : requestHeader (blockCall a p).str_rx = some updateHeader := rfl
  have hcall : (blockCall a p).text =
      some (updateHeader ++ uintToHexStr a ++ hexText p ++ 0 :: rest) := htext
  have htime : ¬ s.dwLastTimeout < (blockCall a p).nticks - s.dwLastActionTime := hs.inTime
  have hstart : FLASH_COPY_START = 0x440000 := rfl
  have hend : FLASH_COPY_END = 0x640000 := rfl
  have hcopy := hs.cursor.copyAddr
  obtain ⟨r, hr⟩ : ∃ r, loadBlock tps s (blockCall a p) updateHeader
      (updateHeader ++ uintToHexStr a ++ hexText p ++ 0 :: rest) = some r := by
    simp only [loadBlock, ha, hdata]
    rw [writeToProgCopy_block (by omega) (by omega) (by omega) hp]
    exact ⟨_, rfl⟩
  obtain ⟨s', o⟩ := r
  have hstep : (updateMachine tps).step s (blockCall a p) = some (s', o) := by
    rw [step_of_text hhead hcall, handleCommand_block hcmd htime hs.started]
    exact hr
  refine ⟨s', o, ha ▸ hstep, ?_, ?_⟩
  · rw [ha, UpdateCall.isHexload, blockCall, UpdateCall.hasCommand_of_text htext,
      hcmd "HEXLOAD" (by simp [commands])]
  · rcases loadBlock_cases hs.cursor hr with ⟨hnone, -⟩ | ⟨q, hq, -, -, hcur, hs', rfl⟩ |
      ⟨hfull, -⟩
    · rw [ha, hdata] at hnone
      exact absurd hnone (by simp)
    · rw [ha, hdata] at hq
      refine ⟨hq ▸ rfl, ⟨?_, hcur, ?_⟩⟩
      · rw [hs']
        exact hs.started
      · rw [hs']
        rfl
    · omega

/-- **A waiting session takes `FINISH`.** -/
theorem sendFinish_step (tps : UInt32) {s : RemoteUpdate} {n : ℕ} (hs : Waiting s n)
    (memory : ℕ → UInt8) :
    ∃ s' o, (updateMachine tps).step s { finishCall with memory := memory } = some (s', o) ∧
      finishLoad s { finishCall with memory := memory } updateHeader = some (s', o) ∧
      { finishCall with memory := memory }.isFinish = true := by
  obtain ⟨rest, htext⟩ := callOf_text (t := ascii "FINISH") ⟨by decide, by decide⟩ (by decide)
  have htext : { finishCall with memory := memory }.text =
      some (updateHeader ++ ascii "FINISH" ++ 0 :: rest) := htext
  have hhead : requestHeader { finishCall with memory := memory }.str_rx =
      some updateHeader := rfl
  have hcmd : startsWith "FINISH" ((updateHeader ++ ascii "FINISH" ++ 0 :: rest).drop 2) =
      true := startsWith_append (by decide)
  have htime : ¬ s.dwLastTimeout < finishCall.nticks - s.dwLastActionTime := hs.inTime
  have hstep : (updateMachine tps).step s { finishCall with memory := memory } =
      finishLoad s { finishCall with memory := memory } updateHeader := by
    rw [step_of_text hhead htext]
    exact handleCommand_finish hcmd htime hs.started
  obtain ⟨r, hr⟩ := Option.isSome_iff_exists.mp
    (finishLoad_isSome s { finishCall with memory := memory } updateHeader)
  refine ⟨r.1, r.2, hstep.trans hr, hr, ?_⟩
  rw [UpdateCall.isFinish, UpdateCall.hasCommand_of_text htext, hcmd]

/-- **Any list of blocks that the region has room for can be loaded**: a run from the
first call that starts a session and accepts the blocks. -/
theorem load_run (tps : UInt32) (flash : Contents) {ps : List (List UInt8)}
    (hps : ∀ p ∈ ps, p.length = 64) (hroom : ps.length ≤ 32768) :
    ∃ h o s, (updateMachine tps).Run (updateInit flash) ((hexloadCall, o) :: h) s ∧
      (∀ e ∈ h, e.1.isHexload = false) ∧ o.accepted = none ∧
      h.filterMap (fun e => e.2.accepted) = ps ∧ Waiting s ps.length := by
  induction ps using List.reverseRecOn with
  | nil =>
      obtain ⟨hstep, -⟩ := hexload_step tps (updateInit flash)
      exact ⟨[], _, _, Machine.Run.single hstep, by simp, rfl, rfl,
        ⟨rfl, ⟨rfl, rfl, Nat.zero_le _⟩, rfl⟩⟩
  | append_singleton ps p ih =>
      rw [List.length_append, List.length_singleton] at hroom
      obtain ⟨h, o, s, hr, hno, ho, hacc, hw⟩ := ih
        (fun q hq => hps q (List.mem_append_left _ hq)) (by omega)
      obtain ⟨s', o', hstep, hx, hacc', hw'⟩ := sendBlock_step tps (p := p) hw (by omega)
        (hps p (by simp))
      refine ⟨h ++ [(blockCall s.dwCurFwAddr p, o')], o, s', hr.snoc hstep, ?_, ho, ?_, ?_⟩
      · intro e he
        rcases List.mem_append.mp he with he | he
        · exact hno e he
        · obtain rfl : e = (blockCall s.dwCurFwAddr p, o') := by simpa using he
          exact hx
      · simp [hacc, hacc']
      · rw [List.length_append, List.length_singleton]
        exact hw'

end Muxponder
