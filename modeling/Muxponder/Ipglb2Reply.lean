import Mathlib.Data.List.GetD
import Muxponder.Ipglb2Protocol
import Muxponder.Prot2Framing

/-!
# The Replies to PROT2 Requests

The length, the checksum and the NACK bit of a reply are filled in at different levels. A
handler continues the header it is given and sets the length field (`Prot2Reply.Sealed`);
`handle_common` sets the NACK bit behind the handler and computes the checksum last, so a
checksum that a handler computed earlier does no harm.

Where no handler is assigned nobody sets the length field: it keeps its zero, and of the
NACK packet that was built `ipglb_prot2_service` sends no byte.

## Main results

* `reply_wellFormed_iff`: the reply to a valid request is well formed exactly where its
  function has a handler.
-/

namespace Muxponder

/-- The length byte of a packet. -/
def Prot2Buffer.length (request : Prot2Buffer) : ℕ := (request.byte 0).toNat

/-- What the listener publishes, with a checksum that holds. -/
structure ValidRequest (request : Prot2Buffer) : Prop where
  length : 4 ≤ request.length
  command : validCommand (request.byte 2) = true
  checksum : uartCrcOk request.byte = true

/-! ### Requests the listener publishes -/

/-- A reception inside a packet has seen a valid command. -/
def Reception.Commanded (r : Reception) : Prop := ∀ c, r.acc[2]? = some c → validCommand c = true

/-- One more byte keeps this, and a packet it completes is well formed. -/
theorem Reception.Commanded.feed {r : Reception} (hr : r.Commanded) (now : UInt32) (c : UInt8) :
    (r.feed now c).Commanded ∧ ∀ w, r.emit now c = some w → WellFormedPacket w := by
  obtain ⟨acc, last⟩ := r
  simp only [Commanded, Reception.feed, Reception.emit] at hr ⊢
  generalize Reception.late ⟨acc, last⟩ now = late
  rcases acc with _ | ⟨l, _ | ⟨f, _ | ⟨d, rest⟩⟩⟩
  · simp [nextPacket]
  · cases late <;> simp [nextPacket]
  · cases hv : validCommand c <;> cases late <;> simp [nextPacket, hv]
  · have hd : validCommand d = true := hr d rfl
    rw [nextPacket]
    split
    · next hl =>
        refine ⟨by simp, fun w hw => ?_⟩
        obtain rfl := Option.some.inj hw
        exact ⟨l, f, d, rest ++ [c], rfl, by omega, by simpa using hl, hd⟩
    · refine ⟨fun c' hc' => ?_, fun w hw => absurd hw (by simp)⟩
      obtain rfl : d = c' := by simpa using hc'
      exact hd

/-- Every packet received along a history is well formed. -/
theorem received_wellFormed (h : Prot2History) :
    h.received.1.Commanded ∧ ∀ w ∈ h.received.2, WellFormedPacket w := by
  induction h using List.reverseRecOn with
  | nil => exact ⟨fun c hc => absurd hc (by simp [Prot2History.received]), by
      simp [Prot2History.received]⟩
  | append_singleton h e ih =>
      obtain ⟨hcmd, hwf⟩ := ih
      obtain ⟨e, o⟩ := e
      have hclear : Reception.Commanded ⟨[], (Prot2History.received h).1.last⟩ :=
        fun c hc => absurd hc (by simp)
      cases e with
      | byte t c =>
          rw [Prot2History.received_byte]
          obtain ⟨hfeed, hemit⟩ := hcmd.feed (altNticks t) c
          refine ⟨hfeed, fun w hw => ?_⟩
          rcases List.mem_append.mp hw with hw | hw
          · exact hwf w hw
          · exact hemit w (by simpa using hw)
      | service =>
          by_cases ho : o = .cleared
          · subst ho
            rw [Prot2History.received_cleared h (by simp)]
            exact ⟨hclear, hwf⟩
          · rw [Prot2History.received_service h ho]
            exact ⟨hcmd, hwf⟩
      | cleanup =>
          cases o with
          | cleared =>
              rw [Prot2History.received_cleared h (by simp)]
              exact ⟨hclear, hwf⟩
          | quiet => simpa [Prot2History.received] using ⟨hcmd, hwf⟩
          | published b v => simpa [Prot2History.received] using ⟨hcmd, hwf⟩
          | handed b v => simpa [Prot2History.received] using ⟨hcmd, hwf⟩

/-- What a buffer holds is what a handler reads. -/
theorem Prot2Buffer.byte_of_holds {b : Prot2Buffer} {w : List UInt8} (h : b.Holds w) {i : ℕ}
    (hi : i < w.length) : b.byte i = w.getD i 0 := by
  obtain ⟨t, ht⟩ := h
  rw [Prot2Buffer.byte, ← ht, List.getD_append _ _ _ _ hi]

/-- **Every packet that is published** keeps the format of a request. -/
theorem published_request {mode : Prot2Mode} {mem : BuffId → Prot2Buffer} {h : Prot2History}
    {s : Prot2System} (hr : prot2Machine.Run (prot2Init mode mem) h s) :
    ∀ pub ∈ h.published, 4 ≤ pub.2.length ∧ validCommand (pub.2.byte 2) = true := by
  intro pub hpub
  obtain ⟨w, hw, hholds⟩ : ∃ w ∈ h.received.2, PublishedAs pub w := by
    obtain ⟨i, hi, rfl⟩ := List.mem_iff_getElem.mp hpub
    have hpairs := List.forall₂_iff_get.mp (prot2_standsAt_run hr).2.1
    have hi' : i < h.received.2.length := hpairs.1 ▸ hi
    exact ⟨h.received.2[i], List.getElem_mem hi', hpairs.2 i hi hi'⟩
  obtain ⟨l, f, c, rest, rfl, hl, hlen, hc⟩ := (received_wellFormed h).2 w hw
  have hbyte := fun i hi => Prot2Buffer.byte_of_holds (i := i) hholds hi
  rw [Prot2Buffer.length, hbyte 0 (by simp), hbyte 2 (by simp)]
  exact ⟨hl, hc⟩

/-- Whether a packet is a NACK. -/
def isNack (buff : ℕ → UInt8) : Bool := buff 2 &&& OPCODE_NACK != 0

/-! ### What a handler does to the reply -/

namespace Prot2Reply

variable {r r' r'' : Prot2Reply} {n m i : ℕ} {request : Prot2Buffer}

/-- `r'` continues `r` by at most `n` bytes; only the length field may have changed. -/
structure Extends (r : Prot2Reply) (n : ℕ) (r' : Prot2Reply) : Prop where
  ptr_le : r.ptr ≤ r'.ptr
  le_ptr : r'.ptr ≤ r.ptr + n
  same : ∀ i, 0 < i → i < r.ptr → r'.buff i = r.buff i

namespace Extends

theorem refl : r.Extends n r := ⟨le_rfl, Nat.le_add_right .., fun _ _ _ => rfl⟩

theorem trans (h : r.Extends n r') (h' : r'.Extends m r'') : r.Extends (n + m) r'' where
  ptr_le := h.ptr_le.trans h'.ptr_le
  le_ptr := by
    have h1 := h.le_ptr
    have h2 := h'.le_ptr
    omega
  same i hpos hi := by rw [h'.same i hpos (hi.trans_le h.ptr_le), h.same i hpos hi]

theorem mono (h : r.Extends n r') (hnm : n ≤ m) : r.Extends m r' :=
  ⟨h.ptr_le, h.le_ptr.trans (Nat.add_le_add_left hnm _), h.same⟩

theorem push (h : r.Extends n r') (c : UInt8) : r.Extends (n + 1) (r'.push c) :=
  h.trans ⟨Nat.le_succ _, le_rfl, fun _ _ hi => push_of_ne hi.ne⟩

theorem echo : r.Extends n (r.echo request i n) :=
  ⟨Nat.le_add_right .., le_rfl, fun _ _ hi => echo_of_lt_ptr hi⟩

theorem copy {src : ℕ → UInt8} : r.Extends m ((r.copy src n).advance m) where
  ptr_le := Nat.le_add_right ..
  le_ptr := le_rfl
  same i _ hi := by
    have hnot : ¬ (r.ptr ≤ i ∧ i < r.ptr + n) := by omega
    simp [Prot2Reply.copy, Prot2Reply.advance, hnot]

theorem setLength : r.Extends 0 r.setLength :=
  ⟨le_rfl, le_rfl, fun _ hpos _ => setLength_of_pos hpos⟩

theorem setCrc : r.Extends 0 r.setCrc :=
  ⟨le_rfl, le_rfl, fun _ _ hi => setCrc_of_ne hi.ne⟩

end Extends

/-- The reply is continued and its length field says how long it is, checksum included. -/
structure Sealed (r r' : Prot2Reply) : Prop where
  extends_ : r.Extends 33 r'
  length_eq : r'.buff 0 = UInt8.ofNat (r'.ptr + 1)

theorem Extends.sealed (h : r.Extends n r') (hn : n ≤ 33) : r.Sealed r'.setLength :=
  ⟨(h.trans .setLength).mono hn, setLength_zero⟩

theorem Sealed.setCrc (h : r.Sealed r') (hpos : 0 < r.ptr) : r.Sealed r'.setCrc where
  extends_ := (h.extends_.trans .setCrc).mono le_rfl
  length_eq := by
    have hle := h.extends_.ptr_le
    rw [setCrc_of_ne (by omega), h.length_eq, setCrc_ptr]

end Prot2Reply

variable {hw : Hardware} {request : Prot2Buffer} {reply : Prot2Reply} {handler : Handler}
  {function : UInt8}

open Prot2Reply

/-! ### The arguments in the reply -/

/-- How many bytes of arguments `handle_i2c_func` repeats. -/
def i2cEchoed (request : Prot2Buffer) : ℕ :=
  if request.byte 2 = CMD_READ ∨ request.byte 2 = CMD_WRITE then
    2 + addressBytes (request.byte 3)
  else if request.byte 2 = CMD_CONFIG then 2 + configBytes (request.byte 3)
  else 1

/-- How many bytes of arguments the reply repeats. -/
def echoed (request : Prot2Buffer) : ℕ :=
  if request.byte 1 = 0x00 then 8
  else if request.byte 1 = 0x01 then i2cEchoed request
  else if request.byte 1 = 0x03 then 6
  else 0

theorem i2cEchoed_address (h : request.byte 2 = CMD_READ ∨ request.byte 2 = CMD_WRITE) :
    i2cEchoed request = 2 + addressBytes (request.byte 3) := if_pos h

theorem i2cEchoed_config (h : request.byte 2 = CMD_CONFIG) :
    i2cEchoed request = 2 + configBytes (request.byte 3) := by
  rw [i2cEchoed, h]
  rfl

theorem i2cEchoed_other (hr : request.byte 2 ≠ CMD_READ) (hw : request.byte 2 ≠ CMD_WRITE)
    (hc : request.byte 2 ≠ CMD_CONFIG) : i2cEchoed request = 1 := by
  rw [i2cEchoed, if_neg (not_or.mpr ⟨hr, hw⟩), if_neg hc]

/-- A handler echoes at most eight bytes. -/
theorem echoed_le (request : Prot2Buffer) : echoed request ≤ 8 := by
  have haddress : addressBytes (request.byte 3) ≤ 2 := by
    rw [addressBytes]
    split_ifs <;> omega
  have hconfig : configBytes (request.byte 3) ≤ 1 := by
    rw [configBytes]
    split_ifs <;> omega
  rw [echoed, i2cEchoed]
  split_ifs <;> omega

theorem handleMmapFunc_sealed (hpos : 0 < reply.ptr) :
    (reply.echo request 3 8).Sealed (handleMmapFunc hw request reply).reply := by
  have hecho : (reply.echo request 3 8).Extends 0 (reply.echo request 3 8) := .refl
  have hpos' : 0 < (reply.echo request 3 8).ptr := Nat.add_pos_left hpos 8
  rw [handleMmapFunc]
  split_ifs
  · exact ((((hecho.push _).push _).push _).push _).sealed (by omega) |>.setCrc hpos'
  · exact (hecho.sealed (by omega)).setCrc hpos'
  · exact (hecho.sealed (by omega)).setCrc hpos'

theorem handleI2cFunc_sealed :
    (reply.echo request 3 (i2cEchoed request)).Sealed (handleI2cFunc hw request reply).reply := by
  have hecho : ∀ n, (reply.echo request 3 n).Extends 0 (reply.echo request 3 n) := fun _ => .refl
  by_cases hr : request.byte 2 = CMD_READ
  · rw [handleI2cFunc_read hr, i2cEchoed_address (Or.inl hr)]
    cases i2cTarget request with
    | some target => exact ((hecho _).push _).sealed (by omega)
    | none => exact ((hecho _).push _).sealed (by omega)
  · by_cases hw' : request.byte 2 = CMD_WRITE
    · rw [handleI2cFunc_write hw', i2cEchoed_address (Or.inr hw')]
      cases i2cTarget request with
      | some target => exact (hecho _).sealed (by omega)
      | none => exact (hecho _).sealed (by omega)
    · by_cases hc : request.byte 2 = CMD_CONFIG
      · rw [handleI2cFunc_config hc, i2cEchoed_config hc]
        cases configTarget request with
        | some device => exact (hecho _).sealed (by omega)
        | none => exact (hecho _).sealed (by omega)
      · rw [handleI2cFunc_other hr hw' hc, i2cEchoed_other hr hw' hc]
        exact (hecho _).sealed (by omega)

theorem handleMdioFunc_sealed :
    (reply.echo request 3 6).Sealed (handleMdioFunc hw request reply).reply := by
  have hecho : (reply.echo request 3 6).Extends 0 (reply.echo request 3 6) := .refl
  rw [handleMdioFunc]
  split_ifs
  · exact ((hecho.push _).push _).sealed (by omega)
  · exact hecho.sealed (by omega)
  · exact hecho.sealed (by omega)

theorem handleFwRevFunc_sealed (hpos : 0 < reply.ptr) :
    reply.Sealed (handleFwRevFunc hw request reply).reply := by
  rw [handleFwRevFunc, orCommand_ack]
  exact (Extends.sealed (n := 32) .copy (by omega)).setCrc hpos

theorem handlePingFunc_sealed (hpos : 0 < reply.ptr) :
    reply.Sealed (handlePingFunc hw request reply).reply := by
  rw [handlePingFunc, orCommand_ack]
  exact (Extends.sealed (n := 0) .refl (by omega)).setCrc hpos

/-- **Every handler** echoes its arguments behind the header, continues from there, and
sets the length field. -/
theorem handler_sealed (hw : Hardware) (h : handlers (request.byte 1) = some handler)
    (hpos : 0 < reply.ptr) :
    (reply.echo request 3 (echoed request)).Sealed (handler hw request reply).reply := by
  rw [handlers] at h
  rw [echoed]
  split_ifs at h ⊢
  · obtain rfl := Option.some.inj h
    exact handleMmapFunc_sealed hpos
  · obtain rfl := Option.some.inj h
    exact handleI2cFunc_sealed
  · obtain rfl := Option.some.inj h
    exact handleMdioFunc_sealed
  · obtain rfl := Option.some.inj h
    rw [echo_nothing]
    exact handleFwRevFunc_sealed hpos
  · obtain rfl := Option.some.inj h
    rw [echo_nothing]
    exact handlePingFunc_sealed hpos

/-- Where no handler is assigned, nothing is echoed. -/
theorem echoed_of_unhandled (h : handlers (request.byte 1) = none) : echoed request = 0 := by
  rw [handlers] at h
  rw [echoed]
  split_ifs at h ⊢
  rfl

/-- The dispatcher continues the reply behind the echoed arguments, with a handler or
without. -/
theorem dispatch_echoes (hw : Hardware) (request : Prot2Buffer) (hpos : 0 < reply.ptr) :
    (reply.echo request 3 (echoed request)).Extends 33 (dispatch hw request reply).reply := by
  rw [dispatch]
  cases hh : handlers (request.byte 1) with
  | some handler => exact (handler_sealed hw hh hpos).extends_
  | none =>
      rw [echoed_of_unhandled hh, echo_nothing]
      exact .refl

/-- The dispatcher continues the reply. -/
theorem dispatch_extends (hw : Hardware) (request : Prot2Buffer) (hpos : 0 < reply.ptr) :
    reply.Extends (echoed request + 33) (dispatch hw request reply).reply :=
  Extends.echo.trans (dispatch_echoes hw request hpos)

/-! ### What `handle_common` adds -/

/-- The header of a reply to a valid command. -/
theorem replyHeader_spec (h : validCommand (request.byte 2) = true) :
    (replyHeader request reply).ptr = reply.ptr + 3 ∧
      (replyHeader request reply).buff reply.ptr = 0 ∧
      (replyHeader request reply).buff (reply.ptr + 1) = request.byte 1 ∧
      (replyHeader request reply).buff (reply.ptr + 2) &&& OPCODE_NACK = 0 := by
  have hheader : ∃ c, replyCommand (request.byte 2) = some c ∧ c &&& OPCODE_NACK = 0 := by
    rw [validCommand] at h
    rw [replyCommand]
    split_ifs with hr hw' hc
    · exact ⟨_, rfl, rfl⟩
    · exact ⟨_, rfl, rfl⟩
    · exact ⟨_, rfl, rfl⟩
    · exact absurd h (by simp [hr, hw', hc])
  obtain ⟨c, hc, hack⟩ := hheader
  simp only [replyHeader, hc]
  refine ⟨rfl, ?_, ?_, ?_⟩
  · rw [push_of_ne (by rw [push_ptr, push_ptr]; omega), push_of_ne (by simp), push_self]
  · rw [push_of_ne (by simp)]
    exact push_self
  · rw [show reply.ptr + 2 = ((reply.push 0).push (request.byte 1)).ptr from rfl, push_self, hack]

/-- The checksum of a reply is right once the length field is. -/
theorem setCrc_ok (h : (reply.buff 0).toNat = reply.ptr + 1) (hpos : 0 < reply.ptr) :
    uartCrcOk reply.setCrc.buff = true := by
  have hzero : reply.setCrc.buff 0 = reply.buff 0 := setCrc_of_ne hpos.ne
  have hsame : uartCalculateCrc reply.setCrc.buff = uartCalculateCrc reply.buff := by
    simp only [uartCalculateCrc, hzero]
    refine List.foldl_ext _ _ _ fun crc i hi => ?_
    rw [setCrc_of_ne (by have := List.mem_range.mp hi; omega)]
  rw [uartCrcOk, hzero, h, Nat.add_sub_cancel, hsame]
  simp [setCrc]

/-- The checksum of a packet reads the bytes it declares. -/
theorem uartCrcOk_of_same {f g : ℕ → UInt8} (hlen : 0 < (f 0).toNat)
    (h : ∀ i < (f 0).toNat, f i = g i) : uartCrcOk f = uartCrcOk g := by
  have hzero := h 0 hlen
  have hsum : uartCalculateCrc f = uartCalculateCrc g := by
    simp only [uartCalculateCrc, ← hzero]
    refine List.foldl_ext _ _ _ fun crc i hi => ?_
    have hi' := List.mem_range.mp hi
    rw [h i (by omega)]
  rw [uartCrcOk, uartCrcOk, hsum, ← hzero, h _ (by omega)]

/-- The NACK bit is set by what sets it. -/
theorem or_nack_and_nack (c : UInt8) : (c ||| OPCODE_NACK) &&& OPCODE_NACK = OPCODE_NACK := by
  apply UInt8.toBitVec_inj.mp
  ext i hi
  simp only [UInt8.toBitVec_and, UInt8.toBitVec_or, BitVec.getElem_and, BitVec.getElem_or]
  exact Bool.and_eq_right_iff_imp.mpr fun hb => by simp [hb]

/-- The reply of `handle_common` before its checksum. -/
def beforeCrc (hw : Hardware) (request : Prot2Buffer) : Prot2Reply :=
  let o := dispatch hw request (replyHeader request .empty)
  if o.ret ≠ .success then o.reply.orCommand OPCODE_NACK else o.reply

/-- A request with a checksum that holds is dispatched. -/
theorem handleCommon_eq (h : uartCrcOk request.byte = true) :
    handleCommon hw request .empty =
      { dispatch hw request (replyHeader request .empty) with
        reply := (beforeCrc hw request).setCrc } := by
  simp only [handleCommon, h, if_true, beforeCrc]

/-- What stands in the reply of `handle_common` before the checksum is computed. -/
theorem beforeCrc_spec (hw : Hardware) (h : validCommand (request.byte 2) = true) :
    (beforeCrc hw request).ptr = (dispatch hw request (replyHeader request .empty)).reply.ptr ∧
      (beforeCrc hw request).buff 0 =
        (dispatch hw request (replyHeader request .empty)).reply.buff 0 ∧
      (beforeCrc hw request).buff 1 = request.byte 1 ∧
      (isNack (beforeCrc hw request).buff = true ↔
        (dispatch hw request (replyHeader request .empty)).ret ≠ .success) := by
  obtain ⟨(hptr : (replyHeader request .empty).ptr = 3), -,
    (hfunc : (replyHeader request .empty).buff 1 = request.byte 1),
    (hcmd : (replyHeader request .empty).buff 2 &&& OPCODE_NACK = 0)⟩ := replyHeader_spec h
  have hpos : 0 < (replyHeader request .empty).ptr := by omega
  have hext := dispatch_extends hw request hpos
  have hfunc' := hext.same 1 Nat.one_pos (by omega)
  have hcmd' := hext.same 2 Nat.two_pos (by omega)
  by_cases hret : (dispatch hw request (replyHeader request .empty)).ret = .success
  · simp only [beforeCrc, hret, ne_eq, not_true_eq_false, if_false, true_and, iff_false]
    rw [isNack, hfunc', hcmd']
    exact ⟨hfunc, by simp [hcmd]⟩
  · simp only [beforeCrc, ne_eq, hret, not_false_eq_true, if_true, iff_true]
    refine ⟨rfl, orCommand_of_ne (by omega), ?_, ?_⟩
    · rw [orCommand_of_ne (by omega), hfunc']
      exact hfunc
    · rw [isNack, orCommand, setByte_self, or_nack_and_nack]
      rfl

/-- The NACK bit of a reply says whether the request failed. -/
theorem handleCommon_nack (hcmd : validCommand (request.byte 2) = true)
    (hcrc : uartCrcOk request.byte = true) :
    isNack (handleCommon hw request .empty).reply.buff = true ↔
      (handleCommon hw request .empty).ret ≠ .success := by
  obtain ⟨(hheader : (replyHeader request .empty).ptr = 3), -, -, -⟩ := replyHeader_spec hcmd
  obtain ⟨hptr, -, -, hnack⟩ := beforeCrc_spec hw hcmd
  have hpos : 0 < (replyHeader request .empty).ptr := by omega
  have hge := (dispatch_extends hw request hpos).ptr_le
  have hsame : isNack (beforeCrc hw request).setCrc.buff = isNack (beforeCrc hw request).buff := by
    rw [isNack, isNack, setCrc_of_ne (by omega)]
  rw [handleCommon_eq hcrc]
  simp only
  rw [hsame, hnack]

/-- An echoed argument stands in the reply where it stands in the request. -/
theorem handleCommon_echoes (hw : Hardware) (hcmd : validCommand (request.byte 2) = true)
    (hcrc : uartCrcOk request.byte = true) {i : ℕ} (h3 : 3 ≤ i) (hi : i < 3 + echoed request) :
    (handleCommon hw request .empty).reply.buff i = request.byte i := by
  obtain ⟨(hheader : (replyHeader request .empty).ptr = 3), -, -, -⟩ := replyHeader_spec hcmd
  obtain ⟨hptr, -, -, -⟩ := beforeCrc_spec hw hcmd
  have hpos : 0 < (replyHeader request .empty).ptr := by omega
  have hext := dispatch_echoes hw request hpos
  have hge := hext.ptr_le
  rw [echo_ptr, hheader] at hge
  have hbefore : (beforeCrc hw request).buff i =
      (dispatch hw request (replyHeader request .empty)).reply.buff i := by
    simp only [beforeCrc]
    split_ifs
    · exact orCommand_of_ne (by omega)
    · rfl
  obtain ⟨j, rfl⟩ := Nat.exists_eq_add_of_le h3
  rw [handleCommon_eq hcrc]
  simp only
  rw [setCrc_of_ne (by omega), hbefore, hext.same _ (by omega) (by rw [echo_ptr]; omega)]
  have hecho : ((replyHeader request .empty).echo request 3 (echoed request)).buff
      ((replyHeader request .empty).ptr + j) = request.byte (3 + j) := echo_of_lt (by omega)
  rwa [hheader] at hecho

/-! ### Well-formed replies -/

/-- The format of a reply: its length in front, at least a header and a checksum; then the
function of the request; the NACK bit exactly where no handler succeeded; and a checksum
that holds. -/
structure ReplyWellFormed (request : Prot2Buffer) (o : Prot2Outcome) : Prop where
  length : (o.reply.buff 0).toNat = o.reply.ptr + 1
  header : 4 ≤ (o.reply.buff 0).toNat
  function : o.reply.buff 1 = request.byte 1
  checksum : uartCrcOk o.reply.buff = true
  nack : isNack o.reply.buff = true ↔
    (handlers (request.byte 1)).isNone = true ∨ o.ret ≠ .success

/-- Without a handler the length field keeps its zero. -/
theorem length_of_unhandled (h : ValidRequest request)
    (hnone : (handlers (request.byte 1)).isNone = true) :
    (handleCommon hw request .empty).reply.buff 0 = 0 := by
  obtain ⟨(hptr : (replyHeader request .empty).ptr = 3),
    (hlen : (replyHeader request .empty).buff 0 = 0), -, -⟩ := replyHeader_spec h.command
  obtain ⟨hptr', hzero, -, -⟩ := beforeCrc_spec hw h.command
  rw [Option.isNone_iff_eq_none] at hnone
  simp only [dispatch, hnone] at hptr' hzero
  rw [handleCommon_eq h.checksum]
  simp only
  rw [setCrc_of_ne (by omega), hzero]
  exact hlen

/-- So of the NACK packet that was built no byte is sent. -/
theorem sent_of_unhandled (h : ValidRequest request)
    (hnone : (handlers (request.byte 1)).isNone = true) :
    (handleCommon hw request .empty).sent = [] := by
  simp [Prot2Outcome.sent, length_of_unhandled h hnone]

/-- **A handled request** gets a well-formed reply. -/
theorem reply_wellFormed_of_handled (h : ValidRequest request)
    (hsome : (handlers (request.byte 1)).isSome = true) :
    ReplyWellFormed request (handleCommon hw request .empty) := by
  obtain ⟨handler, hh⟩ := Option.isSome_iff_exists.mp hsome
  obtain ⟨(hheader : (replyHeader request .empty).ptr = 3), -, -, -⟩ :=
    replyHeader_spec h.command
  obtain ⟨hptr, hzero, hfunc, hnack⟩ := beforeCrc_spec hw h.command
  have hpos : 0 < (replyHeader request .empty).ptr := by omega
  have hge := (dispatch_extends hw request hpos).ptr_le
  have hle := (dispatch_extends hw request hpos).le_ptr
  have hbound := echoed_le request
  have hsealed := (handler_sealed hw hh hpos).length_eq
  have hdispatch : dispatch hw request (replyHeader request .empty) =
      handler hw request (replyHeader request .empty) := by simp only [dispatch, hh]
  rw [← hdispatch] at hsealed
  have hlen : ((beforeCrc hw request).buff 0).toNat = (beforeCrc hw request).ptr + 1 := by
    rw [hzero, hsealed, hptr, UInt8.toNat_ofNat']
    omega
  have hlen' : ((beforeCrc hw request).setCrc.buff 0).toNat = (beforeCrc hw request).ptr + 1 := by
    rw [setCrc_of_ne (by omega), hlen]
  rw [handleCommon_eq h.checksum]
  refine ⟨hlen', by simp only; omega, ?_, setCrc_ok hlen (by omega), ?_⟩
  · simp only
    rw [setCrc_of_ne (by omega), hfunc]
  · rw [← handleCommon_eq h.checksum, handleCommon_nack h.command h.checksum, hh]
    simp

/-- **Well-formed replies**: the reply to a valid request is well formed exactly where its
function has a handler. -/
theorem reply_wellFormed_iff (h : ValidRequest request) (hw : Hardware) :
    ReplyWellFormed request (handleCommon hw request .empty) ↔
      (handlers (request.byte 1)).isSome = true := by
  refine ⟨fun hwf => ?_, reply_wellFormed_of_handled h⟩
  by_contra hnone
  rw [Bool.not_eq_true, Option.isSome_eq_false_iff] at hnone
  have hlen := hwf.header
  rw [length_of_unhandled h hnone] at hlen
  exact absurd hlen (by decide)

/-- A ping in its buffer. -/
def pingRequest : Prot2Buffer := .ofBytes [4, 0x0F, CMD_READ, 0x0B]

/-- A ping is a valid request. -/
theorem pingRequest_valid : ValidRequest pingRequest :=
  ⟨by decide +kernel, by decide +kernel, by decide +kernel⟩

/-- A ping is answered by a well-formed reply. -/
theorem reply_wellFormed_ping :
    ReplyWellFormed pingRequest (handleCommon .idle pingRequest .empty) :=
  (reply_wellFormed_iff pingRequest_valid .idle).mpr (by decide +kernel)

/-- A valid request for function 2, which has no handler. -/
def unsupportedRequest : Prot2Buffer := .ofBytes [4, 2, CMD_READ, 6]

/-- The reply to an unsupported function has the length zero, and no byte of it is sent. -/
theorem not_reply_wellFormed : ¬ ∀ request, ValidRequest request → ∀ hw,
    ReplyWellFormed request (handleCommon hw request .empty) := by
  intro hall
  have hvalid : ValidRequest unsupportedRequest :=
    ⟨by decide +kernel, by decide +kernel, by decide +kernel⟩
  have hlen := (hall unsupportedRequest hvalid .idle).header
  rw [length_of_unhandled hvalid (by decide +kernel)] at hlen
  exact absurd hlen (by decide)

end Muxponder
