import Muxponder.Ipglb2Arguments

/-!
# The NACK Bit of PROT2 Requests

`handle_common` masks bit 7 of the command byte before it chooses the command of the
reply, to ignore it in requests. The handlers compare the unmasked byte: with the bit set
a request is neither read, write nor configuration to them, so they only echo the
arguments that every command has.

The two variants of a request are compared as a `NackPair`: one has a plain command, the
other the same command with the bit. They also differ in the checksum, which is echoed
where a request is too short for its arguments.

## Main results

* `ignoresNack_iff`: when a request and its variant are treated alike.
-/

namespace Muxponder

open Prot2Reply

/-- The request with bit 7 of its command flipped and its checksum computed again. -/
def flipNack (request : Prot2Buffer) : Prot2Buffer :=
  let flipped := request.withByte 2 (request.byte 2 ^^^ OPCODE_NACK)
  flipped.withByte (request.length - 1) (uartCalculateCrc flipped.byte)

/-- `handle_common` does the same with the request and with its variant. -/
def IgnoresNack (request : Prot2Buffer) : Prop :=
  ∀ hw, handleCommon hw request .empty = handleCommon hw (flipNack request) .empty

/-! ### Commands with and without the bit -/

/-- The commands the handlers know. -/
def PlainCommand (c : UInt8) : Prop := c = CMD_READ ∨ c = CMD_WRITE ∨ c = CMD_CONFIG

/-- A valid command is plain, or plain but for the bit. -/
theorem plainCommand_or_of_valid {c : UInt8} (h : validCommand c = true) :
    PlainCommand c ∨ PlainCommand (c ^^^ OPCODE_NACK) := by
  have hall : ∀ i : Fin 256, validCommand (UInt8.ofFin i) = true →
      (UInt8.ofFin i = CMD_READ ∨ UInt8.ofFin i = CMD_WRITE ∨ UInt8.ofFin i = CMD_CONFIG) ∨
      (UInt8.ofFin i ^^^ OPCODE_NACK = CMD_READ ∨ UInt8.ofFin i ^^^ OPCODE_NACK = CMD_WRITE ∨
        UInt8.ofFin i ^^^ OPCODE_NACK = CMD_CONFIG) := by decide +kernel
  exact hall c.toFin h

/-- Neither of the accesses is a configuration. -/
theorem config_apart {c : UInt8} (h : c = CMD_CONFIG) : c ≠ CMD_READ ∧ c ≠ CMD_WRITE := by
  rw [h]
  decide

namespace PlainCommand

variable {c : UInt8}

theorem valid (h : PlainCommand c) : validCommand c = true := by
  rcases h with rfl | rfl | rfl <;> rfl

/-- With the bit a command is none that the handlers know. -/
theorem nacked (h : PlainCommand c) : c ^^^ OPCODE_NACK ≠ CMD_READ ∧
    c ^^^ OPCODE_NACK ≠ CMD_WRITE ∧ c ^^^ OPCODE_NACK ≠ CMD_CONFIG := by
  rcases h with rfl | rfl | rfl <;> decide

/-- The dispatcher does not see the bit. -/
theorem masked (h : PlainCommand c) :
    c &&& 0x7F = c ∧ (c ^^^ OPCODE_NACK) &&& 0x7F = c := by
  rcases h with rfl | rfl | rfl <;> exact ⟨rfl, rfl⟩

theorem replyCommand_eq (h : PlainCommand c) :
    replyCommand (c ^^^ OPCODE_NACK) = replyCommand c := by
  simp only [replyCommand, h.masked.1, h.masked.2]

end PlainCommand

/-! ### The checksum of the variant -/

variable {request a b : Prot2Buffer} {hw : Hardware} {reply : Prot2Reply}

/-- Flipping bits of one byte flips them in the exclusive or. -/
theorem foldl_xor_flip {f g : ℕ → UInt8} {k n : ℕ} {d : UInt8} (hk : k < n)
    (hflip : g k = f k ^^^ d) (hsame : ∀ i, i ≠ k → g i = f i) :
    (List.range n).foldl (fun crc i => crc ^^^ g i) 0 =
      (List.range n).foldl (fun crc i => crc ^^^ f i) 0 ^^^ d := by
  induction n with
  | zero => exact absurd hk (Nat.not_lt_zero k)
  | succ n ih =>
      simp only [List.range_succ, List.foldl_append, List.foldl_cons, List.foldl_nil]
      by_cases hlast : k = n
      · subst hlast
        have hfront : (List.range k).foldl (fun crc i => crc ^^^ g i) 0 =
            (List.range k).foldl (fun crc i => crc ^^^ f i) 0 := by
          refine List.foldl_ext _ _ _ fun crc i hi => ?_
          rw [hsame i (List.mem_range.mp hi).ne]
        rw [hfront, hflip, UInt8.xor_assoc]
      · rw [ih (by omega), hsame n (Ne.symm hlast), UInt8.xor_assoc, UInt8.xor_comm d,
          UInt8.xor_assoc]

/-- A plain request and its variant, in either order. -/
structure NackPair (a b : Prot2Buffer) : Prop where
  valid : ValidRequest a
  plain : PlainCommand (a.byte 2)
  nacked : b.byte 2 = a.byte 2 ^^^ OPCODE_NACK
  checksum : uartCrcOk b.byte = true
  last : a.byte (a.length - 1) ≠ b.byte (a.length - 1)
  same : ∀ i, i ≠ 2 → i ≠ a.length - 1 → a.byte i = b.byte i

/-- What the variant of a request looks like. -/
theorem flipNack_spec (h : ValidRequest request) :
    (flipNack request).byte 2 = request.byte 2 ^^^ OPCODE_NACK ∧
      (flipNack request).byte (request.length - 1) =
        request.byte (request.length - 1) ^^^ OPCODE_NACK ∧
      (∀ i, i ≠ 2 → i ≠ request.length - 1 → (flipNack request).byte i = request.byte i) ∧
      uartCrcOk (flipNack request).byte = true := by
  have h4 := h.length
  have hbound : request.length - 1 < IPGLB2_MAX_BUFFER := by
    have hlt := (request.byte 0).toNat_lt
    simp only [Prot2Buffer.length, IPGLB2_MAX_BUFFER]
    omega
  have htwo : (flipNack request).byte 2 = request.byte 2 ^^^ OPCODE_NACK := by
    rw [flipNack, Prot2Buffer.byte_withByte_of_ne (by omega),
      Prot2Buffer.byte_withByte_self (by decide)]
  have hsame : ∀ i, i ≠ 2 → i ≠ request.length - 1 →
      (flipNack request).byte i = request.byte i := fun i h2 hlast => by
    rw [flipNack, Prot2Buffer.byte_withByte_of_ne hlast, Prot2Buffer.byte_withByte_of_ne h2]
  have hzero := hsame 0 (by omega) (by omega)
  have hcrc : uartCalculateCrc request.byte = request.byte (request.length - 1) :=
    beq_iff_eq.mp h.checksum
  have hfold : uartCalculateCrc (request.withByte 2 (request.byte 2 ^^^ OPCODE_NACK)).byte =
      uartCalculateCrc request.byte ^^^ OPCODE_NACK := by
    simp only [uartCalculateCrc, Prot2Buffer.byte_withByte_of_ne (show 0 ≠ 2 by omega)]
    exact foldl_xor_flip (show 2 < request.length - 1 by omega)
      (Prot2Buffer.byte_withByte_self (by decide)) fun i hi => Prot2Buffer.byte_withByte_of_ne hi
  have hlast : (flipNack request).byte (request.length - 1) =
      request.byte (request.length - 1) ^^^ OPCODE_NACK := by
    rw [flipNack, Prot2Buffer.byte_withByte_self hbound, hfold, hcrc]
  have hflipped : uartCalculateCrc (flipNack request).byte =
      uartCalculateCrc (request.withByte 2 (request.byte 2 ^^^ OPCODE_NACK)).byte := by
    simp only [uartCalculateCrc, hzero, Prot2Buffer.byte_withByte_of_ne (show 0 ≠ 2 by omega)]
    refine List.foldl_ext _ _ _ fun crc i hi => ?_
    have hi' : i < request.length - 1 := List.mem_range.mp hi
    rw [flipNack, Prot2Buffer.byte_withByte_of_ne hi'.ne]
  refine ⟨htwo, hlast, hsame, ?_⟩
  rw [uartCrcOk, hzero, hflipped, hfold, hcrc]
  exact beq_iff_eq.mpr hlast.symm

/-- A valid request and its variant are a pair, in the order of their commands. -/
theorem nackPair_flipNack (h : ValidRequest request) :
    NackPair request (flipNack request) ∨ NackPair (flipNack request) request := by
  obtain ⟨htwo, hlast, hsame, hcrc⟩ := flipNack_spec h
  have h4 := h.length
  have hlen : (flipNack request).length = request.length := by
    rw [Prot2Buffer.length, hsame 0 (by omega) (by omega), Prot2Buffer.length]
  have hne : (flipNack request).byte (request.length - 1) ≠ request.byte (request.length - 1) := by
    rw [hlast]
    exact xor_ne_self (by decide)
  rcases plainCommand_or_of_valid h.command with hplain | hplain
  · exact Or.inl ⟨h, hplain, htwo, hcrc, hne.symm, fun i h2 hi => (hsame i h2 hi).symm⟩
  · rw [← htwo] at hplain
    refine Or.inr ⟨⟨hlen ▸ h4, hplain.valid, hcrc⟩, hplain, ?_, h.checksum, hlen ▸ hne,
      fun i h2 hi => hsame i h2 (hlen ▸ hi)⟩
    rw [htwo, UInt8.xor_assoc, UInt8.xor_self, UInt8.xor_zero]

namespace NackPair

/-- Both have the same function. -/
theorem function_eq (h : NackPair a b) : b.byte 1 = a.byte 1 := by
  have h4 := h.valid.length
  exact (h.same 1 (by omega) (by omega)).symm

/-- The variant has a valid command too. -/
theorem command (h : NackPair a b) : validCommand (b.byte 2) = true := by
  rw [validCommand, h.nacked, h.plain.masked.2]
  have hplain := h.plain.valid
  rwa [validCommand, h.plain.masked.1] at hplain

/-- Both replies start alike. -/
theorem replyHeader_eq (h : NackPair a b) : replyHeader b reply = replyHeader a reply := by
  simp only [replyHeader, h.function_eq, h.nacked, h.plain.replyCommand_eq]

/-- They are echoed alike in front of the checksum. -/
theorem echo_eq (h : NackPair a b) {n : ℕ} (hn : 3 + n < a.length) :
    reply.echo a 3 n = reply.echo b 3 n :=
  echo_congr fun j hj => h.same _ (by omega) (by omega)

/-- So is a word in front of it. -/
theorem word32_eq (h : NackPair a b) {i : ℕ} (h3 : 3 ≤ i) (hi : i + 4 < a.length) :
    a.word32 i = b.word32 i := by
  simp only [Prot2Buffer.word32, Prot2Buffer.word16]
  rw [h.same (i + 2 + 1) (by omega) (by omega), h.same (i + 2) (by omega) (by omega),
    h.same (i + 1) (by omega) (by omega), h.same i (by omega) (by omega)]

end NackPair

/-! ### What the handlers do with the bit set -/

/-- `handle_mmap_func` on any other command byte. -/
theorem handleMmapFunc_other (hr : request.byte 2 ≠ CMD_READ) (hw' : request.byte 2 ≠ CMD_WRITE) :
    handleMmapFunc hw request reply =
      ⟨.success, (reply.echo request 3 8).setLength.setCrc, []⟩ := by
  simp only [handleMmapFunc, if_neg hr, if_neg hw']

/-- `handle_mdio_func` on any other command byte. -/
theorem handleMdioFunc_other (hr : request.byte 2 ≠ CMD_READ) (hw' : request.byte 2 ≠ CMD_WRITE) :
    handleMdioFunc hw request reply = ⟨.success, (reply.echo request 3 6).setLength, []⟩ := by
  simp only [handleMdioFunc, if_neg hr, if_neg hw']

/-- A register write only differs from a request without effect by its access. -/
theorem handleMmapFunc_write (h : request.byte 2 = CMD_WRITE) :
    handleMmapFunc hw request reply =
      ⟨.success, (reply.echo request 3 8).setLength.setCrc,
        (handleMemWr (request.word32 3) (request.word32 7) (request.word32 11)).2⟩ := by
  have hr : ¬ request.byte 2 = CMD_READ := by rw [h]; decide
  simp only [handleMmapFunc, if_neg hr, if_pos h]

/-- A write to the memory's base without a client behind the offset has no effect. -/
theorem handleMemWr_eq_nil {base offset value : UInt32} :
    (handleMemWr base offset value).2 = [] ↔ base = SDRAM_BASE ∧ rateClient offset = none := by
  rw [handleMemWr]
  by_cases hbase : base = SDRAM_BASE
  · cases hclient : rateClient offset with
    | some client => simp [hbase]
    | none => simp [hbase]
  · simp [hbase]

/-- The requests whose handler does not depend on the bit: no argument is echoed and no
command decoded; or the checksum lies behind the echoed arguments, and the command is a
configuration or a register write without effect. -/
def NackUnseen (request : Prot2Buffer) : Prop :=
  (request.byte 1 ≠ 0x00 ∧ request.byte 1 ≠ 0x01 ∧ request.byte 1 ≠ 0x03) ∨
    (request.byte 1 = 0x00 ∧ 11 < request.length ∧
      (request.byte 2 &&& 0x7F = CMD_CONFIG ∨ request.byte 2 &&& 0x7F = CMD_WRITE ∧
        request.word32 3 = SDRAM_BASE ∧ rateClient (request.word32 7) = none)) ∨
    (request.byte 1 = 0x03 ∧ 9 < request.length ∧ request.byte 2 &&& 0x7F = CMD_CONFIG)

namespace NackPair

/-- Whether the bit is seen does not depend on the bit. -/
theorem nackUnseen_iff (h : NackPair a b) : NackUnseen a ↔ NackUnseen b := by
  have h4 := h.valid.length
  have hlen : b.length = a.length := by
    rw [Prot2Buffer.length, ← h.same 0 (by omega) (by omega), Prot2Buffer.length]
  have hcmd : b.byte 2 &&& 0x7F = a.byte 2 &&& 0x7F := by
    rw [h.nacked, h.plain.masked.1, h.plain.masked.2]
  rw [NackUnseen, NackUnseen, hlen, hcmd, h.function_eq]
  refine or_congr_right (or_congr_left (and_congr_right fun _ => and_congr_right fun hlong => ?_))
  rw [h.word32_eq (by omega) (by omega), h.word32_eq (by omega) (by omega)]

/-- Where the bit is unseen both are dispatched alike. -/
theorem dispatch_eq (h : NackPair a b) (hunseen : NackUnseen a) :
    dispatch hw a reply = dispatch hw b reply := by
  obtain ⟨hr, hw', -⟩ := h.plain.nacked
  rw [← h.nacked] at hr hw'
  rw [NackUnseen, h.plain.masked.1] at hunseen
  rcases hunseen with ⟨h0, h1, h3⟩ | ⟨h0, hlong, hcmd⟩ | ⟨h3, hlong, hcmd⟩
  · simp only [dispatch, handlers, h.function_eq, if_neg h0, if_neg h1, if_neg h3]
    split_ifs <;> rfl
  · rw [dispatch_mmap h0, dispatch_mmap (h.function_eq.trans h0), handleMmapFunc_other hr hw',
      ← h.echo_eq (by omega)]
    rcases hcmd with hcmd | ⟨hcmd, hidle⟩
    · exact handleMmapFunc_other (config_apart hcmd).1 (config_apart hcmd).2
    · rw [handleMmapFunc_write hcmd, handleMemWr_eq_nil.mpr hidle]
  · rw [dispatch_mdio h3, dispatch_mdio (h.function_eq.trans h3), handleMdioFunc_other hr hw',
      ← h.echo_eq (by omega)]
    exact handleMdioFunc_other (config_apart hcmd).1 (config_apart hcmd).2

/-- Where both are answered alike, so they are dispatched. -/
theorem dispatch_of_same (h : NackPair a b)
    (hsame : handleCommon hw a .empty = handleCommon hw b .empty) :
    let reply := replyHeader a .empty
    (dispatch hw a reply).ret = (dispatch hw b reply).ret ∧
      (dispatch hw a reply).accesses = (dispatch hw b reply).accesses ∧
      (dispatch hw a reply).reply.ptr = (dispatch hw b reply).reply.ptr := by
  have hptr := congrArg (fun o : Prot2Outcome => o.reply.ptr) hsame
  rw [handleCommon_eq h.valid.checksum, handleCommon_eq h.checksum] at hsame hptr
  simp only [setCrc_ptr, (beforeCrc_spec hw h.valid.command).1, (beforeCrc_spec hw h.command).1,
    h.replyHeader_eq] at hptr
  obtain ⟨hret, -, hacc⟩ := Prot2Outcome.mk.inj hsame
  rw [h.replyHeader_eq] at hret hacc
  exact ⟨hret, hacc, hptr⟩

/-- Where both are answered alike, no checksum is echoed. -/
theorem long_of_same (h : NackPair a b)
    (hsame : handleCommon hw a .empty = handleCommon hw b .empty)
    (hechoed : echoed b = echoed a) : 3 + echoed a < a.length := by
  have h4 := h.valid.length
  by_contra hshort
  have hbyte := congrArg (fun o : Prot2Outcome => o.reply.buff (a.length - 1)) hsame
  rw [handleCommon_echoes hw h.valid.command h.valid.checksum (by omega) (by omega),
    handleCommon_echoes hw h.command h.checksum (by omega) (by omega)] at hbyte
  exact h.last hbyte

/-- A register read is seen by the bytes of its value, a write by its access. -/
theorem unseen_mmap (h : NackPair a b) (h0 : a.byte 1 = 0x00)
    (hsame : handleCommon hw a .empty = handleCommon hw b .empty) : NackUnseen a := by
  obtain ⟨hr', hw', -⟩ := h.plain.nacked
  rw [← h.nacked] at hr' hw'
  have h0' := h.function_eq.trans h0
  have hlong : 3 + echoed a < a.length :=
    h.long_of_same hsame (by rw [echoed, echoed, if_pos h0, if_pos h0'])
  rw [echoed, if_pos h0] at hlong
  obtain ⟨-, hacc, hptr⟩ := h.dispatch_of_same hsame
  rw [dispatch_mmap h0, dispatch_mmap h0', handleMmapFunc_other hr' hw'] at hacc hptr
  refine Or.inr (Or.inl ⟨h0, hlong, ?_⟩)
  rw [h.plain.masked.1]
  rcases h.plain with hr | hwr | hc
  · simp [handleMmapFunc, hr] at hptr
  · rw [handleMmapFunc_write hwr] at hacc
    exact Or.inr ⟨hwr, handleMemWr_eq_nil.mp hacc⟩
  · exact Or.inl hc

/-- An I2C request of any command echoes the index of its device. -/
theorem seen_i2c (h : NackPair a b) (h1 : a.byte 1 = 0x01)
    (hsame : handleCommon hw a .empty = handleCommon hw b .empty) : False := by
  obtain ⟨hr', hw', hc'⟩ := h.plain.nacked
  rw [← h.nacked] at hr' hw' hc'
  have hechoed : 2 ≤ i2cEchoed a := by
    rcases h.plain with hr | hwr | hc
    · rw [i2cEchoed_address (Or.inl hr)]
      omega
    · rw [i2cEchoed_address (Or.inr hwr)]
      omega
    · rw [i2cEchoed_config hc]
      omega
  have hge : ∀ reply, (reply.echo a 3 (i2cEchoed a)).ptr ≤ (handleI2cFunc hw a reply).reply.ptr :=
    fun _ => handleI2cFunc_sealed.extends_.ptr_le
  obtain ⟨-, -, hptr⟩ := h.dispatch_of_same hsame
  rw [dispatch_i2c h1, dispatch_i2c (h.function_eq.trans h1),
    handleI2cFunc_other hr' hw' hc'] at hptr
  have hlong := hge (replyHeader a .empty)
  rw [hptr, setLength_ptr, echo_ptr, echo_ptr] at hlong
  omega

/-- An MDIO read or write is seen by its failure. -/
theorem unseen_mdio (h : NackPair a b) (h3 : a.byte 1 = 0x03)
    (hsame : handleCommon hw a .empty = handleCommon hw b .empty) : NackUnseen a := by
  obtain ⟨hr', hw', -⟩ := h.plain.nacked
  rw [← h.nacked] at hr' hw'
  have h3' := h.function_eq.trans h3
  have hechoed : ∀ r : Prot2Buffer, r.byte 1 = 0x03 → echoed r = 6 := fun r hr => by
    simp [echoed, hr]
  have hlong := h.long_of_same hsame ((hechoed b h3').trans (hechoed a h3).symm)
  rw [hechoed a h3] at hlong
  obtain ⟨hret, -, -⟩ := h.dispatch_of_same hsame
  rw [dispatch_mdio h3, dispatch_mdio h3', handleMdioFunc_other hr' hw'] at hret
  refine Or.inr (Or.inr ⟨h3, hlong, ?_⟩)
  rw [h.plain.masked.1]
  rcases h.plain with hr | hwr | hc
  · simp [handleMdioFunc, handleMdioRd, hr] at hret
  · simp [handleMdioFunc, handleMdioWr, hwr, CMD_READ, CMD_WRITE] at hret
  · exact hc

/-- **A pair** is answered alike on all hardware exactly where the bit is unseen. -/
theorem same_iff (h : NackPair a b) :
    (∀ hw, handleCommon hw a .empty = handleCommon hw b .empty) ↔ NackUnseen a := by
  constructor
  · intro hall
    by_cases h0 : a.byte 1 = 0x00
    · exact h.unseen_mmap h0 (hall .idle)
    · by_cases h1 : a.byte 1 = 0x01
      · exact (h.seen_i2c h1 (hall .idle)).elim
      · by_cases h3 : a.byte 1 = 0x03
        · exact h.unseen_mdio h3 (hall .idle)
        · exact Or.inl ⟨h0, h1, h3⟩
  · intro hunseen hw
    exact handleCommon_congr (h.valid.checksum.trans h.checksum.symm) h.replyHeader_eq.symm
      (h.dispatch_eq hunseen)

end NackPair

/-! ### The claim of the comment -/

/-- **The NACK bit of a request** is ignored exactly where no handler decodes the command,
or where the command has no effect beyond the echo and the checksum is not echoed. -/
theorem ignoresNack_iff (h : ValidRequest request) :
    IgnoresNack request ↔ NackUnseen request := by
  rcases nackPair_flipNack h with hpair | hpair
  · exact hpair.same_iff
  · rw [← hpair.nackUnseen_iff, ← hpair.same_iff]
    exact forall_congr' fun _ => eq_comm

/-- A ping with the bit set is answered as any ping. -/
theorem ignoresNack_ping : IgnoresNack pingRequest :=
  (ignoresNack_iff pingRequest_valid).mpr (Or.inl (by decide +kernel))

/-- A register write: 7 is written to the register at base 5. -/
def writeRequest : Prot2Buffer :=
  .ofBytes [16, 0x00, CMD_WRITE, 5, 0, 0, 0, 0, 0, 0, 0, 7, 0, 0, 0, 0x13]

/-- With the bit set nothing is written, and the reply is the same. -/
theorem not_ignoresNack : ¬ ∀ request, ValidRequest request → IgnoresNack request := by
  intro hall
  have hvalid : ValidRequest writeRequest :=
    ⟨by decide +kernel, by decide +kernel, by decide +kernel⟩
  have hsame := congrArg Prot2Outcome.accesses (hall writeRequest hvalid .idle)
  have hwritten : (handleCommon .idle writeRequest .empty).accesses = [.iowr 5 0 7] := by
    decide +kernel
  have hnothing : (handleCommon .idle (flipNack writeRequest) .empty).accesses = [] := by
    decide +kernel
  rw [hwritten, hnothing] at hsame
  exact List.cons_ne_nil _ _ hsame

end Muxponder
