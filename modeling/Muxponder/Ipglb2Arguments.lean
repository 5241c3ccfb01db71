import Muxponder.Ipglb2Reply

/-!
# The Arguments of PROT2 Requests

The handlers read their arguments at fixed places, whatever length the request declares.
The buffer behind a short request holds zeros or what an earlier packet left there, and
`handle_common` completes the request with it: nothing refuses a request that is too
short for its function.

What a handler consults is decided by the first four bytes: the arguments it echoes, and
behind them the value of a write (`argumentsEnd`). A write to a device that does not exist
leaves its value unread (`RefusedAnyway`).

## Main results

* `dispatch_congr`: requests that agree on the consulted bytes are treated alike.
* `withinLength_iff`: when the declared bytes decide everything.
-/

namespace Muxponder

open Prot2Reply

/-! ### What a handler consults -/

/-- How many bytes of a value follow them. -/
def valueBytes (request : Prot2Buffer) : ℕ :=
  if request.byte 2 = CMD_WRITE then
    if request.byte 1 = 0x00 then 4
    else if request.byte 1 = 0x01 then if addressBytes (request.byte 3) = 0 then 0 else 1
    else if request.byte 1 = 0x03 then 2
    else 0
  else 0

/-- Where the arguments of a request end. -/
def argumentsEnd (request : Prot2Buffer) : ℕ := 3 + echoed request + valueBytes request

/-- Whether a request addresses an I2C or MDIO device that does not exist. -/
def RefusedAnyway (request : Prot2Buffer) : Prop :=
  request.byte 1 = 0x01 ∧
      ((request.byte 2 = CMD_READ ∨ request.byte 2 = CMD_WRITE) ∧ i2cTarget request = none ∨
        request.byte 2 = CMD_CONFIG ∧ configTarget request = none) ∨
    request.byte 1 = 0x03 ∧ (request.byte 2 = CMD_READ ∨ request.byte 2 = CMD_WRITE)

/-- Two requests with the same first bytes. -/
def AgreeBelow (n : ℕ) (request request' : Prot2Buffer) : Prop :=
  ∀ i < n, request.byte i = request'.byte i

variable {request request' : Prot2Buffer} {hw : Hardware} {reply : Prot2Reply} {i n : ℕ}

theorem AgreeBelow.mono {m : ℕ} (h : AgreeBelow n request request') (hmn : m ≤ n) :
    AgreeBelow m request request' := fun i hi => h i (hi.trans_le hmn)

/-- An echo repeats the bytes it echoes. -/
theorem echo_congr (h : ∀ j < n, request.byte (i + j) = request'.byte (i + j)) :
    reply.echo request i n = reply.echo request' i n := by
  have hsame : ∀ j, (if reply.ptr ≤ j ∧ j < reply.ptr + n then request.byte (i + (j - reply.ptr))
      else reply.buff j) =
      if reply.ptr ≤ j ∧ j < reply.ptr + n then request'.byte (i + (j - reply.ptr))
      else reply.buff j := by
    intro j
    split_ifs with hj
    · exact h _ (by omega)
    · rfl
  simp only [echo, copy, advance, hsame]

theorem word16_congr (h : AgreeBelow n request request') (hi : i + 2 ≤ n) :
    request.word16 i = request'.word16 i := by
  rw [Prot2Buffer.word16, h (i + 1) (by omega), h i (by omega), Prot2Buffer.word16]

theorem word32_congr (h : AgreeBelow n request request') (hi : i + 4 ≤ n) :
    request.word32 i = request'.word32 i := by
  rw [Prot2Buffer.word32, word16_congr h (by omega), word16_congr h (by omega),
    Prot2Buffer.word32]

/-- A register request is decided by base, offset and, on a write, the value. -/
theorem handleMmapFunc_congr (h : AgreeBelow 11 request request')
    (hvalue : request.byte 2 = CMD_WRITE → AgreeBelow 15 request request') :
    handleMmapFunc hw request reply = handleMmapFunc hw request' reply := by
  simp only [handleMmapFunc, ← h 2 (by omega), ← word32_congr (i := 3) h (by omega),
    ← word32_congr (i := 7) h (by omega),
    ← echo_congr (i := 3) (n := 8) fun j _ => h (3 + j) (by omega)]
  split_ifs with hr hw'
  · rfl
  · rw [word32_congr (i := 11) (hvalue hw') (by omega)]
  · rfl

/-- An MDIO request is decided by what it echoes: the card has no MDIO device. -/
theorem handleMdioFunc_congr (h : AgreeBelow 9 request request') :
    handleMdioFunc hw request reply = handleMdioFunc hw request' reply := by
  simp only [handleMdioFunc, handleMdioRd, handleMdioWr, ← h 2 (by omega),
    ← echo_congr (i := 3) (n := 6) fun j _ => h (3 + j) (by omega)]

/-- The device and the register of a request are among the echoed bytes. -/
theorem i2cTarget_congr (h : AgreeBelow (5 + addressBytes (request.byte 3)) request request') :
    i2cTarget request = i2cTarget request' := by
  have hid := h 3 (by omega)
  have hindex := h 4 (by omega)
  simp only [i2cTarget, ← hid, ← hindex]
  split_ifs with h1 h2 h3
  · rw [h 5 (by simp [addressBytes, h1])]
  · have hbytes : addressBytes (request.byte 3) = 2 := by
      simp only [addressBytes, if_neg h1, if_pos h2]
    rw [h 5 (by omega), h 6 (by omega)]
  · have hbytes : addressBytes (request.byte 3) = 2 := by
      simp only [addressBytes, if_neg h1, if_neg h2, if_pos h3]
    rw [h 5 (by omega), h 6 (by omega)]
  · rfl

/-- A device that exists has an address. -/
theorem addressBytes_pos_of_target (h : i2cTarget request ≠ none) :
    addressBytes (request.byte 3) ≠ 0 := by
  rw [i2cTarget] at h
  rw [addressBytes]
  split_ifs at h ⊢
  · omega
  · omega
  · omega
  · exact absurd rfl h

theorem configTarget_congr (h : AgreeBelow 5 request request') :
    configTarget request = configTarget request' := by
  simp only [configTarget, ← h 3 (by omega), ← h 4 (by omega)]

/-- An I2C request is decided by what it echoes and, on a write to a device that exists,
by the value. -/
theorem handleI2cFunc_congr (h : AgreeBelow (3 + i2cEchoed request) request request')
    (hvalue : request.byte 2 = CMD_WRITE → i2cTarget request ≠ none →
      AgreeBelow (6 + addressBytes (request.byte 3)) request request') :
    handleI2cFunc hw request reply = handleI2cFunc hw request' reply := by
  have hecho : reply.echo request 3 (i2cEchoed request) =
      reply.echo request' 3 (i2cEchoed request) := echo_congr fun j _ => h _ (by omega)
  have hge : 1 ≤ i2cEchoed request := by
    rw [i2cEchoed]
    split_ifs <;> omega
  have hcmd := h 2 (by omega)
  have hid := h 3 (by omega)
  by_cases hr : request.byte 2 = CMD_READ
  · rw [i2cEchoed_address (Or.inl hr)] at h hecho
    rw [handleI2cFunc_read hr, handleI2cFunc_read (hcmd ▸ hr), ← hid, hecho,
      i2cTarget_congr (h.mono (by omega))]
  · by_cases hw' : request.byte 2 = CMD_WRITE
    · rw [i2cEchoed_address (Or.inr hw')] at h hecho
      have htarget := i2cTarget_congr (h.mono (by omega))
      rw [handleI2cFunc_write hw', handleI2cFunc_write (hcmd ▸ hw'), ← hid, hecho, ← htarget]
      cases ht : i2cTarget request with
      | none => rfl
      | some target => rw [hvalue hw' (by simp [ht]) (5 + addressBytes (request.byte 3)) (by omega)]
    · by_cases hc : request.byte 2 = CMD_CONFIG
      · rw [i2cEchoed_config hc] at h hecho
        rw [handleI2cFunc_config hc, handleI2cFunc_config (hcmd ▸ hc), ← hid, hecho,
          configTarget_congr (h.mono (by omega))]
      · rw [i2cEchoed_other hr hw' hc] at hecho
        rw [handleI2cFunc_other hr hw' hc,
          handleI2cFunc_other (hcmd ▸ hr) (hcmd ▸ hw') (hcmd ▸ hc), hecho]

theorem dispatch_mmap (h : request.byte 1 = 0x00) :
    dispatch hw request reply = handleMmapFunc hw request reply := by
  simp [dispatch, handlers, h]

theorem dispatch_i2c (h : request.byte 1 = 0x01) :
    dispatch hw request reply = handleI2cFunc hw request reply := by
  simp [dispatch, handlers, h]

theorem dispatch_mdio (h : request.byte 1 = 0x03) :
    dispatch hw request reply = handleMdioFunc hw request reply := by
  simp [dispatch, handlers, h]

/-- **The consulted bytes** decide what a handler does. -/
theorem dispatch_congr (h : AgreeBelow (3 + echoed request) request request')
    (hvalue : ¬ RefusedAnyway request → AgreeBelow (argumentsEnd request) request request') :
    dispatch hw request reply = dispatch hw request' reply := by
  have hfunc := h 1 (by omega)
  simp only [dispatch, handlers, ← hfunc]
  split_ifs with h0 h1 h3 hE hF
  · rw [echoed, if_pos h0] at h
    refine handleMmapFunc_congr h fun hw' => (hvalue ?_).mono ?_
    · simp [RefusedAnyway, h0]
    · simp [argumentsEnd, echoed, valueBytes, h0, hw']
  · rw [echoed, if_neg h0, if_pos h1] at h
    refine handleI2cFunc_congr h fun hw' ht => (hvalue ?_).mono ?_
    · simp [RefusedAnyway, h1, hw', ht, CMD_WRITE, CMD_CONFIG]
    · have hbytes := addressBytes_pos_of_target ht
      simp only [argumentsEnd, echoed, if_neg h0, if_pos h1, i2cEchoed_address (Or.inr hw'),
        valueBytes, if_pos hw', if_neg hbytes]
      omega
  · rw [echoed, if_neg h0, if_neg h1, if_pos h3] at h
    exact handleMdioFunc_congr h
  · rfl
  · rfl
  · rfl

/-! ### Requests that stay within their length -/

/-- A request that failed and touched nothing. -/
def Refused (o : Prot2Outcome) : Prop := o.ret ≠ .success ∧ o.accesses = []

/-- What `handle_common` does with a request is decided by the bytes it declares, and a
request too short for its function is refused. -/
structure WithinLength (request : Prot2Buffer) : Prop where
  decided : ∀ request', AgreeBelow request.length request request' → ∀ hw,
    handleCommon hw request .empty = handleCommon hw request' .empty
  refused : request.length ≤ argumentsEnd request → ∀ hw,
    Refused (handleCommon hw request .empty)

/-- The checksum of a request reads the declared bytes. -/
theorem uartCrcOk_congr (hlen : 0 < request.length)
    (h : AgreeBelow request.length request request') :
    uartCrcOk request.byte = uartCrcOk request'.byte :=
  uartCrcOk_of_same hlen h

/-- A request whose checksum fails is refused without a look at the rest. -/
theorem handleCommon_crcMismatch (h : uartCrcOk request.byte = false) :
    handleCommon hw request reply = ⟨.crcMismatch, reply, []⟩ := by
  simp [handleCommon, h]

/-- Requests that are dispatched alike are answered alike. -/
theorem handleCommon_congr (hcrc : uartCrcOk request.byte = uartCrcOk request'.byte)
    (hheader : replyHeader request .empty = replyHeader request' .empty)
    (hdispatch : dispatch hw request (replyHeader request .empty) =
      dispatch hw request' (replyHeader request .empty)) :
    handleCommon hw request .empty = handleCommon hw request' .empty := by
  simp only [handleCommon, hcrc, hdispatch, ← hheader]

/-- The header of the reply repeats the function and answers the command. -/
theorem replyHeader_congr (h : AgreeBelow 3 request request') :
    replyHeader request reply = replyHeader request' reply := by
  simp only [replyHeader, h 1 (by omega), h 2 (by omega)]

/-- A request to a device that does not exist fails and touches nothing. -/
theorem dispatch_of_refusedAnyway (h : RefusedAnyway request) :
    Refused (dispatch hw request reply) := by
  rcases h with ⟨h1, ⟨hr | hw', ht⟩ | ⟨hc, ht⟩⟩ | ⟨h3, hr | hw'⟩
  · rw [dispatch_i2c h1, handleI2cFunc_read hr, ht]
    exact ⟨by simp, rfl⟩
  · rw [dispatch_i2c h1, handleI2cFunc_write hw', ht]
    exact ⟨by simp, rfl⟩
  · rw [dispatch_i2c h1, handleI2cFunc_config hc, ht]
    exact ⟨by simp, rfl⟩
  · simp [dispatch_mdio h3, handleMdioFunc, handleMdioRd, hr, Refused]
  · simp [dispatch_mdio h3, handleMdioFunc, handleMdioWr, hw', Refused, CMD_READ, CMD_WRITE]

/-- On hardware that does everything it is asked, every other handler succeeds. -/
theorem dispatch_idle (h : ¬ RefusedAnyway request)
    (hsome : handlers (request.byte 1) ≠ none) :
    (dispatch .idle request reply).ret = .success := by
  rw [dispatch]
  simp only [handlers] at hsome ⊢
  split_ifs at hsome ⊢ with h0 h1 h3
  · simp only [handleMmapFunc]
    split_ifs <;> rfl
  · simp only [RefusedAnyway, h1, true_and, not_or] at h
    by_cases hr : request.byte 2 = CMD_READ
    · obtain ⟨target, ht⟩ := Option.ne_none_iff_exists'.mp fun hn => h.1.1 ⟨Or.inl hr, hn⟩
      simp only [handleI2cFunc_read hr, ht]
      rfl
    · by_cases hw' : request.byte 2 = CMD_WRITE
      · obtain ⟨target, ht⟩ := Option.ne_none_iff_exists'.mp fun hn => h.1.1 ⟨Or.inr hw', hn⟩
        simp only [handleI2cFunc_write hw', ht]
        rfl
      · by_cases hc : request.byte 2 = CMD_CONFIG
        · obtain ⟨device, ht⟩ := Option.ne_none_iff_exists'.mp fun hn => h.1.2 ⟨hc, hn⟩
          simp only [handleI2cFunc_config hc, ht]
          rfl
        · simp only [handleI2cFunc_other hr hw' hc]
  · simp only [RefusedAnyway, h3, true_and, not_or] at h
    simp only [handleMdioFunc, if_neg h.2.1, if_neg h.2.2]
  · rfl
  · rfl
  · exact absurd rfl hsome

/-- A function without a handler has no arguments. -/
theorem argumentsEnd_of_unhandled (h : handlers (request.byte 1) = none) :
    argumentsEnd request = 3 := by
  have hvalue : valueBytes request = 0 := by
    rw [handlers] at h
    rw [valueBytes]
    split_ifs at h ⊢ <;> rfl
  rw [argumentsEnd, echoed_of_unhandled h, hvalue]

/-- The device of a refused request has been asked for by a valid command. -/
theorem RefusedAnyway.command (h : RefusedAnyway request) :
    validCommand (request.byte 2) = true := by
  have hcmd : request.byte 2 = CMD_READ ∨ request.byte 2 = CMD_WRITE ∨
      request.byte 2 = CMD_CONFIG := by
    rcases h with ⟨-, ⟨h, -⟩ | ⟨h, -⟩⟩ | ⟨-, h⟩
    · exact h.imp_right Or.inl
    · exact Or.inr (Or.inr h)
    · exact h.imp_right Or.inl
  rcases hcmd with h | h | h
  · rw [h]; rfl
  · rw [h]; rfl
  · rw [h]; rfl

/-- A byte with some bits flipped is another byte. -/
theorem xor_ne_self {c d : UInt8} (h : d ≠ 0) : c ^^^ d ≠ c := by
  intro heq
  have hxor := congrArg (c ^^^ ·) heq
  simp only [UInt8.xor_self, ← UInt8.xor_assoc, UInt8.zero_xor] at hxor
  exact h hxor

/-- Two requests that differ behind the declared length, inside the echoed arguments, get
different replies. -/
theorem echoes_past_length (hcmd : validCommand (request.byte 2) = true)
    (hcrc : uartCrcOk request.byte = true) (h4 : 4 ≤ request.length)
    (hlen : request.length < 3 + echoed request) (hw : Hardware) :
    ∃ request', AgreeBelow request.length request request' ∧
      handleCommon hw request .empty ≠ handleCommon hw request' .empty := by
  have hagree : AgreeBelow request.length request
      (request.withByte request.length (request.byte request.length ^^^ 1)) :=
    fun i hi => (Prot2Buffer.byte_withByte_of_ne hi.ne).symm
  refine ⟨_, hagree, fun heq => ?_⟩
  generalize hrequest' :
    request.withByte request.length (request.byte request.length ^^^ 1) = request' at *
  have hbyte : request'.byte request.length = request.byte request.length ^^^ 1 := by
    have hbound := (request.byte 0).toNat_lt
    rw [← hrequest', Prot2Buffer.byte_withByte_self (by rwa [Prot2Buffer.length])]
  have hechoed : echoed request = echoed request' := by
    simp only [echoed, i2cEchoed, hagree 1 (by omega), hagree 2 (by omega), hagree 3 (by omega)]
  have hout := congrArg (fun o : Prot2Outcome => o.reply.buff request.length) heq
  rw [handleCommon_echoes hw hcmd hcrc (by omega) hlen,
    handleCommon_echoes hw (hagree 2 (by omega) ▸ hcmd)
      (uartCrcOk_congr (by omega) hagree ▸ hcrc) (by omega) (hechoed ▸ hlen), hbyte] at hout
  exact xor_ne_self (by decide) hout.symm

/-- **Within the length**: the declared bytes decide everything, and a request that is too
short is refused, exactly where its checksum fails, where its arguments end in front of
the checksum, or where it asks for a device that does not exist and what is echoed lies
inside the declared bytes. -/
theorem withinLength_iff (h4 : 4 ≤ request.length) :
    WithinLength request ↔
      uartCrcOk request.byte = false ∨ argumentsEnd request < request.length ∨
        RefusedAnyway request ∧ 3 + echoed request ≤ request.length := by
  constructor
  · intro hwithin
    by_contra hnot
    simp only [not_or, not_and, Nat.not_lt, Nat.not_le, Bool.not_eq_false] at hnot
    obtain ⟨hcrc, hshort, hecho⟩ := hnot
    by_cases hrefused : RefusedAnyway request
    · obtain ⟨request', hagree, hne⟩ :=
        echoes_past_length hrefused.command hcrc h4 (hecho hrefused) .idle
      exact hne (hwithin.decided request' hagree .idle)
    · have hsome : handlers (request.byte 1) ≠ none := fun hn => by
        rw [argumentsEnd_of_unhandled hn] at hshort
        omega
      have hret : (handleCommon .idle request .empty).ret = .success := by
        rw [handleCommon_eq hcrc]
        exact dispatch_idle hrefused hsome
      exact (hwithin.refused hshort .idle).1 hret
  · rintro (hcrc | hfits | ⟨hrefused, hecho⟩)
    · refine ⟨fun request' hagree hw => ?_, fun _ hw => ?_⟩
      · rw [handleCommon_crcMismatch hcrc,
          handleCommon_crcMismatch (uartCrcOk_congr (by omega) hagree ▸ hcrc)]
      · rw [handleCommon_crcMismatch hcrc]
        exact ⟨by simp, rfl⟩
    · refine ⟨fun request' hagree hw => ?_, fun hshort => absurd hfits (Nat.not_lt.mpr hshort)⟩
      have hargs : AgreeBelow (argumentsEnd request) request request' := hagree.mono hfits.le
      refine handleCommon_congr (uartCrcOk_congr (by omega) hagree)
        (replyHeader_congr (hagree.mono (by omega))) (dispatch_congr (hargs.mono ?_) fun _ => hargs)
      exact Nat.le_add_right ..
    · refine ⟨fun request' hagree hw => ?_, fun _ hw => ?_⟩
      · exact handleCommon_congr (uartCrcOk_congr (by omega) hagree)
          (replyHeader_congr (hagree.mono (by omega)))
          (dispatch_congr (hagree.mono hecho) fun hnot => absurd hrefused hnot)
      · by_cases hcrc : uartCrcOk request.byte = true
        · rw [handleCommon_eq hcrc]
          exact dispatch_of_refusedAnyway hrefused
        · rw [handleCommon_crcMismatch (Bool.not_eq_true _ ▸ hcrc)]
          exact ⟨by simp, rfl⟩

/-- A ping takes no arguments. -/
theorem withinLength_ping : WithinLength pingRequest :=
  (withinLength_iff (by decide +kernel)).mpr (Or.inr (Or.inl (by decide +kernel)))

/-- A register write of four bytes: neither base nor offset nor value. -/
def shortWrite : Prot2Buffer := .ofBytes [4, 0x00, CMD_WRITE, 5]

/-- It is not refused: a register is written. -/
theorem not_withinLength : ¬ ∀ request : Prot2Buffer, 4 ≤ request.length →
    WithinLength request := by
  intro hall
  have hrefused := (hall shortWrite (by decide +kernel)).refused (by decide +kernel) .idle
  have hwritten : (handleCommon .idle shortWrite .empty).accesses = [.iowr 5 0 0] := by
    decide +kernel
  rw [Refused, hwritten] at hrefused
  exact absurd hrefused.2 (List.cons_ne_nil _ _)

end Muxponder
