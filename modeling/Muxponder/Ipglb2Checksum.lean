import Muxponder.Ipglb2NackBit

/-!
# The Checksum of an IPGLB2 Packet

`uart_calculate_crc` and `uart_crc_ok` of `ipglb_protocol_2.c` over the memory around a packet, with
the indices that they read. The length byte decides how far the loop goes and which byte is compared
at its end, and it may have any value: both are reckoned in `int`, where the bound of the loop may
be negative and then lets no turn happen, but the index is taken as it is.

Under a length byte that is not zero these are the `uartCalculateCrc` and `uartCrcOk` of the
handlers. Under zero the checksum is compared with the byte in front of the buffer. Such a request
comes about without anyone sending it: a packet that arrives while a request is being taken clears
the buffer the request stands in.

## Main results

* `uartCrcOkAt_run`: what `uart_crc_ok` returns and what it reads.
* `crcOk_inMemory`: where it is the check of the handlers.
* `crcOk_update`: no single byte can be changed behind the length.
* `checksumLaws_iff`: the packets whose checksum is a seal.
-/

namespace Muxponder

/-! ### The checksum in memory -/

/-- `buff[i]`, by the distance from the start of the packet; the index is noted behind those read
before. -/
def readByte (buff : ℤ → UInt8) (i : ℤ) : StateM (List ℤ) UInt8 := do
  modify fun read => read ++ [i]
  pure (buff i)

/-- `crc ^= buff[i]`. -/
def crcTurn (buff : ℤ → UInt8) (crc : UInt8) (i : ℕ) : StateM (List ℤ) UInt8 := do
  let b ← readByte buff i
  pure (crc ^^^ b)

/-- `uart_calculate_crc`, with the loop from 0 on as long as `i < (length - 1)`. -/
def uartCalculateCrcAt (buff : ℤ → UInt8) : StateM (List ℤ) UInt8 := do
  let length ← readByte buff 0
  (List.range ((length.toNat : ℤ) - 1).toNat).foldlM (crcTurn buff) 0

/-- `uart_crc_ok`. -/
def uartCrcOkAt (buff : ℤ → UInt8) : StateM (List ℤ) Bool := do
  let len ← readByte buff 0
  let crc ← uartCalculateCrcAt buff
  let last ← readByte buff ((len.toNat : ℤ) - 1)
  pure (crc == last)

/-- What `uart_calculate_crc` returns. -/
def packetCrc (buff : ℤ → UInt8) : UInt8 := ((uartCalculateCrcAt buff).run []).1

/-- What `uart_crc_ok` returns. -/
def crcOk (buff : ℤ → UInt8) : Bool := ((uartCrcOkAt buff).run []).1

/-- The indices that `uart_crc_ok` reads, in their order. -/
def crcReads (buff : ℤ → UInt8) : List ℤ := ((uartCrcOkAt buff).run []).2

/-- The length byte. -/
def declared (buff : ℤ → UInt8) : ℕ := (buff 0).toNat

/-- `buff[length - 1] = uart_calculate_crc(buff)`. -/
def sealPacket (buff : ℤ → UInt8) : ℤ → UInt8 :=
  Function.update buff (declared buff - 1) (packetCrc buff)

/-- A request in memory: its buffer, and anything in front of it and behind it. -/
def InMemory (request : Prot2Buffer) (buff : ℤ → UInt8) : Prop :=
  ∀ i < IPGLB2_MAX_BUFFER, buff i = request.byte i

/-- What a checksum is good for. Under a length from two on it seals the packet: the check passes on
what was sealed, fails when a single byte behind the length is changed, and depends on nothing from
the declared end on. Under any length the check stays in the buffer. -/
structure ChecksumLaws (buff : ℤ → UInt8) : Prop where
  passes : 2 ≤ declared buff → crcOk (sealPacket buff) = true
  detects : 2 ≤ declared buff → ∀ (i : ℤ) (c : UInt8), 1 ≤ i → i < declared buff →
    c ≠ sealPacket buff i → crcOk (Function.update (sealPacket buff) i c) = false
  ignores : 2 ≤ declared buff → ∀ other : ℤ → UInt8,
    (∀ i : ℤ, 0 ≤ i → i < declared buff → other i = buff i) → crcOk other = crcOk buff
  inside : ∀ i ∈ crcReads buff, 0 ≤ i ∧ i < IPGLB2_MAX_BUFFER

/-! ### What is returned and read -/

variable {buff other : ℤ → UInt8} {i : ℤ} {c : UInt8} {request : Prot2Buffer}

/-- What stands behind a part goes on with its result, and the indices that it has read. -/
theorem run_behind {α β : Type} {m : StateM (List ℤ) α} {f : α → StateM (List ℤ) β} {v : α}
    {read read' : List ℤ} (h : m.run read = (v, read')) :
    (m >>= f).run read = (f v).run read' := by
  rw [StateT.run_bind, h]
  rfl

/-- A byte is read at its index. -/
theorem readByte_run {read : List ℤ} : (readByte buff i).run read = (buff i, read ++ [i]) := rfl

/-- The loop of the checksum reads its indices one after the other. -/
theorem crcTurns_run {is : List ℕ} {crc : UInt8} {read : List ℤ} :
    (is.foldlM (crcTurn buff) crc).run read =
      (is.foldl (fun crc (i : ℕ) => crc ^^^ buff i) crc, read ++ is.map (↑)) := by
  induction is generalizing crc read with
  | nil => exact congrArg (crc, ·) (List.append_nil read).symm
  | cons i is ih =>
      have hturn : (crcTurn buff crc i).run read = (crc ^^^ buff i, read ++ [(i : ℤ)]) :=
        run_behind readByte_run
      rw [List.foldlM_cons, run_behind hturn, ih, List.foldl_cons, List.map_cons,
        List.append_assoc, List.singleton_append]

/-- `uart_calculate_crc` reads the length and all bytes in front of the last. -/
theorem uartCalculateCrcAt_run {read : List ℤ} : (uartCalculateCrcAt buff).run read =
    (uartCalculateCrc fun i : ℕ => buff i,
      read ++ 0 :: (List.range (declared buff - 1)).map (↑)) := by
  have hbound : ((declared buff : ℤ) - 1).toNat = declared buff - 1 := by omega
  rw [uartCalculateCrcAt, run_behind readByte_run, ← declared, hbound, crcTurns_run,
    List.append_assoc, List.singleton_append]
  rfl

/-- **What `uart_crc_ok` returns and reads.** -/
theorem uartCrcOkAt_run : (uartCrcOkAt buff).run [] =
    ((uartCalculateCrc fun i : ℕ => buff i) == buff (declared buff - 1),
      0 :: 0 :: ((List.range (declared buff - 1)).map (↑) ++ [(declared buff : ℤ) - 1])) := by
  rw [uartCrcOkAt, run_behind readByte_run, ← declared, run_behind uartCalculateCrcAt_run,
    run_behind readByte_run]
  rfl

/-- The checksum is that of the handlers. -/
theorem packetCrc_eq : packetCrc buff = uartCalculateCrc fun i : ℕ => buff i := by
  rw [packetCrc, uartCalculateCrcAt_run]

/-- The check compares it with the byte that the length points to. -/
theorem crcOk_eq : crcOk buff = (packetCrc buff == buff (declared buff - 1)) := by
  rw [crcOk, uartCrcOkAt_run, packetCrc_eq]

/-- The indices that are read. -/
theorem mem_crcReads : i ∈ crcReads buff ↔
    i = 0 ∨ (0 ≤ i ∧ i < declared buff - 1) ∨ i = declared buff - 1 := by
  have hloop : i ∈ (List.range (declared buff - 1)).map ((↑) : ℕ → ℤ) ↔
      0 ≤ i ∧ i < declared buff - 1 := by
    rw [List.mem_map]
    constructor
    · rintro ⟨k, hk, rfl⟩
      have hlt := List.mem_range.mp hk
      omega
    · rintro ⟨h0, hlt⟩
      exact ⟨i.toNat, List.mem_range.mpr (by omega), by omega⟩
  rw [crcReads, uartCrcOkAt_run]
  simp only [List.mem_cons, List.mem_append, hloop, List.not_mem_nil, or_false]
  tauto

/-- **`uart_crc_ok` stays in the buffer exactly under a length byte that is not zero.** -/
theorem crcReads_inside_iff :
    (∀ i ∈ crcReads buff, 0 ≤ i ∧ i < (IPGLB2_MAX_BUFFER : ℤ)) ↔ buff 0 ≠ 0 := by
  have hlt : declared buff < 256 := (buff 0).toNat_lt
  constructor
  · rintro hinside hzero
    have hlen : declared buff = 0 := by rw [declared, hzero, UInt8.toNat_zero]
    have hfront := hinside (declared buff - 1) (mem_crcReads.mpr (Or.inr (Or.inr rfl)))
    omega
  · rintro hne i hi
    have hlen : declared buff ≠ 0 := fun h => hne (UInt8.toNat_inj.mp h)
    have hcases := mem_crcReads.mp hi
    simp only [IPGLB2_MAX_BUFFER]
    omega

/-- Under a length byte that is not zero the check is that of the handlers. -/
theorem crcOk_eq_uartCrcOk (h : buff 0 ≠ 0) : crcOk buff = uartCrcOk fun i : ℕ => buff i := by
  have hpos : declared buff ≠ 0 := fun hzero => h (UInt8.toNat_inj.mp hzero)
  have hlast : ((declared buff - 1 : ℕ) : ℤ) = declared buff - 1 := by omega
  rw [crcOk_eq, packetCrc_eq, ← hlast]
  rfl

/-- **A request is checked in memory as the handlers check it.** -/
theorem crcOk_inMemory (hmem : InMemory request buff) (hlen : request.byte 0 ≠ 0) :
    crcOk buff = uartCrcOk request.byte := by
  have hzero : buff 0 = request.byte 0 := hmem 0 (by decide)
  have hpos : 0 < (request.byte 0).toNat :=
    Nat.pos_of_ne_zero fun h => hlen (UInt8.toNat_inj.mp h)
  rw [crcOk_eq_uartCrcOk (hzero ▸ hlen)]
  refine (uartCrcOk_of_same hpos fun i hi => ?_).symm
  exact (hmem i (hi.trans (request.byte 0).toNat_lt)).symm

/-! ### Packets that differ in one byte -/

/-- The checksum depends on the bytes in front of the last. -/
theorem packetCrc_congr (hlen : other 0 = buff 0)
    (h : ∀ i : ℕ, i < declared buff - 1 → other i = buff i) : packetCrc other = packetCrc buff := by
  rw [packetCrc_eq, packetCrc_eq, uartCalculateCrc, uartCalculateCrc, Int.natCast_zero, hlen]
  refine List.foldl_ext _ _ _ fun crc i hi => ?_
  rw [h i (List.mem_range.mp hi)]

/-- The last byte does not enter the checksum. -/
theorem packetCrc_update_last (h2 : 2 ≤ declared buff) :
    packetCrc (Function.update buff (declared buff - 1) c) = packetCrc buff := by
  refine packetCrc_congr (Function.update_of_ne (by omega) c buff) fun i hi => ?_
  have hne : (i : ℤ) ≠ declared buff - 1 := by omega
  exact Function.update_of_ne hne c buff

/-- A byte in front of the last enters it with the bits in which it was changed. -/
theorem packetCrc_update_front (h1 : 1 ≤ i) (hi : i < declared buff - 1) :
    packetCrc (Function.update buff i c) = packetCrc buff ^^^ (buff i ^^^ c) := by
  obtain ⟨k, rfl⟩ := Int.eq_ofNat_of_zero_le (show 0 ≤ i by omega)
  have hlen : Function.update buff (k : ℤ) c (0 : ℕ) = buff (0 : ℕ) :=
    Function.update_of_ne (by omega) c buff
  rw [packetCrc_eq, packetCrc_eq, uartCalculateCrc, uartCalculateCrc, hlen]
  refine foldl_xor_flip (show k < (buff (0 : ℕ)).toNat - 1 from ?_) ?_ fun j hj => ?_
  · have hlt : (k : ℤ) < declared buff - 1 := hi
    rw [declared] at hlt
    simp only [Int.natCast_zero]
    omega
  · rw [Function.update_self, ← UInt8.xor_assoc, UInt8.xor_self, UInt8.zero_xor]
  · have hne : (j : ℤ) ≠ k := by omega
    exact Function.update_of_ne hne c buff

/-- Different bytes differ in some bit. -/
theorem xor_ne_zero {b : UInt8} (h : c ≠ b) : b ^^^ c ≠ 0 := by
  intro hzero
  have hxor := congrArg (b ^^^ ·) hzero
  simp only [← UInt8.xor_assoc, UInt8.xor_self, UInt8.zero_xor, UInt8.xor_zero] at hxor
  exact h hxor

/-- **No single byte behind the length can be changed** without the check failing: the last byte
changes what is compared, and any other changes the checksum. -/
theorem crcOk_update (hok : crcOk buff = true) (h1 : 1 ≤ i) (hi : i < declared buff)
    (hc : c ≠ buff i) : crcOk (Function.update buff i c) = false := by
  have hlen : declared (Function.update buff i c) = declared buff :=
    congrArg UInt8.toNat (Function.update_of_ne (by omega) c buff)
  have hsum : packetCrc buff = buff (declared buff - 1) := by
    rw [crcOk_eq] at hok
    exact beq_iff_eq.mp hok
  rw [crcOk_eq, hlen, beq_eq_false_iff_ne]
  by_cases hlast : i = declared buff - 1
  · subst hlast
    rw [packetCrc_update_last (by omega), Function.update_self, hsum]
    exact hc.symm
  · rw [packetCrc_update_front h1 (by omega), Function.update_of_ne (Ne.symm hlast), hsum]
    exact xor_ne_self (xor_ne_zero hc)

/-! ### The laws -/

/-- Sealing a packet leaves its length. -/
theorem declared_sealPacket (h2 : 2 ≤ declared buff) :
    declared (sealPacket buff) = declared buff :=
  congrArg UInt8.toNat (Function.update_of_ne (by omega) _ buff)

/-- A sealed packet passes the check. -/
theorem crcOk_sealPacket (h2 : 2 ≤ declared buff) : crcOk (sealPacket buff) = true := by
  rw [crcOk_eq, declared_sealPacket h2, sealPacket, packetCrc_update_last h2, Function.update_self]
  exact beq_self_eq_true _

/-- The check depends on the bytes that the length declares. -/
theorem crcOk_congr (h2 : 2 ≤ declared buff)
    (h : ∀ i : ℤ, 0 ≤ i → i < declared buff → other i = buff i) : crcOk other = crcOk buff := by
  have hzero : other 0 = buff 0 := h 0 (by omega) (by omega)
  have hlen : declared other = declared buff := congrArg UInt8.toNat hzero
  rw [crcOk_eq, crcOk_eq, hlen, h _ (by omega) (by omega),
    packetCrc_congr hzero fun i hi => h i (by omega) (by omega)]

/-- **The packets whose checksum is a seal**: all but those with a length byte of zero, whose check
reads in front of the buffer. -/
theorem checksumLaws_iff (buff : ℤ → UInt8) : ChecksumLaws buff ↔ buff 0 ≠ 0 := by
  constructor
  · intro hlaws
    exact crcReads_inside_iff.mp hlaws.inside
  · intro hne
    refine ⟨crcOk_sealPacket, fun h2 i c h1 hi hc => ?_, fun h2 other h => crcOk_congr h2 h,
      crcReads_inside_iff.mpr hne⟩
    exact crcOk_update (crcOk_sealPacket h2) h1 (declared_sealPacket h2 ▸ hi) hc

/-! ### A request without a length -/

/-- A ping is received and taken; another one is received before it is handled. -/
theorem clearedPing_exec :
    (prot2Machine.exec (prot2Init .slave fun _ => ByteBuffer.zero)
      (arrive (pingPacket 0) ++ .service :: arrive (pingPacket 10) ++ [.service])).map
        (fun r => r.2.getLast?) =
    some (some (.handed .buff1 ByteBuffer.zero)) := rfl

/-- **A request is handed over cleared** where another packet arrived before it was handled, and its
check reads in front of the buffer. -/
theorem checksumLaws_cleared : ∃ h s,
    prot2Machine.Run (prot2Init .slave fun _ => ByteBuffer.zero) h s ∧
    (.buff1, ByteBuffer.zero) ∈ Prot2History.handed h ∧
    ∀ buff, InMemory ByteBuffer.zero buff → -1 ∈ crcReads buff ∧ ¬ ChecksumLaws buff := by
  obtain ⟨⟨s, os⟩, hexec, hlast⟩ := Option.map_eq_some_iff.mp clearedPing_exec
  obtain ⟨h, hr, -, hos⟩ := Machine.exec_eq_some_iff.mp hexec
  have hmem := List.mem_of_getLast? hlast
  rw [← hos, List.mem_map] at hmem
  obtain ⟨e, he, hobs⟩ := hmem
  refine ⟨h, s, hr, List.mem_filterMap.mpr ⟨e, he, ?_⟩, fun buff hbuff => ?_⟩
  · rw [hobs]
  · have hzero : buff 0 = 0 := hbuff 0 (by decide)
    have hlen : declared buff = 0 := by rw [declared, hzero, UInt8.toNat_zero]
    have hread : -1 ∈ crcReads buff := mem_crcReads.mpr (Or.inr (Or.inr (by omega)))
    refine ⟨hread, fun hlaws => ?_⟩
    have hinside := (hlaws.inside (-1) hread).1
    omega

end Muxponder
