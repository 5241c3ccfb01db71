import Mathlib.Tactic.IntervalCases
import Muxponder.Ipglb2Reply

/-!
# The Memory Map of the IPGLB2 Protocol

`handle_mmap_func` puts the base, the offset and the value together from four bytes each, the
lowest first, and takes the value of a read apart again. What it does with the three numbers is left
to `handle_mem_rd` and `handle_mem_wr`, which are weak functions that a project overrides, so it is
told here for any of them.

The reply to a read has the function and the command of a write: sent back as a request, it writes
the value that was read.

## Main results

* `word32_of_littleEndian`: four bytes are the number that they are made of.
* `mmap_codec`: what is written is what the request encodes, and what is read is what the reply
  encodes.
-/

namespace Muxponder

open Prot2Reply

/-! ### The handler over any memory map -/

/-- The two functions that a project overrides. -/
structure MemoryMap where
  memRd : UInt32 → UInt32 → RetCode × UInt32 × List Access
  memWr : UInt32 → UInt32 → UInt32 → RetCode × List Access

/-- Those of the card. -/
def cardMap (hw : Hardware) : MemoryMap := ⟨handleMemRd hw, handleMemWr⟩

namespace MemoryMap

/-- `handle_mmap_func`. -/
def handleMmapFunc (map : MemoryMap) (request : Prot2Buffer) (reply : Prot2Reply) : Prot2Outcome :=
  let base := request.word32 3
  let offset := request.word32 7
  let reply := reply.echo request 3 8
  if request.byte 2 = CMD_READ then
    let (_, value, accesses) := map.memRd base offset
    let reply := (((reply.push value.toUInt8).push (value >>> 8).toUInt8).push
      (value >>> 16).toUInt8).push (value >>> 24).toUInt8
    ⟨.success, reply.setLength.setCrc, accesses⟩
  else if request.byte 2 = CMD_WRITE then
    let (_, accesses) := map.memWr base offset (request.word32 11)
    ⟨.success, reply.setLength.setCrc, accesses⟩
  else ⟨.success, reply.setLength.setCrc, []⟩

/-- `handle_common` of a request for that function. -/
def handleCommon (map : MemoryMap) (request : Prot2Buffer) : Prot2Outcome :=
  if uartCrcOk request.byte then
    let o := map.handleMmapFunc request (replyHeader request .empty)
    let reply := if o.ret ≠ .success then o.reply.orCommand OPCODE_NACK else o.reply
    { o with reply := reply.setCrc }
  else ⟨.crcMismatch, .empty, []⟩

end MemoryMap

/-- The handler never fails. -/
theorem handleMmapFunc_ret (map : MemoryMap) (request : Prot2Buffer) (reply : Prot2Reply) :
    (map.handleMmapFunc request reply).ret = .success := by
  rw [MemoryMap.handleMmapFunc]
  split_ifs <;> rfl

/-- On the card it is the handler of the function 0. -/
theorem handleCommon_cardMap (hw : Hardware) {request : Prot2Buffer} (h : request.byte 1 = 0x00) :
    handleCommon hw request .empty = (cardMap hw).handleCommon request := by
  have hdispatch : dispatch hw request (replyHeader request .empty) =
      (cardMap hw).handleMmapFunc request (replyHeader request .empty) := by
    rw [dispatch, h]
    rfl
  rw [handleCommon, MemoryMap.handleCommon, hdispatch]

/-! ### Bytes of a word -/

/-- The byte of a word with an index, the lowest first. -/
def wordByte (w : UInt32) (k : ℕ) : UInt8 := UInt8.ofNat (w.toNat / 256 ^ k)

/-- The bytes of a word. -/
def littleEndian (w : UInt32) : List UInt8 := (List.range 4).map (wordByte w)

variable {request : Prot2Buffer} {w base offset value : UInt32} {i : ℕ}

/-- Two bytes put together. -/
theorem word16_toNat (request : Prot2Buffer) (i : ℕ) : (request.word16 i).toNat =
    256 * (request.byte (i + 1)).toNat + (request.byte i).toNat := by
  have hlow := (request.byte i).toNat_lt
  have hhigh := (request.byte (i + 1)).toNat_lt
  have hshift : ((request.byte (i + 1)).toUInt16 <<< 8).toNat =
      (request.byte (i + 1)).toNat <<< 8 := by
    have h8 : (8 : UInt16).toNat % 16 = 8 := rfl
    rw [UInt16.toNat_shiftLeft, h8, UInt8.toNat_toUInt16, Nat.shiftLeft_eq,
      Nat.mod_eq_of_lt (by omega)]
  rw [Prot2Buffer.word16, UInt16.toNat_or, hshift, UInt8.toNat_toUInt16,
    ← Nat.shiftLeft_add_eq_or_of_lt hlow, Nat.shiftLeft_eq]
  omega

/-- Four bytes put together. -/
theorem word32_toNat (request : Prot2Buffer) (i : ℕ) : (request.word32 i).toNat =
    65536 * (request.word16 (i + 2)).toNat + (request.word16 i).toNat := by
  have hlow := (request.word16 i).toNat_lt
  have hhigh := (request.word16 (i + 2)).toNat_lt
  have hshift : ((request.word16 (i + 2)).toUInt32 <<< 16).toNat =
      (request.word16 (i + 2)).toNat <<< 16 := by
    have h16 : (16 : UInt32).toNat % 32 = 16 := rfl
    rw [UInt32.toNat_shiftLeft, h16, UInt16.toNat_toUInt32, Nat.shiftLeft_eq,
      Nat.mod_eq_of_lt (by omega)]
  rw [Prot2Buffer.word32, UInt32.toNat_or, hshift, UInt16.toNat_toUInt32,
    ← Nat.shiftLeft_add_eq_or_of_lt hlow, Nat.shiftLeft_eq]
  omega

/-- **Four bytes are the number they are made of.** -/
theorem word32_of_littleEndian (h : ∀ k < 4, request.byte (i + k) = wordByte w k) :
    request.word32 i = w := by
  have hw := w.toNat_lt
  have hbyte : ∀ k, (wordByte w k).toNat = w.toNat / 256 ^ k % 256 := fun k => UInt8.toNat_ofNat'
  have h0 : request.byte i = wordByte w 0 := h 0 (by omega)
  have h1 : request.byte (i + 1) = wordByte w 1 := h 1 (by omega)
  have h2 : request.byte (i + 2) = wordByte w 2 := h 2 (by omega)
  have h3 : request.byte (i + 2 + 1) = wordByte w 3 := h 3 (by omega)
  apply UInt32.toNat_inj.mp
  rw [word32_toNat, word16_toNat, word16_toNat, h0, h1, h2, h3, hbyte, hbyte, hbyte, hbyte]
  omega

/-- A byte taken off by a shift. -/
theorem toUInt8_shiftRight {n : UInt32} {k : ℕ} (hn : n.toNat = 8 * k) (hk : k < 4) :
    (w >>> n).toUInt8 = wordByte w k := by
  apply UInt8.toNat_inj.mp
  have hmod : n.toNat % 32 = 8 * k := by omega
  rw [wordByte, UInt8.toNat_ofNat', UInt32.toNat_toUInt8, UInt32.toNat_shiftRight, hmod,
    Nat.shiftRight_eq_div_pow, Nat.pow_mul]

/-! ### Requests and replies -/

/-- A request for a register of the memory map, with a checksum that holds. -/
structure MmapRequest (request : Prot2Buffer) (command : UInt8) (base offset : UInt32) : Prop where
  function : request.byte 1 = 0x00
  command : request.byte 2 = command
  base : ∀ k < 4, request.byte (3 + k) = wordByte base k
  offset : ∀ k < 4, request.byte (7 + k) = wordByte offset k
  checksum : uartCrcOk request.byte = true

/-- A request to read it. -/
structure MmapRead (request : Prot2Buffer) (base offset : UInt32) : Prop extends
    MmapRequest request CMD_READ base offset where
  length : request.length = 12

/-- A request to write it. -/
structure MmapWrite (request : Prot2Buffer) (base offset value : UInt32) : Prop extends
    MmapRequest request CMD_WRITE base offset where
  length : request.length = 16
  value : ∀ k < 4, request.byte (11 + k) = wordByte value k

/-- What is done with a request whose checksum holds. -/
theorem handleCommon_of_checksum (map : MemoryMap) (h : uartCrcOk request.byte = true) :
    map.handleCommon request =
      { map.handleMmapFunc request (replyHeader request .empty) with
        reply := (map.handleMmapFunc request (replyHeader request .empty)).reply.setCrc } := by
  simp only [MemoryMap.handleCommon, h, if_true, handleMmapFunc_ret, ne_eq, not_true_eq_false,
    if_false]

/-- **A write has the three numbers of its request.** -/
theorem handleCommon_write (map : MemoryMap) (h : MmapWrite request base offset value) :
    (map.handleCommon request).ret = .success ∧
      (map.handleCommon request).accesses = (map.memWr base offset value).2 := by
  have hread : ¬ request.byte 2 = CMD_READ := by
    rw [h.command]
    decide
  rw [handleCommon_of_checksum map h.checksum, MemoryMap.handleMmapFunc, if_neg hread,
    if_pos h.command, word32_of_littleEndian h.base, word32_of_littleEndian h.offset,
    word32_of_littleEndian h.value]
  exact ⟨rfl, rfl⟩

/-- The reply to a read, without its length and its checksum. -/
def mmapReadReply (request : Prot2Buffer) (value : UInt32) : Prot2Reply :=
  (((((replyHeader request .empty).echo request 3 8).push value.toUInt8).push
    (value >>> 8).toUInt8).push (value >>> 16).toUInt8).push (value >>> 24).toUInt8

/-- What a read does. -/
theorem handleCommon_read (map : MemoryMap) (h : MmapRead request base offset) :
    map.handleCommon request = ⟨.success,
      (mmapReadReply request (map.memRd base offset).2.1).setLength.setCrc.setCrc,
      (map.memRd base offset).2.2⟩ := by
  rw [handleCommon_of_checksum map h.checksum, MemoryMap.handleMmapFunc, if_pos h.command,
    word32_of_littleEndian h.base, word32_of_littleEndian h.offset]
  rfl

/-- **The bytes of the reply to a read**: the header of a write, the bytes of the address, and those
of the value. -/
theorem readReply_spec (h : MmapRead request base offset) (value : UInt32) :
    (mmapReadReply request value).ptr = 15 ∧ (mmapReadReply request value).buff 1 = 0x00 ∧
      (mmapReadReply request value).buff 2 = CMD_WRITE ∧
      (∀ k < 4, (mmapReadReply request value).buff (3 + k) = wordByte base k) ∧
      (∀ k < 4, (mmapReadReply request value).buff (7 + k) = wordByte offset k) ∧
      ∀ k < 4, (mmapReadReply request value).buff (11 + k) = wordByte value k := by
  have hcommand : replyCommand (request.byte 2) = some CMD_WRITE := by
    rw [h.command]
    rfl
  have hheader : replyHeader request .empty =
      ((empty.push 0).push (request.byte 1)).push CMD_WRITE := by
    simp only [replyHeader, hcommand]
  obtain ⟨e, he⟩ : ∃ e, (replyHeader request .empty).echo request 3 8 = e := ⟨_, rfl⟩
  have hptr : e.ptr = 11 := by
    rw [← he, hheader]
    rfl
  have hfront : ∀ j < 11, (mmapReadReply request value).buff j = e.buff j := by
    intro j hj
    rw [mmapReadReply, he, push_of_ne (by simp; omega), push_of_ne (by simp; omega),
      push_of_ne (by simp; omega), push_of_ne (by omega)]
  have hecho : ∀ k < 8, e.buff (3 + k) = request.byte (3 + k) := by
    intro k hk
    rw [← he, hheader]
    exact echo_of_lt hk
  have hbefore : ∀ j < 3, e.buff j = (replyHeader request .empty).buff j := by
    intro j hj
    rw [← he]
    refine echo_of_lt_ptr ?_
    rw [hheader]
    exact hj
  refine ⟨?_, ?_, ?_, fun k hk => ?_, fun k hk => ?_, ?_⟩
  · rw [mmapReadReply, he]
    simp [hptr]
  · rw [hfront 1 (by omega), hbefore 1 (by omega), hheader, h.function]
    rfl
  · rw [hfront 2 (by omega), hbefore 2 (by omega), hheader]
    rfl
  · rw [hfront _ (by omega), hecho k (by omega), h.base k hk]
  · have hindex : 7 + k = 3 + (4 + k) := by omega
    rw [hindex, hfront _ (by omega), hecho _ (by omega), ← hindex, h.offset k hk]
  · have hlow : value.toUInt8 = wordByte value 0 := by
      rw [wordByte, Nat.pow_zero, Nat.div_one]
      rfl
    have hshift : ∀ {n : UInt32} {k : ℕ}, n.toNat = 8 * k → k < 4 →
        (value >>> n).toUInt8 = wordByte value k := toUInt8_shiftRight
    rw [mmapReadReply, he, hlow, hshift (k := 1) rfl (by omega), hshift (k := 2) rfl (by omega),
      hshift (k := 3) rfl (by omega)]
    intro k hk
    interval_cases k <;> simp [push, hptr]

/-- Its length and its checksum. -/
theorem sealed_spec {r : Prot2Reply} (hptr : r.ptr = 15) :
    r.setLength.setCrc.setCrc.buff 0 = 16 ∧
      (∀ j, 0 < j → j < 15 → r.setLength.setCrc.setCrc.buff j = r.buff j) ∧
      uartCrcOk r.setLength.setCrc.setCrc.buff = true := by
  have hlen : r.setLength.setCrc.buff 0 = 16 := by
    rw [setCrc_of_ne (by rw [setLength_ptr]; omega), setLength_zero, hptr]
    rfl
  refine ⟨?_, fun j hj hj' => ?_, setCrc_ok ?_ (by simp [hptr])⟩
  · rw [setCrc_of_ne (by rw [setCrc_ptr, setLength_ptr]; omega), hlen]
  · rw [setCrc_of_ne (by rw [setCrc_ptr, setLength_ptr]; omega),
      setCrc_of_ne (by rw [setLength_ptr]; omega), setLength_of_pos hj]
  · rw [hlen, setCrc_ptr, setLength_ptr, hptr]
    rfl

/-- The packet that is sent, as a request. -/
theorem byte_ofBytes_sent {o : Prot2Outcome} (hret : o.ret ≠ .crcMismatch)
    (hlen : o.reply.buff 0 = 16) {j : ℕ} (hj : j < 16) :
    (Prot2Buffer.ofBytes o.sent).byte j = o.reply.buff j := by
  have hsize : (o.reply.buff 0).toNat = 16 := by
    rw [hlen]
    rfl
  have hmax : IPGLB2_MAX_BUFFER = 256 := rfl
  rw [Prot2Buffer.byte_ofBytes (by omega), Prot2Outcome.sent, if_neg hret, hsize]
  simp [List.getD_eq_getElem?_getD, hj]

/-- **The reply to a read is a write** of the value that was read. -/
theorem sent_is_write (map : MemoryMap) (h : MmapRead request base offset) :
    MmapWrite (.ofBytes (map.handleCommon request).sent) base offset
      (map.memRd base offset).2.1 := by
  obtain ⟨hptr, hfunction, hcommand, hbase, hoffset, hvalue⟩ :=
    readReply_spec h (map.memRd base offset).2.1
  obtain ⟨hlen, hsame, hcrc⟩ := sealed_spec hptr
  have hrun := handleCommon_read map h
  have hbyte : ∀ j < 16, (Prot2Buffer.ofBytes (map.handleCommon request).sent).byte j =
      (mmapReadReply request (map.memRd base offset).2.1).setLength.setCrc.setCrc.buff j := by
    intro j hj
    rw [hrun]
    exact byte_ofBytes_sent (by simp) hlen hj
  have hmiddle : ∀ j, 0 < j → j < 15 →
      (Prot2Buffer.ofBytes (map.handleCommon request).sent).byte j =
        (mmapReadReply request (map.memRd base offset).2.1).buff j := fun j hj hj' =>
    (hbyte j (by omega)).trans (hsame j hj hj')
  have hlength : (Prot2Buffer.ofBytes (map.handleCommon request).sent).byte 0 = 16 :=
    (hbyte 0 (by omega)).trans hlen
  have hsum : uartCrcOk (Prot2Buffer.ofBytes (map.handleCommon request).sent).byte = true := by
    have hsize : ((Prot2Buffer.ofBytes (map.handleCommon request).sent).byte 0).toNat = 16 := by
      rw [hlength]
      rfl
    rw [uartCrcOk_of_same (by omega) fun j hj => hbyte j (by omega)]
    exact hcrc
  exact {
    function := (hmiddle 1 (by omega) (by omega)).trans hfunction
    command := (hmiddle 2 (by omega) (by omega)).trans hcommand
    base := fun k hk => (hmiddle _ (by omega) (by omega)).trans (hbase k hk)
    offset := fun k hk => (hmiddle _ (by omega) (by omega)).trans (hoffset k hk)
    checksum := hsum
    length := by
      rw [Prot2Buffer.length, hlength]
      rfl
    value := fun k hk => (hmiddle _ (by omega) (by omega)).trans (hvalue k hk) }

/-- The bytes that are sent in reply to a read. -/
theorem sent_of_read (map : MemoryMap) (h : MmapRead request base offset) :
    ∃ crc, (map.handleCommon request).sent = [16, 0x00, CMD_WRITE] ++ littleEndian base ++
      littleEndian offset ++ littleEndian (map.memRd base offset).2.1 ++ [crc] := by
  obtain ⟨r, hr⟩ : ∃ r, mmapReadReply request (map.memRd base offset).2.1 = r := ⟨_, rfl⟩
  obtain ⟨hptr, hfunction, hcommand, hbase, hoffset, hvalue⟩ :=
    readReply_spec h (map.memRd base offset).2.1
  rw [hr] at hptr hfunction hcommand hbase hoffset hvalue
  obtain ⟨hlen, hsame, -⟩ := sealed_spec hptr
  have hsize : (r.setLength.setCrc.setCrc.buff 0).toNat = 16 := by
    rw [hlen]
    rfl
  have hword : ∀ {w : UInt32} {i : ℕ}, 0 < i → i < 12 → (∀ k < 4, r.buff (i + k) = wordByte w k) →
      (List.range 4).map (r.setLength.setCrc.setCrc.buff ∘ (i + ·)) = littleEndian w := by
    intro w i hpos hi hw
    refine List.map_congr_left fun k hk => ?_
    have hk := List.mem_range.mp hk
    exact (hsame (i + k) (by omega) (by omega)).trans (hw k hk)
  have hrange : List.range 16 = [0, 1, 2] ++ (List.range 4).map (3 + ·) ++
      (List.range 4).map (7 + ·) ++ (List.range 4).map (11 + ·) ++ [15] := by decide
  refine ⟨r.setLength.setCrc.setCrc.buff 15, ?_⟩
  rw [handleCommon_read map h, Prot2Outcome.sent, if_neg (by simp), hr, hsize, hrange]
  simp only [List.map_append, List.map_map, hword (i := 3) (by omega) (by omega) hbase,
    hword (i := 7) (by omega) (by omega) hoffset, hword (i := 11) (by omega) (by omega) hvalue]
  simp only [List.map_cons, List.map_nil, hlen, hsame 1 (by omega) (by omega),
    hsame 2 (by omega) (by omega), hfunction, hcommand]

/-- **The codec of the memory map**, whatever the two functions do: a write is called with exactly
the numbers that its request encodes, and the reply to a read has 16 bytes, with the address and
the value. As a request that reply is a write, and writes the value that was read. -/
theorem mmap_codec :
    (∀ hw request, request.byte 1 = 0x00 →
      handleCommon hw request .empty = (cardMap hw).handleCommon request) ∧
    (∀ (map : MemoryMap) base offset value request, MmapWrite request base offset value →
      (map.handleCommon request).ret = .success ∧
        (map.handleCommon request).accesses = (map.memWr base offset value).2) ∧
    ∀ (map : MemoryMap) base offset request, MmapRead request base offset →
      (map.handleCommon request).accesses = (map.memRd base offset).2.2 ∧
      (∃ crc, (map.handleCommon request).sent = [16, 0x00, CMD_WRITE] ++ littleEndian base ++
        littleEndian offset ++ littleEndian (map.memRd base offset).2.1 ++ [crc]) ∧
      (map.handleCommon (.ofBytes (map.handleCommon request).sent)).accesses =
        (map.memWr base offset (map.memRd base offset).2.1).2 := by
  refine ⟨fun hw request h => handleCommon_cardMap hw h,
    fun map base offset value request h => handleCommon_write map h,
    fun map base offset request h => ⟨?_, sent_of_read map h, ?_⟩⟩
  · rw [handleCommon_read map h]
  · exact (handleCommon_write map (sent_is_write map h)).2

/-- A write of a word to a register of the card. -/
def mmapWriteWord : Prot2Buffer :=
  .ofBytes [16, 0x00, CMD_WRITE, 0x00, 0x10, 0x20, 0x08, 0x04, 0, 0, 0, 0xEF, 0xBE, 0xAD, 0xDE,
    0x0F]

/-- It is a well-formed write. -/
theorem writeWord_mmapWrite : MmapWrite mmapWriteWord 0x08201000 4 0xDEADBEEF where
  function := by decide +kernel
  command := by decide +kernel
  base := by decide +kernel
  offset := by decide +kernel
  checksum := by decide +kernel
  length := by decide +kernel
  value := by decide +kernel

/-- It comes to the register. -/
theorem mmap_codec_writeWord :
    (handleCommon .idle mmapWriteWord .empty).accesses = [.iowr 0x08201000 4 0xDEADBEEF] := by
  rw [mmap_codec.1 .idle mmapWriteWord writeWord_mmapWrite.function]
  exact (mmap_codec.2.1 (cardMap .idle) _ _ _ mmapWriteWord writeWord_mmapWrite).2

end Muxponder
