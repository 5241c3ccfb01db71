import Mathlib.Tactic.NormNum
import Muxponder.KursRemoteUpdate
import Muxponder.Lib.Crc
import Muxponder.Lib.Region

/-!
# The Check of the Remote Image

Before the card boots the image that was loaded, `ValidateFlashImage` compares two checksums of
its header with those that `FlashCalcCRC32` computes from the flash. The bytes are copied in chunks
of 256, and the remaining count is a signed number that comes to 0.

The length of the data is an unsigned number of the header. A length from `2 ^ 31` on is a negative
count: its first copy has that many bytes, behind the end of the buffer it is made to. A length that
fits in an `int` is counted down, but nothing compares it with the size of the region.

## Main results

* `flashCalcCrc32_refines`: the chunks are a plain CRC-32.
* `validateFlashImage_iff`: when the check stays in the region of the image.
-/

namespace Muxponder

open Crc Memory

/-! ### The checksum -/

/-- `FLASH_BUFFER_LENGTH`. -/
def FLASH_BUFFER_LENGTH : Int32 := 256

/-- The body of the innermost loop of `FlashCalcCRC32`. -/
def crcShift (crcval : UInt32) : UInt32 :=
  if crcval &&& 0x00000001 ≠ 0 then (crcval >>> 1) ^^^ 0xEDB88320 else crcval >>> 1

/-- One byte of the buffer, with the innermost loop. -/
def crcByte (crcval : UInt32) (cval : UInt8) : UInt32 := crcShift^[8] (crcval ^^^ cval.toUInt32)

/-- The loop over the buffer, which counts the bytes down. -/
def crcBuffer (crcval : UInt32) (bytes : Int32) : List UInt8 → UInt32 × Int32
  | [] => (crcval, bytes)
  | cval :: buf => crcBuffer (crcByte crcval cval) (bytes - 1) buf

/-- The bytes of the next chunk. -/
def flashCopyLength (bytes : Int32) : Int32 :=
  if FLASH_BUFFER_LENGTH < bytes then FLASH_BUFFER_LENGTH else bytes

/-- What the loop over the buffer leaves to count. -/
theorem crcBuffer_count (crcval : UInt32) (bytes : Int32) (buf : List UInt8) :
    (crcBuffer crcval bytes buf).2 = bytes - Int32.ofNat buf.length := by
  induction buf generalizing crcval bytes with
  | nil => simp [crcBuffer]
  | cons cval buf ih =>
      have hone : Int32.ofNat 1 = 1 := rfl
      rw [crcBuffer, ih, List.length_cons, Int32.ofNat_add, hone, Int32.sub_sub, Int32.add_comm]

/-- And what it makes of the register. -/
theorem crcBuffer_crcval (crcval : UInt32) (bytes : Int32) (buf : List UInt8) :
    (crcBuffer crcval bytes buf).1 = buf.foldl crcByte crcval := by
  induction buf generalizing crcval bytes with
  | nil => rfl
  | cons cval buf ih => rw [crcBuffer, ih, List.foldl_cons]

/-- The next chunk of a count that is not negative. -/
theorem flashCopyLength_ofNat {n : ℕ} (hn : n < 2 ^ 31) :
    flashCopyLength (Int32.ofNat n) = Int32.ofNat (min 256 n) := by
  have hlt : FLASH_BUFFER_LENGTH < Int32.ofNat n ↔ 256 < n := by
    rw [Int32.lt_iff_toInt_lt, Int32.toInt_ofNat_of_lt hn]
    change (256 : ℤ) < n ↔ _
    omega
  rw [flashCopyLength]
  by_cases h : 256 < n
  · rw [if_pos (hlt.mpr h), Nat.min_eq_left h.le]
    rfl
  · rw [if_neg (mt hlt.mp h), Nat.min_eq_right (by omega)]

/-- A chunk of a negative count is far too large. -/
theorem flashCopyLength_neg {bytes : Int32} (h : bytes < 0) :
    2 ^ 31 ≤ (flashCopyLength bytes).toUInt32.toNat := by
  have hneg : bytes.toInt < 0 := by simpa [Int32.lt_iff_toInt_lt] using h
  have hall : flashCopyLength bytes = bytes := by
    rw [flashCopyLength, if_neg]
    rw [Int32.lt_iff_toInt_lt]
    change ¬ (256 : ℤ) < _
    omega
  have hsign : bytes.toInt = bytes.toBitVec.toInt := rfl
  rw [hsign, BitVec.toInt_neg_iff] at hneg
  rw [hall]
  change _ ≤ bytes.toBitVec.toNat
  omega

/-- A copy that fits in the buffer leaves less to count. -/
theorem crcBuffer_decreases {m : Mem} {flash_addr crcval : UInt32} {bytes : Int32}
    (h0 : bytes ≠ 0) (hfits : (flashCopyLength bytes).toUInt32.toNat ≤ 256) :
    (crcBuffer crcval bytes
      (m.bytes flash_addr (flashCopyLength bytes).toUInt32.toNat)).2.toNatClampNeg <
        bytes.toNatClampNeg := by
  have hpos : 0 ≤ bytes := by
    by_contra hneg
    have hhuge := flashCopyLength_neg (Int32.not_le.mp hneg)
    omega
  obtain ⟨n, hn, rfl⟩ : ∃ n, n < 2 ^ 31 ∧ bytes = Int32.ofNat n :=
    ⟨_, bytes.toNatClampNeg_lt, (Int32.ofNat_toNatClampNeg _ hpos).symm⟩
  have hn0 : n ≠ 0 := by
    rintro rfl
    exact h0 rfl
  have hcopy : (Int32.ofNat (min 256 n)).toUInt32.toNat = min 256 n := by
    rw [Int32.toUInt32_ofNat', UInt32.toNat_ofNat_of_lt' (by rw [UInt32.size]; omega)]
  rw [crcBuffer_count, bytes_length, flashCopyLength_ofNat hn, hcopy,
    ← Int32.ofNat_sub _ _ (Nat.min_le_right 256 n),
    Int32.toNatClampNeg_ofNat_of_lt (by omega), Int32.toNatClampNeg_ofNat_of_lt hn]
  omega

/-- The loop over the chunks: the checksum, and what was copied from the flash. A copy beyond the
end of `flash_buffer` is undefined. -/
def flashLoop (m : Mem) (flash_addr : UInt32) (bytes : Int32) (crcval : UInt32) :
    Option (UInt32 × List Region) :=
  if h0 : bytes = 0 then some (crcval, [])
  else if hfits : (flashCopyLength bytes).toUInt32.toNat ≤ 256 then
    let pass := crcBuffer crcval bytes (m.bytes flash_addr (flashCopyLength bytes).toUInt32.toNat)
    (flashLoop m (flash_addr + 256) pass.2 pass.1).map fun (crcval', copies) =>
      (crcval', ⟨flash_addr, (flashCopyLength bytes).toUInt32⟩ :: copies)
  else none
termination_by bytes.toNatClampNeg
decreasing_by exact crcBuffer_decreases h0 hfits

/-- `FlashCalcCRC32`. -/
def flashCalcCrc32 (m : Mem) (flash_addr : UInt32) (bytes : Int32) :
    Option (UInt32 × List Region) :=
  flashLoop m flash_addr bytes 0xffffffff

/-! ### The chunks -/

/-- So many bytes, in chunks. -/
def chunks (flash_addr : UInt32) (n : ℕ) : List Region :=
  if n = 0 then []
  else ⟨flash_addr, UInt32.ofNat (min 256 n)⟩ :: chunks (flash_addr + 256) (n - 256)
termination_by n

/-- The next chunk, and what is behind it. -/
theorem addressesFrom_min (a : UInt32) (n : ℕ) :
    addressesFrom a n = addressesFrom a (min 256 n) ++ addressesFrom (a + 256) (n - 256) := by
  by_cases hlast : n ≤ 256
  · rw [Nat.min_eq_right hlast, Nat.sub_eq_zero_of_le hlast]
    exact (List.append_nil _).symm
  · obtain ⟨j, rfl⟩ : ∃ j, n = 256 + j := ⟨n - 256, by omega⟩
    rw [Nat.min_eq_left (by omega), Nat.add_sub_cancel_left]
    exact addressesFrom_add a 256 j

theorem size_chunk (n : ℕ) : (UInt32.ofNat (min 256 n)).toNat = min 256 n :=
  UInt32.toNat_ofNat_of_lt' (by rw [UInt32.size]; omega)

/-- The chunks are made of the bytes. -/
theorem addresses_chunks (a : UInt32) (n : ℕ) :
    (chunks a n).flatMap Region.addresses = addressesFrom a n := by
  induction n using Nat.strong_induction_on generalizing a with
  | _ n ih =>
      rw [chunks]
      by_cases h0 : n = 0
      · rw [if_pos h0, h0]
        rfl
      · rw [if_neg h0, List.flatMap_cons, ih (n - 256) (by omega), Region.addresses, size_chunk,
          ← addressesFrom_min]

/-- The loop over a count that is not negative. -/
theorem flashLoop_ofNat (m : Mem) {n : ℕ} (hn : n < 2 ^ 31) (a crcval : UInt32) :
    flashLoop m a (Int32.ofNat n) crcval =
      some ((m.bytes a n).foldl crcByte crcval, chunks a n) := by
  induction n using Nat.strong_induction_on generalizing a crcval with
  | _ n ih =>
      rw [flashLoop, chunks]
      by_cases h0 : n = 0
      · subst h0
        rfl
      · have hne : Int32.ofNat n ≠ 0 := by
          intro h
          have hn0 := congrArg Int32.toNatClampNeg h
          rw [Int32.toNatClampNeg_ofNat_of_lt hn] at hn0
          exact h0 hn0
        have hsize : (flashCopyLength (Int32.ofNat n)).toUInt32 = UInt32.ofNat (min 256 n) := by
          rw [flashCopyLength_ofNat hn, Int32.toUInt32_ofNat']
        have hcount : Int32.ofNat n - Int32.ofNat (min 256 n) = Int32.ofNat (n - 256) := by
          have hrest : n - min 256 n = n - 256 := by omega
          rw [← Int32.ofNat_sub _ _ (Nat.min_le_right 256 n), hrest]
        rw [dif_neg hne, if_neg h0]
        simp only [hsize, size_chunk]
        rw [dif_pos (Nat.min_le_left 256 n), crcBuffer_count, crcBuffer_crcval, bytes_length,
          hcount,
          ih (n - 256) (by omega) (by omega), ← List.foldl_append, bytes_eq_map, bytes_eq_map,
          ← List.map_append, ← addressesFrom_min, ← bytes_eq_map]
        rfl

/-- The loop over a negative count copies beyond the end of the buffer. -/
theorem flashLoop_neg (m : Mem) {bytes : Int32} (h : bytes < 0) (a crcval : UInt32) :
    flashLoop m a bytes crcval = none := by
  have hne : bytes ≠ 0 := by
    rintro rfl
    exact Int32.lt_irrefl h
  have hhuge := flashCopyLength_neg h
  rw [flashLoop, dif_neg hne, dif_neg (by omega)]

/-! ### The plain CRC-32 -/

/-- The polynomial, the lowest coefficient first. -/
def CRC32_POLYNOMIAL : BitVec 32 := 0xEDB88320

/-- The remainder of a string of bytes, bit by bit, without a final inversion. -/
def plainCrc32 (buf : List UInt8) : UInt32 := ⟨remainder CRC32_POLYNOMIAL 0xFFFFFFFF buf⟩

/-- The innermost loop divides out a bit at a time. -/
theorem crcShift_eq (crcval : UInt32) :
    (crcShift crcval).toBitVec = shift CRC32_POLYNOMIAL crcval.toBitVec := by
  have hlow : crcval &&& 0x00000001 ≠ 0 ↔ crcval.toBitVec.getLsbD 0 = true := by
    rw [ne_eq, ← UInt32.toNat_inj, UInt32.toNat_and]
    change ¬ crcval.toNat &&& 1 = 0 ↔ crcval.toNat.testBit 0 = true
    rw [Nat.and_one_is_mod, Nat.testBit_zero, decide_eq_true_iff]
    omega
  by_cases h : crcval.toBitVec.getLsbD 0 = true
  · rw [crcShift, if_pos (hlow.mpr h), shift, if_pos h]
    rfl
  · rw [crcShift, if_neg (mt hlow.mp h), shift, if_neg h]
    rfl

/-- A byte of the buffer. -/
theorem crcByte_eq (crcval : UInt32) (cval : UInt8) :
    (crcByte crcval cval).toBitVec = byte CRC32_POLYNOMIAL crcval.toBitVec cval := by
  have hloop : ∀ n (c : UInt32),
      (crcShift^[n] c).toBitVec = (shift CRC32_POLYNOMIAL)^[n] c.toBitVec := by
    intro n
    induction n with
    | zero => exact fun c => rfl
    | succ n ih =>
        intro c
        rw [Function.iterate_succ_apply, ih, crcShift_eq, Function.iterate_succ_apply]
  rw [crcByte, hloop, byte]
  rfl

/-- The bytes of the buffer. -/
theorem foldl_crcByte (crcval : UInt32) (buf : List UInt8) :
    (buf.foldl crcByte crcval).toBitVec = buf.foldl (byte CRC32_POLYNOMIAL) crcval.toBitVec := by
  induction buf generalizing crcval with
  | nil => rfl
  | cons cval buf ih => rw [List.foldl_cons, ih, crcByte_eq, List.foldl_cons]

/-- The whole of a count that is not negative. -/
theorem flashCalcCrc32_ofNat (m : Mem) {n : ℕ} (hn : n < 2 ^ 31) (a : UInt32) :
    flashCalcCrc32 m a (Int32.ofNat n) = some (plainCrc32 (m.bytes a n), chunks a n) := by
  have hcrc : (m.bytes a n).foldl crcByte 0xffffffff = plainCrc32 (m.bytes a n) := by
    apply UInt32.toBitVec_inj.mp
    rw [foldl_crcByte, plainCrc32, remainder_eq_foldl (by decide)]
    rfl
  rw [flashCalcCrc32, flashLoop_ofNat m hn, hcrc]

/-- **The chunks are a plain CRC-32** of exactly the bytes from the address on, each of which is
copied once, in order. -/
theorem flashCalcCrc32_refines (m : Mem) (flash_addr : UInt32) (bytes : Int32) (h : 0 ≤ bytes) :
    ∃ copies, flashCalcCrc32 m flash_addr bytes =
        some (plainCrc32 (m.bytes flash_addr bytes.toNatClampNeg), copies) ∧
      copies.flatMap Region.addresses = addressesFrom flash_addr bytes.toNatClampNeg := by
  refine ⟨chunks flash_addr bytes.toNatClampNeg, ?_, addresses_chunks _ _⟩
  rw [← flashCalcCrc32_ofNat m bytes.toNatClampNeg_lt, Int32.ofNat_toNatClampNeg bytes h]

/-- Two chunks and a part of a third one. -/
theorem flashCalcCrc32_refines_600 :
    ∃ copies, flashCalcCrc32 (fun a => a.toUInt8) 0x3440000 600 =
        some (plainCrc32 (Mem.bytes (fun a => a.toUInt8) 0x3440000 600), copies) ∧
      copies.flatMap Region.addresses = addressesFrom 0x3440000 600 :=
  flashCalcCrc32_refines (fun a => a.toUInt8) 0x3440000 600 (by decide)

/-! ### The header -/

/-- `my_flash_header_type`. -/
structure FlashHeader where
  signature : UInt32
  version : UInt32
  timestamp : UInt32
  data_length : UInt32
  data_crc : UInt32
  res1 : UInt32
  res2 : UInt32
  header_crc : UInt32

/-- The results of `ValidateFlashImage`. -/
inductive FlashCheck where
  | CRCS_VALID
  | SIGNATURE_INVALID
  | HEADER_CRC_INVALID
  | DATA_CRC_INVALID
  deriving DecidableEq

/-- The header, copied from the flash. -/
def headerAt (m : Mem) (image_ptr : UInt32) : FlashHeader where
  signature := m.load32 image_ptr
  version := m.load32 (image_ptr + 4)
  timestamp := m.load32 (image_ptr + 8)
  data_length := m.load32 (image_ptr + 12)
  data_crc := m.load32 (image_ptr + 16)
  res1 := m.load32 (image_ptr + 20)
  res2 := m.load32 (image_ptr + 24)
  header_crc := m.load32 (image_ptr + 28)

/-- `ValidateFlashImage`, with what it copies from the flash. The length of the data is converted to
an `int` where it is passed. -/
def validateFlashImage (m : Mem) (image_ptr : UInt32) : Option (FlashCheck × List Region) :=
  let temp_header := headerAt m image_ptr
  let headerCopy : Region := ⟨image_ptr, 32⟩
  if temp_header.signature = 0xa5a5a5a5 then
    (flashCalcCrc32 m image_ptr 28).bind fun (header_crc, copies) =>
      if temp_header.header_crc ≠ header_crc then
        some (.HEADER_CRC_INVALID, headerCopy :: copies)
      else
        (flashCalcCrc32 m (image_ptr + 32) temp_header.data_length.toInt32).bind
          fun (data_crc, copies') =>
            if temp_header.data_crc = data_crc then
              some (.CRCS_VALID, headerCopy :: copies ++ copies')
            else some (.DATA_CRC_INVALID, headerCopy :: copies ++ copies')
  else some (.SIGNATURE_INVALID, [headerCopy])

/-! ### The region of the image -/

/-- The region of `FLASH_PROG_SIZE` bytes that is reserved for the image. -/
def imageRegion (image_ptr : UInt32) : Region := ⟨image_ptr, UInt32.ofNat FLASH_PROG_SIZE⟩

/-- **The check is safe**: it comes to an end and copies nothing from outside the region, and an
image that it finds valid has the signature and both checksums. -/
def ImageChecked (m : Mem) (image_ptr : UInt32) : Prop :=
  ∃ result copies, validateFlashImage m image_ptr = some (result, copies) ∧
    (∀ r ∈ copies, ∀ x, r.Contains x → (imageRegion image_ptr).Contains x) ∧
    (result = .CRCS_VALID → (headerAt m image_ptr).signature = 0xa5a5a5a5 ∧
      (headerAt m image_ptr).header_crc = plainCrc32 (m.bytes image_ptr 28) ∧
      (headerAt m image_ptr).data_crc =
        plainCrc32 (m.bytes (image_ptr + 32) (headerAt m image_ptr).data_length.toNat))

/-- What holds of the chunks holds of the bytes. -/
theorem chunks_forall {a : UInt32} {n : ℕ} {P : UInt32 → Prop} :
    (∀ r ∈ chunks a n, ∀ x, r.Contains x → P x) ↔ ∀ x ∈ addressesFrom a n, P x := by
  rw [← addresses_chunks]
  simp only [contains_iff_mem, List.mem_flatMap]
  exact ⟨fun h x ⟨r, hr, hx⟩ => h r hr x hx, fun h r hr x hx => h x ⟨r, hr, hx⟩⟩

/-- Bytes of the image are in its region if they end there. -/
theorem addressesFrom_inside (image_ptr : UInt32) {i n : ℕ} (hi : i ≤ FLASH_PROG_SIZE) :
    (∀ x ∈ addressesFrom (image_ptr + UInt32.ofNat i) n, (imageRegion image_ptr).Contains x) ↔
      i + n ≤ FLASH_PROG_SIZE ∨ n = 0 := by
  have hsize : (UInt32.ofNat FLASH_PROG_SIZE).toNat = FLASH_PROG_SIZE := rfl
  have hvalue : FLASH_PROG_SIZE = 0x200000 := rfl
  have hcontains : ∀ k, k < 2 ^ 31 →
      ((imageRegion image_ptr).Contains (image_ptr + UInt32.ofNat i + UInt32.ofNat k) ↔
        i + k < FLASH_PROG_SIZE) := by
    intro k hk
    rw [Region.Contains, imageRegion, hsize, add_assoc, ← UInt32.ofNat_add,
      add_ofNat_sub (by omega)]
  constructor
  · intro h
    by_contra hout
    have hmem : image_ptr + UInt32.ofNat i + UInt32.ofNat (FLASH_PROG_SIZE - i) ∈
        addressesFrom (image_ptr + UInt32.ofNat i) n :=
      List.mem_map.mpr ⟨_, List.mem_range.mpr (by omega), rfl⟩
    have hend := (hcontains _ (by omega)).mp (h _ hmem)
    omega
  · intro h x hx
    obtain ⟨k, hk, rfl⟩ := List.mem_map.mp hx
    have hk : k < n := List.mem_range.mp hk
    exact (hcontains k (by omega)).mpr (by omega)

/-- A length of the header as a count. -/
theorem toInt32_ofNat {data_length : UInt32} :
    data_length.toInt32 = Int32.ofNat data_length.toNat := by
  rw [← UInt32.toInt32_ofNat', UInt32.ofNat_toNat]

/-- A length that does not fit is a negative count. -/
theorem toInt32_neg {data_length : UInt32} (h : 2 ^ 31 ≤ data_length.toNat) :
    data_length.toInt32 < 0 := by
  have hneg : data_length.toBitVec.toInt < 0 := by
    rw [BitVec.toInt_neg_iff]
    change 2 ^ 32 ≤ 2 * data_length.toNat
    omega
  rw [Int32.lt_iff_toInt_lt]
  exact hneg

/-- The region begins with the header, and the data follow. -/
theorem header_inside (image_ptr : UInt32) {n : ℕ} (hn : n ≤ FLASH_PROG_SIZE) :
    ∀ x ∈ addressesFrom image_ptr n, (imageRegion image_ptr).Contains x := by
  have hstart : image_ptr + UInt32.ofNat 0 = image_ptr := add_zero _
  have hinside := addressesFrom_inside image_ptr (n := n) (Nat.zero_le _)
  rw [hstart] at hinside
  exact hinside.mpr (.inl (by omega))

/-- **The check, step by step**: its header is copied and its signature compared, then the checksum
of the header, then that of the data, whose length may be a negative count. -/
theorem validateFlashImage_eq (m : Mem) (image_ptr : UInt32) :
    validateFlashImage m image_ptr =
      let header := headerAt m image_ptr
      let copies : List Region := ⟨image_ptr, 32⟩ :: chunks image_ptr 28
      if header.signature ≠ 0xa5a5a5a5 then some (.SIGNATURE_INVALID, [⟨image_ptr, 32⟩])
      else if header.header_crc ≠ plainCrc32 (m.bytes image_ptr 28) then
        some (.HEADER_CRC_INVALID, copies)
      else if header.data_length.toNat < 2 ^ 31 then
        some (if header.data_crc = plainCrc32 (m.bytes (image_ptr + 32) header.data_length.toNat)
            then .CRCS_VALID else .DATA_CRC_INVALID,
          copies ++ chunks (image_ptr + 32) header.data_length.toNat)
      else none := by
  have hheader : flashCalcCrc32 m image_ptr 28 =
      some (plainCrc32 (m.bytes image_ptr 28), chunks image_ptr 28) :=
    flashCalcCrc32_ofNat (n := 28) m (by omega) image_ptr
  simp only [validateFlashImage, hheader, Option.bind_some]
  by_cases hsig : (headerAt m image_ptr).signature = 0xa5a5a5a5
  · rw [if_pos hsig, if_neg (not_not.mpr hsig)]
    by_cases hcrc : (headerAt m image_ptr).header_crc = plainCrc32 (m.bytes image_ptr 28)
    · rw [if_neg (not_not.mpr hcrc), if_neg (not_not.mpr hcrc)]
      by_cases hlen : (headerAt m image_ptr).data_length.toNat < 2 ^ 31
      · rw [if_pos hlen, toInt32_ofNat, flashCalcCrc32_ofNat m hlen, Option.bind_some]
        dsimp only
        split <;> rfl
      · rw [if_neg hlen, flashCalcCrc32, flashLoop_neg m (toInt32_neg (by omega)), Option.bind_none]
    · rw [if_pos hcrc, if_pos hcrc]
  · rw [if_neg hsig, if_pos hsig]

/-- **When the check is safe**: where it does not come to the data, or where these end in the
region. -/
theorem validateFlashImage_iff (m : Mem) (image_ptr : UInt32) : ImageChecked m image_ptr ↔
    (headerAt m image_ptr).signature ≠ 0xa5a5a5a5 ∨
      (headerAt m image_ptr).header_crc ≠ plainCrc32 (m.bytes image_ptr 28) ∨
      (headerAt m image_ptr).data_length.toNat ≤ FLASH_PROG_SIZE - 32 := by
  have hvalue : FLASH_PROG_SIZE = 0x200000 := rfl
  have hheader : ∀ x, (Region.mk image_ptr 32).Contains x → (imageRegion image_ptr).Contains x :=
    fun x hx => header_inside image_ptr (by omega : 32 ≤ FLASH_PROG_SIZE) x (contains_iff_mem.mp hx)
  have hcrcs : ∀ r ∈ chunks image_ptr 28, ∀ x, r.Contains x → (imageRegion image_ptr).Contains x :=
    chunks_forall.mpr (header_inside image_ptr (by omega : 28 ≤ FLASH_PROG_SIZE))
  have hdata : ∀ n, (∀ r ∈ chunks (image_ptr + 32) n, ∀ x, r.Contains x →
      (imageRegion image_ptr).Contains x) ↔ n ≤ FLASH_PROG_SIZE - 32 := by
    intro n
    have hinside := addressesFrom_inside image_ptr (i := 32) (n := n) (by omega)
    rw [chunks_forall]
    refine hinside.trans ?_
    omega
  have hcopies : ∀ r ∈ (⟨image_ptr, 32⟩ : Region) :: chunks image_ptr 28, ∀ x, r.Contains x →
      (imageRegion image_ptr).Contains x := List.forall_mem_cons.mpr ⟨hheader, hcrcs⟩
  rw [ImageChecked, validateFlashImage_eq]
  dsimp only
  by_cases hsig : (headerAt m image_ptr).signature = 0xa5a5a5a5
  · rw [if_neg (not_not.mpr hsig)]
    by_cases hcrc : (headerAt m image_ptr).header_crc = plainCrc32 (m.bytes image_ptr 28)
    · rw [if_neg (not_not.mpr hcrc)]
      constructor
      · rintro ⟨result, copies, hrun, hin, -⟩
        refine .inr (.inr ((hdata _).mp fun r hr => hin r ?_))
        by_cases hlen : (headerAt m image_ptr).data_length.toNat < 2 ^ 31
        · rw [if_pos hlen] at hrun
          cases hrun
          exact List.mem_append_right _ hr
        · rw [if_neg hlen] at hrun
          cases hrun
      · intro h
        have hfits : (headerAt m image_ptr).data_length.toNat ≤ FLASH_PROG_SIZE - 32 :=
          (h.resolve_left (not_not.mpr hsig)).resolve_left (not_not.mpr hcrc)
        refine ⟨_, _, if_pos (by omega), List.forall_mem_append.mpr ⟨hcopies, (hdata _).mpr hfits⟩,
          fun hvalid => ⟨hsig, hcrc, ?_⟩⟩
        by_contra hbad
        rw [if_neg hbad] at hvalid
        cases hvalid
    · rw [if_pos hcrc]
      exact ⟨fun _ => .inr (.inl hcrc), fun _ => ⟨_, _, rfl, hcopies, nofun⟩⟩
  · rw [if_pos hsig]
    exact ⟨fun _ => .inl hsig,
      fun _ => ⟨_, _, rfl, List.forall_mem_singleton.mpr hheader, nofun⟩⟩

/-- `BOOT_IMAGE_2_ADDR`, where the main loop finds the image. -/
def BOOT_IMAGE_2_ADDR : UInt32 := 0x3000000 + 0x00440000

/-- A header with the signature and its checksum whose data have the length `2 ^ 31`. -/
def hugeHeader : List UInt8 :=
  [0xa5, 0xa5, 0xa5, 0xa5] ++ [0, 0, 0, 0] ++ [0, 0, 0, 0] ++ [0, 0, 0, 0x80] ++ [0, 0, 0, 0] ++
    [0, 0, 0, 0] ++ [0, 0, 0, 0] ++ [0xe8, 0x12, 0x7f, 0x4a]

/-- A flash that is erased but for this header. -/
def hugeImage : Mem := Mem.blit (fun _ => 0xFF) BOOT_IMAGE_2_ADDR hugeHeader

/-- The length of its data is a negative count: the first copy is one of `2 ^ 31` bytes. -/
theorem hugeHeader_not_checked : ¬ ImageChecked hugeImage BOOT_IMAGE_2_ADDR := by
  have hsig : (headerAt hugeImage BOOT_IMAGE_2_ADDR).signature = 0xa5a5a5a5 := by decide +kernel
  have hcrc : (headerAt hugeImage BOOT_IMAGE_2_ADDR).header_crc =
      plainCrc32 (hugeImage.bytes BOOT_IMAGE_2_ADDR 28) := by decide +kernel
  have hlen : ¬ (headerAt hugeImage BOOT_IMAGE_2_ADDR).data_length.toNat < 2 ^ 31 := by
    decide +kernel
  rintro ⟨result, copies, hrun, -⟩
  rw [validateFlashImage_eq] at hrun
  dsimp only at hrun
  rw [if_neg (not_not.mpr hsig), if_neg (not_not.mpr hcrc), if_neg hlen] at hrun
  cases hrun

end Muxponder
