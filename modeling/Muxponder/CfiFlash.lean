import Muxponder.KursRemoteUpdate
import Muxponder.KursUserPrefs
import Muxponder.Lib.FlashWrite

/-!
# The Flash Driver

`alt_flash_cfi_write` writes a buffer over whatever the flash holds: it goes through the blocks of
the device, leaves a block alone whose part of the buffer is there already, and erases and programs
any other. The part is programmed in words of the width the device is used in, the first and the
last with the bytes of the flash around the buffer.

The device answers each operation with a code, and the driver stops at the first that is not 0.
Nothing is read from the flash behind it, so what a failed operation leaves needs no definition.

## Main results

* `altFlashProgramBlock_spec`: the words program the buffer, in order.
* `altFlashCfiWrite_spec`: the blocks are written over, up to the first failure.
* `altFlashCfiWrite_writes`: what the flash holds behind a write, and what a failed one has done.
-/

namespace Muxponder.CfiFlash

open NorFlash

/-! ### The driver -/

/-- `flash_region`: blocks of one size behind each other. -/
structure FlashRegion where
  offset : ℕ
  region_size : ℕ
  number_of_blocks : ℕ
  block_size : ℕ

/-- `alt_flash_cfi_dev`. -/
structure AltFlashCfiDev where
  base_addr : ℕ
  region_info : List FlashRegion
  mode_width : ℕ

/-- What a call has done: the flash, and the operations so far. -/
structure FlashCall where
  contents : Contents
  ops : List Op

/-- How the device answers: the code of each operation of a call, by the number of those before
it. -/
abbrev Answers := ℕ → Int32

/-- An operation, with the code it ends with. -/
def FlashCall.carryOut (answers : Answers) (s : FlashCall) (op : Op) : Int32 × FlashCall :=
  (answers s.ops.length, ⟨op.apply CFI_SECTOR_SIZE s.contents, s.ops ++ [op]⟩)

/-- Bytes of the buffer; undefined behind its end. -/
def sourceBytes (src_addr : List UInt8) (i n : ℕ) : Option (List UInt8) :=
  if i + n ≤ src_addr.length then some ((src_addr.drop i).take n) else none

variable (dev : AltFlashCfiDev) (answers : Answers)

/-- `alt_write_value_to_flash`: a word of 1, 2 or 4 bytes. -/
def altWriteValueToFlash (offset : ℕ) (word : List UInt8) : Op :=
  .program offset (if dev.mode_width = 1 then word.take 1
    else if dev.mode_width = 2 then word.take 2
    else if dev.mode_width = 4 then word.take 4
    else [])

/-- `alt_write_word_amd`. -/
def altWriteWordAmd (offset : ℕ) (word : List UInt8) (s : FlashCall) : Int32 × FlashCall :=
  s.carryOut answers (altWriteValueToFlash dev offset word)

/-- `alt_erase_block_amd`. -/
def altEraseBlockAmd (block_offset : ℕ) (s : FlashCall) : Int32 × FlashCall :=
  s.carryOut answers (.eraseSector block_offset)

/-- The loop of `alt_flash_program_block` over the words: the code, the index behind them. -/
def programWords (offset : ℕ) (src_addr : List UInt8) (stop i : ℕ) (s : FlashCall) :
    Option (Int32 × ℕ × FlashCall) :=
  if i < stop then
    if 0 < dev.mode_width then
      (sourceBytes src_addr i dev.mode_width).bind fun word =>
        let r := altWriteWordAmd dev answers (offset + i) word s
        if r.1 = 0 then programWords offset src_addr stop (i + dev.mode_width) r.2
        else some (r.1, i + dev.mode_width, r.2)
    else none
  else some (0, i, s)
termination_by stop - i

/-- The first word of `alt_flash_program_block`, where the buffer begins inside one. -/
def programHead (offset : ℕ) (src_addr : List UInt8) (s : FlashCall) :
    Option (Int32 × ℕ × FlashCall) :=
  let bytes_to_preserve := (dev.base_addr + offset) % dev.mode_width
  if bytes_to_preserve ≠ 0 then
    let unaligned_bytes := dev.mode_width - bytes_to_preserve
    (sourceBytes src_addr 0 unaligned_bytes).map fun bytes =>
      let unaligned := bytesAt s.contents (offset - bytes_to_preserve) bytes_to_preserve ++ bytes
      let r := altWriteWordAmd dev answers (offset - bytes_to_preserve) unaligned s
      (r.1, unaligned_bytes, r.2)
  else some (0, 0, s)

/-- Its last word, where the buffer ends inside one. -/
def programTail (offset : ℕ) (src_addr : List UInt8) (length i : ℕ) (s : FlashCall) :
    Option (Int32 × FlashCall) :=
  let unaligned_end_bytes := (offset + length) % dev.mode_width
  if unaligned_end_bytes ≠ 0 then
    let bytes_to_preserve := dev.mode_width - unaligned_end_bytes
    (sourceBytes src_addr i unaligned_end_bytes).map fun bytes =>
      let unaligned := bytes ++ bytesAt s.contents (offset + length) bytes_to_preserve
      altWriteWordAmd dev answers (offset + i) unaligned s
  else some (0, s)

/-- `alt_flash_program_block` with `alt_write_word_amd`, which is `alt_program_amd`. -/
def altFlashProgramBlock (offset : ℕ) (src_addr : List UInt8) (length : ℕ) (s : FlashCall) :
    Option (Int32 × FlashCall) :=
  (programHead dev answers offset src_addr s).bind fun (ret_code, i, s) =>
    if ret_code ≠ 0 then some (ret_code, s)
    else
      let stop := length - (offset + length) % dev.mode_width
      (programWords dev answers offset src_addr stop i s).bind fun (ret_code, i, s) =>
        if ret_code ≠ 0 then some (ret_code, s)
        else programTail dev answers offset src_addr length i s

/-- The variables of `alt_flash_cfi_write`, and whether it has come to `finished`. -/
structure WriteState where
  offset : ℕ
  src_addr : List UInt8
  length : ℕ
  ret_code : Int32
  finished : Bool
  call : FlashCall

/-- The loop over the blocks, at the block at `current_offset`. -/
def writeBlock (block_size current_offset : ℕ) (w : WriteState) : Option WriteState :=
  if w.finished then some w
  else if current_offset ≤ w.offset ∧ w.offset < current_offset + block_size then
    let data_to_write := min (current_offset + block_size - w.offset) w.length
    (sourceBytes w.src_addr 0 data_to_write).bind fun bytes =>
      (if bytes ≠ bytesAt w.call.contents w.offset data_to_write then
        let r := altEraseBlockAmd answers current_offset w.call
        if r.1 = 0 then altFlashProgramBlock dev answers w.offset w.src_addr data_to_write r.2
        else some r
      else some (w.ret_code, w.call)).map fun (ret_code, call) =>
        if w.length = data_to_write ∨ ret_code ≠ 0 then
          { w with ret_code := ret_code, call := call, finished := true }
        else
          { w with
            offset := current_offset + block_size
            src_addr := w.src_addr.drop data_to_write
            length := w.length - data_to_write
            ret_code := ret_code
            call := call }
  else some w

/-- The loop over the regions, at one of them. -/
def writeRegion (region : FlashRegion) (w : WriteState) : Option WriteState :=
  if ¬ w.finished ∧ region.offset ≤ w.offset ∧ w.offset < region.offset + region.region_size then
    (List.range region.number_of_blocks).foldlM (fun w j =>
      writeBlock dev answers region.block_size (region.offset + j * region.block_size) w) w
  else some w

/-- `alt_flash_cfi_write`: the code it returns, and what it has done. -/
def altFlashCfiWrite (flash : Contents) (offset : ℕ) (src_addr : List UInt8) (length : ℕ) :
    Option (Int32 × FlashCall) :=
  (dev.region_info.foldlM (fun w region => writeRegion dev answers region w)
    ⟨offset, src_addr, length, 0, false, ⟨flash, []⟩⟩).map fun w => (w.ret_code, w.call)

/-- `alt_flash_cfi_read`. -/
def altFlashCfiRead (flash : Contents) (offset length : ℕ) : Int32 × List UInt8 :=
  (0, bytesAt flash offset length)

/-! ### Operations up to the first failure -/

/-- Operations carried out up to the first that fails. -/
def FlashCall.carryOutAll (s : FlashCall) : List Op → Int32 × FlashCall
  | [] => (0, s)
  | op :: ops =>
      if (s.carryOut answers op).1 = 0 then (s.carryOut answers op).2.carryOutAll ops
      else s.carryOut answers op

/-- A call behind operations that have all been carried out. -/
def FlashCall.after (s : FlashCall) (ops : List Op) : FlashCall :=
  ⟨run CFI_SECTOR_SIZE ops s.contents, s.ops ++ ops⟩

variable {dev answers} {s : FlashCall} {op : Op} {ops ops' : List Op}

@[simp] theorem carryOutAll_nil : s.carryOutAll answers [] = (0, s) := rfl

@[simp] theorem after_nil : s.after [] = s := by simp [FlashCall.after]

/-- One operation. -/
theorem carryOutAll_single : s.carryOutAll answers [op] = s.carryOut answers op := by
  by_cases h : (s.carryOut answers op).1 = 0
  · rw [FlashCall.carryOutAll, if_pos h, carryOutAll_nil, ← h]
  · rw [FlashCall.carryOutAll, if_neg h]

/-- An operation in front of others. -/
theorem after_carryOut : (s.carryOut answers op).2.after ops = s.after (op :: ops) := by
  simp [FlashCall.after, FlashCall.carryOut]

/-- Operations that all succeed are all done. -/
theorem carryOutAll_ok (h : (s.carryOutAll answers ops).1 = 0) :
    s.carryOutAll answers ops = (0, s.after ops) := by
  induction ops generalizing s with
  | nil => rw [carryOutAll_nil, after_nil]
  | cons op ops ih =>
      rw [FlashCall.carryOutAll] at h ⊢
      by_cases hop : (s.carryOut answers op).1 = 0
      · rw [if_pos hop] at h ⊢
        rw [ih h, after_carryOut]
      · rw [if_neg hop] at h
        exact absurd h hop

/-- Operations behind others: only if these have succeeded. -/
theorem carryOutAll_append : s.carryOutAll answers (ops ++ ops') =
    if (s.carryOutAll answers ops).1 = 0 then (s.after ops).carryOutAll answers ops'
    else s.carryOutAll answers ops := by
  induction ops generalizing s with
  | nil => simp
  | cons op ops ih =>
      rw [List.cons_append, FlashCall.carryOutAll, FlashCall.carryOutAll]
      by_cases hop : (s.carryOut answers op).1 = 0
      · rw [if_pos hop, if_pos hop, ih, after_carryOut]
      · rw [if_neg hop, if_neg hop, if_neg hop]

/-! ### One block -/

/-- A device as the table of a flash with sectors of one size describes it. -/
structure AltFlashCfiDev.Regular (dev : AltFlashCfiDev) : Prop where
  width : dev.mode_width = 1 ∨ dev.mode_width = 2 ∨ dev.mode_width = 4
  base : dev.mode_width ∣ dev.base_addr

/-- A buffer that does not both begin and end inside one word. -/
def Covers (dev : AltFlashCfiDev) (offset length : ℕ) : Prop :=
  offset % dev.mode_width = 0 ∨ dev.mode_width ≤ offset % dev.mode_width + length

variable {c : Contents} {offset length i stop : ℕ} {src_addr word : List UInt8}

/-- A word of the width of the device. -/
theorem altWriteWordAmd_eq (hdev : dev.Regular) (hword : word.length = dev.mode_width) :
    altWriteWordAmd dev answers offset word s = s.carryOut answers (.program offset word) := by
  have hop : altWriteValueToFlash dev offset word = .program offset word := by
    rw [altWriteValueToFlash]
    rcases hdev.width with hw | hw | hw <;> rw [hw] at hword <;>
      simp [hw, List.take_of_length_le hword.le]
  rw [altWriteWordAmd, hop]

/-- One operation that programs some data. -/
theorem programs_single {p q o width : ℕ} {d : List UInt8} (hd : d ≠ []) (hw : d.length ≤ width)
    (hp : p ≤ o) : Programs CFI_SECTOR_SIZE width c o d
      [.program (o - p) (bytesAt c (o - p) p ++ (d ++ bytesAt c (o + d.length) q))] := by
  have h : Programs CFI_SECTOR_SIZE width c o (d ++ [])
      [.program (o - p) (bytesAt c (o - p) p ++ (d ++ bytesAt c (o + d.length) q))] :=
    .cons hd hw hp .nil
  rwa [List.append_nil] at h

/-- Bytes inside the buffer. -/
theorem sourceBytes_eq {n : ℕ} (h : i + n ≤ src_addr.length) :
    sourceBytes src_addr i n = some ((src_addr.drop i).take n) := if_pos h

/-- The words of the buffer. -/
theorem programWords_spec (hdev : dev.Regular) (hi : i ≤ stop) (hstop : stop ≤ src_addr.length)
    (hwords : dev.mode_width ∣ stop - i) :
    ∃ ops, Programs CFI_SECTOR_SIZE dev.mode_width s.contents (offset + i)
        ((src_addr.drop i).take (stop - i)) ops ∧
      ∀ answers, ∃ j, programWords dev answers offset src_addr stop i s =
        some ((s.carryOutAll answers ops).1, j, (s.carryOutAll answers ops).2) ∧
          ((s.carryOutAll answers ops).1 = 0 → j = stop) := by
  have hpos : 0 < dev.mode_width := by
    have := hdev.width
    omega
  obtain ⟨n, hn⟩ := hwords
  induction n generalizing i s with
  | zero =>
      have hend : i = stop := by omega
      refine ⟨[], by rw [hend]; simpa using Programs.nil, fun answers => ⟨i, ?_, fun _ => hend⟩⟩
      rw [programWords, if_neg (by omega), carryOutAll_nil]
  | succ n ih =>
      rw [Nat.mul_succ] at hn
      obtain ⟨word, hword⟩ : ∃ word, (src_addr.drop i).take dev.mode_width = word := ⟨_, rfl⟩
      have hlen : word.length = dev.mode_width := by
        rw [← hword, List.length_take, List.length_drop]
        omega
      obtain ⟨ops, hops, hrun⟩ := ih (i := i + dev.mode_width)
        (s := s.after [.program (offset + i) word]) (by omega) (by omega)
      have hne : word ≠ [] := by
        rintro rfl
        simp only [List.length_nil] at hlen
        omega
      have hsplit : (src_addr.drop i).take (stop - i) =
          word ++ (src_addr.drop (i + dev.mode_width)).take (stop - (i + dev.mode_width)) := by
        have hcount : stop - i = dev.mode_width + (stop - (i + dev.mode_width)) := by omega
        rw [hcount, List.take_add, hword, List.drop_drop]
      refine ⟨.program (offset + i) word :: ops, ?_, fun answers => ?_⟩
      · rw [hsplit]
        have hone : FlashCall.after s [.program (offset + i) word] = ⟨_, _⟩ := rfl
        have happend := (programs_single (c := s.contents) (o := offset + i) (p := 0) (q := 0) hne
          hlen.le (Nat.zero_le _)).append (by rwa [hlen, Nat.add_assoc])
        simpa [bytesAt] using happend
      · obtain ⟨j, hj, hjstop⟩ := hrun answers
        rw [programWords, if_pos (by omega), if_pos hpos, sourceBytes_eq (by omega),
          Option.bind_some]
        simp only [hword, altWriteWordAmd_eq hdev hlen]
        rw [FlashCall.carryOutAll]
        by_cases hop : (s.carryOut answers (.program (offset + i) word)).1 = 0
        · rw [if_pos hop, if_pos hop]
          exact ⟨j, hj, hjstop⟩
        · rw [if_neg hop, if_neg hop]
          exact ⟨_, rfl, fun h => absurd h hop⟩

/-- The word that the buffer begins in. -/
theorem programHead_spec (hdev : dev.Regular) (hcover : Covers dev offset length)
    (hlen : length ≤ src_addr.length) :
    ∃ ops i,
      Programs CFI_SECTOR_SIZE dev.mode_width s.contents offset (src_addr.take i) ops ∧
      i ≤ length ∧ dev.mode_width ∣ offset + i ∧
      ∀ answers, programHead dev answers offset src_addr s =
        some ((s.carryOutAll answers ops).1, i, (s.carryOutAll answers ops).2) := by
  have hpos : 0 < dev.mode_width := by
    have := hdev.width
    omega
  have hbase : (dev.base_addr + offset) % dev.mode_width = offset % dev.mode_width := by
    obtain ⟨k, hk⟩ := hdev.base
    rw [hk, Nat.mul_add_mod]
  by_cases h0 : offset % dev.mode_width = 0
  · refine ⟨[], 0, Programs.nil, Nat.zero_le _, Nat.dvd_of_mod_eq_zero h0, fun answers => ?_⟩
    simp [programHead, hbase, h0]
  · have hmod := Nat.mod_lt offset hpos
    have hle : offset % dev.mode_width ≤ offset := Nat.mod_le _ _
    have hcount : dev.mode_width - offset % dev.mode_width ≤ length := by
      rcases hcover with h | h <;> omega
    have hd : (src_addr.take (dev.mode_width - offset % dev.mode_width)).length =
        dev.mode_width - offset % dev.mode_width := by
      rw [List.length_take]
      omega
    have hne : src_addr.take (dev.mode_width - offset % dev.mode_width) ≠ [] := by
      intro hnil
      rw [hnil, List.length_nil] at hd
      omega
    have hprog := programs_single (c := s.contents) (q := 0) hne
      (hd.trans_le (Nat.sub_le _ _)) hle
    have hzero : ∀ o, bytesAt s.contents o 0 = [] := fun o => rfl
    rw [hzero, List.append_nil] at hprog
    refine ⟨_, _, hprog, hcount, ?_, fun answers => ?_⟩
    · have hdiv := Nat.div_add_mod offset dev.mode_width
      refine ⟨offset / dev.mode_width + 1, ?_⟩
      rw [Nat.mul_add_one]
      omega
    · rw [programHead]
      simp only [hbase]
      rw [if_pos h0, sourceBytes_eq (by omega), Option.map_some, carryOutAll_single,
        List.drop_zero, altWriteWordAmd_eq hdev]
      rw [List.length_append, length_bytesAt, hd]
      omega

/-- The word that it ends in. -/
theorem programTail_spec (hdev : dev.Regular) (hi : i + (offset + length) % dev.mode_width = length)
    (hlen : length ≤ src_addr.length) :
    ∃ ops, Programs CFI_SECTOR_SIZE dev.mode_width s.contents (offset + i)
        ((src_addr.drop i).take (length - i)) ops ∧
      ∀ answers, programTail dev answers offset src_addr length i s =
        some (s.carryOutAll answers ops) := by
  have hpos : 0 < dev.mode_width := by
    have := hdev.width
    omega
  by_cases h0 : (offset + length) % dev.mode_width = 0
  · refine ⟨[], ?_, fun answers => by simp [programTail, h0]⟩
    have hend : length - i = 0 := by omega
    rw [hend]
    exact Programs.nil
  · have hmod := Nat.mod_lt (offset + length) hpos
    have hcount : (offset + length) % dev.mode_width = length - i := by omega
    have hd : ((src_addr.drop i).take (length - i)).length = length - i := by
      rw [List.length_take, List.length_drop]
      omega
    have hne : (src_addr.drop i).take (length - i) ≠ [] := by
      intro hnil
      rw [hnil, List.length_nil] at hd
      omega
    have hwidth : length - i ≤ dev.mode_width := by omega
    have hprog := programs_single (c := s.contents) (o := offset + i) (p := 0)
      (q := dev.mode_width - (length - i)) hne (hd.trans_le hwidth) (Nat.zero_le _)
    have hzero : bytesAt s.contents (offset + i - 0) 0 = [] := rfl
    have hend : offset + i + (length - i) = offset + length := by omega
    rw [hzero, List.nil_append, hd, hend, Nat.sub_zero] at hprog
    refine ⟨_, hprog, fun answers => ?_⟩
    rw [programTail]
    simp only [hcount]
    rw [if_pos (by omega), sourceBytes_eq (by omega), Option.map_some, carryOutAll_single,
      altWriteWordAmd_eq hdev]
    rw [List.length_append, length_bytesAt, hd]
    omega

/-- **The words program the buffer**, in order and up to the first failure. -/
theorem altFlashProgramBlock_spec (hdev : dev.Regular) (hcover : Covers dev offset length)
    (hlen : length ≤ src_addr.length) :
    ∃ ops, Programs CFI_SECTOR_SIZE dev.mode_width s.contents offset (src_addr.take length) ops ∧
      ∀ answers, altFlashProgramBlock dev answers offset src_addr length s =
        some (s.carryOutAll answers ops) := by
  obtain ⟨head, i, hhead, hi, ⟨k, hk⟩, hrun⟩ := programHead_spec (s := s) hdev hcover hlen
  have hdiv := Nat.div_add_mod (offset + length) dev.mode_width
  have hpos : 0 < dev.mode_width := by
    have := hdev.width
    omega
  obtain ⟨n, hn⟩ : ∃ n, (offset + length) / dev.mode_width = k + n := by
    refine ⟨_, (Nat.add_sub_cancel' ?_).symm⟩
    rw [Nat.le_div_iff_mul_le hpos, Nat.mul_comm, ← hk]
    omega
  rw [hn, Nat.mul_add] at hdiv
  obtain ⟨stop, hstop⟩ : ∃ stop, length - (offset + length) % dev.mode_width = stop := ⟨_, rfl⟩
  have hbound : stop + (offset + length) % dev.mode_width = length ∧
      stop - i = dev.mode_width * n ∧ i ≤ stop := by
    generalize dev.mode_width * n = x at *
    omega
  have hinside : stop ≤ src_addr.length := by omega
  obtain ⟨words, hwords, hrun'⟩ :=
    programWords_spec (s := s.after head) hdev hbound.2.2 hinside ⟨n, hbound.2.1⟩
  obtain ⟨tail, htail, hrun''⟩ := programTail_spec (s := (s.after head).after words) (i := stop)
    hdev hbound.1 hlen
  refine ⟨head ++ (words ++ tail), ?_, fun answers => ?_⟩
  · have hfirst : (src_addr.take i).length = i := by
      rw [List.length_take]
      omega
    have hmiddle : ((src_addr.drop i).take (stop - i)).length = stop - i := by
      rw [List.length_take, List.length_drop]
      omega
    have hsplit : src_addr.take length = src_addr.take i ++
        ((src_addr.drop i).take (stop - i) ++ (src_addr.drop stop).take (length - stop)) := by
      have h1 : length = i + ((stop - i) + (length - stop)) := by omega
      have h2 : i + (stop - i) = stop := by omega
      rw [h1, List.take_add, List.take_add, List.drop_drop, h2, ← h1]
    have hend : offset + i + (stop - i) = offset + stop := by omega
    rw [hsplit]
    refine hhead.append ?_
    rw [hfirst, ← hhead.run_eq]
    refine hwords.append ?_
    rw [hmiddle, hend, ← hwords.run_eq]
    exact htail
  · rw [altFlashProgramBlock, hrun answers, Option.bind_some, carryOutAll_append]
    obtain ⟨j, hj, hjstop⟩ := hrun' answers
    by_cases h1 : (s.carryOutAll answers head).1 = 0
    · rw [if_pos h1, carryOutAll_append]
      simp only [carryOutAll_ok h1, hstop, hj, ne_eq, not_true_eq_false, if_false, Option.bind_some]
      by_cases h2 : ((s.after head).carryOutAll answers words).1 = 0
      · rw [if_neg (not_not.mpr h2), if_pos h2, hjstop h2, carryOutAll_ok h2, hrun'' answers]
      · rw [if_pos h2, if_neg h2]
    · simp [h1]

/-! ### The blocks of the device -/

/-- Regions behind each other, of blocks that are the sectors of the flash. -/
def Tiles : ℕ → List FlashRegion → Prop
  | _, [] => True
  | o, r :: rs => r.offset = o ∧ r.block_size = CFI_SECTOR_SIZE ∧
      r.region_size = r.number_of_blocks * CFI_SECTOR_SIZE ∧ Tiles (o + r.region_size) rs

/-- The blocks of some regions. -/
def blockCount (rs : List FlashRegion) : ℕ := (rs.map FlashRegion.number_of_blocks).sum

/-- The bytes of the device. -/
def AltFlashCfiDev.size (dev : AltFlashCfiDev) : ℕ := blockCount dev.region_info * CFI_SECTOR_SIZE

/-- The loop over the blocks from one on. -/
def writeBlocks (dev : AltFlashCfiDev) (answers : Answers) (k n : ℕ) (w : WriteState) :
    Option WriteState :=
  (List.range' k n).foldlM (fun w j =>
    writeBlock dev answers CFI_SECTOR_SIZE (j * CFI_SECTOR_SIZE) w) w

variable {w : WriteState} {k n : ℕ}

theorem writeBlocks_succ : writeBlocks dev answers k (n + 1) w =
    (writeBlock dev answers CFI_SECTOR_SIZE (k * CFI_SECTOR_SIZE) w).bind
      (writeBlocks dev answers (k + 1) n) := rfl

/-- Blocks that the offset is not in are passed over. -/
theorem writeBlocks_skip (h : w.finished = false → w.offset < k * CFI_SECTOR_SIZE ∨
    (k + n) * CFI_SECTOR_SIZE ≤ w.offset) : writeBlocks dev answers k n w = some w := by
  induction n generalizing k with
  | zero => rfl
  | succ n ih =>
      have hskip : writeBlock dev answers CFI_SECTOR_SIZE (k * CFI_SECTOR_SIZE) w = some w := by
        rw [writeBlock]
        by_cases hf : w.finished = true
        · rw [if_pos hf]
        · rw [if_neg hf, if_neg]
          have hout := h (by simpa using hf)
          simp only [Nat.add_mul, Nat.one_mul] at hout
          omega
      rw [writeBlocks_succ, hskip, Option.bind_some]
      refine ih fun hf => ?_
      have hout := h hf
      simp only [Nat.add_mul, Nat.one_mul] at hout ⊢
      omega

/-- Blocks behind blocks. -/
theorem writeBlocks_add (k i j : ℕ) (w : WriteState) : writeBlocks dev answers k (i + j) w =
    (writeBlocks dev answers k i w).bind (writeBlocks dev answers (k + i) j) := by
  rw [writeBlocks, ← List.range'_append_1, List.foldlM_append]
  rfl

/-- The regions are their blocks. -/
theorem writeRegions_eq {rs : List FlashRegion} (h : Tiles (k * CFI_SECTOR_SIZE) rs) :
    rs.foldlM (fun w region => writeRegion dev answers region w) w =
      writeBlocks dev answers k (blockCount rs) w := by
  induction rs generalizing k w with
  | nil => rfl
  | cons r rs ih =>
      obtain ⟨hoffset, hblock, hregion, hrest⟩ := h
      have hone : writeRegion dev answers r w =
          writeBlocks dev answers k r.number_of_blocks w := by
        have hloop : (List.range r.number_of_blocks).foldlM (fun w j =>
            writeBlock dev answers r.block_size (r.offset + j * r.block_size) w) w =
              writeBlocks dev answers k r.number_of_blocks w := by
          rw [writeBlocks, List.range'_eq_map_range, List.foldlM_map, hoffset, hblock]
          simp only [Nat.add_mul]
        rw [writeRegion, hloop]
        by_cases hin : ¬ w.finished ∧ r.offset ≤ w.offset ∧ w.offset < r.offset + r.region_size
        · rw [if_pos hin]
        · rw [if_neg hin, writeBlocks_skip]
          intro hf
          rw [hf, hoffset, hregion] at hin
          simp only [Bool.false_eq_true, not_false_eq_true, true_and] at hin
          rw [Nat.add_mul]
          omega
      have hnext : k * CFI_SECTOR_SIZE + r.region_size =
          (k + r.number_of_blocks) * CFI_SECTOR_SIZE := by rw [hregion, Nat.add_mul]
      rw [hnext] at hrest
      have hcount : blockCount (r :: rs) = r.number_of_blocks + blockCount rs := rfl
      rw [List.foldlM_cons, hone, hcount, writeBlocks_add]
      exact congrArg _ (funext fun w => ih hrest)

/-- **One block**: its part of the buffer is written over what the block holds, and the loop goes on
with the rest of the buffer unless there is none or an operation has failed. -/
theorem writeBlock_spec (hdev : dev.Regular) (hf : w.finished = false) (hret : w.ret_code = 0)
    (hlen : w.length ≤ w.src_addr.length) (hcover : Covers dev w.offset w.length)
    (hin : k * CFI_SECTOR_SIZE ≤ w.offset ∧ w.offset < (k + 1) * CFI_SECTOR_SIZE) :
    ∃ ops data, data = w.src_addr.take (min ((k + 1) * CFI_SECTOR_SIZE - w.offset) w.length) ∧
      (∀ rest ops', (rest ≠ [] → w.offset + data.length = (k + 1) * CFI_SECTOR_SIZE) →
        Rewrites CFI_SECTOR_SIZE dev.mode_width (run CFI_SECTOR_SIZE ops w.call.contents)
          (w.offset + data.length) rest ops' →
        Rewrites CFI_SECTOR_SIZE dev.mode_width w.call.contents w.offset (data ++ rest)
          (ops ++ ops')) ∧
      ∀ answers, writeBlock dev answers CFI_SECTOR_SIZE (k * CFI_SECTOR_SIZE) w =
        some (if w.length = data.length ∨ (w.call.carryOutAll answers ops).1 ≠ 0 then
          { w with
            ret_code := (w.call.carryOutAll answers ops).1
            call := (w.call.carryOutAll answers ops).2
            finished := true }
        else
          { w with
            offset := (k + 1) * CFI_SECTOR_SIZE
            src_addr := w.src_addr.drop data.length
            length := w.length - data.length
            ret_code := (w.call.carryOutAll answers ops).1
            call := (w.call.carryOutAll answers ops).2 }) := by
  have hsector : CFI_SECTOR_SIZE = 0x20000 := rfl
  have hblock : k * CFI_SECTOR_SIZE + CFI_SECTOR_SIZE = (k + 1) * CFI_SECTOR_SIZE := by
    rw [Nat.add_mul, Nat.one_mul]
  obtain ⟨m, hm⟩ : ∃ m, min ((k + 1) * CFI_SECTOR_SIZE - w.offset) w.length = m := ⟨_, rfl⟩
  obtain ⟨data, hdata⟩ : ∃ data, w.src_addr.take m = data := ⟨_, rfl⟩
  have hd : data.length = m := by
    rw [← hdata, List.length_take]
    omega
  have hone : ∀ i < data.length, (w.offset + i) / CFI_SECTOR_SIZE = w.offset / CFI_SECTOR_SIZE := by
    intro i hi
    rw [hsector] at hin hm ⊢
    omega
  have hlater : ∀ rest : List UInt8,
      (rest ≠ [] → w.offset + data.length = (k + 1) * CFI_SECTOR_SIZE) → rest ≠ [] →
        (w.offset + data.length) / CFI_SECTOR_SIZE ≠ w.offset / CFI_SECTOR_SIZE := by
    intro rest h hrest
    rw [h hrest]
    rw [hsector] at hin ⊢
    omega
  have hwidth : Covers dev w.offset m := by
    rw [Covers] at hcover ⊢
    rw [hsector] at hin hm
    rcases hdev.width with hw | hw | hw <;> rw [hw] at hcover ⊢ <;> omega
  have hrun : ∀ answers, writeBlock dev answers CFI_SECTOR_SIZE (k * CFI_SECTOR_SIZE) w =
      (if data ≠ bytesAt w.call.contents w.offset m then
        if (w.call.carryOut answers (.eraseSector (k * CFI_SECTOR_SIZE))).1 = 0 then
          altFlashProgramBlock dev answers w.offset w.src_addr m
            (w.call.after [.eraseSector (k * CFI_SECTOR_SIZE)])
        else some (w.call.carryOut answers (.eraseSector (k * CFI_SECTOR_SIZE)))
      else some (0, w.call)).map fun (ret_code, call) =>
        if w.length = m ∨ ret_code ≠ 0 then
          { w with ret_code := ret_code, call := call, finished := true }
        else
          { w with
            offset := (k + 1) * CFI_SECTOR_SIZE
            src_addr := w.src_addr.drop m
            length := w.length - m
            ret_code := ret_code
            call := call } := by
    intro answers
    rw [writeBlock, hf, if_neg Bool.false_ne_true, hblock, if_pos hin]
    simp only [hm]
    have hsource : sourceBytes w.src_addr 0 m = some ((w.src_addr.drop 0).take m) :=
      sourceBytes_eq (by omega)
    rw [hsource, Option.bind_some, List.drop_zero, hdata, hret]
    rfl
  by_cases hsame : data = bytesAt w.call.contents w.offset m
  · refine ⟨[], data, hdata.symm.trans (by rw [hm]), fun rest ops' hend hrest => ?_,
      fun answers => ?_⟩
    · exact .keep hone (by rw [hd]; exact hsame.symm) (hlater rest hend) hrest
    · rw [hrun, if_neg (not_not.mpr hsame), Option.map_some, hd, carryOutAll_nil]
  · have hsource : m ≤ w.src_addr.length := by omega
    obtain ⟨words, hwords, hprog⟩ := altFlashProgramBlock_spec
      (s := w.call.after [.eraseSector (k * CFI_SECTOR_SIZE)]) hdev hwidth hsource
    rw [hdata] at hwords
    refine ⟨.eraseSector (k * CFI_SECTOR_SIZE) :: words, data, hdata.symm.trans (by rw [hm]),
      fun rest ops' hend hrest => ?_, fun answers => ?_⟩
    · refine .write hone (by rw [hd]; exact Ne.symm hsame) (hlater rest hend) ?_ hwords hrest
      rw [hsector] at hin ⊢
      omega
    · rw [hrun, if_pos hsame, hprog, hd, FlashCall.carryOutAll]
      by_cases herase : (w.call.carryOut answers (.eraseSector (k * CFI_SECTOR_SIZE))).1 = 0
      · rw [if_pos herase, if_pos herase, Option.map_some]
        rfl
      · rw [if_neg herase, if_neg herase, Option.map_some]

/-- A buffer that ends in a block goes no further. -/
theorem min_last {a b o l d : ℕ} (hd : d = min (a - o) l) (hall : l = d) (hle : a ≤ b) :
    min (b - o) l = min (a - o) l := by omega

/-- One that does not fills the block. -/
theorem min_next {a o l d : ℕ} (hd : d = min (a - o) l) (hin : o < a) (hall : ¬ l = d) :
    o + d = a := by omega

/-- And goes on behind it. -/
theorem min_add {a b o l d : ℕ} (hd : d = min (a - o) l) (hnext : o + d = a) (hle : a ≤ b) :
    min (b - o) l = d + min (b - a) (l - d) := by omega

/-- **The blocks from one on.** -/
theorem writeBlocks_spec (hdev : dev.Regular) (hf : w.finished = false) (hret : w.ret_code = 0)
    (hlen : w.length ≤ w.src_addr.length) (hcover : Covers dev w.offset w.length)
    (hk : k * CFI_SECTOR_SIZE ≤ w.offset) :
    ∃ ops, Rewrites CFI_SECTOR_SIZE dev.mode_width w.call.contents w.offset
        (w.src_addr.take (min ((k + n) * CFI_SECTOR_SIZE - w.offset) w.length)) ops ∧
      ∀ answers, (writeBlocks dev answers k n w).map (fun w => (w.ret_code, w.call)) =
        some (w.call.carryOutAll answers ops) := by
  induction n generalizing k w with
  | zero =>
      refine ⟨[], ?_, fun answers => ?_⟩
      · have hzero : k * CFI_SECTOR_SIZE - w.offset = 0 := Nat.sub_eq_zero_of_le hk
        rw [Nat.add_zero, hzero, Nat.zero_min, List.take_zero]
        exact .nil
      · rw [writeBlocks_skip fun _ => .inr (by rwa [Nat.add_zero]), Option.map_some, hret,
          carryOutAll_nil]
  | succ n ih =>
      have hcount : k + (n + 1) = k + 1 + n := by omega
      rw [hcount]
      rcases Nat.lt_or_ge w.offset ((k + 1) * CFI_SECTOR_SIZE) with hin | hout
      · obtain ⟨ops, data, hdata, hrewrites, hrun⟩ :=
          writeBlock_spec hdev hf hret hlen hcover ⟨hk, hin⟩
        have hd : data.length = min ((k + 1) * CFI_SECTOR_SIZE - w.offset) w.length := by
          rw [hdata, List.length_take]
          omega
        have hend : (k + 1) * CFI_SECTOR_SIZE ≤ (k + 1 + n) * CFI_SECTOR_SIZE :=
          Nat.mul_le_mul_right _ (by omega)
        by_cases hall : w.length = data.length
        · -- the buffer ends in this block
          have htake : w.src_addr.take (min ((k + 1 + n) * CFI_SECTOR_SIZE - w.offset) w.length) =
              data ++ [] := by
            have hsame : min ((k + 1 + n) * CFI_SECTOR_SIZE - w.offset) w.length =
              min ((k + 1) * CFI_SECTOR_SIZE - w.offset) w.length := min_last hd hall hend
            rw [List.append_nil, hdata, hsame]
          have hops := hrewrites [] [] (by simp) .nil
          rw [List.append_nil ops] at hops
          refine ⟨ops, by rwa [htake], fun answers => ?_⟩
          rw [writeBlocks_succ, hrun, if_pos (.inl hall), Option.bind_some,
            writeBlocks_skip (by simp), Option.map_some]
        · have hnext : w.offset + data.length = (k + 1) * CFI_SECTOR_SIZE := min_next hd hin hall
          obtain ⟨w', hw'⟩ : ∃ w' : WriteState, w' =
              { w with
                offset := (k + 1) * CFI_SECTOR_SIZE
                src_addr := w.src_addr.drop data.length
                length := w.length - data.length
                ret_code := 0
                call := w.call.after ops } := ⟨_, rfl⟩
          have haligned : Covers dev w'.offset w'.length := by
            left
            rw [hw']
            change (k + 1) * 0x20000 % dev.mode_width = 0
            rcases hdev.width with hw | hw | hw <;> rw [hw] <;> omega
          obtain ⟨ops', hops', hrun'⟩ := ih (k := k + 1) (w := w') (by rw [hw']; exact hf)
            (by rw [hw']) (by rw [hw', List.length_drop]; dsimp only; omega) haligned (by rw [hw'])
          have htake : w.src_addr.take (min ((k + 1 + n) * CFI_SECTOR_SIZE - w.offset) w.length) =
              data ++ w'.src_addr.take
                (min ((k + 1 + n) * CFI_SECTOR_SIZE - w'.offset) w'.length) := by
            have hcount : min ((k + 1 + n) * CFI_SECTOR_SIZE - w.offset) w.length =
                data.length + min ((k + 1 + n) * CFI_SECTOR_SIZE - (k + 1) * CFI_SECTOR_SIZE)
                  (w.length - data.length) := min_add hd hnext hend
            have hfront : w.src_addr.take data.length = data := by rw [hd, ← hdata]
            rw [hcount, List.take_add, hfront, hw']
          refine ⟨ops ++ ops', ?_, fun answers => ?_⟩
          · rw [htake]
            refine hrewrites _ _ (fun _ => hnext) ?_
            rw [hnext]
            rw [hw'] at hops'
            rw [hw']
            exact hops'
          · rw [writeBlocks_succ, hrun, carryOutAll_append]
            by_cases hok : (w.call.carryOutAll answers ops).1 = 0
            · rw [if_neg (by simp [hall, hok]), if_pos hok, Option.bind_some, carryOutAll_ok hok,
                ← hw', hrun', hw']
            · rw [if_pos (.inr hok), if_neg hok, Option.bind_some, writeBlocks_skip (by simp),
                Option.map_some]
      · obtain ⟨ops, hops, hrun⟩ := ih hf hret hlen hcover hout
        refine ⟨ops, hops, fun answers => ?_⟩
        have hskip : writeBlocks dev answers k 1 w = some w :=
          writeBlocks_skip fun _ => .inr hout
        rw [Nat.add_comm n 1, writeBlocks_add, hskip, Option.bind_some, hrun]

/-- The blocks of a device with a regular table are the sectors of the flash. -/
structure AltFlashCfiDev.Uniform (dev : AltFlashCfiDev) : Prop extends dev.Regular where
  tiles : Tiles 0 dev.region_info

/-- **The buffer is written over what the flash holds**, as far as the device goes and up to the
first failure. -/
theorem altFlashCfiWrite_spec (hdev : dev.Uniform) (flash : Contents)
    (hlen : length ≤ src_addr.length) (hcover : Covers dev offset length) :
    ∃ ops, Rewrites CFI_SECTOR_SIZE dev.mode_width flash offset
        (src_addr.take (min (dev.size - offset) length)) ops ∧
      ∀ answers, altFlashCfiWrite dev answers flash offset src_addr length =
        some (FlashCall.carryOutAll answers ⟨flash, []⟩ ops) := by
  have htiles : Tiles (0 * CFI_SECTOR_SIZE) dev.region_info := by
    rw [Nat.zero_mul]
    exact hdev.tiles
  obtain ⟨ops, hops, hrun⟩ := writeBlocks_spec (k := 0) (n := blockCount dev.region_info)
    (w := ⟨offset, src_addr, length, 0, false, ⟨flash, []⟩⟩) hdev.toRegular rfl rfl hlen hcover
    (by rw [Nat.zero_mul]; exact Nat.zero_le _)
  rw [Nat.zero_add] at hops
  refine ⟨ops, hops, fun answers => ?_⟩
  rw [altFlashCfiWrite, writeRegions_eq htiles, hrun]

/-- The part of a buffer that lies on the device. -/
def writtenPart (dev : AltFlashCfiDev) (offset : ℕ) (src_addr : List UInt8) (length : ℕ) :
    List UInt8 :=
  src_addr.take (min (dev.size - offset) length)

/-- What has been carried out where an operation has failed: all before it, and it. -/
theorem carryOutAll_failed (h : (s.carryOutAll answers ops).1 ≠ 0) : ∃ done op rest,
    ops = done ++ op :: rest ∧ (s.carryOutAll answers ops).2.ops = s.ops ++ (done ++ [op]) ∧
      (s.carryOutAll answers ops).1 = answers (s.ops.length + done.length) := by
  induction ops generalizing s with
  | nil => exact absurd rfl h
  | cons op ops ih =>
      rw [FlashCall.carryOutAll] at h ⊢
      by_cases hop : (s.carryOut answers op).1 = 0
      · rw [if_pos hop] at h ⊢
        obtain ⟨done, op', rest, rfl, hops, hcode⟩ := ih h
        refine ⟨op :: done, op', rest, rfl, ?_, ?_⟩
        · rw [hops]
          simp [FlashCall.carryOut]
        · rw [hcode]
          simp [FlashCall.carryOut, Nat.add_comm, Nat.add_left_comm]
      · rw [if_neg hop]
        exact ⟨[], op, ops, rfl, rfl, rfl⟩

/-- Whatever it ends with, a call has done the first of the operations. -/
theorem carryOutAll_prefix (answers : Answers) (s : FlashCall) (ops : List Op) :
    ∃ rest, s.ops ++ ops = (s.carryOutAll answers ops).2.ops ++ rest := by
  by_cases h : (s.carryOutAll answers ops).1 = 0
  · exact ⟨[], by rw [carryOutAll_ok h, List.append_nil]; rfl⟩
  · obtain ⟨done, op, rest, rfl, hops, -⟩ := carryOutAll_failed h
    exact ⟨rest, by rw [hops]; simp⟩

/-- **What a write leaves**: a call that returns 0 has written the buffer as far as it lies on the
device, so that it reads back, has erased what else was in the blocks it differed in, and has left
the other blocks alone; it has done nothing at all where the buffer was there. Any other code is the
device's answer to the operation that the call has stopped behind. -/
theorem altFlashCfiWrite_writes (dev : AltFlashCfiDev) (hdev : dev.Uniform) (answers : Answers)
    (flash : Contents) (offset : ℕ) (src_addr : List UInt8) (length : ℕ)
    (hlen : length ≤ src_addr.length) (hcover : Covers dev offset length) :
    ∃ ret_code call, altFlashCfiWrite dev answers flash offset src_addr length =
        some (ret_code, call) ∧
      (ret_code = 0 →
        Rewritten CFI_SECTOR_SIZE flash offset (writtenPart dev offset src_addr length)
            call.contents ∧
          altFlashCfiRead call.contents offset (writtenPart dev offset src_addr length).length =
            (0, writtenPart dev offset src_addr length)) ∧
      (call.ops = [] ↔
        (altFlashCfiRead flash offset (writtenPart dev offset src_addr length).length).2 =
          writtenPart dev offset src_addr length) ∧
      (ret_code ≠ 0 → ∃ done op, call.ops = done ++ [op] ∧ ret_code = answers done.length) := by
  obtain ⟨ops, hops, hrun⟩ := altFlashCfiWrite_spec hdev flash hlen hcover
  have hnil := hops.eq_nil_iff
  refine ⟨_, _, hrun answers, fun hret => ?_, ?_, fun hret => ?_⟩
  · rw [carryOutAll_ok hret]
    have hwritten := hops.run_eq
    refine ⟨hwritten, Prod.ext rfl ?_⟩
    exact bytesAt_eq_iff.mpr hwritten.written
  · rw [altFlashCfiRead, ← writtenPart] at *
    rw [← hnil]
    by_cases hret : (FlashCall.carryOutAll answers ⟨flash, []⟩ ops).1 = 0
    · rw [carryOutAll_ok hret]
      rfl
    · obtain ⟨done, op, rest, rfl, hdone, -⟩ := carryOutAll_failed hret
      rw [hdone]
      simp
  · obtain ⟨done, op, rest, rfl, hdone, hcode⟩ := carryOutAll_failed hret
    refine ⟨done, op, hdone, ?_⟩
    rw [hcode]
    simp

/-- The flash of the card: 16 MiB in sectors of one size, on a bus of 16 bits. -/
def cfi0 : AltFlashCfiDev where
  base_addr := 0x3000000
  region_info := [⟨0, 128 * CFI_SECTOR_SIZE, 128, CFI_SECTOR_SIZE⟩]
  mode_width := 2

theorem cfi0_uniform : cfi0.Uniform where
  width := .inr (.inl rfl)
  base := by decide
  tiles := ⟨rfl, rfl, rfl, trivial⟩

/-- Three bytes from an odd address on. -/
theorem altFlashCfiWrite_writes_odd : ∃ ret_code call,
    altFlashCfiWrite cfi0 (fun _ => 0) (fun _ => 0) 0x640001 [1, 2, 3] 3 =
        some (ret_code, call) ∧
      (ret_code = 0 →
        Rewritten CFI_SECTOR_SIZE (fun _ => 0) 0x640001 (writtenPart cfi0 0x640001 [1, 2, 3] 3)
            call.contents ∧
          altFlashCfiRead call.contents 0x640001 (writtenPart cfi0 0x640001 [1, 2, 3] 3).length =
            (0, writtenPart cfi0 0x640001 [1, 2, 3] 3)) ∧
      (call.ops = [] ↔ (altFlashCfiRead (fun _ => 0) 0x640001
        (writtenPart cfi0 0x640001 [1, 2, 3] 3).length).2 = writtenPart cfi0 0x640001 [1, 2, 3] 3) ∧
      (ret_code ≠ 0 → ∃ done op, call.ops = done ++ [op] ∧ ret_code = 0) :=
  altFlashCfiWrite_writes cfi0 cfi0_uniform (fun _ => 0) (fun _ => 0) 0x640001 [1, 2, 3] 3
    (by decide) (.inr (by decide))

/-! ### A power cut while the preferences are saved -/

/-- `PREFERENCES_OFFSET`. -/
def PREFERENCES_OFFSET : ℕ := 0x840000

/-- `IPGLB_WriteUserPrefsCallback`. -/
def ipglbWriteUserPrefsCallback (dev : AltFlashCfiDev) (answers : Answers) (flash : Contents)
    (pSrc : List UInt8) : Option (Int32 × FlashCall) :=
  altFlashCfiWrite dev answers flash PREFERENCES_OFFSET pSrc pSrc.length

/-- `IPGLB_ReadUserPrefsCallback`. -/
def ipglbReadUserPrefsCallback (flash : Contents) (length : UInt32) : Int32 × List UInt8 :=
  altFlashCfiRead flash PREFERENCES_OFFSET length.toNat

section PowerCut

open Memory

variable {l : PreferencesList} {heap : Heap} {m m' : Mem} {flash' : Contents} {block : List UInt8}

/-- A block that does not end in the signature is refused, and one that is the record restored. -/
theorem readUserSettings_block (h : l.Fits) (hlen : block.length = totalSize l.nodes + 68)
    {readCallback : UInt32 → Int32 × List UInt8}
    (hread : readCallback (recordSize l.size) = (RET_SUCCESS, block))
    (hend : block.drop (totalSize l.nodes + 36) = USER_PREFS_SIGNATURE → block = prefsRecord m l) :
    readUserSettings l readCallback m' =
        some (RET_SUCCESS, restore l.nodes (snapshot m l.nodes) m') ∨
      readUserSettings l readCallback m' = some (RET_FAIL, m') := by
  by_cases htail : block.drop (totalSize l.nodes + 36) = USER_PREFS_SIGNATURE
  · left
    rw [hend htail] at hread
    rw [readUserSettings_fields h signature_length intBytes_length snapshot_length signature_length
      hread, if_pos ⟨rfl, rfl, rfl⟩]
  · right
    have hsplit : block = block.take 32 ++ (block.drop 32).take 4 ++
        (block.drop 36).take (totalSize l.nodes) ++ block.drop (totalSize l.nodes + 36) := by
      have h1 : block.drop (totalSize l.nodes + 36) = (block.drop 36).drop (totalSize l.nodes) := by
        rw [List.drop_drop, Nat.add_comm]
      have h2 : block.drop 36 = (block.drop 32).drop 4 := by rw [List.drop_drop]
      rw [h1, List.append_assoc, List.take_append_drop, h2, List.append_assoc,
        List.take_append_drop, List.take_append_drop]
    rw [hsplit] at hread
    rw [readUserSettings_fields h (by rw [List.length_take]; omega)
      (by rw [List.length_take, List.length_drop]; omega)
      (by rw [List.length_take, List.length_drop]; omega) (by rw [List.length_drop]; omega) hread,
      if_neg fun hall => htail hall.2.2]

/-- The record ends in the signature. -/
theorem prefsRecord_getD_tail (j : ℕ) : (prefsRecord m l).getD (totalSize l.nodes + 36 + j) 0xFF =
    USER_PREFS_SIGNATURE.getD j 0xFF := by
  have hfront : (USER_PREFS_SIGNATURE ++ intBytes l.size ++ snapshot m l.nodes).length =
      totalSize l.nodes + 36 := by
    simp only [List.length_append, signature_length, intBytes_length, snapshot_length]
    omega
  rw [prefsRecord, List.getD_append_right _ _ _ _ (by omega), hfront, Nat.add_sub_cancel_left]

/-- **A power cut while the preferences are saved** is survived wherever their record lies in one
block and no block is half erased: at the next boot they are what they were before the save, or what
was saved, or they are refused as a whole and the memory stays as it is. -/
theorem userPrefs_powerCut (dev : AltFlashCfiDev) (hdev : dev.Uniform) (answers : Answers)
    (l : PreferencesList) (heap : Heap) (m m' : Mem) (flash flash' : Contents) (record : List UInt8)
    (ret_code : Int32) (call : FlashCall) (hcommit : commitUserSettings heap m l = some record)
    (hblock : record.length ≤ CFI_SECTOR_SIZE)
    (hdevice : PREFERENCES_OFFSET + record.length ≤ dev.size)
    (hwrite : ipglbWriteUserPrefsCallback dev answers flash record = some (ret_code, call))
    (hcut : CutShort CFI_SECTOR_SIZE Op.IsProgram call.ops flash flash') :
    readUserSettings l (ipglbReadUserPrefsCallback flash') m' =
        readUserSettings l (ipglbReadUserPrefsCallback flash) m' ∨
      readUserSettings l (ipglbReadUserPrefsCallback flash') m' =
        some (RET_SUCCESS, restore l.nodes (snapshot m l.nodes) m') ∨
      readUserSettings l (ipglbReadUserPrefsCallback flash') m' = some (RET_FAIL, m') := by
  obtain ⟨hfits, rfl⟩ := commitUserSettings_eq_some_iff.mp hcommit
  have hsector : CFI_SECTOR_SIZE = 0x20000 := rfl
  have hoffset : PREFERENCES_OFFSET = 0x20000 * 66 := rfl
  have hcover : Covers dev PREFERENCES_OFFSET (prefsRecord m l).length := by
    left
    rw [hoffset]
    rcases hdev.width with hw | hw | hw <;> rw [hw]
  obtain ⟨ops, hops, hrun⟩ := altFlashCfiWrite_spec hdev flash le_rfl hcover
  have hwhole : min (dev.size - PREFERENCES_OFFSET) (prefsRecord m l).length =
      (prefsRecord m l).length := by omega
  rw [hwhole, List.take_length] at hops
  -- a call that fails is cut short by itself
  replace hcut : CutShort CFI_SECTOR_SIZE Op.IsProgram ops flash flash' := by
    obtain ⟨rest, hrest⟩ := carryOutAll_prefix answers ⟨flash, []⟩ ops
    rw [ipglbWriteUserPrefsCallback, hrun, Option.some.injEq] at hwrite
    rw [hwrite, List.nil_append] at hrest
    rw [hrest]
    exact hcut.append_right
  have hlen : (prefsRecord m l).length = totalSize l.nodes + 68 := prefsRecord_length
  have hread : ipglbReadUserPrefsCallback flash' (recordSize l.size) =
      (RET_SUCCESS, bytesAt flash' PREFERENCES_OFFSET (prefsRecord m l).length) := by
    rw [ipglbReadUserPrefsCallback, altFlashCfiRead, hfits.recordSize_toNat, hlen]
    rfl
  have hone : ∀ i < (prefsRecord m l).length,
      (PREFERENCES_OFFSET + i) / CFI_SECTOR_SIZE = PREFERENCES_OFFSET / CFI_SECTOR_SIZE := by
    intro i hi
    rw [hsector] at hblock
    rw [hoffset, hsector]
    omega
  rcases hops.one_sector hone with rfl | ⟨b, words, rfl, hb, hprog⟩
  · obtain rfl : flash' = flash := hcut
    exact .inl rfl
  rcases hcut with rfl | ⟨hP, -⟩ | hcut
  · exact .inl rfl
  · exact hP.elim
  -- the block is erased, and what was programmed counts where its signature is there
  refine .inr (readUserSettings_block hfits (length_bytesAt.trans hlen) hread fun hend => ?_)
  have hwords : dev.mode_width ≤ 32 := by
    have := hdev.width
    omega
  refine hprog.whole_of_tail hcut (fun i hi => ?_) hwords ?_ fun i hi hback => ?_
  · exact apply_eraseSector ((hone i hi).trans hb.symm)
  · have hlast : totalSize l.nodes + 68 - 1 = totalSize l.nodes + 36 + 31 := by omega
    rw [hlen, hlast, prefsRecord_getD_tail]
    decide
  · obtain ⟨j, rfl⟩ := Nat.exists_eq_add_of_le (show totalSize l.nodes + 36 ≤ i by omega)
    rw [prefsRecord_getD_tail, ← hend, List.getD_eq_getElem?_getD, List.getElem?_drop,
      ← List.getD_eq_getElem?_getD, getD_bytesAt hi]

/-- Two preferences, and the power cut where nothing or everything has been written. -/
theorem userPrefs_powerCut_two : ∃ ret_code call,
    ipglbWriteUserPrefsCallback cfi0 (fun _ => 0) (fun _ => 0xFF)
      (prefsRecord addressMemory twoPreferences) = some (ret_code, call) ∧
    ∀ flash' ∈ [fun _ => 0xFF, run CFI_SECTOR_SIZE call.ops fun _ => 0xFF],
      readUserSettings twoPreferences (ipglbReadUserPrefsCallback flash') (fun _ => 0) =
          readUserSettings twoPreferences (ipglbReadUserPrefsCallback fun _ => 0xFF) (fun _ => 0) ∨
        readUserSettings twoPreferences (ipglbReadUserPrefsCallback flash') (fun _ => 0) =
          some (RET_SUCCESS, restore twoPreferences.nodes
            (snapshot addressMemory twoPreferences.nodes) fun _ => 0) ∨
        readUserSettings twoPreferences (ipglbReadUserPrefsCallback flash') (fun _ => 0) =
          some (RET_FAIL, fun _ => 0) := by
  have hfits : twoPreferences.Fits := by unfold PreferencesList.Fits; decide
  have hlen : (prefsRecord addressMemory twoPreferences).length ≤ CFI_SECTOR_SIZE := by
    rw [prefsRecord_length]
    decide
  have hdevice : PREFERENCES_OFFSET + (prefsRecord addressMemory twoPreferences).length ≤
      cfi0.size := by
    rw [prefsRecord_length]
    decide
  obtain ⟨ops, -, hrun⟩ := altFlashCfiWrite_spec cfi0_uniform (fun _ => 0xFF) le_rfl
    (.inl (by decide) : Covers cfi0 PREFERENCES_OFFSET
      (prefsRecord addressMemory twoPreferences).length)
  refine ⟨_, _, hrun _, fun flash' hflash => ?_⟩
  refine userPrefs_powerCut cfi0 cfi0_uniform (fun _ => 0) twoPreferences clearedHeap addressMemory
    (fun _ => 0) (fun _ => 0xFF) flash' _ _ _
    (commitUserSettings_eq_some_iff.mpr ⟨hfits, rfl⟩) hlen hdevice (hrun _) ?_
  rcases List.mem_cons.mp hflash with rfl | hflash
  · exact CutShort.start
  · obtain rfl := List.mem_singleton.mp hflash
    exact CutShort.run

end PowerCut

end Muxponder.CfiFlash
