import Muxponder.KursFlashImage

/-!
# The Checksum behind the Image

`FINISH` has the checksum of the image written behind it; `load_new_image_if_valid` of
`main.c` computes the checksum again and compares it with what it reads there. The writer
hands the checksum to `lld_memcpy` as the address of the data, so what is programmed is
whatever the processor's memory holds at that address, cut down by what the flash held.

## Main results

* `finish_agrees_iff`: a `FINISH` completes and leaves a checksum the loader accepts
  exactly when the blocks do not fill the region and the bytes found in memory happen to
  be the checksum.
-/

namespace Muxponder

open CString Digits NorFlash

/-- `flash_crc_read`: the checksum the loader reads behind the image, low byte first. -/
def flashCrcRead (flash : Contents) : UInt16 :=
  (flash (REMOTE_IMAGE_OFFSET_IN_FLASH + REMOTE_IMAGE_SIZE_IN_FLASH - 4)).toUInt16 |||
    (flash (REMOTE_IMAGE_OFFSET_IN_FLASH + REMOTE_IMAGE_SIZE_IN_FLASH - 3)).toUInt16 <<< 8

/-- `load_new_image_if_valid`: whether it resets into the image in the flash. -/
def loadNewImageIfValid (flash : Contents) : Bool :=
  let flash_crc_calculated := imageCrc flash
  let flash_crc_read := flashCrcRead flash
  if flash_crc_read ≠ flash_crc_calculated then false else true

/-- The checksum read is the one computed. -/
theorem loadNewImageIfValid_iff {flash : Contents} :
    loadNewImageIfValid flash = true ↔ flashCrcRead flash = imageCrc flash := by
  simp [loadNewImageIfValid]

/-- Two bytes make a word, low byte first. -/
theorem word_eq_iff {a b : UInt8} {w : UInt16} :
    a.toUInt16 ||| b.toUInt16 <<< 8 = w ↔ a = w.toUInt8 ∧ b = (w >>> 8).toUInt8 := by
  have ha := a.toNat_lt
  have hb := b.toNat_lt
  have hw := w.toNat_lt
  have hor : (a.toUInt16 ||| b.toUInt16 <<< 8).toNat = b.toNat * 2 ^ 8 + a.toNat := by
    have hshift : (b.toUInt16 <<< 8).toNat = b.toNat <<< 8 := by
      simp only [UInt16.toNat_shiftLeft, UInt8.toNat_toUInt16, Nat.shiftLeft_eq]
      have h8 : (8 : UInt16).toNat % 16 = 8 := rfl
      rw [h8, Nat.mod_eq_of_lt (by omega)]
    rw [UInt16.toNat_or, hshift, UInt8.toNat_toUInt16, Nat.or_comm,
      ← Nat.shiftLeft_add_eq_or_of_lt ha, Nat.shiftLeft_eq]
  have hlow : w.toUInt8.toNat = w.toNat % 256 := by simp
  have hhigh : (w >>> 8).toUInt8.toNat = w.toNat / 256 := by
    have h8 : (8 : UInt16).toNat % 16 = 8 := rfl
    rw [UInt16.toNat_toUInt8, UInt16.toNat_shiftRight, h8, Nat.shiftRight_eq_div_pow]
    omega
  rw [← UInt16.toNat_inj, ← UInt8.toNat_inj, ← UInt8.toNat_inj, hor, hlow, hhigh]
  omega

/-- The checksum of the image does not depend on the bytes behind it. -/
theorem imageCrc_slot {flash : Contents} {d : List UInt8} :
    imageCrc ((Op.program (FLASH_COPY_END - 4) d).apply CFI_SECTOR_SIZE flash) =
      imageCrc flash := by
  have hoffset : REMOTE_IMAGE_OFFSET_IN_FLASH = 0x440000 := rfl
  have hsize : REMOTE_IMAGE_SIZE_IN_FLASH = 0x200000 := rfl
  have hend : FLASH_COPY_END = 0x640000 := rfl
  have hread : ∀ i < REMOTE_IMAGE_SIZE_IN_FLASH - 4,
      (Op.program (FLASH_COPY_END - 4) d).apply CFI_SECTOR_SIZE flash
        (REMOTE_IMAGE_OFFSET_IN_FLASH + i) = flash (REMOTE_IMAGE_OFFSET_IN_FLASH + i) := by
    intro i hi
    refine apply_untouched ?_
    intro ht
    have : FLASH_COPY_END - 4 ≤ REMOTE_IMAGE_OFFSET_IN_FLASH + i := ht.1
    omega
  have hsame : readFlash ((Op.program (FLASH_COPY_END - 4) d).apply CFI_SECTOR_SIZE flash)
      REMOTE_IMAGE_OFFSET_IN_FLASH (REMOTE_IMAGE_SIZE_IN_FLASH - 4) =
      readFlash flash REMOTE_IMAGE_OFFSET_IN_FLASH (REMOTE_IMAGE_SIZE_IN_FLASH - 4) :=
    List.map_congr_left fun i hi => hread i (List.mem_range.mp hi)
  rw [imageCrc, imageCrc, hsame]

/-- The bytes of the processor's memory that `FINISH` programs are those of the checksum,
and the flash takes them. -/
structure SlotTakesCrc (memory : ℕ → UInt8) (flash : Contents) : Prop where
  low : flash (FLASH_COPY_END - 4) &&& memory (imageCrc flash).toNat =
    (imageCrc flash).toUInt8
  high : flash (FLASH_COPY_END - 3) &&& memory ((imageCrc flash).toNat + 1) =
    (imageCrc flash >>> 8).toUInt8

/-- What the loader finds behind an image that `FINISH` has completed. -/
theorem loader_agrees_iff {memory : ℕ → UInt8} {flash : Contents} :
    flashCrcRead ((Op.program (FLASH_COPY_END - 4) (checksumBytes memory flash)).apply
        CFI_SECTOR_SIZE flash) =
      imageCrc ((Op.program (FLASH_COPY_END - 4) (checksumBytes memory flash)).apply
        CFI_SECTOR_SIZE flash) ↔ SlotTakesCrc memory flash := by
  have hlen : (checksumBytes memory flash).length = 4 := by simp [checksumBytes]
  have hslot : ∀ i, i < 4 →
      (Op.program (FLASH_COPY_END - 4) (checksumBytes memory flash)).apply CFI_SECTOR_SIZE
        flash (FLASH_COPY_END - 4 + i) =
      flash (FLASH_COPY_END - 4 + i) &&& memory ((imageCrc flash).toNat + i) := by
    intro i hi
    rw [apply_program (by omega), List.getD_eq_getElem _ _ (by omega)]
    simp [checksumBytes]
  rw [imageCrc_slot, flashCrcRead, word_eq_iff]
  have h0 := hslot 0 (by omega)
  have h1 := hslot 1 (by omega)
  have hoffset : REMOTE_IMAGE_OFFSET_IN_FLASH = 0x440000 := rfl
  have hsize : REMOTE_IMAGE_SIZE_IN_FLASH = 0x200000 := rfl
  have hend : FLASH_COPY_END = 0x640000 := rfl
  have hlow : REMOTE_IMAGE_OFFSET_IN_FLASH + REMOTE_IMAGE_SIZE_IN_FLASH - 4 =
      FLASH_COPY_END - 4 + 0 := by omega
  have hhigh : REMOTE_IMAGE_OFFSET_IN_FLASH + REMOTE_IMAGE_SIZE_IN_FLASH - 3 =
      FLASH_COPY_END - 4 + 1 := by omega
  have hthree : FLASH_COPY_END - 3 = FLASH_COPY_END - 4 + 1 := by omega
  rw [hlow, hhigh, h0, h1, ← hthree, Nat.add_zero, Nat.add_zero]
  exact ⟨fun h => ⟨h.1, h.2⟩, fun h => ⟨h.low, h.high⟩⟩

/-- A `FINISH` request that finds its session alive. -/
structure LiveFinish (s : RemoteUpdate) (c : UpdateCall) : Prop where
  finish : c.isFinish = true
  started : s.bFwUpdateStarted = true
  inTime : c.nticks - s.dwLastActionTime ≤ s.dwLastTimeout

/-- A `FINISH` keeps writer and loader in agreement: an image answered with `COMPLETE`
carries the checksum the loader computes, and an image that fills the region is answered
with `COMPLETE`. -/
structure FinishAgrees (n : ℕ) (s' : RemoteUpdate) (c : UpdateCall) (o : UpdateReply) :
    Prop where
  loader : ∀ header, requestHeader c.str_rx = some header →
    o.reply = makeAnswerHEXCRC header (ascii "COMPLETE") →
      flashCrcRead s'.flash = imageCrc s'.flash
  full : n = 32768 → ∀ header, requestHeader c.str_rx = some header →
    o.reply = makeAnswerHEXCRC header (ascii "COMPLETE")

/-- A live `FINISH` ends the session. -/
theorem liveFinish_step {tps : UInt32} {s s' : RemoteUpdate} {c : UpdateCall}
    {o : UpdateReply} (hlive : LiveFinish s c) (hstep : UpdateStep tps s c s' o) :
    ∃ header, requestHeader c.str_rx = some header ∧
      finishLoad s c header = some (s', o) := by
  obtain ⟨hf, hs, ht⟩ := hlive
  cases hstep with
  | apart hx hf' hb hs' ho => rw [hf] at hf'; exact absurd hf' (by simp)
  | hexload hh hx =>
      exfalso
      cases htext : c.text with
      | none => simp [UpdateCall.isFinish, UpdateCall.hasCommand, htext] at hf
      | some str =>
          rw [UpdateCall.isFinish, UpdateCall.hasCommand_of_text htext] at hf
          rw [UpdateCall.isHexload, UpdateCall.hasCommand_of_text htext,
            command_exclusive hf (by simp [commands]) "HEXLOAD" (by simp [commands])
              (by simp)] at hx
          exact absurd hx (by simp)
  | timeout hh hx ht' => exact absurd ht' (UInt32.not_lt.mpr ht)
  | idle hh hx hs' => rw [hs] at hs'; exact absurd hs' (by simp)
  | finish hh hx hf' ht' hs' hstep => exact ⟨_, hh, hstep⟩
  | block hh hx hf' hb hstr ht' hs' hstep => rw [hf] at hf'; exact absurd hf' (by simp)

/-- **Writer and loader**: after any run, a `FINISH` of a live session keeps them in
agreement exactly when the blocks do not fill the region and the memory at the address
that the checksum makes holds the checksum's own bytes, as far as the flash takes them. -/
theorem finish_agrees_iff {tps : UInt32} {flash : Contents} {h : UpdateHistory}
    {s s' : RemoteUpdate} {c : UpdateCall} {o : UpdateReply}
    (hr : (updateMachine tps).Run (updateInit flash) h s)
    (hstep : (updateMachine tps).step s c = some (s', o)) (hlive : LiveFinish s c) :
    FinishAgrees (acceptedOf (sinceHexload h)).length s' c o ↔
      (acceptedOf (sinceHexload h)).length < 32768 ∧ SlotTakesCrc c.memory s.flash := by
  have hl := sessionLedger_run hr
  have hload := hl.load (hl.started hlive.started)
  obtain ⟨header, hh, hfin⟩ := liveFinish_step hlive (update_step hstep)
  rcases finishLoad_cases hload.cursor hfin with ⟨hn, rfl, rfl⟩ | ⟨hn, rfl, rfl⟩
  · constructor
    · intro hagree
      exact ⟨hn, loader_agrees_iff.mp (hagree.loader header hh rfl)⟩
    · rintro ⟨-, hslot⟩
      exact ⟨fun _ _ _ => loader_agrees_iff.mpr hslot, fun hfull => by omega⟩
  · constructor
    · intro hagree
      have heq := makeAnswerHEXCRC_inj (hagree.full hn header hh)
      exact absurd heq (by decide)
    · rintro ⟨hlt, -⟩
      omega

/-- The processor's memory in which no address below `2 ^ 16` finds its own low byte. -/
def otherMemory : ℕ → UInt8 := fun a => UInt8.ofNat (255 - a % 256)

/-- That memory never supplies a checksum to an erased flash. -/
theorem not_slotTakesCrc {flash : Contents} (herased : flash (FLASH_COPY_END - 4) = 0xFF) :
    ¬ SlotTakesCrc otherMemory flash := by
  rintro ⟨hlow, -⟩
  rw [herased, erased_and, otherMemory, ← UInt8.toNat_inj] at hlow
  obtain ⟨v, hv⟩ : ∃ v, (imageCrc flash).toNat = v := ⟨_, rfl⟩
  rw [UInt16.toNat_toUInt8, hv, UInt8.toNat_ofNat'] at hlow
  omega

/-- The state a first `HEXLOAD` leads to waits for its first block. -/
theorem waiting_hexload (tps : UInt32) (flash : Contents) :
    Waiting (hexload tps (updateInit flash) hexloadCall updateHeader).1 0 :=
  ⟨rfl, ⟨rfl, rfl, Nat.zero_le _⟩, rfl⟩

/-- A waiting session takes `FINISH` as a live one. -/
theorem Waiting.liveFinish {s : RemoteUpdate} {n : ℕ} (hw : Waiting s n)
    {memory : ℕ → UInt8} (hf : { finishCall with memory := memory }.isFinish = true) :
    LiveFinish s { finishCall with memory := memory } :=
  ⟨hf, hw.started, UInt32.not_lt.mp hw.inTime⟩

/-- An image answered with `COMPLETE` need not carry the checksum the loader computes: the
bytes behind it come from the memory at the address that the checksum makes. -/
theorem finish_disagrees :
    ¬ ∀ (tps : UInt32) (flash : Contents) (h : UpdateHistory) (s s' : RemoteUpdate)
        (c : UpdateCall) (o : UpdateReply),
      (updateMachine tps).Run (updateInit flash) h s →
      (updateMachine tps).step s c = some (s', o) → LiveFinish s c →
      FinishAgrees (acceptedOf (sinceHexload h)).length s' c o := by
  intro hall
  obtain ⟨hstep, -⟩ := hexload_step 1000 (updateInit fun _ => 0xFF)
  have hw := waiting_hexload 1000 fun _ => 0xFF
  obtain ⟨s', o, hfin, hload, hf⟩ := sendFinish_step 1000 hw otherMemory
  have hagree := hall _ _ _ _ _ _ _ (Machine.Run.single hstep) hfin (hw.liveFinish hf)
  rcases finishLoad_cases hw.cursor hload with ⟨-, rfl, rfl⟩ | ⟨hfull, -⟩
  · refine not_slotTakesCrc ?_ (loader_agrees_iff.mp (hagree.loader updateHeader rfl rfl))
    have hend : FLASH_COPY_END - 4 = FLASH_COPY_START + 0x1FFFFC := by decide
    have hsize : 0x1FFFFC < FLASH_PROG_SIZE := by decide
    have herased := erased_at (fun _ => 0xFF) hsize
    rw [← hend, if_neg (by decide)] at herased
    exact herased
  · exact absurd hfull (by decide)

/-- The condition at the end of a session without blocks. -/
theorem finish_agrees_empty_image :
    ∃ s' o, (FinishAgrees 0 s' finishCall o ↔ 0 < 32768 ∧ SlotTakesCrc (fun _ => 0)
      (hexload 1000 (updateInit fun _ => 0xFF) hexloadCall updateHeader).1.flash) := by
  obtain ⟨hstep, hx⟩ := hexload_step 1000 (updateInit fun _ => 0xFF)
  have hw := waiting_hexload 1000 fun _ => 0xFF
  obtain ⟨s', o, hfin, -, hf⟩ := sendFinish_step 1000 hw fun _ => 0
  have hiff := finish_agrees_iff (Machine.Run.single hstep) hfin (hw.liveFinish hf)
  rw [sinceHexload, List.foldl_cons, List.foldl_nil, if_pos hx] at hiff
  exact ⟨s', o, hiff⟩

end Muxponder
