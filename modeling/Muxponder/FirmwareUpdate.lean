import Mathlib.Logic.Relation
import Muxponder.BootCopier
import Muxponder.CfiFlash
import Muxponder.KursFlashImage
import Muxponder.KursLangFile

/-!
# Updating the Firmware

The flash holds the image the card was delivered with, the one that reprogramming writes, the
language file and the preferences, and three parts of the program write to it: the handler of the
reprogramming requests, and the two callbacks that save. The power may fail at any time.

Behind a reset the boot copier sees the flash in the memory map. What is sent in a session is what
it loads, unless the first image is newer; and whatever happens to the second image, the first is
there to be loaded.

## Main results

* `CardStep.first`: nothing the program does changes the flash in front of the second image.
* `boots_first`: whatever has happened, the card comes up with the first image or a newer one.
* `boots_sent`: the image of a session that was sent completely is the one that is run.
* `update_delivers`: there is such a session for every image that fits.
-/

namespace Muxponder

open Memory LoadRecords NorFlash CfiFlash

/-! ### The flash in the memory map -/

/-- `FLASH_TRISTATE_CONTROLLER_0_BASE`. -/
def FLASH_TRISTATE_CONTROLLER_0_BASE : ℕ := 0x3000000

/-- `FLASH_TRISTATE_CONTROLLER_0_SPAN`. -/
def FLASH_TRISTATE_CONTROLLER_0_SPAN : ℕ := 0x1000000

/-- The memory that the processor sees: the flash in its window, and something else around it. -/
def flashMapped (ram : Mem) (flash : Contents) : Mem := fun x =>
  if FLASH_TRISTATE_CONTROLLER_0_BASE ≤ x.toNat ∧
      x.toNat < FLASH_TRISTATE_CONTROLLER_0_BASE + FLASH_TRISTATE_CONTROLLER_0_SPAN then
    flash (x.toNat - FLASH_TRISTATE_CONTROLLER_0_BASE)
  else ram x

/-- A flash that holds an image at an offset. -/
def FlashHolds (flash : Contents) (offset : ℕ) (I : BootImage) : Prop :=
  bytesAt flash offset I.file.length = I.file

variable {ram : Mem} {flash flash' : Contents} {I : BootImage} {offset n : ℕ} {a : UInt32}

/-- The window shows the flash. -/
theorem bytes_flashMapped (ha : a.toNat = FLASH_TRISTATE_CONTROLLER_0_BASE + offset)
    (hn : offset + n ≤ FLASH_TRISTATE_CONTROLLER_0_SPAN) :
    (flashMapped ram flash).bytes a n = bytesAt flash offset n := by
  have hbase : FLASH_TRISTATE_CONTROLLER_0_BASE = 0x3000000 := rfl
  have hspan : FLASH_TRISTATE_CONTROLLER_0_SPAN = 0x1000000 := rfl
  refine List.map_congr_left fun k hk => ?_
  have hk : k < n := List.mem_range.mp hk
  have hx : (a + UInt32.ofNat k).toNat = FLASH_TRISTATE_CONTROLLER_0_BASE + (offset + k) := by
    rw [UInt32.toNat_add, UInt32.toNat_ofNat_of_lt' (by rw [UInt32.size]; omega), ha]
    omega
  rw [flashMapped, hx, if_pos (by omega), Nat.add_sub_cancel_left]

/-- An image is no longer than its region. -/
theorem BootImage.file_length_le (I : BootImage) : I.file.length ≤ FLASH_PROG_SIZE := by
  have hsize : FLASH_PROG_SIZE = 0x200000 := rfl
  have hfits : I.data.length ≤ FLASH_PROG_SIZE - 32 := I.fits
  rw [BootImage.file, List.length_append, List.length_append, words_length, wordBytes_length]
  omega

/-- An image in the flash is an image in the memory. -/
theorem FlashHolds.mapped (h : FlashHolds flash offset I)
    (ha : a.toNat = FLASH_TRISTATE_CONTROLLER_0_BASE + offset)
    (hoffset : offset + FLASH_PROG_SIZE ≤ FLASH_TRISTATE_CONTROLLER_0_SPAN) :
    HoldsImage (flashMapped ram flash) a I := by
  have hlen := I.file_length_le
  rw [HoldsImage, bytes_flashMapped ha (by omega)]
  exact h

/-- Flashes that agree where an image is hold the same image. -/
theorem FlashHolds.congr (h : FlashHolds flash offset I)
    (hsame : ∀ i < FLASH_PROG_SIZE, flash' (offset + i) = flash (offset + i)) :
    FlashHolds flash' offset I := by
  have hlen := I.file_length_le
  rw [FlashHolds, bytesAt_eq_iff] at h ⊢
  intro i hi
  rw [hsame i (by omega), h i hi]

/-! ### Writing to the flash -/

/-- A save, as far as it comes: by `IPGLB_WriteUserPrefsCallback` or by
`IPGLB_WriteLngFileCallback`. -/
inductive SaveStep (dev : AltFlashCfiDev) (flash flash' : Contents) : Prop
  | save {offset : ℕ} {data : List UInt8} {answers : Answers} {ret_code : Int32}
      {call : FlashCall} :
      offset = PREFERENCES_OFFSET ∨ offset = LNG_FILE_OFFSET →
      altFlashCfiWrite dev answers flash offset data data.length = some (ret_code, call) →
      CutShort CFI_SECTOR_SIZE (fun _ => True) call.ops flash flash' → SaveStep dev flash flash'

/-- What the card does with its flash: a request to the reprogramming handler or a save, done or cut
short by a failure of the power, behind which it starts anew. -/
inductive CardStep (tps : UInt32) (dev : AltFlashCfiDev) (s : RemoteUpdate) : RemoteUpdate → Prop
  | request {c : UpdateCall} {o : UpdateReply} {s' : RemoteUpdate} :
      (updateMachine tps).step s c = some (s', o) → CardStep tps dev s s'
  | requestCut {c : UpdateCall} {o : UpdateReply} {s' : RemoteUpdate} {flash' : Contents} :
      (updateMachine tps).step s c = some (s', o) →
      CutShort CFI_SECTOR_SIZE (fun _ => True) o.ops s.flash flash' →
      CardStep tps dev s (updateInit flash')
  | save {flash' : Contents} : SaveStep dev s.flash flash' →
      CardStep tps dev s { s with flash := flash' }
  | saveCut {flash' : Contents} : SaveStep dev s.flash flash' →
      CardStep tps dev s (updateInit flash')

variable {tps : UInt32} {dev : AltFlashCfiDev} {s s' : RemoteUpdate}

/-- A save leaves everything in front of the language file alone. -/
theorem SaveStep.front (h : SaveStep dev flash flash') (hdev : dev.Uniform) {x : ℕ}
    (hx : x < LNG_FILE_OFFSET) : flash' x = flash x := by
  have hsector : CFI_SECTOR_SIZE = 0x20000 := rfl
  have hlng : LNG_FILE_OFFSET = 0x640000 := rfl
  have hprefs : PREFERENCES_OFFSET = 0x840000 := rfl
  obtain ⟨hoffset, hwrite, hcut⟩ := h
  next offset data answers ret_code call =>
  have hcover : Covers dev offset data.length := by
    left
    rcases hoffset with rfl | rfl <;> rcases hdev.width with hw | hw | hw <;> rw [hw] <;> rfl
  obtain ⟨ops, hops, hrun⟩ := altFlashCfiWrite_spec hdev flash le_rfl hcover
  obtain ⟨rest, hrest⟩ := carryOutAll_prefix answers ⟨flash, []⟩ ops
  obtain rfl : call = (FlashCall.carryOutAll answers ⟨flash, []⟩ ops).2 := by
    rw [hrun, Option.some.injEq] at hwrite
    rw [hwrite]
  rw [List.nil_append] at hrest
  have hcut' : CutShort CFI_SECTOR_SIZE (fun _ => True) ops flash flash' := by
    rw [hrest]
    exact hcut.append_right
  refine hops.cutShort_frame hcut' fun i _ => ?_
  rw [hsector]
  rcases hoffset with rfl | rfl <;> omega

/-- **Nothing the program does changes the flash in front of the second image.** -/
theorem CardStep.first (h : CardStep tps dev s s') (hdev : dev.Uniform) {x : ℕ}
    (hx : x < FLASH_COPY_START) : s'.flash x = s.flash x := by
  have hstart : FLASH_COPY_START = 0x440000 := rfl
  have hlng : LNG_FILE_OFFSET = 0x640000 := rfl
  have hout : ¬ InCopyRegion x := fun hin => absurd hin.1 (by omega)
  cases h with
  | request hs => exact flash_outside hs hout
  | requestCut hs hcut =>
      exact hcut.untouched fun op hop ht => hout (updateStep_touches (update_step hs) hop ht)
  | save hsave => exact hsave.front hdev (by omega)
  | saveCut hsave => exact hsave.front hdev (by omega)

/-- Nor does any sequence of steps. -/
theorem reaches_first (hdev : dev.Uniform)
    (h : Relation.ReflTransGen (CardStep tps dev) s s') {x : ℕ} (hx : x < FLASH_COPY_START) :
    s'.flash x = s.flash x := by
  induction h with
  | refl => rfl
  | tail _ hstep ih => rw [hstep.first hdev hx, ih]

/-- Requests are steps. -/
theorem run_reaches {s₀ : RemoteUpdate} {h : UpdateHistory} (hr : (updateMachine tps).Run s₀ h s) :
    Relation.ReflTransGen (CardStep tps dev) s₀ s := by
  induction hr with
  | nil => exact .refl
  | snoc _ hs ih => exact ih.tail (.request hs)

/-- The first image stays where it is. -/
theorem FlashHolds.reaches (h : FlashHolds s.flash INITIAL_IMAGE_OFFSET_IN_FLASH I)
    (hdev : dev.Uniform) (hreach : Relation.ReflTransGen (CardStep tps dev) s s') :
    FlashHolds s'.flash INITIAL_IMAGE_OFFSET_IN_FLASH I := by
  have hsize : FLASH_PROG_SIZE = 0x200000 := rfl
  have hstart : FLASH_COPY_START = 0x440000 := rfl
  have hinitial : INITIAL_IMAGE_OFFSET_IN_FLASH = 0x240000 := rfl
  exact h.congr fun i hi => reaches_first hdev hreach (by omega)

/-! ### What the card comes up with -/

section Boot

variable {m : Mem} {I₁ I₂ : BootImage} {fuel : ℕ}

/-- Where the first image is. -/
theorem FlashHolds.first (h : FlashHolds flash INITIAL_IMAGE_OFFSET_IN_FLASH I) :
    HoldsImage (flashMapped ram flash) BOOT_IMAGE_1_ADDR I := h.mapped rfl (by decide)

/-- Where the second one is. -/
theorem FlashHolds.second (h : FlashHolds flash REMOTE_IMAGE_OFFSET_IN_FLASH I) :
    HoldsImage (flashMapped ram flash) BOOT_IMAGE_2_ADDR I := h.mapped rfl (by decide)

/-- With an image in the first place the copier finds one: it, or a newer one. -/
theorem pickFlashImage_first (hfirst : HoldsImage m BOOT_IMAGE_1_ADDR I₁)
    (hcheck : Checkable m BOOT_IMAGE_2_ADDR) :
    ((ImageValid m BOOT_IMAGE_2_ADDR → revision m BOOT_IMAGE_2_ADDR < I₁.revision) →
        pickFlashImage m = some 1) ∧
      (ImageValid m BOOT_IMAGE_2_ADDR → I₁.revision ≤ revision m BOOT_IMAGE_2_ADDR →
        pickFlashImage m = some 2) := by
  obtain ⟨hvalid, hrevision⟩ := hfirst.valid
  rw [← hrevision]
  constructor
  · intro hnewer
    refine (pickFlashImage_iff m 1).mpr ⟨fun _ => hvalid.data_length, hcheck, ?_⟩
    exact .inr (.inl ⟨rfl, hvalid, hnewer⟩)
  · intro hvalid' hle
    refine (pickFlashImage_iff m 2).mpr ⟨fun _ => hvalid.data_length, hcheck, ?_⟩
    exact .inr (.inr ⟨rfl, hvalid', fun _ => hle⟩)

/-- **Whatever has happened to the second image, the card comes up**: behind any requests, saves and
power cuts the image the card was delivered with is loaded and run, unless a valid one that is not
older has come to the second place. -/
theorem boots_first (tps : UInt32) (dev : AltFlashCfiDev) (hdev : dev.Uniform) (flash : Contents)
    (I : BootImage) (s : RemoteUpdate) (ram : Mem) (fuel : ℕ)
    (hfirst : FlashHolds flash INITIAL_IMAGE_OFFSET_IN_FLASH I)
    (hreach : Relation.ReflTransGen (CardStep tps dev) (updateInit flash) s)
    (hcheck : Checkable (flashMapped ram s.flash) BOOT_IMAGE_2_ADDR)
    (hapart : I.Apart BOOT_IMAGE_1_ADDR) (hfuel : I.segments.length < fuel) :
    ((ImageValid (flashMapped ram s.flash) BOOT_IMAGE_2_ADDR →
        revision (flashMapped ram s.flash) BOOT_IMAGE_2_ADDR < I.revision) →
      altMain fuel (flashMapped ram s.flash) =
        some (load I.segments (flashMapped ram s.flash), entryPoint I.ending)) ∧
    (ImageValid (flashMapped ram s.flash) BOOT_IMAGE_2_ADDR →
      I.revision ≤ revision (flashMapped ram s.flash) BOOT_IMAGE_2_ADDR →
      altMain fuel (flashMapped ram s.flash) =
        loadFlashImage fuel (flashMapped ram s.flash) 2) := by
  have hheld : HoldsImage (flashMapped ram s.flash) BOOT_IMAGE_1_ADDR I :=
    (FlashHolds.reaches (s := updateInit flash) hfirst hdev hreach).first
  obtain ⟨hfirst, hsecond⟩ := pickFlashImage_first hheld hcheck
  constructor
  · intro hnewer
    exact altMain_of_picked (hfirst hnewer) (by decide) hheld hapart hfuel
  · intro hvalid hle
    rw [altMain_eq _ (hsecond hvalid hle), if_neg (by decide)]

/-- The flash of a card that was delivered with the small image. -/
def smallFlash : Contents := fun i =>
  if INITIAL_IMAGE_OFFSET_IN_FLASH ≤ i then
    smallImage.file.getD (i - INITIAL_IMAGE_OFFSET_IN_FLASH) 0xFF
  else 0xFF

theorem smallFlash_holds : FlashHolds smallFlash INITIAL_IMAGE_OFFSET_IN_FLASH smallImage := by
  rw [FlashHolds, bytesAt_eq_iff]
  intro i _
  rw [smallFlash, if_pos (Nat.le_add_right _ _), Nat.add_sub_cancel_left]

/-- Nothing is in the second place. -/
theorem smallFlash_second :
    ¬ HeaderValid (flashMapped (fun _ => 0) smallFlash) BOOT_IMAGE_2_ADDR := by
  intro h
  have hsig : (headerAt (flashMapped (fun _ => 0) smallFlash) BOOT_IMAGE_2_ADDR).signature ≠
    0xa5a5a5a5 := by decide +kernel
  exact hsig h.signature

/-- The power fails when the first sector is to be erased. -/
theorem boots_first_small : altMain 2 (flashMapped (fun _ => 0) smallFlash) =
    some (load smallImage.segments (flashMapped (fun _ => 0) smallFlash), 0x1000) := by
  obtain ⟨hstep, -⟩ := hexload_step 1000 (updateInit smallFlash)
  exact (boots_first 1000 cfi0 cfi0_uniform smallFlash smallImage (updateInit smallFlash)
    (fun _ => 0) 2 smallFlash_holds (.single (.requestCut hstep .start))
    (fun h => absurd h smallFlash_second) (by decide +kernel)
    (by decide)).1 fun h => absurd h.toHeaderValid smallFlash_second

/-- The part of the main loop that has the card boot again: where it jumps, if it does. -/
def mainLoopReboot (m : Mem) (reboot_nios : Bool) : Option (Option UInt32) :=
  if reboot_nios then
    (validateFlashImage m BOOT_IMAGE_2_ADDR).map fun check =>
      if check.1 = .CRCS_VALID then some NIOS2_RESET_ADDR else none
  else some none

/-- What has been sent stands in the flash, as far as `HEXLOAD` has erased it. -/
theorem flashHolds_sent {h₁ h₂ : UpdateHistory} {c₀ : UpdateCall} {o₀ : UpdateReply}
    {s₁ : RemoteUpdate} (hr₁ : (updateMachine tps).Run (updateInit flash) h₁ s₁)
    (hr : (updateMachine tps).Run s₁ ((c₀, o₀) :: h₂) s) (hx : c₀.isHexload = true)
    (hno : ∀ e ∈ h₂, e.1.isHexload = false)
    (hsent : I.file <+: (acceptedOf ((c₀, o₀) :: h₂)).flatten)
    (hroom : I.file.length ≤ erasedSize) :
    FlashHolds s.flash REMOTE_IMAGE_OFFSET_IN_FLASH I := by
  obtain ⟨rest, hrest⟩ := hsent
  rw [FlashHolds, bytesAt_eq_iff]
  intro i hi
  have hlen : i < (acceptedOf ((c₀, o₀) :: h₂)).flatten.length := by
    rw [← hrest, List.length_append]
    omega
  have hat := flash_at hr₁ hr hx hno hlen
  rw [if_pos (by omega), erased_and, ← hrest, List.getD_append _ _ _ _ hi] at hat
  exact hat

/-- Saves leave it there. -/
theorem FlashHolds.saves (h : FlashHolds flash offset I) (hdev : dev.Uniform)
    (hoffset : offset + FLASH_PROG_SIZE ≤ LNG_FILE_OFFSET)
    (hsaves : Relation.ReflTransGen (SaveStep dev) flash flash') : FlashHolds flash' offset I := by
  induction hsaves with
  | refl => exact h
  | tail _ hsave ih =>
      exact ih.congr fun i hi => hsave.front hdev (by omega)

/-- What is run where both places hold an image. -/
theorem altMain_newest (hfirst : HoldsImage m BOOT_IMAGE_1_ADDR I₁)
    (hsecond : HoldsImage m BOOT_IMAGE_2_ADDR I₂) (hapart₁ : I₁.Apart BOOT_IMAGE_1_ADDR)
    (hapart₂ : I₂.Apart BOOT_IMAGE_2_ADDR) (hfuel₁ : I₁.segments.length < fuel)
    (hfuel₂ : I₂.segments.length < fuel) :
    (I₁.revision ≤ I₂.revision →
        altMain fuel m = some (load I₂.segments m, entryPoint I₂.ending)) ∧
      (I₂.revision < I₁.revision →
        altMain fuel m = some (load I₁.segments m, entryPoint I₁.ending)) := by
  obtain ⟨hvalid, hrevision⟩ := hsecond.valid
  obtain ⟨hone, htwo⟩ := pickFlashImage_first hfirst fun _ => hvalid.data_length
  rw [hrevision] at hone htwo
  exact ⟨fun hle => altMain_of_picked (htwo hvalid hle) (by decide) hsecond hapart₂ hfuel₂,
    fun hlt => altMain_of_picked (hone fun _ => hlt) (by decide) hfirst hapart₁ hfuel₁⟩

/-- A valid image has the main loop jump to the boot copier. -/
theorem mainLoopReboot_valid (hvalid : ImageValid m BOOT_IMAGE_2_ADDR) :
    mainLoopReboot m true = some (some NIOS2_RESET_ADDR) := by
  rcases validateFlashImage_spec m BOOT_IMAGE_2_ADDR with ⟨hno, -⟩ | ⟨-, result, copies, hrun, hiff⟩
  · exact absurd (fun _ => hvalid.data_length) hno
  · simp [mainLoopReboot, hrun, hiff.mpr hvalid]

/-- **What was sent is what is run**: behind any session whose accepted blocks begin with an image
that the erased sectors have room for, and any saves, the main loop lets the card boot again, and
the boot copier loads and runs that image, unless the first one is newer. -/
theorem boots_sent (tps : UInt32) (dev : AltFlashCfiDev) (hdev : dev.Uniform) (flash : Contents)
    (h₁ h₂ : UpdateHistory) (c₀ : UpdateCall) (o₀ : UpdateReply) (s₁ s : RemoteUpdate)
    (hr₁ : (updateMachine tps).Run (updateInit flash) h₁ s₁)
    (hr : (updateMachine tps).Run s₁ ((c₀, o₀) :: h₂) s) (hx : c₀.isHexload = true)
    (hno : ∀ e ∈ h₂, e.1.isHexload = false) (I₁ I₂ : BootImage)
    (hfirst : FlashHolds flash INITIAL_IMAGE_OFFSET_IN_FLASH I₁)
    (hsent : I₂.file <+: (acceptedOf ((c₀, o₀) :: h₂)).flatten)
    (hroom : I₂.file.length ≤ erasedSize) (flash' : Contents)
    (hsaves : Relation.ReflTransGen (SaveStep dev) s.flash flash') (ram : Mem) (fuel : ℕ)
    (hapart₁ : I₁.Apart BOOT_IMAGE_1_ADDR) (hapart₂ : I₂.Apart BOOT_IMAGE_2_ADDR)
    (hfuel₁ : I₁.segments.length < fuel) (hfuel₂ : I₂.segments.length < fuel) :
    mainLoopReboot (flashMapped ram flash') true = some (some NIOS2_RESET_ADDR) ∧
      (I₁.revision ≤ I₂.revision → altMain fuel (flashMapped ram flash') =
        some (load I₂.segments (flashMapped ram flash'), entryPoint I₂.ending)) ∧
      (I₂.revision < I₁.revision → altMain fuel (flashMapped ram flash') =
        some (load I₁.segments (flashMapped ram flash'), entryPoint I₁.ending)) := by
  have hsecond : HoldsImage (flashMapped ram flash') BOOT_IMAGE_2_ADDR I₂ :=
    ((flashHolds_sent hr₁ hr hx hno hsent hroom).saves hdev (by decide) hsaves).second
  have hone : HoldsImage (flashMapped ram flash') BOOT_IMAGE_1_ADDR I₁ :=
    ((FlashHolds.reaches (s := updateInit flash) hfirst hdev (run_reaches (hr₁.append hr))).saves
      hdev (by decide) hsaves).first
  exact ⟨mainLoopReboot_valid hsecond.valid.1,
    altMain_newest hone hsecond hapart₁ hapart₂ hfuel₁ hfuel₂⟩

/-- Any bytes are the beginning of blocks that have room for them. -/
theorem exists_blocks {data : List UInt8} (h : data.length ≤ 64 * n) :
    ∃ ps : List (List UInt8), (∀ p ∈ ps, p.length = 64) ∧ ps.length = n ∧ data <+: ps.flatten := by
  induction n generalizing data with
  | zero =>
      obtain rfl : data = [] := List.length_eq_zero_iff.mp (by omega)
      exact ⟨[], by simp, rfl, List.nil_prefix⟩
  | succ n ih =>
      have hdrop : (data.drop 64).length ≤ 64 * n := by
        rw [List.length_drop]
        omega
      obtain ⟨ps, hps, hn, rest, hrest⟩ := ih hdrop
      rcases Nat.lt_or_ge data.length 64 with hshort | hlong
      · refine ⟨(data ++ List.replicate (64 - data.length) 0xFF) :: ps, ?_, by simp [hn], ?_⟩
        · refine List.forall_mem_cons.mpr ⟨?_, hps⟩
          rw [List.length_append, List.length_replicate]
          omega
        · exact ⟨List.replicate (64 - data.length) 0xFF ++ ps.flatten, by simp⟩
      · refine ⟨data.take 64 :: ps, ?_, by simp [hn], rest, ?_⟩
        · refine List.forall_mem_cons.mpr ⟨?_, hps⟩
          rw [List.length_take]
          omega
        · rw [List.flatten_cons, ← hrest, ← List.append_assoc, List.take_append_drop]

/-- `FINISH` is not `HEXLOAD`. -/
theorem UpdateCall.not_hexload_of_finish {c : UpdateCall} (h : c.isFinish = true) :
    c.isHexload = false := by
  cases htext : c.text with
  | none => simp [UpdateCall.isFinish, UpdateCall.hasCommand, htext] at h
  | some str =>
      rw [UpdateCall.isFinish, UpdateCall.hasCommand_of_text htext] at h
      rw [UpdateCall.isHexload, UpdateCall.hasCommand_of_text htext]
      exact command_exclusive h (by simp [commands]) "HEXLOAD" (by simp [commands]) (by simp)

/-- A session that sends an image, and finishes. -/
theorem session_run_image (tps : UInt32) (flash : Contents) (hroom : I.file.length ≤ erasedSize) :
    ∃ o h s, (updateMachine tps).Run (updateInit flash) ((hexloadCall, o) :: h) s ∧
      (∀ e ∈ h, e.1.isHexload = false) ∧ I.file <+: (acceptedOf ((hexloadCall, o) :: h)).flatten ∧
      s.rebootNios = true := by
  have herased : erasedSize = 64 * 20480 := rfl
  obtain ⟨ps, hps, hn, hfile⟩ := exists_blocks (herased ▸ hroom)
  obtain ⟨h, o, s, hr, hno, ho, hacc, hw⟩ := load_run tps flash hps (by omega)
  rw [hn] at hw
  obtain ⟨c, s', o', hstep, hfinish, hf⟩ : ∃ c s' o',
      (updateMachine tps).step s c = some (s', o') ∧ finishLoad s c updateHeader = some (s', o') ∧
        c.isFinish = true := ⟨_, sendFinish_step tps hw fun _ => 0⟩
  rcases finishLoad_cases hw.cursor hfinish with ⟨-, hs', ho'⟩ | ⟨hfull, -, -⟩
  · have hno' : ∀ e ∈ h ++ [(c, o')], e.1.isHexload = false := by
      intro e he
      rcases List.mem_append.mp he with he | he
      · exact hno e he
      · obtain rfl := List.mem_singleton.mp he
        exact UpdateCall.not_hexload_of_finish hf
    have haccepted : acceptedOf ((hexloadCall, o) :: (h ++ [(c, o')])) = ps := by
      rw [acceptedOf, List.filterMap_cons, ho, List.filterMap_append, hacc, ho']
      exact List.append_nil ps
    refine ⟨o, h ++ [(c, o')], s', ?_, hno', haccepted ▸ hfile, hs' ▸ rfl⟩
    simpa using hr.snoc hstep
  · omega

/-- The small image is sent to a card that has it. -/
theorem boots_sent_small : ∃ s, mainLoopReboot (flashMapped (fun _ => 0) s) true =
      some (some NIOS2_RESET_ADDR) ∧ altMain 2 (flashMapped (fun _ => 0) s) =
        some (load smallImage.segments (flashMapped (fun _ => 0) s), 0x1000) := by
  obtain ⟨o, h, s, hr, hno, hsent, -⟩ :=
    session_run_image (I := smallImage) 1000 smallFlash (by decide)
  obtain ⟨-, hx⟩ := hexload_step 1000 (updateInit smallFlash)
  obtain ⟨hboot, hrun, -⟩ := boots_sent 1000 cfi0 cfi0_uniform smallFlash [] h hexloadCall o _ s
    .nil hr hx hno smallImage smallImage smallFlash_holds hsent (by decide) s.flash .refl
    (fun _ => 0) 2 (by decide +kernel)
    (by decide +kernel) (by decide) (by decide)
  exact ⟨s.flash, hboot, hrun le_rfl⟩

/-- **Every image can be delivered** that the erased sectors have room for: a session after which
the main loop lets the card boot again, and the boot copier loads and runs the image if the first
one is not newer. -/
theorem update_delivers (tps : UInt32) (flash : Contents) (I₁ I₂ : BootImage)
    (hfirst : FlashHolds flash INITIAL_IMAGE_OFFSET_IN_FLASH I₁)
    (hroom : I₂.file.length ≤ erasedSize) (hle : I₁.revision ≤ I₂.revision)
    (hapart₁ : I₁.Apart BOOT_IMAGE_1_ADDR) (hapart₂ : I₂.Apart BOOT_IMAGE_2_ADDR) :
    ∃ h s, (updateMachine tps).Run (updateInit flash) h s ∧ ∀ ram fuel,
      I₁.segments.length < fuel → I₂.segments.length < fuel →
        mainLoopReboot (flashMapped ram s.flash) s.rebootNios = some (some NIOS2_RESET_ADDR) ∧
          altMain fuel (flashMapped ram s.flash) =
            some (load I₂.segments (flashMapped ram s.flash), entryPoint I₂.ending) := by
  obtain ⟨o, h, s, hr, hno, hsent, hreboot⟩ := session_run_image tps flash hroom
  obtain ⟨-, hx⟩ := hexload_step tps (updateInit flash)
  refine ⟨_, s, hr, fun ram fuel hfuel₁ hfuel₂ => ?_⟩
  have hsecond : HoldsImage (flashMapped ram s.flash) BOOT_IMAGE_2_ADDR I₂ :=
    (flashHolds_sent .nil hr hx hno hsent hroom).second
  have hone : HoldsImage (flashMapped ram s.flash) BOOT_IMAGE_1_ADDR I₁ :=
    (FlashHolds.reaches (s := updateInit flash) hfirst cfi0_uniform (run_reaches hr)).first
  rw [hreboot]
  exact ⟨mainLoopReboot_valid hsecond.valid.1,
    (altMain_newest hone hsecond hapart₁ hapart₂ hfuel₁ hfuel₂).1 hle⟩

/-- So the small image can. -/
theorem update_delivers_small : ∃ h s, (updateMachine 1000).Run (updateInit smallFlash) h s ∧
    ∀ ram fuel, 1 < fuel → 1 < fuel →
      mainLoopReboot (flashMapped ram s.flash) s.rebootNios = some (some NIOS2_RESET_ADDR) ∧
        altMain fuel (flashMapped ram s.flash) =
          some (load smallImage.segments (flashMapped ram s.flash), 0x1000) :=
  update_delivers 1000 smallFlash smallImage smallImage smallFlash_holds (by decide) le_rfl
    (by decide +kernel) (by decide +kernel)

end Boot

end Muxponder
