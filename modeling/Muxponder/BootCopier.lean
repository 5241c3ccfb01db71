import Mathlib.Data.Prod.Lex
import Muxponder.KursFlashCheck
import Muxponder.Lib.LoadRecords

/-!
# The Boot Copier

What runs behind every reset: `PickFlashImage` looks at the two images of the flash,
`LoadFlashImage` copies the records of one of them to where they belong, and `alt_main` jumps to the
address the last record gives. Its check of an image is that of the main program.

The loop over the records ends where a record says so, and nothing bounds it, so it is run with
fuel; an image whose records are held and not overwritten is loaded with as much fuel as it has
records. The variables of the copier are not part of the memory that it copies to.

## Main results

* `pickFlashImage_iff`: which image is picked.
* `loadLoop_records`: what is loaded of an image.
* `altMain_boots`: a valid image is loaded and run, or the other one is newer.
-/

namespace Muxponder

open Memory LoadRecords

/-! ### Picking an image -/

/-- `BOOT_IMAGE_1_ADDR`. -/
def BOOT_IMAGE_1_ADDR : UInt32 := 0x3000000 + 0x00240000

/-- `NIOS2_RESET_ADDR`. -/
def NIOS2_RESET_ADDR : UInt32 := 0x00400000

/-- `PickFlashImage`: which image, or 0 for none. -/
def pickFlashImage (m : Mem) : Option ℕ :=
  (validateFlashImage m BOOT_IMAGE_1_ADDR).bind fun image1 =>
    (validateFlashImage m BOOT_IMAGE_2_ADDR).map fun image2 =>
      if image1.1 ≠ .CRCS_VALID then
        if image2.1 ≠ .CRCS_VALID then 0 else 2
      else if image2.1 ≠ .CRCS_VALID then 1
      else
        let header_buffer_1 := headerAt m BOOT_IMAGE_1_ADDR
        let header_buffer_2 := headerAt m BOOT_IMAGE_2_ADDR
        if header_buffer_1.version = header_buffer_2.version then
          if header_buffer_1.timestamp > header_buffer_2.timestamp then 1 else 2
        else if header_buffer_1.version > header_buffer_2.version then 1 else 2

/-- An image with the signature and the checksum of its header, and with data that the checksum can
be taken over. -/
structure HeaderValid (m : Mem) (image_ptr : UInt32) : Prop where
  signature : (headerAt m image_ptr).signature = 0xa5a5a5a5
  header_crc : (headerAt m image_ptr).header_crc = plainCrc32 (m.bytes image_ptr 28)

/-- An image that both checksums of its header agree with. -/
structure ImageValid (m : Mem) (image_ptr : UInt32) : Prop extends HeaderValid m image_ptr where
  data_length : (headerAt m image_ptr).data_length.toNat < 2 ^ 31
  data_crc : (headerAt m image_ptr).data_crc =
    plainCrc32 (m.bytes (image_ptr + 32) (headerAt m image_ptr).data_length.toNat)

/-- The data of an image can be checked: the header is wrong, or their number is no negative
count. -/
def Checkable (m : Mem) (image_ptr : UInt32) : Prop :=
  HeaderValid m image_ptr → (headerAt m image_ptr).data_length.toNat < 2 ^ 31

/-- How new an image is: its version first. -/
def revision (m : Mem) (image_ptr : UInt32) : ℕ ×ₗ ℕ :=
  toLex ((headerAt m image_ptr).version.toNat, (headerAt m image_ptr).timestamp.toNat)

variable {m : Mem} {image_ptr : UInt32}

/-- **What the check says of an image**: it comes to an end wherever the data can be checked, and
finds the valid images valid. -/
theorem validateFlashImage_spec (m : Mem) (image_ptr : UInt32) :
    (¬ Checkable m image_ptr ∧ validateFlashImage m image_ptr = none) ∨
      (Checkable m image_ptr ∧ ∃ result copies,
        validateFlashImage m image_ptr = some (result, copies) ∧
          (result = .CRCS_VALID ↔ ImageValid m image_ptr)) := by
  rw [validateFlashImage_eq]
  dsimp only
  by_cases hsig : (headerAt m image_ptr).signature = 0xa5a5a5a5
  · rw [if_neg (not_not.mpr hsig)]
    by_cases hcrc : (headerAt m image_ptr).header_crc = plainCrc32 (m.bytes image_ptr 28)
    · rw [if_neg (not_not.mpr hcrc)]
      by_cases hlen : (headerAt m image_ptr).data_length.toNat < 2 ^ 31
      · rw [if_pos hlen]
        refine .inr ⟨fun _ => hlen, _, _, rfl, ?_⟩
        by_cases hdata : (headerAt m image_ptr).data_crc =
            plainCrc32 (m.bytes (image_ptr + 32) (headerAt m image_ptr).data_length.toNat)
        · rw [if_pos hdata]
          exact ⟨fun _ => ⟨⟨hsig, hcrc⟩, hlen, hdata⟩, fun _ => rfl⟩
        · rw [if_neg hdata]
          exact ⟨fun hr => (by cases hr), fun hv => absurd hv.data_crc hdata⟩
      · rw [if_neg hlen]
        exact .inl ⟨fun h => hlen (h ⟨hsig, hcrc⟩), rfl⟩
    · rw [if_pos hcrc]
      exact .inr ⟨fun h => absurd h.header_crc hcrc, _, _, rfl,
        fun hr => (by cases hr), fun hv => absurd hv.header_crc hcrc⟩
  · rw [if_pos hsig]
    exact .inr ⟨fun h => absurd h.signature hsig, _, _, rfl,
      fun hr => (by cases hr), fun hv => absurd hv.signature hsig⟩

/-- What the image that is picked has to be: none where no image is valid, and of the valid ones the
newest, the second one where they are equally new. -/
def Picked (m : Mem) (k : ℕ) : Prop :=
  (k = 0 ∧ ¬ ImageValid m BOOT_IMAGE_1_ADDR ∧ ¬ ImageValid m BOOT_IMAGE_2_ADDR) ∨
    (k = 1 ∧ ImageValid m BOOT_IMAGE_1_ADDR ∧ (ImageValid m BOOT_IMAGE_2_ADDR →
      revision m BOOT_IMAGE_2_ADDR < revision m BOOT_IMAGE_1_ADDR)) ∨
    (k = 2 ∧ ImageValid m BOOT_IMAGE_2_ADDR ∧ (ImageValid m BOOT_IMAGE_1_ADDR →
      revision m BOOT_IMAGE_1_ADDR ≤ revision m BOOT_IMAGE_2_ADDR))

/-- The comparison of the headers is the one of the revisions. -/
theorem newer_iff : (if (headerAt m BOOT_IMAGE_1_ADDR).version =
        (headerAt m BOOT_IMAGE_2_ADDR).version then
      if (headerAt m BOOT_IMAGE_1_ADDR).timestamp > (headerAt m BOOT_IMAGE_2_ADDR).timestamp then 1
      else 2
    else if (headerAt m BOOT_IMAGE_1_ADDR).version > (headerAt m BOOT_IMAGE_2_ADDR).version then 1
    else 2) =
      if revision m BOOT_IMAGE_2_ADDR < revision m BOOT_IMAGE_1_ADDR then 1 else 2 := by
  simp only [revision, Prod.Lex.toLex_lt_toLex, gt_iff_lt, ← UInt32.lt_iff_toNat_lt,
    UInt32.toNat_inj]
  by_cases hv : (headerAt m BOOT_IMAGE_1_ADDR).version = (headerAt m BOOT_IMAGE_2_ADDR).version
  · simp [hv]
  · simp [hv, Ne.symm hv]

/-- **Which image is picked**, wherever both can be checked. -/
theorem pickFlashImage_iff (m : Mem) (k : ℕ) : pickFlashImage m = some k ↔
    Checkable m BOOT_IMAGE_1_ADDR ∧ Checkable m BOOT_IMAGE_2_ADDR ∧ Picked m k := by
  rw [pickFlashImage]
  rcases validateFlashImage_spec m BOOT_IMAGE_1_ADDR with ⟨h1, hrun1⟩ | ⟨h1, r1, c1, hrun1, hv1⟩
  · simp [hrun1, h1]
  rcases validateFlashImage_spec m BOOT_IMAGE_2_ADDR with ⟨h2, hrun2⟩ | ⟨h2, r2, c2, hrun2, hv2⟩
  · simp [hrun1, hrun2, h2]
  rw [hrun1, hrun2, Option.bind_some, Option.map_some, Option.some.injEq]
  dsimp only
  rw [newer_iff, and_iff_right h1, and_iff_right h2, Picked, ← hv1, ← hv2, ← not_lt]
  by_cases hvalid1 : r1 = .CRCS_VALID <;> by_cases hvalid2 : r2 = .CRCS_VALID <;>
    by_cases hnewer : revision m BOOT_IMAGE_2_ADDR < revision m BOOT_IMAGE_1_ADDR <;>
    simp [hvalid1, hvalid2, hnewer, eq_comm]

/-! ### Loading it -/

/-- The loop of `LoadFlashImage`, behind the first length: the memory, `next_flash_byte` and the
length that ends it. -/
def loadLoop : ℕ → Mem → UInt32 → UInt32 → Option (Mem × UInt32 × UInt32)
  | 0, _, _, _ => none
  | fuel + 1, m, next_flash_byte, length =>
      if length ≠ 0 ∧ length ≠ 0xffffffff then
        let address := m.load32 next_flash_byte
        let next_flash_byte := next_flash_byte + 4
        let m := m.blit address (m.bytes next_flash_byte length.toNat)
        let next_flash_byte := next_flash_byte + length
        loadLoop fuel m (next_flash_byte + 4) (m.load32 next_flash_byte)
      else some (m, next_flash_byte, length)

/-- Where an image is: `flash_image_ptr_1` or `flash_image_ptr_2`. -/
def flashImagePtr (image : ℕ) : UInt32 :=
  if image = 1 then BOOT_IMAGE_1_ADDR else BOOT_IMAGE_2_ADDR

/-- What it does behind the loop: `-1` for a length that halts, else the entry address. -/
def loadEnd : Mem × UInt32 × UInt32 → Mem × UInt32
  | (m, next_flash_byte, length) =>
      if length = 0xffffffff then (m, 0xffffffff) else (m, m.load32 next_flash_byte)

/-- `LoadFlashImage`: the memory behind it, and what it returns. -/
def loadFlashImage (fuel : ℕ) (m : Mem) (image : ℕ) : Option (Mem × UInt32) :=
  let next_flash_byte := flashImagePtr image + 32
  (loadLoop fuel m (next_flash_byte + 4) (m.load32 next_flash_byte)).map loadEnd

/-- What is returned for an ending. -/
def entryPoint : Ending → UInt32
  | .jump entry => entry
  | .halt => 0xffffffff

/-- `alt_main`: the memory, and the address that is jumped to. -/
def altMain (fuel : ℕ) (m : Mem) : Option (Mem × UInt32) :=
  (pickFlashImage m).bind fun boot_image =>
    if boot_image ≠ 0 then
      (loadFlashImage fuel m boot_image).map fun (m, entry_point) =>
        if 0 ≤ entry_point then (m, entry_point) else (m, NIOS2_RESET_ADDR)
    else some (m, NIOS2_RESET_ADDR)

section Loading

variable {a : UInt32} {ss : List Segment} {e : Ending}

/-- The length that ends an image. -/
theorem loadLoop_nil {fuel : ℕ} (hfuel : 0 < fuel) (hheld : m.bytes a e.record.length = e.record) :
    (loadLoop fuel m (a + 4) (m.load32 a)).map loadEnd = some (m, entryPoint e) := by
  obtain ⟨fuel, rfl⟩ : ∃ n, fuel = n + 1 := ⟨fuel - 1, by omega⟩
  cases e with
  | jump entry =>
      obtain ⟨hlen, hentry⟩ := bytes_append_iff.mp hheld
      have hlen : m.load32 a = 0 := load32_of_wordBytes hlen
      have hentry : m.load32 (a + 4) = entry := load32_of_wordBytes hentry
      simp [loadLoop, loadEnd, hlen, hentry, entryPoint]
  | halt =>
      have hlen : m.load32 a = 0xffffffff := load32_of_wordBytes hheld
      simp [loadLoop, loadEnd, hlen, entryPoint]

/-- **The loop loads the records** of an image that it does not overwrite. -/
theorem loadLoop_records {fuel : ℕ} (hfuel : ss.length < fuel) (hss : ∀ s ∈ ss, s.Loadable)
    (hheld : m.bytes a (records ss e).length = records ss e)
    (hapart : ∀ s ∈ ss, ∀ x ∈ addressesFrom a (records ss e).length, ¬ s.region.Contains x) :
    (loadLoop fuel m (a + 4) (m.load32 a)).map loadEnd = some (load ss m, entryPoint e) := by
  induction ss generalizing fuel m a with
  | nil => exact loadLoop_nil hfuel hheld
  | cons s ss ih =>
      obtain ⟨fuel, rfl⟩ : ∃ n, fuel = n + 1 := ⟨fuel - 1, by omega⟩
      obtain ⟨hs, hss⟩ := List.forall_mem_cons.mp hss
      rw [records_cons] at hheld
      obtain ⟨hlen, hheld⟩ := bytes_append_iff.mp hheld
      obtain ⟨haddr, hheld⟩ := bytes_append_iff.mp hheld
      obtain ⟨hdata, hheld⟩ := bytes_append_iff.mp hheld
      replace hlen : m.load32 a = UInt32.ofNat s.data.length := load32_of_wordBytes hlen
      replace haddr : m.load32 (a + 4) = s.address := load32_of_wordBytes haddr
      replace hdata : m.bytes (a + 4 + 4) s.data.length = s.data := hdata
      replace hheld : m.bytes (a + 4 + 4 + UInt32.ofNat s.data.length) (records ss e).length =
        records ss e := hheld
      have hlength : (records (s :: ss) e).length =
          (4 + 4 + s.data.length) + (records ss e).length := by
        rw [records_cons]
        simp only [List.length_append, wordBytes_length]
        omega
      have hnext : a + 4 + 4 + UInt32.ofNat s.data.length =
          a + UInt32.ofNat (4 + 4 + s.data.length) := by
        rw [UInt32.ofNat_add, UInt32.ofNat_add, ← add_assoc, ← add_assoc]
        rfl
      have hinside : ∀ x ∈ addressesFrom (a + 4 + 4 + UInt32.ofNat s.data.length)
          (records ss e).length, x ∈ addressesFrom a (records (s :: ss) e).length := by
        intro x hx
        rw [hlength, addressesFrom_add, ← hnext]
        exact List.mem_append_right _ hx
      -- the copy leaves the rest of the image alone
      have hrest : (m.blit s.address s.data).bytes (a + 4 + 4 + UInt32.ofNat s.data.length)
          (records ss e).length = records ss e := by
        rw [← hheld, bytes_length]
        exact bytes_congr fun x hx => blit_of_not_contains (r := s.region)
          hs.length_toNat.symm.le (hapart s List.mem_cons_self x (hinside x hx))
      have hfuel : ss.length < fuel := by simpa using hfuel
      have hloop := ih hfuel hss hrest fun t ht x hx =>
        hapart t (List.mem_cons_of_mem _ ht) x (hinside x hx)
      rw [loadLoop, if_pos (by rw [hlen]; exact hs.length_ne)]
      simp only [hlen, haddr, hs.length_toNat, hdata]
      exact hloop

end Loading

/-! ### Images -/

/-- An image as it is built: what its header says, and the records that fit behind it. -/
structure BootImage where
  version : UInt32
  timestamp : UInt32
  res1 : UInt32
  res2 : UInt32
  segments : List Segment
  ending : Ending
  loadable : ∀ s ∈ segments, s.Loadable
  fits : (records segments ending).length ≤ FLASH_PROG_SIZE - 32

/-- The data of an image. -/
def BootImage.data (I : BootImage) : List UInt8 := records I.segments I.ending

/-- The words of its header in front of their checksum. -/
def BootImage.words (I : BootImage) : List UInt32 :=
  [0xa5a5a5a5, I.version, I.timestamp, UInt32.ofNat I.data.length, plainCrc32 I.data, I.res1,
    I.res2]

/-- An image as it is programmed. -/
def BootImage.file (I : BootImage) : List UInt8 :=
  I.words.flatMap wordBytes ++ (wordBytes (plainCrc32 (I.words.flatMap wordBytes)) ++ I.data)

/-- A memory that holds an image. -/
def HoldsImage (m : Mem) (image_ptr : UInt32) (I : BootImage) : Prop :=
  m.bytes image_ptr I.file.length = I.file

/-- The revision of an image. -/
def BootImage.revision (I : BootImage) : ℕ ×ₗ ℕ := toLex (I.version.toNat, I.timestamp.toNat)

/-- The segments of an image stay out of the data they are loaded from. -/
def BootImage.Apart (I : BootImage) (image_ptr : UInt32) : Prop :=
  ∀ s ∈ I.segments, ∀ x ∈ addressesFrom (image_ptr + 32) I.data.length, ¬ s.region.Contains x

instance BootImage.decidableApart (I : BootImage) (image_ptr : UInt32) :
    Decidable (I.Apart image_ptr) :=
  @List.decidableBAll _ _ (fun _ => List.decidableBAll _ _) _

section Images

variable {I J : BootImage} {k fuel : ℕ}

theorem words_length (I : BootImage) : (I.words.flatMap wordBytes).length = 28 := by
  simp [BootImage.words]

/-- The parts of an image that is held. -/
theorem holdsImage_parts (h : HoldsImage m image_ptr I) :
    m.bytes image_ptr 28 = I.words.flatMap wordBytes ∧
      m.load32 (image_ptr + 28) = plainCrc32 (I.words.flatMap wordBytes) ∧
      m.bytes (image_ptr + 32) I.data.length = I.data := by
  obtain ⟨hwords, h⟩ := bytes_append_iff.mp h
  obtain ⟨hcrc, hdata⟩ := bytes_append_iff.mp h
  rw [words_length] at hwords hcrc hdata
  refine ⟨hwords, load32_of_wordBytes hcrc, ?_⟩
  have hbehind : image_ptr + UInt32.ofNat 28 + UInt32.ofNat 4 = image_ptr + 32 := add_assoc _ _ _
  rwa [wordBytes_length, hbehind] at hdata

/-- **An image that is held is valid**, and as new as it says. -/
theorem HoldsImage.valid (h : HoldsImage m image_ptr I) :
    ImageValid m image_ptr ∧ revision m image_ptr = I.revision := by
  obtain ⟨hwords, hcrc, hdata⟩ := holdsImage_parts h
  have hword : ∀ k (hk : k < I.words.length), m.load32 (image_ptr + UInt32.ofNat (4 * k)) =
      I.words.get ⟨k, hk⟩ := fun k hk => load32_of_words (by rwa [words_length]) hk
  have hsig : (headerAt m image_ptr).signature = 0xa5a5a5a5 := by
    have h0 := hword 0 (by simp [BootImage.words])
    have hzero : image_ptr + UInt32.ofNat (4 * 0) = image_ptr := add_zero _
    rwa [hzero] at h0
  have hlength : (headerAt m image_ptr).data_length = UInt32.ofNat I.data.length :=
    hword 3 (by simp [BootImage.words])
  have hfits : I.data.length ≤ 0x200000 - 32 := I.fits
  have hsize : (headerAt m image_ptr).data_length.toNat = I.data.length := by
    rw [hlength]
    exact UInt32.toNat_ofNat_of_lt' (by rw [UInt32.size]; omega)
  have hversion : (headerAt m image_ptr).version = I.version :=
    hword 1 (by simp [BootImage.words])
  have htimestamp : (headerAt m image_ptr).timestamp = I.timestamp :=
    hword 2 (by simp [BootImage.words])
  refine ⟨⟨⟨hsig, ?_⟩, by omega, ?_⟩, ?_⟩
  · rw [hwords]
    exact hcrc
  · rw [hsize, hdata]
    exact hword 4 (by simp [BootImage.words])
  · rw [revision, BootImage.revision, hversion, htimestamp]

/-- No address comes out as negative, so what is loaded is run. -/
theorem altMain_eq (m : Mem) (hpick : pickFlashImage m = some k) : altMain fuel m =
    if k = 0 then some (m, NIOS2_RESET_ADDR) else loadFlashImage fuel m k := by
  have hpos : ∀ entry : UInt32, 0 ≤ entry := fun entry => UInt32.zero_le
  by_cases hk : k = 0 <;> simp [altMain, hpick, hk, hpos]

/-- What is run of an image that is held. -/
theorem altMain_of_picked (hpick : pickFlashImage m = some k) (hk : k ≠ 0)
    (hheld : HoldsImage m (flashImagePtr k) I) (hapart : I.Apart (flashImagePtr k))
    (hfuel : I.segments.length < fuel) :
    altMain fuel m = some (load I.segments m, entryPoint I.ending) := by
  obtain ⟨-, -, hdata⟩ := holdsImage_parts hheld
  rw [altMain_eq m hpick, if_neg hk]
  exact loadLoop_records hfuel I.loadable hdata hapart

/-- **An image that is picked is loaded and run**: its segments come where they belong, and the jump
goes to the entry its ending has, for one that halts to the last address. No other program is held
at that place. -/
theorem altMain_boots (m : Mem) (I : BootImage) (k fuel : ℕ) (hpick : pickFlashImage m = some k)
    (hk : k ≠ 0) (hheld : HoldsImage m (flashImagePtr k) I) (hapart : I.Apart (flashImagePtr k))
    (hfuel : I.segments.length < fuel) :
    altMain fuel m = some (load I.segments m, entryPoint I.ending) ∧
      Loaded I.segments m (load I.segments m) ∧
      ∀ J, HoldsImage m (flashImagePtr k) J → J.segments = I.segments ∧ J.ending = I.ending := by
  refine ⟨altMain_of_picked hpick hk hheld hapart hfuel, load_loaded I.loadable, fun J hJ => ?_⟩
  obtain ⟨-, -, hdata⟩ := holdsImage_parts hheld
  obtain ⟨-, -, hdataJ⟩ := holdsImage_parts hJ
  exact records_unique J.loadable I.loadable hdataJ hdata

/-- **Which image is run**: where both can be checked, the newest of the valid ones, the second one
of two that are equally new, and the copier starts over if there is none. A record that halts does
not have it start over. -/
theorem altMain_picks (m : Mem) (fuel : ℕ) (h1 : Checkable m BOOT_IMAGE_1_ADDR)
    (h2 : Checkable m BOOT_IMAGE_2_ADDR) : ∃ k, Picked m k ∧ (∀ j, Picked m j → j = k) ∧
      altMain fuel m = if k = 0 then some (m, NIOS2_RESET_ADDR) else loadFlashImage fuel m k := by
  have hiff := pickFlashImage_iff m
  simp only [and_iff_right h1, and_iff_right h2] at hiff
  obtain ⟨k, hk⟩ : ∃ k, pickFlashImage m = some k := by
    by_cases hv1 : ImageValid m BOOT_IMAGE_1_ADDR
    · by_cases hnewer : ImageValid m BOOT_IMAGE_2_ADDR →
          revision m BOOT_IMAGE_2_ADDR < revision m BOOT_IMAGE_1_ADDR
      · exact ⟨1, (hiff 1).mpr (.inr (.inl ⟨rfl, hv1, hnewer⟩))⟩
      · obtain ⟨hv2, hle⟩ := Classical.not_imp.mp hnewer
        exact ⟨2, (hiff 2).mpr (.inr (.inr ⟨rfl, hv2, fun _ => not_lt.mp hle⟩))⟩
    · by_cases hv2 : ImageValid m BOOT_IMAGE_2_ADDR
      · exact ⟨2, (hiff 2).mpr (.inr (.inr ⟨rfl, hv2, fun h => absurd h hv1⟩))⟩
      · exact ⟨0, (hiff 0).mpr (.inl ⟨rfl, hv1, hv2⟩)⟩
  refine ⟨k, (hiff k).mp hk, fun j hj => ?_, altMain_eq m hk⟩
  rw [← hiff, hk] at hj
  exact (Option.some.inj hj).symm

/-- An image of one segment of four bytes. -/
def smallImage : BootImage where
  version := 1
  timestamp := 0
  res1 := 0
  res2 := 0
  segments := [⟨0x1000, [1, 2, 3, 4]⟩]
  ending := .jump 0x1000
  loadable := by
    intro s hs
    obtain rfl := List.mem_singleton.mp hs
    exact ⟨by decide, by decide⟩
  fits := by decide

/-- A memory that is empty but for this image in the second place. -/
def smallMemory : Mem := Mem.blit (fun _ => 0) BOOT_IMAGE_2_ADDR smallImage.file

theorem smallMemory_holds : HoldsImage smallMemory BOOT_IMAGE_2_ADDR smallImage :=
  valueOf_blit (r := ⟨BOOT_IMAGE_2_ADDR, UInt32.ofNat smallImage.file.length⟩) (by decide)

/-- Nothing is in the first place. -/
theorem smallMemory_first : ¬ HeaderValid smallMemory BOOT_IMAGE_1_ADDR := by
  intro h
  have hsig : (headerAt smallMemory BOOT_IMAGE_1_ADDR).signature ≠ 0xa5a5a5a5 := by decide +kernel
  exact hsig h.signature

/-- It is picked. -/
theorem smallMemory_picked : pickFlashImage smallMemory = some 2 := by
  obtain ⟨hvalid, -⟩ := smallMemory_holds.valid
  refine (pickFlashImage_iff _ _).mpr
    ⟨fun h => absurd h smallMemory_first, fun _ => hvalid.data_length, ?_⟩
  exact .inr (.inr ⟨rfl, hvalid, fun h => absurd h.toHeaderValid smallMemory_first⟩)

/-- The small image is loaded and run. -/
theorem altMain_boots_small :
    altMain 2 smallMemory = some (load smallImage.segments smallMemory, 0x1000) ∧
      Loaded smallImage.segments smallMemory (load smallImage.segments smallMemory) ∧
      ∀ J, HoldsImage smallMemory BOOT_IMAGE_2_ADDR J →
        J.segments = smallImage.segments ∧ J.ending = smallImage.ending :=
  altMain_boots smallMemory smallImage 2 2 smallMemory_picked (by decide) smallMemory_holds
    (by decide +kernel) (by decide)

/-- And so it is by itself. -/
theorem altMain_picks_small : ∃ k, Picked smallMemory k ∧ (∀ j, Picked smallMemory j → j = k) ∧
    altMain 2 smallMemory =
      if k = 0 then some (smallMemory, NIOS2_RESET_ADDR) else loadFlashImage 2 smallMemory k :=
  altMain_picks smallMemory 2 (fun h => absurd h smallMemory_first)
    fun _ => smallMemory_holds.valid.1.data_length

end Images

end Muxponder
