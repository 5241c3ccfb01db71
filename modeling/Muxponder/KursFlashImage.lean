import Muxponder.KursStopAndWait

/-!
# The Image in the Flash

What a session leaves in the copy region. The operations of a session are known
(`sessionLedger_run`), so the contents after any run follow by replaying them on what the
flash held before the `HEXLOAD` (`flash_at`). Two things go past what the region is laid
out for: the last block fits the range test but not in front of the checksum, and the
sectors erased are fewer than the region has.

## Main results

* `blocks_spare_slot_iff`: the blocks stay in front of the checksum exactly when fewer
  than 32768 of them are accepted.
* `image_reads_back_iff`: the image reads back exactly when what was never erased lets it.
-/

namespace Muxponder

open CString Digits NorFlash

/-! ### The block writer -/

/-- `WriteToProgCopy` reads no byte behind the block and programs only the region in front
of its last four bytes. -/
def SparesSlot (memory : ℕ → UInt8) (s : RemoteUpdate) (p : List UInt8) : Prop :=
  ∃ w, writeToProgCopy memory s.flash s.dwCurCopyAddr p (UInt32.ofNat FWHEX_PACKET_SIZE)
      false false = some w ∧
    ∀ op ∈ w.ops, ∀ a, op.touches CFI_SECTOR_SIZE a →
      FLASH_COPY_START ≤ a ∧ a < FLASH_COPY_END - 4

/-- Behind `n` blocks the next one spares the last four bytes unless it is the last that
fits the region. -/
theorem sparesSlot_iff {memory : ℕ → UInt8} {s : RemoteUpdate} {p : List UInt8} {n : ℕ}
    (hc : Cursor s n) (hn : n < 32768) (hp : p.length = 64) :
    SparesSlot memory s p ↔ n < 32767 := by
  have hstart : FLASH_COPY_START = 0x440000 := rfl
  have hend : FLASH_COPY_END = 0x640000 := rfl
  have hcopy := hc.copyAddr
  have hwrite : writeToProgCopy memory s.flash s.dwCurCopyAddr p
      (UInt32.ofNat FWHEX_PACKET_SIZE) false false = some ⟨0, [.program s.dwCurCopyAddr.toNat p],
        s.dwCurCopyAddr + trimmedSize s.dwCurCopyAddr (UInt32.ofNat FWHEX_PACKET_SIZE)⟩ :=
    writeToProgCopy_block (by omega) (by omega) (by omega) hp
  constructor
  · rintro ⟨w, hw, hall⟩
    rw [hwrite, Option.some.injEq] at hw
    subst hw
    have htouch : (Op.program s.dwCurCopyAddr.toNat p).touches CFI_SECTOR_SIZE
        (s.dwCurCopyAddr.toNat + 60) := ⟨by omega, by omega⟩
    have := (hall _ List.mem_cons_self _ htouch).2
    omega
  · intro hlt
    refine ⟨_, hwrite, ?_⟩
    intro op hop a ht
    obtain rfl : op = .program s.dwCurCopyAddr.toNat p := by simpa using hop
    obtain ⟨h1, h2⟩ : s.dwCurCopyAddr.toNat ≤ a ∧ a < s.dwCurCopyAddr.toNat + p.length := ht
    omega

/-- **The reserved bytes**: along any run, every accepted block is written inside the
region and in front of its last four bytes exactly when each is accepted behind fewer
than 32767 others. -/
theorem blocks_spare_slot_iff {tps : UInt32} {flash : Contents} {h : UpdateHistory}
    {s : RemoteUpdate} (hr : (updateMachine tps).Run (updateInit flash) h s) :
    (∀ h₁ c o h₂ s₁ p, h = h₁ ++ (c, o) :: h₂ →
      (updateMachine tps).Run (updateInit flash) h₁ s₁ → o.accepted = some p →
        SparesSlot c.memory s₁ p) ↔
    ∀ h₁ c o h₂, h = h₁ ++ (c, o) :: h₂ → o.accepted.isSome = true →
      (acceptedOf (sinceHexload h₁)).length < 32767 := by
  -- the call behind any part of the history, from the state the part leads to
  have hcall : ∀ h₁ c o h₂ s₁ p, h = h₁ ++ (c, o) :: h₂ →
      (updateMachine tps).Run (updateInit flash) h₁ s₁ → o.accepted = some p →
      (updateMachine tps).Run s₁ ((c, o) :: h₂) s →
        (SparesSlot c.memory s₁ p ↔ (acceptedOf (sinceHexload h₁)).length < 32767) := by
    intro h₁ c o h₂ s₁ p _ hr₁ hp hr₂
    obtain ⟨m, hstep, -⟩ := hr₂.cons_inv
    obtain ⟨-, hlen, hn, hcur⟩ :=
      accepted_block (sessionLedger_run hr₁) (update_step hstep) hp
    exact sparesSlot_iff hcur hn hlen
  constructor
  · intro hall h₁ c o h₂ hh hsome
    obtain ⟨p, hp⟩ := Option.isSome_iff_exists.mp hsome
    obtain ⟨s₁, hr₁, hr₂⟩ := (hh ▸ hr).split
    exact (hcall h₁ c o h₂ s₁ p hh hr₁ hp hr₂).mp (hall h₁ c o h₂ s₁ p hh hr₁ hp)
  · intro hfew h₁ c o h₂ s₁ p hh hr₁ hp
    obtain ⟨s₂, hr₂, hr₃⟩ := (hh ▸ hr).split
    obtain rfl := hr₁.det hr₂
    exact (hcall h₁ c o h₂ s₁ p hh hr₁ hp hr₃).mpr
      (hfew h₁ c o h₂ hh (Option.isSome_of_eq_some hp))

/-- A session before its first block spares the reserved bytes. -/
theorem blocks_spare_slot_hexload :
    (∀ h₁ c o h₂ s₁ p, [(hexloadCall,
          (hexload 1000 (updateInit fun _ => 0) hexloadCall updateHeader).2)] =
        h₁ ++ (c, o) :: h₂ →
      (updateMachine 1000).Run (updateInit fun _ => 0) h₁ s₁ → o.accepted = some p →
        SparesSlot c.memory s₁ p) ↔
    ∀ h₁ c o h₂, [(hexloadCall,
          (hexload 1000 (updateInit fun _ => 0) hexloadCall updateHeader).2)] =
        h₁ ++ (c, o) :: h₂ → o.accepted.isSome = true →
      (acceptedOf (sinceHexload h₁)).length < 32767 :=
  blocks_spare_slot_iff (Machine.Run.single (hexload_step 1000 (updateInit fun _ => 0)).1)

/-- The last part of a history behind one `HEXLOAD` is all that follows it. -/
theorem sinceHexload_append {h₁ h₂ : UpdateHistory} {e : UpdateCall × UpdateReply}
    (he : e.1.isHexload = true) (hno : ∀ x ∈ h₂, x.1.isHexload = false) :
    sinceHexload (h₁ ++ e :: h₂) = e :: h₂ := by
  induction h₂ using List.reverseRecOn with
  | nil => exact sinceHexload_hexload he
  | append_singleton h₂ x ih =>
      have hx : x.1.isHexload = false := hno x (by simp)
      have hcut : h₁ ++ e :: (h₂ ++ [x]) = (h₁ ++ e :: h₂) ++ [x] := by simp
      rw [hcut, sinceHexload_snoc hx, ih fun y hy => hno y (List.mem_append_left _ hy)]
      rfl

/-- The block that fills the region reaches into its last four bytes. -/
theorem last_block_hits_slot :
    ¬ ∀ (tps : UInt32) (flash : Contents) (h : UpdateHistory) (s : RemoteUpdate),
      (updateMachine tps).Run (updateInit flash) h s →
      ∀ h₁ c o h₂ s₁ p, h = h₁ ++ (c, o) :: h₂ →
        (updateMachine tps).Run (updateInit flash) h₁ s₁ → o.accepted = some p →
          SparesSlot c.memory s₁ p := by
  intro hall
  have hps : ∀ p ∈ List.replicate 32767 (List.replicate 64 (0 : UInt8)), p.length = 64 := by
    intro p hp
    rw [List.eq_of_mem_replicate hp, List.length_replicate]
  obtain ⟨h, o, s, hr, -, -, -, hw⟩ := load_run 1000 (fun _ => 0) hps
    (by rw [List.length_replicate]; omega)
  rw [List.length_replicate] at hw
  obtain ⟨s', o', hstep, -, hacc, -⟩ := sendBlock_step 1000 (p := List.replicate 64 0) hw
    (by omega) List.length_replicate
  have hspares := hall _ _ _ _ (hr.snoc hstep) _ _ _ [] _ _ rfl hr hacc
  exact absurd ((sparesSlot_iff hw.cursor (by omega) List.length_replicate).mp hspares)
    (lt_irrefl _)

/-! ### Reading back -/

/-- A call changes the flash by its operations. -/
theorem step_flash {tps : UInt32} {s s' : RemoteUpdate} {c : UpdateCall} {o : UpdateReply}
    (hstep : UpdateStep tps s c s' o) : s'.flash = run CFI_SECTOR_SIZE o.ops s.flash := by
  cases hstep with
  | apart hx hf hb hs ho =>
      obtain ⟨b, rfl⟩ := hs
      rcases ho with rfl | ⟨_, _, _, _, rfl⟩ <;> rfl
  | hexload hh hx => rfl
  | timeout hh hx ht => rfl
  | idle hh hx hs => rfl
  | finish hh hx hf ht hs hstep =>
      obtain ⟨w, -, hw⟩ := Option.map_eq_some_iff.mp hstep
      simp only at hw
      split_ifs at hw <;> obtain ⟨rfl, rfl⟩ := Prod.mk.inj hw <;> rfl
  | block hh hx hf hb hstr ht hs hstep =>
      simp only [loadBlock] at hstep
      split at hstep
      · obtain ⟨rfl, rfl⟩ := Prod.mk.inj (Option.some.inj hstep)
        rfl
      · obtain ⟨w, -, hw⟩ := Option.map_eq_some_iff.mp hstep
        split_ifs at hw <;> obtain ⟨rfl, rfl⟩ := Prod.mk.inj hw <;> rfl

/-- A run changes the flash by the operations of its history. -/
theorem flash_run {tps : UInt32} {s₁ s : RemoteUpdate} {h : UpdateHistory}
    (hr : (updateMachine tps).Run s₁ h s) :
    s.flash = run CFI_SECTOR_SIZE (opsOf h) s₁.flash := by
  refine hr.invariant (I := fun h s => s.flash = run CFI_SECTOR_SIZE (opsOf h) s₁.flash) rfl ?_
  intro h s c s' o _ ih hs
  rw [step_flash (update_step hs), ih, opsOf_snoc, run_append]

/-- What a read of the flash has at an index. -/
theorem readFlash_getD (flash : Contents) (offset : ℕ) {size i : ℕ} (hi : i < size) :
    (readFlash flash offset size).getD i 0xFF = flash (offset + i) := by
  have hlen : i < (readFlash flash offset size).length := by
    rw [readFlash, List.length_map, List.length_range]
    exact hi
  rw [List.getD_eq_getElem _ _ hlen]
  simp only [readFlash, List.getElem_map, List.getElem_range]

/-- The bytes of the copy region whose sectors `HEXLOAD` erases. -/
def erasedSize : ℕ := 10 * CFI_SECTOR_SIZE

/-- The copy region behind a `HEXLOAD`, before anything is written. -/
theorem erased_at (flash : Contents) {i : ℕ} (hi : i < FLASH_PROG_SIZE) :
    run CFI_SECTOR_SIZE prepareEraseProgCopy flash (FLASH_COPY_START + i) =
      if i < erasedSize then 0xFF else flash (FLASH_COPY_START + i) := by
  have hstart : FLASH_COPY_START = 0x20000 * 34 := rfl
  have hoffset : REMOTE_IMAGE_OFFSET_IN_FLASH = 0x20000 * 34 := rfl
  have hsize : FLASH_PROG_SIZE = 0x20000 * 16 := rfl
  have hsector : CFI_SECTOR_SIZE = 0x20000 := rfl
  have herased : erasedSize = 0x20000 * 10 := rfl
  have hdiv : ∀ k, (REMOTE_IMAGE_OFFSET_IN_FLASH + CFI_SECTOR_SIZE * k) / CFI_SECTOR_SIZE =
      34 + k := by
    intro k
    rw [hoffset, hsector, ← Nat.mul_add, Nat.mul_div_cancel_left _ (by omega)]
  have haddr : (FLASH_COPY_START + i) / CFI_SECTOR_SIZE = 34 + i / 0x20000 := by
    rw [hstart, hsector, Nat.mul_add_div (by omega)]
  rcases Nat.lt_or_ge i erasedSize with hlt | hge
  · rw [if_pos hlt]
    refine run_erase_mem ?_ ?_
    · intro op hop
      obtain ⟨k, -, rfl⟩ := List.mem_map.mp hop
      exact ⟨_, rfl⟩
    · refine ⟨_, List.mem_map.mpr ⟨i / 0x20000, ?_, rfl⟩, ?_⟩
      · rw [List.mem_range]
        omega
      · exact haddr.trans (hdiv _).symm
  · rw [if_neg (by omega)]
    refine run_untouched ?_
    intro op hop ht
    obtain ⟨k, hk, rfl⟩ := List.mem_map.mp hop
    have hsame := (haddr.symm.trans ht).trans (hdiv k)
    rw [List.mem_range] at hk
    omega

/-- **The copy region of a session**: behind a `HEXLOAD` each byte the blocks cover holds
the block's byte, cut down by what the flash held before where it was not erased. -/
theorem flash_at {tps : UInt32} {flash : Contents} {h₁ h₂ : UpdateHistory}
    {c₀ : UpdateCall} {o₀ : UpdateReply} {s₁ s : RemoteUpdate}
    (hr₁ : (updateMachine tps).Run (updateInit flash) h₁ s₁)
    (hr : (updateMachine tps).Run s₁ ((c₀, o₀) :: h₂) s) (hx : c₀.isHexload = true)
    (hno : ∀ e ∈ h₂, e.1.isHexload = false) {i : ℕ}
    (hi : i < (acceptedOf ((c₀, o₀) :: h₂)).flatten.length) :
    s.flash (FLASH_COPY_START + i) =
      (if i < erasedSize then 0xFF else s₁.flash (FLASH_COPY_START + i)) &&&
        (acceptedOf ((c₀, o₀) :: h₂)).flatten.getD i 0xFF := by
  have hstart : FLASH_COPY_START = 0x440000 := rfl
  have hend : FLASH_COPY_END = 0x640000 := rfl
  have hsize : FLASH_PROG_SIZE = 0x200000 := rfl
  have hload := (sessionLedger_run (hr₁.append hr)).load
    ⟨_, List.mem_append_right _ List.mem_cons_self, hx⟩
  rw [sinceHexload_append hx hno] at hload
  obtain ⟨⟨tail, hops, htail⟩, hcur, hpackets⟩ := hload
  have hle := hcur.le
  have hlen := flatten_length hpackets
  -- the checksum is only written behind fewer than 32768 blocks, and so behind them all
  have huntouched : ∀ op ∈ tail, ¬ op.touches CFI_SECTOR_SIZE (FLASH_COPY_START + i) := by
    rcases htail with rfl | ⟨-, hfew, d, hd, rfl⟩
    · simp
    · intro op hop ht
      obtain rfl : op = .program (FLASH_COPY_END - 4) d := by simpa using hop
      have : FLASH_COPY_END - 4 ≤ FLASH_COPY_START + i := ht.1
      omega
  rw [flash_run hr, hops, run_append, run_append, run_untouched huntouched,
    run_programAll hi, erased_at _ (by omega)]

/-- **Reading back**: after any run whose last `HEXLOAD` found the flash as in `s₁`, the
copy region reads back as the accepted data exactly when the bytes behind the erased
sectors had every bit of theirs set. -/
theorem image_reads_back_iff {tps : UInt32} {flash : Contents} {h₁ h₂ : UpdateHistory}
    {c₀ : UpdateCall} {o₀ : UpdateReply} {s₁ s : RemoteUpdate}
    (hr₁ : (updateMachine tps).Run (updateInit flash) h₁ s₁)
    (hr : (updateMachine tps).Run s₁ ((c₀, o₀) :: h₂) s) (hx : c₀.isHexload = true)
    (hno : ∀ e ∈ h₂, e.1.isHexload = false) :
    readFlash s.flash FLASH_COPY_START (acceptedOf ((c₀, o₀) :: h₂)).flatten.length =
        (acceptedOf ((c₀, o₀) :: h₂)).flatten ↔
      ∀ i, erasedSize ≤ i → i < (acceptedOf ((c₀, o₀) :: h₂)).flatten.length →
        s₁.flash (FLASH_COPY_START + i) &&&
            (acceptedOf ((c₀, o₀) :: h₂)).flatten.getD i 0xFF =
          (acceptedOf ((c₀, o₀) :: h₂)).flatten.getD i 0xFF := by
  obtain ⟨data, hdata⟩ : ∃ data, (acceptedOf ((c₀, o₀) :: h₂)).flatten = data := ⟨_, rfl⟩
  have hat : ∀ i, i < data.length → s.flash (FLASH_COPY_START + i) =
      (if i < erasedSize then 0xFF else s₁.flash (FLASH_COPY_START + i)) &&&
        data.getD i 0xFF := by
    intro i hi
    rw [← hdata] at hi ⊢
    exact flash_at hr₁ hr hx hno hi
  rw [hdata]
  have hread : readFlash s.flash FLASH_COPY_START data.length = data ↔
      ∀ i, i < data.length → s.flash (FLASH_COPY_START + i) = data.getD i 0xFF := by
    constructor
    · intro heq i hi
      have hget := readFlash_getD s.flash FLASH_COPY_START hi
      rw [← hget, heq]
    · intro hall
      refine List.ext_getElem (by simp [readFlash]) ?_
      intro i h1 h2
      rw [← List.getD_eq_getElem _ 0xFF h1, ← List.getD_eq_getElem _ 0xFF h2,
        readFlash_getD _ _ h2, hall i h2]
  rw [hread]
  constructor
  · intro hall i hge hlt
    have hi := hat i hlt
    rw [if_neg (by omega), hall i hlt] at hi
    exact hi.symm
  · intro hold i hlt
    rw [hat i hlt]
    rcases Nat.lt_or_ge i erasedSize with hin | hge
    · rw [if_pos hin, erased_and]
    · rw [if_neg (by omega), hold i hge hlt]

/-- A session without blocks reads back. -/
theorem image_reads_back_hexload :
    readFlash (hexload 1000 (updateInit fun _ => 0) hexloadCall updateHeader).1.flash
        FLASH_COPY_START 0 = [] ↔
      ∀ i, erasedSize ≤ i → i < 0 →
        (updateInit fun _ => 0).flash (FLASH_COPY_START + i) &&& [].getD i 0xFF =
          [].getD i 0xFF := by
  obtain ⟨hstep, hx⟩ := hexload_step 1000 (updateInit fun _ => 0)
  exact image_reads_back_iff Machine.Run.nil (Machine.Run.single hstep) hx (by simp)

/-- Over a flash of zero bytes, an image one block longer than the erased sectors does not
read back. -/
theorem long_image_not_read_back :
    ¬ ∀ (tps : UInt32) (flash : Contents) (h₁ h₂ : UpdateHistory) (c₀ : UpdateCall)
        (o₀ : UpdateReply) (s₁ s : RemoteUpdate),
      (updateMachine tps).Run (updateInit flash) h₁ s₁ →
      (updateMachine tps).Run s₁ ((c₀, o₀) :: h₂) s → c₀.isHexload = true →
      (∀ e ∈ h₂, e.1.isHexload = false) →
      readFlash s.flash FLASH_COPY_START (acceptedOf ((c₀, o₀) :: h₂)).flatten.length =
        (acceptedOf ((c₀, o₀) :: h₂)).flatten := by
  intro hall
  obtain ⟨ps, hps⟩ : ∃ ps, List.replicate 20481 (List.replicate 64 (0xFF : UInt8)) = ps :=
    ⟨_, rfl⟩
  have hlen : ∀ p ∈ ps, p.length = 64 := by
    intro p hp
    rw [← hps] at hp
    rw [List.eq_of_mem_replicate hp, List.length_replicate]
  have hcount : ps.length = 20481 := by rw [← hps, List.length_replicate]
  obtain ⟨h, o, s, hr, hno, ho, hacc, -⟩ := load_run 1000 (fun _ => 0) hlen (by omega)
  have hx := (hexload_step 1000 (updateInit fun _ => 0)).2
  have hacc' : acceptedOf ((hexloadCall, o) :: h) = ps := by
    rw [acceptedOf, List.filterMap_cons, ho]
    exact hacc
  have hflat : ps.flatten.length = 64 * 20481 := by rw [flatten_length hlen, hcount]
  have hback := hall _ _ [] h hexloadCall o _ s Machine.Run.nil hr hx hno
  have hbyte := flash_at Machine.Run.nil hr hx hno (i := erasedSize)
    (by rw [hacc', hflat]; decide)
  rw [if_neg (lt_irrefl _), hacc'] at hbyte
  rw [hacc'] at hback
  have hin : erasedSize < ps.flatten.length := by rw [hflat]; decide
  have hff : ps.flatten.getD erasedSize 0xFF = 0xFF := by
    rw [List.getD_eq_getElem _ _ hin]
    obtain ⟨p, hp, hb⟩ := List.mem_flatten.mp (List.getElem_mem hin)
    rw [← hps] at hp
    rw [List.eq_of_mem_replicate hp] at hb
    exact List.eq_of_mem_replicate hb
  have hread : s.flash (FLASH_COPY_START + erasedSize) = 0xFF := by
    have hget := readFlash_getD s.flash FLASH_COPY_START hin
    rw [hback, hff] at hget
    exact hget.symm
  rw [hread, hff] at hbyte
  exact absurd hbyte (by decide)

/-! ### The flash outside the copy region -/

/-- One operation of the driver stays inside the words it is given. -/
theorem lldWriteBufferProgramOp_touches {offset word_cnt a : ℕ} {d : List UInt8} {op : Op}
    (hop : lldWriteBufferProgramOp offset word_cnt d = some op)
    (ht : op.touches CFI_SECTOR_SIZE a) : offset ≤ a ∧ a < offset + word_cnt := by
  rw [lldWriteBufferProgramOp] at hop
  split at hop
  next hlen =>
    obtain rfl := Option.some.inj hop
    obtain ⟨hlo, hhi⟩ : offset ≤ a ∧ a < offset + (d.take word_cnt).length := ht
    rw [List.length_take_of_le hlen] at hhi
    exact ⟨hlo, hhi⟩
  · simp at hop

/-- So do its pages. -/
theorem lldMemcpyPages_touches {offset word_cnt a : ℕ} {d : List UInt8} {ops : List Op}
    (hops : lldMemcpyPages offset word_cnt d = some ops) {op : Op} (hop : op ∈ ops)
    (ht : op.touches CFI_SECTOR_SIZE a) : offset ≤ a ∧ a < offset + word_cnt := by
  induction word_cnt using Nat.strong_induction_on generalizing offset d ops with
  | _ word_cnt ih =>
      rw [lldMemcpyPages] at hops
      split at hops
      next hpage =>
        obtain ⟨first, hfirst, hrest⟩ := Option.bind_eq_some_iff.mp hops
        obtain ⟨rest, hpages, rfl⟩ := Option.map_eq_some_iff.mp hrest
        have hpos : 0 < LLD_BUFFER_SIZE := by decide
        rcases List.mem_cons.mp hop with rfl | hop
        · have hin := lldWriteBufferProgramOp_touches hfirst ht
          omega
        · have hin := ih (word_cnt - LLD_BUFFER_SIZE) (by omega) hpages hop
          omega
      split at hops
      · obtain rfl := Option.some.inj hops
        simp at hop
      · obtain ⟨first, hfirst, rfl⟩ := Option.map_eq_some_iff.mp hops
        obtain rfl := List.mem_singleton.mp hop
        exact lldWriteBufferProgramOp_touches hfirst ht

/-- A copy stays inside its words, wherever the pages lie. -/
theorem lldMemcpy_touches {offset word_cnt a : ℕ} {d : List UInt8} {ops : List Op}
    (hops : lldMemcpy offset word_cnt d = some ops) {op : Op} (hop : op ∈ ops)
    (ht : op.touches CFI_SECTOR_SIZE a) : offset ≤ a ∧ a < offset + word_cnt := by
  rw [lldMemcpy] at hops
  split at hops
  · exact lldMemcpyPages_touches hops hop ht
  · obtain ⟨first, hfirst, hrest⟩ := Option.bind_eq_some_iff.mp hops
    have hfirst' : op = first → offset ≤ a ∧ a < offset + word_cnt := by
      rintro rfl
      have hin := lldWriteBufferProgramOp_touches hfirst ht
      omega
    split at hrest
    · obtain rfl := Option.some.inj hrest
      exact hfirst' (List.mem_singleton.mp hop)
    · obtain ⟨rest, hpages, rfl⟩ := Option.map_eq_some_iff.mp hrest
      rcases List.mem_cons.mp hop with hop | hop
      · exact hfirst' hop
      · have hin := lldMemcpyPages_touches hpages hop ht
        omega

/-- The copy region. -/
def InCopyRegion (a : ℕ) : Prop := FLASH_COPY_START ≤ a ∧ a < FLASH_COPY_END

/-- `WriteToProgCopy` stays inside it. -/
theorem writeToProgCopy_touches {memory : ℕ → UInt8} {flash : Contents} {dwCopyAddr size : UInt32}
    {p : List UInt8} {fin ident : Bool} {w : WriteResult}
    (hw : writeToProgCopy memory flash dwCopyAddr p size fin ident = some w)
    (hsize : size = 0 ∨ size = UInt32.ofNat FWHEX_PACKET_SIZE) {op : Op} (hop : op ∈ w.ops)
    {a : ℕ} (ht : op.touches CFI_SECTOR_SIZE a) : InCopyRegion a := by
  have hend : FLASH_COPY_END = 0x640000 := rfl
  have hstart : FLASH_COPY_START = 0x440000 := rfl
  simp only [writeToProgCopy] at hw
  split at hw
  · obtain rfl := Option.some.inj hw
    simp at hop
  next hin =>
  simp only [decide_eq_true_eq, not_or, not_lt, not_le] at hin
  obtain ⟨hlo, hhi, hsum⟩ := hin
  obtain ⟨⟨ops, next⟩, hcopy, hw⟩ := Option.bind_eq_some_iff.mp hw
  have hblock : ∀ op ∈ ops, op.touches CFI_SECTOR_SIZE a → InCopyRegion a := by
    intro op hop ht
    split at hcopy
    · obtain ⟨rfl, -⟩ := Prod.mk.inj (Option.some.inj hcopy)
      simp at hop
    next hne =>
      obtain rfl := hsize.resolve_left hne
      obtain ⟨ops', hops', heq⟩ := Option.map_eq_some_iff.mp hcopy
      obtain ⟨rfl, -⟩ := Prod.mk.inj heq
      have hin := lldMemcpy_touches hops' hop ht
      have h64 : (UInt32.ofNat FWHEX_PACKET_SIZE).toNat = 64 := rfl
      rw [UInt32.toNat_add, h64] at hsum
      rw [InCopyRegion]
      omega
  split at hw
  · obtain ⟨slot, hslot, rfl⟩ := Option.map_eq_some_iff.mp hw
    rcases List.mem_append.mp hop with hop | hop
    · exact hblock op hop ht
    · have hin := lldMemcpy_touches hslot hop ht
      rw [InCopyRegion]
      omega
  · obtain rfl := Option.some.inj hw
    exact hblock op hop ht

/-- **Every call stays inside the copy region.** -/
theorem updateStep_touches {tps : UInt32} {s s' : RemoteUpdate} {c : UpdateCall} {o : UpdateReply}
    (hstep : UpdateStep tps s c s' o) {op : Op} (hop : op ∈ o.ops) {a : ℕ}
    (ht : op.touches CFI_SECTOR_SIZE a) : InCopyRegion a := by
  cases hstep with
  | apart hx hf hb hs ho => rcases ho with rfl | ⟨_, _, _, _, rfl⟩ <;> simp at hop
  | hexload hh hx =>
      obtain ⟨ind, hind, rfl⟩ := List.mem_map.mp hop
      have hlt : ind < 10 := List.mem_range.mp hind
      have hsame : a / CFI_SECTOR_SIZE =
          (REMOTE_IMAGE_OFFSET_IN_FLASH + CFI_SECTOR_SIZE * ind) / CFI_SECTOR_SIZE := ht
      have hsector : CFI_SECTOR_SIZE = 0x20000 := rfl
      have hoffset : REMOTE_IMAGE_OFFSET_IN_FLASH = 0x440000 := rfl
      have hstart : FLASH_COPY_START = 0x440000 := rfl
      have hend : FLASH_COPY_END = 0x640000 := rfl
      rw [hsector, hoffset] at hsame
      rw [InCopyRegion]
      omega
  | timeout hh hx htime => simp at hop
  | idle hh hx hs => simp at hop
  | finish hh hx hf htime hs hstep =>
      obtain ⟨w, hw, heq⟩ := Option.map_eq_some_iff.mp hstep
      have hops : o.ops = w.ops := by
        simp only at heq
        split_ifs at heq <;> obtain ⟨-, rfl⟩ := Prod.mk.inj heq <;> rfl
      exact writeToProgCopy_touches hw (.inl rfl) (hops ▸ hop) ht
  | block hh hx hf hb hstr htime hs hstep =>
      simp only [loadBlock] at hstep
      split at hstep
      · obtain ⟨-, rfl⟩ := Prod.mk.inj (Option.some.inj hstep)
        simp at hop
      · obtain ⟨w, hw, heq⟩ := Option.map_eq_some_iff.mp hstep
        have hops : o.ops = w.ops := by
          split_ifs at heq <;> obtain ⟨-, rfl⟩ := Prod.mk.inj heq <;> rfl
        exact writeToProgCopy_touches hw (.inr rfl) (hops ▸ hop) ht

/-- **The rest of the flash keeps its bytes.** -/
theorem flash_outside {tps : UInt32} {s s' : RemoteUpdate} {c : UpdateCall} {o : UpdateReply}
    (hs : (updateMachine tps).step s c = some (s', o)) {a : ℕ} (ha : ¬ InCopyRegion a) :
    s'.flash a = s.flash a := by
  rw [step_flash (update_step hs)]
  exact run_untouched fun op hop ht => ha (updateStep_touches (update_step hs) hop ht)

end Muxponder
