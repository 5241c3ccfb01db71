import Muxponder.KursLangPack

/-!
# The Transfer of a Language Pack

A pack comes in blocks of its own requests, which may arrive in any order, be lost or come
twice. Block 0 announces the number of the last block and starts a transfer;
`HandleKursWriteLangPackCommand` clears no other block for it, and takes the pack for
complete when the last block arrives.

What has been stored is read off a history: the blocks whose requests were answered with
`OK`.

## Main results

* `transfer_tracks`: along every run the announced number and the blocks of the transfer
  are what the state holds.
* `langTransfer_iff`: the runs in which a transfer starts on a cleared pack and is taken
  for complete only when it is.
-/

namespace Muxponder

open CString Digits Printf Memory

variable {L : Layout} {T : KursTables L} {tps : UInt32} {S S' : KursState} {c : KursCall}
  {r data : List UInt8} {i : Fin LANG_BLOCK_MAX_CNT} {h : List (KursCall × List UInt8)}

/-! ### The blocks of a history -/

/-- The block that a request of a history has stored: it is answered with `OK`. -/
def storedBlock (e : KursCall × List UInt8) : Option (Fin LANG_BLOCK_MAX_CNT × List UInt8) :=
  if e.1.command = .writeLanguagePack then
    e.1.number.bind fun n => (strchr SEMICOLON e.1.strRx).join.bind fun k =>
      if h : n.toNat < LANG_BLOCK_MAX_CNT ∧
          e.2 = e.1.checked (integer (n.toNat : ℤ) ++ ascii ";OK;") then
        some (⟨n.toNat, h.1⟩, e.1.strRx.drop (k + 1))
      else none
  else none

/-- The block that a request is about to store. -/
def arrivingBlock (S : KursState) (c : KursCall) :
    Option (Fin LANG_BLOCK_MAX_CNT × List UInt8) :=
  if c.command = .writeLanguagePack then acceptedBlock S c else none

/-- Only a language block arrives. -/
theorem arrivingBlock_eq (hcmd : c.command = .writeLanguagePack) :
    arrivingBlock S c = acceptedBlock S c := if_pos hcmd

/-- A transfer: the number that its block 0 has announced, and the blocks stored since. -/
structure Transfer where
  announced : UInt32
  blocks : Fin LANG_BLOCK_MAX_CNT → Option LangBlock

/-- One more request of a history. Block 0 starts a transfer. -/
def Transfer.next (t : Option Transfer) (e : KursCall × List UInt8) : Option Transfer :=
  match storedBlock e with
  | none => t
  | some (i, data) =>
      if i = 0 then
        (strToU32Def data 0xFFFFFFFF).map fun cnt =>
          ⟨cnt, Function.update (fun _ => none) 0 (some (blockOf data))⟩
      else t.map fun t => { t with blocks := Function.update t.blocks i (some (blockOf data)) }

/-- The last transfer of a history. -/
def transfer (h : List (KursCall × List UInt8)) : Option Transfer :=
  h.foldl Transfer.next none

theorem transfer_snoc {e : KursCall × List UInt8} :
    transfer (h ++ [e]) = Transfer.next (transfer h) e := by
  rw [transfer, List.foldl_append]
  rfl

/-! ### What requests do to the pack -/

/-- Showing a section changes variables and colours. -/
theorem showSection_eq (L : Layout) (c : KursCall) (colored : Bool) (ps : List SectionParam)
    (S : KursState) :
    ∃ m adds, (showSection L c colored ps S).1 = { S with mem := m, adds := adds } := by
  induction ps generalizing S with
  | nil => exact ⟨S.mem, S.adds, rfl⟩
  | cons p ps ih =>
      have hfirst : ∃ m adds, (showParam L c colored S p).1 =
          { S with mem := m, adds := adds } := by
        rw [showParam]
        split
        · exact ⟨_, S.adds, rfl⟩
        · exact ⟨_, _, rfl⟩
      obtain ⟨m, adds, hfirst⟩ := hfirst
      obtain ⟨m', adds', hrest⟩ := ih (showParam L c colored S p).1
      refine ⟨m', adds', ?_⟩
      change (showSection L c colored ps (showParam L c colored S p).1).1 = _
      rw [hrest, hfirst]

/-- What a request leaves alone that brings no language block. -/
structure LangUnchanged (tps : UInt32) (S : KursState) (c : KursCall) (S' : KursState) : Prop where
  pack : S'.lngpack = S.lngpack
  cnt : S'.expectedBlckCnt = S.expectedBlckCnt
  flag : S'.newLngFile = S.newLngFile
  update : S'.update = S.update ∨
    ∃ o, (updateMachine tps).step S.update c.update = some (S'.update, o)

/-- Only a language block changes the pack and its flag, and only a loader request the flash. -/
theorem langUnchanged_of_ne (hcmd : c.command ≠ .writeLanguagePack)
    (hs : kursHandleRequests tps T S c = some (S', r)) : LangUnchanged tps S c S' := by
  have hsame : S' = S → LangUnchanged tps S c S' := by
    rintro rfl
    exact ⟨rfl, rfl, rfl, .inl rfl⟩
  rw [kursHandleRequests] at hs
  cases hc : c.command with
  | writeLanguagePack => exact absurd hc hcmd
  | safeReprogramming =>
      simp only [hc] at hs
      obtain ⟨u, hupdate, hu⟩ := Option.map_eq_some_iff.mp hs
      obtain ⟨rfl, -⟩ := Prod.mk.inj hu
      exact ⟨rfl, rfl, rfl, .inr ⟨u.2, hupdate⟩⟩
  | setProfileParams =>
      simp only [hc] at hs
      obtain ⟨u, -, hu⟩ := Option.map_eq_some_iff.mp hs
      obtain ⟨rfl, -⟩ := Prod.mk.inj hu
      exact ⟨rfl, rfl, rfl, .inl rfl⟩
  | rdProfileParams =>
      simp only [hc] at hs
      obtain ⟨n, -, hs⟩ := Option.bind_eq_some_iff.mp hs
      split at hs
      · exact hsame (Prod.mk.inj (Option.some.inj hs)).1.symm
      · obtain ⟨i, -, hi⟩ := Option.map_eq_some_iff.mp hs
        obtain ⟨rfl, -⟩ := Prod.mk.inj hi
        rw [readSection]
        split
        · obtain ⟨m, adds, heq⟩ := showSection_eq L c (c.colored n) (T.params i) S
          rw [heq]
          exact ⟨rfl, rfl, rfl, .inl rfl⟩
        · exact ⟨rfl, rfl, rfl, .inl rfl⟩
  | setColorDegradeAndFailure =>
      simp only [hc] at hs
      obtain ⟨F, -, hs⟩ := Option.bind_eq_some_iff.mp hs
      cases hcolors : F.colors with
      | none =>
          simp only [hcolors] at hs
          exact hsame (Prod.mk.inj (Option.some.inj hs)).1.symm
      | some colors =>
          simp only [hcolors] at hs
          split at hs
          · obtain ⟨p, -, hs⟩ := Option.bind_eq_some_iff.mp hs
            obtain ⟨a, -, hs⟩ := Option.map_eq_some_iff.mp hs
            obtain ⟨rfl, -⟩ := Prod.mk.inj hs
            exact ⟨rfl, rfl, rfl, .inl rfl⟩
          · exact hsame (Prod.mk.inj (Option.some.inj hs)).1.symm
  | rdProfileLine =>
      simp only [hc] at hs
      obtain ⟨n, -, hs⟩ := Option.bind_eq_some_iff.mp hs
      obtain ⟨line, -, hline⟩ := Option.map_eq_some_iff.mp hs
      exact hsame (Prod.mk.inj hline).1.symm
  | readLanguagePack | getColorDegradeAndFailure | extendedConfigRdWr =>
      simp only [hc] at hs
      obtain ⟨n, -, hn⟩ := Option.map_eq_some_iff.mp hs
      exact hsame (Prod.mk.inj hn).1.symm
  | enSetParams =>
      simp only [hc] at hs
      obtain ⟨rfl, -⟩ := Prod.mk.inj (Option.some.inj hs)
      exact ⟨rfl, rfl, rfl, .inl rfl⟩
  | rdDeviceClass | extendedDeviceClass | extendedEnSetParams | unknown =>
      simp only [hc] at hs
      exact hsame (Prod.mk.inj (Option.some.inj hs)).1.symm

/-- **Only a language block changes the pack** and the announced number. -/
theorem langPack_unchanged (hcmd : c.command ≠ .writeLanguagePack)
    (hs : kursHandleRequests tps T S c = some (S', r)) :
    S'.lngpack = S.lngpack ∧ S'.expectedBlckCnt = S.expectedBlckCnt :=
  ⟨(langUnchanged_of_ne hcmd hs).pack, (langUnchanged_of_ne hcmd hs).cnt⟩

/-- The replies `OK` and `NA` are not the same. -/
theorem na_ne_ok {x y : List UInt8} :
    c.checked (x ++ ascii ";NA;") ≠ c.checked (y ++ ascii ";OK;") := by
  intro heq
  have hna : x ++ ascii ";NA;" = (x ++ ascii ";NA") ++ [SEMICOLON] := by
    rw [List.append_assoc]
    rfl
  have hok : y ++ ascii ";OK;" = (y ++ ascii ";OK") ++ [SEMICOLON] := by
    rw [List.append_assoc]
    rfl
  rw [hna, hok] at heq
  have htail := List.append_inj_right' (checked_semicolon_inj heq) rfl
  exact absurd htail (by decide)

/-- **The blocks answered with `OK` are those that are stored.** -/
theorem storedBlock_eq (hs : kursHandleRequests tps T S c = some (S', r)) :
    storedBlock (c, r) = arrivingBlock S c := by
  rw [storedBlock, arrivingBlock]
  split
  next hcmd =>
    rw [kursHandleRequests, hcmd] at hs
    cases hacc : acceptedBlock S c with
    | none =>
        obtain ⟨text, htext⟩ := writeLangPack_refused hacc
        obtain ⟨-, rfl⟩ := Prod.mk.inj (Option.some.inj (htext.symm.trans hs))
        refine Option.bind_eq_none_iff.mpr fun n _ => Option.bind_eq_none_iff.mpr fun k _ => ?_
        rw [dif_neg fun hok => na_ne_ok hok.2]
    | some b =>
        obtain ⟨i, data⟩ := b
        obtain ⟨-, rfl⟩ := lngpack_of_accepted hacc hs
        obtain ⟨n, k, hn, hi, hk, rfl, -⟩ := acceptedBlock_eq_some_iff.mp hacc
        have hlt : n.toNat < LANG_BLOCK_MAX_CNT := hi ▸ i.isLt
        obtain rfl : ⟨n.toNat, hlt⟩ = i := Fin.ext hi
        rw [hn, Option.bind_some, hk, Option.join_some, Option.bind_some,
          dif_pos ⟨hlt, rfl⟩]
  · rfl

/-- A request that stores no block leaves the pack alone. -/
theorem langPack_of_none (hs : kursHandleRequests tps T S c = some (S', r))
    (hnone : arrivingBlock S c = none) :
    S'.lngpack = S.lngpack ∧ S'.expectedBlckCnt = S.expectedBlckCnt := by
  by_cases hcmd : c.command = .writeLanguagePack
  · rw [arrivingBlock, if_pos hcmd] at hnone
    obtain ⟨text, htext⟩ := writeLangPack_refused hnone
    rw [kursHandleRequests, hcmd] at hs
    obtain ⟨rfl, -⟩ := Prod.mk.inj (Option.some.inj (htext.symm.trans hs))
    exact ⟨rfl, rfl⟩
  · exact langPack_unchanged hcmd hs

/-- A request that stores a block. -/
theorem writeBlock_of_some (hs : kursHandleRequests tps T S c = some (S', r))
    (hsome : arrivingBlock S c = some (i, data)) : writeBlock S i data = some S' := by
  rw [arrivingBlock] at hsome
  split at hsome
  next hcmd =>
    rw [kursHandleRequests, hcmd] at hs
    obtain ⟨S'', hS, heq⟩ :=
      Option.map_eq_some_iff.mp ((writeLangPack_accepted hsome).symm.trans hs)
    obtain ⟨rfl, -⟩ := Prod.mk.inj heq
    exact hS
  · simp at hsome

/-- `KURS_NewLngpackCallback` is called: a request sets `new_lng_file`. -/
def NewLngpack (S : KursState) (c : KursCall) : Prop :=
  c.command = .writeLanguagePack ∧ ∃ S' r,
    handleKursWriteLangPackCommand { S with newLngFile := false } c = some (S', r) ∧
      S'.newLngFile = true

/-- The callback is called for the block with the announced number. -/
theorem newLngpack_iff : NewLngpack S c ↔ ∃ i data, arrivingBlock S c = some (i, data) ∧
    i ≠ 0 ∧ UInt32.ofNat i.val = S.expectedBlckCnt := by
  constructor
  · rintro ⟨hcmd, S', r, hw, hnew⟩
    cases hacc : acceptedBlock { S with newLngFile := false } c with
    | none =>
        obtain ⟨text, htext⟩ := writeLangPack_refused hacc
        obtain ⟨rfl, -⟩ := Prod.mk.inj (Option.some.inj (htext.symm.trans hw))
        simp at hnew
    | some b =>
        obtain ⟨i, data⟩ := b
        refine ⟨i, data, by rw [arrivingBlock, if_pos hcmd]; exact hacc, ?_⟩
        obtain ⟨S'', hS, heq⟩ :=
          Option.map_eq_some_iff.mp ((writeLangPack_accepted hacc).symm.trans hw)
        obtain ⟨rfl, -⟩ := Prod.mk.inj heq
        by_cases hi : i = 0
        · rw [hi, writeBlock_first] at hS
          obtain ⟨cnt, -, rfl⟩ := Option.map_eq_some_iff.mp hS
          simp at hnew
        · rw [writeBlock_other hi] at hS
          obtain rfl := Option.some.inj hS
          exact ⟨hi, by simpa using hnew⟩
  · rintro ⟨i, data, harr, hi, hcnt⟩
    rw [arrivingBlock] at harr
    split at harr
    next hcmd =>
      have hacc : acceptedBlock { S with newLngFile := false } c = some (i, data) := harr
      have hw := writeLangPack_accepted hacc
      rw [writeBlock_other hi, Option.map_some] at hw
      exact ⟨hcmd, _, _, hw, by simpa using hcnt⟩
    · simp at harr

/-! ### Runs -/

/-- The state holds what a transfer has announced and stored. -/
def Tracks (t : Option Transfer) (S : KursState) : Prop :=
  match t with
  | none => S.expectedBlckCnt = 0
  | some t => S.expectedBlckCnt = t.announced ∧ ∀ i b, t.blocks i = some b → S.lngpack i = b

/-- One request. -/
theorem Tracks.next {t : Option Transfer} (ht : Tracks t S)
    (hs : kursHandleRequests tps T S c = some (S', r)) :
    Tracks (Transfer.next t (c, r)) S' := by
  rw [Transfer.next, storedBlock_eq hs]
  cases harr : arrivingBlock S c with
  | none =>
      obtain ⟨hpack, hcnt⟩ := langPack_of_none hs harr
      cases t with
      | none => exact hcnt.trans ht
      | some t => exact ⟨hcnt.trans ht.1, fun i b hb => hpack ▸ ht.2 i b hb⟩
  | some b =>
      obtain ⟨i, data⟩ := b
      have hw := writeBlock_of_some hs harr
      have hpack := writeBlock_lngpack hw
      by_cases hi : i = 0
      · -- block 0 starts a transfer with its own block alone
        subst hi
        rw [writeBlock_first] at hw
        obtain ⟨cnt, hcnt, rfl⟩ := Option.map_eq_some_iff.mp hw
        simp only [if_true, hcnt, Option.map_some]
        refine ⟨rfl, fun j b hb => ?_⟩
        by_cases hj : j = 0
        · subst hj
          rw [hpack, Function.update_self]
          simpa using hb
        · simp [hj] at hb
      · rw [writeBlock_other hi] at hw
        obtain rfl := Option.some.inj hw
        simp only [if_neg hi]
        cases t with
        | none => exact ht
        | some t =>
            refine ⟨ht.1, fun j b hb => ?_⟩
            by_cases hj : j = i
            · subst hj
              rw [hpack, Function.update_self]
              simpa using hb
            · rw [hpack, Function.update_of_ne hj]
              exact ht.2 j b (by simpa [hj] using hb)

/-- **The transfer of a history is in the state** that the history leads to. -/
theorem transfer_tracks {S₀ : KursState} (hr : (kursRequests tps T).Run S₀ h S)
    (h0 : S₀.expectedBlckCnt = 0) : Tracks (transfer h) S := by
  induction hr with
  | nil => exact h0
  | snoc _ hs ih =>
      rw [transfer_snoc]
      exact ih.next hs

/-- A block that holds nothing of a pack: cleared, or as `KURS_profile_init` has left it. -/
def Blank (b : LangBlock) : Prop :=
  b = Vector.replicate LANG_BLOCK_SIZE 0xFF ∨ b = Vector.replicate LANG_BLOCK_SIZE 0

/-- A block with another byte holds something. -/
theorem not_blank_of_get {b : LangBlock} {k : Fin LANG_BLOCK_SIZE} (hff : b.get k ≠ 0xFF)
    (h0 : b.get k ≠ 0) : ¬ Blank b := by
  have hfill : ∀ v : UInt8, (Vector.replicate LANG_BLOCK_SIZE v).get k = v :=
    fun v => Vector.getElem_replicate _
  rintro (rfl | rfl)
  · exact hff (hfill 0xFF)
  · exact h0 (hfill 0)

/-- The pack is complete: every block up to the announced number has been stored, and the
memory holds it. -/
def Complete (t : Option Transfer) (S : KursState) : Prop :=
  ∃ tr, t = some tr ∧ ∀ k : Fin LANG_BLOCK_MAX_CNT, k.val ≤ tr.announced.toNat →
    tr.blocks k = some (S.lngpack k)

/-- What a request behind a history should come to: a block 0 that is answered with `OK`
leaves nothing of an earlier pack, and the callback is called for a complete pack. -/
def TransferKept (h : List (KursCall × List UInt8)) (S : KursState) (c : KursCall)
    (S' : KursState) (r : List UInt8) : Prop :=
  (∀ data, storedBlock (c, r) = some (0, data) → ∀ j ≠ 0, Blank (S'.lngpack j)) ∧
    (NewLngpack S c → Complete (transfer (h ++ [(c, r)])) S')

/-- The condition on a request: block 0 arrives on a pack whose other blocks hold nothing,
and the announced block behind all blocks in front of it. -/
def TransferInOrder (h : List (KursCall × List UInt8)) (S : KursState) (c : KursCall) : Prop :=
  (∀ data, arrivingBlock S c = some (0, data) → ∀ j ≠ 0, Blank (S.lngpack j)) ∧
    ∀ i data t, arrivingBlock S c = some (i, data) → i ≠ 0 → transfer h = some t →
      i.val = t.announced.toNat → ∀ k < i, (t.blocks k).isSome = true

/-- A block other than the first one continues a transfer. -/
theorem next_of_arriving {t : Option Transfer} (harr : storedBlock (c, r) = some (i, data))
    (hi : i ≠ 0) : Transfer.next t (c, r) = t.map fun t =>
      { t with blocks := Function.update t.blocks i (some (blockOf data)) } := by
  simp only [Transfer.next, harr, if_neg hi]

/-- The callback comes for a complete pack exactly if no block is missing. -/
theorem complete_iff (ht : Tracks (transfer h) S)
    (hs : kursHandleRequests tps T S c = some (S', r)) :
    (NewLngpack S c → Complete (transfer (h ++ [(c, r)])) S') ↔
      ∀ i data t, arrivingBlock S c = some (i, data) → i ≠ 0 → transfer h = some t →
        i.val = t.announced.toNat → ∀ k < i, (t.blocks k).isSome = true := by
  have hkept := ht.next hs
  constructor
  · intro hcomplete i data t harr hi htr hcnt k hk
    rw [htr] at ht
    have hannounced : UInt32.ofNat i.val = S.expectedBlckCnt := by
      rw [ht.1, hcnt, UInt32.ofNat_toNat]
    obtain ⟨tr, htr', hall⟩ := hcomplete (newLngpack_iff.mpr ⟨i, data, harr, hi, hannounced⟩)
    rw [transfer_snoc, next_of_arriving ((storedBlock_eq hs).trans harr) hi, htr,
      Option.map_some, Option.some.injEq] at htr'
    subst htr'
    have hblock := hall k (hcnt ▸ le_of_lt hk)
    dsimp only at hblock
    rw [Function.update_of_ne (ne_of_lt hk)] at hblock
    rw [hblock]
    rfl
  · intro horder hnew
    obtain ⟨i, data, harr, hi, hcnt⟩ := newLngpack_iff.mp hnew
    have hlt : i.val < 2 ^ 32 := by
      have hmax : i.val < 150 := i.isLt
      omega
    have hstored := (storedBlock_eq hs).trans harr
    cases htr : transfer h with
    | none =>
        -- no transfer has announced a number, and block 0 is never the last one
        rw [htr] at ht
        have hzero : UInt32.ofNat i.val = 0 := hcnt.trans ht
        have hval := congrArg UInt32.toNat hzero
        rw [UInt32.toNat_ofNat_of_lt' hlt] at hval
        exact absurd (Fin.ext hval) hi
    | some t =>
        rw [htr] at ht hkept
        have hval : i.val = t.announced.toNat := by
          rw [← ht.1, ← hcnt, UInt32.toNat_ofNat_of_lt' hlt]
        rw [next_of_arriving hstored hi, Option.map_some] at hkept
        refine ⟨_, by rw [transfer_snoc, next_of_arriving hstored hi, htr, Option.map_some], ?_⟩
        intro k hk
        have hsome : ∃ b, Function.update t.blocks i (some (blockOf data)) k = some b := by
          have hle : k ≤ i := Fin.le_def.mpr (hval.symm ▸ hk)
          rcases hle.lt_or_eq with hlt | rfl
          · rw [Function.update_of_ne (ne_of_lt hlt)]
            exact Option.isSome_iff_exists.mp (horder i data t harr hi htr hval k hlt)
          · exact ⟨_, Function.update_self ..⟩
        obtain ⟨b, hb⟩ := hsome
        rw [hkept.2 k b hb]
        exact hb

/-- One request behind a run. -/
theorem transferKept_iff (ht : Tracks (transfer h) S)
    (hs : kursHandleRequests tps T S c = some (S', r)) :
    TransferKept h S c S' r ↔ TransferInOrder h S c := by
  refine and_congr ?_ (complete_iff ht hs)
  rw [storedBlock_eq hs]
  refine forall₂_congr fun data harr => forall₂_congr fun j hj => ?_
  rw [writeBlock_lngpack (writeBlock_of_some hs harr), Function.update_of_ne hj]

/-- **The transfer of a language pack**: in a run from power-on every request leaves
nothing of an earlier pack behind block 0, and calls back for a complete pack, exactly if
every request meets the condition. -/
theorem langTransfer_iff (tps : UInt32) (T : KursTables L) {S₀ S : KursState}
    {h : List (KursCall × List UInt8)} (h0 : S₀.expectedBlckCnt = 0)
    (hr : (kursRequests tps T).Run S₀ h S) :
    (∀ h₁ c r h₂ S₁ S₂, h = h₁ ++ (c, r) :: h₂ → (kursRequests tps T).Run S₀ h₁ S₁ →
        (kursRequests tps T).step S₁ c = some (S₂, r) → TransferKept h₁ S₁ c S₂ r) ↔
      ∀ h₁ c r h₂ S₁, h = h₁ ++ (c, r) :: h₂ → (kursRequests tps T).Run S₀ h₁ S₁ →
        TransferInOrder h₁ S₁ c := by
  constructor
  · intro hall h₁ c r h₂ S₁ hh hr₁
    have hsplit : (kursRequests tps T).Run S₀ (h₁ ++ ([(c, r)] ++ h₂)) S := by
      rw [hh] at hr
      exact hr
    obtain ⟨m, hm, hrest⟩ := hsplit.split
    obtain rfl := hm.det hr₁
    obtain ⟨S₂, hs, -⟩ := hrest.cons_inv
    exact (transferKept_iff (transfer_tracks hr₁ h0) hs).mp
      (hall h₁ c r h₂ m S₂ hh hr₁ hs)
  · intro hall h₁ c r h₂ S₁ S₂ hh hr₁ hs
    exact (transferKept_iff (transfer_tracks hr₁ h0) hs).mpr (hall h₁ c r h₂ S₁ hh hr₁)

/-! ### A transfer with a missing block -/

/-- `I`: enable setting. -/
def enableCall : KursCall := requestTo idleReadings ⟨0x80, ascii "IIPG", by decide, []⟩

/-- Block 0, which announces block 2 as the last one. -/
def firstBlock : KursCall := requestTo idleReadings
  ⟨0x80, ascii "z0;2" ++ List.replicate 254 0x20, by decide +kernel, []⟩

/-- Block 2. -/
def lastBlock : KursCall := requestTo idleReadings
  ⟨0x80, ascii "z2;" ++ List.replicate 255 0x41, by decide +kernel, []⟩

/-- The characters of the two blocks. -/
def firstData : List UInt8 := 0x32 :: (List.replicate 254 0x20 ++ [KURS_EOP, 0])
@[inherit_doc firstData]
def lastData : List UInt8 := fillData 0x41

/-- Both blocks are stored whenever setting is enabled. -/
theorem firstBlock_arriving (hen : S.setParamEnabled = true) :
    arrivingBlock S firstBlock = some (0, firstData) := by
  have hlen : strlen firstData = some LANG_BLOCK_SIZE := by
    have hnul : 0 ∉ 0x32 :: (List.replicate 254 0x20 ++ [KURS_EOP]) := by decide +kernel
    have hdata : firstData = (0x32 :: (List.replicate 254 0x20 ++ [KURS_EOP])) ++ 0 :: [] := by
      rw [firstData, List.cons_append, List.append_assoc]
      rfl
    rw [hdata, strlen_append hnul, List.length_cons, List.length_append, List.length_replicate]
    rfl
  rw [arrivingBlock_eq rfl]
  exact acceptedBlock_eq_some_iff.mpr ⟨0, 3, rfl, rfl, rfl, rfl, hen, hlen⟩

@[inherit_doc firstBlock_arriving]
theorem lastBlock_arriving (hen : S.setParamEnabled = true) :
    arrivingBlock S lastBlock = some (2, lastData) := by
  have hlen : strlen lastData = some LANG_BLOCK_SIZE := fillData_strlen (by decide)
  rw [arrivingBlock_eq rfl]
  exact acceptedBlock_eq_some_iff.mpr ⟨2, 3, rfl, rfl, rfl, rfl, hen, hlen⟩

/-- The machine takes a request with the handlers. -/
theorem kursRequests_step :
    (kursRequests tps T).step S c = kursHandleRequests tps T S c := rfl

/-- A block that arrives is stored. -/
theorem step_of_arriving (tps : UInt32) (T : KursTables L)
    (harr : arrivingBlock S c = some (i, data)) (hw : writeBlock S i data = some S') :
    kursHandleRequests tps T S c = some (S', okReply c i) := by
  rw [arrivingBlock] at harr
  split at harr
  next hcmd =>
    rw [kursHandleRequests, hcmd]
    exact (writeLangPack_accepted harr).trans (by rw [hw]; rfl)
  · simp at harr

/-- The state behind the first of these requests. -/
def enabledState : KursState := { kursProfileInit zeroState with setParamEnabled := true }

/-- The number that block 0 announces. -/
theorem firstData_number : strToU32Def firstData 0xFFFFFFFF = some 2 := rfl

/-- Block 0 in a state. -/
theorem writeBlock_firstData : writeBlock S 0 firstData = some { S with
    expectedBlckCnt := 2, lngpack := Function.update S.lngpack 0 (blockOf firstData) } := by
  rw [writeBlock_first, firstData_number]
  rfl

/-- The state behind the first two requests. -/
def startedState : KursState := { enabledState with
  expectedBlckCnt := 2
  lngpack := Function.update enabledState.lngpack 0 (blockOf firstData) }

/-- The first two requests. -/
theorem transfer_started : ∃ r₀, (kursRequests 0 settingTables).Run (kursProfileInit zeroState)
      [(enableCall, r₀), (firstBlock, okReply firstBlock 0)] startedState ∧
    transfer [(enableCall, r₀), (firstBlock, okReply firstBlock 0)] =
      some ⟨2, Function.update (fun _ => none) 0 (some (blockOf firstData))⟩ := by
  have hfirst := firstBlock_arriving (S := enabledState) rfl
  have hs := step_of_arriving 0 settingTables hfirst writeBlock_firstData
  have hnil : (kursRequests 0 settingTables).Run (kursProfileInit zeroState) [] _ := .nil
  have hrun := hnil.snoc
    (show (kursRequests 0 settingTables).step _ enableCall = some (enabledState, _) from rfl)
  refine ⟨_, hrun.snoc (kursRequests_step.trans hs), ?_⟩
  have hstored := (storedBlock_eq hs).trans hfirst
  change Transfer.next none (firstBlock, okReply firstBlock 0) = _
  simp only [Transfer.next, hstored, if_true, firstData_number]
  rfl

/-- **A pack with a missing block**: the callback is called for block 2 though block 1 was
not stored, and a new block 0 leaves block 2 in the pack. -/
theorem langTransfer_not_kept : ∃ h S₁ S₂ S₃ r₂ r₃,
    (kursRequests 0 settingTables).Run (kursProfileInit zeroState) h S₁ ∧
      ((kursRequests 0 settingTables).step S₁ lastBlock = some (S₂, r₂) ∧
        NewLngpack S₁ lastBlock ∧ ¬ Complete (transfer (h ++ [(lastBlock, r₂)])) S₂) ∧
      ((kursRequests 0 settingTables).step S₂ firstBlock = some (S₃, r₃) ∧
        storedBlock (firstBlock, r₃) = some (0, firstData) ∧ ¬ Blank (S₃.lngpack 2)) := by
  obtain ⟨r₀, hrun, htr⟩ := transfer_started
  have hlast := lastBlock_arriving (S := startedState) rfl
  have hs₂ := step_of_arriving 0 settingTables hlast
    (writeBlock_other (by decide))
  have hfirst := firstBlock_arriving (S := { startedState with
    newLngFile := startedState.newLngFile || UInt32.ofNat 2 = startedState.expectedBlckCnt
    lngpack := Function.update startedState.lngpack 2 (blockOf lastData) }) rfl
  have hs₃ := step_of_arriving 0 settingTables hfirst writeBlock_firstData
  refine ⟨_, startedState, _, _, _, _, hrun,
    ⟨kursRequests_step.trans hs₂, ?_, ?_⟩, kursRequests_step.trans hs₃,
    (storedBlock_eq hs₃).trans hfirst, ?_⟩
  · exact newLngpack_iff.mpr ⟨2, lastData, hlast, by decide, rfl⟩
  · rintro ⟨t, ht, hall⟩
    rw [transfer_snoc, next_of_arriving ((storedBlock_eq hs₂).trans hlast) (by decide), htr,
      Option.map_some, Option.some.injEq] at ht
    subst ht
    have hmissing := hall 1 (by decide)
    simp at hmissing
  · exact not_blank_of_get (k := 0) (b := blockOf lastData)
      (by rw [lastData, fillData_get]; decide) (by rw [lastData, fillData_get]; decide)

/-- A transfer that has only started. -/
theorem langTransfer_iff_started : ∃ r₀,
    ((∀ h₁ c r h₂ S₁ S₂, [(enableCall, r₀), (firstBlock, okReply firstBlock 0)] =
          h₁ ++ (c, r) :: h₂ →
        (kursRequests 0 settingTables).Run (kursProfileInit zeroState) h₁ S₁ →
        (kursRequests 0 settingTables).step S₁ c = some (S₂, r) → TransferKept h₁ S₁ c S₂ r) ↔
      ∀ h₁ c r h₂ S₁, [(enableCall, r₀), (firstBlock, okReply firstBlock 0)] =
          h₁ ++ (c, r) :: h₂ →
        (kursRequests 0 settingTables).Run (kursProfileInit zeroState) h₁ S₁ →
        TransferInOrder h₁ S₁ c) := by
  obtain ⟨r₀, hrun, -⟩ := transfer_started
  exact ⟨r₀, langTransfer_iff 0 settingTables rfl hrun⟩

end Muxponder
