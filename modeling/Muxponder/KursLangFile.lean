import Muxponder.KursFlashImage
import Muxponder.KursLangTransfer
import Muxponder.Lib.Uninterrupted

/-!
# The Language File in the Flash

`task_2000` writes the language pack to the flash when `new_lng_file` is set, and clears the flag
when it has done so. The requests are served from the interrupt of an alarm: they come between any
two steps of the task, and the task sees all of a request or nothing.

`cfi_flash_write` ends in `alt_flash_cfi_write`: the file, which lies in one block of the device, is
compared with `profile.lngpack`, and where they differ the block is erased and programmed byte by
byte, each byte read from the pack when its turn comes. The flash does what it is told to.

## Main results

* `flash_lngFile`: no request touches the copy in the flash.
* `langCoherent_of_inTime`: when the copy in the flash is the pack.
* `langCoherent_not`: an upload that is completed in front of the clearing of the flag.
-/

namespace Muxponder

open CString NorFlash Interrupts

/-! ### The file -/

/-- `LNG_FILE_OFFSET` -/
def LNG_FILE_OFFSET : ℕ := 0x640000

/-- A byte of `profile.lngpack`. -/
def lngpackByte (pack : Fin LANG_BLOCK_MAX_CNT → LangBlock) (k : ℕ) : UInt8 :=
  if h : k < FLASH_LANG_SIZE then
    (pack ⟨k / LANG_BLOCK_SIZE, Nat.div_lt_of_lt_mul h⟩).get
      ⟨k % LANG_BLOCK_SIZE, Nat.mod_lt _ (by decide)⟩
  else 0

/-- A byte of the copy in the flash. -/
def lngFileByte (S : KursState) (k : ℕ) : UInt8 := S.update.flash (LNG_FILE_OFFSET + k)

/-- The copy in the flash is the pack. -/
def LangSaved (S : KursState) : Prop :=
  ∀ k < FLASH_LANG_SIZE, lngFileByte S k = lngpackByte S.lngpack k

/-! ### The steps of the task -/

/-- What the task does with the pack, the flag and the flash. -/
inductive LangOp
  | readNewLngFile
  | compareByte (k : ℕ)
  | eraseBlock
  | programByte (k : ℕ)
  | clearNewLngFile
  deriving DecidableEq, Repr

/-- A program of the task, whose operations have a truth value for an answer. -/
abbrev LangProg := Prog Unit LangOp Bool

/-- `memcmp` on bytes of the pack and the file, from one on: whether they differ. -/
def memcmp : ℕ → ℕ → LangProg Bool
  | _, 0 => pure false
  | k, n + 1 => do
      if ← Prog.op () (.compareByte k) then pure true else memcmp (k + 1) n

/-- `alt_program_amd` on bytes of the file, from one on. -/
def altProgramAmd : ℕ → ℕ → LangProg Unit
  | _, 0 => pure ()
  | k, n + 1 => do
      let _ ← Prog.op () (.programByte k)
      altProgramAmd (k + 1) n

/-- `cfi_flash_write` on the file. -/
def cfiFlashWrite : LangProg Unit := do
  if ← memcmp 0 FLASH_LANG_SIZE then
    let _ ← Prog.op () .eraseBlock
    altProgramAmd 0 FLASH_LANG_SIZE
  else pure ()

/-- `KURS_WriteLngFileToFlash`, as `task_2000` calls it. -/
def kursWriteLngFileToFlash : LangProg Unit := do
  if ← Prog.op () .readNewLngFile then
    cfiFlashWrite
    let _ ← Prog.op () .clearNewLngFile
    pure ()
  else pure ()

/-! ### The card -/

/-- What the requests and the task share, and whether the last request `0x7A` has completed an
upload. -/
structure LangCard where
  kurs : KursState
  completed : Bool

/-- An operation on the flash. -/
def LangCard.onFlash (s : LangCard) (o : Op) : LangCard :=
  { s with kurs := { s.kurs with update := { s.kurs.update with
      flash := o.apply CFI_SECTOR_SIZE s.kurs.update.flash } } }

/-- An operation of the task with its answer. -/
def langAct (s : LangCard) : LangOp → Bool → Option LangCard
  | .readNewLngFile, w => if w = s.kurs.newLngFile then some s else none
  | .compareByte k, w =>
      if w = decide (lngFileByte s.kurs k ≠ lngpackByte s.kurs.lngpack k) then some s else none
  | .eraseBlock, _ => some (s.onFlash (.eraseSector LNG_FILE_OFFSET))
  | .programByte k, _ =>
      some (s.onFlash (.program (LNG_FILE_OFFSET + k) [lngpackByte s.kurs.lngpack k]))
  | .clearNewLngFile, _ => some { s with kurs := { s.kurs with newLngFile := false } }

/-- A request calls `KURS_NewLngpackCallback`. -/
def callsNewLngpack (S : KursState) (c : KursCall) : Bool :=
  (arrivingBlock S c).any fun b => b.1 ≠ 0 ∧ UInt32.ofNat b.1.val = S.expectedBlckCnt

/-- It is the callback of the handler. -/
theorem callsNewLngpack_iff {S : KursState} {c : KursCall} :
    callsNewLngpack S c = true ↔ NewLngpack S c := by
  rw [newLngpack_iff, callsNewLngpack, Option.any_eq_true]
  constructor
  · rintro ⟨⟨i, data⟩, harr, hcnt⟩
    exact ⟨i, data, harr, of_decide_eq_true hcnt⟩
  · rintro ⟨i, data, harr, hcnt⟩
    exact ⟨⟨i, data⟩, harr, decide_eq_true hcnt⟩

/-- A request. -/
def langInterrupt {L : Layout} (tps : UInt32) (T : KursTables L) (s : LangCard) (c : KursCall) :
    Option (LangCard × List UInt8) :=
  (kursHandleRequests tps T s.kurs c).map fun x =>
    ({ kurs := x.1
       completed := if c.command = .writeLanguagePack then callsNewLngpack s.kurs c
         else s.completed }, x.2)

/-- The card with the task and the requests. -/
def langSystem {L : Layout} (tps : UInt32) (T : KursTables L) :
    System LangCard KursCall (List UInt8) LangOp Bool where
  act := langAct
  interrupt := langInterrupt tps T

/-- A run of the card, in which `task_2000` is started any number of times. -/
abbrev LangRun {L : Layout} (tps : UInt32) (T : KursTables L) :=
  ((langSystem tps T).machine fun _ : Unit => kursWriteLngFileToFlash).Run

/-! ### The law -/

/-- While the flag is clear and the last request `0x7A` has completed an upload, the copy in the
flash is the pack. -/
def LangCoherent (s : LangCard) : Prop :=
  s.kurs.newLngFile = false → s.completed = true → LangSaved s.kurs

/-- The pack behind a request. -/
def packBehind (S : KursState) (c : KursCall) : Fin LANG_BLOCK_MAX_CNT → LangBlock :=
  match arrivingBlock S c with
  | some (i, data) => Function.update S.lngpack i (blockOf data)
  | none => S.lngpack

/-- What has been done in front of an operation is right for a pack: the bytes that have been
programmed are its bytes, and so are those that have been compared, unless it differs further
on. -/
def DoneFor (S : KursState) (pack : Fin LANG_BLOCK_MAX_CNT → LangBlock) : LangOp → Prop
  | .compareByte k =>
      (∀ j, k ≤ j → j < FLASH_LANG_SIZE → lngFileByte S j = lngpackByte pack j) →
        ∀ j < k, lngFileByte S j = lngpackByte pack j
  | .programByte k => ∀ j < k, lngFileByte S j = lngpackByte pack j
  | .clearNewLngFile => ∀ j < FLASH_LANG_SIZE, lngFileByte S j = lngpackByte pack j
  | .readNewLngFile => True
  | .eraseBlock => True

/-- The condition: what a write under way has done is right for the pack that a request
completes. -/
def LangInTime : Condition LangCard Unit KursCall (List UInt8) Unit LangOp Bool :=
  fun _ s next e => ∀ c, e = .interrupt c → callsNewLngpack s.kurs c = true →
    ∀ place o, next = some (place, o) → DoneFor s.kurs (packBehind s.kurs c) o

section steps

variable {L : Layout} {T : KursTables L} {tps : UInt32} {S S' : KursState} {s s' : LangCard}
  {c : KursCall} {r data : List UInt8} {i : Fin LANG_BLOCK_MAX_CNT} {j k n : ℕ} {w : Bool}

/-! ### The flash -/

@[simp] theorem onFlash_completed {o : Op} : (s.onFlash o).completed = s.completed := rfl

@[simp] theorem onFlash_newLngFile {o : Op} :
    (s.onFlash o).kurs.newLngFile = s.kurs.newLngFile := rfl

@[simp] theorem onFlash_lngpack {o : Op} : (s.onFlash o).kurs.lngpack = s.kurs.lngpack := rfl

/-- An erased file has all bits set: it lies in one block. -/
theorem lngFileByte_erase (hj : j < FLASH_LANG_SIZE) :
    lngFileByte (s.onFlash (.eraseSector LNG_FILE_OFFSET)).kurs j = 0xFF := by
  refine apply_eraseSector ?_
  have hsize : FLASH_LANG_SIZE = 38400 := rfl
  have hsector : CFI_SECTOR_SIZE = 0x20000 := rfl
  have hoffset : LNG_FILE_OFFSET = 0x640000 := rfl
  rw [hsector, hoffset]
  omega

/-- A byte that is programmed over an erased one. -/
theorem lngFileByte_program_self {b : UInt8} (hff : lngFileByte s.kurs k = 0xFF) :
    lngFileByte (s.onFlash (.program (LNG_FILE_OFFSET + k) [b])).kurs k = b := by
  have hprogram : (Op.program (LNG_FILE_OFFSET + k) [b]).apply CFI_SECTOR_SIZE
      s.kurs.update.flash (LNG_FILE_OFFSET + k + 0) =
        s.kurs.update.flash (LNG_FILE_OFFSET + k + 0) &&& b := apply_program Nat.one_pos
  rw [Nat.add_zero] at hprogram
  refine hprogram.trans ?_
  have hold : s.kurs.update.flash (LNG_FILE_OFFSET + k) = 0xFF := hff
  rw [hold]
  exact erased_and b

/-- The other bytes stay. -/
theorem lngFileByte_program_of_ne {b : UInt8} (hjk : j ≠ k) :
    lngFileByte (s.onFlash (.program (LNG_FILE_OFFSET + k) [b])).kurs j = lngFileByte s.kurs j := by
  have hout : ¬ (Op.program (LNG_FILE_OFFSET + k) [b]).touches CFI_SECTOR_SIZE
      (LNG_FILE_OFFSET + j) := by
    rintro ⟨hlo, hhi⟩
    rw [List.length_singleton] at hhi
    omega
  exact apply_untouched hout

/-- **No request touches the copy in the flash**: what a new program image is written to ends in
front of it. -/
theorem flash_lngFile (hs : kursHandleRequests tps T S c = some (S', r)) (k : ℕ) :
    lngFileByte S' k = lngFileByte S k := by
  have hout : ¬ InCopyRegion (LNG_FILE_OFFSET + k) := by
    rintro ⟨-, hlt⟩
    have hend : FLASH_COPY_END = 0x640000 := rfl
    have hoffset : LNG_FILE_OFFSET = 0x640000 := rfl
    omega
  by_cases hcmd : c.command = .writeLanguagePack
  · have hsame : S'.update = S.update := by
      cases harr : arrivingBlock S c with
      | none =>
          rw [arrivingBlock_eq hcmd] at harr
          obtain ⟨text, htext⟩ := writeLangPack_refused harr
          rw [kursHandleRequests, hcmd] at hs
          obtain ⟨rfl, -⟩ := Prod.mk.inj (Option.some.inj (htext.symm.trans hs))
          rfl
      | some b =>
          have hw := writeBlock_of_some hs harr
          by_cases hi : b.1 = 0
          · rw [hi, writeBlock_first] at hw
            obtain ⟨cnt, -, rfl⟩ := Option.map_eq_some_iff.mp hw
            rfl
          · rw [writeBlock_other hi] at hw
            obtain rfl := Option.some.inj hw
            rfl
    rw [lngFileByte, hsame, lngFileByte]
  · rcases (langUnchanged_of_ne hcmd hs).update with hsame | ⟨o, hupdate⟩
    · rw [lngFileByte, hsame, lngFileByte]
    · exact flash_outside hupdate hout

/-! ### One request -/

/-- What a request does: it brings no language block, or one that does not complete an upload,
or one that does. -/
inductive LangStep (s : LangCard) (c : KursCall) (s' : LangCard) : Prop
  | other (hpack : s'.kurs.lngpack = s.kurs.lngpack) (hcompleted : s'.completed = s.completed)
      (hflag : s'.kurs.newLngFile = s.kurs.newLngFile)
  | unfinished (hcompleted : s'.completed = false)
      (hflag : s'.kurs.newLngFile = s.kurs.newLngFile)
  | finished (hcalls : callsNewLngpack s.kurs c = true)
      (hpack : s'.kurs.lngpack = packBehind s.kurs c) (hflag : s'.kurs.newLngFile = true)

/-- A block that does not complete an upload leaves the flag alone. -/
theorem newLngFile_of_not_calls (hcmd : c.command = .writeLanguagePack)
    (hs : kursHandleRequests tps T S c = some (S', r)) (hcalls : callsNewLngpack S c = false) :
    S'.newLngFile = S.newLngFile := by
  cases harr : arrivingBlock S c with
  | none =>
      rw [arrivingBlock_eq hcmd] at harr
      obtain ⟨text, htext⟩ := writeLangPack_refused harr
      rw [kursHandleRequests, hcmd] at hs
      obtain ⟨rfl, -⟩ := Prod.mk.inj (Option.some.inj (htext.symm.trans hs))
      rfl
  | some b =>
      have hw := writeBlock_of_some hs harr
      by_cases hi : b.1 = 0
      · rw [hi, writeBlock_first] at hw
        obtain ⟨cnt, -, rfl⟩ := Option.map_eq_some_iff.mp hw
        rfl
      · rw [writeBlock_other hi] at hw
        obtain rfl := Option.some.inj hw
        have hne : ¬ UInt32.ofNat b.1.val = S.expectedBlckCnt := by
          intro hcnt
          rw [callsNewLngpack, harr, Option.any_some, decide_eq_false_iff_not] at hcalls
          exact hcalls ⟨hi, hcnt⟩
        simp [hne]

/-- **Inversion** of a request. -/
theorem langStep_of_interrupt (hs : langInterrupt tps T s c = some (s', r)) :
    LangStep s c s' ∧ ∀ k, lngFileByte s'.kurs k = lngFileByte s.kurs k := by
  obtain ⟨⟨S', r'⟩, hreq, heq⟩ := Option.map_eq_some_iff.mp hs
  obtain ⟨rfl, rfl⟩ := Prod.mk.inj heq
  refine ⟨?_, flash_lngFile hreq⟩
  by_cases hcmd : c.command = .writeLanguagePack
  · cases hcalls : callsNewLngpack s.kurs c with
    | false =>
        refine .unfinished ?_ (newLngFile_of_not_calls hcmd hreq hcalls)
        simp only [if_pos hcmd]
    | true =>
        obtain ⟨i, data, harr, hi, hcnt⟩ := newLngpack_iff.mp (callsNewLngpack_iff.mp hcalls)
        have hw := writeBlock_of_some hreq harr
        rw [writeBlock_other hi] at hw
        obtain rfl := Option.some.inj hw
        refine .finished hcalls ?_ ?_
        · simp only [packBehind, harr]
        · simp [hcnt]
  · have hsame := langUnchanged_of_ne hcmd hreq
    exact .other hsame.pack (if_neg hcmd) hsame.flag

/-! ### The task -/

/-- The answer to a read of the flag. -/
theorem langAct_readNewLngFile (hs : langAct s .readNewLngFile w = some s') :
    w = s.kurs.newLngFile ∧ s' = s := by
  obtain ⟨hw, hs⟩ := Option.ite_none_right_eq_some.mp hs
  exact ⟨hw, (Option.some.inj hs).symm⟩

/-- The answer to a comparison. -/
theorem langAct_compareByte (hs : langAct s (.compareByte k) w = some s') :
    (w = true ↔ lngFileByte s.kurs k ≠ lngpackByte s.kurs.lngpack k) ∧ s' = s := by
  obtain ⟨hw, hs⟩ := Option.ite_none_right_eq_some.mp hs
  exact ⟨by rw [hw, decide_eq_true_iff], (Option.some.inj hs).symm⟩

/-- In front of an operation of a write: the flag is set, what has been done is right for the
pack if the last request has completed it, and the bytes that are not yet programmed are
erased. -/
structure Writing (o : LangOp) (s : LangCard) : Prop where
  flag : s.kurs.newLngFile = true
  done : s.completed = true → DoneFor s.kurs s.kurs.lngpack o
  erased : ∀ k, o = .programByte k → ∀ j, k ≤ j → j < FLASH_LANG_SIZE →
    lngFileByte s.kurs j = 0xFF

/-- A write under way is coherent: its flag is set. -/
theorem Writing.coherent {o : LangOp} (hs : Writing o s) : LangCoherent s := by
  intro hflag
  rw [hs.flag] at hflag
  cases hflag

/-- What has been done in the flash. -/
theorem DoneFor.congr {o : LangOp} {pack : Fin LANG_BLOCK_MAX_CNT → LangBlock}
    (hbytes : ∀ k, lngFileByte S' k = lngFileByte S k) (h : DoneFor S pack o) :
    DoneFor S' pack o := by
  cases o with
  | compareByte k => simpa only [DoneFor, hbytes] using h
  | programByte k => simpa only [DoneFor, hbytes] using h
  | clearNewLngFile => simpa only [DoneFor, hbytes] using h
  | readNewLngFile => trivial
  | eraseBlock => trivial

/-- A request in time keeps a write right. -/
theorem Writing.interrupt {o : LangOp} (hw : Writing o s)
    (hs : langInterrupt tps T s c = some (s', r))
    (hc : callsNewLngpack s.kurs c = true → DoneFor s.kurs (packBehind s.kurs c) o) :
    Writing o s' := by
  obtain ⟨hstep, hbytes⟩ := langStep_of_interrupt hs
  have herased : ∀ k, o = .programByte k → ∀ j, k ≤ j → j < FLASH_LANG_SIZE →
      lngFileByte s'.kurs j = 0xFF := by
    intro k ho j hkj hj
    rw [hbytes]
    exact hw.erased k ho j hkj hj
  cases hstep with
  | other hpack hcompleted hflag =>
      refine ⟨hflag.trans hw.flag, fun hcomp => ?_, herased⟩
      rw [hpack]
      exact (hw.done (hcompleted ▸ hcomp)).congr hbytes
  | unfinished hcompleted hflag =>
      refine ⟨hflag.trans hw.flag, fun hcomp => ?_, herased⟩
      rw [hcompleted] at hcomp
      cases hcomp
  | finished hcalls hpack hflag =>
      refine ⟨hflag, fun _ => ?_, herased⟩
      rw [hpack]
      exact (hc hcalls).congr hbytes

/-- Outside of a write a request keeps the law: it sets the flag if it completes an upload. -/
theorem LangCoherent.interrupt (hcoh : LangCoherent s)
    (hs : langInterrupt tps T s c = some (s', r)) : LangCoherent s' := by
  obtain ⟨hstep, hbytes⟩ := langStep_of_interrupt hs
  intro hflag' hcomp
  cases hstep with
  | other hpack hcompleted hflag =>
      intro k hk
      rw [hbytes, hpack]
      exact hcoh (hflag ▸ hflag') (hcompleted ▸ hcomp) k hk
  | unfinished hcompleted hflag =>
      rw [hcompleted] at hcomp
      cases hcomp
  | finished hcalls hpack hflag =>
      rw [hflag] at hflag'
      cases hflag'

/-- The assertions of the task, about the state alone. -/
abbrev LangAssertion := Assertion LangCard Unit KursCall (List UInt8) Unit LangOp Bool

/-- The assertion of a write, in front of an operation. -/
def writingAt (o : LangOp) : LangAssertion := fun _ s => Writing o s

/-- What holds in every state: the law, and in front of an operation of a write the assertion. -/
def langAlways (next : Option (Unit × LangOp)) : LangAssertion := fun _ s =>
  LangCoherent s ∧ ∀ o, next = some ((), o) → o ≠ .readNewLngFile → Writing o s

/-- The assertion in front of an operation of a write is stable. -/
theorem writingAt_stable {o : LangOp} :
    Stable (langSystem tps T) LangInTime (some ((), o)) (writingAt o) := by
  intro h s c s' r hw hc hs
  exact hw.interrupt hs fun hcalls => hc c rfl hcalls () o rfl

/-- An operation of a write. -/
theorem writingAt_op {o : LangOp} {Q : Bool → LangAssertion}
    (hact : ∀ h s w s', Writing o s → langAct s o w = some s' →
      Q w (h ++ [(.task w, .did () o)]) s') :
    Triple (langSystem tps T) LangInTime langAlways (writingAt o) (Prog.op () o) Q :=
  Triple.op writingAt_stable
    (fun _ _ hw => ⟨hw.coherent, fun _ ho _ => (Prod.mk.inj (Option.some.inj ho)).2 ▸ hw⟩)
    fun h s w s' hw _ hs => hact h s w s' hw hs

/-- The comparison, from a byte on. If it finds no difference, all of the file is right for a pack
that has been completed. -/
theorem memcmp_triple (hn : k + n = FLASH_LANG_SIZE) :
    Triple (langSystem tps T) LangInTime langAlways (writingAt (.compareByte k)) (memcmp k n)
      fun w => writingAt (if w then .eraseBlock else .clearNewLngFile) := by
  induction n generalizing k with
  | zero =>
      refine Triple.pure fun h s hw => ⟨hw.flag, fun hcomp j hj => ?_, fun k ho => by cases ho⟩
      exact hw.done hcomp (fun j hkj hj => by omega) j (by omega)
  | succ n ih =>
      refine Triple.bind (Q := fun w => writingAt (if w then .eraseBlock else .compareByte (k + 1)))
        ?_ fun w => Triple.ite (fun hw => ?_) (fun hw => ?_)
      · refine writingAt_op fun h s w s' hw hs => ?_
        obtain ⟨hdiff, rfl⟩ := langAct_compareByte hs
        cases w with
        | true => exact ⟨hw.flag, fun _ => trivial, fun k ho => by cases ho⟩
        | false =>
          have hsame : lngFileByte s'.kurs k = lngpackByte s'.kurs.lngpack k := by
            simpa using hdiff
          refine ⟨hw.flag, fun hcomp hrest j hj => ?_, fun k ho => by cases ho⟩
          have hfrom : ∀ j, k ≤ j → j < FLASH_LANG_SIZE →
              lngFileByte s'.kurs j = lngpackByte s'.kurs.lngpack j := by
            intro j hkj hj
            rcases Nat.eq_or_lt_of_le hkj with rfl | hlt
            · exact hsame
            · exact hrest j hlt hj
          rcases Nat.lt_succ_iff_lt_or_eq.mp hj with hlt | rfl
          · exact hw.done hcomp hfrom j hlt
          · exact hsame
      · subst hw
        exact Triple.pure fun h s hw => hw
      · obtain rfl : w = false := by simpa using hw
        exact ih (by omega)

/-- The programming, from a byte on. -/
theorem altProgramAmd_triple (hn : k + n = FLASH_LANG_SIZE) :
    Triple (langSystem tps T) LangInTime langAlways (writingAt (.programByte k))
      (altProgramAmd k n) fun _ => writingAt .clearNewLngFile := by
  induction n generalizing k with
  | zero =>
      refine Triple.pure fun h s hw => ⟨hw.flag, fun hcomp j hj => ?_, fun k ho => by cases ho⟩
      exact hw.done hcomp j (by omega)
  | succ n ih =>
      refine Triple.bind (writingAt_op fun h s w s' hw hs => ?_) fun w => ih (by omega)
      obtain rfl := Option.some.inj hs
      refine ⟨hw.flag, fun hcomp j hj => ?_, fun k' ho j hkj hj => ?_⟩
      · rcases Nat.lt_succ_iff_lt_or_eq.mp hj with hlt | rfl
        · rw [lngFileByte_program_of_ne hlt.ne]
          exact hw.done hcomp j hlt
        · exact lngFileByte_program_self (hw.erased j rfl j le_rfl (by omega))
      · obtain rfl : k + 1 = k' := LangOp.programByte.inj ho
        rw [lngFileByte_program_of_ne (by omega)]
        exact hw.erased k rfl j (by omega) hj

/-- The law as an assertion. -/
def coherent : LangAssertion := fun _ s => LangCoherent s

/-- `cfi_flash_write` leaves a file that is right for a completed pack. -/
theorem cfiFlashWrite_triple :
    Triple (langSystem tps T) LangInTime langAlways (writingAt (.compareByte 0)) cfiFlashWrite
      fun _ => writingAt .clearNewLngFile := by
  refine Triple.bind (memcmp_triple (Nat.zero_add _)) fun w =>
    Triple.ite (fun hw => ?_) (fun hw => ?_)
  · subst hw
    refine Triple.bind (writingAt_op fun h s w s' hw hs => ?_) fun w =>
      altProgramAmd_triple (Nat.zero_add _)
    obtain rfl := Option.some.inj hs
    exact ⟨hw.flag, fun _ j hj => by omega, fun k ho j _ hj => lngFileByte_erase hj⟩
  · obtain rfl : w = false := by simpa using hw
    exact Triple.pure fun h s hw => hw

/-- **The write of the language file** keeps the law. -/
theorem kursWriteLngFileToFlash_triple :
    Triple (langSystem tps T) LangInTime langAlways coherent kursWriteLngFileToFlash
      fun _ => coherent := by
  have hread : Triple (langSystem tps T) LangInTime langAlways coherent
      (Prog.op () LangOp.readNewLngFile)
      fun w => if w then writingAt (.compareByte 0) else coherent := by
    refine Triple.op ?_ (fun _ _ hcoh => ⟨hcoh, fun o ho hne => ?_⟩) fun h s w s' hcoh _ hs => ?_
    · intro h s c s' r hcoh _ hs
      exact LangCoherent.interrupt hcoh hs
    · exact absurd (Prod.mk.inj (Option.some.inj ho)).2.symm hne
    · obtain ⟨hflag, rfl⟩ := langAct_readNewLngFile hs
      cases w with
      | false => exact hcoh
      | true => exact ⟨hflag.symm, fun _ _ j hj => by omega, fun k ho => by cases ho⟩
  refine Triple.bind hread fun w => Triple.ite (fun hw => ?_) (fun hw => ?_)
  · subst hw
    refine Triple.bind cfiFlashWrite_triple fun _ =>
      Triple.bind (Q := fun _ => coherent) (writingAt_op fun h s w s' hw hs => ?_) fun _ =>
        Triple.pure fun h s hcoh => hcoh
    obtain rfl := Option.some.inj hs
    exact fun _ hcomp => hw.done hcomp
  · obtain rfl : w = false := by simpa using hw
    exact Triple.pure fun h s hcoh => hcoh

/-! ### Runs -/

/-- What holds in every state of a run whose requests are in time. -/
theorem langAlways_of_inTime (tps : UInt32) (T : KursTables L) {s₀ : LangCard}
    {z : LangCard × LangProg Unit}
    {h : History Unit KursCall (List UInt8) Unit LangOp Bool} (h0 : s₀.completed = false)
    (hr : LangRun tps T (s₀, .done ()) h z)
    (hc : (langSystem tps T).Meets (fun _ => kursWriteLngFileToFlash) s₀ LangInTime h) :
    langAlways z.2.head h z.1 := by
  refine Triple.sound (R := fun _ => coherent) (I := coherent)
    (fun _ => kursWriteLngFileToFlash_triple) (fun _ _ _ hcoh _ => hcoh) ?_ ?_ ?_ hr hc
  · intro h s c s' r hcoh _ hs
    exact LangCoherent.interrupt hcoh hs
  · intro h s hcoh
    exact ⟨hcoh, fun o ho => by cases ho⟩
  · intro _ hcomp
    rw [h0] at hcomp
    cases hcomp

/-- **The copy in the flash is the pack** whenever the flag is clear and the last request `0x7A`
has completed an upload, in every run in which no request completes an upload for which a write
under way comes too late. -/
theorem langCoherent_of_inTime (tps : UInt32) (T : KursTables L) {s₀ : LangCard}
    {z : LangCard × LangProg Unit}
    {h : History Unit KursCall (List UInt8) Unit LangOp Bool} (h0 : s₀.completed = false)
    (hr : LangRun tps T (s₀, .done ()) h z)
    (hc : (langSystem tps T).Meets (fun _ => kursWriteLngFileToFlash) s₀ LangInTime h) :
    LangCoherent z.1 :=
  (langAlways_of_inTime tps T h0 hr hc).1

/-! ### An upload that comes too late -/

/-- Every operation of the task can be done. -/
theorem langAct_exists (s : LangCard) (o : LangOp) : ∃ w s', langAct s o w = some s' := by
  cases o with
  | readNewLngFile => exact ⟨_, _, if_pos rfl⟩
  | compareByte k => exact ⟨_, _, if_pos rfl⟩
  | eraseBlock => exact ⟨false, _, rfl⟩
  | programByte k => exact ⟨false, _, rfl⟩
  | clearNewLngFile => exact ⟨false, _, rfl⟩

/-- What the task leaves alone. -/
def LangCard.frame (s : LangCard) :
    (Fin LANG_BLOCK_MAX_CNT → LangBlock) × UInt32 × Bool × Bool :=
  (s.kurs.lngpack, s.kurs.expectedBlckCnt, s.kurs.setParamEnabled, s.completed)

/-- The task changes the flag and the flash. -/
theorem langAct_frame {o : LangOp} (hs : langAct s o w = some s') : s'.frame = s.frame := by
  cases o with
  | readNewLngFile => rw [(langAct_readNewLngFile hs).2]
  | compareByte k => rw [(langAct_compareByte hs).2]
  | eraseBlock =>
      obtain rfl := Option.some.inj hs
      rfl
  | programByte k =>
      obtain rfl := Option.some.inj hs
      rfl
  | clearNewLngFile =>
      obtain rfl := Option.some.inj hs
      rfl

/-- A block that arrives is stored. -/
theorem langInterrupt_of_arriving (tps : UInt32) (T : KursTables L)
    (harr : arrivingBlock s.kurs c = some (i, data)) (hw : writeBlock s.kurs i data = some S') :
    langInterrupt tps T s c = some (⟨S', callsNewLngpack s.kurs c⟩, okReply c i) := by
  have hcmd : c.command = .writeLanguagePack := by
    by_contra hne
    rw [arrivingBlock, if_neg hne] at harr
    cases harr
  rw [langInterrupt, step_of_arriving tps T harr hw, Option.map_some, if_pos hcmd]

/-- Block 0, which announces block 1 as the last one. -/
def announceCall : KursCall := requestTo idleReadings
  ⟨0x80, ascii "z0;1" ++ List.replicate 254 0x20, by decide +kernel, []⟩

/-- Its characters. -/
def announceData : List UInt8 := 0x31 :: (List.replicate 254 0x20 ++ [KURS_EOP, 0])

/-- It is stored whenever setting is enabled. -/
theorem announce_arriving (hen : S.setParamEnabled = true) :
    arrivingBlock S announceCall = some (0, announceData) := by
  have hnul : 0 ∉ 0x31 :: (List.replicate 254 0x20 ++ [KURS_EOP]) := by decide +kernel
  have hdata : announceData = (0x31 :: (List.replicate 254 0x20 ++ [KURS_EOP])) ++ 0 :: [] := by
    rw [announceData, List.cons_append, List.append_assoc]
    rfl
  have hlen : strlen announceData = some LANG_BLOCK_SIZE := by
    rw [hdata, strlen_append hnul, List.length_cons, List.length_append, List.length_replicate]
    rfl
  rw [arrivingBlock_eq rfl]
  exact acceptedBlock_eq_some_iff.mpr ⟨0, 3, rfl, rfl, rfl, rfl, hen, hlen⟩

/-- Block 1, filled with a character. -/
def fillCall (ch : UInt8) (hch : ch ≠ KURS_EOP) : KursCall :=
  requestTo idleReadings (fillBlock ch hch)

@[inherit_doc announce_arriving]
theorem fill_arriving {ch : UInt8} (hch : ch ≠ KURS_EOP) (h0 : ch ≠ 0)
    (hen : S.setParamEnabled = true) :
    arrivingBlock S (fillCall ch hch) = some (1, fillData ch) := by
  rw [arrivingBlock_eq rfl]
  exact acceptedBlock_eq_some_iff.mpr ⟨1, 3, rfl, rfl, rfl, rfl, hen, fillData_strlen h0⟩

/-- It completes a transfer that has announced it. -/
theorem fill_calls {ch : UInt8} (hch : ch ≠ KURS_EOP) (h0 : ch ≠ 0)
    (hen : S.setParamEnabled = true) (hcnt : S.expectedBlckCnt = 1) :
    callsNewLngpack S (fillCall ch hch) = true := by
  rw [callsNewLngpack, fill_arriving hch h0 hen, Option.any_some, hcnt]
  rfl

/-- The first byte of block 1. -/
theorem lngpackByte_fill {ch : UInt8} {pack : Fin LANG_BLOCK_MAX_CNT → LangBlock} :
    lngpackByte (Function.update pack 1 (blockOf (fillData ch))) 256 = ch := by
  have hlt : 256 < FLASH_LANG_SIZE := by decide
  rw [lngpackByte, dif_pos hlt]
  have hblock : (⟨256 / LANG_BLOCK_SIZE, Nat.div_lt_of_lt_mul hlt⟩ : Fin LANG_BLOCK_MAX_CNT) = 1 :=
    rfl
  rw [hblock, Function.update_self, fillData_get]
  rfl

/-- The machine of the card. -/
abbrev langMachine (tps : UInt32) (T : KursTables L) :=
  (langSystem tps T).machine fun _ : Unit => kursWriteLngFileToFlash

/-- A run whose requests are in time. -/
structure LangTimely (tps : UInt32) (T : KursTables L) (s₀ : LangCard)
    (h : History Unit KursCall (List UInt8) Unit LangOp Bool) (z : LangCard × LangProg Unit) :
    Prop where
  run : LangRun tps T (s₀, .done ()) h z
  meets : (langSystem tps T).Meets (fun _ => kursWriteLngFileToFlash) s₀ LangInTime h

section timely

variable {s₀ : LangCard} {h : History Unit KursCall (List UInt8) Unit LangOp Bool}
  {p : LangProg Unit}

/-- A request between two writes. -/
theorem LangTimely.request (hr : LangTimely tps T s₀ h (s, .done ()))
    (hs : langInterrupt tps T s c = some (s', r)) :
    LangTimely tps T s₀ (h ++ [(.interrupt c, .interrupted r)]) (s', .done ()) := by
  refine ⟨hr.run.snoc (System.step_interrupt hs), hr.meets.snoc hr.run ?_⟩
  intro c' _ _ place o ho
  cases ho

/-- The start of the task. -/
theorem LangTimely.start (hr : LangTimely tps T s₀ h (s, .done ())) :
    LangTimely tps T s₀ (h ++ [(.start (), .started)]) (s, kursWriteLngFileToFlash) := by
  refine ⟨hr.run.snoc rfl, hr.meets.snoc hr.run ?_⟩
  intro c' he
  cases he

/-- A step of the task. -/
theorem LangTimely.task {o : LangOp} {k : Bool → LangProg Unit}
    (hr : LangTimely tps T s₀ h (s, .step () o k)) (hs : langAct s o w = some s') :
    LangTimely tps T s₀ (h ++ [(.task w, .did () o)]) (s', k w) := by
  have hstep : (langMachine tps T).step (s, .step () o k) (.task w) =
      some ((s', k w), .did () o) := by
    change (langAct s o w).map _ = _
    rw [hs]
    rfl
  refine ⟨hr.run.snoc hstep, hr.meets.snoc hr.run ?_⟩
  intro c' he
  cases he

end timely

/-- A card behind the announcement of an upload. -/
structure Announced (s : LangCard) : Prop where
  enabled : s.kurs.setParamEnabled = true
  cnt : s.kurs.expectedBlckCnt = 1

/-- A block 1 on such a card. -/
theorem Announced.fill (hs : Announced s) (tps : UInt32) (T : KursTables L) (ch : UInt8)
    (hch : ch ≠ KURS_EOP) (h0 : ch ≠ 0) :
    ∃ s', langInterrupt tps T s (fillCall ch hch) = some (s', okReply (fillCall ch hch) 1) ∧
      Announced s' ∧ s'.kurs.newLngFile = true ∧ s'.completed = true ∧
      lngpackByte s'.kurs.lngpack 256 = ch := by
  have hcalls := fill_calls hch h0 hs.enabled hs.cnt
  have hlast : UInt32.ofNat (1 : Fin LANG_BLOCK_MAX_CNT).val = s.kurs.expectedBlckCnt :=
    Eq.trans rfl hs.cnt.symm
  refine ⟨_, langInterrupt_of_arriving tps T (fill_arriving hch h0 hs.enabled)
    (writeBlock_other (by decide)), ⟨hs.enabled, hs.cnt⟩, ?_, hcalls, lngpackByte_fill⟩
  exact Bool.or_eq_true_iff.mpr (.inr (decide_eq_true hlast))

/-- The card at power-on. -/
def langPowerOn : LangCard := ⟨kursProfileInit zeroState, false⟩

/-- From power-on to the announcement. -/
theorem announced_run :
    ∃ h s, LangTimely 0 settingTables langPowerOn h (s, .done ()) ∧ Announced s := by
  have henable : ∃ r, langInterrupt 0 settingTables langPowerOn enableCall =
      some (⟨enabledState, false⟩, r) := ⟨_, rfl⟩
  obtain ⟨r, henable⟩ := henable
  have hwrite : writeBlock enabledState 0 announceData = some { enabledState with
      expectedBlckCnt := 1
      lngpack := Function.update enabledState.lngpack 0 (blockOf announceData) } := by
    rw [writeBlock_first]
    rfl
  have hannounce := langInterrupt_of_arriving (s := ⟨enabledState, false⟩) 0 settingTables
    (announce_arriving rfl) hwrite
  have hnil : LangTimely 0 settingTables langPowerOn [] (langPowerOn, .done ()) := ⟨.nil, .nil⟩
  exact ⟨_, _, (hnil.request henable).request hannounce, rfl, rfl⟩

/-- **A copy of a first upload under the flag of a second one**: the second is completed when the
file has been written and the flag has not yet been cleared. -/
theorem langCoherent_not : ∃ h r s, LangRun 0 settingTables (langPowerOn, .done ())
      (h ++ [(.interrupt (fillCall 0x42 (by decide)), .interrupted r),
        (.task false, .did () .clearNewLngFile)]) (s, .done ()) ∧
    s.kurs.newLngFile = false ∧ s.completed = true ∧ ¬ LangSaved s.kurs := by
  obtain ⟨h₁, s₁, hr₁, hannounced⟩ := announced_run
  obtain ⟨s₂, hfill, hannounced₂, hflag₂, hcomp₂, hbyte₂⟩ :=
    hannounced.fill 0 settingTables 0x41 (by decide) (by decide)
  -- the first upload, the start of the task and the test of the flag
  have hread : langAct s₂ .readNewLngFile true = some s₂ := if_pos hflag₂.symm
  have hr₂ : LangTimely 0 settingTables langPowerOn _ (s₂, cfiFlashWrite >>= fun _ => do
      let _ ← Prog.op () LangOp.clearNewLngFile
      pure ()) := (hr₁.request hfill).start.task hread
  -- the write, to its end
  have hwp : cfiFlashWrite.wp (fun s o w s' => langAct s o w = some s')
      (fun _ s' => s'.frame = s₂.frame) s₂ :=
    Prog.wp_frame (Prog.allOps_true _) fun _ _ _ _ _ _ hs => langAct_frame hs
  have hanswer : ∀ h s place o, ∃ w s', langAct s o w = some s' ∧
      LangInTime h s (some (place, o)) (.task w) := by
    intro h s place o
    obtain ⟨w, s', hs⟩ := langAct_exists s o
    exact ⟨w, s', hs, fun c he => by cases he⟩
  obtain ⟨h₃, _, s₃, hr₃, hmeets₃, -, hframe⟩ :=
    System.exists_front hanswer hr₂.run hr₂.meets hwp
  have hwriting : Writing .clearNewLngFile s₃ :=
    (langAlways_of_inTime 0 settingTables rfl hr₃ hmeets₃).2 _ rfl (by simp)
  obtain ⟨hpack, hcnt, hen, hcomp⟩ : s₃.kurs.lngpack = s₂.kurs.lngpack ∧
      s₃.kurs.expectedBlckCnt = s₂.kurs.expectedBlckCnt ∧
      s₃.kurs.setParamEnabled = s₂.kurs.setParamEnabled ∧ s₃.completed = s₂.completed := by
    simpa [LangCard.frame] using hframe
  have hbyte₃ : lngFileByte s₃.kurs 256 = 0x41 := by
    rw [hwriting.done (hcomp.trans hcomp₂) 256 (by decide), hpack, hbyte₂]
  -- the second upload, and the clearing of the flag
  have hannounced₃ : Announced s₃ := ⟨hen.trans hannounced₂.enabled, hcnt.trans hannounced₂.cnt⟩
  obtain ⟨s₄, hlate, -, -, hcomp₄, hbyte₄⟩ :=
    hannounced₃.fill 0 settingTables 0x42 (by decide) (by decide)
  have hfile₄ := (langStep_of_interrupt hlate).2 256
  have hr₄ := (hr₃.snoc (System.step_interrupt hlate)).snoc
    (show (langMachine 0 settingTables).step (s₄, _) (.task false) = some (_, _) from rfl)
  rw [List.append_assoc, List.singleton_append] at hr₄
  refine ⟨_, _, _, hr₄, rfl, hcomp₄, fun hsaved => ?_⟩
  have hsame : lngFileByte s₄.kurs 256 = lngpackByte s₄.kurs.lngpack 256 :=
    hsaved 256 (by decide)
  rw [hfile₄, hbyte₃, hbyte₄] at hsame
  exact absurd hsame (by decide)

/-- A run with an upload, in which the task has seen the flag. -/
theorem langCoherent_of_inTime_upload : ∃ h z, LangRun 0 settingTables (langPowerOn, .done ()) h z ∧
    z.1.completed = true ∧ LangCoherent z.1 := by
  obtain ⟨h₁, s₁, hr₁, hannounced⟩ := announced_run
  obtain ⟨s₂, hfill, -, hflag₂, hcomp₂, -⟩ :=
    hannounced.fill 0 settingTables 0x41 (by decide) (by decide)
  have hread : langAct s₂ .readNewLngFile true = some s₂ := if_pos hflag₂.symm
  have hr := (hr₁.request hfill).start.task hread
  exact ⟨_, _, hr.run, hcomp₂, langCoherent_of_inTime 0 settingTables rfl hr.run hr.meets⟩

end steps

end Muxponder
