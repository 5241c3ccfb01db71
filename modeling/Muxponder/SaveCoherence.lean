import Muxponder.ResetToDefaults

/-!
# When the Preferences Are Saved

A set request that is accepted sets `save`, and `task_2000` writes the preferences to the flash
and clears it. What the registered variables hold changes in three places: in the interrupt that
serves the request, in `task_10` where the request is applied, and in the main loop where a reset to
the defaults has been requested. Only the first of them sets `save`. So the record is that of the
memory as long as `task_2000` comes when nothing is left to be applied, and no request comes between
its two steps (`SavesLast`).

## Main results

* `pass_saved`: what `task_10` does leaves the record that of the memory.
* `saved_of_run`: the record is that of the memory whenever `save` is clear.
* `lateRequest_lost`: a request between the commit and the clearing of `save` is lost.
-/

namespace Muxponder

open Memory Interrupts

/-! ### The main loop and its tasks -/

/-- The card, and the record that has been written to the flash last, if one has. -/
structure SaverState where
  card : CardState
  record : Option (List UInt8)

/-- The operations of the main loop and its tasks. -/
inductive SaverOp
  | task10 (o : TaskOp)
  /-- The step of the main loop that resets the settings to their defaults. -/
  | restore
  | readSave
  | commit
  | clearSave
  deriving DecidableEq, Repr

/-- What the main loop does: its own step, or one of its tasks. -/
inductive SaverJob
  | mainLoop
  | task10
  | task2000
  deriving DecidableEq, Repr

/-- A set request, and what lies outside its handler. -/
structure OutsideRequest where
  env : KursEnv
  profile : Profile
  strRx : List UInt8

/-- A piece of the main loop. The places are those of `task_10`. -/
abbrev SaverProg := Prog (Option Place) SaverOp UInt32

/-- `task_2000`, as far as the preferences go. -/
def task2000 : SaverProg Unit := do
  if (← Prog.op none .readSave) ≠ 0 then
    let _ ← Prog.op none .commit
    let _ ← Prog.op none .clearSave

/-- What is run for a job. -/
def SaverJob.prog : SaverJob → SaverProg Unit
  | .mainLoop => do
      let _ ← Prog.op none .restore
  | .task10 => Muxponder.task10.embed some .task10
  | .task2000 => Muxponder.task2000

section card

variable {L : Layout}

/-- `save` -/
def CardMemory.save (C : CardMemory L) (s : SaverState) : UInt8 := s.card.mem (C.addr (.card .save))

/-- An operation, with an answer. -/
def CardMemory.saverAct (C : CardMemory L) (T : DefaultTexts) (heap : Heap) (s : SaverState) :
    SaverOp → UInt32 → Option SaverState
  | .task10 o, w => (C.act s.card o w).map fun card => { s with card := card }
  | .restore, _ => some { s with card.mem := C.mainLoop T s.card.mem }
  | .readSave, w => if w = (C.save s).toUInt32 then some s else none
  | .commit, _ => (commitUserSettings heap s.card.mem C.preferences).map fun record =>
      { s with record := some record }
  | .clearSave, _ => some { s with card.mem := s.card.mem.store8 (C.addr (.card .save)) 0 }

/-- The alarm interrupt serves a set request that is accepted. -/
def saverRequest (L : Layout) (s : SaverState) (q : OutsideRequest) : Option (SaverState × Unit) :=
  (handleKursSetParamValue q.env L q.profile s.card.mem q.strRx).bind fun o =>
    if o.answer.isSome then some ({ s with card.mem := o.mem }, ()) else none

/-- The main loop and the interrupt. -/
def CardMemory.saver (C : CardMemory L) (T : DefaultTexts) (heap : Heap) :
    System SaverState OutsideRequest Unit SaverOp UInt32 where
  act := C.saverAct T heap
  interrupt := saverRequest L

/-- **The main loop, job after job, with set requests at any place.** -/
abbrev CardMemory.saverMachine (C : CardMemory L) (T : DefaultTexts) (heap : Heap) :=
  (C.saver T heap).machine SaverJob.prog

/-- The history of such a run. -/
abbrev SaverHistory := History SaverJob OutsideRequest Unit (Option Place) SaverOp UInt32

/-- No control is requested to change. -/
def CardMemory.NothingPending (C : CardMemory L) (m : Mem) : Prop :=
  ∀ c i, C.word m (.control c .change) i = 0

/-- **What is asked of a state**: where `save` is clear and nothing is pending, the record is that
of the memory. -/
def CardMemory.SavesCoherent (C : CardMemory L) (s : SaverState) : Prop :=
  C.save s = 0 → C.NothingPending s.card.mem →
    ∀ record, s.record = some record → record = prefsRecord s.card.mem C.preferences

/-- The condition: no request comes between the commit and the clearing of `save`; when `task_2000`
commits, no change and no reset to the defaults is pending; and the pointers to the ALS objects
stand when the defaults are restored. -/
def CardMemory.SavesLast (C : CardMemory L) :
    Condition SaverState SaverJob OutsideRequest Unit (Option Place) SaverOp UInt32 :=
  fun _ s next e =>
    match e, next with
    | .interrupt _, some (_, o) => o ≠ .clearSave
    | .task _, some (_, .commit) =>
        C.NothingPending s.card.mem ∧ s.card.mem (C.addr (.card .restore)) ≠ 1
    | .task _, some (_, .restore) => C.AlsReady s.card.mem
    | _, _ => True

variable {C : CardMemory L} {T : DefaultTexts} {heap : Heap} {s s' : SaverState} {c : Control}
  {i : Fin INTERFACE_COUNT} {m m' : Mem} {o : TaskOp} {w : UInt32} {p : Place}
  {next : Option (Option Place × SaverOp)}

/-! ### What is saved -/

/-- What is known of a state where `save` is clear: the record, if one has been written, is that of
the memory, and nothing is left to be applied. -/
structure CardMemory.UpToDate (C : CardMemory L) (s : SaverState) : Prop where
  record_eq : s.record = some (prefsRecord s.card.mem C.preferences)
  nothingPending : C.NothingPending s.card.mem
  noRestore : s.card.mem (C.addr (.card .restore)) ≠ 1

/-- Something is to be saved, or nothing has been saved yet. -/
def CardMemory.Unsaved (C : CardMemory L) (s : SaverState) : Prop :=
  C.save s ≠ 0 ∨ s.record = none

/-- The invariant. -/
def CardMemory.Saved (C : CardMemory L) (s : SaverState) : Prop := C.Unsaved s ∨ C.UpToDate s

/-- The preferences are saved then. -/
theorem CardMemory.Saved.coherent (h : C.Saved s) : C.SavesCoherent s := by
  intro hsave _ record hrecord
  rcases h with (hunsaved | hnone) | hup
  · exact absurd hsave hunsaved
  · rw [hnone] at hrecord
    cases hrecord
  · exact Option.some.inj (hrecord.symm.trans hup.record_eq)

/-- A record is made of the registered objects alone. -/
theorem prefsRecord_eq_iff {l : PreferencesList} :
    prefsRecord m' l = prefsRecord m l ↔ ∀ r ∈ l.nodes, m'.valueOf r = m.valueOf r := by
  constructor
  · intro h r hr
    obtain ⟨hfront, -⟩ := List.append_inj' h rfl
    obtain ⟨-, hsnapshot⟩ := List.append_inj hfront rfl
    exact valueOf_of_snapshot hsnapshot hr
  · intro h
    have hsnapshot : snapshot m' l.nodes = snapshot m l.nodes := List.flatMap_congr h
    rw [prefsRecord, prefsRecord, hsnapshot]

/-- The variables that are not registered are left out of it. -/
theorem record_of_writes {S : Set CardVar} (hwrites : C.Writes S m m')
    (hS : ∀ p ∈ buildPreferencesList, p.object ∉ S) :
    prefsRecord m' C.preferences = prefsRecord m C.preferences := by
  refine prefsRecord_eq_iff.mpr fun r hr => ?_
  rw [preferences_nodes] at hr
  obtain ⟨p, hp, rfl⟩ := List.mem_map.mp hr
  refine valueOf_congr fun x hx => hwrites.agreeOn (hS p hp) x ?_
  exact Nat.lt_of_lt_of_le hx (preference_size_le p hp)

/-- `save` is not registered. -/
theorem save_not_registered : ∀ p ∈ buildPreferencesList, p.object ≠ .card .save := by
  decide +kernel

/-- Neither is the request to boot a transceiver. -/
theorem rebootChange_not_registered :
    ∀ p ∈ buildPreferencesList, p.object ≠ .port .rebootChange i := by
  have hfields : buildPreferencesList.all (fun p => match p.object with
      | .port f _ => f ≠ .rebootChange
      | .card _ => true) = true := by
    decide +kernel
  intro p hp hobject
  have hp := List.all_eq_true.mp hfields p hp
  rw [hobject] at hp
  simp at hp

/-- A byte of a variable that is not written. -/
theorem byte_of_writes {S : Set CardVar} (hwrites : C.Writes S m m') {k : CardField}
    (hk : 0 < k.size.toNat) (hS : .card k ∉ S) : m' (C.addr (.card k)) = m (C.addr (.card k)) :=
  hwrites.agreeOn hS _ (Region.contains_value hk)

/-- Nothing that a record depends on is written, and nothing is requested. -/
theorem CardMemory.UpToDate.of_writes {S : Set CardVar} (hup : C.UpToDate s)
    (hwrites : C.Writes S s.card.mem s'.card.mem) (hrecord : s'.record = s.record)
    (hS : ∀ p ∈ buildPreferencesList, p.object ∉ S) (hchange : ∀ c j, .control c .change j ∉ S)
    (hrestore : .card .restore ∉ S) : C.UpToDate s' := by
  refine ⟨?_, fun c j => ?_, ?_⟩
  · rw [record_of_writes hwrites hS, hrecord]
    exact hup.record_eq
  · have hword : C.word s'.card.mem (.control c .change) j =
        C.word s.card.mem (.control c .change) j :=
      hwrites.load32 (hchange c j) (PortField.four_le_size _)
    rw [hword]
    exact hup.nothingPending c j
  · rw [byte_of_writes hwrites (by decide) hrestore]
    exact hup.noRestore

/-- `task_10` does not save. -/
theorem taskAct_unsaved (hact : (C.saver T heap).act s (.task10 o) w = some s')
    (h : C.Unsaved s) : C.Unsaved s' := by
  obtain ⟨card, hcard, rfl⟩ := Option.map_eq_some_iff.mp hact
  have hbyte : card.mem (C.addr (.card .save)) = s.card.mem (C.addr (.card .save)) :=
    byte_of_writes (act_writes hcard) (by decide) (by simp)
  exact h.imp (fun hsave => by rwa [CardMemory.save, hbyte]) id

/-! ### Requests -/

/-- An accepted request sets `save`. -/
theorem saverRequest_save {q : OutsideRequest} {x : Unit} (h : saverRequest L s q = some (s', x)) :
    C.save s' ≠ 0 := by
  obtain ⟨o, ho, hserved⟩ := Option.bind_eq_some_iff.mp h
  split at hserved
  next hanswer =>
    obtain ⟨rfl, -⟩ := Prod.mk.inj (Option.some.inj hserved)
    rcases handleKursSetParamValue_cases ho with ⟨F, rfl, -⟩ | ⟨F, data, t, -, hset⟩
    · cases hanswer
    · rcases setItem_cases hset with ⟨rfl, -⟩ | ⟨size, ok, m', -, -, -, rfl⟩
      · cases hanswer
      · cases ok with
        | false => cases hanswer
        | true =>
            rw [CardMemory.save, C.save_eq]
            simp [SetFields.accept, Mem.store8]
  next => cases hserved

/-- What holds wherever `save` is set is stable. -/
theorem stable_unsaved {B : SaverState → Prop} (hB : ∀ s, C.save s ≠ 0 → B s) :
    Stable (C.saver T heap) C.SavesLast next fun _ => B :=
  fun _ _ _ s' _ _ _ hinterrupt => hB s' (saverRequest_save hinterrupt)

/-- Nothing comes between the commit and the clearing of `save`. -/
theorem stable_window {B : SaverState → Prop} {p : Option Place} :
    Stable (C.saver T heap) C.SavesLast (some (p, .clearSave)) fun _ => B :=
  fun _ _ _ _ _ _ hcond _ => absurd rfl hcond

/-- A program of the main loop with assertions about the state. -/
abbrev CardMemory.SaverTriple (C : CardMemory L) (T : DefaultTexts) (heap : Heap) {α : Type}
    (A : SaverState → Prop) (prog : SaverProg α) (B : α → SaverState → Prop) : Prop :=
  Triple (C.saver T heap) C.SavesLast (fun _ _ s => C.SavesCoherent s) (fun _ s => A s) prog
    fun a _ s => B a s

/-! ### `task_10` -/

/-- Where `save` is set the invariant holds. -/
theorem saved_of_save (h : C.save s ≠ 0) : C.Saved s := .inl (.inl h)

/-- What `task_10` does where something is to be saved. -/
theorem task_unsaved {α : Type} {prog : TaskProg α} :
    C.SaverTriple T heap C.Unsaved (prog.embed some .task10) fun _ => C.Unsaved := by
  refine .keep (allOps_embed.mpr (prog.allOps_true.mono fun p o _ =>
    ⟨stable_unsaved fun _ h => .inl h, fun _ s h => CardMemory.Saved.coherent (.inl h), ?_⟩))
  exact fun _ s w s' h _ hact => taskAct_unsaved hact h

/-- **A part of `task_10` that begins with a test of `change`** does nothing where nothing is
pending. -/
theorem part_saved {f : UInt32 → TaskProg Unit} {rest : TaskProg Unit}
    (hf : f = fun w => if w ≠ 0 then rest else pure ()) :
    C.SaverTriple T heap C.Saved
      ((readWord p (.control c .change) i >>= f).embed some .task10) fun _ => C.Saved := by
  subst hf
  rw [embed_bind]
  refine .bind (Q := fun w _ s => C.Saved s ∧ (w ≠ 0 → C.Unsaved s)) ?_ fun w => ?_
  · refine .op (stable_unsaved fun _ => saved_of_save) (fun _ s h => h.coherent) ?_
    intro h s w s' hsaved _ hact
    obtain ⟨card, hcard, rfl⟩ := Option.map_eq_some_iff.mp hact
    obtain ⟨rfl, rfl⟩ := act_read hcard
    refine ⟨hsaved, fun hne => hsaved.resolve_right fun hup => ?_⟩
    exact hne (hup.nothingPending c i)
  · by_cases hw : w ≠ 0
    · rw [if_pos hw]
      exact task_unsaved.conseq (fun _ _ h => h.2 hw) fun _ _ _ h => .inl h
    · rw [if_neg hw]
      exact .pure fun _ _ h => h.1

/-- Booting a transceiver changes nothing that is saved. -/
theorem rebootPart_saved :
    C.SaverTriple T heap C.Saved ((rebootPart i).embed some .task10) fun _ => C.Saved := by
  have hkeeps : ∀ (p : Place) (o : TaskOp), (∀ f ∈ o.stored, f = .rebootChange) →
      Keeps (C.saver T heap) C.SavesLast (fun _ _ s => C.SavesCoherent s)
        (fun _ s => C.Saved s) (some p) (.task10 o) := by
    intro p o ho
    refine ⟨stable_unsaved fun _ => saved_of_save, fun _ s h => h.coherent, ?_⟩
    intro h s w s' hsaved _ hact
    rcases hsaved with hunsaved | hup
    · exact .inl (taskAct_unsaved hact hunsaved)
    · obtain ⟨card, hcard, rfl⟩ := Option.map_eq_some_iff.mp hact
      refine .inr (hup.of_writes (act_writes hcard) rfl ?_ ?_ (by simp))
      · rintro p hp ⟨f, hf, j, hj⟩
        rw [ho f hf] at hj
        exact rebootChange_not_registered p hp hj
      · rintro c j ⟨f, hf, k, hk⟩
        rw [ho f hf] at hk
        cases hk
  refine .keep (allOps_embed.mpr ?_)
  simp only [rebootPart, allOps_readWord_bind, allOps_op_bind, allOps_ite, writeWord,
    allOps_perform, allOps_pure, implies_true, and_true]
  refine ⟨hkeeps _ _ ?_, fun _ _ => ⟨hkeeps _ _ ?_, fun _ _ => hkeeps _ _ ?_⟩⟩ <;>
    simp [TaskOp.stored]

/-- **A pass of `task_10`** leaves the record that of the memory. -/
theorem pass_saved :
    C.SaverTriple T heap C.Saved (SaverJob.prog .task10) fun _ => C.Saved := by
  rw [SaverJob.prog, task10, embed_forM]
  refine .forM fun i _ => ?_
  rw [taskInterface, embed_bind]
  refine .bind (part_saved rfl) fun _ => ?_
  rw [embed_bind]
  refine .bind (part_saved rfl) fun _ => ?_
  rw [embed_bind]
  refine .bind (part_saved rfl) fun _ => ?_
  rw [embed_bind]
  refine .bind (part_saved rfl) fun _ => ?_
  rw [embed_bind]
  exact .bind (part_saved rfl) fun _ => rebootPart_saved

/-! ### The main loop -/

/-- A list of stores writes their variables. -/
theorem defaults_writes {ws : List DefaultStore} (hals : C.AlsReady m)
    (hfits : ∀ st ∈ ws, st.Fits) :
    C.Writes {v | ∃ st ∈ ws, v = st.1} m (ws.foldl C.storeDefault m) := by
  induction ws generalizing m with
  | nil => exact .refl
  | cons st ws ih =>
      have hst : st.Fits := hfits st List.mem_cons_self
      have hwrites := storeDefault_writes hals hst
      have hals' : C.AlsReady (C.storeDefault m st) := by
        intro i
        have hspared : .port .als i ∉ ({st.1} : Set CardVar) := by
          intro hv
          have hset := hst.2
          rw [← Set.mem_singleton_iff.mp hv] at hset
          cases hset
        rw [hwrites.load32 hspared (PortField.four_le_size .als)]
        exact hals i
      refine (hwrites.mono ?_).trans ((ih hals' fun st' hst' =>
        hfits st' (List.mem_cons_of_mem _ hst')).mono ?_)
      · rintro v rfl
        exact ⟨st, List.mem_cons_self, rfl⟩
      · rintro v ⟨st', hst', rfl⟩
        exact ⟨st', List.mem_cons_of_mem _ hst', rfl⟩

/-- What the main loop stores. -/
def mainLoopStores (T : DefaultTexts) : List DefaultStore :=
  defaultSection1 T ++ ((defaultSection4 ++ defaultSection2) ++ restoreSettings)

/-- The defaults, and the requests for them, stay in their variables. -/
theorem mainLoopStores_fit : ∀ st ∈ mainLoopStores T, st.Fits := by
  intro st hst
  rcases List.mem_append.mp hst with h | h
  · exact defaultTexts_fit (T := T) st (List.mem_append_right _ h)
  · rcases List.mem_append.mp h with h | h
    · exact defaultMeasured_fit st h
    · exact restoreSettings_fit st h

/-- They do not save. -/
theorem mainLoopStores_ne_save : ∀ st ∈ mainLoopStores T, st.1 ≠ .card .save := by
  have hrest : ∀ st : DefaultStore, st ∈ (defaultSection4 ++ defaultSection2) ++ restoreSettings →
      st.1 ≠ .card .save := by
    decide +kernel
  intro st hst
  rcases List.mem_append.mp hst with h | h
  · rintro hsave
    simp only [defaultSection1, clearText, List.mem_cons, List.not_mem_nil, or_false] at h
    rcases h with rfl | rfl | rfl | rfl <;> cases hsave
  · exact hrest st h

/-- The main loop, where a reset to the defaults is requested. -/
theorem mainLoop_restore (hrestore : m (C.addr (.card .restore)) = 1) : C.mainLoop T m =
    ((mainLoopStores T).foldl C.storeDefault m).store8 (C.addr (.card .restore)) 0 := by
  rw [CardMemory.mainLoop, if_pos hrestore, mainLoopStores, restoreSettings]
  dsimp only
  rw [← List.foldl_append, kursProfileSetDefault_restore]
  simp only [List.append_assoc]

/-- It does not save. -/
theorem mainLoop_save (hals : C.AlsReady m) :
    C.mainLoop T m (C.addr (.card .save)) = m (C.addr (.card .save)) := by
  by_cases hrestore : m (C.addr (.card .restore)) = 1
  · have hcleared : C.Writes {.card .restore} ((mainLoopStores T).foldl C.storeDefault m)
        (C.mainLoop T m) := by
      rw [mainLoop_restore hrestore]
      exact Placement.Writes.store8 rfl (by decide)
    rw [byte_of_writes hcleared (by decide) (by simp)]
    refine byte_of_writes (defaults_writes hals mainLoopStores_fit) (by decide) ?_
    rintro ⟨st, hst, hsave⟩
    exact mainLoopStores_ne_save st hst hsave.symm
  · rw [CardMemory.mainLoop, if_neg hrestore]

/-- **The step of the main loop** changes nothing where nothing is requested. -/
theorem restore_saved :
    C.SaverTriple T heap C.Saved (SaverJob.prog .mainLoop) fun _ => C.Saved := by
  refine .bind (Q := fun _ _ s => C.Saved s) ?_ fun _ => .pure fun _ _ h => h
  refine .op (stable_unsaved fun _ => saved_of_save) (fun _ s h => h.coherent) ?_
  intro h s w s' hsaved hcond hact
  obtain rfl := Option.some.inj hact
  rcases hsaved with hunsaved | hup
  · have hbyte := mainLoop_save (T := T) (m := s.card.mem) hcond
    exact .inl (hunsaved.imp (fun hsave h0 => hsave (hbyte.symm.trans h0)) id)
  · have hidle : C.mainLoop T s.card.mem = s.card.mem := if_neg hup.noRestore
    refine .inr ?_
    rw [hidle]
    exact hup

/-! ### `task_2000` -/

/-- **`task_2000`** leaves the record that of the memory. -/
theorem task2000_saved :
    C.SaverTriple T heap C.Saved (SaverJob.prog .task2000) fun _ => C.Saved := by
  refine .bind (Q := fun w _ s => C.Saved s ∧ (w ≠ 0 → C.save s ≠ 0)) ?_ fun w => ?_
  · refine .op (stable_unsaved fun _ => saved_of_save) (fun _ s h => h.coherent) ?_
    intro h s w s' hsaved _ hact
    obtain ⟨rfl, hs⟩ := Option.ite_none_right_eq_some.mp hact
    obtain rfl := Option.some.inj hs
    refine ⟨hsaved, fun hw hsave => hw ?_⟩
    rw [hsave]
    rfl
  · refine .ite (fun hw => ?_) fun _ => .pure fun _ _ h => h.1
    refine .bind (Q := fun _ _ s => C.save s ≠ 0 ∧ C.UpToDate s) ?_ fun _ => ?_
    · refine .conseq (.op (stable_unsaved fun _ => id) (fun _ s h => (saved_of_save h).coherent) ?_)
        (fun _ _ h => h.2 hw) fun _ _ _ => id
      intro h s w s' hsave hcond hact
      obtain ⟨record, hrecord, rfl⟩ := Option.map_eq_some_iff.mp hact
      rw [commitUserSettings_of_fits preferences_fits] at hrecord
      exact ⟨hsave, congrArg some (Option.some.inj hrecord).symm, hcond.1, hcond.2⟩
    · refine .bind (Q := fun _ _ s => C.UpToDate s) ?_ fun _ => .pure fun _ _ => .inr
      refine .op stable_window (fun _ s h => (saved_of_save h.1).coherent) ?_
      rintro h s w s' ⟨-, hup⟩ _ hact
      obtain rfl := Option.some.inj hact
      refine hup.of_writes (S := {.card .save}) (Placement.Writes.store8 rfl (by decide)) rfl
        save_not_registered (by simp) (by simp)

/-! ### Runs -/

/-- What is run leaves the record that of the memory. -/
theorem job_saved (j : SaverJob) : C.SaverTriple T heap C.Saved j.prog fun _ => C.Saved := by
  cases j with
  | mainLoop => exact restore_saved
  | task10 => exact pass_saved
  | task2000 => exact task2000_saved

/-- **The preferences are saved in every run that meets the condition**: wherever `save` is clear
and nothing is pending, the record is that of the memory. -/
theorem saved_of_run (C : CardMemory L) (T : DefaultTexts) (heap : Heap) (s₀ : SaverState)
    (h : SaverHistory) (z : SaverState × SaverProg Unit) (h0 : C.Saved s₀)
    (hr : (C.saverMachine T heap).Run (s₀, .done ()) h z)
    (hc : (C.saver T heap).Meets SaverJob.prog s₀ C.SavesLast h) : C.SavesCoherent z.1 :=
  Triple.sound (P := fun _ _ s => C.SavesCoherent s) (R := fun _ _ s => C.Saved s) job_saved
    (fun _ _ _ h _ => h) (stable_unsaved fun _ => saved_of_save) (fun _ _ h => h.coherent) h0 hr hc

/-! ### A request that comes late -/

/-- `task_2000` has read `save`. -/
def readSteps (save : UInt8) : SaverHistory :=
  [(.start .task2000, .started), (.task save.toUInt32, .did none .readSave)]

/-- It has committed the preferences. -/
def commitSteps (save : UInt8) : SaverHistory := readSteps save ++ [(.task 0, .did none .commit)]

/-- What is left then. -/
def clearing : SaverProg Unit := do
  let _ ← Prog.op none .clearSave

/-- The preferences are committed. -/
def CardMemory.committed (C : CardMemory L) (s : SaverState) : SaverState :=
  { s with record := some (prefsRecord s.card.mem C.preferences) }

/-- `task_2000` goes on where `save` is set. -/
theorem run_read (T : DefaultTexts) (heap : Heap) (hsave : C.save s ≠ 0) :
    (C.saverMachine T heap).Run (s, .done ()) (readSteps (C.save s))
      (s, .step none .commit fun _ => clearing) := by
  have hne : (C.save s).toUInt32 ≠ 0 := fun h => hsave (UInt8.toUInt32_inj.mp h)
  have hstart : (C.saverMachine T heap).Run (s, .done ()) [(.start .task2000, .started)]
      (s, task2000) := .single rfl
  refine hstart.snoc ?_
  have hact : (C.saver T heap).act s .readSave (C.save s).toUInt32 = some s := if_pos rfl
  change ((C.saver T heap).act s .readSave _).map _ = _
  rw [hact]
  exact congrArg (fun p => some ((s, p), Output.did none SaverOp.readSave)) (if_pos hne)

/-- It commits the preferences. -/
theorem run_commit (T : DefaultTexts) (heap : Heap) (hsave : C.save s ≠ 0) :
    (C.saverMachine T heap).Run (s, .done ()) (commitSteps (C.save s))
      (C.committed s, clearing) := by
  refine (run_read T heap hsave).snoc ?_
  have hact : (C.saver T heap).act s .commit 0 = some (C.committed s) := by
    change (commitUserSettings _ _ _).map _ = _
    rw [commitUserSettings_of_fits preferences_fits]
    rfl
  change ((C.saver T heap).act s .commit 0).map _ = _
  rw [hact]
  rfl

/-- `save` is cleared. -/
def CardMemory.cleared (C : CardMemory L) (s : SaverState) : SaverState :=
  { s with card.mem := s.card.mem.store8 (C.addr (.card .save)) 0 }

/-- That is a step. -/
theorem step_clear : (C.saverMachine T heap).step (s, clearing) (.task 0) =
    some ((C.cleared s, .done ()), .did none .clearSave) := rfl

/-- `save` is clear then. -/
theorem save_cleared : C.save (C.cleared s) = 0 := if_pos rfl

end card

/-- A request may be for any control. -/
instance : Fintype Control :=
  ⟨{.serviceState, .txDisable, .loopbackMode, .rate, .resetCounters}, by rintro ⟨⟩ <;> decide⟩

instance {L : Layout} {C : CardMemory L} {m : Mem} : Decidable (C.NothingPending m) :=
  inferInstanceAs (Decidable (∀ _ _, _))

/-- A card where something is to be saved. -/
def unsavedState : SaverState where
  card.mem := (readyMemory.store32 (cardMemory.addr (.card .u32MinMax99)) 99).store8
    (cardMemory.addr (.card .save)) 1
  card.hw := idleCard.hw
  record := none

theorem unsavedState_save : cardMemory.save unsavedState ≠ 0 := by decide

/-- It is saved, and nothing comes in between. -/
theorem saved_unsavedState : ∃ h z,
    (cardMemory.saverMachine emptyTexts clearedHeap).Run (unsavedState, .done ()) h z ∧
      z.1.record = some (prefsRecord unsavedState.card.mem cardMemory.preferences) ∧
        cardMemory.SavesCoherent z.1 := by
  have hread := run_read emptyTexts clearedHeap unsavedState_save
  have hcommit := run_commit emptyTexts clearedHeap unsavedState_save
  have hr := hcommit.snoc step_clear
  have hidle : cardMemory.NothingPending unsavedState.card.mem ∧
      unsavedState.card.mem (cardMemory.addr (.card .restore)) ≠ 1 := by
    decide +kernel
  have hstart : (cardMemory.saverMachine emptyTexts clearedHeap).Run (unsavedState, .done ())
      [(.start .task2000, .started)] (unsavedState, task2000) := .single rfl
  have hmeets : (cardMemory.saver emptyTexts clearedHeap).Meets SaverJob.prog unsavedState
      cardMemory.SavesLast
      (commitSteps (cardMemory.save unsavedState) ++ [(.task 0, .did none .clearSave)]) := by
    refine .snoc hcommit (.snoc hread (.snoc hstart (.snoc .nil .nil ?_) ?_) ?_) ?_
    · exact trivial
    · exact trivial
    · exact hidle
    · exact trivial
  exact ⟨_, _, hr, rfl, saved_of_run cardMemory emptyTexts clearedHeap unsavedState _ _
    (.inl (.inl unsavedState_save)) hr hmeets⟩

/-- The category of the first line is set to 57. -/
def lateCall : KursCall :=
  requestTo idleReadings ⟨0x80, CString.ascii "r103;2;57;8996", by decide, []⟩

@[inherit_doc lateCall]
def lateRequest : OutsideRequest where
  env := cardTables.env lateCall
  profile := cardTables.profile { readyState with setParamEnabled := true }
  strRx := lateCall.strRx

/-- The request is accepted. -/
theorem lateRequest_accepted : ∃ m, saverRequest cardLayout (cardMemory.committed unsavedState)
      lateRequest = some ({ cardMemory.committed unsavedState with card.mem := m }, ()) ∧
    m (cardMemory.addr (.port .inCat 16)) = 57 ∧ cardMemory.NothingPending m := by
  have hserved : (handleKursSetParamValue lateRequest.env cardLayout lateRequest.profile
      unsavedState.card.mem lateRequest.strRx).map (fun o =>
        (o.answer.isSome, o.mem (cardMemory.addr (.port .inCat 16)),
          decide (cardMemory.NothingPending o.mem))) = some (true, 57, true) := by
    decide +kernel
  obtain ⟨o, ho, heq⟩ := Option.map_eq_some_iff.mp hserved
  obtain ⟨hanswer, heq⟩ := Prod.mk.inj heq
  obtain ⟨hbyte, hnothing⟩ := Prod.mk.inj heq
  refine ⟨o.mem, Option.bind_eq_some_iff.mpr ⟨o, ho, if_pos hanswer⟩, hbyte, ?_⟩
  exact of_decide_eq_true hnothing

/-- **A request between the commit and the clearing of `save` is lost.** -/
theorem lateRequest_lost : ∃ s₀ h z, cardMemory.Saved s₀ ∧
    (cardMemory.saverMachine emptyTexts clearedHeap).Run (s₀, .done ()) h z ∧
      ¬ cardMemory.SavesCoherent z.1 := by
  obtain ⟨m, hrequest, hbyte, hnothing⟩ := lateRequest_accepted
  have hinterrupt : (cardMemory.saver emptyTexts clearedHeap).interrupt
    (cardMemory.committed unsavedState) lateRequest = _ := hrequest
  have hlate := (run_commit emptyTexts clearedHeap unsavedState_save).snoc
    (System.step_interrupt hinterrupt)
  refine ⟨unsavedState, _, _, .inl (.inl unsavedState_save), hlate.snoc step_clear, ?_⟩
  have hcleared : cardMemory.Writes {.card .save} m
      (m.store8 (cardMemory.addr (.card .save)) 0) := .store8 rfl (by decide)
  intro hcoherent
  have hidle : cardMemory.NothingPending (m.store8 (cardMemory.addr (.card .save)) 0) := by
    intro c i
    rw [word_store8_card (by decide)]
    exact hnothing c i
  have hrecord := (hcoherent save_cleared hidle _ rfl).symm
  have hregistered : cardMemory.object (.whole (.port .inCat 16)) ∈
      cardMemory.preferences.nodes := by
    rw [preferences_nodes]
    exact List.mem_map_of_mem (by decide +kernel)
  have hbyte' := byte_of_valueOf (prefsRecord_eq_iff.mp hrecord _ hregistered) (by decide)
  have hkept := hcleared.agreeOn (u := .port .inCat 16) (by simp) _
    (Region.contains_value (by decide))
  have hzero : unsavedState.card.mem (cardMemory.addr (.port .inCat 16)) = 0 := by decide +kernel
  have hsame : (57 : UInt8) = 0 :=
    calc (57 : UInt8) = m (cardMemory.addr (.port .inCat 16)) := hbyte.symm
      _ = m.store8 (cardMemory.addr (.card .save)) 0 (cardMemory.addr (.port .inCat 16)) :=
          hkept.symm
      _ = unsavedState.card.mem (cardMemory.addr (.port .inCat 16)) := hbyte'
      _ = 0 := hzero
  exact absurd hsame (by decide)

end Muxponder
