import Muxponder.KursReadIndependence
import Muxponder.KursReplyLength

/-!
# Setting the Colours of a Parameter

`HandleKursSetColorDegradeAndFailure` of `kurs_core.c` sets the two colours of the parameter of
section 2 that a request comes to: a colour that is not available stays so, and one that is stays
one of the colours. Some parameters have no colour record. The sibling that reads the colours tests
for that, this handler goes through the null pointer.

## Main results

* `setColorSafe_iff`: a request is safe if and only if the parameter that it sets has a record.
* `colorAddressed_of_records`: no request fails on a table in which every parameter has one.
-/

namespace Muxponder

open CString Printf

variable {L : Layout} {T : KursTables L} {S S' : KursState} {c : KursCall} {r : List UInt8}

/-! ### The property -/

/-- What may become of a colour: `COLOR_NA` stays, and a colour stays one of the colours. -/
structure ColorKept (old new : UInt16) : Prop where
  na : old = COLOR_NA → new = COLOR_NA
  color : 1 ≤ old → old ≤ COLOR_Critical → 1 ≤ new ∧ new ≤ COLOR_Critical

/-- A request is safe: what it may change, and what it may not. -/
structure SetColorSafe (T : KursTables L) (S : KursState) (c : KursCall) (S' : KursState)
    (r : List UInt8) : Prop where
  /-- An answer NA changes nothing. -/
  refused : ∀ F : ColorFields, r = c.checked (F.text ++ ascii "NA;") → S' = S
  /-- Nothing is changed but the colour records and the variables. -/
  others : S' = { S with adds := S'.adds, mem := S'.mem }
  /-- Of the variables only the flag for saving. -/
  saved : ∀ a, a ≠ L.save → S'.mem a = S.mem a
  /-- Of a record only the two colours. -/
  fields : ∀ a, S'.adds a = { S.adds a with
    colorDegrade := (S'.adds a).colorDegrade
    colorFailure := (S'.adds a).colorFailure }
  /-- Of the records only that of the parameter that the request comes to. -/
  addressed : ∀ a, S'.adds a ≠ S.adds a → ∃ F p, colorFields c.strRx = some F ∧
    T.colorParam F = some p ∧ p.dAdd = some a
  /-- A colour stays a colour. -/
  kept : ∀ a, ColorKept (S.adds a).colorDegrade (S'.adds a).colorDegrade ∧
    ColorKept (S.adds a).colorFailure (S'.adds a).colorFailure

/-- **The condition on a request**: if it is free of errors and accepted, the parameter that it
comes to has a colour record. -/
def ColorAddressed (T : KursTables L) (S : KursState) (c : KursCall) : Prop :=
  ∀ F ∈ colorFields c.strRx, F.colors.isSome = true → F.accepted T S = true →
    ((T.colorParam F).bind fun p => p.dAdd).isSome = true

/-! ### What a request does -/

theorem ColorKept.refl (color : UInt16) : ColorKept color color :=
  ⟨id, fun hpos hle => ⟨hpos, hle⟩⟩

/-- A colour is only replaced by another one. -/
theorem newColor_kept (old new : UInt16) : ColorKept old (newColor old new) := by
  rw [newColor]
  split
  next h =>
    obtain ⟨hold, hnew, hle⟩ := h
    refine ⟨fun hna => absurd hna hold, fun _ _ => ⟨?_, hle⟩⟩
    rw [UInt16.le_iff_toNat_le]
    exact Nat.pos_of_ne_zero fun hzero => hnew (UInt16.toNat_inj.mp hzero)
  next => exact .refl old

/-- An answer that shows colours is no answer NA: it has no letters. -/
theorem shown_ne_refused {F F' : ColorFields} {degrade failure : ℕ} :
    c.checked (F.text ++ unsigned degrade ++ SEMICOLON :: (unsigned failure ++ [SEMICOLON])) ≠
      c.checked (F'.text ++ ascii "NA;") := by
  intro h
  have hletter : ∀ n, (0x4E : UInt8) ∉ unsigned n := fun n => not_mem_unsigned (by decide)
  simp only [KursCall.checked, List.append_assoc, List.append_cancel_left_eq] at h
  have hna := congrArg (fun text => (0x4E : UInt8) ∈ text) h
  simp [ColorFields.text, hletter, ascii, SEMICOLON, KURS_EOP] at hna

/-- Colours are set in one record. -/
theorem setColors_adds_of_ne {a b : UInt32} {colors : UInt16 × UInt16} (hb : b ≠ a) :
    (setColors L S a colors).adds b = S.adds b := if_neg hb

/-- There they replace the old ones. -/
theorem setColors_adds_self {a : UInt32} {colors : UInt16 × UInt16} :
    (setColors L S a colors).adds a = { S.adds a with
      colorDegrade := newColor (S.adds a).colorDegrade colors.1
      colorFailure := newColor (S.adds a).colorFailure colors.2 } := if_pos rfl

/-- **An answered request is safe.** -/
theorem setColorSafe_of_answered
    (h : handleKursSetColorDegradeAndFailure T S c = some (S', r)) : SetColorSafe T S c S' r := by
  obtain ⟨F, hF, ⟨rfl, -, -⟩ | ⟨colors, p, a, -, -, hp, ha, rfl, rfl⟩⟩ := setColors_cases h
  · exact ⟨fun _ _ => rfl, rfl, fun _ _ => rfl, fun _ => rfl, fun a hne => absurd rfl hne,
      fun a => ⟨.refl _, .refl _⟩⟩
  refine ⟨fun F' heq => absurd heq shown_ne_refused, rfl, ?_, ?_, ?_, ?_⟩
  · exact fun x hx => Memory.store8_of_ne hx
  · intro b
    by_cases hb : b = a
    · subst hb
      rw [setColors_adds_self]
    · rw [setColors_adds_of_ne hb]
  · intro b hne
    by_cases hb : b = a
    · exact ⟨F, p, hF, hp, hb ▸ ha⟩
    · exact absurd (setColors_adds_of_ne hb) hne
  · intro b
    by_cases hb : b = a
    · subst hb
      rw [setColors_adds_self]
      exact ⟨newColor_kept _ _, newColor_kept _ _⟩
    · rw [setColors_adds_of_ne hb]
      exact ⟨.refl _, .refl _⟩

/-- **A request is answered, and safe,** if and only if the parameter that it sets has a colour
record. -/
theorem setColorSafe_iff : (∃ S' r, handleKursSetColorDegradeAndFailure T S c = some (S', r) ∧
    SetColorSafe T S c S' r) ↔ ColorAddressed T S c := by
  constructor
  · rintro ⟨S', r, h, -⟩ F hF hcolors haccepted
    obtain ⟨F', hF', hcases⟩ := setColors_cases h
    obtain rfl : F' = F := Option.some.inj (hF'.symm.trans hF)
    obtain ⟨-, -, hrefused⟩ | ⟨colors, p, a, -, -, hp, ha, -⟩ := hcases
    · exact absurd haccepted (hrefused hcolors)
    · rw [hp, Option.bind_some, ha]
      rfl
  · intro haddressed
    obtain ⟨S', r, h, -⟩ := setColors_fits_iff.mpr haddressed
    exact ⟨S', r, h, setColorSafe_of_answered h⟩

/-- `|2;1;1;1;45813`: set the colours of the first parameter of section 2, the time since the
start. -/
def setUptimeColors : KursCall :=
  requestTo idleReadings ⟨0x80, ascii "|2;1;1;1;45813", by decide, []⟩

/-- **It has no colour record**: the request is accepted and goes through the null pointer. -/
theorem setUptimeColors_unsafe : setUptimeColors.command = .setColorDegradeAndFailure ∧
    ¬ ∃ S' r, handleKursSetColorDegradeAndFailure cardTables readyState setUptimeColors =
        some (S', r) ∧ SetColorSafe cardTables readyState setUptimeColors S' r := by
  have hnull : (handleKursSetColorDegradeAndFailure cardTables readyState
      setUptimeColors).isSome = false := by decide +kernel
  refine ⟨rfl, ?_⟩
  rintro ⟨S', r, h, -⟩
  rw [h] at hnull
  cases hnull

/-- No request fails on a table in which every parameter has a record. -/
theorem colorAddressed_of_records (hsection : (T.parameters 1).isSome = true)
    (h : ∀ p ∈ T.params 1, p.dAdd.isSome = true) : ColorAddressed T S c := by
  intro F _ _ haccepted
  obtain ⟨entries, hentries⟩ := Option.isSome_iff_exists.mp hsection
  have hitem : F.item.toNat ≠ 0 ∧ F.item.toNat ≤ (T.sectionParamCount 1).toNat := by
    simp only [ColorFields.accepted, Bool.and_eq_true, decide_eq_true_eq] at haccepted
    obtain ⟨⟨-, hzero⟩, hcount⟩ := haccepted
    exact ⟨fun h0 => hzero (UInt16.toNat_inj.mp h0), UInt16.le_iff_toNat_le.mp hcount⟩
  have hmem : entries (F.item.toNat - 1) ∈ T.params 1 := by
    rw [KursSections.params, hentries]
    refine List.mem_map.mpr ⟨F.item.toNat - 1, List.mem_range.mpr (by omega), ?_⟩
    rw [Nat.cast_sub (by omega), Nat.cast_one]
  rw [KursTables.colorParam, hentries]
  exact h _ hmem

end Muxponder
