import Muxponder.CardAlarms
import Muxponder.RegisterMap

/-!
# The Statistics of the FEC

`update_port_fec_stats` of `ipglb_adapter.c` reads three counters of the framer of a line: the bits
that the FEC has corrected, the code words it has not, and the bits that were wrong. What is left
behind the FEC is their difference, in 64 bits and without a check. The second line reads the last
counter of the brick of the first, through its own map.

Rates are rationals in front of their conversion to `float`.

## Main results

* `fecReads_eq`: the registers that are read are those of the map.
* `fecSound_iff`: when only the own brick is read and the difference does not wrap.
* `postfecBer_le`: then there are no more errors behind the FEC than in front of it.
-/

namespace Muxponder

/-! ### `update_port_fec_stats` -/

/-- `ipg_counter64_t`. -/
structure Counter64 where
  current : UInt64
  accumulated : UInt64
  deriving DecidableEq, Repr

/-- A counter takes the value of its register. -/
def Counter64.take (c : Counter64) (register : UInt32) : Counter64 :=
  ⟨register.toUInt64, c.accumulated + register.toUInt64⟩

/-- `fec_statistics_t`, with the value of its load. -/
structure FecStatistics where
  correctedBits : Counter64
  uncorrectedCw : Counter64
  fecLoad : ℚ
  prefecBer : ℚ
  postfecBer : ℚ
  deriving DecidableEq, Repr

/-- A port with a FEC. -/
structure FecPort where
  index : UInt32
  rate : UInt32
  operation : UInt32
  fec : FecStatistics

/-- `PORT_OPERATION_LINE`. -/
def PORT_OPERATION_LINE : UInt32 := 0x02

/-- `MAX_EFEC_CORRECTABLE_ONE_SEC`. -/
def MAX_EFEC_CORRECTABLE_ONE_SEC : ℚ := 6000000

/-- `OTU2_LINE_RATE_BIT`. -/
def OTU2_LINE_RATE_BIT : ℚ := 10709000000

/-- `RES`. -/
def RES : ℚ := 1 / 10000000

/-- The registers that a branch reads. -/
structure FecAccesses where
  corrBits : RegisterAccess
  uncorrected : RegisterAccess
  bitErrors : RegisterAccess
  deriving DecidableEq

/-- They are read in this order. -/
def FecAccesses.list (a : FecAccesses) : List RegisterAccess :=
  [a.corrBits, a.uncorrected, a.bitErrors]

/-- The branches: one for each line. -/
def FecPort.accesses (p : FecPort) : Option FecAccesses :=
  if p.index = LN_INDEX_START then
    some ⟨lnMmap 0 .one .fecCorrBits, lnMmap 0 .one .uncorrected, lnMmap 0 .one .fecBitErrors⟩
  else if p.index = LN_INDEX_END then
    some ⟨lnMmap 1 .two .fecCorrBits, lnMmap 1 .two .uncorrected, lnMmap 1 .one .fecBitErrors⟩
  else none

/-- The errors in front of the FEC. -/
def FecAccesses.preErrors (a : FecAccesses) (regs : RegisterAccess → UInt32) : UInt64 :=
  (regs a.bitErrors).toUInt64

/-- The errors behind it, the numerator of the rate. -/
def FecAccesses.postErrors (a : FecAccesses) (regs : RegisterAccess → UInt32) : UInt64 :=
  (regs a.bitErrors).toUInt64 - (regs a.corrBits).toUInt64

/-- A branch, with what the registers hold; `float` is the conversion. -/
def FecStatistics.sample (float : ℚ → ℚ) (regs : RegisterAccess → UInt32) (a : FecAccesses)
    (s : FecStatistics) : FecStatistics where
  correctedBits := s.correctedBits.take (regs a.corrBits)
  uncorrectedCw := s.uncorrectedCw.take (regs a.uncorrected)
  fecLoad := float ((regs a.corrBits).toNat / MAX_EFEC_CORRECTABLE_ONE_SEC * 100)
  prefecBer := float ((a.preErrors regs).toNat / OTU2_LINE_RATE_BIT)
  postfecBer := float ((a.postErrors regs).toNat / OTU2_LINE_RATE_BIT)

/-- A load is 100 at most. -/
def FecStatistics.cap (s : FecStatistics) : FecStatistics :=
  if floatCompareGt s.fecLoad 100 RES then { s with fecLoad := 100 } else s

/-- Ports whose statistics are updated. -/
def FecPort.active (p : FecPort) : Bool :=
  p.rate = PORT_RATE_OTU2 && p.operation = PORT_OPERATION_LINE

/-- `update_port_fec_stats`. -/
def updatePortFecStats (float : ℚ → ℚ) (regs : RegisterAccess → UInt32) (p : FecPort) : FecPort :=
  if p.active then
    { p with fec := (p.accesses.elim p.fec fun a => p.fec.sample float regs a).cap }
  else p

/-- The branch that is taken. -/
def FecPort.branch (p : FecPort) : Option FecAccesses := if p.active then p.accesses else none

/-- What is read. -/
def FecPort.reads (p : FecPort) : List RegisterAccess := p.branch.elim [] FecAccesses.list

/-! ### What the statistics are -/

/-- A register of the line's own brick. -/
def FecPort.Owns (p : FecPort) (a : RegisterAccess) : Prop :=
  (p.index = LN_INDEX_START ∧ ∃ r, a = lnMmap 0 .one r) ∨
    (p.index = LN_INDEX_END ∧ ∃ r, a = lnMmap 1 .two r)

/-- **Sound statistics**: only the own brick is read, and the difference is that of the two
counters, between 0 and what there was in front of the FEC. -/
structure FecSound (regs : RegisterAccess → UInt32) (p : FecPort) : Prop where
  own : ∀ a ∈ p.reads, p.Owns a
  noWrap : ∀ a, p.branch = some a →
    ((a.postErrors regs).toNat : ℤ) = (regs a.bitErrors).toNat - (regs a.corrBits).toNat
  between : ∀ a, p.branch = some a → a.postErrors regs ≤ a.preErrors regs

/-- **The condition**: the port is not the second line, and the first has not corrected more bits
than were wrong. -/
structure FecPort.Fine (regs : RegisterAccess → UInt32) (p : FecPort) : Prop where
  notSecond : p.active = true → p.index ≠ LN_INDEX_END
  covered : p.active = true → p.index = LN_INDEX_START →
    regs (lnMmap 0 .one .fecCorrBits) ≤ regs (lnMmap 0 .one .fecBitErrors)

variable {float : ℚ → ℚ} {regs : RegisterAccess → UInt32} {p : FecPort} {a : FecAccesses}

/-- **The registers that are read** are those that the map of registers has for the update. -/
theorem fecReads_eq {i : Fin INTERFACE_COUNT} (hindex : p.index = UInt32.ofNat i.val)
    (hline : p.operation = PORT_OPERATION_LINE ↔ asClient i = none) :
    p.reads = fecStats i p.rate := by
  have hactive : p.active = true ↔ p.rate = PORT_RATE_OTU2 ∧ asClient i = none := by
    rw [FecPort.active, Bool.and_eq_true, decide_eq_true_iff, decide_eq_true_iff, hline]
  rw [FecPort.reads, FecPort.branch, fecStats, ← hindex]
  by_cases h : p.rate = PORT_RATE_OTU2 ∧ asClient i = none
  · rw [if_pos (hactive.mpr h), if_pos h, FecPort.accesses]
    split
    · rfl
    split <;> rfl
  · rw [if_neg (mt hactive.mp h), if_neg h]
    rfl

/-- The difference of two counters does not wrap as long as the second is not the greater
one. -/
theorem postErrors_toNat (h : regs a.corrBits ≤ regs a.bitErrors) :
    (a.postErrors regs).toNat = (regs a.bitErrors).toNat - (regs a.corrBits).toNat := by
  have hle : (regs a.corrBits).toUInt64 ≤ (regs a.bitErrors).toUInt64 := by
    simpa [UInt64.le_iff_toNat_le, UInt32.le_iff_toNat_le] using h
  rw [FecAccesses.postErrors, UInt64.toNat_sub_of_le _ _ hle]
  simp

/-- **No more errors behind the FEC than in front of it** exactly if it has not corrected more
bits than were wrong. -/
theorem postErrors_le_iff : a.postErrors regs ≤ a.preErrors regs ↔
    regs a.corrBits ≤ regs a.bitErrors := by
  constructor
  · intro h
    by_contra hlt
    have hcorr := (regs a.corrBits).toNat_lt
    have hless : (regs a.bitErrors).toNat < (regs a.corrBits).toNat := by
      simpa [UInt32.le_iff_toNat_le] using hlt
    rw [UInt64.le_iff_toNat_le, FecAccesses.postErrors, FecAccesses.preErrors, UInt64.toNat_sub,
      UInt32.toNat_toUInt64, UInt32.toNat_toUInt64] at h
    omega
  · intro h
    rw [UInt64.le_iff_toNat_le, postErrors_toNat h, FecAccesses.preErrors, UInt32.toNat_toUInt64]
    omega

/-! ### When the statistics are sound -/

/-- The branch of the first line. -/
theorem accesses_start (h : p.index = LN_INDEX_START) :
    p.accesses = some ⟨lnMmap 0 .one .fecCorrBits, lnMmap 0 .one .uncorrected,
      lnMmap 0 .one .fecBitErrors⟩ :=
  if_pos h

/-- The lines are two. -/
theorem lnIndex_ne : LN_INDEX_START ≠ LN_INDEX_END := by decide

/-- A branch is taken for a line. -/
theorem branch_eq_some (h : p.branch = some a) :
    p.active = true ∧ (p.index = LN_INDEX_START ∨ p.index = LN_INDEX_END) := by
  rw [FecPort.branch] at h
  split at h
  · next hactive =>
      rw [FecPort.accesses] at h
      split at h
      · next hstart => exact ⟨hactive, .inl hstart⟩
      split at h
      · next hend => exact ⟨hactive, .inr hend⟩
      · simp at h
  · simp at h

/-- **The second line does not keep to its brick.** -/
theorem not_owns_second (hactive : p.active = true) (hindex : p.index = LN_INDEX_END) :
    ∃ a ∈ p.reads, ¬ p.Owns a := by
  refine ⟨lnMmap 1 .one .fecBitErrors, ?_, ?_⟩
  · rw [FecPort.reads, FecPort.branch, if_pos hactive, FecPort.accesses,
      if_neg (hindex ▸ lnIndex_ne.symm), if_pos hindex]
    simp [FecAccesses.list]
  · rintro (⟨hstart, -⟩ | ⟨-, r, hr⟩)
    · exact lnIndex_ne (hstart.symm.trans hindex)
    · simp [lnMmap] at hr

/-- **When the statistics are sound**: for every port and all that the registers may hold,
exactly if the port is not the second line and the first line's counters are in order. -/
theorem fecSound_iff (regs : RegisterAccess → UInt32) (p : FecPort) :
    FecSound regs p ↔ p.Fine regs := by
  constructor
  · intro h
    constructor
    · intro hactive hindex
      obtain ⟨a, ha, hnot⟩ := not_owns_second hactive hindex
      exact hnot (h.own a ha)
    · intro hactive hindex
      have hbranch : p.branch = p.accesses := by rw [FecPort.branch, if_pos hactive]
      exact postErrors_le_iff.mp (h.between _ (hbranch.trans (accesses_start hindex)))
  · intro h
    have hfirst : ∀ a, p.branch = some a → p.index = LN_INDEX_START ∧
        a = ⟨lnMmap 0 .one .fecCorrBits, lnMmap 0 .one .uncorrected, lnMmap 0 .one .fecBitErrors⟩ ∧
        regs a.corrBits ≤ regs a.bitErrors := by
      intro a ha
      obtain ⟨hactive, hindex⟩ := branch_eq_some ha
      have hstart := hindex.resolve_right (h.notSecond hactive)
      rw [FecPort.branch, if_pos hactive, accesses_start hstart] at ha
      obtain rfl := Option.some.inj ha
      exact ⟨hstart, rfl, h.covered hactive hstart⟩
    constructor
    · intro r hr
      rw [FecPort.reads] at hr
      cases hbranch : p.branch with
      | none => simp [hbranch] at hr
      | some a =>
          obtain ⟨hstart, rfl, -⟩ := hfirst a hbranch
          refine .inl ⟨hstart, ?_⟩
          rw [hbranch] at hr
          simp only [Option.elim_some, FecAccesses.list, List.mem_cons, List.not_mem_nil,
            or_false] at hr
          rcases hr with rfl | rfl | rfl <;> exact ⟨_, rfl⟩
    · intro a ha
      obtain ⟨-, -, hle⟩ := hfirst a ha
      have hnat := UInt32.le_iff_toNat_le.mp hle
      rw [postErrors_toNat hle]
      omega
    · intro a ha
      exact postErrors_le_iff.mpr (hfirst a ha).2.2

/-- **No greater rate behind the FEC than in front of it**: for a conversion that keeps the order,
where the statistics are sound. -/
theorem postfecBer_le (hfloat : Monotone float) (hsound : FecSound regs p)
    (ha : p.branch = some a) :
    (updatePortFecStats float regs p).fec.postfecBer ≤
      (updatePortFecStats float regs p).fec.prefecBer := by
  have hle : ((a.postErrors regs).toNat : ℚ) ≤ (a.preErrors regs).toNat :=
    Nat.cast_le.mpr (UInt64.le_iff_toNat_le.mp (hsound.between a ha))
  have hactive := (branch_eq_some ha).1
  have haccesses : p.accesses = some a := by rwa [FecPort.branch, if_pos hactive] at ha
  have hrate : (0 : ℚ) ≤ OTU2_LINE_RATE_BIT := by norm_num [OTU2_LINE_RATE_BIT]
  rw [updatePortFecStats, if_pos hactive, haccesses, Option.elim_some, FecStatistics.cap]
  split <;> exact hfloat (div_le_div_of_nonneg_right hle hrate)

/-- A line of OTU2. -/
def otu2Line (index : UInt32) : FecPort :=
  ⟨index, PORT_RATE_OTU2, PORT_OPERATION_LINE, ⟨⟨0, 0⟩, ⟨0, 0⟩, 0, 0, 0⟩⟩

/-- **Statistics that are not sound**: the second line reads a register of the other brick, and for
the first line one corrected bit more than were wrong makes 2^64 - 1 of them. -/
theorem fecStatistics_not_sound :
    ¬ FecSound (fun _ => 0) (otu2Line LN_INDEX_END) ∧
      ¬ FecSound (fun a => if a = lnMmap 0 .one .fecCorrBits then 1 else 0)
        (otu2Line LN_INDEX_START) := by
  constructor
  · intro h
    obtain ⟨a, ha, hnot⟩ := not_owns_second (p := otu2Line LN_INDEX_END) rfl rfl
    exact hnot (h.own a ha)
  · intro h
    exact absurd (h.between _ rfl) (by decide)

end Muxponder
