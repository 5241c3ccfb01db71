import Muxponder.Lib.NorFlash

/-!
# Writing to a NOR Flash

A driver writes data over whatever a flash holds: word by word over erased bytes, and sector by
sector over others, where it erases each sector first and leaves those alone that hold the data
already. `Programs` and `Rewrites` say that a list of operations does so. The operations are carried
out one after the other up to the first that the device does not acknowledge, and a power cut may
come between any two of them or during one.

## Main results

* `Programs.run_eq`: operations that program data in order are one operation.
* `Rewrites.run_eq`: what a flash holds behind data that was written over it, byte by byte.
* `Programs.cutShort`: behind a power cut the data are programmed up to some place.
* `Programs.whole_of_tail`: they are whole where their end is there.
-/

namespace NorFlash

variable {size width : ℕ} {c c' : Contents} {o i n a : ℕ} {d d' data rest : List UInt8} {op : Op}
  {ops ops' : List Op}

/-- The bytes at an address. -/
def bytesAt (c : Contents) (o n : ℕ) : List UInt8 := (List.range n).map fun i => c (o + i)

@[simp] theorem length_bytesAt : (bytesAt c o n).length = n := by simp [bytesAt]

/-- A byte that is read. -/
theorem getD_bytesAt (hi : i < n) : (bytesAt c o n).getD i 0xFF = c (o + i) := by
  simp [bytesAt, hi]

/-- Data are read where each of their bytes is. -/
theorem bytesAt_eq_iff : bytesAt c o d.length = d ↔ ∀ i < d.length, c (o + i) = d.getD i 0xFF := by
  constructor
  · intro h i hi
    rw [← getD_bytesAt (c := c) (o := o) hi, h]
  · intro h
    refine List.ext_getElem length_bytesAt fun i h1 h2 => ?_
    rw [← List.getD_eq_getElem _ 0xFF h1, ← List.getD_eq_getElem _ 0xFF h2, getD_bytesAt h2, h i h2]

/-! ### Programming in order -/

/-- Programming the bytes that are there around the data is programming the data. -/
theorem apply_preserving (p q : ℕ) :
    (Op.program o (bytesAt c o p ++ (d ++ bytesAt c (o + p + d.length) q))).apply size c =
      (Op.program (o + p) d).apply size c := by
  funext a
  simp only [Op.apply, List.length_append, length_bytesAt]
  rcases Nat.lt_or_ge a o with hlo | hlo
  · rw [if_neg (by omega), if_neg (by omega)]
  obtain ⟨i, rfl⟩ := Nat.exists_eq_add_of_le hlo
  rw [Nat.add_sub_cancel_left]
  rcases Nat.lt_or_ge i p with hp | hp
  · rw [if_pos (by omega), if_neg (by omega), List.getD_append _ _ _ _ (by simpa using hp),
      getD_bytesAt hp, UInt8.and_self]
  obtain ⟨j, rfl⟩ := Nat.exists_eq_add_of_le hp
  have hright : (bytesAt c o p ++ (d ++ bytesAt c (o + p + d.length) q)).getD (p + j) 0xFF =
      (d ++ bytesAt c (o + p + d.length) q).getD j 0xFF := by
    rw [List.getD_append_right _ _ _ _ (by simp), length_bytesAt, Nat.add_sub_cancel_left]
  rw [hright]
  rcases Nat.lt_or_ge j d.length with hj | hj
  · rw [if_pos (by omega), if_pos (by omega), List.getD_append _ _ _ _ hj]
    congr 2
    omega
  obtain ⟨k, rfl⟩ := Nat.exists_eq_add_of_le hj
  rw [if_neg (by omega : ¬ (o + p ≤ o + (p + (d.length + k)) ∧ _))]
  rcases Nat.lt_or_ge k q with hk | hk
  · rw [if_pos (by omega), List.getD_append_right _ _ _ _ (by omega), Nat.add_sub_cancel_left,
      getD_bytesAt hk, ← Nat.add_assoc, ← Nat.add_assoc, UInt8.and_self]
  · rw [if_neg (by omega)]

/-- Programming data and then what stands behind them is programming both. -/
theorem apply_program_append :
    (Op.program (o + d.length) d').apply size ((Op.program o d).apply size c) =
      (Op.program o (d ++ d')).apply size c := by
  funext a
  simp only [Op.apply, List.length_append]
  rcases Nat.lt_or_ge a o with hlo | hlo
  · rw [if_neg (by omega), if_neg (by omega), if_neg (by omega)]
  obtain ⟨i, rfl⟩ := Nat.exists_eq_add_of_le hlo
  rw [Nat.add_sub_cancel_left]
  rcases Nat.lt_or_ge i d.length with hi | hi
  · rw [if_neg (by omega), if_pos (by omega), if_pos (by omega), List.getD_append _ _ _ _ hi]
  · have hin : (o + d.length ≤ o + i ∧ o + i < o + d.length + d'.length) ↔
        (o ≤ o + i ∧ o + i < o + (d.length + d'.length)) := by omega
    rw [if_neg (by omega : ¬ (o ≤ o + i ∧ o + i < o + d.length)),
      List.getD_append_right _ _ _ _ hi]
    simp only [hin]
    congr 3
    omega

/-- Programming nothing. -/
@[simp] theorem apply_program_nil : (Op.program o []).apply size c = c := by
  funext a
  exact apply_untouched fun h => by simp only [Op.touches, List.length_nil] at h; omega

/-- Operations that program data from an address on, in order: each a part of at most `width` bytes,
and around it what is there. -/
inductive Programs (size width : ℕ) : Contents → ℕ → List UInt8 → List Op → Prop
  | nil {c : Contents} {o : ℕ} : Programs size width c o [] []
  | cons {c : Contents} {o p q : ℕ} {d rest : List UInt8} {ops : List Op} : d ≠ [] →
      d.length ≤ width → p ≤ o →
      Programs size width ((Op.program o d).apply size c) (o + d.length) rest ops →
      Programs size width c o (d ++ rest)
        (.program (o - p) (bytesAt c (o - p) p ++ (d ++ bytesAt c (o + d.length) q)) :: ops)

/-- The first of them. -/
theorem apply_first {p q : ℕ} (hp : p ≤ o) :
    (Op.program (o - p) (bytesAt c (o - p) p ++ (d ++ bytesAt c (o + d.length) q))).apply size c =
      (Op.program o d).apply size c := by
  have h := @apply_preserving size c (o - p) d p q
  rwa [Nat.sub_add_cancel hp] at h

/-- **They are one operation.** -/
theorem Programs.run_eq (h : Programs size width c o data ops) :
    run size ops c = (Op.program o data).apply size c := by
  induction h with
  | nil => rw [run_nil, apply_program_nil]
  | cons hd hw hp _ ih => rw [run_cons, apply_first hp, ih, apply_program_append]

/-- Parts behind each other. -/
theorem Programs.append (h : Programs size width c o data ops)
    (h' : Programs size width ((Op.program o data).apply size c) (o + data.length) rest ops') :
    Programs size width c o (data ++ rest) (ops ++ ops') := by
  induction h with
  | nil => simpa using h'
  | @cons c o p q d data ops hd hw hp _ ih =>
      rw [List.append_assoc]
      refine .cons hd hw hp (ih ?_)
      rwa [apply_program_append, Nat.add_assoc, ← List.length_append]

/-! ### Power cuts -/

/-- What an operation may leave that is not carried out to its end: of the bits that programming
clears any, and in a sector that is erased anything. -/
def Op.Partly (size : ℕ) (c c' : Contents) : Op → Prop
  | .program addr data => ∀ a, ∃ mask,
      c' a = c a &&& ((Op.program addr data).apply size c a ||| mask)
  | .eraseSector addr => ∀ a, ¬ (Op.eraseSector addr).touches size a → c' a = c a

/-- Programming, not erasing. -/
def Op.IsProgram : Op → Prop
  | .program _ _ => True
  | .eraseSector _ => False

/-- What a list of operations may leave behind a power cut, between two of them or during one that
`P` allows. -/
def CutShort (size : ℕ) (P : Op → Prop) : List Op → Contents → Contents → Prop
  | [], c, c' => c' = c
  | op :: ops, c, c' =>
      c' = c ∨ (P op ∧ op.Partly size c c') ∨ CutShort size P ops (op.apply size c) c'

variable {P : Op → Prop}

/-- Masking a byte with more than its bits. -/
theorem and_or_self (x mask : UInt8) : x &&& (x ||| mask) = x := by
  apply UInt8.toBitVec_inj.mp
  rw [UInt8.toBitVec_and, UInt8.toBitVec_or]
  ext k hk
  simp only [BitVec.getElem_and, BitVec.getElem_or]
  cases x.toBitVec[k] <;> simp

/-- Half an operation changes nothing but what the whole one does. -/
theorem Op.Partly.untouched (h : op.Partly size c c') (ha : ¬ op.touches size a) : c' a = c a := by
  cases op with
  | program addr data =>
      obtain ⟨mask, hmask⟩ := h a
      rw [hmask, apply_untouched ha, and_or_self]
  | eraseSector addr => exact h a ha

/-- Programming half of some data changes no byte but those that the data change. -/
theorem Op.Partly.of_program (h : (Op.program o d).Partly size c c')
    (ha : (Op.program o d).apply size c a = c a) : c' a = c a := by
  obtain ⟨mask, hmask⟩ := h a
  rw [hmask, ha, and_or_self]

/-- A power cut changes nothing but what the operations touch. -/
theorem CutShort.untouched (h : CutShort size P ops c c') (ha : ∀ op ∈ ops, ¬ op.touches size a) :
    c' a = c a := by
  induction ops generalizing c with
  | nil => exact congrFun h a
  | cons op ops ih =>
      obtain ⟨hop, hops⟩ := List.forall_mem_cons.mp ha
      rcases h with rfl | ⟨-, hpart⟩ | h
      · rfl
      · exact hpart.untouched hop
      · rw [ih h hops, apply_untouched hop]

/-- A power cut during one list of operations or during the next. -/
theorem CutShort.append (h : CutShort size P (ops ++ ops') c c') :
    CutShort size P ops c c' ∨ CutShort size P ops' (run size ops c) c' := by
  induction ops generalizing c with
  | nil => exact .inr h
  | cons op ops ih =>
      rcases h with h | h | h
      · exact .inl (.inl h)
      · exact .inl (.inr (.inl h))
      · exact (ih h).imp_left fun h => .inr (.inr h)

/-- A power cut in front of everything. -/
theorem CutShort.start : CutShort size P ops c c := by
  cases ops with
  | nil => rfl
  | cons op ops => exact .inl rfl

/-- Without a power cut all operations are done. -/
theorem CutShort.run : CutShort size P ops c (run size ops c) := by
  induction ops generalizing c with
  | nil => rfl
  | cons op ops ih => exact .inr (.inr ih)

/-- **A power cut leaves data programmed up to some place**, but for a part that may be anything. -/
theorem Programs.cutShort (h : Programs size width c o data ops) (hcut : CutShort size P ops c c') :
    c' = (Op.program o data).apply size c ∨ ∃ d₁ d₂ d₃, data = d₁ ++ (d₂ ++ d₃) ∧
      0 < d₂.length ∧ d₂.length ≤ width ∧
      ∀ a, ¬ (o + d₁.length ≤ a ∧ a < o + d₁.length + d₂.length) →
        c' a = (Op.program o d₁).apply size c a := by
  induction h with
  | nil =>
      obtain rfl : c' = _ := hcut
      exact .inl apply_program_nil.symm
  | @cons c o p q d rest ops hd hw hp _ ih =>
      rcases hcut with rfl | ⟨-, hpart⟩ | hcut
      · exact .inr ⟨[], d, rest, rfl, List.length_pos_iff.mpr hd, hw,
          fun a _ => by rw [apply_program_nil]⟩
      · refine .inr ⟨[], d, rest, rfl, List.length_pos_iff.mpr hd, hw, fun a ha => ?_⟩
        rw [apply_program_nil]
        refine hpart.of_program ?_
        rw [apply_first hp]
        exact apply_untouched ha
      · rw [apply_first hp] at hcut
        rcases ih hcut with rfl | ⟨d₁, d₂, d₃, rfl, hd₂, hw₂, hout⟩
        · exact .inl apply_program_append
        · refine .inr ⟨d ++ d₁, d₂, d₃, by rw [List.append_assoc], hd₂, hw₂, fun a ha => ?_⟩
          rw [← apply_program_append]
          refine hout a ?_
          rwa [List.length_append, ← Nat.add_assoc] at ha

/-- **Data whose end is there are whole**: where the flash was erased, and the last bytes of the
data, as many as are programmed at once, read back behind a power cut, all of them do. -/
theorem Programs.whole_of_tail {k : ℕ} (h : Programs size width c o data ops)
    (hcut : CutShort size P ops c c') (herased : ∀ i < data.length, c (o + i) = 0xFF)
    (hk : width ≤ k) (hlast : data.getD (data.length - 1) 0xFF ≠ 0xFF)
    (htail : ∀ i < data.length, data.length ≤ i + k → c' (o + i) = data.getD i 0xFF) :
    bytesAt c' o data.length = data := by
  rw [bytesAt_eq_iff]
  rcases h.cutShort hcut with rfl | ⟨d₁, d₂, d₃, hsplit, hpos, hwidth, hout⟩
  · intro i hi
    rw [apply_program hi, herased i hi, erased_and]
  have hparts : data.length = d₁.length + (d₂.length + d₃.length) := by
    rw [hsplit, List.length_append, List.length_append]
  have hnone : d₃.length = 0 := by
    -- else the last byte is erased
    by_contra hne
    have hbehind : ¬ (Op.program o d₁).touches size (o + (data.length - 1)) := by
      rintro ⟨-, h⟩
      omega
    have hread := htail (data.length - 1) (by omega) (by omega)
    rw [hout _ (by omega), apply_untouched hbehind, herased _ (by omega)] at hread
    exact hlast hread.symm
  intro i hi
  rcases Nat.lt_or_ge i d₁.length with hfront | hback
  · rw [hout _ (by omega), apply_program hfront, herased i hi, erased_and, hsplit,
      List.getD_append _ _ _ _ hfront]
  · exact htail i hi (by omega)

/-! ### Writing over sectors -/

/-- Operations that write data over what a flash holds, sector by sector: a sector whose part of the
data is there is left alone, any other is erased first. -/
inductive Rewrites (size width : ℕ) : Contents → ℕ → List UInt8 → List Op → Prop
  | nil {c : Contents} {o : ℕ} : Rewrites size width c o [] []
  | keep {c : Contents} {o : ℕ} {d rest : List UInt8} {ops : List Op} :
      (∀ i < d.length, (o + i) / size = o / size) → bytesAt c o d.length = d →
      (rest ≠ [] → (o + d.length) / size ≠ o / size) →
      Rewrites size width c (o + d.length) rest ops → Rewrites size width c o (d ++ rest) ops
  | write {c : Contents} {o b : ℕ} {d rest : List UInt8} {ops ops' : List Op} :
      (∀ i < d.length, (o + i) / size = o / size) → bytesAt c o d.length ≠ d →
      (rest ≠ [] → (o + d.length) / size ≠ o / size) → b / size = o / size →
      Programs size width ((Op.eraseSector b).apply size c) o d ops →
      Rewrites size width (run size (.eraseSector b :: ops) c) (o + d.length) rest ops' →
      Rewrites size width c o (d ++ rest) (.eraseSector b :: ops ++ ops')

/-- Some of the data in the sector of an address are not there yet. -/
def Differs (size : ℕ) (c : Contents) (o : ℕ) (data : List UInt8) (a : ℕ) : Prop :=
  ∃ i < data.length, (o + i) / size = a / size ∧ c (o + i) ≠ data.getD i 0xFF

/-- **What a flash holds that data were written over**: the data, nothing around them in the sectors
that had to be erased, and in the others what it held. -/
structure Rewritten (size : ℕ) (c : Contents) (o : ℕ) (data : List UInt8) (c' : Contents) :
    Prop where
  written : ∀ i < data.length, c' (o + i) = data.getD i 0xFF
  erased : ∀ a, ¬ (o ≤ a ∧ a < o + data.length) → Differs size c o data a → c' a = 0xFF
  kept : ∀ a, ¬ (o ≤ a ∧ a < o + data.length) → ¬ Differs size c o data a → c' a = c a

/-- What stands behind the data of a sector is in later ones. -/
theorem later_sector (h : rest ≠ [] → (o + d.length) / size ≠ o / size) {j : ℕ}
    (hj : j < rest.length) : (o + d.length + j) / size ≠ o / size := by
  have hrest : rest ≠ [] := by
    rintro rfl
    simp at hj
  have hmono : o / size ≤ (o + d.length) / size := Nat.div_le_div_right (by omega)
  have hmono' : (o + d.length) / size ≤ (o + d.length + j) / size :=
    Nat.div_le_div_right (by omega)
  have hne := h hrest
  omega

/-- Data that differ in some place differ in their first part or behind it. -/
theorem differs_append : Differs size c o (d ++ rest) a ↔
    Differs size c o d a ∨ Differs size c (o + d.length) rest a := by
  constructor
  · rintro ⟨i, hi, hsector, hne⟩
    rcases Nat.lt_or_ge i d.length with hlt | hge
    · rw [List.getD_append _ _ _ _ hlt] at hne
      exact .inl ⟨i, hlt, hsector, hne⟩
    · obtain ⟨j, rfl⟩ := Nat.exists_eq_add_of_le hge
      rw [List.getD_append_right _ _ _ _ (by omega), Nat.add_sub_cancel_left,
        ← Nat.add_assoc] at hne
      rw [List.length_append] at hi
      exact .inr ⟨j, by omega, by rwa [Nat.add_assoc], hne⟩
  · rintro (⟨i, hi, hsector, hne⟩ | ⟨j, hj, hsector, hne⟩)
    · refine ⟨i, by rw [List.length_append]; omega, hsector, ?_⟩
      rwa [List.getD_append _ _ _ _ hi]
    · refine ⟨d.length + j, by rw [List.length_append]; omega, by rwa [← Nat.add_assoc], ?_⟩
      rwa [List.getD_append_right _ _ _ _ (by omega), Nat.add_sub_cancel_left, ← Nat.add_assoc]

/-- What is written behind a first part: the part stays what it is in its sector. -/
theorem rewritten_append {c₁ : Contents} (hone : ∀ i < d.length, (o + i) / size = o / size)
    (hlater : rest ≠ [] → (o + d.length) / size ≠ o / size)
    (hfirst : Rewritten size c o d c₁) (hrest : Rewritten size c₁ (o + d.length) rest c') :
    Rewritten size c o (d ++ rest) c' := by
  -- the rest leaves the sector of the first part alone, and the other way round
  have hno : ∀ x a, a / size = o / size → ¬ Differs size x (o + d.length) rest a := by
    rintro x a ha ⟨j, hj, hsector, -⟩
    exact later_sector hlater hj (hsector.trans ha)
  have hsame : ∀ {x}, x / size ≠ o / size → c₁ x = c x := by
    intro x hx
    refine hfirst.kept x ?_ ?_
    · rintro ⟨h1, h2⟩
      obtain ⟨i, rfl⟩ := Nat.exists_eq_add_of_le h1
      exact hx (hone i (by omega))
    · rintro ⟨i, hi, hsector, -⟩
      exact hx (hsector.symm.trans (hone i hi))
  have hdiffers : ∀ x, Differs size c₁ (o + d.length) rest x ↔
      Differs size c (o + d.length) rest x := by
    intro x
    refine exists_congr fun j => and_congr_right fun hj => and_congr_right fun _ => ?_
    rw [hsame (later_sector hlater hj)]
  refine ⟨fun i hi => ?_, fun a ha hd => ?_, fun a ha hd => ?_⟩
  · rcases Nat.lt_or_ge i d.length with hlt | hge
    · rw [List.getD_append _ _ _ _ hlt, ← hfirst.written i hlt]
      exact hrest.kept _ (by omega) (hno _ _ (hone i hlt))
    · obtain ⟨j, rfl⟩ := Nat.exists_eq_add_of_le hge
      rw [List.length_append] at hi
      rw [List.getD_append_right _ _ _ _ (by omega), Nat.add_sub_cancel_left, ← Nat.add_assoc]
      exact hrest.written j (by omega)
  · rw [List.length_append] at ha
    rcases differs_append.mp hd with hd | hd
    · have hsector : a / size = o / size := by
        obtain ⟨i, hi, hsector, -⟩ := hd
        exact hsector.symm.trans (hone i hi)
      rw [hrest.kept a (by omega) (hno _ _ hsector)]
      exact hfirst.erased a (by omega) hd
    · exact hrest.erased a (by omega) ((hdiffers a).mpr hd)
  · rw [List.length_append] at ha
    rw [differs_append, not_or] at hd
    rw [hrest.kept a (by omega) (mt (hdiffers a).mp hd.2), hfirst.kept a (by omega) hd.1]

/-- Data that are there already. -/
theorem rewritten_self (h : bytesAt c o d.length = d) : Rewritten size c o d c := by
  rw [bytesAt_eq_iff] at h
  refine ⟨h, ?_, fun a _ _ => rfl⟩
  rintro a - ⟨i, hi, -, hne⟩
  exact absurd (h i hi) hne

/-- Data that are programmed in a sector that has been erased. -/
theorem rewritten_sector {b : ℕ} (hone : ∀ i < d.length, (o + i) / size = o / size)
    (hne : bytesAt c o d.length ≠ d) (hb : b / size = o / size) :
    Rewritten size c o d ((Op.program o d).apply size ((Op.eraseSector b).apply size c)) := by
  have hdiffers : ∃ i < d.length, c (o + i) ≠ d.getD i 0xFF := by
    by_contra hno
    push Not at hno
    exact hne (bytesAt_eq_iff.mpr hno)
  refine ⟨fun i hi => ?_, fun a ha hd => ?_, fun a ha hd => ?_⟩
  · rw [apply_program hi, apply_eraseSector ((hone i hi).trans hb.symm), erased_and]
  · obtain ⟨i, hi, hsector, -⟩ := hd
    have hprogram : (Op.program o d).apply size ((Op.eraseSector b).apply size c) a =
        (Op.eraseSector b).apply size c a := apply_untouched ha
    rw [hprogram, apply_eraseSector]
    rw [← hsector, hone i hi, hb]
  · have hprogram : (Op.program o d).apply size ((Op.eraseSector b).apply size c) a =
        (Op.eraseSector b).apply size c a := apply_untouched ha
    refine hprogram.trans (apply_untouched fun hsame => hd ?_)
    obtain ⟨i, hi, hne⟩ := hdiffers
    refine ⟨i, hi, ?_, hne⟩
    rw [hone i hi, ← hb]
    exact hsame.symm

/-- **The operations write the data.** -/
theorem Rewrites.run_eq (h : Rewrites size width c o data ops) :
    Rewritten size c o data (run size ops c) := by
  induction h with
  | nil => exact rewritten_self rfl
  | keep hone heq hlater _ ih => exact rewritten_append hone hlater (rewritten_self heq) ih
  | write hone hne hlater hb hprog _ ih =>
      rw [run_append]
      refine rewritten_append hone hlater ?_ ih
      rw [run_cons, hprog.run_eq]
      exact rewritten_sector hone hne hb

/-- Where the data are there nothing is done. -/
theorem Rewrites.eq_nil_iff (h : Rewrites size width c o data ops) :
    ops = [] ↔ bytesAt c o data.length = data := by
  have hnil : ops = [] → bytesAt c o data.length = data := by
    rintro rfl
    exact bytesAt_eq_iff.mpr h.run_eq.written
  refine ⟨hnil, fun hread => ?_⟩
  clear hnil
  rw [bytesAt_eq_iff] at hread
  induction h with
  | nil => rfl
  | @keep c o d rest ops hone heq hlater _ ih =>
      refine ih fun i hi => ?_
      have hbyte := hread (d.length + i) (by rw [List.length_append]; omega)
      rwa [List.getD_append_right _ _ _ _ (by omega), Nat.add_sub_cancel_left,
        ← Nat.add_assoc] at hbyte
  | @write c o b d rest ops ops' hone hne hlater hb _ _ ih =>
      refine absurd (bytesAt_eq_iff.mpr fun i hi => ?_) hne
      have hbyte := hread i (by rw [List.length_append]; omega)
      rwa [List.getD_append _ _ _ _ hi] at hbyte

/-- **A power cut leaves the other sectors alone.** -/
theorem Rewrites.cutShort_frame (h : Rewrites size width c o data ops)
    (hcut : CutShort size P ops c c') (ha : ∀ i < data.length, (o + i) / size ≠ a / size) :
    c' a = c a := by
  induction h with
  | nil => exact congrFun hcut a
  | @keep c o d rest ops hone heq hlater _ ih =>
      refine ih hcut fun j hj => ?_
      rw [Nat.add_assoc]
      exact ha (d.length + j) (by rw [List.length_append]; omega)
  | @write c o b d rest ops ops' hone hne hlater hb hprog _ ih =>
      have hpos : 0 < d.length := by
        by_contra h0
        refine hne ?_
        obtain rfl : d = [] := List.length_eq_zero_iff.mp (by omega)
        rfl
      have hd : ∀ i < d.length, o + i ≠ a := by
        rintro i hi rfl
        exact ha i (by rw [List.length_append]; omega) rfl
      have herase : ¬ (Op.eraseSector b).touches size a := by
        intro hsame
        exact ha 0 (by rw [List.length_append]; omega) (hb.symm.trans hsame.symm)
      have hprogram : ∀ d₁ x, d₁.length ≤ d.length →
          (Op.program o d₁).apply size x a = x a := by
        intro d₁ x hlen
        refine apply_untouched ?_
        rintro ⟨h1, h2⟩
        obtain ⟨i, rfl⟩ := Nat.exists_eq_add_of_le h1
        exact hd i (by omega) rfl
      rcases hcut.append with hcut | hcut
      · rcases hcut with rfl | ⟨-, hpart⟩ | hcut
        · rfl
        · exact hpart.untouched herase
        · rw [← apply_untouched (c := c) herase]
          rcases hprog.cutShort hcut with rfl | ⟨d₁, d₂, d₃, rfl, -, -, hout⟩
          · exact hprogram d _ (Nat.le_refl _)
          · simp only [List.length_append] at hd hprogram
            rw [hout a, hprogram d₁ _ (by omega)]
            rintro ⟨h1, h2⟩
            obtain ⟨i, rfl⟩ := Nat.exists_eq_add_of_le h1
            exact hd (d₁.length + i) (by omega) (by omega)
      · rw [ih hcut fun j hj => ?_, run_cons, hprog.run_eq, hprogram d _ (Nat.le_refl _),
          apply_untouched herase]
        rw [Nat.add_assoc]
        exact ha (d.length + j) (by rw [List.length_append]; omega)

/-- Data that lie in one sector are there, or the sector is erased and they are programmed. -/
theorem Rewrites.one_sector (h : Rewrites size width c o data ops)
    (hone : ∀ i < data.length, (o + i) / size = o / size) :
    ops = [] ∨ ∃ b words, ops = .eraseSector b :: words ∧ b / size = o / size ∧
      Programs size width ((Op.eraseSector b).apply size c) o data words := by
  have hlast : ∀ {d rest : List UInt8}, (∀ i < (d ++ rest).length, (o + i) / size = o / size) →
      (rest ≠ [] → (o + d.length) / size ≠ o / size) → rest = [] := by
    intro d rest hone hlater
    by_contra hrest
    refine hlater hrest (hone d.length ?_)
    rw [List.length_append]
    exact Nat.lt_add_of_pos_right (List.length_pos_iff.mpr hrest)
  cases h with
  | nil => exact .inl rfl
  | keep _ heq hlater hrest =>
      obtain rfl := hlast hone hlater
      exact .inl (hrest.eq_nil_iff.mpr rfl)
  | write _ _ hlater hb hprog hrest =>
      obtain rfl := hlast hone hlater
      rw [hrest.eq_nil_iff.mpr rfl, List.append_nil, List.append_nil]
      exact .inr ⟨_, _, rfl, hb, hprog⟩

/-- A power cut during the first operations of a list. -/
theorem CutShort.append_right (h : CutShort size P ops c c') :
    CutShort size P (ops ++ ops') c c' := by
  induction ops generalizing c with
  | nil =>
      obtain rfl : c' = c := h
      exact .start
  | cons op ops ih =>
      rcases h with h | h | h
      · exact .inl h
      · exact .inr (.inl h)
      · exact .inr (.inr (ih h))

end NorFlash
