import Mathlib.Data.List.Basic
import Mathlib.Logic.Function.Iterate

/-!
# Cyclic Redundancy Checks

A register of `w` bits that a string of bits is divided into by a polynomial, with the lowest bit
of the register first: the reflected form of the division, which takes the lowest bit of a byte
before the others. The polynomial is written without its leading coefficient, so its highest bit is
that of the constant term.

Shifting the register is linear, so that several bits may be added to it at once, and a byte may be
divided out by a table. It is injective where the constant term is there, so that a change of bits
that the register holds at once is never lost.

## Main results

* `bits_eq_iterate`: a string of bits is added at once, and then shifted out.
* `bits_byteBits`: a byte is divided out by a table.
* `bits_ne_of_burst`, `bits_ne_of_window`: no burst of up to `w` bits goes unnoticed.
-/

namespace Crc

variable {w : ℕ} {poly a b c x y : BitVec w}

/-! ### Shifting -/

/-- The lowest bit of the register is divided out. -/
def shift (poly c : BitVec w) : BitVec w :=
  if c.getLsbD 0 then (c >>> 1) ^^^ poly else c >>> 1

/-- A register whose lowest bit is 0 moves down. -/
theorem shift_of_even (h : c.getLsbD 0 = false) : shift poly c = c >>> 1 := by simp [shift, h]

/-- **Shifting is linear.** -/
theorem shift_xor (a b : BitVec w) : shift poly (a ^^^ b) = shift poly a ^^^ shift poly b := by
  have hcancel : ∀ x y : BitVec w, x ^^^ y = x ^^^ poly ^^^ (y ^^^ poly) := by
    intro x y
    rw [BitVec.xor_assoc x poly, ← BitVec.xor_assoc poly y, BitVec.xor_comm poly y,
      BitVec.xor_assoc y, BitVec.xor_self, BitVec.xor_zero]
  simp only [shift, BitVec.getLsbD_xor, BitVec.ushiftRight_xor_distrib]
  cases a.getLsbD 0 <;> cases b.getLsbD 0
  · rfl
  · exact BitVec.xor_assoc _ _ _
  · simp only [Bool.xor_false, Bool.false_eq_true, if_true, if_false]
    rw [BitVec.xor_assoc, BitVec.xor_comm (b >>> 1), ← BitVec.xor_assoc]
  · exact hcancel _ _

/-- So are several shifts. -/
theorem iterate_shift_xor (n : ℕ) (a b : BitVec w) :
    (shift poly)^[n] (a ^^^ b) = (shift poly)^[n] a ^^^ (shift poly)^[n] b := by
  induction n generalizing a b with
  | zero => rfl
  | succ n ih => rw [Function.iterate_succ_apply, shift_xor, ih]; rfl

/-- Only the register 0 is shifted to 0, where the constant term is there. -/
theorem eq_zero_of_shift (hpoly : poly.msb = true) (h : shift poly c = 0) : c = 0 := by
  cases hlow : c.getLsbD 0 with
  | true =>
      have hmsb : (shift poly c).msb = true := by
        simp [shift, hlow, BitVec.msb_xor, BitVec.msb_ushiftRight, hpoly]
      rw [h, BitVec.ofNat_eq_ofNat, BitVec.msb_zero] at hmsb
      cases hmsb
  | false =>
      rw [shift_of_even hlow] at h
      refine BitVec.eq_of_getLsbD_eq fun i hi => ?_
      cases i with
      | zero => simpa using hlow
      | succ i =>
          have hbit := congrArg (fun x => x.getLsbD i) h
          simpa [Nat.add_comm] using hbit

/-- **Shifting loses nothing**, where the constant term is there. -/
theorem shift_injective (hpoly : poly.msb = true) : Function.Injective (shift poly) := by
  intro a b h
  have hzero : shift poly (a ^^^ b) = 0 := by
    rw [shift_xor, h, BitVec.xor_self]
    rfl
  exact BitVec.xor_eq_zero_iff.mp (eq_zero_of_shift hpoly hzero)

/-- A register whose low bits are 0 only moves down. -/
theorem iterate_shift_low (n : ℕ) (h : ∀ i < n, c.getLsbD i = false) :
    (shift poly)^[n] c = c >>> n := by
  induction n with
  | zero => simp
  | succ n ih =>
      have hlow : (c >>> n).getLsbD 0 = false := by simpa using h n (by omega)
      rw [Function.iterate_succ_apply', ih fun i hi => h i (by omega), shift_of_even hlow,
        ← BitVec.shiftRight_add]

/-- **Several shifts**: those of the low bits, which may be looked up, and the others moved
down. -/
theorem iterate_shift_eq (n : ℕ) (c : BitVec w) :
    (shift poly)^[n] c = (c >>> n) ^^^ (shift poly)^[n] ((c.setWidth n).setWidth w) := by
  have hsplit : c = (c ^^^ (c.setWidth n).setWidth w) ^^^ (c.setWidth n).setWidth w := by
    rw [BitVec.xor_assoc, BitVec.xor_self, BitVec.xor_zero]
  have hlow : ∀ i < n, (c ^^^ (c.setWidth n).setWidth w).getLsbD i = false := by
    intro i hi
    by_cases hw : i < w
    · simp [hi, hw]
    · simp [BitVec.getLsbD_of_ge c i (by omega), hw]
  have hhigh : (c ^^^ (c.setWidth n).setWidth w) >>> n = c >>> n := by
    refine BitVec.eq_of_getLsbD_eq fun i hi => ?_
    simp
  conv => lhs; rw [hsplit]
  rw [iterate_shift_xor, iterate_shift_low n hlow, hhigh]

/-! ### Strings of bits -/

/-- A bit is added to the lowest bit of the register, which is then divided out. -/
def bit (poly c : BitVec w) (b : Bool) : BitVec w := shift poly (c ^^^ (BitVec.ofBool b).setWidth w)

/-- The register behind a string of bits. -/
def bits (poly c : BitVec w) (bs : List Bool) : BitVec w := bs.foldl (bit poly) c

/-- The bits of a register, the lowest first. -/
def ofBits (w : ℕ) : List Bool → BitVec w
  | [] => 0
  | b :: bs => (BitVec.ofBool b).setWidth w ^^^ (ofBits w bs <<< 1)

variable {bs bs' pre post : List Bool}

theorem getLsbD_ofBits (bs : List Bool) (i : ℕ) :
    (ofBits w bs).getLsbD i = (decide (i < w) && bs.getD i false) := by
  induction bs generalizing i with
  | nil => simp [ofBits]
  | cons b bs ih =>
      cases i with
      | zero => simp [ofBits]
      | succ i =>
          have hbit := ih i
          by_cases hw : i + 1 < w
          · simp [ofBits, hw, -BitVec.getLsbD_eq_getElem, hbit, show i < w by omega]
          · simp [ofBits, hw]

/-- A string that the register holds is known by it. -/
theorem ofBits_injective (hlen : bs.length = bs'.length) (hw : bs.length ≤ w)
    (h : ofBits w bs = ofBits w bs') : bs = bs' := by
  refine List.ext_getElem hlen fun i hi hi' => ?_
  have hbit : (ofBits w bs).getLsbD i = (ofBits w bs').getLsbD i := by rw [h]
  rw [getLsbD_ofBits, getLsbD_ofBits, decide_eq_true (Nat.lt_of_lt_of_le hi hw)] at hbit
  simpa [hi, hi'] using hbit

/-- The bits behind the first one wait for a shift. -/
theorem shift_double (h : ∀ i, w ≤ i + 1 → y.getLsbD i = false) : shift poly (y <<< 1) = y := by
  have heven : (y <<< 1).getLsbD 0 = false := by simp
  rw [shift_of_even heven]
  refine BitVec.eq_of_getLsbD_eq fun i hi => ?_
  by_cases hlast : w ≤ i + 1
  · simp [h i hlast, Nat.add_comm 1 i, hlast]
  · simp [Nat.add_comm 1 i, show i + 1 < w by omega, BitVec.getLsbD_eq_getElem hi]

/-- **A string that the register holds** is added at once, and then shifted out. -/
theorem bits_eq_iterate (hw : bs.length ≤ w) :
    bits poly c bs = (shift poly)^[bs.length] (c ^^^ ofBits w bs) := by
  induction bs generalizing c with
  | nil => simp [bits, ofBits]
  | cons b bs ih =>
      rw [List.length_cons] at hw
      have hwait : shift poly (ofBits w bs <<< 1) = ofBits w bs := by
        refine shift_double fun i hi => ?_
        have hbeyond : bs.length ≤ i := by omega
        simp [getLsbD_ofBits, hbeyond]
      have hrest : bits poly (bit poly c b) bs =
          (shift poly)^[bs.length] (bit poly c b ^^^ ofBits w bs) := ih (by omega)
      calc bits poly c (b :: bs) = bits poly (bit poly c b) bs := rfl
        _ = (shift poly)^[bs.length] (bit poly c b ^^^ shift poly (ofBits w bs <<< 1)) := by
          rw [hrest, hwait]
        _ = (shift poly)^[bs.length] (shift poly (c ^^^ ofBits w (b :: bs))) := by
          rw [bit, ← shift_xor, BitVec.xor_assoc, ofBits]
        _ = (shift poly)^[bs.length + 1] (c ^^^ ofBits w (b :: bs)) :=
          (Function.iterate_succ_apply ..).symm

theorem bits_append : bits poly c (bs ++ bs') = bits poly (bits poly c bs) bs' :=
  List.foldl_append

/-- A string of bits loses nothing of the register. -/
theorem bits_injective (hpoly : poly.msb = true) (bs : List Bool) :
    Function.Injective fun c => bits poly c bs := by
  induction bs with
  | nil => exact fun a b h => h
  | cons b bs ih =>
      intro x y h
      have hbit : bit poly x b = bit poly y b := ih h
      exact (BitVec.xor_left_inj _).mp (shift_injective hpoly hbit)

/-- **No burst goes unnoticed** that the register holds: strings that differ, but only within a
window of its width, have different registers. -/
theorem bits_ne_of_burst (hpoly : poly.msb = true) (hlen : bs.length = bs'.length)
    (hw : bs.length ≤ w) (hne : bs ≠ bs') :
    bits poly c (pre ++ bs ++ post) ≠ bits poly c (pre ++ bs' ++ post) := by
  intro h
  rw [bits_append, bits_append, bits_append, bits_append] at h
  have hwindow : bits poly (bits poly c pre) bs = bits poly (bits poly c pre) bs' :=
    bits_injective hpoly post h
  rw [bits_eq_iterate hw, bits_eq_iterate (hlen ▸ hw : bs'.length ≤ w), ← hlen] at hwindow
  have hsum := (shift_injective hpoly).iterate _ hwindow
  exact hne (ofBits_injective hlen hw ((BitVec.xor_right_inj _).mp hsum))

/-- The same, where the strings are the same outside of the window. -/
theorem bits_ne_of_window (hpoly : poly.msb = true) (hlen : bs.length = bs'.length) (hne : bs ≠ bs')
    {start : ℕ} (hsame : ∀ k, k < start ∨ start + w ≤ k → bs[k]? = bs'[k]?) :
    bits poly c bs ≠ bits poly c bs' := by
  have hsplit : ∀ bs : List Bool,
      bs = bs.take start ++ (bs.drop start).take w ++ bs.drop (start + w) := by
    intro bs
    rw [List.append_assoc, ← List.drop_drop, List.take_append_drop, List.take_append_drop]
  have hpre : bs'.take start = bs.take start := by
    refine List.ext_getElem? fun k => ?_
    rw [List.getElem?_take, List.getElem?_take]
    split
    next hk => exact (hsame k (.inl hk)).symm
    next => rfl
  have hpost : bs'.drop (start + w) = bs.drop (start + w) := by
    refine List.ext_getElem? fun k => ?_
    rw [List.getElem?_drop, List.getElem?_drop]
    exact (hsame _ (.inr (Nat.le_add_right _ _))).symm
  have hdiffer : (bs.drop start).take w ≠ (bs'.drop start).take w := by
    intro h
    exact hne (by rw [hsplit bs, hsplit bs', hpre, hpost, h])
  rw [hsplit bs, hsplit bs', hpre, hpost]
  refine bits_ne_of_burst hpoly ?_ (List.length_take_le _ _) hdiffer
  simp [hlen]

/-! ### Bytes -/

/-- The bits of a byte, the lowest first. -/
def byteBits (m : UInt8) : List Bool := (List.range 8).map m.toBitVec.getLsbD

/-- The bits of a string of bytes. -/
def messageBits (buf : List UInt8) : List Bool := buf.flatMap byteBits

/-- **The remainder of a message**, bit by bit. -/
def remainder (poly init : BitVec w) (buf : List UInt8) : BitVec w :=
  bits poly init (messageBits buf)

/-- The register behind a byte. -/
def byte (poly c : BitVec w) (m : UInt8) : BitVec w :=
  (shift poly)^[8] (c ^^^ m.toBitVec.setWidth w)

variable {buf buf' : List UInt8} {m m' : UInt8}

/-- A byte is known by its bits. -/
theorem byteBits_injective (h : byteBits m = byteBits m') : m = m' := by
  apply UInt8.toBitVec_inj.mp
  refine BitVec.eq_of_getLsbD_eq fun i hi => ?_
  exact List.map_inj_left.mp h i (List.mem_range.mpr hi)

/-- A message is known by its bits. -/
theorem messageBits_injective (h : messageBits buf = messageBits buf') : buf = buf' := by
  induction buf generalizing buf' with
  | nil =>
      cases buf' with
      | nil => rfl
      | cons m' buf' => cases h
  | cons m buf ih =>
      cases buf' with
      | nil => cases h
      | cons m' buf' =>
          obtain ⟨hfirst, hrest⟩ := List.append_inj h rfl
          rw [byteBits_injective hfirst, ih hrest]

theorem messageBits_length (buf : List UInt8) : (messageBits buf).length = 8 * buf.length := by
  induction buf with
  | nil => rfl
  | cons m buf ih =>
      have hcons : messageBits (m :: buf) = byteBits m ++ messageBits buf := rfl
      rw [hcons, List.length_append, ih, List.length_cons, byteBits, List.length_map,
        List.length_range]
      omega

theorem ofBits_byteBits (m : UInt8) : ofBits w (byteBits m) = m.toBitVec.setWidth w := by
  refine BitVec.eq_of_getLsbD_eq fun i hi => ?_
  rw [getLsbD_ofBits, BitVec.getLsbD_setWidth, byteBits, List.getD_eq_getElem?_getD,
    List.getElem?_map]
  by_cases h8 : i < 8
  · rw [List.getElem?_range h8]
    rfl
  · rw [List.getElem?_eq_none (by simpa using h8), BitVec.getLsbD_of_ge _ _ (by omega)]
    rfl

/-- A byte is added at once. -/
theorem bits_byteBits (hw : 8 ≤ w) (m : UInt8) : bits poly c (byteBits m) = byte poly c m := by
  have hlen : (byteBits m).length = 8 := rfl
  rw [bits_eq_iterate (by omega), hlen, ofBits_byteBits, byte]

/-- **A message is divided byte by byte.** -/
theorem remainder_eq_foldl (hw : 8 ≤ w) (c : BitVec w) (buf : List UInt8) :
    remainder poly c buf = buf.foldl (byte poly) c := by
  rw [remainder, messageBits]
  induction buf generalizing c with
  | nil => rfl
  | cons m buf ih => rw [List.flatMap_cons, bits_append, bits_byteBits hw, ih, List.foldl_cons]

/-- **A byte is divided out by a table** of what is left of each byte. -/
theorem byte_eq_table {table : UInt8 → BitVec w} (hw : 8 ≤ w)
    (htable : ∀ m, table m = (shift poly)^[8] (m.toBitVec.setWidth w)) (c : BitVec w) (m : UInt8) :
    byte poly c m = (c >>> 8) ^^^ table ⟨c.setWidth 8 ^^^ m.toBitVec⟩ := by
  have hhigh : (c ^^^ m.toBitVec.setWidth w) >>> 8 = c >>> 8 := by
    refine BitVec.eq_of_getLsbD_eq fun i hi => ?_
    simp
  have hlow : (c ^^^ m.toBitVec.setWidth w).setWidth 8 = c.setWidth 8 ^^^ m.toBitVec := by
    rw [BitVec.setWidth_xor, BitVec.setWidth_setWidth_of_le _ hw, BitVec.setWidth_eq]
  rw [byte, iterate_shift_eq, hhigh, hlow, htable]

end Crc
