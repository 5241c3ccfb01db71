import Mathlib.Data.UInt
import Mathlib.Data.List.OfFn
import Mathlib.Logic.Function.Basic
import Mathlib.Data.Nat.ModEq

/-!
# Ring Buffers

A queue in an array of `2 ^ k` elements. Its two indices only ever grow: they count what has
been put and what has been taken, wrap at `2 ^ 32`, and are masked where they meet the array.
The number of queued elements is their difference.

A `RingBuffer` carries that it never holds more than its array, so no index leaves the array
and no element is overwritten before it is taken.

## Main results

* `contents_of_put`, `put_eq_none_iff`: an element is queued behind the others, unless the
  array is full.
* `contents_of_get`, `get_eq_none_iff`: the first element is taken.
* `exists_two_pow`: the test for a power of two that an array length is put to.
-/

/-- A ring buffer of `2 ^ k` elements, with the number of queued elements as `count`. -/
structure RingBuffer (α : Type*) (k : ℕ) where
  buf : Fin (2 ^ k) → α
  count : UInt32
  head : UInt32
  tail : UInt32
  order_lt : k < 32
  fits : (head - tail).toNat ≤ 2 ^ k
  counted : count = head - tail

namespace RingBuffer

variable {α : Type*} {k : ℕ} {rb rb' : RingBuffer α k} {d : α}

/-- The element that an index is masked to. -/
def offset (k : ℕ) (i : UInt32) : Fin (2 ^ k) :=
  ⟨i.toNat &&& (2 ^ k - 1), by
    rw [Nat.and_two_pow_sub_one_eq_mod]
    exact Nat.mod_lt _ (Nat.two_pow_pos k)⟩

/-- The indices are as far apart as the array is long. -/
def full (rb : RingBuffer α k) : Bool := rb.head - rb.tail = UInt32.ofNat (2 ^ k)

/-- The indices have met. -/
def empty (rb : RingBuffer α k) : Bool := rb.head - rb.tail = 0

/-- The queued elements, the oldest one first. -/
def contents (rb : RingBuffer α k) : List α :=
  (List.range (rb.head - rb.tail).toNat).map fun i =>
    rb.buf (offset k (rb.tail + UInt32.ofNat i))

/-- An empty ring buffer over an array. -/
def init (k : ℕ) (hk : k < 32) (buf : Fin (2 ^ k) → α) : RingBuffer α k where
  buf := buf
  count := 0
  head := 0
  tail := 0
  order_lt := hk
  fits := Nat.zero_le _
  counted := (UInt32.sub_self 0).symm

/-! ### Indices -/

/-- The array is shorter than the range of an index. -/
theorem size_lt (rb : RingBuffer α k) : 2 ^ k < 2 ^ 32 :=
  Nat.pow_lt_pow_right (by omega) rb.order_lt

/-- An index is masked to its remainder. -/
theorem offset_val (i : UInt32) : (offset k i).val = i.toNat % 2 ^ k :=
  Nat.and_two_pow_sub_one_eq_mod _ _

/-- Masking does not see where an index wraps. -/
theorem offset_add (hk : k < 32) (i : UInt32) (n : ℕ) :
    (offset k (i + UInt32.ofNat n)).val = (i.toNat + n) % 2 ^ k := by
  have hdvd : 2 ^ k ∣ 2 ^ 32 := Nat.pow_dvd_pow 2 hk.le
  rw [offset_val, UInt32.toNat_add, UInt32.toNat_ofNat', Nat.mod_mod_of_dvd _ hdvd, Nat.add_mod,
    Nat.mod_mod_of_dvd _ hdvd, ← Nat.add_mod]

/-- Indices that are less than an array apart meet different elements. -/
theorem offset_inj (hk : k < 32) {i : UInt32} {m n : ℕ} (hm : m < 2 ^ k) (hn : n < 2 ^ k)
    (h : offset k (i + UInt32.ofNat m) = offset k (i + UInt32.ofNat n)) : m = n := by
  have hval := congrArg Fin.val h
  rw [offset_add hk, offset_add hk] at hval
  have hmod : m ≡ n [MOD 2 ^ k] := Nat.ModEq.add_left_cancel' i.toNat hval
  rwa [Nat.ModEq, Nat.mod_eq_of_lt hm, Nat.mod_eq_of_lt hn] at hmod

/-- The number of queued elements. -/
theorem contents_length : rb.contents.length = (rb.head - rb.tail).toNat := by
  rw [contents, List.length_map, List.length_range]

/-- A ring buffer never holds more than its array. -/
theorem contents_length_le : rb.contents.length ≤ 2 ^ k := contents_length.trans_le rb.fits

/-- The head stands behind the queued elements. -/
theorem head_eq : rb.head = rb.tail + UInt32.ofNat rb.contents.length := by
  rw [contents_length, UInt32.ofNat_toNat, UInt32.add_comm, UInt32.sub_add_cancel]

/-- A ring buffer is full when it holds as much as its array. -/
theorem full_iff : rb.full = true ↔ rb.contents.length = 2 ^ k := by
  have hsize := rb.size_lt
  rw [full, decide_eq_true_eq, contents_length, ← UInt32.toNat_inj,
    UInt32.toNat_ofNat_of_lt' hsize]

/-- It is empty when it holds nothing. -/
theorem empty_iff : rb.empty = true ↔ rb.contents = [] := by
  rw [empty, decide_eq_true_eq, ← List.length_eq_zero_iff, contents_length, ← UInt32.toNat_inj]
  rfl

/-- Nothing is queued at first. -/
@[simp] theorem contents_init {hk : k < 32} {buf : Fin (2 ^ k) → α} :
    (init k hk buf).contents = [] := by simp [contents, init]

/-! ### Putting and getting -/

/-- One more element is behind the indices that are not as far apart as the array is
long. -/
theorem succ_toNat (h : ¬ rb.full = true) :
    (rb.head + 1 - rb.tail).toNat = (rb.head - rb.tail).toNat + 1 := by
  have hsize := rb.size_lt
  have hfits := rb.fits
  have hne : (rb.head - rb.tail).toNat ≠ 2 ^ k := fun heq =>
    h (full_iff.mpr (contents_length.trans heq))
  have hsplit : rb.head + 1 - rb.tail = rb.head - rb.tail + 1 := by grind
  rw [hsplit, UInt32.toNat_add, UInt32.toNat_one, Nat.mod_eq_of_lt (by omega)]

/-- One element less is behind the indices that have not met. -/
theorem pred_toNat (h : ¬ rb.empty = true) :
    (rb.head - (rb.tail + 1)).toNat + 1 = (rb.head - rb.tail).toNat := by
  have hne : (rb.head - rb.tail).toNat ≠ 0 := by
    intro hzero
    refine h (decide_eq_true (UInt32.toNat_inj.mp ?_))
    rw [hzero]
    rfl
  have hle : (1 : UInt32) ≤ rb.head - rb.tail := by
    rw [UInt32.le_iff_toNat_le, UInt32.toNat_one]
    omega
  have hsplit : rb.head - (rb.tail + 1) = rb.head - rb.tail - 1 := by grind
  rw [hsplit, UInt32.toNat_sub_of_le _ _ hle, UInt32.toNat_one]
  omega

/-- Putting an element, unless the array is full. -/
def put (rb : RingBuffer α k) (d : α) : Option (RingBuffer α k) :=
  if h : rb.full = true then none
  else some { rb with
    buf := Function.update rb.buf (offset k rb.head) d
    head := rb.head + 1
    count := rb.count + 1
    fits := by
      have hne : (rb.head - rb.tail).toNat ≠ 2 ^ k := fun heq =>
        h (full_iff.mpr (contents_length.trans heq))
      have hfits := rb.fits
      rw [succ_toNat h]
      omega
    counted := by
      have hcounted := rb.counted
      grind }

/-- Taking the oldest element, unless there is none. -/
def get (rb : RingBuffer α k) : Option (α × RingBuffer α k) :=
  if h : rb.empty = true then none
  else some (rb.buf (offset k rb.tail), { rb with
    tail := rb.tail + 1
    count := rb.count - 1
    fits := by
      have hpred := pred_toNat h
      have hfits := rb.fits
      omega
    counted := by
      have hcounted := rb.counted
      grind })

/-- Nothing is put into a full buffer. -/
theorem put_eq_none_iff : rb.put d = none ↔ rb.full = true := by
  rw [put]
  split
  next h => exact iff_of_true rfl h
  next h => exact iff_of_false (by simp) h

/-- **An element is queued behind the others.** -/
theorem contents_of_put (h : rb.put d = some rb') : rb'.contents = rb.contents ++ [d] := by
  rw [put] at h
  split at h
  · simp at h
  next hfull =>
  obtain rfl := Option.some.inj h
  have hlt : (rb.head - rb.tail).toNat < 2 ^ k := by
    have hfits := rb.fits
    have hne : (rb.head - rb.tail).toNat ≠ 2 ^ k := fun heq =>
      hfull (full_iff.mpr (contents_length.trans heq))
    omega
  have hhead : rb.head = rb.tail + UInt32.ofNat (rb.head - rb.tail).toNat := by
    rw [UInt32.ofNat_toNat, UInt32.add_comm, UInt32.sub_add_cancel]
  rw [contents, contents]
  dsimp only
  rw [succ_toNat hfull, List.range_succ, List.map_append, List.map_singleton, ← hhead,
    Function.update_self]
  refine congrArg (· ++ [d]) (List.map_congr_left fun i hi => ?_)
  -- an older element stays where it is
  have hi : i < (rb.head - rb.tail).toNat := List.mem_range.mp hi
  refine Function.update_of_ne ?_ _ _
  intro heq
  rw [hhead] at heq
  have hsame := offset_inj rb.order_lt (hi.trans hlt) hlt heq
  omega

/-- Nothing is taken from an empty buffer. -/
theorem get_eq_none_iff : rb.get = none ↔ rb.contents = [] := by
  rw [← empty_iff, get]
  split
  next h => exact iff_of_true rfl h
  next h => exact iff_of_false (by simp) h

/-- **The first element is taken.** -/
theorem contents_of_get (h : rb.get = some (d, rb')) : rb.contents = d :: rb'.contents := by
  rw [get] at h
  split at h
  · simp at h
  next hempty =>
  obtain ⟨rfl, rfl⟩ := Prod.mk.inj (Option.some.inj h)
  have hzero : rb.tail + UInt32.ofNat 0 = rb.tail := UInt32.add_zero _
  rw [contents, contents]
  dsimp only
  rw [← pred_toNat hempty, List.range_succ_eq_map, List.map_cons, List.map_map, hzero]
  refine congrArg (_ :: ·) (List.map_congr_left fun i _ => ?_)
  have hnext : rb.tail + UInt32.ofNat (i + 1) = rb.tail + 1 + UInt32.ofNat i := by
    rw [UInt32.ofNat_add, UInt32.add_comm (UInt32.ofNat i), ← UInt32.add_assoc]
    rfl
  rw [Function.comp_apply, hnext]

/-- An element goes into a buffer that is not full. -/
theorem exists_put (h : ¬ rb.full = true) : ∃ rb', rb.put d = some rb' :=
  Option.ne_none_iff_exists'.mp fun hnone => h (put_eq_none_iff.mp hnone)

/-- What a put element changes. -/
theorem put_eq (h : rb.put d = some rb') :
    rb'.buf = Function.update rb.buf (offset k rb.head) d ∧ rb'.head = rb.head + 1 ∧
      rb'.count = rb.count + 1 ∧ rb'.tail = rb.tail := by
  rw [put] at h
  split at h
  · simp at h
  · obtain rfl := Option.some.inj h
    exact ⟨rfl, rfl, rfl, rfl⟩

/-- What is left when an element has been taken. -/
theorem get_eq (h : rb.get = some (d, rb')) :
    d = rb.buf (offset k rb.tail) ∧ rb'.buf = rb.buf ∧ rb'.head = rb.head ∧
      rb'.count = rb.count - 1 ∧ rb'.tail = rb.tail + 1 := by
  rw [get] at h
  split at h
  · simp at h
  · obtain ⟨rfl, rfl⟩ := Prod.mk.inj (Option.some.inj h)
    exact ⟨rfl, rfl, rfl, rfl, rfl⟩

/-- The counter counts the queued elements. -/
theorem count_toNat : rb.count.toNat = rb.contents.length := by
  rw [rb.counted, contents_length]

/-! ### Array lengths -/

/-- The number without a bit in common with its predecessor is a power of two. -/
theorem exists_two_pow {n : ℕ} (hn : n ≠ 0) (h : (n - 1) &&& n = 0) : ∃ k, n = 2 ^ k := by
  refine ⟨n.log2, by_contra fun hne => ?_⟩
  have hle : 2 ^ n.log2 ≤ n := Nat.log2_self_le hn
  have hlt : n < 2 ^ (n.log2 + 1) := Nat.lt_log2_self
  -- otherwise both have the highest bit
  have hbit : ((n - 1) &&& n).testBit n.log2 = true := by
    rw [Nat.testBit_and, Nat.testBit_of_two_pow_le_and_two_pow_add_one_gt hle hlt,
      Nat.testBit_of_two_pow_le_and_two_pow_add_one_gt (by omega) (by omega)]
    rfl
  rw [h, Nat.zero_testBit] at hbit
  exact absurd hbit nofun

end RingBuffer
