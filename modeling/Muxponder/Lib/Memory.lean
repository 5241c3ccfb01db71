import Mathlib.Data.UInt
import Mathlib.Data.List.Basic

/-!
# Byte Memory

A memory of bytes under 32-bit addresses, with the little-endian words and the copies of
strings that C code makes in it. Addresses are offsets from a base around the end of the
memory, so a copy of any length has a meaning.

## Main results

* `load32_store32`, `load64_store64`: a stored word reads back.
* `store32_of_le`, `store64_of_le`: nothing behind a stored word has changed.
* `strncpy_holdsText`: a copied text is held with its terminator.
* `cstr_of_holdsText`: a text that is held reads back.
-/

namespace Memory

/-- A memory of bytes. -/
abbrev Mem := UInt32 → UInt8

variable {m : Mem} {a b : UInt32} {v : UInt32} {s : List UInt8}

/-- The word at an address. -/
def Mem.load32 (m : Mem) (a : UInt32) : UInt32 :=
  UInt32.ofNat ((m a).toNat + 256 * (m (a + 1)).toNat + 65536 * (m (a + 2)).toNat +
    16777216 * (m (a + 3)).toNat)

/-- Storing a byte. -/
def Mem.store8 (m : Mem) (a : UInt32) (v : UInt8) : Mem := fun x => if x = a then v else m x

/-- Storing a word. -/
def Mem.store32 (m : Mem) (a v : UInt32) : Mem := fun x =>
  let k := (x - a).toNat
  if k < 4 then UInt8.ofNat (v.toNat / 256 ^ k) else m x

/-- The double word at an address. -/
def Mem.load64 (m : Mem) (a : UInt32) : UInt64 :=
  UInt64.ofNat ((m.load32 a).toNat + 2 ^ 32 * (m.load32 (a + 4)).toNat)

/-- Storing a double word. -/
def Mem.store64 (m : Mem) (a : UInt32) (v : UInt64) : Mem := fun x =>
  let k := (x - a).toNat
  if k < 8 then UInt8.ofNat (v.toNat / 256 ^ k) else m x

/-- The string in a variable of `n` bytes: what stands in front of its terminator. -/
def Mem.cstr (m : Mem) (a : UInt32) (n : ℕ) : List UInt8 :=
  ((List.range n).map fun k => m (a + UInt32.ofNat k)).takeWhile (· ≠ 0)

/-- `memset(a, 0, n)`. -/
def Mem.clear (m : Mem) (a : UInt32) (n : ℕ) : Mem := fun x =>
  if (x - a).toNat < n then 0 else m x

/-- `strncpy(a, s, n)`: the characters of the string, then zeros. -/
def Mem.strncpy (m : Mem) (a : UInt32) (s : List UInt8) (n : ℕ) : Mem := fun x =>
  let k := (x - a).toNat
  if k < n then (s.takeWhile (· ≠ 0)).getD k 0 else m x

/-- The text that a memory holds at an address, with its terminator. -/
def Mem.HoldsText (m : Mem) (a : UInt32) (s : List UInt8) : Prop :=
  (∀ k, (hk : k < s.length) → m (a + UInt32.ofNat k) = s.get ⟨k, hk⟩) ∧
    m (a + UInt32.ofNat s.length) = 0

/-- The offset of an address behind a base. -/
@[simp] theorem add_ofNat_sub {k : ℕ} (hk : k < 2 ^ 32) :
    (a + UInt32.ofNat k - a).toNat = k := by
  rw [add_sub_cancel_left, UInt32.toNat_ofNat_of_lt' hk]

/-- A byte of a stored word. -/
theorem store32_byte {k : ℕ} (hk : k < 4) :
    m.store32 a v (a + UInt32.ofNat k) = UInt8.ofNat (v.toNat / 256 ^ k) := by
  have hoff : (a + UInt32.ofNat k - a).toNat = k := add_ofNat_sub (by omega)
  simp only [Mem.store32, hoff, if_pos hk]

/-- **A stored word reads back.** -/
theorem load32_store32 : (m.store32 a v).load32 a = v := by
  have h0 : m.store32 a v a = UInt8.ofNat (v.toNat / 256 ^ 0) := by
    simpa using store32_byte (m := m) (a := a) (v := v) (k := 0) (by omega)
  have h1 := store32_byte (m := m) (a := a) (v := v) (k := 1) (by omega)
  have h2 := store32_byte (m := m) (a := a) (v := v) (k := 2) (by omega)
  have h3 := store32_byte (m := m) (a := a) (v := v) (k := 3) (by omega)
  have hv := v.toNat_lt
  rw [Mem.load32, h0]
  change UInt32.ofNat (_ + 256 * (m.store32 a v (a + UInt32.ofNat 1)).toNat +
    65536 * (m.store32 a v (a + UInt32.ofNat 2)).toNat +
    16777216 * (m.store32 a v (a + UInt32.ofNat 3)).toNat) = v
  rw [h1, h2, h3]
  simp only [UInt8.toNat_ofNat']
  apply UInt32.toNat_inj.mp
  rw [UInt32.toNat_ofNat']
  omega

/-- A byte of a stored double word. -/
theorem store64_byte {k : ℕ} {v : UInt64} (hk : k < 8) :
    m.store64 a v (a + UInt32.ofNat k) = UInt8.ofNat (v.toNat / 256 ^ k) := by
  have hoff : (a + UInt32.ofNat k - a).toNat = k := add_ofNat_sub (by omega)
  simp only [Mem.store64, hoff, if_pos hk]

/-- Four bytes of a number make a word. -/
theorem load32_of_bytes {n j : ℕ}
    (h : ∀ k < 4, m (a + UInt32.ofNat k) = UInt8.ofNat (n / 256 ^ (j + k))) :
    (m.load32 a).toNat = n / 256 ^ j % 2 ^ 32 := by
  have h0 : m a = UInt8.ofNat (n / 256 ^ j) := by simpa using h 0 (by omega)
  have h1 : m (a + 1) = UInt8.ofNat (n / 256 ^ (j + 1)) := h 1 (by omega)
  have h2 : m (a + 2) = UInt8.ofNat (n / 256 ^ (j + 2)) := h 2 (by omega)
  have h3 : m (a + 3) = UInt8.ofNat (n / 256 ^ (j + 3)) := h 3 (by omega)
  rw [Mem.load32, h0, h1, h2, h3, UInt32.toNat_ofNat']
  simp only [UInt8.toNat_ofNat', pow_add, ← Nat.div_div_eq_div_mul]
  omega

/-- **A stored double word reads back.** -/
theorem load64_store64 {v : UInt64} : (m.store64 a v).load64 a = v := by
  have hlow := load32_of_bytes (m := m.store64 a v) (a := a) (n := v.toNat) (j := 0)
    fun k hk => by simpa using store64_byte (by omega)
  have hhigh := load32_of_bytes (m := m.store64 a v) (a := a + 4) (n := v.toNat) (j := 4)
    fun k hk => by
      have hadd : a + 4 + UInt32.ofNat k = a + UInt32.ofNat (4 + k) := by
        rw [UInt32.ofNat_add, add_assoc]
        rfl
      rw [hadd]
      exact store64_byte (by omega)
  have hv := v.toNat_lt
  rw [Mem.load64, hlow, hhigh]
  apply UInt64.toNat_inj.mp
  rw [UInt64.toNat_ofNat']
  omega

/-- Storing a word leaves the memory behind it alone. -/
theorem store32_of_le {x : UInt32} (hx : 4 ≤ (x - a).toNat) : m.store32 a v x = m x := by
  simp only [Mem.store32, if_neg (show ¬ (x - a).toNat < 4 by omega)]

/-- Storing a double word leaves the memory behind it alone. -/
theorem store64_of_le {x : UInt32} {v : UInt64} (hx : 8 ≤ (x - a).toNat) :
    m.store64 a v x = m x := by
  simp only [Mem.store64, if_neg (show ¬ (x - a).toNat < 8 by omega)]

/-- A string is no longer than its variable. -/
theorem cstr_length_le (m : Mem) (a : UInt32) (n : ℕ) : (m.cstr a n).length ≤ n := by
  calc (m.cstr a n).length ≤ ((List.range n).map fun k => m (a + UInt32.ofNat k)).length :=
        (List.takeWhile_sublist _).length_le
    _ = n := by rw [List.length_map, List.length_range]

/-- **A copied text is held with its terminator**, whatever follows it in the source. -/
theorem strncpy_holdsText {rest : List UInt8} (h0 : 0 ∉ s) (hlen : s.length < 2 ^ 32) :
    ((m.strncpy a (s ++ rest) s.length).store8 (a + UInt32.ofNat s.length) 0).HoldsText a s := by
  refine ⟨fun k hk => ?_, by simp [Mem.store8]⟩
  have hoff : (a + UInt32.ofNat k - a).toNat = k := add_ofNat_sub (by omega)
  have hne : a + UInt32.ofNat k ≠ a + UInt32.ofNat s.length := by
    intro heq
    have hend : (a + UInt32.ofNat s.length - a).toNat = s.length := add_ofNat_sub hlen
    rw [← heq, hoff] at hend
    omega
  have htake : (s ++ rest).takeWhile (· ≠ 0) = s ++ rest.takeWhile (· ≠ 0) :=
    List.takeWhile_append_of_pos fun ch hch => by
      simpa using fun h : ch = 0 => h0 (h ▸ hch)
  simp only [Mem.store8, if_neg hne, Mem.strncpy, hoff, if_pos hk, htake]
  simp [List.getD_eq_getElem?_getD, List.getElem?_append_left hk, List.getElem?_eq_getElem hk]

/-- Clearing a variable leaves the memory around it alone. -/
theorem clear_of_le {n : ℕ} {x : UInt32} (hx : n ≤ (x - a).toNat) : m.clear a n x = m x := by
  rw [Mem.clear, if_neg (by omega)]

/-- A copy leaves the memory around its variable alone. -/
theorem strncpy_of_le {n : ℕ} {x : UInt32} (hx : n ≤ (x - a).toNat) :
    m.strncpy a s n x = m x := by
  simp only [Mem.strncpy, if_neg (show ¬ (x - a).toNat < n by omega)]

/-- Storing a byte leaves every other byte alone. -/
theorem store8_of_ne {x : UInt32} {v : UInt8} (hx : x ≠ a) : m.store8 a v x = m x :=
  if_neg hx

/-- **A text that is held reads back** from a variable it fits in. -/
theorem cstr_of_holdsText {n : ℕ} (h : m.HoldsText a s) (h0 : 0 ∉ s) (hlen : s.length ≤ n) :
    m.cstr a n = s := by
  obtain ⟨hchars, hend⟩ := h
  have hprefix : (List.range s.length).map (fun k => m (a + UInt32.ofNat k)) = s := by
    refine List.ext_getElem (by simp) fun k _ hk => ?_
    simpa using hchars k hk
  have htake : ∀ ys : List UInt8, (s ++ ys).takeWhile (· ≠ 0) = s ++ ys.takeWhile (· ≠ 0) :=
    fun ys => List.takeWhile_append_of_pos fun ch hch => by
      simpa using fun h : ch = 0 => h0 (h ▸ hch)
  obtain ⟨j, rfl⟩ := Nat.exists_eq_add_of_le hlen
  rw [Mem.cstr, List.range_add, List.map_append, hprefix, htake]
  cases j with
  | zero => simp
  | succ j => simp [List.range_succ_eq_map, hend]

/-- The same bytes are the same string. -/
theorem cstr_congr {m' : Mem} {n : ℕ}
    (h : ∀ k < n, m' (a + UInt32.ofNat k) = m (a + UInt32.ofNat k)) :
    m'.cstr a n = m.cstr a n := by
  rw [Mem.cstr, Mem.cstr, List.map_congr_left fun k hk => h k (List.mem_range.mp hk)]

end Memory
