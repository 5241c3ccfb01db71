import Mathlib.Data.Set.Basic
import Muxponder.Lib.Region

/-!
# Variables

The variables of a program stand in memory at addresses that a linker has chosen, so that no
two of them share a byte: a `Placement`. What is known of a piece of code is then which
variables it writes (`Placement.Writes`); it leaves the values of all others.

## Main results

* `Placement.Writes.load32`, `Placement.Writes.valueOf`: a variable that is not written keeps
  its value.
* `Placement.Writes.trans`, `Placement.Writes.mono`: pieces of code one after the other.
-/

namespace Memory

variable {m m' m'' : Mem} {a x w : UInt32} {b : UInt8} {d : UInt64} {r : Region}

/-! ### Agreement -/

/-- Two memories hold the same bytes in an object. -/
def Mem.AgreeOn (m m' : Mem) (r : Region) : Prop := ∀ x, r.Contains x → m' x = m x

/-- The bytes of an object are counted from its address. -/
theorem Region.contains_add {k : ℕ} (hk : k < r.size.toNat) :
    r.Contains (r.value + UInt32.ofNat k) := by
  have hsize := r.size.toNat_lt
  rw [Region.Contains, add_ofNat_sub (by omega)]
  exact hk

/-- An object that is not empty has a first byte. -/
theorem Region.contains_value (h : 0 < r.size.toNat) : r.Contains r.value := by
  rw [Region.Contains, sub_self]
  exact h

/-- A byte that agrees, by its place in the object. -/
theorem Mem.AgreeOn.byte (h : m.AgreeOn m' r) {k : ℕ} (hk : k < r.size.toNat) :
    m' (r.value + UInt32.ofNat k) = m (r.value + UInt32.ofNat k) :=
  h _ (Region.contains_add hk)

/-- A word inside an object that agrees. -/
theorem Mem.AgreeOn.load32_add (h : m.AgreeOn m' r) {k : ℕ} (hk : k + 4 ≤ r.size.toNat) :
    m'.load32 (r.value + UInt32.ofNat k) = m.load32 (r.value + UInt32.ofNat k) := by
  have hadd : ∀ j : ℕ, r.value + UInt32.ofNat k + UInt32.ofNat j =
      r.value + UInt32.ofNat (k + j) := fun j => by rw [UInt32.ofNat_add, add_assoc]
  have h0 := h.byte (k := k) (by omega)
  have h1 := h.byte (k := k + 1) (by omega)
  have h2 := h.byte (k := k + 2) (by omega)
  have h3 := h.byte (k := k + 3) (by omega)
  rw [← hadd] at h1 h2 h3
  change m' (r.value + UInt32.ofNat k + 1) = m (r.value + UInt32.ofNat k + 1) at h1
  change m' (r.value + UInt32.ofNat k + 2) = m (r.value + UInt32.ofNat k + 2) at h2
  change m' (r.value + UInt32.ofNat k + 3) = m (r.value + UInt32.ofNat k + 3) at h3
  rw [Mem.load32, Mem.load32, h0, h1, h2, h3]

/-- The word at the front of an object that agrees. -/
theorem Mem.AgreeOn.load32 (h : m.AgreeOn m' r) (hsize : 4 ≤ r.size.toNat) :
    m'.load32 r.value = m.load32 r.value := by
  simpa using h.load32_add (k := 0) (by omega)

/-- The double word at the front of an object that agrees. -/
theorem Mem.AgreeOn.load64 (h : m.AgreeOn m' r) (hsize : 8 ≤ r.size.toNat) :
    m'.load64 r.value = m.load64 r.value := by
  have hhigh : m'.load32 (r.value + 4) = m.load32 (r.value + 4) :=
    h.load32_add (k := 4) (by omega)
  rw [Mem.load64, Mem.load64, h.load32 (by omega), hhigh]

/-- The string in an object that agrees. -/
theorem Mem.AgreeOn.cstr (h : m.AgreeOn m' r) {n : ℕ} (hsize : n ≤ r.size.toNat) :
    m'.cstr r.value n = m.cstr r.value n := by
  rw [Mem.cstr, Mem.cstr, List.map_congr_left]
  intro k hk
  exact h.byte (lt_of_lt_of_le (List.mem_range.mp hk) hsize)

/-! ### Placements -/

/-- Variables of given sizes, placed so that no two of them share a byte. -/
structure Placement (V : Type*) (size : V → UInt32) where
  addr : V → UInt32
  apart : ∀ v w, v ≠ w → Region.Disjoint ⟨addr v, size v⟩ ⟨addr w, size w⟩

variable {V : Type*} {size : V → UInt32} {P : Placement V size} {S T : Set V} {u v : V}

/-- A variable as an object. -/
def Placement.region (P : Placement V size) (v : V) : Region := ⟨P.addr v, size v⟩

/-- Nothing outside the variables of a set has changed. -/
def Placement.Writes (P : Placement V size) (S : Set V) (m m' : Mem) : Prop :=
  ∀ x, (∀ v ∈ S, ¬ (P.region v).Contains x) → m' x = m x

namespace Placement.Writes

theorem refl : P.Writes S m m := fun _ _ => rfl

theorem trans (h : P.Writes S m m') (h' : P.Writes S m' m'') : P.Writes S m m'' :=
  fun x hx => (h' x hx).trans (h x hx)

theorem mono (h : P.Writes S m m') (hST : S ⊆ T) : P.Writes T m m' :=
  fun x hx => h x fun v hv => hx v (hST hv)

/-- A variable that is not written agrees. -/
theorem agreeOn (h : P.Writes S m m') (hu : u ∉ S) : m.AgreeOn m' (P.region u) := by
  intro x hx
  refine h x fun v hv => P.apart u v ?_ x hx
  rintro rfl
  exact hu hv

/-- **A word that is not written stays.** -/
theorem load32 (h : P.Writes S m m') (hu : u ∉ S) (hsize : 4 ≤ (size u).toNat) :
    m'.load32 (P.addr u) = m.load32 (P.addr u) :=
  (h.agreeOn hu).load32 hsize

/-- **A variable that is not written keeps its value.** -/
theorem valueOf (h : P.Writes S m m') (hu : u ∉ S) :
    m'.valueOf (P.region u) = m.valueOf (P.region u) :=
  valueOf_congr (h.agreeOn hu)

/-- Storing a word in a variable. -/
theorem store32 (hv : v ∈ S) (hsize : 4 ≤ (size v).toNat) :
    P.Writes S m (m.store32 (P.addr v) w) := by
  intro x hx
  have hout : ¬ (x - P.addr v).toNat < (size v).toNat := hx v hv
  exact store32_of_le (by omega)

/-- Storing a double word in a variable. -/
theorem store64 (hv : v ∈ S) (hsize : 8 ≤ (size v).toNat) :
    P.Writes S m (m.store64 (P.addr v) d) := by
  intro x hx
  have hout : ¬ (x - P.addr v).toNat < (size v).toNat := hx v hv
  exact store64_of_le (by omega)

/-- Storing a byte in a variable. -/
theorem store8 (hv : v ∈ S) (hsize : 0 < (size v).toNat) :
    P.Writes S m (m.store8 (P.addr v) b) := by
  intro x hx
  refine if_neg ?_
  rintro rfl
  exact hx v hv (Region.contains_value (r := P.region v) hsize)

/-- A copy into a variable. -/
theorem blit {bs : List UInt8} (hv : v ∈ S) (hlen : bs.length ≤ (size v).toNat) :
    P.Writes S m (m.blit (P.addr v) bs) :=
  fun _ hx => blit_of_not_contains (r := P.region v) hlen (hx v hv)

/-- Pieces of code one after the other, each at one index of a list. -/
theorem foldl {ι : Type*} {f : Mem → ι → Mem} {is : List ι}
    (h : ∀ i ∈ is, ∀ m, P.Writes S m (f m i)) : P.Writes S m (is.foldl f m) := by
  induction is generalizing m with
  | nil => exact refl
  | cons i is ih =>
      exact (h i List.mem_cons_self m).trans (ih fun j hj => h j (List.mem_cons_of_mem _ hj))

end Placement.Writes

end Memory
