import Mathlib.Data.List.GetD
import Mathlib.Algebra.BigOperators.Group.List.Basic
import Muxponder.Lib.Memory

/-!
# Objects in Memory

An object of a C program is a `Region` of memory: an address and a size. `Mem.bytes` and
`Mem.blit` are the two directions of `memcpy` between an object and a list of bytes;
`copyInto` and `copyFrom` are those of a `memcpy` at an offset of a separate block, which
is undefined where it leaves the block.

`snapshot` writes the values of several objects behind each other and `restore` reads them
back.

## Main results

* `valueOf_restore`: pairwise disjoint objects get back the values a snapshot was taken of,
  whatever the memory held before.
* `restore_snapshot`: objects that overlap do so too, byte by byte.
* `restore_frame`: nothing outside the objects changes.
* `copyInto_append`, `copyFrom_append`: copies at the end of a known front of a block.
-/

namespace Memory

/-- An object: where it starts and how many bytes it has. -/
structure Region where
  value : UInt32
  size : UInt32
  deriving DecidableEq, Repr

/-- An address inside an object. -/
def Region.Contains (r : Region) (x : UInt32) : Prop := (x - r.value).toNat < r.size.toNat

instance (r : Region) (x : UInt32) : Decidable (r.Contains x) :=
  inferInstanceAs (Decidable (_ < _))

/-- Two objects share no byte. -/
def Region.Disjoint (r s : Region) : Prop := ∀ x, r.Contains x → ¬ s.Contains x

/-- The bytes that `memcpy` reads at an address. -/
def Mem.bytes (m : Mem) (a : UInt32) (n : ℕ) : List UInt8 :=
  (List.range n).map fun k => m (a + UInt32.ofNat k)

/-- The memory after `memcpy` has stored bytes at an address. -/
def Mem.blit (m : Mem) (a : UInt32) (bs : List UInt8) : Mem := fun x =>
  bs.getD (x - a).toNat (m x)

/-- So many addresses, in order. -/
def addressesFrom (a : UInt32) (n : ℕ) : List UInt32 :=
  (List.range n).map fun k => a + UInt32.ofNat k

/-- The addresses of an object. -/
def Region.addresses (r : Region) : List UInt32 := addressesFrom r.value r.size.toNat

/-- The value of an object. -/
def Mem.valueOf (m : Mem) (r : Region) : List UInt8 := m.bytes r.value r.size.toNat

variable {m m' : Mem} {a x : UInt32} {n : ℕ} {bs cs ds block : List UInt8} {r s : Region}
  {rs : List Region}

@[simp] theorem bytes_length : (m.bytes a n).length = n := by simp [Mem.bytes]

@[simp] theorem valueOf_length : (m.valueOf r).length = r.size.toNat := bytes_length

/-- Bytes by their addresses. -/
theorem bytes_eq_map : m.bytes a n = (addressesFrom a n).map m := by
  rw [Mem.bytes, addressesFrom, List.map_map]
  rfl

/-- Addresses behind each other. -/
theorem addressesFrom_add (a : UInt32) (i j : ℕ) :
    addressesFrom a (i + j) = addressesFrom a i ++ addressesFrom (a + UInt32.ofNat i) j := by
  rw [addressesFrom, List.range_add, List.map_append, List.map_map]
  refine congrArg _ (List.map_congr_left fun k _ => ?_)
  rw [Function.comp_apply, UInt32.ofNat_add, add_assoc]

/-- An address is one of so many if its offset is smaller. -/
theorem mem_addressesFrom (hn : n ≤ 2 ^ 32) :
    x ∈ addressesFrom a n ↔ (x - a).toNat < n := by
  constructor
  · intro h
    obtain ⟨k, hk, rfl⟩ := List.mem_map.mp h
    have hk : k < n := List.mem_range.mp hk
    rw [add_ofNat_sub (by omega)]
    exact hk
  · intro h
    refine List.mem_map.mpr ⟨(x - a).toNat, List.mem_range.mpr h, ?_⟩
    rw [UInt32.ofNat_toNat, add_sub_cancel]

/-- The addresses of an object are those inside it. -/
theorem contains_iff_mem : r.Contains x ↔ x ∈ r.addresses :=
  (mem_addressesFrom (Nat.le_of_lt r.size.toNat_lt)).symm

/-- Memories that agree on an object hold the same value there. -/
theorem valueOf_congr (h : ∀ x, r.Contains x → m x = m' x) : m.valueOf r = m'.valueOf r := by
  refine List.map_congr_left fun k hk => h _ ?_
  have hk : k < r.size.toNat := List.mem_range.mp hk
  have hsize := r.size.toNat_lt
  rw [Region.Contains, add_ofNat_sub (by omega)]
  exact hk

/-- An object that has the same value begins with the same byte. -/
theorem byte_of_valueOf (h : m'.valueOf r = m.valueOf r) (hr : 0 < r.size.toNat) :
    m' r.value = m r.value := by
  have hfirst : (m'.valueOf r)[0]? = (m.valueOf r)[0]? := by rw [h]
  simpa [Mem.valueOf, Mem.bytes, hr] using hfirst

/-- A copy changes nothing behind its bytes. -/
theorem blit_of_le (h : bs.length ≤ (x - a).toNat) : m.blit a bs x = m x :=
  List.getD_eq_default _ _ h

/-- A copy into an object changes nothing outside it. -/
theorem blit_of_not_contains (hlen : bs.length ≤ r.size.toNat) (h : ¬ r.Contains x) :
    m.blit r.value bs x = m x :=
  blit_of_le (hlen.trans (Nat.le_of_not_lt h))

/-- **A copied value is read back.** -/
theorem valueOf_blit (hlen : bs.length = r.size.toNat) :
    (m.blit r.value bs).valueOf r = bs := by
  have hsize := r.size.toNat_lt
  refine List.ext_getElem (by rw [valueOf_length, hlen]) fun k hk hk' => ?_
  simp only [Mem.valueOf, Mem.bytes, List.getElem_map, List.getElem_range, Mem.blit]
  rw [add_ofNat_sub (by omega), List.getD_eq_getElem _ _ hk']

/-- A copied value, byte by byte. -/
theorem blit_valueOf (h : r.Contains x) : m'.blit r.value (m.valueOf r) x = m x := by
  have hk : (x - r.value).toNat < r.size.toNat := h
  have hx : r.value + UInt32.ofNat (x - r.value).toNat = x := by
    rw [UInt32.ofNat_toNat]
    simp
  rw [Mem.blit, List.getD_eq_getElem _ _ (by rw [valueOf_length]; exact hk)]
  simp only [Mem.valueOf, Mem.bytes, List.getElem_map, List.getElem_range]
  rw [hx]

/-- A copy into one object leaves a disjoint one alone. -/
theorem valueOf_blit_of_disjoint (hd : r.Disjoint s) (hlen : bs.length ≤ r.size.toNat) :
    (m.blit r.value bs).valueOf s = m.valueOf s :=
  valueOf_congr fun x hx => blit_of_not_contains hlen fun hr => hd x hr hx

/-- Being disjoint does not depend on the order. -/
theorem Region.Disjoint.symm (h : r.Disjoint s) : s.Disjoint r := fun x hs hr => h x hr hs

/-- Objects behind each other are disjoint. -/
theorem Region.disjoint_of_le (h : r.value.toNat + r.size.toNat ≤ s.value.toNat)
    (hs : s.value.toNat + s.size.toNat ≤ 2 ^ 32) : r.Disjoint s := by
  intro x hr hsx
  simp only [Region.Contains, UInt32.toNat_sub] at hr hsx
  have hx := x.toNat_lt
  have hv := s.value.toNat_lt
  omega

/-! ### Arrays -/

/-- An element of an array of elements of `s` bytes. -/
def Mem.element (m : Mem) (a : UInt32) (s j : ℕ) : List UInt8 :=
  m.bytes (a + UInt32.ofNat (j * s)) s

/-- Storing into an array from an element on. -/
def Mem.storeAt (m : Mem) (a : UInt32) (s j : ℕ) (bs : List UInt8) : Mem :=
  m.blit (a + UInt32.ofNat (j * s)) bs

/-- The offset of a byte of an array from another place in it. -/
theorem sub_add_ofNat_toNat {i j : ℕ} (hi : i < 2 ^ 32) (hj : j < 2 ^ 32) :
    (a + UInt32.ofNat i - (a + UInt32.ofNat j)).toNat =
      if j ≤ i then i - j else 2 ^ 32 + i - j := by
  have hsub : a + UInt32.ofNat i - (a + UInt32.ofNat j) = UInt32.ofNat i - UInt32.ofNat j := by
    grind
  rw [hsub, UInt32.toNat_sub, UInt32.toNat_ofNat_of_lt' hi, UInt32.toNat_ofNat_of_lt' hj]
  split <;> omega

/-- An element that has been stored is read back. -/
theorem element_storeAt {sz j : ℕ} (hbs : bs.length = sz) (hsz : sz < 2 ^ 32) :
    (m.storeAt a sz j bs).element a sz j = bs := by
  refine List.ext_getElem (by simp [Mem.element, hbs]) fun k hk hk' => ?_
  simp only [Mem.element, Mem.storeAt, Mem.bytes, List.getElem_map, List.getElem_range, Mem.blit]
  rw [add_ofNat_sub (by omega), List.getD_eq_getElem _ _ hk']

/-- Storing one element leaves the others of the array alone. -/
theorem element_storeAt_of_ne {sz i j n : ℕ} (hbs : bs.length = sz) (hn : n * sz < 2 ^ 32)
    (hi : i < n) (hj : j < n) (hij : i ≠ j) :
    (m.storeAt a sz j bs).element a sz i = m.element a sz i := by
  have hisz : (i + 1) * sz ≤ n * sz := Nat.mul_le_mul_right sz hi
  have hjsz : (j + 1) * sz ≤ n * sz := Nat.mul_le_mul_right sz hj
  rw [Nat.add_mul] at hisz hjsz
  refine List.map_congr_left fun k hk => blit_of_le ?_
  have hk : k < sz := List.mem_range.mp hk
  rw [add_assoc, ← UInt32.ofNat_add, sub_add_ofNat_toNat (by omega) (by omega), hbs]
  rcases Nat.lt_or_gt_of_ne hij with hlt | hgt
  · have hmul : (i + 1) * sz ≤ j * sz := Nat.mul_le_mul_right sz hlt
    rw [Nat.add_mul] at hmul
    rw [if_neg (by omega)]
    omega
  · have hmul : (j + 1) * sz ≤ i * sz := Nat.mul_le_mul_right sz hgt
    rw [Nat.add_mul] at hmul
    rw [if_pos (by omega)]
    omega

/-- Storing elements of an array changes nothing outside it. -/
theorem storeAt_of_not_contains {sz j n : ℕ} (hbs : j * sz + bs.length ≤ n * sz)
    (hr : r.value = a) (hsize : r.size.toNat = n * sz) (h : ¬ r.Contains x) :
    m.storeAt a sz j bs x = m x := by
  have hlen := r.size.toNat_lt
  have hx : n * sz ≤ (x - a).toNat := by
    rw [← hsize, ← hr]
    exact Nat.le_of_not_lt h
  have hsub : x - (a + UInt32.ofNat (j * sz)) = x - a - UInt32.ofNat (j * sz) := by grind
  have hlt := (x - a).toNat_lt
  refine blit_of_le ?_
  rw [hsub, UInt32.toNat_sub, UInt32.toNat_ofNat_of_lt' (by rw [UInt32.size]; omega)]
  omega

/-- Storing bytes is storing the first element and then the others. -/
theorem storeAt_append {sz j : ℕ} (hbs : bs.length = sz) (hlen : sz + cs.length < 2 ^ 32) :
    m.storeAt a sz j (bs ++ cs) = (m.storeAt a sz j bs).storeAt a sz (j + 1) cs := by
  funext x
  have hnext : x - (a + UInt32.ofNat ((j + 1) * sz)) =
      x - (a + UInt32.ofNat (j * sz)) - UInt32.ofNat sz := by
    rw [Nat.add_mul, Nat.one_mul, UInt32.ofNat_add]
    grind
  have hlt := (x - (a + UInt32.ofNat (j * sz))).toNat_lt
  have hsub : (x - (a + UInt32.ofNat (j * sz)) - UInt32.ofNat sz).toNat =
      (2 ^ 32 - sz + (x - (a + UInt32.ofNat (j * sz))).toNat) % 2 ^ 32 := by
    rw [UInt32.toNat_sub, UInt32.toNat_ofNat_of_lt' (by rw [UInt32.size]; omega)]
  simp only [Mem.storeAt, Mem.blit, hnext, hsub, List.getD_eq_getElem?_getD]
  rcases Nat.lt_or_ge (x - (a + UInt32.ofNat (j * sz))).toNat sz with hx | hx
  · rw [List.getElem?_append_left (by omega), List.getElem?_eq_none (l := cs) (by omega)]
    rfl
  · have hmod : (2 ^ 32 - sz + (x - (a + UInt32.ofNat (j * sz))).toNat) % 2 ^ 32 =
        (x - (a + UInt32.ofNat (j * sz))).toNat - sz := by omega
    rw [List.getElem?_append_right (by omega), hmod, hbs,
      List.getElem?_eq_none (l := bs) (by omega)]
    rfl

/-! ### Several objects -/

/-- The values of several objects behind each other. -/
def snapshot (m : Mem) (rs : List Region) : List UInt8 := rs.flatMap m.valueOf

/-- Giving several objects the values that stand behind each other in a list. -/
def restore : List Region → List UInt8 → Mem → Mem
  | [], _, m => m
  | r :: rs, bs, m =>
      restore rs (bs.drop r.size.toNat) (m.blit r.value (bs.take r.size.toNat))

/-- The bytes that several objects take. -/
def totalSize (rs : List Region) : ℕ := (rs.map fun r => r.size.toNat).sum

@[simp] theorem snapshot_cons : snapshot m (r :: rs) = m.valueOf r ++ snapshot m rs := rfl

@[simp] theorem totalSize_cons : totalSize (r :: rs) = r.size.toNat + totalSize rs := rfl

@[simp] theorem snapshot_length : (snapshot m rs).length = totalSize rs := by
  induction rs with
  | nil => rfl
  | cons r rs ih => rw [snapshot_cons, List.length_append, valueOf_length, ih, totalSize_cons]

/-- Snapshots that are alike hold the same values. -/
theorem valueOf_of_snapshot (h : snapshot m' rs = snapshot m rs) (hr : r ∈ rs) :
    m'.valueOf r = m.valueOf r := by
  induction rs with
  | nil => cases hr
  | cons s rs ih =>
      rw [snapshot_cons, snapshot_cons] at h
      obtain ⟨hs, hrest⟩ := List.append_inj h (by rw [valueOf_length, valueOf_length])
      rcases List.mem_cons.mp hr with rfl | hr
      · exact hs
      · exact ih hrest hr

/-- Restoring changes nothing outside the objects. -/
theorem restore_frame (h : ∀ r ∈ rs, ¬ r.Contains x) : restore rs bs m x = m x := by
  induction rs generalizing bs m with
  | nil => rfl
  | cons r rs ih =>
      have hlen : (bs.take r.size.toNat).length ≤ r.size.toNat := by simp
      rw [restore, ih fun s hs => h s (List.mem_cons_of_mem _ hs)]
      exact blit_of_not_contains hlen (h r List.mem_cons_self)

/-- **A byte of an object comes back from the snapshot**, though the object may overlap others. -/
theorem restore_snapshot (h : m' x = m x ∨ ∃ r ∈ rs, r.Contains x) :
    restore rs (snapshot m rs ++ ds) m' x = m x := by
  induction rs generalizing m' with
  | nil =>
      rcases h with h | ⟨r, hr, -⟩
      · exact h
      · cases hr
  | cons s rs ih =>
      have hlen : (m.valueOf s).length = s.size.toNat := valueOf_length
      have htake : (snapshot m (s :: rs) ++ ds).take s.size.toNat = m.valueOf s := by
        rw [snapshot_cons, List.append_assoc, ← hlen, List.take_left]
      have hdrop : (snapshot m (s :: rs) ++ ds).drop s.size.toNat = snapshot m rs ++ ds := by
        rw [snapshot_cons, List.append_assoc, ← hlen, List.drop_left]
      rw [restore, htake, hdrop]
      refine ih ?_
      by_cases hx : s.Contains x
      · exact .inl (blit_valueOf hx)
      · rcases h with h | ⟨r, hr, hrx⟩
        · exact .inl ((blit_of_not_contains hlen.le hx).trans h)
        · rcases List.mem_cons.mp hr with rfl | hr
          · exact absurd hrx hx
          · exact .inr ⟨r, hr, hrx⟩

/-- **Disjoint objects get back the values of the snapshot**, whatever they held. -/
theorem valueOf_restore (hd : rs.Pairwise Region.Disjoint) (hr : r ∈ rs) :
    (restore rs (snapshot m rs ++ ds) m').valueOf r = m.valueOf r := by
  induction rs generalizing m' with
  | nil => cases hr
  | cons s rs ih =>
      obtain ⟨hs, hd⟩ := List.pairwise_cons.mp hd
      have hlen : (m.valueOf s).length = s.size.toNat := valueOf_length
      have htake : (snapshot m (s :: rs) ++ ds).take s.size.toNat = m.valueOf s := by
        rw [snapshot_cons, List.append_assoc, ← hlen, List.take_left]
      have hdrop : (snapshot m (s :: rs) ++ ds).drop s.size.toNat = snapshot m rs ++ ds := by
        rw [snapshot_cons, List.append_assoc, ← hlen, List.drop_left]
      rw [restore, htake, hdrop]
      rcases List.mem_cons.mp hr with rfl | hr
      · calc (restore rs (snapshot m rs ++ ds) (m'.blit r.value (m.valueOf r))).valueOf r
            = (m'.blit r.value (m.valueOf r)).valueOf r :=
              valueOf_congr fun x hx => restore_frame fun t ht => hs t ht x hx
          _ = m.valueOf r := valueOf_blit hlen
      · exact ih hd hr

/-! ### Copies at an offset of a block -/

/-- The bytes behind a pointer. -/
abbrev Source := ℕ → UInt8

/-- The first `n` bytes behind a pointer. -/
def Source.read (data : Source) (n : ℕ) : List UInt8 := (List.range n).map data

@[simp] theorem read_length {data : Source} : (data.read n).length = n := by simp [Source.read]

/-- A heap with room: `malloc` gives a block of the size asked for, whatever it holds. -/
structure Heap where
  malloc : UInt32 → List UInt8
  malloc_length : ∀ n, (malloc n).length = n.toNat

/-- `memcpy(&block[o], bs)`. -/
def copyInto (block : List UInt8) (o : UInt32) (bs : List UInt8) : Option (List UInt8) :=
  if o.toNat + bs.length ≤ block.length then
    some (block.take o.toNat ++ bs ++ block.drop (o.toNat + bs.length))
  else none

/-- `memcpy(dst, &block[o], n)`: the bytes that are read. -/
def copyFrom (block : List UInt8) (o n : UInt32) : Option (List UInt8) :=
  if o.toNat + n.toNat ≤ block.length then some ((block.drop o.toNat).take n.toNat) else none

/-- A copy at the end of a front that the block holds extends the front. -/
theorem copyInto_append {o : UInt32} (ho : o.toNat = bs.length) :
    copyInto (bs ++ block) o cs =
      if cs.length ≤ block.length then some (bs ++ cs ++ block.drop cs.length) else none := by
  have hiff : bs.length + cs.length ≤ (bs ++ block).length ↔ cs.length ≤ block.length := by
    rw [List.length_append]
    omega
  simp only [copyInto, ho, hiff, List.take_left, List.drop_append, List.drop_of_length_le
    (show bs.length ≤ bs.length + cs.length by omega), Nat.add_sub_cancel_left, List.nil_append]

/-- What stands behind a known front is read. -/
theorem copyFrom_append {o k : UInt32} (ho : o.toNat = bs.length) (hk : k.toNat = cs.length) :
    copyFrom (bs ++ cs ++ ds) o k = some cs := by
  have hle : bs.length + cs.length ≤ (bs ++ cs ++ ds).length := by simp
  rw [copyFrom, ho, hk, if_pos hle, List.append_assoc, List.drop_left, List.take_left]

end Memory
