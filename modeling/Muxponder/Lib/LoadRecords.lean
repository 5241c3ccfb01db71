import Muxponder.Lib.Region

/-!
# Load Records

The image of a program as a loader reads it: records behind each other, each of the number of its
bytes, the address they are loaded at, and the bytes, and behind them one that ends the image. A
number of bytes that means an end cannot be that of a record, so the records of an image can be told
apart without knowing how many there are.

## Main results

* `records_injective`, `records_unique`: an image is what its bytes say, whatever stands behind
  them.
* `load_of_last`, `load_frame`: what the loaded memory holds inside the segments and outside them.
-/

namespace LoadRecords

open Memory

/-- The bytes of a word, the lowest one first. -/
def wordBytes (v : UInt32) : List UInt8 :=
  (List.range 4).map fun k => UInt8.ofNat (v.toNat / 256 ^ k)

/-- A part of a program: its bytes, and the address they are loaded at. -/
structure Segment where
  address : UInt32
  data : List UInt8
  deriving DecidableEq

/-- How an image ends: with an address to go on at, or without. -/
inductive Ending
  | jump (entry : UInt32)
  | halt
  deriving DecidableEq

/-- The number that stands for the end without an address. -/
def haltLength : UInt32 := 0xffffffff

/-- The record of a segment. -/
def Segment.record (s : Segment) : List UInt8 :=
  wordBytes (UInt32.ofNat s.data.length) ++ wordBytes s.address ++ s.data

/-- The record that ends an image. -/
def Ending.record : Ending → List UInt8
  | .jump entry => wordBytes 0 ++ wordBytes entry
  | .halt => wordBytes haltLength

/-- An image. -/
def records (ss : List Segment) (e : Ending) : List UInt8 :=
  ss.flatMap Segment.record ++ e.record

/-- The number of bytes of a segment is not one that ends an image. -/
structure Segment.Loadable (s : Segment) : Prop where
  pos : 0 < s.data.length
  lt : s.data.length < haltLength.toNat

/-- Where a segment is loaded. -/
def Segment.region (s : Segment) : Region := ⟨s.address, UInt32.ofNat s.data.length⟩

/-- A memory with the segments loaded, one behind the other. -/
def load (ss : List Segment) (m : Mem) : Mem :=
  ss.foldl (fun m s => m.blit s.address s.data) m

variable {m m' : Mem} {a x v w : UInt32} {s : Segment} {ss ss' ts : List Segment} {e e' : Ending}
  {bs cs ds es : List UInt8}

@[simp] theorem load_nil : load [] m = m := rfl

@[simp] theorem load_cons : load (s :: ss) m = load ss (m.blit s.address s.data) := rfl

/-- Segments behind others. -/
theorem load_append : load (ss ++ ts) m = load ts (load ss m) := List.foldl_append

@[simp] theorem wordBytes_length : (wordBytes v).length = 4 := rfl

@[simp] theorem records_nil : records [] e = e.record := rfl

theorem records_cons : records (s :: ss) e =
    wordBytes (UInt32.ofNat s.data.length) ++
      (wordBytes s.address ++ (s.data ++ records ss e)) := by
  simp [records, Segment.record]

/-! ### Bytes that a memory holds -/

/-- Bytes behind each other are held if the first ones are and, behind them, the others. -/
theorem bytes_append_iff : m.bytes a (bs ++ cs).length = bs ++ cs ↔
    m.bytes a bs.length = bs ∧ m.bytes (a + UInt32.ofNat bs.length) cs.length = cs := by
  rw [bytes_eq_map, List.length_append, addressesFrom_add, List.map_append, ← bytes_eq_map,
    ← bytes_eq_map]
  exact ⟨fun h => List.append_inj h bytes_length, fun h => by rw [h.1, h.2]⟩

/-- Memories that agree on some addresses hold the same bytes there. -/
theorem bytes_congr {n : ℕ} (h : ∀ x ∈ addressesFrom a n, m x = m' x) :
    m.bytes a n = m'.bytes a n := by
  rw [bytes_eq_map, bytes_eq_map]
  exact List.map_congr_left h

/-- What holds the bytes of a word holds the word. -/
theorem load32_of_wordBytes (h : m.bytes a 4 = wordBytes v) : m.load32 a = v := by
  have hbyte : ∀ k < 4, m (a + UInt32.ofNat k) = UInt8.ofNat (v.toNat / 256 ^ (0 + k)) := by
    intro k hk
    have hget : (m.bytes a 4)[k]? = (wordBytes v)[k]? := by rw [h]
    simpa [Mem.bytes, wordBytes, hk] using hget
  have hv := v.toNat_lt
  have hload := load32_of_bytes hbyte
  apply UInt32.toNat_inj.mp
  rw [hload]
  omega

/-- Words behind each other are held one by one. -/
theorem load32_of_words {vs : List UInt32} (h : m.bytes a (vs.flatMap wordBytes).length =
    vs.flatMap wordBytes) {k : ℕ} (hk : k < vs.length) :
    m.load32 (a + UInt32.ofNat (4 * k)) = vs.get ⟨k, hk⟩ := by
  induction vs generalizing a k with
  | nil => simp at hk
  | cons v vs ih =>
      obtain ⟨hv, hvs⟩ := bytes_append_iff.mp h
      cases k with
      | zero =>
          have hzero : a + UInt32.ofNat (4 * 0) = a := add_zero a
          rw [hzero]
          exact load32_of_wordBytes hv
      | succ k =>
          have hnext : a + UInt32.ofNat (4 * (k + 1)) = a + 4 + UInt32.ofNat (4 * k) := by
            rw [Nat.mul_add, Nat.add_comm, UInt32.ofNat_add, ← add_assoc]
            rfl
          rw [hnext]
          exact ih hvs (by simpa using hk)

/-- A word is what its bytes say. -/
theorem wordBytes_inj (h : wordBytes v = wordBytes w) : v = w := by
  have hheld : ∀ u, Mem.bytes (Mem.blit (fun _ => 0) 0 (wordBytes u)) 0 4 = wordBytes u :=
    fun u => valueOf_blit (r := ⟨0, 4⟩) (m := fun _ => 0) rfl
  rw [← load32_of_wordBytes (hheld v), ← load32_of_wordBytes (hheld w), h]

/-! ### Telling records apart -/

/-- The number of bytes that a segment announces. -/
theorem Segment.Loadable.length_toNat (h : s.Loadable) :
    (UInt32.ofNat s.data.length).toNat = s.data.length :=
  UInt32.toNat_ofNat_of_lt' (h.lt.trans haltLength.toNat_lt)

/-- It is not one that ends an image. -/
theorem Segment.Loadable.length_ne (h : s.Loadable) :
    UInt32.ofNat s.data.length ≠ 0 ∧ UInt32.ofNat s.data.length ≠ haltLength := by
  have hn := h.length_toNat
  refine ⟨fun h0 => ?_, fun h1 => ?_⟩
  · rw [h0] at hn
    exact absurd h.pos (by rw [← hn]; exact lt_irrefl 0)
  · rw [h1] at hn
    exact absurd h.lt (by rw [← hn]; exact lt_irrefl _)

/-- An ending is what its record says. -/
theorem ending_injective (h : e.record ++ ds = e'.record ++ es) : e = e' := by
  cases e with
  | jump entry =>
      cases e' with
      | jump entry' =>
          simp only [Ending.record, List.append_assoc] at h
          obtain ⟨-, h⟩ := List.append_inj h rfl
          obtain ⟨h, -⟩ := List.append_inj h rfl
          rw [wordBytes_inj h]
      | halt =>
          simp only [Ending.record, List.append_assoc] at h
          exact absurd (wordBytes_inj (List.append_inj h rfl).1) (by decide)
  | halt =>
      cases e' with
      | jump entry =>
          simp only [Ending.record, List.append_assoc] at h
          exact absurd (wordBytes_inj (List.append_inj h rfl).1) (by decide)
      | halt => rfl

/-- A record is no ending. -/
theorem records_cons_ne (h : s.Loadable) : records (s :: ss) e ++ ds ≠ e'.record ++ es := by
  intro heq
  obtain ⟨hne0, hne1⟩ := h.length_ne
  rw [records_cons] at heq
  cases e' with
  | jump entry =>
      simp only [Ending.record, List.append_assoc] at heq
      exact hne0 (wordBytes_inj (List.append_inj heq (by simp)).1)
  | halt =>
      simp only [Ending.record, List.append_assoc] at heq
      exact hne1 (wordBytes_inj (List.append_inj heq (by simp)).1)

/-- **An image is what its bytes say**, whatever stands behind them. -/
theorem records_injective (hss : ∀ s ∈ ss, s.Loadable) (hss' : ∀ s ∈ ss', s.Loadable)
    (h : records ss e ++ ds = records ss' e' ++ es) : ss = ss' ∧ e = e' := by
  induction ss generalizing ss' with
  | nil =>
      cases ss' with
      | nil => exact ⟨rfl, ending_injective h⟩
      | cons s' ss' => exact absurd h.symm (records_cons_ne (hss' s' List.mem_cons_self))
  | cons s ss ih =>
      cases ss' with
      | nil => exact absurd h (records_cons_ne (hss s List.mem_cons_self))
      | cons s' ss' =>
          obtain ⟨hs, hss⟩ := List.forall_mem_cons.mp hss
          obtain ⟨hs', hss'⟩ := List.forall_mem_cons.mp hss'
          rw [records_cons, records_cons] at h
          simp only [List.append_assoc] at h
          obtain ⟨hlen, h⟩ := List.append_inj h (by simp)
          obtain ⟨haddr, h⟩ := List.append_inj h (by simp)
          have hlen : s.data.length = s'.data.length := by
            rw [← hs.length_toNat, ← hs'.length_toNat, wordBytes_inj hlen]
          obtain ⟨hdata, h⟩ := List.append_inj h hlen
          obtain ⟨rfl, rfl⟩ := ih hss hss' h
          obtain ⟨address, data⟩ := s
          obtain ⟨address', data'⟩ := s'
          obtain rfl : address = address' := wordBytes_inj haddr
          obtain rfl : data = data' := hdata
          exact ⟨rfl, rfl⟩

/-- A memory holds one image at an address. -/
theorem records_unique (hss : ∀ s ∈ ss, s.Loadable) (hss' : ∀ s ∈ ss', s.Loadable)
    (h : m.bytes a (records ss e).length = records ss e)
    (h' : m.bytes a (records ss' e').length = records ss' e') : ss = ss' ∧ e = e' := by
  have hfront : ∀ i j, m.bytes a (i + j) = m.bytes a i ++ m.bytes (a + UInt32.ofNat i) j := by
    intro i j
    simp only [bytes_eq_map, addressesFrom_add, List.map_append]
  rcases Nat.le_total (records ss e).length (records ss' e').length with hle | hle
  · obtain ⟨j, hj⟩ := Nat.exists_eq_add_of_le hle
    rw [hj, hfront, h] at h'
    rw [← List.append_nil (records ss' e')] at h'
    exact records_injective hss hss' h'
  · obtain ⟨j, hj⟩ := Nat.exists_eq_add_of_le hle
    rw [hj, hfront, h'] at h
    rw [← List.append_nil (records ss e)] at h
    exact records_injective hss hss' h.symm

/-! ### The loaded memory -/

/-- Nothing outside the segments changes. -/
theorem load_frame (hss : ∀ s ∈ ss, s.Loadable) (h : ∀ s ∈ ss, ¬ s.region.Contains x) :
    load ss m x = m x := by
  induction ss generalizing m with
  | nil => rfl
  | cons s ss ih =>
      obtain ⟨hs, hss⟩ := List.forall_mem_cons.mp hss
      obtain ⟨hx, h⟩ := List.forall_mem_cons.mp h
      rw [load_cons, ih hss h]
      exact blit_of_not_contains (r := s.region) hs.length_toNat.symm.le hx

/-- **A byte of a segment is there**, unless a later segment covers it. -/
theorem load_of_last (hs : s.Loadable) (hts : ∀ t ∈ ts, t.Loadable) (hx : s.region.Contains x)
    (h : ∀ t ∈ ts, ¬ t.region.Contains x) :
    load (ss ++ s :: ts) m x = s.data.getD (x - s.address).toNat 0 := by
  have hlt : (x - s.address).toNat < s.data.length := by
    have hcontains : (x - s.address).toNat < (UInt32.ofNat s.data.length).toNat := hx
    rwa [hs.length_toNat] at hcontains
  rw [load_append, load_cons, load_frame hts h, Mem.blit, List.getD_eq_getElem _ _ hlt,
    List.getD_eq_getElem _ _ hlt]

/-- What a memory has of the segments that were loaded into another one. -/
structure Loaded (ss : List Segment) (m m' : Mem) : Prop where
  outside : ∀ x, (∀ s ∈ ss, ¬ s.region.Contains x) → m' x = m x
  inside : ∀ rs s ts, ss = rs ++ s :: ts → ∀ x, s.region.Contains x →
    (∀ t ∈ ts, ¬ t.region.Contains x) → m' x = s.data.getD (x - s.address).toNat 0

/-- **The segments are loaded.** -/
theorem load_loaded (hss : ∀ s ∈ ss, s.Loadable) : Loaded ss m (load ss m) where
  outside x h := load_frame hss h
  inside rs s ts hsplit x hx h := by
    subst hsplit
    obtain ⟨hs, hts⟩ := List.forall_mem_cons.mp fun t ht => hss t (List.mem_append_right rs ht)
    exact load_of_last hs hts hx h

end LoadRecords
