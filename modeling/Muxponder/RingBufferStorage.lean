import Muxponder.Lib.Machine
import Muxponder.Lib.Region
import Muxponder.Lib.RingBuffer

/-!
# The Ring Buffers in Memory

`ring_buffer.c` keeps the elements of a ring buffer in a storage of its caller's, as many bytes
each as the caller has said. `ring_buffer_put_many` stores its elements with a single copy that
starts at the masked head: where there are more of them than up to the end of the storage, the
copy goes on behind it.

The ring buffer of the library is the abstract queue. A call that does not copy over the end of
the storage does in memory what `RingBuffer.put` and `RingBuffer.get` do to the queue.

## Main results

* `ringBuffer_fifo`: in every run whose calls stay inside the storage, what is taken is what has
  been put, nothing outside the storage is written, and a refused call changes nothing.
* `putMany_leaves_storage`: a call that does not stay inside writes behind the storage.
-/

namespace Muxponder

open Memory

/-- The number of ring buffers. -/
def RING_BUFFER_MAX : UInt32 := 10

/-- `rb_attr_t`: what a ring buffer is made of. -/
structure RbAttr where
  sElem : UInt32
  nElem : UInt32
  buffer : UInt32
  deriving DecidableEq, Repr

/-- `struct ring_buffer`. -/
structure RingBufferVars where
  sElem : UInt32
  nElem : UInt32
  buf : UInt32
  count : UInt32
  head : UInt32
  tail : UInt32
  deriving DecidableEq, Repr

/-- The memory, the table `_rb` and the descriptor `idx` of the next ring buffer. -/
structure RingBuffers where
  mem : Mem
  rb : UInt32 → RingBufferVars
  idx : UInt32

/-- What a call returns, and what it has copied to its caller. -/
structure RingBufferReturn where
  success : Bool
  data : List UInt8 := []
  deriving DecidableEq, Repr

/-- `ring_buffer_init`: the descriptor, unless the attributes are refused. -/
def ringBufferInit (t : RingBuffers) (attr : Option RbAttr) : RingBuffers × Option UInt32 :=
  match attr with
  | none => (t, none)
  | some attr =>
      if t.idx < RING_BUFFER_MAX ∧ attr.buffer ≠ 0 ∧ attr.sElem > 0 ∧
          (attr.nElem - 1) &&& attr.nElem = 0 then
        ({ t with
            rb := Function.update t.rb t.idx
              { sElem := attr.sElem, nElem := attr.nElem, buf := attr.buffer,
                count := 0, head := 0, tail := 0 }
            idx := t.idx + 1 }, some t.idx)
      else (t, none)

namespace RingBufferVars

/-- `ring_buffer_full`. -/
def ringBufferFull (rb : RingBufferVars) : Bool := rb.head - rb.tail = rb.nElem

/-- `ring_buffer_empty`. -/
def ringBufferEmpty (rb : RingBufferVars) : Bool := rb.head - rb.tail = 0

/-- Where an index is in the storage. -/
def offset (rb : RingBufferVars) (i : UInt32) : UInt32 := (i &&& (rb.nElem - 1)) * rb.sElem

end RingBufferVars

/-- `ring_buffer_put_many`. -/
def ringBufferPutMany (t : RingBuffers) (rbd : UInt32) (data : Source) (n : UInt32) :
    RingBuffers × RingBufferReturn :=
  let rb := t.rb rbd
  if rbd < RING_BUFFER_MAX ∧ rb.ringBufferFull = false ∧ rb.nElem - rb.count > n then
    ({ t with
        mem := t.mem.blit (rb.buf + rb.offset rb.head) (data.read (n * rb.sElem).toNat)
        rb := Function.update t.rb rbd
          { rb with head := rb.head + n, count := rb.count + n } }, ⟨true, []⟩)
  else (t, ⟨false, []⟩)

/-- `ring_buffer_put`. -/
def ringBufferPut (t : RingBuffers) (rbd : UInt32) (data : Source) :
    RingBuffers × RingBufferReturn :=
  let rb := t.rb rbd
  if rbd < RING_BUFFER_MAX ∧ rb.ringBufferFull = false then
    ({ t with
        mem := t.mem.blit (rb.buf + rb.offset rb.head) (data.read rb.sElem.toNat)
        rb := Function.update t.rb rbd
          { rb with head := rb.head + 1, count := rb.count + 1 } }, ⟨true, []⟩)
  else (t, ⟨false, []⟩)

/-- `ring_buffer_get`. -/
def ringBufferGet (t : RingBuffers) (rbd : UInt32) : RingBuffers × RingBufferReturn :=
  let rb := t.rb rbd
  if rbd < RING_BUFFER_MAX ∧ rb.ringBufferEmpty = false then
    ({ t with
        rb := Function.update t.rb rbd
          { rb with tail := rb.tail + 1, count := rb.count - 1 } },
      ⟨true, t.mem.bytes (rb.buf + rb.offset rb.tail) rb.sElem.toNat⟩)
  else (t, ⟨false, []⟩)

/-- `ring_buffer_get_count`. -/
def ringBufferGetCount (t : RingBuffers) (rbd : UInt32) : UInt32 := (t.rb rbd).count

/-! ### Runs -/

/-- The calls that are made with the descriptor of one ring buffer. -/
inductive RingBufferCall
  | put (data : Source)
  | putMany (data : Source) (n : UInt32)
  | get

/-- One call after the other. -/
def ringBuffer (rbd : UInt32) : Machine RingBuffers RingBufferCall RingBufferReturn where
  step t
    | .put data => some (ringBufferPut t rbd data)
    | .putMany data n => some (ringBufferPutMany t rbd data n)
    | .get => some (ringBufferGet t rbd)

/-- The calls of a run and what they returned. -/
abbrev RingBufferHistory := List (RingBufferCall × RingBufferReturn)

/-- The elements of `s` bytes behind a pointer. -/
def elementsOf (data : Source) (s n : ℕ) : List (List UInt8) :=
  (List.range n).map fun i => Source.read (fun j => data (i * s + j)) s

/-- The elements that a call offers. -/
def RingBufferCall.offered (s : ℕ) : RingBufferCall → List (List UInt8)
  | .put data => [data.read s]
  | .putMany data n => elementsOf data s n.toNat
  | .get => []

/-- The elements of the successful puts. -/
def RingBufferHistory.puts (h : RingBufferHistory) (s : ℕ) : List (List UInt8) :=
  h.flatMap fun e => if e.2.success then e.1.offered s else []

/-- The elements that the successful gets returned. -/
def RingBufferHistory.gets (h : RingBufferHistory) : List (List UInt8) :=
  h.flatMap fun e => match e.1 with
    | .get => if e.2.success then [e.2.data] else []
    | _ => []

/-- The elements that are stored between the tail and the head. -/
def RingBuffers.stored (t : RingBuffers) (rbd : UInt32) : List (List UInt8) :=
  let rb := t.rb rbd
  (List.range (rb.head - rb.tail).toNat).map fun i =>
    t.mem.bytes (rb.buf + rb.offset (rb.tail + UInt32.ofNat i)) rb.sElem.toNat

/-- The condition on a call: elements that are accepted fit between the masked head and the end
of the storage. -/
def StaysInside (rbd : UInt32) (t : RingBuffers) (c : RingBufferCall) : Prop :=
  ∀ data n, c = .putMany data n → (ringBufferPutMany t rbd data n).2.success = true →
    ((t.rb rbd).head &&& ((t.rb rbd).nElem - 1)).toNat + n.toNat ≤ (t.rb rbd).nElem.toNat

/-- A storage that has as many bytes as the elements take. -/
def RbAttr.Backed (attr : RbAttr) : Prop :=
  attr.nElem ≠ 0 ∧ attr.nElem.toNat * attr.sElem.toNat < 2 ^ 32

instance (attr : RbAttr) : Decidable attr.Backed := inferInstanceAs (Decidable (_ ∧ _))

/-- The storage of a ring buffer. -/
def RbAttr.storage (attr : RbAttr) : Region := ⟨attr.buffer, attr.nElem * attr.sElem⟩

variable {t t' t₀ : RingBuffers} {rbd n : UInt32} {attr : RbAttr} {v : RingBufferVars} {k : ℕ}
  {rb : RingBuffer (List UInt8) k} {m : Mem} {data : Source} {i : UInt32} {s : ℕ}
  {d : List UInt8} {ds : List (List UInt8)} {h : RingBufferHistory} {c : RingBufferCall}
  {r : RingBufferReturn}

/-! ### What stands behind a pointer -/

@[simp] theorem elements_length {n : ℕ} : (elementsOf data s n).length = n := by
  simp [elementsOf]

/-- Every element has its size. -/
theorem length_of_mem_elements {n : ℕ} (hd : d ∈ elementsOf data s n) : d.length = s := by
  obtain ⟨i, -, rfl⟩ := List.mem_map.mp hd
  exact read_length

/-- The bytes behind a pointer are read in two parts. -/
theorem read_add {a b : ℕ} :
    data.read (a + b) = data.read a ++ Source.read (fun j => data (a + j)) b := by
  rw [Source.read, List.range_add, List.map_append, List.map_map]
  rfl

/-- The elements behind a pointer are its bytes. -/
theorem elements_flatten {n : ℕ} : (elementsOf data s n).flatten = data.read (n * s) := by
  induction n with
  | zero => simp [elementsOf, Source.read]
  | succ n ih =>
      have hsucc : elementsOf data s (n + 1) =
          elementsOf data s n ++ [Source.read (fun j => data (n * s + j)) s] := by
        rw [elementsOf, List.range_succ, List.map_append]
        rfl
      rw [hsucc, List.flatten_append, ih, Nat.add_mul, Nat.one_mul, read_add]
      simp

/-- The bytes that elements of one size take. -/
theorem flatten_length_of_forall (hds : ∀ d ∈ ds, d.length = s) :
    ds.flatten.length = ds.length * s := by
  rw [List.length_flatten, List.map_congr_left hds, List.map_const', List.sum_replicate,
    Nat.nsmul_eq_mul]

/-! ### The abstract ring buffer in memory -/

/-- The variables and the storage hold the abstract ring buffer. -/
structure Stores (m : Mem) (attr : RbAttr) (v : RingBufferVars)
    (rb : RingBuffer (List UInt8) k) : Prop where
  sElem : v.sElem = attr.sElem
  nElem : v.nElem = attr.nElem
  buf : v.buf = attr.buffer
  count : v.count = rb.count
  head : v.head = rb.head
  tail : v.tail = rb.tail
  element : ∀ j, rb.buf j = m.element attr.buffer attr.sElem.toNat j
  order : attr.nElem.toNat = 2 ^ k
  room : 2 ^ k * attr.sElem.toNat < 2 ^ 32

/-- The number of elements is that of the abstract ring buffer. -/
theorem Stores.nElem_toNat (hs : Stores m attr v rb) : v.nElem.toNat = 2 ^ k := by
  rw [hs.nElem, hs.order]

/-- Masking an index finds its element. -/
theorem Stores.mask (hs : Stores m attr v rb) :
    i &&& (v.nElem - 1) = UInt32.ofNat (RingBuffer.offset k i) := by
  have hsize := rb.size_lt
  have hpos : 0 < 2 ^ k := Nat.two_pow_pos k
  have hpred : (v.nElem - 1).toNat = 2 ^ k - 1 := by
    have hone : (1 : UInt32) ≤ v.nElem := by
      rw [UInt32.le_iff_toNat_le, UInt32.toNat_one, hs.nElem_toNat]
      omega
    rw [UInt32.toNat_sub_of_le _ _ hone, hs.nElem_toNat, UInt32.toNat_one]
  have hlt := (RingBuffer.offset k i).isLt
  apply UInt32.toNat_inj.mp
  rw [UInt32.toNat_and, hpred, UInt32.toNat_ofNat_of_lt' (by rw [UInt32.size]; omega)]
  rfl

/-- The address of an index is that of its element. -/
theorem Stores.address (hs : Stores m attr v rb) : v.buf + v.offset i =
    attr.buffer + UInt32.ofNat (RingBuffer.offset k i * attr.sElem.toNat) := by
  rw [RingBufferVars.offset, hs.mask, hs.buf, hs.sElem, UInt32.ofNat_mul, UInt32.ofNat_toNat]

/-- The test for a full buffer is the abstract one. -/
theorem Stores.ringBufferFull_eq (hs : Stores m attr v rb) : v.ringBufferFull = rb.full := by
  have hn : v.nElem = UInt32.ofNat (2 ^ k) := by
    rw [← hs.nElem_toNat, UInt32.ofNat_toNat]
  rw [RingBufferVars.ringBufferFull, RingBuffer.full, hs.head, hs.tail, hn]

/-- So is the test for an empty one. -/
theorem Stores.ringBufferEmpty_eq (hs : Stores m attr v rb) :
    v.ringBufferEmpty = rb.empty := by
  rw [RingBufferVars.ringBufferEmpty, RingBuffer.empty, hs.head, hs.tail]

/-- What a masked index points at is the abstract element. -/
theorem Stores.bytes_eq (hs : Stores m attr v rb) :
    m.bytes (v.buf + v.offset i) v.sElem.toNat = rb.buf (RingBuffer.offset k i) := by
  rw [hs.address, hs.sElem, hs.element]
  rfl

/-- The stored elements are the queued ones. -/
theorem Stores.stored_eq (hs : Stores t.mem attr (t.rb rbd) rb) :
    t.stored rbd = rb.contents := by
  rw [RingBuffers.stored, RingBuffer.contents, hs.head, hs.tail]
  exact List.map_congr_left fun i _ => hs.bytes_eq

/-- A new ring buffer is empty, whatever its storage holds. -/
theorem Stores.init (hk : k < 32) (hn : attr.nElem.toNat = 2 ^ k)
    (hroom : 2 ^ k * attr.sElem.toNat < 2 ^ 32) :
    Stores m attr ⟨attr.sElem, attr.nElem, attr.buffer, 0, 0, 0⟩
      (RingBuffer.init k hk fun j => m.element attr.buffer attr.sElem.toNat j) :=
  ⟨rfl, rfl, rfl, rfl, rfl, rfl, fun _ => rfl, hn, hroom⟩

/-- **Storing an element at the masked head puts it.** -/
theorem Stores.put (hs : Stores m attr v rb) (hfull : ¬ rb.full = true)
    (hd : d.length = attr.sElem.toNat) :
    ∃ rb', rb.put d = some rb' ∧
      Stores (m.storeAt attr.buffer attr.sElem.toNat (RingBuffer.offset k v.head) d) attr
        { v with head := v.head + 1, count := v.count + 1 } rb' := by
  obtain ⟨rb', hput⟩ := RingBuffer.exists_put (d := d) hfull
  obtain ⟨hbuf, hhead, hcount, htail⟩ := RingBuffer.put_eq hput
  refine ⟨rb', hput, hs.sElem, hs.nElem, hs.buf, ?_, ?_, ?_, fun j => ?_, hs.order, hs.room⟩
  · rw [hcount, hs.count]
  · rw [hhead, hs.head]
  · rw [htail, hs.tail]
  · rw [hbuf, hs.head]
    by_cases hj : j = RingBuffer.offset k rb.head
    · subst hj
      rw [Function.update_self, element_storeAt hd attr.sElem.toNat_lt]
    · rw [Function.update_of_ne hj, hs.element, element_storeAt_of_ne hd hs.room j.isLt
        (RingBuffer.offset k rb.head).isLt fun heq => hj (Fin.ext heq)]

/-- **Storing elements with a single copy puts them one after the other**, where they do not
reach over the end of the storage. -/
theorem Stores.putMany {j : ℕ} (hs : Stores m attr v rb)
    (hds : ∀ d ∈ ds, d.length = attr.sElem.toNat)
    (hj : ds ≠ [] → (RingBuffer.offset k v.head).val = j) (hend : j + ds.length ≤ 2 ^ k)
    (hroom : rb.contents.length + ds.length ≤ 2 ^ k) :
    ∃ rb' : RingBuffer (List UInt8) k, rb'.contents = rb.contents ++ ds ∧
      Stores (m.storeAt attr.buffer attr.sElem.toNat j ds.flatten) attr
        { v with head := v.head + UInt32.ofNat ds.length
                 count := v.count + UInt32.ofNat ds.length } rb' := by
  induction ds generalizing m v rb j with
  | nil =>
      have hmem : m.storeAt attr.buffer attr.sElem.toNat j [] = m := rfl
      have hadd (x : UInt32) : x + UInt32.ofNat 0 = x := UInt32.add_zero x
      rw [List.flatten_nil, hmem, List.length_nil, hadd, hadd]
      exact ⟨rb, (List.append_nil _).symm, hs⟩
  | cons d ds ih =>
      have hlen : d.length = attr.sElem.toNat := hds d List.mem_cons_self
      have hfull : ¬ rb.full = true := by
        rw [RingBuffer.full_iff]
        simp only [List.length_cons] at hroom
        omega
      obtain ⟨rb₁, hput, hs₁⟩ := hs.put hfull hlen
      have hcontents := RingBuffer.contents_of_put hput
      rw [hj (List.cons_ne_nil _ _)] at hs₁
      simp only [List.length_cons] at hend hroom
      have hnext : ds ≠ [] → (RingBuffer.offset k (v.head + 1)).val = j + 1 := by
        intro hne
        have hpos : 0 < ds.length := List.length_pos_iff.mpr hne
        have hhead := RingBuffer.offset_val (k := k) v.head
        rw [hj (List.cons_ne_nil _ _)] at hhead
        have hmod : (v.head.toNat + 1) % 2 ^ k = j + 1 := by
          rw [Nat.add_mod, ← hhead, Nat.mod_eq_of_lt (show 1 < 2 ^ k by omega),
            Nat.mod_eq_of_lt (by omega)]
        exact (RingBuffer.offset_add rb.order_lt v.head 1).trans hmod
      have hroom₁ : rb₁.contents.length + ds.length ≤ 2 ^ k := by
        rw [hcontents, List.length_append, List.length_singleton]
        omega
      obtain ⟨rb', hrb', hs'⟩ := ih hs₁ (fun d hd => hds d (List.mem_cons_of_mem _ hd)) hnext
        (by omega) hroom₁
      refine ⟨rb', by rw [hrb', hcontents, List.append_assoc, List.singleton_append], ?_⟩
      have hbytes : attr.sElem.toNat + ds.flatten.length < 2 ^ 32 := by
        have hmul : (ds.length + 1) * attr.sElem.toNat ≤ 2 ^ k * attr.sElem.toNat :=
          Nat.mul_le_mul_right _ (by omega)
        have hk := hs.room
        rw [flatten_length_of_forall fun d hd => hds d (List.mem_cons_of_mem _ hd)]
        rw [Nat.add_mul] at hmul
        omega
      have hsucc (x : UInt32) : x + UInt32.ofNat (d :: ds).length =
          x + 1 + UInt32.ofNat ds.length := by
        rw [List.length_cons, UInt32.ofNat_add]
        grind
      rw [List.flatten_cons, storeAt_append hlen hbytes, hsucc, hsucc]
      exact hs'

/-! ### Runs inside the storage -/

@[simp] theorem puts_snoc : RingBufferHistory.puts (h ++ [(c, r)]) s =
    h.puts s ++ if r.success then c.offered s else [] := by
  simp [RingBufferHistory.puts]

@[simp] theorem gets_snoc : RingBufferHistory.gets (h ++ [(c, r)]) =
    h.gets ++ match c with
      | .get => if r.success then [r.data] else []
      | _ => [] := by
  simp [RingBufferHistory.gets]

/-- What a run keeps: the ring buffer in memory is an abstract one, which holds what has been
put and not yet been taken, and the memory outside the storage is as it was. -/
def FifoInvariant (m₀ : Mem) (attr : RbAttr) (k : ℕ) (rbd : UInt32) (h : RingBufferHistory)
    (t : RingBuffers) : Prop :=
  ∃ rb : RingBuffer (List UInt8) k, Stores t.mem attr (t.rb rbd) rb ∧
    h.gets ++ rb.contents = h.puts attr.sElem.toNat ∧
    ∀ x, ¬ attr.storage.Contains x → t.mem x = m₀ x

/-- A refused call changes nothing. -/
theorem unchanged_of_refused (hstep : (ringBuffer rbd).step t c = some (t', r))
    (h : r.success = false) : t' = t := by
  cases c <;>
    simp only [ringBuffer, ringBufferPut, ringBufferPutMany, ringBufferGet,
      Option.some.injEq] at hstep <;>
    split at hstep <;>
    obtain ⟨rfl, rfl⟩ := Prod.mk.inj hstep <;>
    first | rfl | cases h

/-- Nor does it offer or return an element. -/
theorem FifoInvariant.refused {m₀ : Mem} (hI : FifoInvariant m₀ attr k rbd h t)
    (hstep : (ringBuffer rbd).step t c = some (t', r)) (hr : r.success = false) :
    FifoInvariant m₀ attr k rbd (h ++ [(c, r)]) t' := by
  obtain rfl := unchanged_of_refused hstep hr
  obtain ⟨rb, hs, hfifo, hframe⟩ := hI
  refine ⟨rb, hs, ?_, hframe⟩
  cases c <;> simpa [hr] using hfifo

/-- The storage has as many bytes as the elements take. -/
theorem Stores.storage_size (hs : Stores m attr v rb) :
    attr.storage.size.toNat = 2 ^ k * attr.sElem.toNat := by
  rw [RbAttr.storage, UInt32.toNat_mul, hs.order, Nat.mod_eq_of_lt hs.room]

/-- The room that the counter leaves. -/
theorem Stores.room_toNat (hs : Stores m attr v rb) :
    (v.nElem - v.count).toNat = 2 ^ k - rb.contents.length := by
  have hle : v.count ≤ v.nElem := by
    rw [UInt32.le_iff_toNat_le, hs.nElem_toNat, hs.count, RingBuffer.count_toNat]
    exact RingBuffer.contents_length_le
  rw [UInt32.toNat_sub_of_le _ _ hle, hs.nElem_toNat, hs.count, RingBuffer.count_toNat]

/-- Elements that end inside the storage write nothing outside it. -/
theorem Stores.frame {j : ℕ} {x : UInt32} (hs : Stores m attr v rb)
    (hds : ∀ d ∈ ds, d.length = attr.sElem.toNat) (hend : j + ds.length ≤ 2 ^ k)
    (hx : ¬ attr.storage.Contains x) :
    m.storeAt attr.buffer attr.sElem.toNat j ds.flatten x = m x := by
  refine storeAt_of_not_contains ?_ rfl hs.storage_size hx
  rw [flatten_length_of_forall hds, ← Nat.add_mul]
  exact Nat.mul_le_mul_right _ hend

/-- An accepted element is put. -/
theorem FifoInvariant.put {m₀ : Mem} (hI : FifoInvariant m₀ attr k rbd h t)
    (hstep : ringBufferPut t rbd data = (t', r)) (hr : r.success = true) :
    FifoInvariant m₀ attr k rbd (h ++ [(.put data, r)]) t' := by
  obtain ⟨rb, hs, hfifo, hframe⟩ := hI
  simp only [ringBufferPut] at hstep
  split at hstep
  next hcond =>
    obtain ⟨rfl, rfl⟩ := Prod.mk.inj hstep
    have hfull : ¬ rb.full = true := by
      rw [← hs.ringBufferFull_eq, hcond.2]
      nofun
    have hlen : (data.read attr.sElem.toNat).length = attr.sElem.toNat := read_length
    obtain ⟨rb', hput, hs'⟩ := hs.put hfull hlen
    have hblit : t.mem.blit ((t.rb rbd).buf + (t.rb rbd).offset (t.rb rbd).head)
        (data.read (t.rb rbd).sElem.toNat) =
        t.mem.storeAt attr.buffer attr.sElem.toNat (RingBuffer.offset k (t.rb rbd).head)
          (data.read attr.sElem.toNat) := by
      rw [hs.address, hs.sElem, Mem.storeAt]
    refine ⟨rb', ?_, ?_, fun x hx => ?_⟩
    · dsimp only
      rw [Function.update_self, hblit]
      exact hs'
    · rw [puts_snoc, gets_snoc, RingBuffer.contents_of_put hput, ← hfifo]
      simp [RingBufferCall.offered]
    · have hpos := (RingBuffer.offset k (t.rb rbd).head).isLt
      have hds : ∀ d ∈ [data.read attr.sElem.toNat], d.length = attr.sElem.toNat := by simp
      have hone := hs.frame hds hpos hx
      rw [List.flatten_singleton] at hone
      dsimp only
      rw [hblit, ← hframe x hx]
      exact hone
  next =>
    obtain ⟨rfl, rfl⟩ := Prod.mk.inj hstep
    cases hr

/-- Accepted elements are put one after the other, if they stay inside the storage. -/
theorem FifoInvariant.putMany {m₀ : Mem} (hI : FifoInvariant m₀ attr k rbd h t)
    (hstep : ringBufferPutMany t rbd data n = (t', r)) (hr : r.success = true)
    (hinside : StaysInside rbd t (.putMany data n)) :
    FifoInvariant m₀ attr k rbd (h ++ [(.putMany data n, r)]) t' := by
  obtain ⟨rb, hs, hfifo, hframe⟩ := hI
  have hend := hinside data n rfl (by rw [hstep]; exact hr)
  simp only [ringBufferPutMany] at hstep
  split at hstep
  next hcond =>
    obtain ⟨rfl, rfl⟩ := Prod.mk.inj hstep
    have hlt := UInt32.lt_iff_toNat_lt.mp hcond.2.2
    rw [hs.room_toNat] at hlt
    rw [hs.mask, hs.nElem_toNat, UInt32.toNat_ofNat_of_lt'
      ((RingBuffer.offset k _).isLt.trans rb.size_lt)] at hend
    have hds : ∀ d ∈ elementsOf data attr.sElem.toNat n.toNat, d.length = attr.sElem.toNat :=
      fun d hd => length_of_mem_elements hd
    have hlen : (elementsOf data attr.sElem.toNat n.toNat).length = n.toNat := elements_length
    have hbytes : (n * attr.sElem).toNat = n.toNat * attr.sElem.toNat := by
      have hmul : n.toNat * attr.sElem.toNat ≤ 2 ^ k * attr.sElem.toNat :=
        Nat.mul_le_mul_right _ (by omega)
      rw [UInt32.toNat_mul, Nat.mod_eq_of_lt (hmul.trans_lt hs.room)]
    obtain ⟨rb', hcontents, hs'⟩ := hs.putMany hds (fun _ => rfl) (by rw [hlen]; exact hend)
      (by rw [hlen]; omega)
    rw [hlen, UInt32.ofNat_toNat, elements_flatten] at hs'
    have hblit : t.mem.blit ((t.rb rbd).buf + (t.rb rbd).offset (t.rb rbd).head)
        (data.read (n * (t.rb rbd).sElem).toNat) =
        t.mem.storeAt attr.buffer attr.sElem.toNat (RingBuffer.offset k (t.rb rbd).head)
          (data.read (n.toNat * attr.sElem.toNat)) := by
      rw [hs.address, hs.sElem, hbytes, Mem.storeAt]
    refine ⟨rb', ?_, ?_, fun x hx => ?_⟩
    · dsimp only
      rw [Function.update_self, hblit]
      exact hs'
    · rw [puts_snoc, gets_snoc, hcontents, ← hfifo]
      simp [RingBufferCall.offered]
    · have hmany := hs.frame hds (by rw [hlen]; exact hend) hx
      rw [elements_flatten] at hmany
      dsimp only
      rw [hblit, ← hframe x hx]
      exact hmany
  next =>
    obtain ⟨rfl, rfl⟩ := Prod.mk.inj hstep
    cases hr

/-- The oldest element is taken. -/
theorem FifoInvariant.get {m₀ : Mem} (hI : FifoInvariant m₀ attr k rbd h t)
    (hstep : ringBufferGet t rbd = (t', r)) (hr : r.success = true) :
    FifoInvariant m₀ attr k rbd (h ++ [(.get, r)]) t' := by
  obtain ⟨rb, hs, hfifo, hframe⟩ := hI
  simp only [ringBufferGet] at hstep
  split at hstep
  next hcond =>
    obtain ⟨rfl, rfl⟩ := Prod.mk.inj hstep
    have hempty : rb.get ≠ none := by
      rw [Ne, RingBuffer.get_eq_none_iff, ← RingBuffer.empty_iff, ← hs.ringBufferEmpty_eq,
        hcond.2]
      nofun
    obtain ⟨⟨d, rb'⟩, hget⟩ := Option.ne_none_iff_exists'.mp hempty
    obtain ⟨rfl, hbuf, hhead, hcount, htail⟩ := RingBuffer.get_eq hget
    refine ⟨rb', ?_, ?_, hframe⟩
    · dsimp only
      rw [Function.update_self]
      exact ⟨hs.sElem, hs.nElem, hs.buf, by rw [hcount, hs.count], by rw [hhead, hs.head],
        by rw [htail, hs.tail], fun j => by rw [hbuf, hs.element], hs.order, hs.room⟩
    · rw [puts_snoc, gets_snoc, hs.bytes_eq, hs.tail, ← hfifo, RingBuffer.contents_of_get hget]
      simp [RingBufferCall.offered]
  next =>
    obtain ⟨rfl, rfl⟩ := Prod.mk.inj hstep
    cases hr

/-- A call that stays inside the storage keeps the invariant. -/
theorem FifoInvariant.step {m₀ : Mem} (hI : FifoInvariant m₀ attr k rbd h t)
    (hinside : StaysInside rbd t c) (hstep : (ringBuffer rbd).step t c = some (t', r)) :
    FifoInvariant m₀ attr k rbd (h ++ [(c, r)]) t' := by
  cases hr : r.success with
  | false => exact hI.refused hstep hr
  | true =>
      cases c with
      | put data => exact hI.put (Option.some.inj hstep) hr
      | putMany data n => exact hI.putMany (Option.some.inj hstep) hr hinside
      | get => exact hI.get (Option.some.inj hstep) hr

/-- A storage with a power of two of elements makes an empty ring buffer. -/
theorem fifoInvariant_init (hinit : ringBufferInit t₀ (some attr) = (t, some rbd))
    (hbacked : attr.Backed) : ∃ k, FifoInvariant t₀.mem attr k rbd [] t := by
  rw [ringBufferInit] at hinit
  split at hinit
  next hcond =>
    obtain ⟨rfl, hrbd⟩ := Prod.mk.inj hinit
    obtain rfl := Option.some.inj hrbd
    have hne : attr.nElem.toNat ≠ 0 := fun hzero => hbacked.1 (UInt32.toNat_inj.mp hzero)
    have hpow : (attr.nElem.toNat - 1) &&& attr.nElem.toNat = 0 := by
      have hone : (1 : UInt32) ≤ attr.nElem := by
        rw [UInt32.le_iff_toNat_le, UInt32.toNat_one]
        omega
      rw [← UInt32.toNat_one, ← UInt32.toNat_sub_of_le _ _ hone, ← UInt32.toNat_and,
        hcond.2.2.2, UInt32.toNat_zero]
    obtain ⟨k, hk⟩ := RingBuffer.exists_two_pow hne hpow
    have hk32 : k < 32 := by
      have hlt := attr.nElem.toNat_lt
      rw [hk] at hlt
      exact (Nat.pow_lt_pow_iff_right (by omega)).mp hlt
    refine ⟨k, .init k hk32 fun j => t₀.mem.element attr.buffer attr.sElem.toNat j, ?_, ?_,
      fun _ _ => rfl⟩
    · dsimp only
      rw [Function.update_self]
      exact Stores.init hk32 hk (hk ▸ hbacked.2)
    · simp [RingBufferHistory.gets, RingBufferHistory.puts]
  next => simp at hinit

/-- **In every run whose calls stay inside the storage**, the elements that were returned and
those that are stored are the ones that have been put, the counter is the distance of the
indices and never more than the storage has room for, nothing outside the storage is written,
and a refused call changes nothing. -/
theorem ringBuffer_fifo (t₀ t t' : RingBuffers) (attr : RbAttr) (rbd : UInt32)
    (h : RingBufferHistory) (hinit : ringBufferInit t₀ (some attr) = (t, some rbd))
    (hbacked : attr.Backed) (hr : (ringBuffer rbd).Run t h t')
    (hc : (ringBuffer rbd).Along t h (StaysInside rbd)) :
    h.gets ++ t'.stored rbd = h.puts attr.sElem.toNat ∧
      ringBufferGetCount t' rbd = (t'.rb rbd).head - (t'.rb rbd).tail ∧
      ringBufferGetCount t' rbd ≤ attr.nElem ∧
      (∀ x, ¬ attr.storage.Contains x → t'.mem x = t₀.mem x) ∧
      ∀ c t'' r, (ringBuffer rbd).step t' c = some (t'', r) → r.success = false → t'' = t' := by
  obtain ⟨k, h0⟩ := fifoInvariant_init hinit hbacked
  obtain ⟨rb, hs, hfifo, hframe⟩ : FifoInvariant t₀.mem attr k rbd h t' :=
    hr.invariant_along h0 (fun h t c t' r _ hI hinside hstep => hI.step hinside hstep) hc
  refine ⟨by rw [hs.stored_eq, hfifo], ?_, ?_, hframe,
    fun c t'' r hstep hrefused => unchanged_of_refused hstep hrefused⟩
  · rw [ringBufferGetCount, hs.count, hs.head, hs.tail, rb.counted]
  · rw [ringBufferGetCount, UInt32.le_iff_toNat_le, hs.order, hs.count, RingBuffer.count_toNat]
    exact RingBuffer.contents_length_le

/-! ### A storage of four bytes -/

/-- Nothing but zeros in the memory, and no ring buffer yet. -/
def clearedRingBuffers : RingBuffers :=
  { mem := fun _ => 0, rb := fun _ => ⟨0, 0, 0, 0, 0, 0⟩, idx := 0 }

/-- Four elements of a byte. -/
def fourBytes : RbAttr := { sElem := 1, nElem := 4, buffer := 0x1000 }

/-- The numbers from a first one on. -/
def countFrom (b : UInt8) : Source := fun i => b + UInt8.ofNat i

/-- Three elements are put and taken. -/
def threeBytes : RingBufferHistory :=
  [(.putMany (countFrom 1) 3, ⟨true, []⟩), (.get, ⟨true, [1]⟩), (.get, ⟨true, [2]⟩),
    (.get, ⟨true, [3]⟩)]

/-- What is put into a fresh storage is taken. -/
theorem ringBuffer_fifo_threeBytes :
    threeBytes.gets ++ [] = threeBytes.puts 1 ∧ threeBytes.gets = [[1], [2], [3]] := by
  refine ⟨?_, rfl⟩
  have hr : (ringBuffer 0).Run (ringBufferInit clearedRingBuffers (some fourBytes)).1
      threeBytes _ := .cons rfl (.cons rfl (.cons rfl (.single rfl)))
  have hc : (ringBuffer 0).Along (ringBufferInit clearedRingBuffers (some fourBytes)).1
      threeBytes (StaysInside 0) := by
    refine .cons rfl ?_ (.cons rfl nofun (.cons rfl nofun (.cons rfl nofun .nil)))
    intro data n hcall _
    obtain ⟨-, rfl⟩ := RingBufferCall.putMany.inj hcall
    decide
  exact (ringBuffer_fifo clearedRingBuffers _ _ fourBytes 0 threeBytes rfl (by decide) hr hc).1

/-- **A call that reaches over the end of the storage** writes behind it, and what it has put
there is not what is taken. -/
theorem putMany_leaves_storage : ∃ (h : RingBufferHistory) (t : RingBuffers),
    (ringBuffer 0).Run (ringBufferInit clearedRingBuffers (some fourBytes)).1 h t ∧
      ¬ fourBytes.storage.Contains 0x1004 ∧ t.mem 0x1004 = 5 ∧
      h.gets = [[1], [2], [3], [4], [1]] ∧ h.puts 1 = [[1], [2], [3], [4], [5]] :=
  ⟨threeBytes ++ [(.putMany (countFrom 4) 2, ⟨true, []⟩), (.get, ⟨true, [4]⟩),
    (.get, ⟨true, [1]⟩)], _, Machine.run_of_exec rfl, by decide, rfl, rfl, rfl⟩

end Muxponder
