import Mathlib.Data.List.Infix

/-!
# Byte Buffers of a Fixed Size

A receive buffer of a C program is an array that is filled from the front: what has been
received so far is a prefix of it, and the bytes behind that prefix are whatever the array
held before. A store outside the array has no defined effect, so `store` is partial.

## Main results

* `store_eq_some_iff`, `store_isSome_iff`: when a store is defined, and what it leaves.
* `Holds.store`: storing at the end of the received prefix extends it by one byte.
-/

/-- A buffer of exactly `n` bytes. -/
abbrev ByteBuffer (n : ℕ) := Vector UInt8 n

namespace ByteBuffer

variable {n i : ℕ} {b v : ByteBuffer n} {c : UInt8} {acc acc' : List UInt8}

/-- Storing a byte at an index, when the index lies inside the buffer. -/
def store (b : ByteBuffer n) (i : ℕ) (c : UInt8) : Option (ByteBuffer n) :=
  if h : i < n then some (b.set i c h) else none

/-- The buffer after `memset(buff, 0, n)`. -/
def zero : ByteBuffer n := Vector.replicate n 0

/-- The buffer starts with the bytes `acc`. -/
def Holds (b : ByteBuffer n) (acc : List UInt8) : Prop := acc <+: b.toList

/-- A store succeeds exactly inside the buffer, and changes that one byte. -/
theorem store_eq_some_iff : b.store i c = some v ↔ ∃ h : i < n, b.set i c h = v := by
  unfold store
  split
  · next h => simp [h]
  · next h => simp [h]

/-- A store succeeds exactly inside the buffer. -/
theorem store_isSome_iff : (b.store i c).isSome = true ↔ i < n := by
  unfold store
  split
  · next h => simp [h]
  · next h => simp [h]

/-- Every buffer starts with nothing. -/
@[simp] theorem holds_nil : b.Holds [] := List.nil_prefix

/-- What a buffer holds fits it. -/
theorem Holds.length_le (h : b.Holds acc) : acc.length ≤ n := by
  simpa using List.IsPrefix.length_le h

/-- **Storing behind the received bytes** extends them by one. -/
theorem Holds.store (hacc : b.Holds acc) (h : b.store acc.length c = some v) :
    v.Holds (acc ++ [c]) := by
  obtain ⟨hi, rfl⟩ := store_eq_some_iff.mp h
  obtain ⟨t, ht⟩ := hacc
  have hlen : acc.length + t.length = n := by simpa using congrArg List.length ht
  cases t with
  | nil =>
      simp only [List.length_nil, Nat.add_zero] at hlen
      omega
  | cons d t =>
      refine ⟨t, ?_⟩
      rw [Vector.toList_set, ← ht]
      simp

/-- A buffer holds one list of each length. -/
theorem Holds.unique (h : b.Holds acc) (h' : b.Holds acc') (hlen : acc.length = acc'.length) :
    acc = acc' :=
  (List.prefix_of_prefix_length_le h h' hlen.le).eq_of_length hlen

/-- A buffer starts with one byte. -/
theorem Holds.head_eq {d : UInt8} (h : b.Holds (c :: acc)) (h' : b.Holds (d :: acc')) :
    c = d := by
  obtain ⟨t, ht⟩ := h
  obtain ⟨t', ht'⟩ := h'
  rw [← ht'] at ht
  exact (List.cons.inj ht).1

/-- What a buffer holds is what is read back from it. -/
theorem holds_iff_take : b.Holds acc ↔ b.toList.take acc.length = acc :=
  List.prefix_iff_eq_take.trans eq_comm

end ByteBuffer
