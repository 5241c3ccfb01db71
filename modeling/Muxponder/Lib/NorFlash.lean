import Mathlib.Data.List.GetD
import Mathlib.Data.List.Induction

/-!
# NOR Flash

A NOR flash device holds a byte at every address. Programming can only clear bits, so
what a byte reads back is the bitwise and of what it held and what was written; erasing
sets a whole sector to `0xFF`. The sector size is a parameter.

`run` replays a list of device operations on given contents. `programAll` is the typical
sequence of a loader: blocks of any lengths, each written behind the previous one.

## Main results

* `run_programAll`: behind a start address the blocks read back as their concatenation,
  each byte cut down by what was there before.
* `run_untouched`: an address no operation touches keeps its byte.
-/

namespace NorFlash

/-- The contents of a device. -/
abbrev Contents := ℕ → UInt8

/-- A device operation: programming consecutive bytes, or erasing the sector of an
address. -/
inductive Op
  | program (addr : ℕ) (data : List UInt8)
  | eraseSector (addr : ℕ)
  deriving DecidableEq, Repr

/-- The effect of one operation on a device with sectors of `size` bytes. -/
def Op.apply (size : ℕ) : Op → Contents → Contents
  | .program addr data, c => fun a =>
      if addr ≤ a ∧ a < addr + data.length then c a &&& data.getD (a - addr) 0xFF else c a
  | .eraseSector addr, c => fun a => if a / size = addr / size then 0xFF else c a

/-- The addresses an operation may change. -/
def Op.touches (size : ℕ) : Op → ℕ → Prop
  | .program addr data, a => addr ≤ a ∧ a < addr + data.length
  | .eraseSector addr, a => a / size = addr / size

/-- Replaying a list of operations. -/
def run (size : ℕ) (ops : List Op) (c : Contents) : Contents :=
  ops.foldl (fun c op => op.apply size c) c

variable {size : ℕ} {c : Contents} {addr a i : ℕ} {data : List UInt8}

@[simp] theorem run_nil : run size [] c = c := rfl

@[simp] theorem run_cons {op : Op} {ops : List Op} :
    run size (op :: ops) c = run size ops (op.apply size c) := rfl

/-- Operations replay in sequence. -/
theorem run_append {ops ops' : List Op} :
    run size (ops ++ ops') c = run size ops' (run size ops c) := by
  rw [run, run, run, List.foldl_append]

/-- An operation changes nothing but what it touches. -/
theorem apply_untouched {op : Op} (h : ¬ op.touches size a) : op.apply size c a = c a := by
  cases op with
  | program addr data => exact if_neg h
  | eraseSector addr => exact if_neg h

/-- A byte no operation of a list touches keeps its value. -/
theorem run_untouched {ops : List Op} (h : ∀ op ∈ ops, ¬ op.touches size a) :
    run size ops c a = c a := by
  induction ops generalizing c with
  | nil => rfl
  | cons op ops ih =>
      rw [run_cons, ih fun op hop => h op (List.mem_cons_of_mem _ hop)]
      exact apply_untouched (h op List.mem_cons_self)

/-- A programmed byte reads back as the bits both it and its predecessor have. -/
theorem apply_program (hi : i < data.length) :
    (Op.program addr data).apply size c (addr + i) = c (addr + i) &&& data.getD i 0xFF := by
  have hin : addr ≤ addr + i ∧ addr + i < addr + data.length := by omega
  simp only [Op.apply]
  rw [if_pos hin, Nat.add_sub_cancel_left]

/-- An erased byte reads back with all bits set. -/
theorem apply_eraseSector (h : a / size = addr / size) :
    (Op.eraseSector addr).apply size c a = 0xFF := if_pos h

/-- Programming over an erased byte stores the byte. -/
theorem erased_and (b : UInt8) : 0xFF &&& b = b := by
  have h : (0xFF : UInt8) = -1 := rfl
  rw [h, UInt8.neg_one_and]

/-- Sectors erased one by one: every byte of them reads back with all bits set. -/
theorem run_erase_mem {ops : List Op} (hops : ∀ op ∈ ops, ∃ b, op = .eraseSector b)
    (h : ∃ op ∈ ops, op.touches size a) : run size ops c a = 0xFF := by
  induction ops using List.reverseRecOn with
  | nil => simp at h
  | append_singleton ops op ih =>
      obtain ⟨b, rfl⟩ := hops op (by simp)
      rw [run_append, run_cons, run_nil]
      rcases eq_or_ne (a / size) (b / size) with hb | hb
      · exact apply_eraseSector hb
      · have hout : ¬ (Op.eraseSector b).touches size a := hb
        rw [apply_untouched hout]
        refine ih (fun op hop => hops op (by simp [hop])) ?_
        obtain ⟨op, hop, ht⟩ := h
        rcases List.mem_append.mp hop with hop | hop
        · exact ⟨op, hop, ht⟩
        · obtain rfl : op = .eraseSector b := by simpa using hop
          exact absurd ht hb

/-- Writing blocks one behind the other, from a start address. -/
def programAll : ℕ → List (List UInt8) → List Op
  | _, [] => []
  | a, b :: bs => .program a b :: programAll (a + b.length) bs

@[simp] theorem programAll_nil : programAll addr [] = [] := rfl

/-- One more block goes behind all earlier ones. -/
theorem programAll_snoc {bs : List (List UInt8)} {b : List UInt8} :
    programAll addr (bs ++ [b]) =
      programAll addr bs ++ [.program (addr + bs.flatten.length) b] := by
  induction bs generalizing addr with
  | nil => rfl
  | cons b' bs ih =>
      simp only [List.cons_append, programAll, ih, List.flatten_cons, List.length_append]
      rw [Nat.add_assoc]

/-- What the blocks touch. -/
theorem touches_programAll {bs : List (List UInt8)} {op : Op}
    (hop : op ∈ programAll addr bs) (ht : op.touches size a) :
    addr ≤ a ∧ a < addr + bs.flatten.length := by
  induction bs generalizing addr with
  | nil => simp at hop
  | cons b bs ih =>
      rw [List.flatten_cons, List.length_append]
      rcases List.mem_cons.mp hop with rfl | hop
      · obtain ⟨h1, h2⟩ : addr ≤ a ∧ a < addr + b.length := ht
        omega
      · have := ih hop
        omega

/-- **Reading back**: behind the start address each byte is its block's byte, cut down by
what was there before. -/
theorem run_programAll {bs : List (List UInt8)} (hi : i < bs.flatten.length) :
    run size (programAll addr bs) c (addr + i) =
      c (addr + i) &&& bs.flatten.getD i 0xFF := by
  induction bs generalizing addr c i with
  | nil => simp at hi
  | cons b bs ih =>
      rw [List.flatten_cons, List.length_append] at hi
      rw [programAll, run_cons, List.flatten_cons]
      rcases Nat.lt_or_ge i b.length with hib | hib
      · have hrest : ∀ op ∈ programAll (addr + b.length) bs, ¬ op.touches size (addr + i) := by
          intro op hop ht
          have := touches_programAll hop ht
          omega
        rw [run_untouched hrest, apply_program hib, List.getD_append _ _ _ _ hib]
      · obtain ⟨j, rfl⟩ : ∃ j, i = b.length + j := ⟨i - b.length, by omega⟩
        have hj : j < bs.flatten.length := by omega
        have hout : ¬ (Op.program addr b).touches size (addr + (b.length + j)) := by
          intro ht
          have : addr + (b.length + j) < addr + b.length := ht.2
          omega
        have hread : run size (programAll (addr + b.length) bs) ((Op.program addr b).apply size c)
            (addr + b.length + j) = _ := ih hj
        rw [Nat.add_assoc, apply_untouched hout] at hread
        rw [hread, List.getD_append_right _ _ _ _ (by omega), Nat.add_sub_cancel_left]

end NorFlash
