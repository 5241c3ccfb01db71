import Mathlib.Data.List.GetD
import Mathlib.Logic.Function.Basic
import Muxponder.KursNumbers

/-!
# Hexadecimal Digits, Printed and Read

`UintToHexStr` and `WordToHexStr` of `kurs_helper.c` fill a string from its end: a pointer starts at
the place of the last digit and goes down, and the loop ends when it stands in front of the string.
Here they are embedded with that pointer, over the memory around the string, and it is shown that
they leave what `uintToHexStr` and `wordToHexStr` say. Together with the two readers,
`Str8HexToU32` and `Str4HexToU16`, every number survives both directions.

The memory is given by the distance from `str`, which may be negative; a null `str`, for which the
printers do nothing, stands for no memory.

## Main results

* `printDigits_eq`: what the loop leaves, and where it stops.
* `uintToHexStrAt_text`, `wordToHexStrAt_text`: the printers write the digits of their number.
* `HexString.writeHex_number`: the number of a string of digits has these digits.
* `hex_survives`: the round trips.
-/

namespace Muxponder

open Digits

/-! ### The printers -/

/-- The loop of the printers: the digit of the last four bits is written at `pch`, and the pointer
goes down as long as it stands in the string. -/
def printDigits (mem : ℤ → UInt8) (val : ℕ) (pch : ℤ) : (ℤ → UInt8) × ℤ :=
  if 0 ≤ pch then
    let digit := hexDigit (val &&& 0x0F)
    printDigits (Function.update mem pch digit) (val >>> 4) (pch - 1)
  else (mem, pch)
termination_by (pch + 1).toNat

/-- A printer of `n` digits: `pch = &str[n - 1]` in front of the loop, and `pch += n + 1` behind it,
where the terminator is written. The pointer is returned. -/
def printHexStr (n : ℕ) (mem : ℤ → UInt8) (val : ℕ) : (ℤ → UInt8) × ℤ :=
  let (mem, pch) := printDigits mem val (n - 1)
  let pch := pch + (n + 1)
  (Function.update mem pch 0, pch)

/-- `UintToHexStr`, at a string. -/
def uintToHexStrAt (mem : ℤ → UInt8) (dwVal : UInt32) : (ℤ → UInt8) × ℤ :=
  printHexStr 8 mem dwVal.toNat

/-- `WordToHexStr`, at a string. -/
def wordToHexStrAt (mem : ℤ → UInt8) (wVal : UInt16) : (ℤ → UInt8) × ℤ :=
  printHexStr 4 mem wVal.toNat

/-- The first `n` characters of a string in memory. -/
def textAt (mem : ℤ → UInt8) (n : ℕ) : List UInt8 := (List.range n).map fun i : ℕ => mem i

/-- What a printer leaves, with the end of a packet in the place of the terminator. -/
def endPacket (printed : (ℤ → UInt8) × ℤ) : ℤ → UInt8 :=
  Function.update printed.1 printed.2 0x0D

variable {mem : ℤ → UInt8} {n val : ℕ}

/-- **What the loop leaves**: the digits from the start of the string up to where the pointer was,
and nothing else; it stops in front of the string. The induction goes up from there. -/
theorem printDigits_eq : printDigits mem val (n - 1) =
    (fun i : ℤ => if 0 ≤ i ∧ i < n then (writeHex n val).getD i.toNat 0 else mem i, -1) := by
  induction n generalizing mem val with
  | zero =>
      have hnone : ∀ i : ℤ, ¬ (0 ≤ i ∧ i < ((0 : ℕ) : ℤ)) := fun i => by omega
      rw [printDigits, if_neg (by omega)]
      simp only [hnone, if_false]
      rfl
  | succ n ih =>
      have hlow : val &&& 0x0F = val % 16 := Nat.and_two_pow_sub_one_eq_mod val 4
      have hhigh : val >>> 4 = val / 16 := Nat.shiftRight_eq_div_pow val 4
      have hpch : ((n + 1 : ℕ) : ℤ) - 1 = n := by omega
      rw [hpch, printDigits, if_pos (by omega), hlow, hhigh, ih]
      congr 1
      funext i
      by_cases hfront : 0 ≤ i ∧ i < n
      · have hlen : i.toNat < (writeHex n (val / 16)).length := by
          rw [writeHex_length]
          omega
        rw [if_pos hfront, if_pos ⟨hfront.1, by omega⟩, writeHex, List.getD_append _ _ _ _ hlen]
      by_cases hlast : i = n
      · subst hlast
        rw [if_neg hfront, if_pos ⟨by omega, by omega⟩, Function.update_self, writeHex,
          List.getD_append_right _ _ _ _ (by simp)]
        simp
      · rw [if_neg hfront, if_neg (by omega), Function.update_of_ne hlast]

/-- A printer returns the place behind the digits, which is that of the terminator. -/
theorem printHexStr_end : (printHexStr n mem val).2 = n := by
  have hend : (-1 : ℤ) + (n + 1) = n := by omega
  rw [printHexStr, printDigits_eq]
  exact hend

/-- What a printer leaves in the memory. -/
theorem printHexStr_mem : (printHexStr n mem val).1 = Function.update
    (fun i : ℤ => if 0 ≤ i ∧ i < n then (writeHex n val).getD i.toNat 0 else mem i) n 0 := by
  have hend : (-1 : ℤ) + (n + 1) = n := by omega
  rw [printHexStr, printDigits_eq]
  simp only [hend]

/-- A printer writes its digits and the terminator, and nothing else. -/
theorem printHexStr_frame {i : ℤ} (hi : i < 0 ∨ n < i) : (printHexStr n mem val).1 i = mem i := by
  rw [printHexStr_mem, Function.update_of_ne (by omega), if_neg (by omega)]

/-- The character behind the digits may be replaced without a change to them. -/
theorem textAt_update (c : UInt8) : textAt (Function.update mem n c) n = textAt mem n := by
  refine List.map_congr_left fun i hi => ?_
  have hne : (i : ℤ) ≠ n := by
    have hlt := List.mem_range.mp hi
    omega
  exact Function.update_of_ne hne c mem

/-- A string with one character more. -/
theorem textAt_succ : textAt mem (n + 1) = textAt mem n ++ [mem n] := by
  rw [textAt, List.range_succ, List.map_append]
  rfl

/-- A printed string starts with the digits. -/
theorem printHexStr_text : textAt (printHexStr n mem val).1 n = writeHex n val := by
  rw [printHexStr_mem, textAt_update]
  refine List.ext_getElem (by simp [textAt]) fun i hi hi' => ?_
  have hlt : i < n := by simpa using hi'
  simp [textAt, hlt]

/-- **`UintToHexStr` writes eight digits and the terminator.** -/
theorem uintToHexStrAt_text (v : UInt32) :
    textAt (uintToHexStrAt mem v).1 9 = uintToHexStr v ++ [0] := by
  have hnul : (uintToHexStrAt mem v).1 (8 : ℕ) = 0 := by
    rw [uintToHexStrAt, printHexStr_mem, Function.update_self]
  rw [textAt_succ, hnul, uintToHexStrAt, printHexStr_text, uintToHexStr]

/-- **`WordToHexStr` writes four digits**, and the end of the packet goes behind them. -/
theorem wordToHexStrAt_text (w : UInt16) :
    textAt (endPacket (wordToHexStrAt mem w)) 5 = wordToHexStr w ++ [0x0D] := by
  have hplace : (wordToHexStrAt mem w).2 = (4 : ℕ) := printHexStr_end
  rw [textAt_succ, endPacket, hplace, textAt_update, wordToHexStrAt, printHexStr_text,
    Function.update_self, wordToHexStr]

/-! ### Both directions -/

/-- A string of `n` hexadecimal digits, in either case. -/
structure HexString (n : ℕ) where
  digits : List UInt8
  length_eq : digits.length = n
  hexadecimal : ∀ ch ∈ digits, (hexValue ch).isSome = true

/-- The number that such a string is. -/
def HexString.number (ds : HexString n) : ℕ := value hexValue 16 0 ds.digits

/-- It is below the power of sixteen that the length of the string says. -/
theorem HexString.number_lt (ds : HexString n) : ds.number < 16 ^ n := by
  have hlt : ds.number < 16 ^ ds.digits.length := hexadecimal_lt
  rwa [ds.length_eq] at hlt

/-- Its digits are those of the string, in upper case. -/
theorem HexString.writeHex_number (ds : HexString n) :
    writeHex n ds.number = ds.digits.map upperCase := by
  have hwrite := writeHex_value (n := 0) ds.hexadecimal
  rwa [ds.length_eq] at hwrite

/-- **Hexadecimal numbers survive both directions**: what is printed is read as it was, and the
number read from digits is printed as these digits, in upper case. -/
theorem hex_survives (mem : ℤ → UInt8) (rest : List UInt8) :
    (∀ v : UInt32, str8HexToU32 (textAt (uintToHexStrAt mem v).1 9 ++ rest) = some v) ∧
    (∀ w : UInt16, str4HexToU16 (textAt (endPacket (wordToHexStrAt mem w)) 5 ++ rest) =
      some (some w)) ∧
    (∀ ds : HexString 8, ∃ v, str8HexToU32 (ds.digits ++ rest) = some v ∧
      textAt (uintToHexStrAt mem v).1 8 = ds.digits.map upperCase) ∧
    ∀ ds : HexString 4, ∃ w, str4HexToU16 (ds.digits ++ 0x0D :: rest) = some (some w) ∧
      textAt (wordToHexStrAt mem w).1 4 = ds.digits.map upperCase := by
  refine ⟨fun v => ?_, fun w => ?_, fun ds => ?_, fun ds => ?_⟩
  · rw [uintToHexStrAt_text, List.append_assoc]
    exact str8HexToU32_uintToHexStr v _
  · rw [wordToHexStrAt_text, List.append_assoc]
    exact str4HexToU16_wordToHexStr w rest
  · have hread : str8HexToU32 (ds.digits ++ rest) = some (UInt32.ofNat ds.number) := by
      rw [str8HexToU32, readHex_eq_value ds.length_eq ds.hexadecimal, HexString.number]
      rfl
    have hnumber : (UInt32.ofNat ds.number).toNat = ds.number :=
      UInt32.toNat_ofNat_of_lt' ds.number_lt
    refine ⟨_, hread, ?_⟩
    rw [uintToHexStrAt, printHexStr_text, hnumber, ds.writeHex_number]
  · have hnumber : (UInt16.ofNat ds.number).toNat = ds.number :=
      UInt16.toNat_ofNat_of_lt' ds.number_lt
    refine ⟨_, str4HexToU16_digits ds.hexadecimal ds.length_eq, ?_⟩
    rw [wordToHexStrAt, printHexStr_text, ← HexString.number, hnumber, ds.writeHex_number]

end Muxponder
