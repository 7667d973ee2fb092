import Mathlib.Data.List.TakeWhile
import UtokenDecrypt.Foundation.Words

/-!
# Reading a hexadecimal number

The C library's `strtoul` in base 16, in the C locale and with a 64-bit
`unsigned long`: white space, a sign, an optional `0x`, and as many
digits as there are.  It returns the number and the rest of the string, which is
the whole string when there is no digit to read.
-/

namespace UtokenDecrypt
namespace Foundation

def isSpace (c : UInt8) : Bool :=
  c == 0x20 || (0x09 ≤ c && c ≤ 0x0d)

def hexDigit? (c : UInt8) : Option Nat :=
  if 0x30 ≤ c ∧ c ≤ 0x39 then some (c.toNat - 0x30)
  else if 0x41 ≤ c ∧ c ≤ 0x46 then some (c.toNat - 0x41 + 10)
  else if 0x61 ≤ c ∧ c ≤ 0x66 then some (c.toNat - 0x61 + 10)
  else none

def isHexDigit (c : UInt8) : Bool :=
  (hexDigit? c).isSome

/-- The number a string of digits denotes. -/
def hexValue (digits : List UInt8) : Nat :=
  digits.foldl (fun value c => value * 16 + (hexDigit? c).getD 0) 0

/-- Whether the number is negated, and what follows the sign. -/
def splitSign : List UInt8 -> Bool × List UInt8
  | 0x2d :: rest => (true, rest)
  | 0x2b :: rest => (false, rest)
  | text => (false, text)

/-- What follows `0x`, which counts only in front of a digit. -/
def dropHexPrefix : List UInt8 -> List UInt8
  | 0x30 :: x :: c :: rest =>
      if (x = 0x78 ∨ x = 0x58) ∧ isHexDigit c then c :: rest
      else 0x30 :: x :: c :: rest
  | text => text

/-- A number that does not fit is replaced by the largest one. -/
def strtoul16 (text : List UInt8) : Nat × List UInt8 :=
  let signed := splitSign (text.dropWhile isSpace)
  let body := dropHexPrefix signed.2
  let digits := body.takeWhile isHexDigit
  if digits = [] then (0, text)
  else
    let value := hexValue digits
    (if 2 ^ 64 ≤ value then 2 ^ 64 - 1
      else if signed.1 then sub64 0 value
      else value, body.dropWhile isHexDigit)

/-!
## What a text denotes
-/

/-- The number a text spells, if it is all of one: white space, a sign, an
optional `0x` and at least one digit. -/
def hexNumber? (text : List UInt8) : Option Int :=
  let signed := splitSign (text.dropWhile isSpace)
  let digits := dropHexPrefix signed.2
  if digits ≠ [] ∧ digits.all isHexDigit then
    some (if signed.1 then -(hexValue digits : Int) else hexValue digits)
  else none

/-- The `unsigned long` that `strtoul` makes of a number. -/
def ulongOfInt (v : Int) : Nat :=
  if 2 ^ 64 ≤ v.natAbs then 2 ^ 64 - 1 else (v % 2 ^ 64).toNat

theorem isHexDigit_range {c : UInt8} (h : isHexDigit c = true) :
    (0x30 ≤ c ∧ c ≤ 0x39) ∨ (0x41 ≤ c ∧ c ≤ 0x46) ∨ (0x61 ≤ c ∧ c ≤ 0x66) := by
  unfold isHexDigit hexDigit? at h
  split at h
  · exact Or.inl ‹_›
  · split at h
    · exact Or.inr (Or.inl ‹_›)
    · split at h
      · exact Or.inr (Or.inr ‹_›)
      · cases h

/-- A digit is none of the characters that may come before the digits. -/
theorem isHexDigit_plain {c : UInt8} (h : isHexDigit c = true) :
    isSpace c = false ∧ c ≠ 0x2d ∧ c ≠ 0x2b ∧ c ≠ 0x78 ∧ c ≠ 0x58 := by
  have hrange := isHexDigit_range h
  simp only [UInt8.le_iff_toNat_le] at hrange
  have hnot : forall d : UInt8, d.toNat ≠ c.toNat -> c ≠ d := by
    intro d hne heq
    exact hne (congrArg UInt8.toNat heq.symm)
  simp only [UInt8.reduceToNat] at hrange
  refine ⟨?_, hnot _ ?_, hnot _ ?_, hnot _ ?_, hnot _ ?_⟩
  · unfold isSpace
    have hspace : c ≠ 0x20 := hnot _ (by simp only [UInt8.reduceToNat]; lia)
    have htab : ¬ c ≤ 0x0d := by
      rw [UInt8.le_iff_toNat_le]
      simp only [UInt8.reduceToNat]
      lia
    simp [hspace, htab]
  all_goals
    simp only [UInt8.reduceToNat]
    lia

/-- Digits and nothing else. -/
theorem hexNumber?_digits {text : List UInt8} (hne : text ≠ [])
    (hall : forall c, c ∈ text -> isHexDigit c = true) :
    hexNumber? text = some (hexValue text : Int) := by
  cases text with
  | nil => exact absurd rfl hne
  | cons head rest =>
      have hhead := isHexDigit_plain (hall head List.mem_cons_self)
      have hspace : (head :: rest).dropWhile isSpace = head :: rest :=
        List.dropWhile_cons_of_neg (by rw [hhead.1]; decide)
      have hsign : splitSign (head :: rest) = (false, head :: rest) := by
        unfold splitSign
        split
        · rename_i heq
          injection heq with heq
          exact absurd heq hhead.2.1
        · rename_i heq
          injection heq with heq
          exact absurd heq hhead.2.2.1
        · rfl
      have hprefix : dropHexPrefix (head :: rest) = head :: rest := by
        unfold dropHexPrefix
        split
        · rename_i x c more heq
          rw [heq] at hall
          have hx := isHexDigit_plain (hall x (by simp))
          rw [if_neg, heq]
          · intro h
            cases h.1 with
            | inl h78 => exact hx.2.2.2.1 h78
            | inr h58 => exact hx.2.2.2.2 h58
        · rfl
      simp only [hexNumber?, hspace, hsign, hprefix]
      rw [if_pos ⟨hne, List.all_eq_true.mpr hall⟩, if_neg (by decide)]

theorem strtoul16_nil : strtoul16 [] = (0, []) := rfl

theorem strtoul16_of_hexNumber {text : List UInt8} {v : Int}
    (h : hexNumber? text = some v) : strtoul16 text = (ulongOfInt v, []) := by
  simp only [hexNumber?] at h
  split at h
  · rename_i hdigits
    rcases hdigits with ⟨hne, hall⟩
    injection h with hv
    have hmem : forall c, c ∈ dropHexPrefix (splitSign (text.dropWhile isSpace)).2 ->
        isHexDigit c = true := List.all_eq_true.mp hall
    have htake := List.takeWhile_eq_self_iff.mpr hmem
    have hdrop := List.dropWhile_eq_nil_iff.mpr hmem
    simp only [strtoul16, htake, hdrop, if_neg hne]
    congr 1
    rw [← hv]
    unfold ulongOfInt sub64
    cases (splitSign (text.dropWhile isSpace)).1 with
    | true =>
        simp only [if_true, Int.natAbs_neg, Int.natAbs_natCast]
        split
        · rfl
        · split <;> lia
    | false =>
        simp only [Bool.false_eq_true, if_false, Int.natAbs_natCast]
        split
        · rfl
        · lia
  · cases h

/-- A text that spells no number is not read to its end, unless it is empty. -/
theorem strtoul16_rest_ne_nil {text : List UInt8} (h : hexNumber? text = none)
    (hne : text ≠ []) : (strtoul16 text).2 ≠ [] := by
  simp only [strtoul16]
  split
  · exact hne
  · rename_i hdigits
    intro hrest
    have hmem := List.dropWhile_eq_nil_iff.mp hrest
    have hbody : dropHexPrefix (splitSign (text.dropWhile isSpace)).2 ≠ [] := by
      intro hnil
      rw [hnil] at hdigits
      exact hdigits rfl
    have hnumber : (hexNumber? text).isSome := by
      simp only [hexNumber?]
      rw [if_pos ⟨hbody, List.all_eq_true.mpr hmem⟩]
      rfl
    rw [h] at hnumber
    cases hnumber

/-- When all of a text is read, and what comes of it. -/
theorem strtoul16_whole_iff (text : List UInt8) :
    (strtoul16 text).2 = [] ↔ text = [] ∨ exists v, hexNumber? text = some v := by
  constructor
  · intro hrest
    by_cases hne : text = []
    · exact Or.inl hne
    · cases hnumber : hexNumber? text with
      | none => exact absurd hrest (strtoul16_rest_ne_nil hnumber hne)
      | some v => exact Or.inr ⟨v, rfl⟩
  · intro h
    rcases h with hnil | ⟨v, hnumber⟩
    · rw [hnil, strtoul16_nil]
    · rw [strtoul16_of_hexNumber hnumber]

end Foundation
end UtokenDecrypt
