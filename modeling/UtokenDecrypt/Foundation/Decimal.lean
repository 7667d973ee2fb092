import Mathlib.Data.Nat.Digits.Lemmas
import UtokenDecrypt.Foundation.Strtoul

/-!
# Decimal numbers

The C library's `strtoul` in bases up to 10, and in base 0, where the text says
which base it is in; and the decimal text of a number, as `%u` prints it.
-/

namespace UtokenDecrypt
namespace Foundation

/-- A digit of a base up to 10. -/
def isDigitIn (base : Nat) (c : UInt8) : Bool :=
  0x30 ≤ c.toNat && c.toNat < 0x30 + base

/-- The number a string of digits denotes. -/
def digitsValue (base : Nat) (digits : List UInt8) : Nat :=
  digits.foldl (fun value c => value * base + (c.toNat - 0x30)) 0

/-- A number that does not fit is replaced by the largest one. -/
def strtoulIn (base : Nat) (text : List UInt8) : Nat × List UInt8 :=
  let signed := splitSign (text.dropWhile isSpace)
  let digits := signed.2.takeWhile (isDigitIn base)
  if digits = [] then (0, text)
  else
    let value := digitsValue base digits
    (if 2 ^ 64 ≤ value then 2 ^ 64 - 1
      else if signed.1 then sub64 0 value
      else value, signed.2.dropWhile (isDigitIn base))

/-- In base 0, a number that starts with `0x` is hexadecimal, and any other one that
starts with 0 is octal. -/
def strtoul0 (text : List UInt8) : Nat × List UInt8 :=
  let body := (splitSign (text.dropWhile isSpace)).2
  if dropHexPrefix body ≠ body then strtoul16 text
  else if body.head? = some 0x30 then strtoulIn 8 text
  else strtoulIn 10 text

def decimalDigit (d : Nat) : UInt8 :=
  UInt8.ofNat (0x30 + d)

/-- A number as `%u` prints it. -/
def decimalText (n : Nat) : List UInt8 :=
  if n = 0 then [0x30] else (Nat.digits 10 n).reverse.map decimalDigit

/-- A number as `%03u` prints it. -/
def decimalText3 (n : Nat) : List UInt8 :=
  List.replicate (3 - (decimalText n).length) 0x30 ++ decimalText n

/-!
## Reading what was printed
-/

theorem decimalDigit_toNat {d : Nat} (h : d < 10) : (decimalDigit d).toNat = 0x30 + d := by
  rw [decimalDigit, UInt8.toNat_ofNat']
  lia

theorem isDigitIn_plain {base : Nat} (hbase : base ≤ 10) {c : UInt8}
    (h : isDigitIn base c = true) :
    isSpace c = false ∧ c ≠ 0x2d ∧ c ≠ 0x2b ∧ c ≠ 0x78 ∧ c ≠ 0x58 := by
  apply isHexDigit_plain
  unfold isDigitIn at h
  rw [Bool.and_eq_true, decide_eq_true_eq, decide_eq_true_eq] at h
  unfold isHexDigit hexDigit?
  rw [if_pos]
  · rfl
  · rw [UInt8.le_iff_toNat_le, UInt8.le_iff_toNat_le]
    simp only [UInt8.reduceToNat]
    lia

/-- Digits have nothing in front of them. -/
theorem splitSign_digits {base : Nat} (hbase : base ≤ 10) {text : List UInt8}
    (hall : forall c, c ∈ text -> isDigitIn base c = true) :
    splitSign (text.dropWhile isSpace) = (false, text) ∧ dropHexPrefix text = text := by
  cases text with
  | nil => exact ⟨rfl, rfl⟩
  | cons head rest =>
      have hhead := isDigitIn_plain hbase (hall head List.mem_cons_self)
      constructor
      · rw [List.dropWhile_cons_of_neg (by rw [hhead.1]; decide)]
        unfold splitSign
        split
        · rename_i heq
          injection heq with heq
          exact absurd heq hhead.2.1
        · rename_i heq
          injection heq with heq
          exact absurd heq hhead.2.2.1
        · rfl
      · unfold dropHexPrefix
        split
        · rename_i x c more heq
          rw [heq] at hall
          have hx := isDigitIn_plain hbase (hall x (by simp))
          rw [if_neg, heq]
          intro h
          cases h.1 with
          | inl h78 => exact hx.2.2.2.1 h78
          | inr h58 => exact hx.2.2.2.2 h58
        · rfl

theorem strtoulIn_digits {base : Nat} (hbase : base ≤ 10) {text : List UInt8}
    (hne : text ≠ []) (hall : forall c, c ∈ text -> isDigitIn base c = true)
    (hfits : digitsValue base text < 2 ^ 64) :
    strtoulIn base text = (digitsValue base text, []) := by
  rw [strtoulIn, (splitSign_digits hbase hall).1]
  dsimp only
  rw [List.takeWhile_eq_self_iff.mpr hall, List.dropWhile_eq_nil_iff.mpr hall, if_neg hne,
    if_neg (by lia)]
  rfl

theorem digitsValue_map {digits : List Nat} (h : forall d, d ∈ digits -> d < 10) :
    digitsValue 10 (digits.reverse.map decimalDigit) = Nat.ofDigits 10 digits := by
  rw [digitsValue, List.foldl_map, List.foldl_reverse, Nat.ofDigits_eq_foldr]
  induction digits with
  | nil => rfl
  | cons d rest ih =>
      rw [List.foldr_cons, List.foldr_cons,
        ih fun other hmem => h other (List.mem_cons_of_mem _ hmem),
        decimalDigit_toNat (h d List.mem_cons_self), Nat.cast_id]
      lia

theorem digitsValue_decimalText (n : Nat) : digitsValue 10 (decimalText n) = n := by
  unfold decimalText
  split
  · rename_i hzero
    rw [hzero]
    rfl
  · rw [digitsValue_map fun d hmem => Nat.digits_lt_base (by decide) hmem,
      Nat.ofDigits_digits]

theorem isDigitIn_decimalText (n : Nat) :
    forall c, c ∈ decimalText n -> isDigitIn 10 c = true := by
  intro c hmem
  unfold decimalText at hmem
  split at hmem
  · rw [List.mem_singleton.mp hmem]
    decide
  · rcases List.mem_map.mp hmem with ⟨d, hd, rfl⟩
    have hlt := Nat.digits_lt_base (by decide) (List.mem_reverse.mp hd)
    rw [isDigitIn, decimalDigit_toNat hlt, Bool.and_eq_true, decide_eq_true_eq,
      decide_eq_true_eq]
    lia

theorem decimalText_ne_nil (n : Nat) : decimalText n ≠ [] := by
  unfold decimalText
  split
  · exact List.cons_ne_nil _ _
  · rename_i hne
    rw [ne_eq, List.map_eq_nil_iff, List.reverse_eq_nil_iff]
    exact Nat.digits_ne_nil_iff_ne_zero.mpr hne

theorem strtoulIn_decimalText {n : Nat} (h : n < 2 ^ 64) :
    strtoulIn 10 (decimalText n) = (n, []) := by
  have hvalue := digitsValue_decimalText n
  rw [strtoulIn_digits (Nat.le_refl 10) (decimalText_ne_nil n) (isDigitIn_decimalText n)
    (by lia), hvalue]

/-- Only zero is printed with a zero in front. -/
theorem head?_decimalText {n : Nat} (h : n ≠ 0) : (decimalText n).head? ≠ some 0x30 := by
  have hne := Nat.digits_ne_nil_iff_ne_zero (b := 10).mpr h
  have hlast := Nat.getLast_digit_ne_zero 10 h
  have hlt := Nat.digits_lt_base (by decide) (List.getLast_mem hne)
  rw [decimalText, if_neg h, List.head?_map, List.head?_reverse,
    List.getLast?_eq_some_getLast hne, Option.map_some]
  intro heq
  injection heq with heq
  have hnat := congrArg UInt8.toNat heq
  rw [decimalDigit_toNat hlt] at hnat
  simp only [UInt8.reduceToNat] at hnat
  lia

/-- A decimal number is one in base 0, too. -/
theorem strtoul0_decimalText {n : Nat} (h : n < 2 ^ 64) :
    strtoul0 (decimalText n) = (n, []) := by
  rcases splitSign_digits (Nat.le_refl 10) (isDigitIn_decimalText n) with ⟨hsign, hprefix⟩
  rw [strtoul0, hsign]
  dsimp only
  rw [if_neg (fun hne => hne hprefix)]
  by_cases hzero : n = 0
  · rw [hzero]
    decide
  · rw [if_neg (head?_decimalText hzero)]
    exact strtoulIn_decimalText h

end Foundation
end UtokenDecrypt
