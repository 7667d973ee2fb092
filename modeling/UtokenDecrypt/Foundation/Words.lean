import Mathlib.Data.Nat.Bitwise
import Mathlib.Data.List.TakeDrop
import Mathlib.Tactic.Ring

/-!
# Machine words and little-endian bytes

Arithmetic of fixed-width unsigned machine words on natural numbers, with the
wrap-around written out, and the little-endian reading and writing of byte
lists.  The modules above state their lengths as naturals and use these
functions at the places where a C type is narrower than the value put in it.
-/

namespace UtokenDecrypt
namespace Foundation

/-!
## Wrapping arithmetic
-/

/-- The value a 32-bit unsigned word holds after being assigned `n`. -/
def wrap32 (n : Nat) : Nat :=
  n % 2 ^ 32

/-- The value a 64-bit unsigned word holds after being assigned `n`. -/
def wrap64 (n : Nat) : Nat :=
  n % 2 ^ 64

/-- Subtraction of 32-bit unsigned words. -/
def sub32 (a b : Nat) : Nat :=
  if b ≤ a then a - b else 2 ^ 32 - (b - a)

/-- Subtraction of 64-bit unsigned words. -/
def sub64 (a b : Nat) : Nat :=
  if b ≤ a then a - b else 2 ^ 64 - (b - a)

/-- The value of a 32-bit word read as a signed integer. -/
def signed32 (n : Nat) : Int :=
  if wrap32 n < 2 ^ 31 then (wrap32 n : Int) else (wrap32 n : Int) - 2 ^ 32

theorem wrap32_of_lt {n : Nat} (h : n < 2 ^ 32) : wrap32 n = n :=
  Nat.mod_eq_of_lt h

theorem wrap32_lt (n : Nat) : wrap32 n < 2 ^ 32 :=
  Nat.mod_lt n (by decide)

theorem wrap64_of_lt {n : Nat} (h : n < 2 ^ 64) : wrap64 n = n :=
  Nat.mod_eq_of_lt h

theorem sub32_of_le {a b : Nat} (h : b ≤ a) : sub32 a b = a - b :=
  if_pos h

theorem sub64_of_le {a b : Nat} (h : b ≤ a) : sub64 a b = a - b :=
  if_pos h

theorem signed32_nonneg_iff {n : Nat} (h : n < 2 ^ 32) :
    0 ≤ signed32 n ↔ n < 2 ^ 31 := by
  unfold signed32
  rw [wrap32_of_lt h]
  split <;> lia

theorem signed32_le (n : Nat) : signed32 n ≤ n := by
  have hle : wrap32 n ≤ n := Nat.mod_le n _
  unfold signed32
  split <;> lia

/-- Only a number that fits is read as itself. -/
theorem signed32_eq_self_iff (n : Nat) : signed32 n = n ↔ n < 2 ^ 31 := by
  constructor
  · intro h
    have hlt := wrap32_lt n
    unfold signed32 at h
    split at h <;> lia
  · intro h
    unfold signed32
    rw [wrap32_of_lt (by lia), if_pos h]

/-!
## Little-endian byte lists
-/

/-- The lowest `count` bytes of a number, lowest byte first. -/
def leBytes : Nat -> Nat -> List UInt8
  | 0, _ => []
  | count + 1, value => UInt8.ofNat value :: leBytes count (value / 256)

/-- The number a byte list spells, lowest byte first. -/
def leValue : List UInt8 -> Nat
  | [] => 0
  | byte :: rest => byte.toNat + 256 * leValue rest

@[simp] theorem leBytes_length (count value : Nat) :
    (leBytes count value).length = count := by
  induction count generalizing value with
  | zero => rfl
  | succ count ih => simp [leBytes, ih]

theorem leValue_leBytes (count value : Nat) :
    leValue (leBytes count value) = value % 256 ^ count := by
  induction count generalizing value with
  | zero => simp [leBytes, leValue, Nat.mod_one]
  | succ count ih =>
      have hhead : (UInt8.ofNat value).toNat = value % 256 :=
        UInt8.toNat_ofNat'
      rw [leBytes, leValue, ih, hhead, Nat.pow_succ (n := 256),
        Nat.mul_comm (256 ^ count) 256, Nat.mod_mul]

theorem leValue_leBytes_of_lt {count value : Nat} (h : value < 256 ^ count) :
    leValue (leBytes count value) = value := by
  rw [leValue_leBytes, Nat.mod_eq_of_lt h]

theorem leBytes_leValue (bytes : List UInt8) :
    leBytes bytes.length (leValue bytes) = bytes := by
  induction bytes with
  | nil => rfl
  | cons byte rest ih =>
      have hbyte : byte.toNat < 256 := byte.toNat_lt
      have hhead : UInt8.ofNat (byte.toNat + 256 * leValue rest) = byte := by
        apply UInt8.toNat_inj.mp
        rw [UInt8.toNat_ofNat']
        lia
      have htail : (byte.toNat + 256 * leValue rest) / 256 = leValue rest := by
        lia
      rw [List.length_cons, leBytes, leValue, hhead, htail, ih]

theorem leValue_append_byte (bytes : List UInt8) (byte : UInt8) :
    leValue (bytes ++ [byte]) =
      leValue bytes + 256 ^ bytes.length * byte.toNat := by
  induction bytes with
  | nil => simp [leValue]
  | cons head rest ih =>
      simp only [List.cons_append, leValue, ih, List.length_cons, Nat.pow_succ]
      ring

/-- Shifting a byte into the low end of an accumulator, as C code spells it. -/
theorem shiftLeft_or_byte (high : Nat) (byte : UInt8) :
    high <<< 8 ||| byte.toNat = high * 256 + byte.toNat := by
  rw [← Nat.shiftLeft_add_eq_or_of_lt byte.toNat_lt, Nat.shiftLeft_eq]

end Foundation
end UtokenDecrypt
