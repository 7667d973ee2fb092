import Mathlib.Data.List.TakeDrop

/-!
# Bytes in memory

A memory has a byte at every position.  What a program finds in it from a
position on is spoken about as a list.
-/

namespace UtokenDecrypt
namespace Foundation

section

variable (mem : Nat -> UInt8)

/-- The bytes in memory from an offset on. -/
def bytesAt : Nat -> Nat -> List UInt8
  | _, 0 => []
  | p, count + 1 => mem p :: bytesAt (p + 1) count

@[simp] theorem bytesAt_length (p count : Nat) :
    (bytesAt mem p count).length = count := by
  induction count generalizing p with
  | zero => rfl
  | succ count ih => simp [bytesAt, ih]

theorem bytesAt_succ_last (p count : Nat) :
    bytesAt mem p (count + 1) = bytesAt mem p count ++ [mem (p + count)] := by
  induction count generalizing p with
  | zero => rfl
  | succ count ih =>
      rw [bytesAt, ih (p + 1), bytesAt, List.cons_append,
        show p + 1 + count = p + (count + 1) by lia]

theorem bytesAt_append (p m n : Nat) :
    bytesAt mem p (m + n) = bytesAt mem p m ++ bytesAt mem (p + m) n := by
  induction m generalizing p with
  | zero => simp [bytesAt]
  | succ m ih =>
      rw [Nat.succ_add, bytesAt, ih, bytesAt, List.cons_append,
        show p + 1 + m = p + (m + 1) by lia]

end

variable {mem : Nat -> UInt8}

/-- A run of bytes that starts with some others is split behind them. -/
theorem bytesAt_eq_append_iff {p count : Nat} {front back : List UInt8} :
    bytesAt mem p count = front ++ back ↔
      count = front.length + back.length ∧
        bytesAt mem p front.length = front ∧
        bytesAt mem (p + front.length) back.length = back := by
  constructor
  · intro h
    have hlen := congrArg List.length h
    rw [bytesAt_length, List.length_append] at hlen
    rw [hlen, bytesAt_append] at h
    have hparts := List.append_inj h (bytesAt_length _ _ _)
    exact ⟨hlen, hparts.1, hparts.2⟩
  · intro h
    rcases h with ⟨hlen, hfront, hback⟩
    rw [hlen, bytesAt_append, hfront, hback]

theorem bytesAt_eq_cons_iff {p count : Nat} {byte : UInt8} {back : List UInt8} :
    bytesAt mem p count = byte :: back ↔
      count = back.length + 1 ∧ mem p = byte ∧
        bytesAt mem (p + 1) back.length = back := by
  have h : bytesAt mem p count = [byte] ++ back ↔ _ := bytesAt_eq_append_iff
  rw [List.singleton_append] at h
  rw [h, List.length_singleton, Nat.add_comm 1]
  simp [bytesAt]

end Foundation
end UtokenDecrypt
