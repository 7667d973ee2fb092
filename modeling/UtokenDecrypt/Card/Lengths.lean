import UtokenDecrypt.Card.Yubikey
import UtokenDecrypt.Foundation.Memory

/-!
# Length fields

The three forms of a length field that `decode_length` reads, and the
shortest form, which `enc_push_length` writes.  A single byte is read as
the length it spells unless it is `81` or `82`; in a shortest form it
is below `80`.
-/

namespace UtokenDecrypt

open Foundation

/-- The bytes `decode_length` takes as a length field, and the length it
finds there. -/
inductive LengthEncoding : List UInt8 -> Nat -> Prop where
  | single {byte : UInt8} (h81 : byte ≠ 0x81) (h82 : byte ≠ 0x82) :
      LengthEncoding [byte] byte.toNat
  | oneByte (byte : UInt8) : LengthEncoding [0x81, byte] byte.toNat
  | twoBytes (high low : UInt8) :
      LengthEncoding [0x82, high, low] (high.toNat * 256 + low.toNat)

theorem LengthEncoding.length_le {field : List UInt8} {len : Nat}
    (h : LengthEncoding field len) : field.length ≤ 3 := by
  cases h with
  | single h81 h82 => exact Nat.le_add_left 1 2
  | oneByte byte => exact Nat.le_succ 2
  | twoBytes high low => exact Nat.le_refl 3

section

variable {mem : Nat -> UInt8} {pos : Nat}

/-- A length field in memory is read as what it says. -/
theorem decodeLength_value {field : List UInt8} {len : Nat}
    (h : LengthEncoding field len) (hmem : bytesAt mem pos field.length = field) :
    (decodeLength pos).value mem = (len, pos + field.length) := by
  cases h with
  | single h81 h82 =>
      have hbyte := (bytesAt_eq_cons_iff.mp hmem).2.1
      simp [decodeLength, hbyte, h81, h82]
  | oneByte byte =>
      rcases bytesAt_eq_cons_iff.mp hmem with ⟨_, hfirst, hrest⟩
      have hbyte := (bytesAt_eq_cons_iff.mp hrest).2.1
      simp [decodeLength, hfirst, hbyte]
  | twoBytes high low =>
      rcases bytesAt_eq_cons_iff.mp hmem with ⟨_, hfirst, hrest⟩
      rcases bytesAt_eq_cons_iff.mp hrest with ⟨_, hhigh, hlast⟩
      have hlow := (bytesAt_eq_cons_iff.mp hlast).2.1
      rw [Nat.add_assoc] at hlow
      simp [decodeLength, hfirst, hhigh, hlow, shiftLeft_or_byte]

/-- Whatever is in memory is some length field, and only its bytes are looked
at. -/
theorem decodeLength_exists (mem : Nat -> UInt8) (pos : Nat) :
    exists field len, LengthEncoding field len ∧
      bytesAt mem pos field.length = field ∧
      forall p, p ∈ (decodeLength pos).reads mem -> p < pos + field.length := by
  by_cases h81 : mem pos = 0x81
  · refine ⟨[0x81, mem (pos + 1)], _, LengthEncoding.oneByte _, ?_, ?_⟩
    · simp [bytesAt, h81]
    · simp [decodeLength, h81]
  · by_cases h82 : mem pos = 0x82
    · refine ⟨[0x82, mem (pos + 1), mem (pos + 2)], _,
        LengthEncoding.twoBytes _ _, ?_, ?_⟩
      · simp [bytesAt, h82]
      · simp [decodeLength, h82]
    · refine ⟨[mem pos], _, LengthEncoding.single h81 h82, ?_, ?_⟩
      · simp [bytesAt]
      · simp [decodeLength, h81, h82]

end

/-!
## Shortest forms
-/

/-- The length fields of the distinguished encoding rules that have room for
two bytes of length at most. -/
inductive DerLength : List UInt8 -> Nat -> Prop where
  | single {byte : UInt8} (h : byte < 0x80) : DerLength [byte] byte.toNat
  | oneByte (byte : UInt8) : DerLength [0x81, byte] byte.toNat
  | twoBytes (high low : UInt8) :
      DerLength [0x82, high, low] (high.toNat * 256 + low.toNat)

/-- No field for the same length is shorter. -/
def ShortestLength (field : List UInt8) (len : Nat) : Prop :=
  DerLength field len ∧
    forall other, DerLength other len -> field.length ≤ other.length

theorem DerLength.encoding {field : List UInt8} {len : Nat}
    (h : DerLength field len) : LengthEncoding field len := by
  cases h with
  | single h =>
      refine LengthEncoding.single ?_ ?_
      · rintro rfl
        exact absurd h (by decide)
      · rintro rfl
        exact absurd h (by decide)
  | oneByte byte => exact LengthEncoding.oneByte byte
  | twoBytes high low => exact LengthEncoding.twoBytes high low

/-- A field has room for the length only if it has bytes enough. -/
theorem DerLength.length_lower {field : List UInt8} {len : Nat}
    (h : DerLength field len) :
    (0x80 ≤ len -> 2 ≤ field.length) ∧ (0x100 ≤ len -> 3 ≤ field.length) ∧
      1 ≤ field.length := by
  cases h with
  | @single byte h =>
      have hlt : byte.toNat < 0x80 := UInt8.lt_iff_toNat_lt.mp h
      refine ⟨?_, ?_, Nat.le_refl 1⟩
      · intro hlen
        lia
      · intro hlen
        lia
  | oneByte byte =>
      have hlt := byte.toNat_lt
      refine ⟨fun _ => Nat.le_refl 2, ?_, Nat.le_succ 1⟩
      intro hlen
      lia
  | twoBytes high low =>
      exact ⟨fun _ => by simp, fun _ => by simp, by simp⟩

/-- The bytes `enc_push_length` writes, from the front. -/
def lengthBytes (len : Nat) : List UInt8 :=
  if len < 0x80 then [UInt8.ofNat len]
  else if len < 0x100 then [0x81, UInt8.ofNat len]
  else [0x82, UInt8.ofNat (len >>> 8), UInt8.ofNat len]

theorem lengthBytes_length_le (len : Nat) : (lengthBytes len).length ≤ 3 := by
  unfold lengthBytes
  split
  · simp
  · split <;> simp

theorem lengthBytes_shortest {len : Nat} (h : len < 0x10000) :
    ShortestLength (lengthBytes len) len := by
  have hlow : (UInt8.ofNat len).toNat = len % 256 := UInt8.toNat_ofNat'
  have hhigh : (UInt8.ofNat (len >>> 8)).toNat = len / 256 := by
    rw [UInt8.toNat_ofNat', Nat.shiftRight_eq_div_pow]
    lia
  unfold lengthBytes
  split
  · rename_i hsmall
    constructor
    · have hder := DerLength.single
        (UInt8.lt_iff_toNat_lt.mpr (by rw [hlow]; change _ < 128; lia) :
          UInt8.ofNat len < 0x80)
      rwa [hlow, Nat.mod_eq_of_lt (by lia)] at hder
    · intro other hother
      exact hother.length_lower.2.2
  · rename_i hbig
    split
    · constructor
      · have hder := DerLength.oneByte (UInt8.ofNat len)
        rwa [hlow, Nat.mod_eq_of_lt (by lia)] at hder
      · intro other hother
        exact hother.length_lower.1 (by lia)
    · constructor
      · have hder := DerLength.twoBytes (UInt8.ofNat (len >>> 8)) (UInt8.ofNat len)
        rwa [hlow, hhigh, show len / 256 * 256 + len % 256 = len by lia] at hder
      · intro other hother
        exact hother.length_lower.2.1 (by lia)

end UtokenDecrypt
