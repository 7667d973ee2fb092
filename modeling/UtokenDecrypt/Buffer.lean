import UtokenDecrypt.Foundation.Slice
import UtokenDecrypt.Foundation.Words

/-!
# Byte buffers

The `buffer_t` of `bufparser.h`: a block of memory with a read and a
write position.  An operation that can fail returns `none` where the C
function returns `false`; the C functions fail before they touch anything,
so the caller keeps the buffer it had.

The positions are `size_t` and most lengths are `unsigned int`, and
the subtractions below wrap as the C ones do.  `Buffer.Wf` is the
invariant under which they do not.
-/

namespace UtokenDecrypt

open Foundation

structure Buffer where
  rpos : Nat
  wpos : Nat
  size : Nat
  data : List UInt8
deriving DecidableEq

/-!
## Operations
-/

def bufferInitRead (data : List UInt8) : Buffer where
  rpos := 0
  wpos := wrap32 data.length
  size := wrap32 data.length
  data := data

def bufferSkip (bp : Buffer) (count : Nat) : Option Buffer :=
  if count > sub64 bp.wpos bp.rpos then none
  else some { bp with rpos := bp.rpos + count }

/-- The memory from the read position on. -/
def bufferReadPointer (bp : Buffer) : List UInt8 :=
  bp.data.drop bp.rpos

def bufferAvailable (bp : Buffer) : Nat :=
  wrap32 (sub64 bp.wpos bp.rpos)

def bufferGet (bp : Buffer) (count : Nat) : Option (List UInt8 × Buffer) :=
  if count > sub64 bp.wpos bp.rpos then none
  else some ((bufferReadPointer bp).take count, { bp with rpos := bp.rpos + count })

def bufferGetU8 (bp : Buffer) : Option (UInt8 × Buffer) :=
  (bufferGet bp 1).map fun got => (UInt8.ofNat (leValue got.1), got.2)

def bufferGetU32le (bp : Buffer) : Option (Nat × Buffer) :=
  (bufferGet bp 4).map fun got => (leValue got.1, got.2)

/-- Memory fresh from the allocator; what is in it before the first write is
never looked at. -/
def bufferInitWrite (len : Nat) : Buffer where
  rpos := 0
  wpos := 0
  size := wrap32 len
  data := List.replicate (wrap32 len) 0

/-- The size is rounded up to a multiple of 8 in an `unsigned long`, and
cut to an `unsigned int` by `buffer_init_write`. -/
def bufferAllocWrite (size : Nat) : Buffer :=
  bufferInitWrite (wrap64 (size + 7) / 8 * 8)

/-- The memory from the write position on. -/
def bufferWritePointer (bp : Buffer) : List UInt8 :=
  bp.data.drop bp.wpos

def bufferTailroom (bp : Buffer) : Nat :=
  wrap32 (sub64 bp.size bp.wpos)

def bufferPut (bp : Buffer) (src : List UInt8) : Option Buffer :=
  if src.length > sub64 bp.size bp.wpos then none
  else some { bp with
    data := overwrite bp.data bp.wpos src
    wpos := bp.wpos + src.length }

def bufferPutU8 (bp : Buffer) (value : UInt8) : Option Buffer :=
  bufferPut bp [value]

def bufferPutU32le (bp : Buffer) (value : Nat) : Option Buffer :=
  bufferPut bp (leBytes 4 value)

def bufferTruncate (bp : Buffer) (len : Nat) : Option Buffer :=
  if bufferAvailable bp < len then none
  else some { bp with wpos := bp.rpos + len }

/-!
## The invariant
-/

namespace Buffer

/-- The positions are in order, and the memory is as large as declared. -/
structure Wf (bp : Buffer) : Prop where
  rpos_le : bp.rpos ≤ bp.wpos
  wpos_le : bp.wpos ≤ bp.size
  size_lt : bp.size < 2 ^ 32
  length_eq : bp.data.length = bp.size

/-- The available bytes: those written and not yet read. -/
def contents (bp : Buffer) : List UInt8 :=
  slice bp.data bp.rpos bp.wpos

theorem Wf.contents_length {bp : Buffer} (h : bp.Wf) :
    bp.contents.length = bp.wpos - bp.rpos :=
  slice_length (by rw [h.length_eq]; exact h.wpos_le)

theorem Wf.unread {bp : Buffer} (h : bp.Wf) :
    sub64 bp.wpos bp.rpos = bp.contents.length := by
  rw [h.contents_length, sub64_of_le h.rpos_le]

theorem Wf.room {bp : Buffer} (h : bp.Wf) :
    sub64 bp.size bp.wpos = bp.size - bp.wpos :=
  sub64_of_le h.wpos_le

theorem Wf.contents_lt {bp : Buffer} (h : bp.Wf) :
    bp.contents.length < 2 ^ 32 := by
  have h2 := h.wpos_le
  have h3 := h.size_lt
  rw [h.contents_length]
  lia

end Buffer

/-!
## What each operation does to a well-formed buffer
-/

section

variable {bp : Buffer}

theorem bufferAvailable_eq (h : bp.Wf) :
    bufferAvailable bp = bp.contents.length := by
  rw [bufferAvailable, h.unread, wrap32_of_lt h.contents_lt]

theorem bufferTailroom_eq (h : bp.Wf) :
    bufferTailroom bp = bp.size - bp.wpos := by
  have h3 := h.size_lt
  rw [bufferTailroom, h.room, wrap32_of_lt (by lia)]

/-- The memory behind the read pointer starts with the available bytes. -/
theorem bufferReadPointer_take (h : bp.Wf) {count : Nat}
    (hcount : count ≤ bp.contents.length) :
    (bufferReadPointer bp).take count = bp.contents.take count := by
  have hlen := h.contents_length
  simp only [bufferReadPointer, Buffer.contents, slice, List.take_take]
  congr 1
  lia

/-- The unread bytes are there. -/
theorem contents_length_le (h : bp.Wf) :
    bp.contents.length ≤ (bufferReadPointer bp).length := by
  have hlen := h.contents_length
  have hwpos := h.wpos_le
  rw [bufferReadPointer, List.length_drop, h.length_eq]
  lia

theorem bufferReadPointer_take_all (h : bp.Wf) :
    (bufferReadPointer bp).take (bufferAvailable bp) = bp.contents := by
  rw [bufferAvailable_eq h, bufferReadPointer_take h (Nat.le_refl _),
    List.take_length]

/-- The available bytes after skipping some of them. -/
theorem bufferSkip_eq_some (h : bp.Wf) {count : Nat}
    (hcount : count ≤ bp.contents.length) :
    bufferSkip bp count = some { bp with rpos := bp.rpos + count } := by
  rw [bufferSkip, h.unread, if_neg (by lia)]

theorem bufferSkip_eq_none (h : bp.Wf) {count : Nat}
    (hcount : bp.contents.length < count) : bufferSkip bp count = none := by
  rw [bufferSkip, h.unread, if_pos hcount]

theorem bufferSkip_contents (bp : Buffer) (count : Nat) :
    ({ bp with rpos := bp.rpos + count } : Buffer).contents =
      bp.contents.drop count := by
  simp only [Buffer.contents, drop_slice]

theorem bufferSkip_wf (h : bp.Wf) {count : Nat}
    (hcount : count ≤ bp.contents.length) :
    ({ bp with rpos := bp.rpos + count } : Buffer).Wf := by
  have h1 := h.rpos_le
  rw [h.contents_length] at hcount
  exact ⟨by show bp.rpos + count ≤ bp.wpos; lia, h.wpos_le, h.size_lt,
    h.length_eq⟩

/-- Reading splits the available bytes. -/
theorem bufferGet_eq_some (h : bp.Wf) {count : Nat}
    (hcount : count ≤ bp.contents.length) :
    bufferGet bp count =
      some (bp.contents.take count, { bp with rpos := bp.rpos + count }) := by
  rw [bufferGet, h.unread, if_neg (by lia), bufferReadPointer_take h hcount]

theorem bufferGetU8_eq_some (h : bp.Wf) (hcount : 1 ≤ bp.contents.length) :
    bufferGetU8 bp =
      some (bp.contents.getD 0 0, { bp with rpos := bp.rpos + 1 }) := by
  rw [bufferGetU8, bufferGet_eq_some h hcount]
  cases hbytes : bp.contents with
  | nil => simp [hbytes] at hcount
  | cons byte rest => simp [leValue]

theorem bufferGetU32le_eq_some (h : bp.Wf) (hcount : 4 ≤ bp.contents.length) :
    bufferGetU32le bp =
      some (leValue (bp.contents.take 4), { bp with rpos := bp.rpos + 4 }) := by
  rw [bufferGetU32le, bufferGet_eq_some h hcount]
  rfl

/-- Writing appends to the available bytes. -/
theorem bufferPut_eq_some (h : bp.Wf) {src : List UInt8}
    (hroom : src.length ≤ bp.size - bp.wpos) :
    bufferPut bp src = some { bp with
      data := overwrite bp.data bp.wpos src
      wpos := bp.wpos + src.length } := by
  rw [bufferPut, h.room, if_neg (by lia)]

theorem bufferPut_eq_none (h : bp.Wf) {src : List UInt8}
    (hroom : bp.size - bp.wpos < src.length) : bufferPut bp src = none := by
  rw [bufferPut, h.room, if_pos hroom]

theorem bufferPut_spec (h : bp.Wf) {src : List UInt8} {after : Buffer}
    (hput : bufferPut bp src = some after) :
    after.Wf ∧ after.contents = bp.contents ++ src ∧
      after.rpos = bp.rpos ∧ after.wpos = bp.wpos + src.length ∧
      after.size = bp.size := by
  have h1 := h.rpos_le
  have h2 := h.wpos_le
  by_cases hroom : src.length ≤ bp.size - bp.wpos
  · rw [bufferPut_eq_some h hroom] at hput
    injection hput with hafter
    subst hafter
    have hfit : bp.wpos + src.length ≤ bp.data.length := by
      rw [h.length_eq]
      lia
    refine ⟨⟨?_, ?_, h.size_lt, ?_⟩, ?_, rfl, rfl, rfl⟩
    · show bp.rpos ≤ bp.wpos + src.length
      lia
    · show bp.wpos + src.length ≤ bp.size
      lia
    · show (overwrite bp.data bp.wpos src).length = bp.size
      rw [overwrite_length hfit, h.length_eq]
    · exact slice_overwrite_append h1 (by rw [h.length_eq]; exact h2)
  · rw [bufferPut_eq_none h (by lia)] at hput
    cases hput

/-- Writing two runs of bytes in a row is writing them at once. -/
theorem bufferPut_append (h : bp.Wf) (front back : List UInt8) :
    ((bufferPut bp front).bind fun after => bufferPut after back) =
      bufferPut bp (front ++ back) := by
  have hlen : (front ++ back).length = front.length + back.length :=
    List.length_append
  have h2 := h.wpos_le
  cases Nat.lt_or_ge (bp.size - bp.wpos) front.length with
  | inl hfull =>
      rw [bufferPut_eq_none h hfull, bufferPut_eq_none h (by lia)]
      rfl
  | inr hroom =>
      have hput := bufferPut_eq_some h hroom
      have hwf := (bufferPut_spec h hput).1
      rw [hput, Option.bind_some]
      cases Nat.lt_or_ge (bp.size - bp.wpos) (front ++ back).length with
      | inl hfull =>
          rw [bufferPut_eq_none h hfull]
          apply bufferPut_eq_none hwf
          change bp.size - (bp.wpos + front.length) < back.length
          lia
      | inr hroom2 =>
          have hdata : bp.wpos + front.length ≤ bp.data.length := by
            rw [h.length_eq]
            lia
          rw [bufferPut_eq_some h hroom2, bufferPut_eq_some hwf]
          · simp only [overwrite_append hdata, hlen, Nat.add_assoc]
          · change back.length ≤ bp.size - (bp.wpos + front.length)
            lia

/-- The same with something done behind the two writes. -/
theorem bufferPut_bind_put (h : bp.Wf) {α : Type} (front back : List UInt8)
    (next : Buffer -> Option α) :
    ((bufferPut bp front).bind fun after => (bufferPut after back).bind next) =
      (bufferPut bp (front ++ back)).bind next := by
  rw [← bufferPut_append h, Option.bind_assoc]

theorem bufferPut_nil (h : bp.Wf) : bufferPut bp [] = some bp := by
  rw [bufferPut_eq_some h (Nat.zero_le _)]
  simp [overwrite]

/-- A write succeeds exactly when there is room for it. -/
theorem bufferPut_isSome_iff (h : bp.Wf) (src : List UInt8) :
    (bufferPut bp src).isSome ↔ bp.wpos + src.length ≤ bp.size := by
  have h2 := h.wpos_le
  by_cases hroom : src.length ≤ bp.size - bp.wpos
  · rw [bufferPut_eq_some h hroom]
    simp only [Option.isSome_some, true_iff]
    lia
  · rw [bufferPut_eq_none h (by lia)]
    simp only [Option.isSome_none, Bool.false_eq_true, false_iff]
    lia

/-- Truncating keeps the front of the available bytes. -/
theorem bufferTruncate_eq_some (h : bp.Wf) {len : Nat}
    (hlen : len ≤ bp.contents.length) :
    bufferTruncate bp len = some { bp with wpos := bp.rpos + len } := by
  rw [bufferTruncate, bufferAvailable_eq h, if_neg (by lia)]

theorem bufferTruncate_eq_none (h : bp.Wf) {len : Nat}
    (hlen : bp.contents.length < len) : bufferTruncate bp len = none := by
  rw [bufferTruncate, bufferAvailable_eq h, if_pos hlen]

/-- Moving the write position back keeps the front of the available bytes. -/
theorem contents_of_shorter (bp : Buffer) {count : Nat} (hcount : bp.rpos + count ≤ bp.wpos) :
    ({ bp with wpos := bp.rpos + count } : Buffer).contents =
      bp.contents.take count := by
  simp only [Buffer.contents]
  rw [take_slice hcount]

theorem wf_of_shorter (h : bp.Wf) {count : Nat}
    (hcount : bp.rpos + count ≤ bp.wpos) :
    ({ bp with wpos := bp.rpos + count } : Buffer).Wf := by
  have h2 := h.wpos_le
  exact ⟨Nat.le_add_right _ _, by show bp.rpos + count ≤ bp.size; lia,
    h.size_lt, h.length_eq⟩

end

/-!
## Fresh buffers
-/

/-- The size a buffer gets when `size` bytes are asked for. -/
def capacity (size : Nat) : Nat :=
  wrap32 (wrap64 (size + 7) / 8 * 8)

@[simp] theorem bufferAllocWrite_size (size : Nat) :
    (bufferAllocWrite size).size = capacity size := rfl

theorem capacity_of_le {size : Nat} (h : size ≤ 2 ^ 32 - 8) :
    capacity size = (size + 7) / 8 * 8 := by
  unfold capacity wrap32 wrap64
  lia

theorem capacity_lt (size : Nat) : capacity size < 2 ^ 32 :=
  wrap32_lt _

theorem le_capacity {size : Nat} (h : size ≤ 2 ^ 32 - 8) :
    size ≤ capacity size := by
  rw [capacity_of_le h]
  lia

theorem bufferAllocWrite_wf (size : Nat) : (bufferAllocWrite size).Wf :=
  ⟨Nat.le_refl 0, Nat.zero_le _, wrap32_lt _, List.length_replicate⟩

@[simp] theorem bufferAllocWrite_contents (size : Nat) :
    (bufferAllocWrite size).contents = [] := rfl

theorem bufferInitRead_wf {data : List UInt8} (h : data.length < 2 ^ 32) :
    (bufferInitRead data).Wf := by
  have hlen : (bufferInitRead data).size = data.length := wrap32_of_lt h
  exact ⟨Nat.zero_le _, Nat.le_refl _, wrap32_lt _, hlen.symm⟩

theorem bufferInitRead_contents {data : List UInt8} (h : data.length < 2 ^ 32) :
    (bufferInitRead data).contents = data := by
  show slice data 0 (wrap32 data.length) = data
  rw [wrap32_of_lt h, slice_full]

end UtokenDecrypt
