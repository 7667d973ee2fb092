import Mathlib.Logic.Function.Basic
import UtokenDecrypt.Buffer
import UtokenDecrypt.Foundation.Attempt

/-!
# Buffers in memory

The operations of `bufparser.h` statement by statement, on a memory that holds
any number of buffers and what the pointers of the callers point to.  Here a
function that fails hands back the memory it has got by then, so that it can be
asked whether it has changed anything.
-/

namespace UtokenDecrypt

open Foundation

/-- Buffers with data areas of their own, the bytes behind the pointers of the
callers, and the integers these hold after a conversion. -/
structure BufferMemory (ι κ : Type) where
  buffers : ι -> Buffer
  areas : κ -> List UInt8
  ints : κ -> Nat

/-- Where `memcpy` copies to. -/
inductive Dest (ι κ : Type) where
  /-- A pointer of the caller. -/
  | area (dest : κ)
  /-- The write pointer of a buffer. -/
  | tail (i : ι)

namespace BufferMemory

variable {ι κ : Type} [DecidableEq ι] [DecidableEq κ]

def setBuffer (s : BufferMemory ι κ) (i : ι) (bp : Buffer) : BufferMemory ι κ :=
  { s with buffers := Function.update s.buffers i bp }

def setInt (s : BufferMemory ι κ) (dest : κ) (value : Nat) : BufferMemory ι κ :=
  { s with ints := Function.update s.ints dest value }

def memcpy (s : BufferMemory ι κ) : Dest ι κ -> List UInt8 -> BufferMemory ι κ
  | .area dest, src =>
      { s with areas := Function.update s.areas dest (overwrite (s.areas dest) 0 src) }
  | .tail i, src =>
      s.setBuffer i { s.buffers i with
        data := overwrite (s.buffers i).data (s.buffers i).wpos src }

def setRpos (s : BufferMemory ι κ) (i : ι) (pos : Nat) : BufferMemory ι κ :=
  s.setBuffer i { s.buffers i with rpos := pos }

def setWpos (s : BufferMemory ι κ) (i : ι) (pos : Nat) : BufferMemory ι κ :=
  s.setBuffer i { s.buffers i with wpos := pos }

/-!
## The functions of bufparser.h
-/

def bufferSkip (i : ι) (count : Nat) : Attempt (BufferMemory ι κ) :=
  (Attempt.refuse fun s =>
    decide (count > sub64 (s.buffers i).wpos (s.buffers i).rpos)).andThen
  (Attempt.assign fun s => s.setRpos i ((s.buffers i).rpos + count))

def bufferSeekRead (i : ι) (newPos : Nat) : Attempt (BufferMemory ι κ) :=
  (Attempt.refuse fun s => decide (newPos > (s.buffers i).wpos)).andThen
  (Attempt.assign fun s => s.setRpos i newPos)

def bufferGet (i : ι) (dest : Dest ι κ) (count : Nat) : Attempt (BufferMemory ι κ) :=
  (Attempt.refuse fun s =>
    decide (count > sub64 (s.buffers i).wpos (s.buffers i).rpos)).andThen
  ((Attempt.assign fun s =>
    s.memcpy dest ((bufferReadPointer (s.buffers i)).take count)).andThen
  (Attempt.assign fun s => s.setRpos i ((s.buffers i).rpos + count)))

/-- Read the bytes of an integer and convert them in place. -/
def bufferGetInt (bytes : Nat) (i : ι) (dest : κ) : Attempt (BufferMemory ι κ) :=
  (bufferGet i (.area dest) bytes).andThen
  (Attempt.assign fun s => s.setInt dest (leValue ((s.areas dest).take bytes)))

def bufferGetU8 (i : ι) (dest : κ) : Attempt (BufferMemory ι κ) :=
  bufferGetInt 1 i dest

def bufferGetU16le (i : ι) (dest : κ) : Attempt (BufferMemory ι κ) :=
  bufferGetInt 2 i dest

def bufferGetU32le (i : ι) (dest : κ) : Attempt (BufferMemory ι κ) :=
  bufferGetInt 4 i dest

def bufferGetU64le (i : ι) (dest : κ) : Attempt (BufferMemory ι κ) :=
  bufferGetInt 8 i dest

def bufferPut (i : ι) (src : List UInt8) : Attempt (BufferMemory ι κ) :=
  (Attempt.refuse fun s =>
    decide (src.length > sub64 (s.buffers i).size (s.buffers i).wpos)).andThen
  ((Attempt.assign fun s => s.memcpy (.tail i) src).andThen
  (Attempt.assign fun s => s.setWpos i ((s.buffers i).wpos + src.length)))

def bufferPutU8 (i : ι) (value : UInt8) : Attempt (BufferMemory ι κ) :=
  bufferPut i [value]

def bufferPutU16le (i : ι) (value : UInt16) : Attempt (BufferMemory ι κ) :=
  bufferPut i (leBytes 2 value.toNat)

def bufferPutU32le (i : ι) (value : UInt32) : Attempt (BufferMemory ι κ) :=
  bufferPut i (leBytes 4 value.toNat)

def bufferPutU64le (i : ι) (value : UInt64) : Attempt (BufferMemory ι κ) :=
  bufferPut i (leBytes 8 value.toNat)

/-- The bytes go from the read pointer of one buffer to the write pointer of
the other; only then does the second one know that it has them. -/
def bufferCopy (src : ι) (count : Nat) (dst : ι) : Attempt (BufferMemory ι κ) :=
  (Attempt.refuse fun s => decide (bufferTailroom (s.buffers dst) < count)).andThen
  ((bufferGet src (.tail dst) count).andThen
  (Attempt.assign fun s => s.setWpos dst ((s.buffers dst).wpos + count)))

def bufferTruncate (i : ι) (len : Nat) : Attempt (BufferMemory ι κ) :=
  (Attempt.refuse fun s => decide (bufferAvailable (s.buffers i) < len)).andThen
  (Attempt.assign fun s => s.setWpos i ((s.buffers i).rpos + len))

end BufferMemory

/-- A call of one of the functions.  Bytes are only copied between buffers that
are distinct. -/
inductive BufferOp (ι κ : Type) where
  | put (i : ι) (src : List UInt8)
  | putU8 (i : ι) (value : UInt8)
  | putU16le (i : ι) (value : UInt16)
  | putU32le (i : ι) (value : UInt32)
  | putU64le (i : ι) (value : UInt64)
  | get (i : ι) (dest : κ) (count : Nat)
  | getU8 (i : ι) (dest : κ)
  | getU16le (i : ι) (dest : κ)
  | getU32le (i : ι) (dest : κ)
  | getU64le (i : ι) (dest : κ)
  | skip (i : ι) (count : Nat)
  | seekRead (i : ι) (newPos : Nat)
  | truncate (i : ι) (len : Nat)
  | copy (src : ι) (count : Nat) (dst : ι) (hne : src ≠ dst)


section

variable {ι κ : Type} [DecidableEq ι] [DecidableEq κ]

def BufferOp.exec : BufferOp ι κ -> Attempt (BufferMemory ι κ)
  | put i src => BufferMemory.bufferPut i src
  | putU8 i value => BufferMemory.bufferPutU8 i value
  | putU16le i value => BufferMemory.bufferPutU16le i value
  | putU32le i value => BufferMemory.bufferPutU32le i value
  | putU64le i value => BufferMemory.bufferPutU64le i value
  | get i dest count => BufferMemory.bufferGet i (.area dest) count
  | getU8 i dest => BufferMemory.bufferGetU8 i dest
  | getU16le i dest => BufferMemory.bufferGetU16le i dest
  | getU32le i dest => BufferMemory.bufferGetU32le i dest
  | getU64le i dest => BufferMemory.bufferGetU64le i dest
  | skip i count => BufferMemory.bufferSkip i count
  | seekRead i newPos => BufferMemory.bufferSeekRead i newPos
  | truncate i len => BufferMemory.bufferTruncate i len
  | copy src count dst _ => BufferMemory.bufferCopy src count dst

end

/-!
## What the functions do
-/

namespace BufferMemory

variable {ι κ : Type} [DecidableEq ι]

@[simp] theorem setBuffer_buffers (s : BufferMemory ι κ) (i : ι) (bp : Buffer) :
    (s.setBuffer i bp).buffers i = bp := by
  simp [setBuffer]

theorem setBuffer_buffers_of_ne (s : BufferMemory ι κ) {i k : ι} (bp : Buffer)
    (hne : k ≠ i) : (s.setBuffer i bp).buffers k = s.buffers k := by
  simp [setBuffer, hne]

theorem setBuffer_twice (s : BufferMemory ι κ) (i : ι) (bp after : Buffer) :
    (s.setBuffer i bp).setBuffer i after = s.setBuffer i after := by
  simp only [setBuffer, Function.update_idem]

theorem setBuffer_comm (s : BufferMemory ι κ) {i k : ι} (hne : i ≠ k)
    (bp after : Buffer) :
    (s.setBuffer i bp).setBuffer k after = (s.setBuffer k after).setBuffer i bp := by
  simp only [setBuffer, Function.update_comm hne]

theorem bufferSkip_atomic (i : ι) (count : Nat) :
    (bufferSkip i count : Attempt (BufferMemory ι κ)).Atomic
      (fun s => decide (count > sub64 (s.buffers i).wpos (s.buffers i).rpos))
      (fun s => s.setRpos i ((s.buffers i).rpos + count)) :=
  (Attempt.atomic_assign _).refuse_first _

theorem bufferSeekRead_atomic (i : ι) (newPos : Nat) :
    (bufferSeekRead i newPos : Attempt (BufferMemory ι κ)).Atomic
      (fun s => decide (newPos > (s.buffers i).wpos))
      (fun s => s.setRpos i newPos) :=
  (Attempt.atomic_assign _).refuse_first _

theorem bufferTruncate_atomic (i : ι) (len : Nat) :
    (bufferTruncate i len : Attempt (BufferMemory ι κ)).Atomic
      (fun s => decide (bufferAvailable (s.buffers i) < len))
      (fun s => s.setWpos i ((s.buffers i).rpos + len)) :=
  (Attempt.atomic_assign _).refuse_first _

variable [DecidableEq κ]

/-- The memory once some bytes behind the read pointer are copied. -/
def copied (s : BufferMemory ι κ) (i : ι) (dest : Dest ι κ) (count : Nat) :
    BufferMemory ι κ :=
  s.memcpy dest ((bufferReadPointer (s.buffers i)).take count)

theorem bufferGet_atomic (i : ι) (dest : Dest ι κ) (count : Nat) :
    (bufferGet i dest count).Atomic
      (fun s => decide (count > sub64 (s.buffers i).wpos (s.buffers i).rpos))
      (fun s => (s.copied i dest count).setRpos i
        (((s.copied i dest count).buffers i).rpos + count)) :=
  ((Attempt.atomic_assign _).andThen_assign _).refuse_first _

theorem bufferPut_atomic (i : ι) (src : List UInt8) :
    (bufferPut i src : Attempt (BufferMemory ι κ)).Atomic
      (fun s => decide (src.length > sub64 (s.buffers i).size (s.buffers i).wpos))
      (fun s => s.setBuffer i { s.buffers i with
        data := overwrite (s.buffers i).data (s.buffers i).wpos src
        wpos := (s.buffers i).wpos + src.length }) := by
  have h := ((Attempt.atomic_assign fun s : BufferMemory ι κ =>
    s.memcpy (.tail i) src).andThen_assign fun s =>
      s.setWpos i ((s.buffers i).wpos + src.length)).refuse_first fun s =>
        decide (src.length > sub64 (s.buffers i).size (s.buffers i).wpos)
  simp only [memcpy, setWpos, setBuffer_buffers, setBuffer_twice] at h
  exact h

/-- The read position moves in one buffer, and the bytes are appended to the
other one. -/
theorem bufferCopy_atomic {src dst : ι} (hne : src ≠ dst) (count : Nat) :
    (bufferCopy src count dst : Attempt (BufferMemory ι κ)).Atomic
      (fun s => decide (bufferTailroom (s.buffers dst) < count) ||
        decide (count > sub64 (s.buffers src).wpos (s.buffers src).rpos))
      (fun s => (s.setBuffer src
        { s.buffers src with rpos := (s.buffers src).rpos + count }).setBuffer dst
          { s.buffers dst with
            data := overwrite (s.buffers dst).data (s.buffers dst).wpos
              ((bufferReadPointer (s.buffers src)).take count)
            wpos := (s.buffers dst).wpos + count }) := by
  have h := ((bufferGet_atomic src (.tail dst : Dest ι κ) count).andThen_assign
    fun s => s.setWpos dst ((s.buffers dst).wpos + count)).refuse_andThen fun s =>
      decide (bufferTailroom (s.buffers dst) < count)
  have heffect : forall s : BufferMemory ι κ,
      (((s.copied src (.tail dst) count).setRpos src
        (((s.copied src (.tail dst) count).buffers src).rpos + count)).setWpos dst
          (((((s.copied src (.tail dst) count).setRpos src
            (((s.copied src (.tail dst) count).buffers src).rpos + count)).buffers
              dst)).wpos + count)) =
      (s.setBuffer src
        { s.buffers src with rpos := (s.buffers src).rpos + count }).setBuffer dst
          { s.buffers dst with
            data := overwrite (s.buffers dst).data (s.buffers dst).wpos
              ((bufferReadPointer (s.buffers src)).take count)
            wpos := (s.buffers dst).wpos + count } := by
    intro s
    simp only [copied, memcpy, setRpos, setWpos,
      setBuffer_buffers_of_ne _ _ hne, setBuffer_buffers_of_ne _ _ hne.symm,
      setBuffer_buffers]
    rw [setBuffer_comm s hne.symm, setBuffer_twice]
  simp only [heffect] at h
  exact h

/-!
The functions with a single buffer are those of `Buffer`.
-/

section

variable (i : ι) (s : BufferMemory ι κ)

omit [DecidableEq κ] in
theorem bufferSkip_eq (count : Nat) :
    bufferSkip i count s =
      (UtokenDecrypt.bufferSkip (s.buffers i) count).elim (false, s) fun after =>
        (true, s.setBuffer i after) := by
  rw [bufferSkip_atomic i count s, UtokenDecrypt.bufferSkip]
  simp only [decide_eq_true_iff]
  split <;> rfl

theorem bufferGet_eq (dest : κ) (count : Nat) :
    bufferGet i (.area dest) count s =
      (UtokenDecrypt.bufferGet (s.buffers i) count).elim (false, s) fun got =>
        (true, (s.memcpy (.area dest) got.1).setBuffer i got.2) := by
  rw [bufferGet_atomic i (.area dest) count s, UtokenDecrypt.bufferGet]
  simp only [decide_eq_true_iff]
  split <;> rfl

theorem bufferPut_eq (src : List UInt8) :
    bufferPut i src s =
      (UtokenDecrypt.bufferPut (s.buffers i) src).elim (false, s) fun after =>
        (true, s.setBuffer i after) := by
  rw [bufferPut_atomic i src s, UtokenDecrypt.bufferPut]
  simp only [decide_eq_true_iff]
  split <;> rfl

omit [DecidableEq κ] in
theorem bufferTruncate_eq (len : Nat) :
    bufferTruncate i len s =
      (UtokenDecrypt.bufferTruncate (s.buffers i) len).elim (false, s) fun after =>
        (true, s.setBuffer i after) := by
  rw [bufferTruncate_atomic i len s, UtokenDecrypt.bufferTruncate]
  simp only [decide_eq_true_iff]
  split <;> rfl

end

end BufferMemory

/-!
## When the calls fail
-/

section

variable {ι κ : Type}

def BufferMemory.unread (s : BufferMemory ι κ) (i : ι) : Nat :=
  (s.buffers i).wpos - (s.buffers i).rpos

def BufferMemory.room (s : BufferMemory ι κ) (i : ι) : Nat :=
  (s.buffers i).size - (s.buffers i).wpos

/-- The call would need more bytes or more room than there is. -/
def BufferOp.Exceeds (s : BufferMemory ι κ) : BufferOp ι κ -> Prop
  | put i src => s.room i < src.length
  | putU8 i _ => s.room i < 1
  | putU16le i _ => s.room i < 2
  | putU32le i _ => s.room i < 4
  | putU64le i _ => s.room i < 8
  | get i _ count => s.unread i < count
  | getU8 i _ => s.unread i < 1
  | getU16le i _ => s.unread i < 2
  | getU32le i _ => s.unread i < 4
  | getU64le i _ => s.unread i < 8
  | skip i count => s.unread i < count
  | seekRead i newPos => (s.buffers i).wpos < newPos
  | truncate i len => s.unread i < len
  | copy src count dst _ => s.unread src < count ∨ s.room dst < count

/-- All buffers are well formed. -/
def BufferMemory.Sound (s : BufferMemory ι κ) : Prop :=
  forall i, (s.buffers i).Wf

/-- A call that fails does so where it exceeds what is there, and before it
has changed anything. -/
structure BufferOp.FailsAs [DecidableEq ι] [DecidableEq κ] (op : BufferOp ι κ)
    (attempt : Attempt (BufferMemory ι κ)) : Prop where
  unchanged : forall s, (attempt s).1 = false -> (attempt s).2 = s
  iff_exceeds : forall s, s.Sound -> ((attempt s).1 = false ↔ op.Exceeds s)

variable [DecidableEq ι] [DecidableEq κ]

theorem BufferOp.failsAs_of_atomic {op : BufferOp ι κ}
    {attempt : Attempt (BufferMemory ι κ)} {bad : BufferMemory ι κ -> Bool}
    {f : BufferMemory ι κ -> BufferMemory ι κ} (h : attempt.Atomic bad f)
    (hiff : forall s, s.Sound -> (bad s = true ↔ op.Exceeds s)) :
    op.FailsAs attempt :=
  ⟨fun _ hfail => h.unchanged hfail,
    fun s hsound => (h.fails_iff s).trans (hiff s hsound)⟩

theorem bufferPut_failsAs {op : BufferOp ι κ} {i : ι} {src : List UInt8}
    (hop : forall s, op.Exceeds s ↔ s.room i < src.length) :
    op.FailsAs (BufferMemory.bufferPut i src) := by
  apply BufferOp.failsAs_of_atomic (BufferMemory.bufferPut_atomic i src)
  intro s hsound
  rw [hop, decide_eq_true_iff, (hsound i).room]
  exact Iff.rfl

theorem bufferGet_failsAs {op : BufferOp ι κ} {i : ι} {dest : Dest ι κ} {count : Nat}
    (hop : forall s, op.Exceeds s ↔ s.unread i < count) :
    op.FailsAs (BufferMemory.bufferGet i dest count) := by
  apply BufferOp.failsAs_of_atomic (BufferMemory.bufferGet_atomic i dest count)
  intro s hsound
  rw [hop, decide_eq_true_iff, sub64_of_le (hsound i).rpos_le]
  exact Iff.rfl

theorem bufferGetInt_failsAs {op : BufferOp ι κ} {bytes : Nat} {i : ι} {dest : κ}
    (hop : forall s, op.Exceeds s ↔ s.unread i < bytes) :
    op.FailsAs (BufferMemory.bufferGetInt bytes i dest) := by
  apply BufferOp.failsAs_of_atomic
    ((BufferMemory.bufferGet_atomic i (.area dest) bytes).andThen_assign _)
  intro s hsound
  rw [hop, decide_eq_true_iff, sub64_of_le (hsound i).rpos_le]
  exact Iff.rfl

theorem BufferOp.exec_failsAs (op : BufferOp ι κ) : op.FailsAs op.exec := by
  cases op with
  | put i src => exact bufferPut_failsAs fun _ => Iff.rfl
  | putU8 i value => exact bufferPut_failsAs fun _ => Iff.rfl
  | putU16le i value => exact bufferPut_failsAs fun _ => Iff.rfl
  | putU32le i value => exact bufferPut_failsAs fun _ => Iff.rfl
  | putU64le i value => exact bufferPut_failsAs fun _ => Iff.rfl
  | get i dest count => exact bufferGet_failsAs fun _ => Iff.rfl
  | getU8 i dest => exact bufferGetInt_failsAs fun _ => Iff.rfl
  | getU16le i dest => exact bufferGetInt_failsAs fun _ => Iff.rfl
  | getU32le i dest => exact bufferGetInt_failsAs fun _ => Iff.rfl
  | getU64le i dest => exact bufferGetInt_failsAs fun _ => Iff.rfl
  | skip i count =>
      apply failsAs_of_atomic (BufferMemory.bufferSkip_atomic i count)
      intro s hsound
      rw [decide_eq_true_iff, sub64_of_le (hsound i).rpos_le]
      exact Iff.rfl
  | seekRead i newPos =>
      apply failsAs_of_atomic (BufferMemory.bufferSeekRead_atomic i newPos)
      intro s hsound
      rw [decide_eq_true_iff]
      exact Iff.rfl
  | truncate i len =>
      apply failsAs_of_atomic (BufferMemory.bufferTruncate_atomic i len)
      intro s hsound
      rw [decide_eq_true_iff, bufferAvailable_eq (hsound i),
        (hsound i).contents_length]
      exact Iff.rfl
  | copy src count dst hne =>
      apply failsAs_of_atomic (BufferMemory.bufferCopy_atomic hne count)
      intro s hsound
      rw [Bool.or_eq_true, decide_eq_true_iff, decide_eq_true_iff,
        bufferTailroom_eq (hsound dst), sub64_of_le (hsound src).rpos_le, Or.comm]
      exact Iff.rfl

end

end UtokenDecrypt
