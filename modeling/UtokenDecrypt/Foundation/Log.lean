import Mathlib.Data.List.TakeDrop
import UtokenDecrypt.Foundation.Slice

/-!
# Bounded logs with a cursor

A log takes elements at its end as long as its capacity lasts, can be cut, and
is read at a cursor.  For every position it knows the element last written
there; cutting the log does not make it forget that one, writing at the
position again does.
-/

namespace UtokenDecrypt
namespace Foundation

structure CursorLog (α : Type) where
  last : Nat -> Option α
  cursor : Nat
  length : Nat
  capacity : Nat
  cursor_le : cursor ≤ length
  length_le : length ≤ capacity
  last_isSome : forall pos, pos < length -> (last pos).isSome

namespace CursorLog

variable {α : Type}

/-- The elements last written at `count` positions from `pos` on. -/
def elements (log : CursorLog α) : Nat -> Nat -> List α
  | _, 0 => []
  | pos, count + 1 => (log.last pos).toList ++ log.elements (pos + 1) count

/-- A log without elements. -/
def empty (capacity : Nat) : CursorLog α where
  last := fun _ => none
  cursor := 0
  length := 0
  capacity := capacity
  cursor_le := Nat.le_refl 0
  length_le := Nat.zero_le capacity
  last_isSome := fun pos h => absurd h (Nat.not_lt_zero pos)

/-- A log that is full from the start. -/
def full (data : List α) : CursorLog α where
  last := fun pos => data[pos]?
  cursor := 0
  length := data.length
  capacity := data.length
  cursor_le := Nat.zero_le _
  length_le := Nat.le_refl _
  last_isSome := fun pos h => by simp [h]

/-- The elements last written once some are appended at the end. -/
def lastAfter (log : CursorLog α) (src : List α) (pos : Nat) : Option α :=
  if pos < log.length then log.last pos
  else (src[pos - log.length]?).or (log.last pos)

theorem lastAfter_isSome (log : CursorLog α) (src : List α) (pos : Nat)
    (h : pos < log.length + src.length) : (log.lastAfter src pos).isSome := by
  unfold lastAfter
  by_cases hold : pos < log.length
  · rw [if_pos hold]
    exact log.last_isSome pos hold
  · rw [if_neg hold, List.getElem?_eq_getElem (by lia)]
    rfl

def append (log : CursorLog α) (src : List α) : Option (CursorLog α) :=
  if h : log.length + src.length ≤ log.capacity then
    some {
      last := log.lastAfter src
      cursor := log.cursor
      length := log.length + src.length
      capacity := log.capacity
      cursor_le := Nat.le_trans log.cursor_le (Nat.le_add_right _ _)
      length_le := h
      last_isSome := log.lastAfter_isSome src }
  else none

def moveTo (log : CursorLog α) (pos : Nat) : Option (CursorLog α) :=
  if h : pos ≤ log.length then some { log with cursor := pos, cursor_le := h }
  else none

/-- Read elements at the cursor and move it behind them. -/
def read (log : CursorLog α) (count : Nat) : Option (List α × CursorLog α) :=
  (log.moveTo (log.cursor + count)).map fun after =>
    (log.elements log.cursor count, after)

/-- Take back the elements that are more than `len` ahead of the cursor. -/
def cut (log : CursorLog α) (len : Nat) : Option (CursorLog α) :=
  if h : log.cursor + len ≤ log.length then
    some { log with
      length := log.cursor + len
      cursor_le := Nat.le_add_right _ _
      length_le := Nat.le_trans h log.length_le
      last_isSome := fun pos hpos => log.last_isSome pos (Nat.lt_of_lt_of_le hpos h) }
  else none

/-!
## What is read
-/

theorem elements_eq {log : CursorLog α} {src : List α} {pos : Nat}
    (h : forall j, j < src.length -> log.last (pos + j) = src[j]?) :
    log.elements pos src.length = src := by
  induction src generalizing pos with
  | nil => rfl
  | cons head rest ih =>
      have hhead : log.last pos = some head := h 0 (Nat.zero_lt_succ _)
      have hrest : log.elements (pos + 1) rest.length = rest := by
        apply ih
        intro j hj
        have hnext := h (j + 1) (Nat.succ_lt_succ hj)
        rw [List.getElem?_cons_succ] at hnext
        rw [← hnext]
        congr 1
        lia
      rw [List.length_cons, elements, hhead, hrest]
      rfl

/-- Elements that are also found in a block of memory. -/
theorem elements_eq_slice {log : CursorLog α} {data : List α} {pos count : Nat}
    (hlen : pos + count ≤ data.length)
    (h : forall at_, at_ < pos + count -> log.last at_ = data[at_]?) :
    log.elements pos count = slice data pos (pos + count) := by
  have hcount : (slice data pos (pos + count)).length = count := by
    rw [slice_length hlen, Nat.add_sub_cancel_left]
  have heq : log.elements pos (slice data pos (pos + count)).length =
      slice data pos (pos + count) := by
    apply elements_eq
    intro j hj
    rw [hcount] at hj
    rw [h (pos + j) (by lia), slice, List.getElem?_take_of_lt (by lia),
      List.getElem?_drop]
  rw [hcount] at heq
  exact heq

/-- Positions that hold the same elements read the same. -/
theorem elements_congr {log after : CursorLog α} {pos count : Nat}
    (h : forall at_, at_ < pos + count -> after.last at_ = log.last at_) :
    after.elements pos count = log.elements pos count := by
  induction count generalizing pos with
  | zero => rfl
  | succ count ih =>
      have hrest : after.elements (pos + 1) count = log.elements (pos + 1) count :=
        ih fun at_ hlt => h at_ (by lia)
      rw [elements, elements, h pos (by lia), hrest]

section

variable {log after : CursorLog α} {src : List α}

theorem append_eq_some (h : log.append src = some after) :
    after.last = log.lastAfter src ∧ after.cursor = log.cursor ∧
      after.length = log.length + src.length ∧ after.capacity = log.capacity := by
  unfold append at h
  split at h
  · injection h with hafter
    subst hafter
    exact ⟨rfl, rfl, rfl, rfl⟩
  · cases h

/-- What has been appended is read back. -/
theorem elements_append (h : log.append src = some after) :
    after.elements log.length src.length = src := by
  apply elements_eq
  intro j hj
  rw [(append_eq_some h).1, lastAfter, if_neg (by lia), Nat.add_sub_cancel_left,
    List.getElem?_eq_getElem hj]
  rfl

/-- What was in the log before is still there. -/
theorem last_append (h : log.append src = some after) {pos : Nat}
    (hpos : pos < log.length) : after.last pos = log.last pos := by
  rw [(append_eq_some h).1, lastAfter, if_pos hpos]

/-- Moving the cursor writes nothing. -/
theorem last_moveTo {pos : Nat} (h : log.moveTo pos = some after) :
    after.last = log.last := by
  unfold moveTo at h
  split at h
  · injection h with hafter
    rw [← hafter]
  · cases h

/-- Cutting a log writes nothing. -/
theorem last_cut {len : Nat} (h : log.cut len = some after) :
    after.last = log.last := by
  unfold cut at h
  split at h
  · injection h with hafter
    rw [← hafter]
  · cases h

theorem read_eq_some {count : Nat} {got : List α}
    (h : log.read count = some (got, after)) :
    got = log.elements log.cursor count := by
  rw [read, Option.map_eq_some_iff] at h
  rcases h with ⟨moved, _, hpair⟩
  injection hpair with hgot _
  exact hgot.symm

theorem last_read {count : Nat} {got : List α} (h : log.read count = some (got, after)) :
    after.last = log.last := by
  rw [read, Option.map_eq_some_iff] at h
  rcases h with ⟨moved, hmove, hpair⟩
  injection hpair with _ hafter
  rw [← hafter]
  exact last_moveTo hmove

end

end CursorLog

end Foundation
end UtokenDecrypt
