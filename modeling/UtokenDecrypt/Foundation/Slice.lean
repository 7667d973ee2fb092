import Mathlib.Data.List.TakeDrop

/-!
# Slices of a list

Reading the elements between two positions of a list, and writing a run of
elements over the ones at a position.  These are the two things a program does
with a block of memory it addresses by positions.
-/

namespace UtokenDecrypt
namespace Foundation

variable {α : Type}

/-- The elements from position `first` up to but not including `last`. -/
def slice (xs : List α) (first last : Nat) : List α :=
  (xs.drop first).take (last - first)

/-- Replace the elements from `pos` on by `ys`. -/
def overwrite (xs : List α) (pos : Nat) (ys : List α) : List α :=
  xs.take pos ++ ys ++ xs.drop (pos + ys.length)

theorem slice_length {xs : List α} {first last : Nat} (h : last ≤ xs.length) :
    (slice xs first last).length = last - first := by
  simp only [slice, List.length_take, List.length_drop]
  lia

@[simp] theorem slice_self (xs : List α) (pos : Nat) : slice xs pos pos = [] := by
  simp [slice]

theorem slice_append_slice {xs : List α} {first mid last : Nat}
    (h1 : first ≤ mid) (h2 : mid ≤ last) :
    slice xs first mid ++ slice xs mid last = slice xs first last := by
  have hdrop : xs.drop mid = (xs.drop first).drop (mid - first) := by
    rw [List.drop_drop, Nat.add_sub_cancel' h1]
  have hlen : last - first = (mid - first) + (last - mid) := by lia
  simp only [slice]
  rw [hdrop, hlen, List.take_add]

theorem slice_full (xs : List α) : slice xs 0 xs.length = xs := by
  simp [slice]

theorem slice_append_right (xs ys : List α) (pos : Nat) :
    slice (xs ++ ys) xs.length (xs.length + pos) = ys.take pos := by
  simp [slice]

theorem take_slice {xs : List α} {first last count : Nat}
    (h : first + count ≤ last) :
    (slice xs first last).take count = slice xs first (first + count) := by
  simp only [slice, List.take_take]
  congr 1
  lia

theorem drop_slice (xs : List α) (first last count : Nat) :
    (slice xs first last).drop count = slice xs (first + count) last := by
  simp only [slice, List.drop_take, List.drop_drop]
  congr 1
  lia

theorem overwrite_length {xs ys : List α} {pos : Nat}
    (h : pos + ys.length ≤ xs.length) :
    (overwrite xs pos ys).length = xs.length := by
  simp only [overwrite, List.length_append, List.length_take, List.length_drop]
  lia

/-- Writing twice in a row is writing once. -/
theorem overwrite_append {xs ys zs : List α} {pos : Nat}
    (h : pos + ys.length ≤ xs.length) :
    overwrite (overwrite xs pos ys) (pos + ys.length) zs =
      overwrite xs pos (ys ++ zs) := by
  have hpos : (xs.take pos ++ ys).length = pos + ys.length := by
    rw [List.length_append, List.length_take_of_le (by lia)]
  have hfront : (overwrite xs pos ys).take (pos + ys.length) =
      xs.take pos ++ ys := by
    rw [overwrite, ← hpos, List.take_left]
  have hback : (overwrite xs pos ys).drop (pos + ys.length + zs.length) =
      xs.drop (pos + (ys ++ zs).length) := by
    rw [overwrite, ← hpos, ← List.drop_drop, List.drop_left, List.drop_drop,
      hpos, List.length_append, Nat.add_assoc]
  rw [overwrite, hfront, hback, overwrite, List.append_assoc (xs.take pos)]

/-- Writing leaves the elements before the written ones alone. -/
theorem slice_overwrite_before {xs ys : List α} {first last pos : Nat}
    (h1 : last ≤ pos) (h2 : pos ≤ xs.length) :
    slice (overwrite xs pos ys) first last = slice xs first last := by
  have hpos : (xs.take pos).length = pos := List.length_take_of_le h2
  apply List.ext_getElem?
  intro i
  simp only [slice, overwrite, List.getElem?_take, List.getElem?_drop,
    List.append_assoc]
  by_cases hi : i < last - first
  · rw [if_pos hi, if_pos hi, List.getElem?_append_left (by lia),
      List.getElem?_take_of_lt (by lia)]
  · rw [if_neg hi, if_neg hi]

/-- The written elements are read back. -/
theorem slice_overwrite_self {xs ys : List α} {pos : Nat}
    (h : pos ≤ xs.length) :
    slice (overwrite xs pos ys) pos (pos + ys.length) = ys := by
  have hpos : (xs.take pos).length = pos := List.length_take_of_le h
  have hsplit : overwrite xs pos ys =
      xs.take pos ++ (ys ++ xs.drop (pos + ys.length)) := by
    simp [overwrite]
  have hslice := slice_append_right (xs.take pos)
    (ys ++ xs.drop (pos + ys.length)) ys.length
  rw [hpos, ← hsplit] at hslice
  rw [hslice, List.take_left]

theorem take_overwrite_zero (xs ys : List α) :
    (overwrite xs 0 ys).take ys.length = ys := by
  simp [overwrite]

/-- Writing at the start leaves the bytes behind what is written alone. -/
theorem getElem?_overwrite_zero {xs ys : List α} {i : Nat} (h : ys.length ≤ i) :
    (overwrite xs 0 ys)[i]? = xs[i]? := by
  rw [overwrite, List.take_zero, List.nil_append, List.getElem?_append_right h,
    List.getElem?_drop]
  congr 1
  lia

/-- Writing right behind a slice appends to it. -/
theorem slice_overwrite_append {xs ys : List α} {first pos : Nat}
    (h1 : first ≤ pos) (h2 : pos ≤ xs.length) :
    slice (overwrite xs pos ys) first (pos + ys.length) =
      slice xs first pos ++ ys := by
  rw [← slice_append_slice h1 (Nat.le_add_right pos ys.length),
    slice_overwrite_before (Nat.le_refl pos) h2, slice_overwrite_self h2]

/-!
## Splitting at a separator

As C code does it, with `strchr` and a NUL in the place of the separator.
-/

section

variable [BEq α] [LawfulBEq α] {key value : List α} {sep : α}

theorem takeWhile_separator (h : sep ∉ key) :
    (key ++ sep :: value).takeWhile (· != sep) = key := by
  have hno : forall c, c ∈ key -> (c != sep) = true := by
    intro c hmem
    rw [bne_iff_ne]
    intro hc
    exact h (hc ▸ hmem)
  rw [List.takeWhile_append_of_pos hno, List.takeWhile_cons_of_neg (by simp),
    List.append_nil]

theorem tail?_dropWhile_separator (h : sep ∉ key) :
    ((key ++ sep :: value).dropWhile (· != sep)).tail? = some value := by
  have hno : forall c, c ∈ key -> (c != sep) = true := by
    intro c hmem
    rw [bne_iff_ne]
    intro hc
    exact h (hc ▸ hmem)
  rw [List.dropWhile_append_of_pos hno, List.dropWhile_cons_of_neg (by simp)]
  rfl

/-- What has been split is the two parts and the separator between them. -/
theorem eq_append_of_separator {text : List α}
    (h : (text.dropWhile (· != sep)).tail? = some value) :
    text = text.takeWhile (· != sep) ++ sep :: value := by
  have hsplit := List.takeWhile_append_dropWhile (p := (· != sep)) (l := text)
  cases hrest : text.dropWhile (· != sep) with
  | nil =>
      rw [hrest] at h
      cases h
  | cons head rest =>
      have hhead : head = sep := by
        have hne : text.dropWhile (· != sep) ≠ [] := by
          rw [hrest]
          exact List.cons_ne_nil head rest
        have hnot := List.head_dropWhile_not (· != sep) hne
        simpa [hrest] using hnot
      rw [hrest] at h hsplit
      injection h with hvalue
      rw [hhead, hvalue] at hsplit
      exact hsplit.symm

end

end Foundation
end UtokenDecrypt
