import UtokenDecrypt.Foundation.Loop
import UtokenDecrypt.Foundation.Process
import UtokenDecrypt.Foundation.Words

/-!
# Hex dumps

The loop of `hexdump` in `util.c`.  Its index is an `unsigned int`
while the size it is compared with is a `size_t`, so that the index can wrap
before it gets to the size.  What is printed is left out; which bytes are read
and whether the loop ends is not.

A read outside the memory the caller's pointer points to stands for undefined
behaviour and stops the program.
-/

namespace UtokenDecrypt

open Foundation

/-- One line of the dump: the bytes read are those from `i` on. -/
def hexdumpStep (mem : List UInt8) (size : Nat) (i : Nat) :
    Round Nat (Outcome Unit) :=
  if i < size then
    let bytesPerLine := min 32 (wrap32 (size - i))
    if mem.length < i + bytesPerLine then .finish .crash
    else .again (wrap32 (i + 32))
  else .finish (.done ())

/-- The index is a multiple of 32 below 2^32, so a loop that has not ended
after this many lines never does. -/
def hexdumpLines : Nat :=
  2 ^ 27 + 1

def hexdump (mem : List UInt8) (size : Nat) : Outcome Unit :=
  match Loop.run (hexdumpStep mem size) hexdumpLines 0 with
  | some outcome => outcome
  | none => .hang

section

variable {mem : List UInt8} {size : Nat}

theorem hexdumpStep_done {i : Nat} (h : size ≤ i) :
    hexdumpStep mem size i = .finish (.done ()) :=
  if_neg (Nat.not_lt.mpr h)

/-- A line ends after 32 bytes, or with the memory to be dumped. -/
theorem hexdump_line_end {i : Nat} (h : i < size) (hsize : size < 2 ^ 32) :
    i + min 32 (wrap32 (size - i)) = min (i + 32) size := by
  rw [wrap32_of_lt (by lia)]
  lia

theorem hexdumpStep_line (mem : List UInt8) {i : Nat} (h : i < size) (hsize : size < 2 ^ 32) :
    hexdumpStep mem size i =
      if mem.length < min (i + 32) size then .finish .crash
      else .again (wrap32 (i + 32)) := by
  rw [hexdumpStep, if_pos h]
  simp only [hexdump_line_end h hsize]

theorem hexdump_run_done (hsize : size ≤ 2 ^ 32 - 32) (hmem : size ≤ mem.length)
    {lines i : Nat} (hlines : size ≤ i + 32 * lines) :
    Loop.run (hexdumpStep mem size) (lines + 1) i = some (.done ()) := by
  induction lines generalizing i with
  | zero => exact Loop.run_finish (hexdumpStep_done (by lia)) 0
  | succ lines ih =>
      by_cases hend : size ≤ i
      · exact Loop.run_finish (hexdumpStep_done hend) _
      · have hline := hexdumpStep_line mem (by lia : i < size) (by lia)
        rw [if_neg (by lia), wrap32_of_lt (by lia)] at hline
        rw [Loop.run_again hline]
        exact ih (by lia)

/-- With bytes missing the loop runs into the end of the memory. -/
theorem hexdump_run_crash (hsize : size < 2 ^ 32) (hmem : mem.length < size)
    {lines i : Nat} (hi : i ≤ mem.length) (hlines : mem.length ≤ i + 32 * lines) :
    Loop.run (hexdumpStep mem size) (lines + 1) i = some .crash := by
  induction lines generalizing i with
  | zero =>
      have hline := hexdumpStep_line mem (by lia : i < size) hsize
      rw [if_pos (by lia)] at hline
      exact Loop.run_finish hline 0
  | succ lines ih =>
      have hline := hexdumpStep_line mem (by lia : i < size) hsize
      by_cases hshort : mem.length < min (i + 32) size
      · rw [if_pos hshort] at hline
        exact Loop.run_finish hline _
      · rw [if_neg hshort, wrap32_of_lt (by lia)] at hline
        rw [Loop.run_again hline]
        exact ih (by lia) (by lia)

/-- An index that is a multiple of 32 never gets past the last 32 values. -/
theorem hexdump_diverges (hlong : 2 ^ 32 - 32 < size) (hsize : size < 2 ^ 32)
    (hmem : size ≤ mem.length) : ¬ Loop.Terminates (hexdumpStep mem size) 0 := by
  have hkeep : forall i, i % 32 = 0 ∧ i ≤ 2 ^ 32 - 32 ->
      exists j, hexdumpStep mem size i = .again j ∧
        (j % 32 = 0 ∧ j ≤ 2 ^ 32 - 32) := by
    intro i hi
    have hline := hexdumpStep_line mem (by lia : i < size) hsize
    rw [if_neg (by lia)] at hline
    refine ⟨_, hline, ?_⟩
    unfold wrap32
    lia
  exact Loop.not_terminates_of_closed hkeep ⟨rfl, Nat.zero_le _⟩

theorem hexdump_eq (hsize : size < 2 ^ 32) :
    hexdump mem size =
      if size ≤ mem.length then
        if size ≤ 2 ^ 32 - 32 then .done () else .hang
      else .crash := by
  unfold hexdump hexdumpLines
  cases Nat.lt_or_ge mem.length size with
  | inl hmem =>
      rw [hexdump_run_crash hsize hmem (Nat.zero_le _) (by lia),
        if_neg (by lia)]
  | inr hmem =>
      rw [if_pos hmem]
      cases Nat.lt_or_ge (2 ^ 32 - 32) size with
      | inl hlong =>
          rw [if_neg (by lia)]
          cases hrun : Loop.run (hexdumpStep mem size) (2 ^ 27 + 1) 0 with
          | none => rfl
          | some outcome =>
              exact absurd ⟨_, _, hrun⟩ (hexdump_diverges hlong hsize hmem)
      | inr hshort =>
          rw [hexdump_run_done hshort hmem (by lia), if_pos hshort]

end

end UtokenDecrypt
