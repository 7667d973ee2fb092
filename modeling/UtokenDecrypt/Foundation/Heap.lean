import Mathlib.Data.Multiset.Filter
import Mathlib.Data.Multiset.MapFold
import UtokenDecrypt.Foundation.Process

/-!
# A heap of blocks

A heap holds blocks under addresses, as `malloc` and `free` see it.  No address
is handed out twice, so that a pointer to a block that was freed never points to
another one by chance.  A use of a block that is not there is recorded as a
fault, and stops the program; a null pointer stops it without one.
-/

namespace UtokenDecrypt
namespace Foundation

/-- The blocks that are allocated.  The first address that was never handed out
is behind all of them. -/
structure Heap (β : Type) where
  cells : List (Nat × β)
  next : Nat
  below : forall cell, cell ∈ cells -> cell.1 < next
  nodup : (cells.map Prod.fst).Nodup

namespace Heap

variable {β : Type}

/-- A heap in which nothing is allocated. -/
def empty : Heap β where
  cells := []
  next := 0
  below := by
    intro cell hmem
    cases hmem
  nodup := List.nodup_nil

def find (h : Heap β) (addr : Nat) : Option β :=
  (h.cells.find? fun cell => cell.1 = addr).map Prod.snd

def alloc (h : Heap β) (block : β) : Heap β where
  cells := (h.next, block) :: h.cells
  next := h.next + 1
  below := by
    intro cell hmem
    cases List.mem_cons.mp hmem with
    | inl heq =>
        rw [heq]
        exact Nat.lt_succ_self _
    | inr hrest => exact Nat.lt_succ_of_lt (h.below cell hrest)
  nodup := by
    rw [List.map_cons, List.nodup_cons]
    refine ⟨?_, h.nodup⟩
    intro hmem
    rcases List.mem_map.mp hmem with ⟨cell, hcell, haddr⟩
    exact Nat.lt_irrefl _ (haddr ▸ h.below cell hcell)

/-- Put another block at the address of an allocated one. -/
def replace (h : Heap β) (addr : Nat) (block : β) : Heap β where
  cells := h.cells.map fun cell => if cell.1 = addr then (addr, block) else cell
  next := h.next
  below := by
    intro cell hmem
    rcases List.mem_map.mp hmem with ⟨old, hold, hcell⟩
    rw [← hcell]
    split
    · rename_i haddr
      exact haddr ▸ h.below old hold
    · exact h.below old hold
  nodup := by
    have hkeys : forall cell : Nat × β,
        (if cell.1 = addr then (addr, block) else cell).1 = cell.1 := by
      intro cell
      split
      · rename_i haddr
        exact haddr.symm
      · rfl
    rw [List.map_map, show (Prod.fst ∘ fun cell : Nat × β =>
      if cell.1 = addr then (addr, block) else cell) = Prod.fst from funext hkeys]
    exact h.nodup

def erase (h : Heap β) (addr : Nat) : Heap β where
  cells := h.cells.filter fun cell => cell.1 ≠ addr
  next := h.next
  below := fun cell hmem => h.below cell (List.mem_of_mem_filter hmem)
  nodup := h.nodup.sublist (List.filter_sublist.map _)

/-!
## What is allocated
-/

/-- The allocated blocks with their addresses, in no order. -/
def live (h : Heap β) : Multiset (Nat × β) :=
  h.cells

theorem live_alloc (h : Heap β) (block : β) :
    (h.alloc block).live = (h.next, block) ::ₘ h.live := rfl

/-- An address has one block. -/
theorem eq_of_mem {h : Heap β} {one other : Nat × β} (hone : one ∈ h.live)
    (hother : other ∈ h.live) (haddr : one.1 = other.1) : one = other :=
  List.inj_on_of_nodup_map h.nodup hone hother haddr

theorem find_of_mem {h : Heap β} {addr : Nat} {block : β} (hmem : (addr, block) ∈ h.live) :
    h.find addr = some block := by
  unfold find
  cases hfound : h.cells.find? fun cell => cell.1 = addr with
  | none =>
      have hnone := List.find?_eq_none.mp hfound (addr, block) hmem
      simp at hnone
  | some cell =>
      have haddr := List.find?_some hfound
      have hcell := eq_of_mem (List.mem_of_find?_eq_some hfound) hmem
        (of_decide_eq_true haddr)
      rw [hcell]
      rfl

section

variable {h : Heap β} {addr : Nat} {block : β} {others : Multiset (Nat × β)}

/-- The other blocks are at other addresses. -/
theorem ne_of_live (hlive : h.live = (addr, block) ::ₘ others) {cell : Nat × β}
    (hmem : cell ∈ others) : cell.1 ≠ addr := by
  have hnodup : (h.live.map Prod.fst).Nodup := h.nodup
  rw [hlive, Multiset.map_cons, Multiset.nodup_cons] at hnodup
  intro haddr
  have haddrs := Multiset.mem_map_of_mem Prod.fst hmem
  rw [haddr] at haddrs
  exact hnodup.1 haddrs

theorem live_erase (hlive : h.live = (addr, block) ::ₘ others) :
    (h.erase addr).live = others := by
  have heq : (h.erase addr).live = h.live.filter fun cell => cell.1 ≠ addr := rfl
  rw [heq, hlive, Multiset.filter_cons_of_neg _ (by simp)]
  exact Multiset.filter_eq_self.mpr fun cell hmem => ne_of_live hlive hmem

theorem live_replace (hlive : h.live = (addr, block) ::ₘ others) (other : β) :
    (h.replace addr other).live = (addr, other) ::ₘ others := by
  have heq : (h.replace addr other).live =
      h.live.map fun cell => if cell.1 = addr then (addr, other) else cell := rfl
  have hothers : others.map (fun cell => if cell.1 = addr then (addr, other) else cell) =
      others.map id :=
    Multiset.map_congr rfl fun cell hmem => if_neg (ne_of_live hlive hmem)
  rw [heq, hlive, Multiset.map_cons, if_pos rfl, hothers, Multiset.map_id]

end

end Heap

/-!
## A program with a heap
-/

/-- A use of an address that holds no block, or not one of the kind the program
takes it for. -/
inductive Fault where
  | use (addr : Nat)
  | free (addr : Nat)
deriving DecidableEq

/-- A state with a heap next to it, and the faults so far. -/
structure Machine (S β : Type) where
  host : S
  heap : Heap β
  faults : List Fault := []

namespace Machine

variable {S β α ω : Type}

def fault (kind : Fault) : Process (Machine S β) α := fun m =>
  (.crash, { m with faults := m.faults ++ [kind] })

/-- Do something that does not see the heap. -/
def onHost (proc : Process S α) : Process (Machine S β) α := fun m =>
  ((proc m.host).1, { m with host := (proc m.host).2 })

def malloc (block : β) : Process (Machine S β) Nat := fun m =>
  (.done m.heap.next, { m with heap := m.heap.alloc block })

/-- Look at a block as one of a kind. -/
def loadAs (view : β -> Option ω) (addr : Nat) : Process (Machine S β) ω := fun m =>
  ((m.heap.find addr).bind view).elim (fault (.use addr)) pure m

def store (addr : Nat) (block : β) : Process (Machine S β) Unit := fun m =>
  if (m.heap.find addr).isSome then
    (.done (), { m with heap := m.heap.replace addr block })
  else fault (.use addr) m

def free (addr : Nat) : Process (Machine S β) Unit := fun m =>
  if (m.heap.find addr).isSome then
    (.done (), { m with heap := m.heap.erase addr })
  else fault (.free addr) m

/-- Follow a pointer. -/
def deref (pointer : Option Nat) : Process (Machine S β) Nat :=
  pointer.elim Process.crash pure

/-- Free what a pointer points to, if anything. -/
def freePointer (pointer : Option Nat) : Process (Machine S β) Unit :=
  pointer.elim (pure ()) free

end Machine

end Foundation
end UtokenDecrypt
