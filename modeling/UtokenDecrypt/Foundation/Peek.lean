/-!
# Reading memory through a pointer

A computation that looks at single bytes of a memory, with the record of the
positions it looked at.  The memory has a byte at every position, so that a
computation can be spoken about that looks behind the end of what it should;
`Process.peek` stops such a one.
-/

namespace UtokenDecrypt
namespace Foundation

/-- A result, and the positions looked at on the way to it. -/
def Peek (α : Type) : Type :=
  (Nat -> UInt8) -> α × List Nat

namespace Peek

variable {α β : Type}

protected def pure (value : α) : Peek α :=
  fun _ => (value, [])

protected def bind (first : Peek α) (next : α -> Peek β) : Peek β :=
  fun mem =>
    let got := first mem
    let rest := next got.1 mem
    (rest.1, got.2 ++ rest.2)

instance : Monad Peek where
  pure := Peek.pure
  bind := Peek.bind

/-- Look at one byte. -/
def byte (pos : Nat) : Peek UInt8 :=
  fun mem => (mem pos, [pos])

def value (proc : Peek α) (mem : Nat -> UInt8) : α :=
  (proc mem).1

def reads (proc : Peek α) (mem : Nat -> UInt8) : List Nat :=
  (proc mem).2

section

variable {mem : Nat -> UInt8}

@[simp] theorem value_pure (result : α) :
    (pure result : Peek α).value mem = result := rfl

@[simp] theorem reads_pure (result : α) :
    (pure result : Peek α).reads mem = [] := rfl

@[simp] theorem value_byte (pos : Nat) : (byte pos).value mem = mem pos := rfl

@[simp] theorem reads_byte (pos : Nat) : (byte pos).reads mem = [pos] := rfl

@[simp] theorem value_bind (first : Peek α) (next : α -> Peek β) :
    (first >>= next).value mem = (next (first.value mem)).value mem := rfl

@[simp] theorem reads_bind (first : Peek α) (next : α -> Peek β) :
    (first >>= next).reads mem =
      first.reads mem ++ (next (first.value mem)).reads mem := rfl

@[simp] theorem value_ite {cond : Prop} [Decidable cond] (yes no : Peek α) :
    (if cond then yes else no).value mem =
      if cond then yes.value mem else no.value mem := by
  split <;> rfl

@[simp] theorem reads_ite {cond : Prop} [Decidable cond] (yes no : Peek α) :
    (if cond then yes else no).reads mem =
      if cond then yes.reads mem else no.reads mem := by
  split <;> rfl

end

end Peek

end Foundation
end UtokenDecrypt
