import Mathlib.Data.List.Basic

/-!
# Attempts

An attempt is a function that returns true or false and has changed the state
it works on either way, as the functions of a C program do that report a
failure to their caller.  Whether a failed attempt leaves the state alone is
a question about its body: it does when every test comes before the first
assignment.

Attempts can be run one after the other, whatever comes of each, and compared
with the attempts of another system along a relation.
-/

namespace UtokenDecrypt
namespace Foundation

/-- A function that returns true or false, and the state it leaves. -/
def Attempt (S : Type) : Type :=
  S -> Bool × S

namespace Attempt

variable {S T ι : Type}

/-- Return false at once if something is wrong. -/
def refuse (bad : S -> Bool) : Attempt S :=
  fun s => (!bad s, s)

/-- An assignment. -/
def assign (f : S -> S) : Attempt S :=
  fun s => (true, f s)

/-- Return false if the first attempt does, else go on with the second. -/
def andThen (first second : Attempt S) : Attempt S :=
  fun s => if (first s).1 then second (first s).2 else (false, (first s).2)

/-!
## All or nothing
-/

/-- The attempt fails exactly in the bad states, and leaves these alone. -/
def Atomic (attempt : Attempt S) (bad : S -> Bool) (f : S -> S) : Prop :=
  forall s, attempt s = if bad s then (false, s) else (true, f s)

theorem atomic_assign (f : S -> S) : Atomic (assign f) (fun _ => false) f :=
  fun _ => rfl

theorem Atomic.refuse_andThen {attempt : Attempt S} {bad : S -> Bool} {f : S -> S}
    (h : Atomic attempt bad f) (worse : S -> Bool) :
    Atomic ((refuse worse).andThen attempt) (fun s => worse s || bad s) f := by
  intro s
  cases hworse : worse s with
  | true => simp [andThen, refuse, hworse]
  | false => simp [andThen, refuse, hworse, h s]

theorem Atomic.andThen_assign {attempt : Attempt S} {bad : S -> Bool} {f : S -> S}
    (h : Atomic attempt bad f) (g : S -> S) :
    Atomic (attempt.andThen (assign g)) bad (fun s => g (f s)) := by
  intro s
  cases hbad : bad s with
  | true => simp [andThen, h s, hbad]
  | false => simp [andThen, assign, h s, hbad]

/-- A test before statements that do not fail. -/
theorem Atomic.refuse_first {attempt : Attempt S} {f : S -> S}
    (h : Atomic attempt (fun _ => false) f) (bad : S -> Bool) :
    Atomic ((refuse bad).andThen attempt) bad f := by
  have hatomic := h.refuse_andThen bad
  simp only [Bool.or_false] at hatomic
  exact hatomic

section

variable {attempt : Attempt S} {bad : S -> Bool} {f : S -> S} {s : S}

theorem Atomic.fails_iff (h : Atomic attempt bad f) (s : S) :
    (attempt s).1 = false ↔ bad s = true := by
  cases hbad : bad s <;> simp [h s, hbad]

theorem Atomic.unchanged (h : Atomic attempt bad f)
    (hfail : (attempt s).1 = false) : (attempt s).2 = s := by
  rw [h s, if_pos ((h.fails_iff s).mp hfail)]

theorem Atomic.of_bad (h : Atomic attempt bad f) (hbad : bad s = true) :
    attempt s = (false, s) := by
  rw [h s, if_pos hbad]

theorem Atomic.of_good (h : Atomic attempt bad f) (hgood : bad s = false) :
    attempt s = (true, f s) := by
  rw [h s, hgood]
  rfl

end

/-!
## Running attempts
-/

/-- One attempt after the other, whatever comes of each. -/
def run (op : ι -> Attempt S) : List ι -> S -> S
  | [], s => s
  | i :: rest, s => run op rest (op i s).2

@[simp] theorem run_nil (op : ι -> Attempt S) (s : S) : run op [] s = s := rfl

@[simp] theorem run_cons (op : ι -> Attempt S) (i : ι) (rest : List ι) (s : S) :
    run op (i :: rest) s = run op rest (op i s).2 := rfl

/-- Each attempt ends as the one of the other system does, and in a state that
is related to the one the other ends in. -/
def Simulates (op : ι -> Attempt S) (spec : ι -> Attempt T)
    (rel : S -> T -> Prop) : Prop :=
  forall i s t, rel s t ->
    (op i s).1 = (spec i t).1 ∧ rel (op i s).2 (spec i t).2

/-- Related states stay related over whole runs. -/
theorem Simulates.run_rel {op : ι -> Attempt S} {spec : ι -> Attempt T}
    {rel : S -> T -> Prop} (h : Simulates op spec rel) (is : List ι) {s : S} {t : T}
    (hrel : rel s t) : rel (run op is s) (run spec is t) := by
  induction is generalizing s t with
  | nil => exact hrel
  | cons i rest ih => exact ih (h i s t hrel).2

end Attempt

end Foundation
end UtokenDecrypt
