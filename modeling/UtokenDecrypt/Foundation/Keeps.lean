import UtokenDecrypt.Foundation.Calls

/-!
# Relations that processes keep

A relation between the state a process is started in and the one it leaves, however
it ends.  If the relation is reflexive and transitive, what each step keeps is kept by
all of them together.
-/

namespace UtokenDecrypt
namespace Foundation
namespace Process

variable {S T ι ρ α β : Type} {R : S -> S -> Prop}

structure Closed (R : S -> S -> Prop) : Prop where
  refl : forall s, R s s
  trans : forall {s t u}, R s t -> R t u -> R s u

/-- Something about the state stays as it is. -/
theorem Closed.same (f : S -> T) : Closed fun s t => f t = f s where
  refl := fun _ => rfl
  trans := fun h1 h2 => h2.trans h1

def Keeps (R : S -> S -> Prop) (proc : Process S α) : Prop :=
  forall s, R s (proc s).2

theorem Keeps.pure (h : Closed R) (value : α) : Keeps R (pure value : Process S α) :=
  h.refl

theorem Keeps.crash (h : Closed R) : Keeps R (crash : Process S α) :=
  h.refl

theorem Keeps.hang (h : Closed R) : Keeps R (hang : Process S α) :=
  h.refl

theorem Keeps.read (h : Closed R) : Keeps R (read : Process S S) :=
  h.refl

theorem Keeps.update {f : S -> S} (h : forall s, R s (f s)) : Keeps R (update f) :=
  h

theorem Keeps.bind (h : Closed R) {first : Process S α} {next : α -> Process S β}
    (hfirst : Keeps R first) (hnext : forall value, Keeps R (next value)) :
    Keeps R (first >>= next) := by
  intro s
  have hmid := hfirst s
  rw [bind_apply]
  rcases hrun : first s with ⟨outcome, t⟩
  rw [hrun] at hmid
  cases outcome with
  | done value => exact h.trans hmid (hnext value t)
  | crash => exact hmid
  | hang => exact hmid

end Process
end Foundation
end UtokenDecrypt
