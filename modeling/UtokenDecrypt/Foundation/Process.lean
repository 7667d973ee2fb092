import UtokenDecrypt.Foundation.Peek

/-!
# Processes

A process is a computation that reads and writes a state and then returns a
value, stops on a memory fault, or never returns.  The state it leaves behind
is kept in all three cases, so that what a process did before it stopped can be
spoken about.

The rules at the end are those of a postcondition calculus: a postcondition
covers all three outcomes, and sequencing hands the outcomes without a value
through unchanged.
-/

namespace UtokenDecrypt
namespace Foundation

/-- How a process ends. -/
inductive Outcome (α : Type) where
  /-- It returns a value. -/
  | done (value : α)
  /-- It is stopped by a memory fault. -/
  | crash
  /-- It does not return. -/
  | hang
deriving DecidableEq

namespace Outcome

/-- The value of a process that returned. -/
def value? {α : Type} : Outcome α -> Option α
  | done value => some value
  | crash => none
  | hang => none

end Outcome

/-- A computation over a state. -/
def Process (S α : Type) : Type :=
  S -> Outcome α × S

namespace Process

variable {S α β γ : Type}

protected def pure (value : α) : Process S α :=
  fun s => (.done value, s)

protected def bind (first : Process S α) (next : α -> Process S β) :
    Process S β :=
  fun s =>
    match first s with
    | (.done value, t) => next value t
    | (.crash, t) => (.crash, t)
    | (.hang, t) => (.hang, t)

instance : Monad (Process S) where
  pure := Process.pure
  bind := Process.bind

/-- Stop on a memory fault. -/
def crash : Process S α :=
  fun s => (.crash, s)

/-- Never return. -/
def hang : Process S α :=
  fun s => (.hang, s)

/-- Read the state. -/
def read : Process S S :=
  fun s => (.done s, s)

/-- Change the state. -/
def update (f : S -> S) : Process S Unit :=
  fun s => (.done (), f s)

/-- End as something else ended. -/
def ofOutcome (outcome : Outcome α) : Process S α :=
  fun s => (outcome, s)

/-- Look at some bytes of a block of memory; looking outside of it is a fault. -/
def peek (block : List UInt8) (proc : Peek α) : Process S α :=
  if (proc.reads fun pos => block.getD pos 0).all (· < block.length) then
    pure (proc.value fun pos => block.getD pos 0)
  else crash

/-!
## Evaluation
-/

@[simp] theorem pure_apply (value : α) (s : S) :
    (pure value : Process S α) s = (.done value, s) := rfl

@[simp] theorem crash_apply (s : S) :
    (crash : Process S α) s = (.crash, s) := rfl

@[simp] theorem hang_apply (s : S) :
    (hang : Process S α) s = (.hang, s) := rfl

@[simp] theorem read_apply (s : S) :
    (read : Process S S) s = (.done s, s) := rfl

@[simp] theorem update_apply (f : S -> S) (s : S) :
    update f s = (.done (), f s) := rfl

theorem bind_apply (first : Process S α) (next : α -> Process S β) (s : S) :
    (first >>= next) s =
      match first s with
      | (.done value, t) => next value t
      | (.crash, t) => (.crash, t)
      | (.hang, t) => (.hang, t) := rfl

theorem bind_done {first : Process S α} {next : α -> Process S β}
    {s t : S} {value : α} (h : first s = (.done value, t)) :
    (first >>= next) s = next value t := by
  rw [bind_apply, h]

theorem bind_assoc (first : Process S α) (second : α -> Process S β)
    (third : β -> Process S γ) :
    first >>= second >>= third = first >>= fun value => second value >>= third := by
  funext s
  rw [bind_apply (first >>= second), bind_apply, bind_apply]
  rcases first s with ⟨outcome, t⟩
  cases outcome <;> rfl

@[simp] theorem pure_bind (value : α) (next : α -> Process S β) :
    (pure value >>= next : Process S β) = next value := rfl

/-!
## Results that may be missing
-/

/-- Go on with a result, if there is one. -/
def thenSome (first : Process S (Option α)) (next : α -> Process S (Option β)) :
    Process S (Option β) :=
  first >>= fun got => got.elim (pure none) next

theorem bind_thenSome (first : Process S α) (second : α -> Process S (Option β))
    (next : β -> Process S (Option γ)) :
    thenSome (first >>= second) next =
      first >>= fun value => thenSome (second value) next :=
  bind_assoc first second _

theorem thenSome_assoc (first : Process S (Option α)) (second : α -> Process S (Option β))
    (third : β -> Process S (Option γ)) :
    thenSome (thenSome first second) third =
      thenSome first fun value => thenSome (second value) third := by
  refine (bind_thenSome first (fun got => got.elim (pure none) second) third).trans
    (congrArg (first >>= ·) (funext fun got => ?_))
  cases got <;> rfl

theorem thenSome_pure (value : Option α) (next : α -> Option β) :
    thenSome (pure value : Process S _) (fun value => pure (next value)) =
      pure (value.bind next) := by
  cases value <;> rfl

/-!
## Postconditions
-/

/-- The outcome and final state of a process started in `s`. -/
def Ensures (proc : Process S α) (s : S)
    (post : Outcome α -> S -> Prop) : Prop :=
  post (proc s).1 (proc s).2

theorem ensures_update {f : S -> S} {s : S} {post : Outcome Unit -> S -> Prop}
    (h : post (.done ()) (f s)) : (update f).Ensures s post := h

theorem Ensures.mono {proc : Process S α} {s : S}
    {weak strong : Outcome α -> S -> Prop} (h : proc.Ensures s strong)
    (himp : forall outcome t, strong outcome t -> weak outcome t) :
    proc.Ensures s weak :=
  himp _ _ h

theorem Ensures.apply {proc : Process S α} {s t : S} {outcome : Outcome α}
    {post : Outcome α -> S -> Prop} (h : proc.Ensures s post)
    (hrun : proc s = (outcome, t)) : post outcome t := by
  unfold Ensures at h
  rw [hrun] at h
  exact h

/-- Sequencing: the second process only runs when the first one returns. -/
theorem Ensures.bind {first : Process S α} {next : α -> Process S β} {s : S}
    {mid : Outcome α -> S -> Prop} {post : Outcome β -> S -> Prop}
    (h : first.Ensures s mid)
    (hdone : forall value t, mid (.done value) t -> (next value).Ensures t post)
    (hcrash : forall t, mid .crash t -> post .crash t)
    (hhang : forall t, mid .hang t -> post .hang t) :
    (first >>= next).Ensures s post := by
  unfold Ensures at h ⊢
  rw [bind_apply]
  rcases hrun : first s with ⟨outcome, t⟩
  rw [hrun] at h
  cases outcome with
  | done value => exact hdone value t h
  | crash => exact hcrash t h
  | hang => exact hhang t h

/-- What holds of the value that comes back, if one comes back. -/
def Yields (proc : Process S (Option α)) (s : S) (post : α -> S -> Prop) : Prop :=
  proc.Ensures s fun outcome t => forall value, outcome = .done (some value) -> post value t

theorem Yields.apply {proc : Process S (Option α)} {s t : S} {value : α}
    {post : α -> S -> Prop} (h : proc.Yields s post)
    (hrun : proc s = (.done (some value), t)) : post value t :=
  Ensures.apply h hrun value rfl

theorem Yields.mono {proc : Process S (Option α)} {s : S} {weak strong : α -> S -> Prop}
    (h : proc.Yields s strong) (himp : forall value t, strong value t -> weak value t) :
    proc.Yields s weak :=
  fun value hvalue => himp value _ (h value hvalue)

theorem yields_none {s : S} {post : α -> S -> Prop} :
    (pure none : Process S (Option α)).Yields s post :=
  fun _ hbad => by cases hbad

theorem yields_some {value : α} {s : S} {post : α -> S -> Prop} (h : post value s) :
    (pure (some value) : Process S (Option α)).Yields s post := by
  intro other hother
  injection hother with hother
  rw [← Option.some.inj hother]
  exact h

/-- Only what returns goes on, so that the other outcomes ask for nothing. -/
theorem Ensures.yields {first : Process S α} {next : α -> Process S (Option β)} {s : S}
    {mid : Outcome α -> S -> Prop} {post : β -> S -> Prop} (h : first.Ensures s mid)
    (hdone : forall value t, mid (.done value) t -> (next value).Yields t post) :
    (first >>= next).Yields s post :=
  h.bind hdone (fun _ _ _ hbad => by cases hbad) fun _ _ _ hbad => by cases hbad

theorem Yields.thenSome {first : Process S (Option α)} {next : α -> Process S (Option β)}
    {s : S} {mid : α -> S -> Prop} {post : β -> S -> Prop} (h : first.Yields s mid)
    (hnext : forall value t, mid value t -> (next value).Yields t post) :
    (first.thenSome next).Yields s post := by
  refine Ensures.yields h ?_
  intro got t hgot
  cases got with
  | none => exact yields_none
  | some value => exact hnext value t (hgot value rfl)

/-- Sequencing after a process with a known result. -/
theorem ensures_bind_of_run {first : Process S α} {next : α -> Process S β}
    {s t : S} {value : α} {post : Outcome β -> S -> Prop}
    (hrun : first s = (.done value, t)) (h : (next value).Ensures t post) :
    (first >>= next).Ensures s post := by
  unfold Ensures at h ⊢
  rw [bind_done hrun]
  exact h

/-!
## Forgetting part of the state
-/

/-- The second process is the first one on states of which a part is forgotten. -/
def ForgetsTo {T : Type} (forget : S -> T) (proc : Process S α) (bare : Process T α) :
    Prop :=
  forall s, bare (forget s) = ((proc s).1, forget (proc s).2)

section

variable {T : Type} {forget : S -> T}

theorem ForgetsTo.pure (value : α) :
    ForgetsTo forget (pure value : Process S α) (pure value) := fun _ => rfl

theorem ForgetsTo.bind {first : Process S α} {next : α -> Process S β}
    {bareFirst : Process T α} {bareNext : α -> Process T β}
    (h : ForgetsTo forget first bareFirst)
    (hnext : forall value, ForgetsTo forget (next value) (bareNext value)) :
    ForgetsTo forget (first >>= next) (bareFirst >>= bareNext) := by
  intro s
  rw [bind_apply, bind_apply, h s]
  rcases first s with ⟨outcome, t⟩
  cases outcome with
  | done value => exact hnext value t
  | crash => rfl
  | hang => rfl

/-- What is read from the state may be used only as far as it is not forgotten. -/
theorem ForgetsTo.read_bind {next : S -> Process S α} {bareNext : T -> Process T α}
    (hnext : forall s, ForgetsTo forget (next s) (bareNext (forget s))) :
    ForgetsTo forget (Process.read >>= next) (Process.read >>= bareNext) :=
  fun s => hnext s s

end

end Process

end Foundation
end UtokenDecrypt
