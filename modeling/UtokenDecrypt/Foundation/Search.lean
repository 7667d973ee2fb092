import Mathlib.Data.List.Forall2
import UtokenDecrypt.Foundation.Process

/-!
# Searching for the first success

Candidates are tried one after the other, and the first attempt that gives a
result ends the search.  An attempt may change the state also when it gives
none; what the attempts in front of the successful one left behind is what the
rules are about.
-/

namespace UtokenDecrypt
namespace Foundation
namespace Process

variable {S T ι κ α τ : Type}

/-- Do the second process only if the first one gives no result. -/
def orElse (first next : Process S (Option α)) : Process S (Option α) := do
  let got ← first
  match got with
  | some value => pure (some value)
  | none => next

theorem orElse_apply (first next : Process S (Option α)) (s : S) :
    orElse first next s =
      match first s with
      | (.done (some value), t) => (.done (some value), t)
      | (.done none, t) => next t
      | (.crash, t) => (.crash, t)
      | (.hang, t) => (.hang, t) := by
  rw [orElse, bind_apply]
  rcases first s with ⟨outcome, t⟩
  cases outcome with
  | done got => cases got <;> rfl
  | crash => rfl
  | hang => rfl

theorem orElse_some {first next : Process S (Option α)} {s t : S} {value : α}
    (h : first s = (.done (some value), t)) :
    orElse first next s = (.done (some value), t) := by
  rw [orElse_apply, h]

theorem orElse_none {first next : Process S (Option α)} {s t : S}
    (h : first s = (.done none, t)) : orElse first next s = next t := by
  rw [orElse_apply, h]

/-- Any process that goes on in this way. -/
theorem bind_eq_orElse {first next : Process S (Option α)}
    {go : Option α -> Process S (Option α)}
    (hsome : forall value, go (some value) = pure (some value)) (hnone : go none = next) :
    first >>= go = orElse first next := by
  funext s
  rw [orElse_apply, bind_apply]
  rcases first s with ⟨outcome, t⟩
  cases outcome with
  | done got =>
      cases got with
      | some value => exact congrFun (hsome value) t
      | none => exact congrFun hnone t
  | crash => rfl
  | hang => rfl

theorem orElse_assoc (first second third : Process S (Option α)) :
    orElse (orElse first second) third = orElse first (orElse second third) := by
  funext s
  rw [orElse_apply (orElse first second), orElse_apply first, orElse_apply first]
  rcases first s with ⟨outcome, t⟩
  cases outcome with
  | done got =>
      cases got with
      | some value => rfl
      | none => exact (orElse_apply second third t).symm
  | crash => rfl
  | hang => rfl

theorem ForgetsTo.orElse {forget : S -> T} {first next : Process S (Option α)}
    {bareFirst bareNext : Process T (Option α)} (h : ForgetsTo forget first bareFirst)
    (hnext : ForgetsTo forget next bareNext) :
    ForgetsTo forget (orElse first next) (orElse bareFirst bareNext) := by
  refine h.bind ?_
  intro got
  cases got with
  | some value => exact .pure _
  | none => exact hnext

/-!
## The search
-/

/-- Try the candidates in order, up to the first that gives a result. -/
def firstOf (attempt : ι -> Process S (Option α)) : List ι -> Process S (Option α)
  | [] => pure none
  | candidate :: rest => orElse (attempt candidate) (firstOf attempt rest)

theorem firstOf_cons (attempt : ι -> Process S (Option α)) (candidate : ι)
    (rest : List ι) : firstOf attempt (candidate :: rest) =
      orElse (attempt candidate) (firstOf attempt rest) := rfl

theorem firstOf_append (attempt : ι -> Process S (Option α)) (front back : List ι) :
    firstOf attempt (front ++ back) =
      orElse (firstOf attempt front) (firstOf attempt back) := by
  induction front with
  | nil => rfl
  | cons candidate rest ih =>
      rw [List.cons_append, firstOf_cons, firstOf_cons, ih, orElse_assoc]

/-- Two loops, one inside the other, are one search. -/
theorem firstOf_flatMap (attempt : ι -> Process S (Option α)) (f : κ -> List ι)
    (xs : List κ) : firstOf attempt (xs.flatMap f) =
      firstOf (fun x => firstOf attempt (f x)) xs := by
  induction xs with
  | nil => rfl
  | cons x rest ih => rw [List.flatMap_cons, firstOf_append, firstOf_cons, ih]

theorem ForgetsTo.firstOf {forget : S -> T} {attempt : ι -> Process S (Option α)}
    {bare : ι -> Process T (Option α)}
    (h : forall candidate, ForgetsTo forget (attempt candidate) (bare candidate))
    (xs : List ι) : ForgetsTo forget (firstOf attempt xs) (firstOf bare xs) := by
  induction xs with
  | nil => exact .pure none
  | cons candidate rest ih => exact (h candidate).orElse ih

/-- Attempts without a result, from a state to a state. -/
inductive PassesOver (attempt : ι -> Process S (Option α)) : S -> List ι -> S -> Prop where
  | nil (s : S) : PassesOver attempt s [] s
  | cons {s t u : S} {candidate : ι} {rest : List ι}
      (hfirst : attempt candidate s = (.done none, t))
      (hrest : PassesOver attempt t rest u) :
      PassesOver attempt s (candidate :: rest) u

/-- How a search of attempts that return ends. -/
inductive Searched (attempt : ι -> Process S (Option α)) (s : S) (xs : List ι) :
    Option α -> S -> Prop where
  | found {front back : List ι} {candidate : ι} {mid t : S} {value : α}
      (hsplit : xs = front ++ candidate :: back)
      (hfront : PassesOver attempt s front mid)
      (hcandidate : attempt candidate mid = (.done (some value), t)) :
      Searched attempt s xs (some value) t
  | exhausted {t : S} (hall : PassesOver attempt s xs t) : Searched attempt s xs none t

theorem Searched.cons {attempt : ι -> Process S (Option α)} {s t u : S}
    {candidate : ι} {rest : List ι} {found : Option α}
    (hfirst : attempt candidate s = (.done none, t))
    (h : Searched attempt t rest found u) :
    Searched attempt s (candidate :: rest) found u := by
  cases h with
  | found hsplit hfront hcandidate =>
      exact .found (congrArg (candidate :: ·) hsplit) (.cons hfirst hfront) hcandidate
  | exhausted hall => exact .exhausted (.cons hfirst hall)

/-- Where every attempt returns, the search does. -/
theorem firstOf_searched {attempt : ι -> Process S (Option α)}
    (h : forall candidate s, exists got t, attempt candidate s = (.done got, t))
    (xs : List ι) (s : S) :
    exists found t, firstOf attempt xs s = (.done found, t) ∧
      Searched attempt s xs found t := by
  induction xs generalizing s with
  | nil => exact ⟨none, s, rfl, .exhausted (.nil s)⟩
  | cons candidate rest ih =>
      rcases h candidate s with ⟨got, t, hgot⟩
      cases got with
      | some value =>
          exact ⟨some value, t, orElse_some hgot, .found (List.nil_append _).symm (.nil s) hgot⟩
      | none =>
          rcases ih t with ⟨found, u, hrun, hsearched⟩
          refine ⟨found, u, ?_, hsearched.cons hgot⟩
          rw [firstOf_cons, orElse_none hgot, hrun]

/-- What attempts without a result keep, and the parts they add to a trace. -/
theorem PassesOver.adds {attempt : ι -> Process S (Option α)} {kept : S -> Prop}
    {trace : S -> List τ} {passed : ι -> List τ -> Prop}
    (hstep : forall candidate s t, kept s -> attempt candidate s = (.done none, t) ->
      kept t ∧ exists part, trace t = trace s ++ part ∧ passed candidate part)
    {s t : S} {xs : List ι} (h : PassesOver attempt s xs t) (hs : kept s) :
    kept t ∧ exists parts, trace t = trace s ++ parts.flatten ∧
      List.Forall₂ passed xs parts := by
  induction h with
  | nil s => exact ⟨hs, [], (List.append_nil _).symm, .nil⟩
  | @cons s t u candidate rest hfirst _ ih =>
      rcases hstep candidate s t hs hfirst with ⟨ht, part, htrace, hpassed⟩
      rcases ih ht with ⟨hu, parts, htraces, hall⟩
      refine ⟨hu, part :: parts, ?_, .cons hpassed hall⟩
      rw [htraces, htrace, List.flatten_cons, List.append_assoc]

end Process

end Foundation
end UtokenDecrypt
