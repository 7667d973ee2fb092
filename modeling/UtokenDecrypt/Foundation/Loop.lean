import Mathlib.Data.Finset.Card
import Mathlib.Data.Finset.Range

/-!
# Loops with a step function

A loop body is a function from the loop state to either another state or a
result.  Nothing here assumes that a loop ends: running one takes a number of
rounds, and termination is the statement that some number is enough.

The module supplies the rules the developments above use on their loops: the
invariant rule, the divergence rule, and a termination rule for loops that move
a bounded position without a measure that decreases in every round.
-/

namespace UtokenDecrypt
namespace Foundation

/-- What one round of a loop leads to. -/
inductive Round (state result : Type) where
  | again (next : state)
  | finish (value : result)

namespace Loop

variable {state result : Type} {step : state -> Round state result}

/-- Run a loop for at most `fuel` rounds. -/
def run (step : state -> Round state result) : Nat -> state -> Option result
  | 0, _ => none
  | fuel + 1, s =>
      match step s with
      | .again next => run step fuel next
      | .finish value => some value

/-- Some number of rounds brings the loop to a result. -/
def Terminates (step : state -> Round state result) (s : state) : Prop :=
  exists fuel value, run step fuel s = some value

/-- The states a loop passes through. -/
inductive Reaches (step : state -> Round state result) (s : state) :
    state -> Prop where
  | refl : Reaches step s s
  | tail {t u : state} :
      Reaches step s t -> step t = .again u -> Reaches step s u

theorem Reaches.trans {s t u : state}
    (hst : Reaches step s t) (htu : Reaches step t u) : Reaches step s u := by
  induction htu with
  | refl => exact hst
  | tail _ hstep ih => exact ih.tail hstep

theorem Reaches.head {s t u : state}
    (hstep : step s = .again t) (htu : Reaches step t u) : Reaches step s u :=
  (Reaches.refl.tail hstep).trans htu

/-- A property kept by every round holds in every state passed through. -/
theorem Reaches.invariant {inv : state -> Prop} {s t : state}
    (hreach : Reaches step s t) (hinit : inv s)
    (hkeep : forall {s t : state}, inv s -> step s = .again t -> inv t) :
    inv t := by
  induction hreach with
  | refl => exact hinit
  | tail _ hstep ih => exact hkeep ih hstep

/-!
## Running
-/

theorem run_again {s t : state} (hstep : step s = .again t) (fuel : Nat) :
    run step (fuel + 1) s = run step fuel t := by
  simp [run, hstep]

theorem run_finish {s : state} {value : result}
    (hstep : step s = .finish value) (fuel : Nat) :
    run step (fuel + 1) s = some value := by
  simp [run, hstep]

/-- A result once found is found with any larger number of rounds. -/
theorem run_succ {fuel : Nat} {s : state} {value : result}
    (h : run step fuel s = some value) : run step (fuel + 1) s = some value := by
  induction fuel generalizing s with
  | zero => simp [run] at h
  | succ fuel ih =>
      cases hstep : step s with
      | again next =>
          rw [run_again hstep] at h ⊢
          exact ih h
      | finish found =>
          rw [run_finish hstep] at h ⊢
          exact h

theorem run_mono {fuel more : Nat} {s : state} {value : result}
    (h : run step fuel s = some value) (hle : fuel ≤ more) :
    run step more s = some value := by
  induction hle with
  | refl => exact h
  | step _ ih => exact run_succ ih

/-- A result comes from the last state passed through. -/
theorem run_last {fuel : Nat} {s : state} {value : result}
    (h : run step fuel s = some value) :
    exists t, Reaches step s t ∧ step t = .finish value := by
  induction fuel generalizing s with
  | zero => simp [run] at h
  | succ fuel ih =>
      cases hstep : step s with
      | again next =>
          rw [run_again hstep] at h
          rcases ih h with ⟨t, hreach, hlast⟩
          exact ⟨t, hreach.head hstep, hlast⟩
      | finish found =>
          rw [run_finish hstep] at h
          injection h with hfound
          exact ⟨s, Reaches.refl, by rw [hstep, hfound]⟩

/-- The last state passed through gives the result. -/
theorem run_of_reaches {s t : state} {value : result}
    (hreach : Reaches step s t) (hlast : step t = .finish value) :
    exists fuel, run step fuel s = some value := by
  have key : forall {u : state}, Reaches step s u ->
      forall fuel, run step fuel u = some value ->
        exists fuel, run step fuel s = some value := by
    intro u hu
    induction hu with
    | refl =>
        intro fuel h
        exact ⟨fuel, h⟩
    | tail _ hstep ih =>
        intro fuel h
        exact ih (fuel + 1) (by rw [run_again hstep]; exact h)
  exact key hreach 1 (run_finish hlast 0)

theorem terminates_finish {s : state} {value : result}
    (hstep : step s = .finish value) : Terminates step s :=
  ⟨1, value, run_finish hstep 0⟩

theorem terminates_again_iff {s t : state} (hstep : step s = .again t) :
    Terminates step s ↔ Terminates step t := by
  constructor
  · intro hs
    rcases hs with ⟨fuel, value, h⟩
    cases fuel with
    | zero => simp [run] at h
    | succ fuel =>
        rw [run_again hstep] at h
        exact ⟨fuel, value, h⟩
  · intro ht
    rcases ht with ⟨fuel, value, h⟩
    exact ⟨fuel + 1, value, by rw [run_again hstep]; exact h⟩

theorem terminates_reaches {s t : state} (hreach : Reaches step s t)
    (h : Terminates step s) : Terminates step t := by
  induction hreach with
  | refl => exact h
  | tail _ hstep ih => exact (terminates_again_iff hstep).mp ih

/-!
## Divergence
-/

/-- A loop that is in a set of states it never leaves has no result. -/
theorem not_terminates_of_closed {closed : state -> Prop}
    (hkeep : forall s, closed s -> exists t, step s = .again t ∧ closed t)
    {s : state} (hs : closed s) : ¬ Terminates step s := by
  intro hterm
  rcases hterm with ⟨fuel, value, h⟩
  induction fuel generalizing s with
  | zero => simp [run] at h
  | succ fuel ih =>
      rcases hkeep s hs with ⟨t, hstep, ht⟩
      rw [run_again hstep] at h
      exact ih ht h

/-!
## Laps

Some loops move a position that may go down as well as up, next to a counter
that only ever grows and has a limit.  Such a loop ends as long as it never
returns to a position it has been at without having counted in between.
-/

/-- One or more rounds that leave the counter as it is. -/
inductive QuietPath (step : state -> Round state result)
    (counter : state -> Nat) : state -> state -> Prop where
  | one {s t : state} :
      step s = .again t -> counter t = counter s -> QuietPath step counter s t
  | tail {s t u : state} :
      QuietPath step counter s t -> step t = .again u ->
      counter u = counter t -> QuietPath step counter s u

variable {counter : state -> Nat}

theorem QuietPath.reaches {s t : state}
    (h : QuietPath step counter s t) : Reaches step s t := by
  induction h with
  | one hstep _ => exact Reaches.refl.tail hstep
  | tail _ hstep _ ih => exact ih.tail hstep

/-- A path begins with a round, behind which the rest of it lies. -/
theorem QuietPath.head {s t : state} (h : QuietPath step counter s t) :
    exists u, step s = .again u ∧ counter u = counter s ∧
      (u = t ∨ QuietPath step counter u t) := by
  induction h with
  | one hstep hquiet => exact ⟨_, hstep, hquiet, Or.inl rfl⟩
  | tail _ hstep hquiet ih =>
      rcases ih with ⟨u, hfirst, hcount, hrest⟩
      refine ⟨u, hfirst, hcount, Or.inr ?_⟩
      cases hrest with
      | inl heq =>
          rw [heq]
          exact QuietPath.one hstep hquiet
      | inr hpath => exact hpath.tail hstep hquiet

/-- A loop without laps terminates. -/
theorem terminates_of_no_lap (counter position : state -> Nat) (limit bound : Nat)
    {s : state}
    (hlimit : forall t, Reaches step s t -> counter t ≤ limit)
    (hgrow : forall t u, Reaches step s t -> step t = .again u ->
      counter t ≤ counter u)
    (hbound : forall t, Reaches step s t -> position t < bound)
    (hlap : forall t u, Reaches step s t -> QuietPath step counter t u ->
      position u ≠ position t) :
    Terminates step s := by
  -- the outer induction uses up the counter, the inner one the positions
  have key : forall room spare t, Reaches step s t -> limit - counter t = room ->
      forall visited : Finset Nat, visited ⊆ Finset.range bound ->
        bound - visited.card = spare ->
        (forall p, p ∈ visited -> exists origin, Reaches step s origin ∧
          QuietPath step counter origin t ∧ position origin = p) ->
        Terminates step t := by
    intro room
    induction room using Nat.strong_induction_on with
    | _ room ihRoom =>
      intro spare
      induction spare using Nat.strong_induction_on with
      | _ spare ihSpare =>
        intro t ht hroom visited hsub hspare hvisited
        cases hstep : step t with
        | finish value => exact terminates_finish hstep
        | again u =>
            rw [terminates_again_iff hstep]
            have hu : Reaches step s u := ht.tail hstep
            have hle : counter t ≤ counter u := hgrow t u ht hstep
            have htop : counter u ≤ limit := hlimit u hu
            by_cases hquiet : counter u = counter t
            · have hfresh : position t ∉ visited := by
                intro hmem
                rcases hvisited _ hmem with ⟨origin, horigin, hpath, heq⟩
                exact hlap origin t horigin hpath heq.symm
              have hinsert : insert (position t) visited ⊆ Finset.range bound := by
                intro p hp
                rcases Finset.mem_insert.mp hp with hp | hp
                · rw [hp]
                  exact Finset.mem_range.mpr (hbound t ht)
                · exact hsub hp
              have hcard := Finset.card_insert_of_notMem hfresh
              have hfit := Finset.card_le_card hinsert
              rw [Finset.card_range] at hfit
              refine ihSpare (bound - (insert (position t) visited).card)
                (by lia) u hu (by lia) _ hinsert rfl ?_
              intro p hp
              rcases Finset.mem_insert.mp hp with hp | hp
              · exact ⟨t, ht, QuietPath.one hstep hquiet, hp.symm⟩
              · rcases hvisited p hp with ⟨origin, horigin, hpath, heq⟩
                exact ⟨origin, horigin, hpath.tail hstep hquiet, heq⟩
            · exact ihRoom (limit - counter u) (by lia) _ u hu rfl ∅
                (Finset.empty_subset _) rfl (by simp)
  exact key (limit - counter s) _ s Reaches.refl rfl ∅ (Finset.empty_subset _) rfl
    (by simp)

end Loop

end Foundation
end UtokenDecrypt
