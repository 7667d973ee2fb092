import Mathlib.Data.List.Forall2
import UtokenDecrypt.Foundation.Process

/-!
# The calls a process makes

A process that is built from calls of one operation can be described by the list
of these calls, with the argument and the outcome of each.  Only the last call
can be one that did not return, since nothing happens after it.
-/

namespace UtokenDecrypt
namespace Foundation

namespace Outcome

variable {α β : Type}

/-- Change the value of a process that returned. -/
def map (f : α -> β) : Outcome α -> Outcome β
  | done value => done (f value)
  | crash => crash
  | hang => hang

@[simp] theorem map_done (f : α -> β) (value : α) :
    (done value).map f = done (f value) := rfl

@[simp] theorem map_crash (f : α -> β) : (crash : Outcome α).map f = crash := rfl

@[simp] theorem map_hang (f : α -> β) : (hang : Outcome α).map f = hang := rfl

theorem map_hang_iff (outcome : Outcome α) (f : α -> β) :
    outcome.map f = hang ↔ outcome = hang := by
  cases outcome with
  | done value => exact iff_of_false (fun hbad => by cases hbad) fun hbad => by cases hbad
  | crash => exact iff_of_false (fun hbad => by cases hbad) fun hbad => by cases hbad
  | hang => exact iff_of_true rfl rfl

end Outcome

namespace Process

variable {S ι ρ α β : Type}

/-- Changing the value at the end changes nothing else. -/
theorem bind_pure_apply (first : Process S α) (f : α -> β) (s : S) :
    (first >>= fun value => pure (f value)) s =
      ((first s).1.map f, (first s).2) := by
  rw [bind_apply]
  rcases first s with ⟨outcome, t⟩
  cases outcome <;> rfl

/-- Calls of an operation one after the other, from a state to a state. -/
inductive Calls (op : ι -> Process S ρ) :
    S -> List (ι × Outcome ρ) -> S -> Prop where
  | nil (s : S) : Calls op s [] s
  | returned {s t u : S} {arg : ι} {value : ρ} {calls : List (ι × Outcome ρ)}
      (hcall : op arg s = (.done value, t)) (hrest : Calls op t calls u) :
      Calls op s ((arg, .done value) :: calls) u
  | stopped {s t : S} {arg : ι} {outcome : Outcome ρ}
      (hcall : op arg s = (outcome, t)) (hstop : outcome.value? = none) :
      Calls op s [(arg, outcome)] t

variable {op : ι -> Process S ρ}

/-- A single call, whether it returned or not. -/
theorem Calls.single {s t : S} {arg : ι} {outcome : Outcome ρ}
    (hcall : op arg s = (outcome, t)) : Calls op s [(arg, outcome)] t := by
  cases outcome with
  | done value => exact Calls.returned hcall (Calls.nil t)
  | crash => exact Calls.stopped hcall rfl
  | hang => exact Calls.stopped hcall rfl

/-- The first of some calls, and the others. -/
theorem Calls.head {s t : S} {call : ι × Outcome ρ} {calls : List (ι × Outcome ρ)}
    (h : Calls op s (call :: calls) t) :
    exists mid, op call.1 s = (call.2, mid) ∧ Calls op mid calls t := by
  cases h with
  | returned hcall hrest => exact ⟨_, hcall, hrest⟩
  | stopped hcall _ => exact ⟨t, hcall, Calls.nil t⟩

/-- Calls behind calls that all returned. -/
theorem Calls.append {s t u : S} {front back : List (ι × Outcome ρ)}
    (h : Calls op s front t)
    (hreturned : forall call, call ∈ front -> exists value, call.2 = .done value)
    (hback : Calls op t back u) : Calls op s (front ++ back) u := by
  induction h with
  | nil s => exact hback
  | returned hcall hrest ih =>
      refine Calls.returned hcall (ih ?_ hback)
      intro call hmem
      exact hreturned call (List.mem_cons_of_mem _ hmem)
  | stopped hcall hstop =>
      rcases hreturned _ List.mem_cons_self with ⟨value, hvalue⟩
      simp only at hvalue
      rw [hvalue] at hstop
      cases hstop

/-- An operation that is itself made of calls of another one: the calls of the
first one, each replaced by what it is made of, are calls of the second. -/
theorem Calls.refines {κ τ : Type} {sub : κ -> Process S τ} {pre : ι -> Prop}
    {rel : ι -> Outcome ρ -> List (κ × Outcome τ) -> Prop}
    (hmade : forall arg s, pre arg -> exists made,
      Calls sub s made (op arg s).2 ∧ rel arg (op arg s).1 made ∧
      forall value, (op arg s).1 = .done value ->
        forall call, call ∈ made -> exists value, call.2 = .done value)
    {s t : S} {calls : List (ι × Outcome ρ)} (h : Calls op s calls t)
    (hpre : forall call, call ∈ calls -> pre call.1) :
    exists parts, Calls sub s parts.flatten t ∧
      List.Forall₂ (fun call made => rel call.1 call.2 made) calls parts := by
  induction h with
  | nil s => exact ⟨[], Calls.nil s, List.Forall₂.nil⟩
  | @returned s t u arg value calls hcall hrest ih =>
      rcases ih (fun call hmem => hpre call (List.mem_cons_of_mem _ hmem)) with
        ⟨parts, hparts, hall⟩
      rcases hmade arg s (hpre (arg, .done value) List.mem_cons_self) with
        ⟨made, hcalls, hrel, hreturned⟩
      rw [hcall] at hcalls hrel hreturned
      exact ⟨made :: parts, hcalls.append (hreturned value rfl) hparts,
        List.Forall₂.cons hrel hall⟩
  | @stopped s t arg outcome hcall hstop =>
      rcases hmade arg s (hpre (arg, outcome) List.mem_cons_self) with
        ⟨made, hcalls, hrel, _⟩
      rw [hcall] at hcalls hrel
      refine ⟨[made], ?_, List.Forall₂.cons hrel List.Forall₂.nil⟩
      rw [List.flatten_singleton]
      exact hcalls

end Process

end Foundation
end UtokenDecrypt
