import UtokenDecrypt.Foundation.Calls

/-!
# Why a process does not return

A process may leave a trace of the things it starts, and some of them may be bad
in that they do not end.  The rules are about processes that do not return for
that reason only: the trace says whether they do.
-/

namespace UtokenDecrypt
namespace Foundation
namespace Process

variable {S α β τ : Type} {trace : S -> List τ} {bad : τ -> Prop}

/-- The run adds to the trace, and does not return exactly when something it adds
is bad. -/
def HangsHere (trace : S -> List τ) (bad : τ -> Prop) (s : S)
    (run : Outcome α × S) : Prop :=
  exists added, trace run.2 = trace s ++ added ∧
    (run.1 = .hang ↔ exists x, x ∈ added ∧ bad x)

def HangsBy (trace : S -> List τ) (bad : τ -> Prop) (proc : Process S α) : Prop :=
  forall s, HangsHere trace bad s (proc s)

/-- Nothing is added, and the run ends. -/
theorem HangsHere.ended {s : S} {run : Outcome α × S} (htrace : trace run.2 = trace s)
    (hend : run.1 ≠ .hang) : HangsHere trace bad s run := by
  refine ⟨[], by rw [htrace, List.append_nil], iff_of_false hend ?_⟩
  rintro ⟨x, hmem, _⟩
  exact List.not_mem_nil hmem

/-- It matters only whether the outcome is that of a run that does not return. -/
theorem HangsHere.congr {s t : S} {first : Outcome α} {second : Outcome β}
    (h : HangsHere trace bad s (first, t)) (hsame : second = .hang ↔ first = .hang) :
    HangsHere trace bad s (second, t) := by
  rcases h with ⟨added, htrace, hiff⟩
  exact ⟨added, htrace, hsame.trans hiff⟩

/-- What was added by a run that returned is not bad. -/
theorem HangsHere.bind {proc : Process S α} {next : α -> Process S β} {s : S}
    (h : HangsHere trace bad s (proc s))
    (hnext : forall value t, proc s = (.done value, t) ->
      HangsHere trace bad t (next value t)) :
    HangsHere trace bad s ((proc >>= next) s) := by
  rw [bind_apply]
  rcases hrun : proc s with ⟨outcome, t⟩
  rw [hrun] at h
  cases outcome with
  | done value =>
      rcases h with ⟨first, hfirst, hgood⟩
      rcases hnext value t hrun with ⟨second, hsecond, hiff⟩
      refine ⟨first ++ second, ?_, hiff.trans ?_⟩
      · rw [hsecond, hfirst, List.append_assoc]
      · constructor
        · rintro ⟨x, hmem, hbad⟩
          exact ⟨x, List.mem_append_right first hmem, hbad⟩
        · rintro ⟨x, hmem, hbad⟩
          cases List.mem_append.mp hmem with
          | inl hin =>
              have hhang := hgood.mpr ⟨x, hin, hbad⟩
              cases hhang
          | inr hin => exact ⟨x, hin, hbad⟩
  | crash => exact h.congr (iff_of_false (fun hbad => by cases hbad) fun hbad => by cases hbad)
  | hang => exact h.congr (iff_of_true rfl rfl)

/-!
## Rules
-/

theorem HangsBy.ended {proc : Process S α}
    (h : forall s, trace (proc s).2 = trace s ∧ (proc s).1 ≠ .hang) :
    HangsBy trace bad proc :=
  fun s => .ended (h s).1 (h s).2

theorem HangsBy.pure (value : α) : HangsBy trace bad (pure value : Process S α) :=
  .ended fun _ => ⟨rfl, fun hhang => by cases hhang⟩

theorem HangsBy.crash : HangsBy trace bad (crash : Process S α) :=
  .ended fun _ => ⟨rfl, fun hhang => by cases hhang⟩

theorem HangsBy.read : HangsBy trace bad (read : Process S S) :=
  .ended fun _ => ⟨rfl, fun hhang => by cases hhang⟩

theorem HangsBy.update {f : S -> S} (h : forall s, trace (f s) = trace s) :
    HangsBy trace bad (update f) :=
  .ended fun s => ⟨h s, fun hhang => by cases hhang⟩

theorem HangsBy.peek (block : List UInt8) (proc : Peek α) :
    HangsBy trace bad (peek block proc : Process S α) := by
  unfold Process.peek
  split
  · exact .pure _
  · exact .crash

theorem HangsBy.bind {proc : Process S α} {next : α -> Process S β}
    (h : HangsBy trace bad proc) (hnext : forall value, HangsBy trace bad (next value)) :
    HangsBy trace bad (proc >>= next) :=
  fun s => (h s).bind fun value t _ => hnext value t

/-- A sequence of calls adds what its calls add, and one of them is the last if it
does not return. -/
theorem Calls.hangs {ι ρ : Type} {op : ι -> Process S ρ} (pre : ι -> Prop)
    (hop : forall arg, pre arg -> HangsBy trace bad (op arg))
    {s t : S} {calls : List (ι × Outcome ρ)} (h : Calls op s calls t)
    (hpre : forall call, call ∈ calls -> pre call.1) :
    exists added, trace t = trace s ++ added ∧
      ((exists call, call ∈ calls ∧ call.2 = .hang) ↔ exists x, x ∈ added ∧ bad x) := by
  induction h with
  | nil s =>
      refine ⟨[], (List.append_nil _).symm, iff_of_false ?_ ?_⟩
      · rintro ⟨call, hmem, _⟩
        exact List.not_mem_nil hmem
      · rintro ⟨x, hmem, _⟩
        exact List.not_mem_nil hmem
  | @returned s t u arg value calls hcall _ ih =>
      have hfirst := hop arg (hpre (arg, .done value) List.mem_cons_self) s
      rw [hcall] at hfirst
      rcases hfirst with ⟨first, hfirst, hgood⟩
      rcases ih (fun call hmem => hpre call (List.mem_cons_of_mem _ hmem)) with
        ⟨rest, hrest, hiff⟩
      refine ⟨first ++ rest, ?_, ?_⟩
      · rw [hrest, hfirst, List.append_assoc]
      · constructor
        · rintro ⟨call, hmem, hhang⟩
          cases List.mem_cons.mp hmem with
          | inl heq =>
              rw [heq] at hhang
              cases hhang
          | inr hin =>
              rcases hiff.mp ⟨call, hin, hhang⟩ with ⟨x, hx, hbad⟩
              exact ⟨x, List.mem_append_right first hx, hbad⟩
        · rintro ⟨x, hmem, hbad⟩
          cases List.mem_append.mp hmem with
          | inl hin =>
              have hhang := hgood.mpr ⟨x, hin, hbad⟩
              cases hhang
          | inr hin =>
              rcases hiff.mpr ⟨x, hin, hbad⟩ with ⟨call, hcalls, hhang⟩
              exact ⟨call, List.mem_cons_of_mem _ hcalls, hhang⟩
  | @stopped s t arg outcome hcall _ =>
      have honly := hop arg (hpre (arg, outcome) List.mem_cons_self) s
      rw [hcall] at honly
      rcases honly with ⟨added, hadded, hiff⟩
      refine ⟨added, hadded, Iff.trans ?_ hiff⟩
      constructor
      · rintro ⟨call, hmem, hhang⟩
        rw [List.mem_singleton.mp hmem] at hhang
        exact hhang
      · intro hhang
        exact ⟨_, List.mem_singleton_self _, hhang⟩

/-!
## Processes that end
-/

/-- Every run returns or crashes. -/
def Ends (proc : Process S α) : Prop :=
  forall s, (proc s).1 ≠ .hang

theorem bind_hang_iff {first : Process S α} {next : α -> Process S β} {s : S} :
    ((first >>= next) s).1 = .hang ↔ (first s).1 = .hang ∨
      exists value t, first s = (.done value, t) ∧ (next value t).1 = .hang := by
  rw [bind_apply]
  rcases hrun : first s with ⟨outcome, t⟩
  cases outcome with
  | done value =>
      constructor
      · exact fun hhang => Or.inr ⟨value, t, rfl, hhang⟩
      · rintro (hbad | ⟨other, u, heq, hhang⟩)
        · cases hbad
        · cases heq
          exact hhang
  | crash =>
      refine iff_of_false (fun hbad => by cases hbad) ?_
      rintro (hbad | ⟨_, _, hbad, _⟩)
      · cases hbad
      · cases hbad
  | hang => exact iff_of_true rfl (Or.inl rfl)

theorem Ends.returns {proc : Process S α} (h : forall s, exists value, (proc s).1 = .done value) :
    Ends proc := by
  intro s hhang
  rcases h s with ⟨value, hvalue⟩
  rw [hvalue] at hhang
  cases hhang

theorem Ends.pure (value : α) : Ends (pure value : Process S α) :=
  .returns fun _ => ⟨value, rfl⟩

theorem Ends.crash : Ends (crash : Process S α) :=
  fun _ hhang => by cases hhang

theorem Ends.read : Ends (read : Process S S) :=
  .returns fun s => ⟨s, rfl⟩

theorem Ends.update (f : S -> S) : Ends (update f) :=
  .returns fun _ => ⟨(), rfl⟩

theorem Ends.peek (block : List UInt8) (proc : Peek α) :
    Ends (peek block proc : Process S α) := by
  unfold Process.peek
  split
  · exact .pure _
  · exact .crash

theorem Ends.bind {first : Process S α} {next : α -> Process S β} (h : Ends first)
    (hnext : forall value, Ends (next value)) : Ends (first >>= next) := by
  intro s hhang
  rcases bind_hang_iff.mp hhang with hfirst | ⟨value, t, _, hsecond⟩
  · exact h s hfirst
  · exact hnext value t hsecond

/-- Calls that end do not keep a sequence of them from ending. -/
theorem Calls.ends {ι ρ : Type} {op : ι -> Process S ρ} {s t : S}
    {calls : List (ι × Outcome ρ)} (h : Calls op s calls t)
    (hop : forall call, call ∈ calls -> Ends (op call.1)) :
    forall call, call ∈ calls -> call.2 ≠ .hang := by
  induction h with
  | nil s => exact fun _ hmem => (List.not_mem_nil hmem).elim
  | @returned s t u arg value calls hcall _ ih =>
      intro call hmem
      rcases List.mem_cons.mp hmem with rfl | hin
      · exact fun hhang => by cases hhang
      · exact ih (fun other hother => hop other (List.mem_cons_of_mem _ hother)) call hin
  | @stopped s t arg outcome hcall _ =>
      intro call hmem hhang
      rw [List.mem_singleton.mp hmem] at hhang
      exact hop (arg, outcome) List.mem_cons_self s (by rw [hcall]; exact hhang)

end Process

end Foundation
end UtokenDecrypt
