import UtokenDecrypt.Foundation.Process

/-!
# Why a process crashes

A process leaves a trace of what it meets, and some of it may be bad.  The rules are
about processes that crash for that reason only: if they come to an end, the trace says
whether they have crashed.
-/

namespace UtokenDecrypt
namespace Foundation
namespace Process

variable {S α β τ : Type} {trace : S -> List τ} {bad : τ -> Prop}

/-- The run adds to the trace, and if it ends, it has crashed exactly when something it
has added is bad. -/
def CrashesHere (trace : S -> List τ) (bad : τ -> Prop) (s : S)
    (run : Outcome α × S) : Prop :=
  exists added, trace run.2 = trace s ++ added ∧
    (run.1 ≠ .hang -> (run.1 = .crash ↔ exists x, x ∈ added ∧ bad x))

def CrashesBy (trace : S -> List τ) (bad : τ -> Prop) (proc : Process S α) : Prop :=
  forall s, CrashesHere trace bad s (proc s)

/-- Nothing is added, and the run does not crash. -/
theorem CrashesHere.nothing {s : S} {run : Outcome α × S} (htrace : trace run.2 = trace s)
    (hend : run.1 ≠ .crash) : CrashesHere trace bad s run := by
  refine ⟨[], by rw [htrace, List.append_nil], fun _ => iff_of_false hend ?_⟩
  rintro ⟨x, hmem, _⟩
  exact List.not_mem_nil hmem

/-- Something good is added in front. -/
theorem CrashesHere.behind {s t : S} {run : Outcome α × S} {x : τ}
    (htrace : trace t = trace s ++ [x]) (hgood : ¬ bad x)
    (h : CrashesHere trace bad t run) : CrashesHere trace bad s run := by
  rcases h with ⟨added, hadded, hiff⟩
  refine ⟨x :: added, ?_, fun hend => (hiff hend).trans ?_⟩
  · rw [hadded, htrace, List.append_assoc]
    rfl
  · constructor
    · rintro ⟨y, hmem, hbad⟩
      exact ⟨y, List.mem_cons_of_mem x hmem, hbad⟩
    · rintro ⟨y, hmem, hbad⟩
      cases List.mem_cons.mp hmem with
      | inl heq => exact absurd (heq ▸ hbad) hgood
      | inr hin => exact ⟨y, hin, hbad⟩

/-- Something bad is added, and the run does not return. -/
theorem CrashesHere.stopped {s : S} {run : Outcome α × S} {x : τ}
    (htrace : trace run.2 = trace s ++ [x]) (hbad : bad x) (hend : run.1.value? = none) :
    CrashesHere trace bad s run := by
  refine ⟨[x], htrace, fun hhang => iff_of_true ?_ ⟨x, List.mem_singleton_self x, hbad⟩⟩
  cases hrun : run.1 with
  | done value =>
      rw [hrun] at hend
      cases hend
  | crash => rfl
  | hang => exact absurd hrun hhang

theorem CrashesHere.bind {proc : Process S α} {next : α -> Process S β} {s : S}
    (h : CrashesHere trace bad s (proc s))
    (hnext : forall value t, proc s = (.done value, t) ->
      CrashesHere trace bad t (next value t)) :
    CrashesHere trace bad s ((proc >>= next) s) := by
  rw [bind_apply]
  rcases hrun : proc s with ⟨outcome, t⟩
  rw [hrun] at h
  rcases h with ⟨first, hfirst, hgood⟩
  cases outcome with
  | done value =>
      rcases hnext value t hrun with ⟨second, hsecond, hiff⟩
      refine ⟨first ++ second, ?_, fun hend => (hiff hend).trans ?_⟩
      · rw [hsecond, hfirst, List.append_assoc]
      · constructor
        · rintro ⟨x, hmem, hbad⟩
          exact ⟨x, List.mem_append_right first hmem, hbad⟩
        · rintro ⟨x, hmem, hbad⟩
          cases List.mem_append.mp hmem with
          | inl hin =>
              have hcrash := (hgood fun hhang => by cases hhang).mpr ⟨x, hin, hbad⟩
              cases hcrash
          | inr hin => exact ⟨x, hin, hbad⟩
  | crash =>
      refine ⟨first, hfirst, fun _ => iff_of_true rfl ?_⟩
      exact (hgood fun hhang => by cases hhang).mp rfl
  | hang => exact ⟨first, hfirst, fun hend => absurd rfl hend⟩

/-- The same for a second process that is given what the first one found. -/
theorem CrashesHere.thenSome {proc : Process S (Option α)}
    {next : α -> Process S (Option β)} {s : S} (h : CrashesHere trace bad s (proc s))
    (hnext : forall value t, proc s = (.done (some value), t) ->
      CrashesHere trace bad t (next value t)) :
    CrashesHere trace bad s (proc.thenSome next s) := by
  refine h.bind ?_
  intro got t hrun
  cases got with
  | none => exact .nothing rfl fun hbad => by cases hbad
  | some value => exact hnext value t hrun

/-!
## Rules
-/

theorem CrashesBy.pure (value : α) : CrashesBy trace bad (pure value : Process S α) :=
  fun _ => .nothing rfl fun hbad => by cases hbad

theorem CrashesBy.hang : CrashesBy trace bad (hang : Process S α) :=
  fun _ => .nothing rfl fun hbad => by cases hbad

theorem CrashesBy.read : CrashesBy trace bad (read : Process S S) :=
  fun _ => .nothing rfl fun hbad => by cases hbad

theorem CrashesBy.update {f : S -> S} (h : forall s, trace (f s) = trace s) :
    CrashesBy trace bad (update f) :=
  fun s => .nothing (h s) fun hbad => by cases hbad

theorem CrashesBy.bind {proc : Process S α} {next : α -> Process S β}
    (h : CrashesBy trace bad proc) (hnext : forall value, CrashesBy trace bad (next value)) :
    CrashesBy trace bad (proc >>= next) :=
  fun s => (h s).bind fun value t _ => hnext value t

end Process
end Foundation
end UtokenDecrypt
