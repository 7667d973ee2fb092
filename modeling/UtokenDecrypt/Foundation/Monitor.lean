import UtokenDecrypt.Foundation.Process

/-!
# Monitors

A monitor reads events one after the other, and stops at an event that is not
allowed.  A process obeys a monitor if the events it adds to the record are all
allowed, however the process ends; the state of the monitor then goes along with
the state of the process.
-/

namespace UtokenDecrypt
namespace Foundation

/-- The state behind an event, if the event is allowed. -/
abbrev Monitor (Q E : Type) : Type :=
  Q -> E -> Option Q

namespace Monitor

variable {Q E : Type}

def run (monitor : Monitor Q E) : Q -> List E -> Option Q
  | q, [] => some q
  | q, event :: rest => (monitor q event).bind fun next => monitor.run next rest

variable {monitor : Monitor Q E} {q next : Q}

@[simp] theorem run_nil : monitor.run q [] = some q := rfl

theorem run_cons {event : E} {rest : List E} :
    monitor.run q (event :: rest) =
      (monitor q event).bind fun next => monitor.run next rest := rfl

theorem run_append {front back : List E} (h : monitor.run q front = some next) :
    monitor.run q (front ++ back) = monitor.run next back := by
  induction front generalizing q with
  | nil =>
      injection h with h
      rw [h, List.nil_append]
  | cons event rest ih =>
      rcases Option.bind_eq_some_iff.mp h with ⟨mid, hmid, hrest⟩
      rw [List.cons_append, run_cons, hmid, Option.bind_some, ih hrest]

theorem run_single {event : E} (h : monitor q event = some next) :
    monitor.run q [event] = some next := by
  rw [run_cons, h, Option.bind_some, run_nil]

end Monitor

/-- A state that keeps a record: which events have been added on the way from one
state to another. -/
structure Recorder (S E : Type) where
  adds : S -> List E -> S -> Prop
  nil : forall s, adds s [] s
  append : forall {s t u front back}, adds s front t -> adds t back u ->
    adds s (front ++ back) u

section

variable {S E Q α β : Type} {recorder : Recorder S E} {monitor : Monitor Q E}

/-- From `s` to `t` only allowed events are added, and `next` is the state of the
monitor behind them. -/
def Recorder.Allowed (recorder : Recorder S E) (monitor : Monitor Q E) (q : Q) (s : S)
    (next : Q) (t : S) : Prop :=
  exists events, recorder.adds s events t ∧ monitor.run q events = some next

theorem Recorder.Allowed.refl {q : Q} {s : S} : recorder.Allowed monitor q s q s :=
  ⟨[], recorder.nil s, rfl⟩

theorem Recorder.Allowed.trans {q mid last : Q} {s t u : S}
    (h1 : recorder.Allowed monitor q s mid t)
    (h2 : recorder.Allowed monitor mid t last u) :
    recorder.Allowed monitor q s last u := by
  rcases h1 with ⟨front, hfront, hmid⟩
  rcases h2 with ⟨back, hback, hlast⟩
  exact ⟨front ++ back, recorder.append hfront hback, by
    rw [Monitor.run_append hmid, hlast]⟩

/-- A process that is started in `s`, when the monitor is in `q`, adds allowed events
only; `post` is about what it returns. -/
def Obeys (recorder : Recorder S E) (monitor : Monitor Q E) (q : Q) (s : S)
    (proc : Process S α) (post : α -> Q -> S -> Prop) : Prop :=
  proc.Ensures s fun outcome t => exists next,
    recorder.Allowed monitor q s next t ∧
      forall value, outcome = .done value -> post value next t

variable {q : Q} {s : S} {proc : Process S α} {post mid : α -> Q -> S -> Prop}

theorem Obeys.mono (h : Obeys recorder monitor q s proc mid)
    (himp : forall value next t, mid value next t -> post value next t) :
    Obeys recorder monitor q s proc post := by
  refine Process.Ensures.mono h ?_
  intro outcome t hends
  rcases hends with ⟨next, hallowed, hpost⟩
  exact ⟨next, hallowed, fun value hdone => himp value next t (hpost value hdone)⟩

/-- What else is known of the process. -/
theorem Obeys.and {rel : Outcome α -> S -> Prop}
    (h : Obeys recorder monitor q s proc mid) (hrel : proc.Ensures s rel) :
    Obeys recorder monitor q s proc fun value next t =>
      mid value next t ∧ rel (.done value) t := by
  unfold Obeys Process.Ensures at h
  unfold Obeys Process.Ensures
  rcases h with ⟨next, hallowed, hpost⟩
  refine ⟨next, hallowed, ?_⟩
  intro value hdone
  exact ⟨hpost value hdone, hrel.apply (Prod.ext hdone rfl)⟩

theorem obeys_pure {value : α} (h : post value q s) :
    Obeys recorder monitor q s (pure value) post := by
  refine ⟨q, .refl, ?_⟩
  intro other hdone
  injection hdone with hdone
  rw [← hdone]
  exact h

/-- A process that is known to return adds what it adds. -/
theorem obeys_of_run {value : α} {t : S} (hrun : proc s = (.done value, t)) {next : Q}
    (hallowed : recorder.Allowed monitor q s next t) (h : post value next t) :
    Obeys recorder monitor q s proc post := by
  unfold Obeys Process.Ensures
  rw [hrun]
  refine ⟨next, hallowed, ?_⟩
  intro other hdone
  injection hdone with hdone
  rw [← hdone]
  exact h

theorem Obeys.bind {next : α -> Process S β} {result : β -> Q -> S -> Prop}
    (h : Obeys recorder monitor q s proc mid)
    (hnext : forall value q t, mid value q t ->
      Obeys recorder monitor q t (next value) result) :
    Obeys recorder monitor q s (proc >>= next) result := by
  refine Process.Ensures.bind h ?_ ?_ ?_
  · intro value t hends
    rcases hends with ⟨between, hallowed, hmid⟩
    refine Process.Ensures.mono (hnext value between t (hmid value rfl)) ?_
    intro outcome u hlast
    rcases hlast with ⟨last, hrest, hresult⟩
    exact ⟨last, hallowed.trans hrest, hresult⟩
  · intro t hends
    rcases hends with ⟨between, hallowed, _⟩
    exact ⟨between, hallowed, fun _ hbad => by cases hbad⟩
  · intro t hends
    rcases hends with ⟨between, hallowed, _⟩
    exact ⟨between, hallowed, fun _ hbad => by cases hbad⟩

end

end Foundation
end UtokenDecrypt
