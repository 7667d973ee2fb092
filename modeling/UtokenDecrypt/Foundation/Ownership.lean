import UtokenDecrypt.Foundation.Heap

/-!
# Owned blocks

A piece of a program owns some blocks of the heap, and leaves the others alone.
`Triple` says what a piece makes of its blocks; `Refines` compares a piece that
works on blocks with a process that has the contents of the blocks as values.
Both hold next to any other blocks, so that a piece can be used where more is
allocated than it knows of.

A piece that refines a process makes no fault: each block it uses is there, and
is freed once at most.
-/

namespace UtokenDecrypt
namespace Foundation

/-- Blocks with their addresses. -/
abbrev Owned (β : Type) : Type :=
  Multiset (Nat × β)

section

variable {S β α γ δ ε ω : Type}

/-!
## One program
-/

/-- The piece returns, has done nothing but work on its blocks, and made no
fault. -/
def Triple (pre : Owned β) (low : Process (Machine S β) α) (post : α -> Owned β -> Prop) :
    Prop :=
  forall (m : Machine S β) (rest : Owned β), m.heap.live = pre + rest ->
    exists value heap got, low m = (.done value, { m with heap := heap }) ∧
      heap.live = got + rest ∧ post value got

section

variable {pre others : Owned β} {low : Process (Machine S β) α}
  {next : α -> Process (Machine S β) γ} {post mid : α -> Owned β -> Prop}

theorem Triple.mono {strong : α -> Owned β -> Prop} (h : Triple pre low strong)
    (himp : forall value got, strong value got -> post value got) :
    Triple pre low post := by
  intro m rest hlive
  rcases h m rest hlive with ⟨value, heap, got, hrun, hheap, hpost⟩
  exact ⟨value, heap, got, hrun, hheap, himp value got hpost⟩

theorem triple_pure {value : α} (h : post value pre) :
    Triple (S := S) pre (pure value) post := by
  intro m rest hlive
  exact ⟨value, m.heap, pre, rfl, hlive, h⟩

theorem Triple.bind {result : γ -> Owned β -> Prop} (h : Triple pre low mid)
    (hnext : forall value got, mid value got -> Triple got (next value) result) :
    Triple pre (low >>= next) result := by
  intro m rest hlive
  rcases h m rest hlive with ⟨value, heap, got, hrun, hheap, hmid⟩
  rcases hnext value got hmid { m with heap := heap } rest hheap with
    ⟨result, heap2, got2, hrun2, hheap2, hpost⟩
  exact ⟨result, heap2, got2, by rw [Process.bind_done hrun, hrun2], hheap2, hpost⟩

end

theorem triple_malloc (block : β) (pre : Owned β) :
    Triple (S := S) pre (Machine.malloc block) fun addr got =>
      got = (addr, block) ::ₘ pre := by
  intro m rest hlive
  refine ⟨m.heap.next, m.heap.alloc block, (m.heap.next, block) ::ₘ pre, rfl, ?_, rfl⟩
  rw [Heap.live_alloc, hlive, Multiset.cons_add]

theorem triple_loadAs {view : β -> Option ω} {addr : Nat} {block : β} {value : ω}
    {pre : Owned β} (hmem : (addr, block) ∈ pre) (hview : view block = some value) :
    Triple (S := S) pre (Machine.loadAs view addr) fun got own =>
      got = value ∧ own = pre := by
  intro m rest hlive
  have hfind : m.heap.find addr = some block :=
    Heap.find_of_mem (hlive ▸ Multiset.mem_add.mpr (Or.inl hmem))
  refine ⟨value, m.heap, pre, ?_, hlive, rfl, rfl⟩
  unfold Machine.loadAs
  rw [hfind, Option.bind_some, hview]
  rfl

theorem triple_store (addr : Nat) (old block : β) (others : Owned β) :
    Triple (S := S) ((addr, old) ::ₘ others) (Machine.store addr block) fun _ got =>
      got = (addr, block) ::ₘ others := by
  intro m rest hlive
  rw [Multiset.cons_add] at hlive
  have hfind : m.heap.find addr = some old :=
    Heap.find_of_mem (hlive ▸ Multiset.mem_cons_self _ _)
  refine ⟨(), m.heap.replace addr block, (addr, block) ::ₘ others, ?_, ?_, rfl⟩
  · exact if_pos (Option.isSome_iff_exists.mpr ⟨old, hfind⟩)
  · rw [Heap.live_replace hlive, Multiset.cons_add]

theorem triple_free (addr : Nat) (block : β) (others : Owned β) :
    Triple (S := S) ((addr, block) ::ₘ others) (Machine.free addr) fun _ got =>
      got = others := by
  intro m rest hlive
  rw [Multiset.cons_add] at hlive
  have hfind : m.heap.find addr = some block :=
    Heap.find_of_mem (hlive ▸ Multiset.mem_cons_self _ _)
  refine ⟨(), m.heap.erase addr, others, ?_, Heap.live_erase hlive, rfl⟩
  exact if_pos (Option.isSome_iff_exists.mpr ⟨block, hfind⟩)

section

variable {addr : Nat} {block old : β} {pre others : Owned β} {post : α -> Owned β -> Prop}

theorem Triple.loadAs_bind {view : β -> Option ω} {value : ω}
    {next : ω -> Process (Machine S β) α} (hmem : (addr, block) ∈ pre)
    (hview : view block = some value) (h : Triple pre (next value) post) :
    Triple pre (Machine.loadAs view addr >>= next) post :=
  (triple_loadAs hmem hview).bind fun _ _ hown => by
    rw [hown.1, hown.2]
    exact h

theorem Triple.store_bind {next : Unit -> Process (Machine S β) α}
    (h : Triple ((addr, block) ::ₘ others) (next ()) post) :
    Triple ((addr, old) ::ₘ others) (Machine.store addr block >>= next) post :=
  (triple_store addr old block others).bind fun _ _ hown => hown ▸ h

theorem Triple.free_bind {next : Unit -> Process (Machine S β) α}
    (h : Triple others (next ()) post) :
    Triple ((addr, block) ::ₘ others) (Machine.free addr >>= next) post :=
  (triple_free addr block others).bind fun _ _ hown => hown ▸ h

end

/-!
## Two levels
-/

/-- How a run on blocks ends, next to a run on values: in the same way, in the
same state, and without a fault. -/
inductive Matches (rest : Owned β) (faults : List Fault) (post : α -> γ -> Owned β -> Prop) :
    Outcome α × Machine S β -> Outcome γ × S -> Prop where
  | done {x : α} {y : γ} {m : Machine S β} {got : Owned β} (hpost : post x y got)
      (hlive : m.heap.live = got + rest) (hfaults : m.faults = faults) :
      Matches rest faults post (.done x, m) (.done y, m.host)
  | crash {m : Machine S β} (hfaults : m.faults = faults) :
      Matches rest faults post (.crash, m) (.crash, m.host)
  | hang {m : Machine S β} (hfaults : m.faults = faults) :
      Matches rest faults post (.hang, m) (.hang, m.host)

/-- The piece does on its blocks what the process does on values. -/
def Refines (pre : Owned β) (low : Process (Machine S β) α) (high : Process S γ)
    (post : α -> γ -> Owned β -> Prop) : Prop :=
  forall (m : Machine S β) (rest : Owned β), m.heap.live = pre + rest ->
    Matches rest m.faults post (low m) (high m.host)

section

variable {pre others : Owned β} {low : Process (Machine S β) α} {high : Process S γ}
  {mid post : α -> γ -> Owned β -> Prop}

theorem Matches.mono {rest : Owned β} {faults : List Fault}
    {strong : α -> γ -> Owned β -> Prop} {one : Outcome α × Machine S β}
    {other : Outcome γ × S} (h : Matches rest faults strong one other)
    (himp : forall x y got, strong x y got -> post x y got) :
    Matches rest faults post one other := by
  cases h with
  | done hpost hlive hfaults => exact Matches.done (himp _ _ _ hpost) hlive hfaults
  | crash hfaults => exact Matches.crash hfaults
  | hang hfaults => exact Matches.hang hfaults

/-- The blocks behind a run that returned. -/
theorem Refines.returned {m t : Machine S β} {x : α} (h : Refines m.heap.live low high post)
    (hrun : low m = (.done x, t)) : exists y, post x y t.heap.live := by
  have hmatches := h m 0 (Multiset.add_zero _).symm
  rw [hrun] at hmatches
  generalize high m.host = other at hmatches
  cases hmatches with
  | @done _ y _ got hpost hlive hfaults =>
      rw [Multiset.add_zero] at hlive
      exact ⟨y, hlive ▸ hpost⟩

theorem Refines.mono {strong : α -> γ -> Owned β -> Prop} (h : Refines pre low high strong)
    (himp : forall x y got, strong x y got -> post x y got) : Refines pre low high post :=
  fun m rest hlive => (h m rest hlive).mono himp

theorem refines_pure {x : α} {y : γ} (h : post x y pre) :
    Refines (S := S) pre (pure x) (pure y) post :=
  fun _ _ hlive => Matches.done h hlive rfl

theorem refines_crash :
    Refines (S := S) pre Process.crash Process.crash post :=
  fun _ _ _ => Matches.crash rfl

theorem refines_hang :
    Refines (S := S) pre Process.hang Process.hang post :=
  fun _ _ _ => Matches.hang rfl

theorem Refines.bind {lowNext : α -> Process (Machine S β) δ} {highNext : γ -> Process S ε}
    {result : δ -> ε -> Owned β -> Prop} (h : Refines pre low high mid)
    (hnext : forall x y got, mid x y got -> Refines got (lowNext x) (highNext y) result) :
    Refines pre (low >>= lowNext) (high >>= highNext) result := by
  intro m rest hlive
  have hfirst := h m rest hlive
  rw [Process.bind_apply, Process.bind_apply]
  rcases hlow : low m with ⟨outcome, t⟩
  rcases hhigh : high m.host with ⟨other, s⟩
  rw [hlow, hhigh] at hfirst
  cases hfirst with
  | @done x y _ got hmid hgot hfaults =>
      rw [← hfaults]
      exact hnext x y got hmid t rest hgot
  | crash hfaults => exact Matches.crash hfaults
  | hang hfaults => exact Matches.hang hfaults

theorem Triple.refines {own : α -> Owned β -> Prop} {y : γ} (h : Triple pre low own)
    (hpost : forall x got, own x got -> post x y got) :
    Refines pre low (pure y) post := by
  intro m rest hlive
  rcases h m rest hlive with ⟨value, heap, got, hrun, hheap, hown⟩
  rw [hrun]
  exact Matches.done (m := { m with heap := heap }) (hpost value got hown) hheap rfl

/-- Steps on blocks behind the last one that the process on values has. -/
theorem Refines.andThen {next : α -> Process (Machine S β) δ}
    {result : δ -> γ -> Owned β -> Prop} (h : Refines pre low high mid)
    (hnext : forall x y got, mid x y got ->
      Triple got (next x) fun value own => result value y own) :
    Refines pre (low >>= next) high result := by
  intro m rest hlive
  have hfirst := h m rest hlive
  rw [Process.bind_apply]
  rcases hlow : low m with ⟨outcome, t⟩
  rcases hhigh : high m.host with ⟨other, s⟩
  rw [hlow, hhigh] at hfirst
  cases hfirst with
  | @done x y _ got hmid hgot hfaults =>
      rcases hnext x y got hmid t rest hgot with ⟨value, heap, own, hrun, hheap, hresult⟩
      change Matches rest m.faults result (next x t) _
      rw [hrun]
      exact Matches.done (m := { t with heap := heap }) hresult hheap hfaults
  | crash hfaults => exact Matches.crash hfaults
  | hang hfaults => exact Matches.hang hfaults

/-- A step whose value the process on values has at hand. -/
theorem Refines.bind_value {value : ε} {first : Process (Machine S β) δ}
    {own : δ -> ε -> Owned β -> Prop} {next : δ -> Process (Machine S β) α}
    (h : Refines pre first (pure value) own)
    (hnext : forall x got, own x value got -> Refines got (next x) high post) :
    Refines pre (first >>= next) high post := by
  intro m rest hlive
  have hfirst := h m rest hlive
  rw [Process.pure_apply] at hfirst
  rw [Process.bind_apply]
  rcases hrun : first m with ⟨outcome, t⟩
  rw [hrun] at hfirst
  generalize hs : m.host = s at hfirst ⊢
  cases hfirst with
  | @done x y _ got hown hgot hfaults =>
      rw [← hfaults]
      exact hnext x got hown t rest hgot

/-- A step that has the same value on both levels, and leaves the blocks alone. -/
theorem Refines.bindSame {first : Process (Machine S β) ω} {highFirst : Process S ω}
    {next : ω -> Process (Machine S β) α} {highNext : ω -> Process S γ}
    (h : Refines pre first highFirst fun x y got => x = y ∧ got = pre)
    (hnext : forall value, Refines pre (next value) (highNext value) post) :
    Refines pre (first >>= next) (highFirst >>= highNext) post := by
  refine h.bind ?_
  rintro value _ _ ⟨rfl, rfl⟩
  exact hnext value

theorem Refines.ite {cond : Prop} [Decidable cond] {lowElse : Process (Machine S β) α}
    {highElse : Process S γ} (hyes : cond -> Refines pre low high post)
    (hno : ¬ cond -> Refines pre lowElse highElse post) :
    Refines pre (if cond then low else lowElse) (if cond then high else highElse) post := by
  split
  · rename_i hcond
    exact hyes hcond
  · rename_i hcond
    exact hno hcond

/-- A step on blocks that the process on values does not have. -/
theorem Refines.step {own : δ -> Owned β -> Prop} {first : Process (Machine S β) δ}
    {next : δ -> Process (Machine S β) α} (h : Triple pre first own)
    (hnext : forall value got, own value got -> Refines got (next value) high post) :
    Refines pre (first >>= next) high post := by
  intro m rest hlive
  rcases h m rest hlive with ⟨value, heap, got, hrun, hheap, hown⟩
  rw [Process.bind_done hrun]
  exact hnext value got hown { m with heap := heap } rest hheap

theorem Refines.malloc_bind {block : β} {next : Nat -> Process (Machine S β) α}
    (h : forall addr, Refines ((addr, block) ::ₘ pre) (next addr) high post) :
    Refines pre (Machine.malloc block >>= next) high post :=
  Refines.step (triple_malloc block pre) fun addr _ hown => hown ▸ h addr

theorem Refines.loadAs_bind {view : β -> Option ω} {addr : Nat} {block : β} {value : ω}
    {next : ω -> Process (Machine S β) α} (hmem : (addr, block) ∈ pre)
    (hview : view block = some value) (h : Refines pre (next value) high post) :
    Refines pre (Machine.loadAs view addr >>= next) high post :=
  Refines.step (triple_loadAs hmem hview) fun _ _ hown => by
    rw [hown.1, hown.2]
    exact h

theorem Refines.store_bind {addr : Nat} {old block : β}
    {next : Unit -> Process (Machine S β) α}
    (h : Refines ((addr, block) ::ₘ others) (next ()) high post) :
    Refines ((addr, old) ::ₘ others) (Machine.store addr block >>= next) high post :=
  Refines.step (triple_store addr old block others) fun _ _ hown => hown ▸ h

theorem Refines.free_bind {addr : Nat} {block : β}
    {next : Unit -> Process (Machine S β) α} (h : Refines others (next ()) high post) :
    Refines ((addr, block) ::ₘ others) (Machine.free addr >>= next) high post :=
  Refines.step (triple_free addr block others) fun _ _ hown => hown ▸ h

/-- What does not see the heap is the same on both levels. -/
theorem refines_onHost (proc : Process S α) :
    Refines pre (Machine.onHost proc) proc fun x y got => x = y ∧ got = pre := by
  intro m rest hlive
  unfold Machine.onHost
  rcases proc m.host with ⟨outcome, s⟩
  cases outcome with
  | done value =>
      exact Matches.done (m := { m with host := s }) ⟨rfl, rfl⟩ hlive rfl
  | crash => exact Matches.crash (m := { m with host := s }) rfl
  | hang => exact Matches.hang (m := { m with host := s }) rfl

theorem Refines.onHost_bind {proc : Process S ω} {lowNext : ω -> Process (Machine S β) α}
    {highNext : ω -> Process S γ}
    (h : forall value, Refines pre (lowNext value) (highNext value) post) :
    Refines pre (Machine.onHost proc >>= lowNext) (proc >>= highNext) post :=
  (refines_onHost proc).bindSame h

end

/-!
## Results that may be missing
-/

/-- Both levels have a result, or neither has one. -/
def Both (some_ : α -> γ -> Owned β -> Prop) (none_ : Owned β -> Prop) :
    Option α -> Option γ -> Owned β -> Prop
  | some x, some y, got => some_ x y got
  | none, none, got => none_ got
  | _, _, _ => False

theorem Both.mono {weak strong : α -> γ -> Owned β -> Prop} {none_ weakNone : Owned β -> Prop}
    {x : Option α} {y : Option γ} {got : Owned β} (h : Both strong none_ x y got)
    (hsome : forall x y, strong x y got -> weak x y got) (hnone : none_ got -> weakNone got) :
    Both weak weakNone x y got := by
  cases x with
  | none =>
      cases y with
      | none => exact hnone h
      | some y => cases h
  | some x =>
      cases y with
      | none => cases h
      | some y => exact hsome x y h

theorem Refines.bindBoth {pre : Owned β} {low : Process (Machine S β) (Option α)}
    {high : Process S (Option γ)} {some_ : α -> γ -> Owned β -> Prop}
    {none_ : Owned β -> Prop} {lowNext : Option α -> Process (Machine S β) δ}
    {highNext : Option γ -> Process S ε} {post : δ -> ε -> Owned β -> Prop}
    (h : Refines pre low high (Both some_ none_))
    (hsome : forall x y got, some_ x y got ->
      Refines got (lowNext (some x)) (highNext (some y)) post)
    (hnone : forall got, none_ got -> Refines got (lowNext none) (highNext none) post) :
    Refines pre (low >>= lowNext) (high >>= highNext) post := by
  refine h.bind fun x y got hboth => ?_
  cases x with
  | none =>
      cases y with
      | none => exact hnone got hboth
      | some y => cases hboth
  | some x =>
      cases y with
      | none => cases hboth
      | some y => exact hsome x y got hboth

/-- A step whose result the process on values has at hand. -/
theorem Refines.bindBoth_value {pre : Owned β} {low : Process (Machine S β) (Option α)}
    {value : Option γ} {some_ : α -> γ -> Owned β -> Prop} {none_ : Owned β -> Prop}
    {lowNext : Option α -> Process (Machine S β) δ} {high : Process S ε}
    {post : δ -> ε -> Owned β -> Prop}
    (h : Refines pre low (pure value) (Both some_ none_))
    (hsome : forall x y got, value = some y -> some_ x y got ->
      Refines got (lowNext (some x)) high post)
    (hnone : forall got, value = none -> none_ got ->
      Refines got (lowNext none) high post) :
    Refines pre (low >>= lowNext) high post := by
  refine h.bind_value fun x got hboth => ?_
  cases x with
  | none =>
      cases hvalue : value with
      | none =>
          rw [hvalue] at hboth
          exact hnone got hvalue hboth
      | some y =>
          rw [hvalue] at hboth
          cases hboth
  | some x =>
      cases hvalue : value with
      | none =>
          rw [hvalue] at hboth
          cases hboth
      | some y =>
          rw [hvalue] at hboth
          exact hsome x y got hvalue hboth

/-- One optional step after the other, on both levels. -/
theorem Refines.thenSome {pre : Owned β} {low : Process (Machine S β) (Option α)}
    {high : Process S (Option γ)} {some_ : α -> γ -> Owned β -> Prop}
    {none_ : Owned β -> Prop} {lowNext : α -> Process (Machine S β) (Option δ)}
    {highNext : γ -> Process S (Option ε)} {result : δ -> ε -> Owned β -> Prop}
    {missing : Owned β -> Prop} (h : Refines pre low high (Both some_ none_))
    (hsome : forall x y got, some_ x y got ->
      Refines got (lowNext x) (highNext y) (Both result missing))
    (hnone : forall got, none_ got -> missing got) :
    Refines pre (low.thenSome lowNext) (high.thenSome highNext) (Both result missing) :=
  h.bindBoth hsome fun got hgot => refines_pure (hnone got hgot)

end

end Foundation
end UtokenDecrypt
