import Mathlib.Algebra.Group.Action.Defs
import Mathlib.Algebra.Order.BigOperators.Group.List
import UtokenDecrypt.Usb.Walk

/-!
# Termination of the descriptor walk

The walk advances by a byte taken from its input, and nothing checks that the
byte is positive.  A round that records a configuration, an interface or an
endpoint uses up one of the slots there are, so only rounds that record nothing
can go on for ever.  What such a round does depends on the position and on the
current interface's type alone, and it changes neither the interface nor its
type; so the walk ends exactly when it never comes back to a position without
having recorded something in between.
-/

namespace UtokenDecrypt
namespace Usb

open Foundation

/-!
## Slots in use
-/

def UusbInterface.recorded (interface : UusbInterface) : Nat :=
  1 + interface.numEndpoints

def UusbConfig.recorded (config : UusbConfig) : Nat :=
  1 + (config.interface.map UusbInterface.recorded).sum

/-- The number of configurations, interfaces and endpoints recorded. -/
def UusbDev.recorded (dev : UusbDev) : Nat :=
  (dev.config.map UusbConfig.recorded).sum

/-- The number of slots there are. -/
def allSlots : Nat :=
  uusbMaxConfigs * (1 + uusbMaxInterfaces * (1 + uusbMaxEndpoints))

theorem sum_map_le {α : Type} {xs : List α} {f : α -> Nat} {bound number : Nat}
    (hlength : xs.length ≤ number) (h : forall x, x ∈ xs -> f x ≤ bound) :
    (xs.map f).sum ≤ number * bound := by
  have hsum := List.sum_le_card_nsmul (xs.map f) bound (by simpa using h)
  rw [List.length_map, smul_eq_mul] at hsum
  exact Nat.le_trans hsum (Nat.mul_le_mul_right bound hlength)

theorem sum_map_modify {α : Type} {xs : List α} {i : Nat} (h : i < xs.length)
    (f : α -> α) (g : α -> Nat) :
    ((xs.modify i f).map g).sum + g xs[i] = (xs.map g).sum + g (f xs[i]) := by
  have hsplit : xs = xs.take i ++ xs[i] :: xs.drop (i + 1) := by
    rw [List.cons_getElem_drop_succ, List.take_append_drop]
  have hsum : (xs.map g).sum =
      ((xs.take i).map g).sum + (g xs[i] + ((xs.drop (i + 1)).map g).sum) := by
    conv => lhs; rw [hsplit]
    simp only [List.map_append, List.map_cons, List.sum_append, List.sum_cons]
  rw [List.modify_eq_take_cons_drop h, hsum]
  simp only [List.map_append, List.map_cons, List.sum_append, List.sum_cons]
  lia

section

variable {dev : UusbDev}

theorem recorded_le (h : dev.Within arraySizes) : dev.recorded ≤ allSlots := by
  apply sum_map_le h.number
  intro config hconfig
  have hwithin := h.configs config hconfig
  have hinterfaces : forall interface, interface ∈ config.interface ->
      interface.recorded ≤ 1 + uusbMaxEndpoints := by
    intro interface hinterface
    exact Nat.add_le_add_left (hwithin.interfaces interface hinterface) 1
  exact Nat.add_le_add_left (sum_map_le hwithin.number hinterfaces) 1

theorem recorded_modifyConfig {ci : Nat} (h : ci < dev.numConfigs)
    (f : UusbConfig -> UusbConfig) :
    (dev.modifyConfig ci f).recorded + (dev.getConfig ci).recorded =
      dev.recorded + (f (dev.getConfig ci)).recorded := by
  rw [getConfig_eq h]
  exact sum_map_modify h f UusbConfig.recorded

theorem recorded_modifyInterface {at_ : Nat × Nat} (hci : at_.1 < dev.numConfigs)
    (hii : at_.2 < (dev.getConfig at_.1).numInterfaces)
    (f : UusbInterface -> UusbInterface) :
    (dev.modifyInterface at_ f).recorded + (dev.getInterface at_).recorded =
      dev.recorded + (f (dev.getInterface at_)).recorded := by
  have hconfig := recorded_modifyConfig hci fun config =>
    { config with interface := config.interface.modify at_.2 f }
  have hinterface := sum_map_modify hii f UusbInterface.recorded
  rw [← getInterface_eq hii] at hinterface
  unfold UusbDev.modifyInterface
  simp only [UusbConfig.recorded] at hconfig
  lia

theorem recorded_addConfig (cd : UusbConfigDescriptor) :
    ({ dev with config := dev.config ++ [{ descriptor := cd }] } :
      UusbDev).recorded = dev.recorded + 1 := by
  simp [UusbDev.recorded, UusbConfig.recorded]

theorem recorded_addInterface {ci : Nat} (h : ci < dev.numConfigs)
    {interface : UusbInterface} (hnew : interface.endpoint = []) :
    (dev.modifyConfig ci fun config =>
      { config with interface := config.interface ++ [interface] }).recorded =
      dev.recorded + 1 := by
  have hconfig := recorded_modifyConfig h fun config =>
    { config with interface := config.interface ++ [interface] }
  simp only [UusbConfig.recorded, List.map_append, List.sum_append, List.map_cons,
    List.map_nil, List.sum_cons, List.sum_nil, UusbInterface.recorded,
    UusbInterface.numEndpoints, hnew, List.length_nil] at hconfig
  lia

theorem recorded_addEndpoint {at_ : Nat × Nat} (hci : at_.1 < dev.numConfigs)
    (hii : at_.2 < (dev.getConfig at_.1).numInterfaces) (endpoint : UusbEndpoint) :
    (dev.modifyInterface at_ fun interface =>
      { interface with endpoint := interface.endpoint ++ [endpoint] }).recorded =
      dev.recorded + 1 := by
  have hinterface := recorded_modifyInterface hci hii fun interface =>
    { interface with endpoint := interface.endpoint ++ [endpoint] }
  simp only [UusbInterface.recorded, UusbInterface.numEndpoints, List.length_append,
    List.length_cons, List.length_nil] at hinterface
  lia

theorem recorded_afterOther {st : UusbParse} {at_ : Nat × Nat}
    {interface : UusbInterface} {seen : List Access} (hcursors : CursorsValid st)
    (hat : st.interface = some at_)
    (hendpoint : interface.endpoint = (st.dev.getInterface at_).endpoint) :
    (afterOther st at_ interface seen).dev.recorded = st.dev.recorded := by
  have hvalid := hcursors.interface at_ hat
  have hinterface := recorded_modifyInterface hvalid.1 hvalid.2 fun _ => interface
  simp only [UusbInterface.recorded, UusbInterface.numEndpoints, hendpoint]
    at hinterface
  show (st.dev.modifyInterface at_ fun _ => interface).recorded = _
  lia

end

/-!
## Rounds that record nothing
-/

/-- What decides how a round goes that records nothing: the position, and the
handler of the current interface, if there is one. -/
def UusbParse.handler (st : UusbParse) : Option (Option HandleDescriptor) :=
  st.interface.map fun at_ => (st.dev.getInterface at_).handler

/-- The descriptor at the current position is accepted and nothing recorded. -/
def QuietAt (mem : Nat -> UInt8) (st : UusbParse) : Prop :=
  (st.pos = 0 ∧ dtTypeAt mem st = usbDtDevice ∧
    DtFits mem st uusbParseDeviceDescriptor ∧
    (deviceOf mem).bNumConfigurations ≠ 0 ∧
    (deviceOf mem).bNumConfigurations.toNat ≤ uusbMaxConfigs) ∨
  (st.pos ≠ 0 ∧ IsOther (dtTypeAt mem st) ∧
    (st.handler = some (some .uusbHandleCcidDescriptor) ->
      DtFits mem st ccidParseUsbDescriptor))

section

variable {mem : Nat -> UInt8} {len : Nat} {st : UusbParse}

theorem handler_some {at_ : Nat × Nat} (hat : st.interface = some at_) :
    st.handler = some (st.dev.getInterface at_).handler := by
  rw [UusbParse.handler, hat, Option.map_some]

theorem handler_afterOther {at_ : Nat × Nat} {interface : UusbInterface}
    {seen : List Access} (hcursors : CursorsValid st) (hat : st.interface = some at_)
    (htype : interface.type = (st.dev.getInterface at_).type) :
    (afterOther st at_ interface seen).handler = st.handler := by
  have hvalid := hcursors.interface at_ hat
  have hget : (afterOther st at_ interface seen).dev.getInterface at_ = interface :=
    getInterface_modifyInterface hvalid.1 hvalid.2 fun _ => interface
  rw [handler_some hat, handler_some (show (afterOther st at_ interface seen).interface
    = some at_ from rfl), hget, UusbInterface.handler, UusbInterface.handler, htype]

/-- A round that goes on either records one thing more, or is quiet and keeps
the current interface's handler. -/
theorem Handling.recorded {after : UusbParse} (h : Handling mem st (.next after))
    (hcursors : CursorsValid st) :
    after.dev.recorded = st.dev.recorded + 1 ∨
      (after.dev.recorded = st.dev.recorded ∧ QuietAt mem st ∧
        after.handler = st.handler) := by
  cases h with
  | device hpos htype hfits hnonzero hcount =>
      rw [afterDevice_descriptor hpos hfits] at hnonzero hcount
      exact Or.inr ⟨rfl, Or.inl ⟨hpos, htype, hfits, hnonzero, hcount⟩, rfl⟩
  | config => exact Or.inl (recorded_addConfig _)
  | interface _ _ hci =>
      exact Or.inl (recorded_addInterface (hcursors.config _ hci) rfl)
  | endpoint _ _ hat =>
      have hvalid := hcursors.interface _ hat
      exact Or.inl (recorded_addEndpoint hvalid.1 hvalid.2 _)
  | unclaimed hpos htype hnone =>
      have hhandler : st.handler = none := by
        rw [UusbParse.handler, hnone, Option.map_none]
      refine Or.inr ⟨rfl, Or.inr ⟨hpos, htype, fun hsome => ?_⟩, rfl⟩
      rw [hhandler] at hsome
      cases hsome
  | ignored hpos htype hat hnone =>
      refine Or.inr ⟨recorded_afterOther hcursors hat rfl,
        Or.inr ⟨hpos, htype, fun hsome => ?_⟩, handler_afterOther hcursors hat rfl⟩
      rw [handler_some hat, hnone] at hsome
      cases hsome
  | ccid hpos htype hat _ hfits =>
      exact Or.inr ⟨recorded_afterOther hcursors hat rfl,
        Or.inr ⟨hpos, htype, fun _ => hfits⟩, handler_afterOther hcursors hat rfl⟩

/-- A quiet round goes on, as quietly as it has to. -/
theorem QuietAt.goes_on (h : QuietAt mem st) (hcursors : CursorsValid st) :
    exists after, uusbParseCase mem st = .next after ∧
      after.dev.recorded = st.dev.recorded ∧ after.handler = st.handler := by
  rcases h with ⟨hpos, htype, hfits, hnonzero, hcount⟩ | ⟨hpos, htype, hccid⟩
  · rw [← afterDevice_descriptor hpos hfits] at hnonzero hcount
    exact ⟨_, uusbParseCase_deviceNext hpos htype hfits hnonzero hcount, rfl, rfl⟩
  · cases hinterface : st.interface with
    | none => exact ⟨_, uusbParseCase_unclaimed hpos htype hinterface, rfl, rfl⟩
    | some at_ =>
        cases hhandler : (st.dev.getInterface at_).handler with
        | none =>
            exact ⟨_, uusbParseCase_ignored hpos htype hinterface hhandler,
              recorded_afterOther hcursors hinterface rfl,
              handler_afterOther hcursors hinterface rfl⟩
        | some handler =>
            have hcases := uusbParseCase_handled hpos htype hinterface hhandler
            rw [handler_some hinterface, hhandler] at hccid
            exact ⟨_, hcases.1 (hccid rfl),
              recorded_afterOther hcursors hinterface rfl,
              handler_afterOther hcursors hinterface rfl⟩

/-!
## Coming back to a position
-/

/-- Two states a quiet round cannot tell apart. -/
def SameControl (s t : UusbParse) : Prop :=
  s.pos = t.pos ∧ s.handler = t.handler

/-- Rounds of the walk that record nothing. -/
def QuietWalk (mem : Nat -> UInt8) (len : Nat) : UusbParse -> UusbParse -> Prop :=
  Loop.QuietPath (uusbParseStep mem len) fun st => st.dev.recorded

/-- The walk comes back to a position without having recorded anything since. -/
def ComesBack (mem : Nat -> UInt8) (len : Nat) (st : UusbParse) : Prop :=
  exists again, QuietWalk mem len st again ∧ again.pos = st.pos

theorem SameControl.quietAt {s t : UusbParse} (h : SameControl s t)
    (ht : QuietAt mem t) : QuietAt mem s := by
  unfold QuietAt dtTypeAt DtFits dtLenAt at *
  rw [h.1, h.2]
  exact ht

theorem SameControl.handles {s t : UusbParse} (h : SameControl s t)
    (ht : Handles mem len t) : Handles mem len s := by
  unfold Handles uusbParseGuard dtTooLong dtLenAt at *
  rw [h.1]
  exact ht

theorem quiet_again {next : UusbParse} (hinv : WalkInv mem st)
    (hstep : uusbParseStep mem len st = .again next)
    (hquiet : next.dev.recorded = st.dev.recorded) :
    Handles mem len st ∧ QuietAt mem st ∧ next.handler = st.handler := by
  rcases uusbParseStep_again hstep with ⟨hhandles, after, hcase, hnext⟩
  have hhandling := uusbParseCase_handling mem st
  rw [hcase] at hhandling
  have hafter : next.dev.recorded = after.dev.recorded := by rw [hnext]; rfl
  rcases hhandling.recorded hinv.cursors with hmore | ⟨_, hat, hhandler⟩
  · lia
  · refine ⟨hhandles, hat, ?_⟩
    rw [hnext]
    exact hhandler

/-- A quiet round, from the state it starts in. -/
theorem QuietAt.step (h : QuietAt mem st) (hhandles : Handles mem len st)
    (hcursors : CursorsValid st) :
    exists next, uusbParseStep mem len st = .again next ∧
      next.dev.recorded = st.dev.recorded ∧ next.handler = st.handler := by
  rcases h.goes_on hcursors with ⟨after, hcase, hrecorded, hhandler⟩
  have hstep := uusbParseStep_of_handles hhandles
  rw [hcase] at hstep
  exact ⟨advancePos mem st after, hstep, hrecorded, hhandler⟩

/-- A state that looks like one with a quiet round has a quiet round to a state
that looks like the next one. -/
theorem SameControl.step {s t next : UusbParse} (h : SameControl s t)
    (hs : WalkInv mem s) (ht : WalkInv mem t)
    (hstep : uusbParseStep mem len t = .again next)
    (hquiet : next.dev.recorded = t.dev.recorded) :
    exists other, uusbParseStep mem len s = .again other ∧ SameControl other next := by
  rcases quiet_again ht hstep hquiet with ⟨hhandles, hat, hhandler⟩
  rcases (h.quietAt hat).step (h.handles hhandles) hs.cursors with
    ⟨other, hother, _, hsame⟩
  refine ⟨other, hother, ?_, ?_⟩
  · rw [again_pos hother, again_pos hstep, dtLenAt, dtLenAt, h.1]
  · rw [hsame, hhandler, h.2]

theorem walkInv_quietWalk {s t : UusbParse} (hs : WalkInv mem s)
    (h : QuietWalk mem len s t) : WalkInv mem t :=
  h.reaches.invariant hs fun hinv hstep => walkInv_again hinv hstep

theorem handler_quietWalk {s t : UusbParse} (hs : WalkInv mem s)
    (h : QuietWalk mem len s t) : t.handler = s.handler := by
  induction h with
  | one hstep hquiet => exact (quiet_again hs hstep hquiet).2.2
  | tail hpath hstep hquiet ih =>
      exact ((quiet_again (walkInv_quietWalk hs hpath) hstep hquiet).2.2).trans ih

/-- A walk that comes back to a position goes on for ever. -/
theorem ComesBack.not_terminates (hinv : WalkInv mem st)
    (h : ComesBack mem len st) :
    ¬ Loop.Terminates (uusbParseStep mem len) st := by
  rcases h with ⟨again, hlap, hback⟩
  have hlast : SameControl again st := ⟨hback, handler_quietWalk hinv hlap⟩
  -- a state is on the lap when it looks like one the lap goes through
  have hkeep : forall s, (WalkInv mem s ∧ exists t, WalkInv mem t ∧
      SameControl s t ∧ QuietWalk mem len t again) ->
      exists next, uusbParseStep mem len s = .again next ∧ WalkInv mem next ∧
        exists t, WalkInv mem t ∧ SameControl next t ∧ QuietWalk mem len t again := by
    intro s hs
    rcases hs with ⟨hs, t, ht, hcontrol, hrest⟩
    rcases Loop.QuietPath.head hrest with ⟨u, hstep, hquiet, hend⟩
    rcases hcontrol.step hs ht hstep hquiet with ⟨next, hnext, hsame⟩
    refine ⟨next, hnext, walkInv_again hs hnext, ?_⟩
    rcases hend with heq | hpath
    · subst heq
      exact ⟨st, hinv, ⟨hsame.1.trans hlast.1, hsame.2.trans hlast.2⟩, hlap⟩
    · exact ⟨u, walkInv_again ht hstep, hsame, hpath⟩
  exact Loop.not_terminates_of_closed hkeep
    ⟨hinv, st, hinv, ⟨rfl, rfl⟩, hlap⟩

/-- A walk that never comes back to a position ends. -/
theorem terminates_of_not_comesBack
    (h : forall st, UusbParseReaches mem len st -> ¬ ComesBack mem len st) :
    Loop.Terminates (uusbParseStep mem len) {} := by
  apply Loop.terminates_of_no_lap (fun st => st.dev.recorded) UusbParse.pos
    allSlots (2 ^ 32)
  · intro t ht
    exact recorded_le (walkInv_reaches ht).arrays
  · intro t u ht hstep
    rcases uusbParseStep_again hstep with ⟨_, after, hcase, hnext⟩
    have hhandling := uusbParseCase_handling mem t
    rw [hcase] at hhandling
    have hafter : u.dev.recorded = after.dev.recorded := by rw [hnext]; rfl
    rcases hhandling.recorded (walkInv_reaches ht).cursors with hmore | ⟨hsame, _⟩
    · lia
    · lia
  · intro t ht
    cases ht with
    | refl => decide
    | tail _ hstep =>
        rw [again_pos hstep]
        exact wrap32_lt _
  · intro t u ht hpath hpos
    exact h t ht ⟨u, hpath, hpos⟩

/-!
## Returning

A walk that ends has returned, unless it ended by taking a slot outside its
array.
-/

/-- The walk returns true or false. -/
def Returns (mem : Nat -> UInt8) (len : Nat) : Prop :=
  exists fuel value st,
    uusbParseDescriptors mem len fuel = some (.returned value st)

theorem returns_iff_ends :
    Returns mem len ↔
      Loop.Terminates (uusbParseStep mem len) {} ∧
        forall st, UusbParseReaches mem len st -> Handles mem len st ->
          ¬ SlotOutside mem st := by
  constructor
  · intro h
    rcases h with ⟨fuel, value, last, hrun⟩
    exact ⟨⟨fuel, _, hrun⟩, (slotsInside_iff hrun).mpr fun _ hbad => by cases hbad⟩
  · intro h
    rcases h with ⟨⟨fuel, value, hrun⟩, hinside⟩
    cases value with
    | returned value last => exact ⟨fuel, value, last, hrun⟩
    | outOfArray last => exact ((slotsInside_iff hrun).mp hinside last rfl).elim

theorem returns_iff_not_comesBack :
    Returns mem len ↔
      (forall st, UusbParseReaches mem len st -> ¬ ComesBack mem len st) ∧
        forall st, UusbParseReaches mem len st -> Handles mem len st ->
          ¬ SlotOutside mem st := by
  rw [returns_iff_ends]
  constructor
  · intro h
    refine ⟨?_, h.2⟩
    intro st hst hback
    exact hback.not_terminates (walkInv_reaches hst)
      (Loop.terminates_reaches hst h.1)
  · intro h
    exact ⟨terminates_of_not_comesBack h.1, h.2⟩

/-!
## Data that cannot make the position wrap

Below the lengths that can, coming back to a position takes a descriptor whose
length byte is zero.
-/

theorem pos_lt_quietWalk {t : UusbParse} (hlen : len + 255 ≤ 2 ^ 32)
    (hpositive : forall st, UusbParseReaches mem len st -> Handles mem len st ->
      QuietAt mem st -> dtLenAt mem st ≠ 0)
    (hst : UusbParseReaches mem len st) (hpath : QuietWalk mem len st t) :
    st.pos < t.pos := by
  have hround : forall s u, UusbParseReaches mem len s ->
      uusbParseStep mem len s = .again u -> u.dev.recorded = s.dev.recorded ->
        s.pos < u.pos := by
    intro s u hs hstep hquiet
    rcases quiet_again (walkInv_reaches hs) hstep hquiet with ⟨hhandles, hat, _⟩
    have hzero := hpositive s hs hhandles hat
    rw [next_pos hlen hs hstep]
    lia
  induction hpath with
  | one hstep hquiet => exact hround _ _ hst hstep hquiet
  | tail hpath hstep hquiet ih =>
      exact Nat.lt_trans ih
        (hround _ _ (hst.trans (Loop.QuietPath.reaches hpath)) hstep hquiet)

theorem not_comesBack_iff (hlen : len + 255 ≤ 2 ^ 32) :
    (forall st, UusbParseReaches mem len st -> ¬ ComesBack mem len st) ↔
      forall st, UusbParseReaches mem len st -> Handles mem len st ->
        QuietAt mem st -> dtLenAt mem st ≠ 0 := by
  constructor
  · intro h st hst hhandles hquiet hzero
    rcases hquiet.step hhandles (walkInv_reaches hst).cursors with
      ⟨next, hstep, hrecorded, _⟩
    refine h st hst ⟨next, Loop.QuietPath.one hstep hrecorded, ?_⟩
    rw [next_pos hlen hst hstep, hzero, Nat.add_zero]
  · intro hpositive st hst hback
    rcases hback with ⟨u, hpath, hpos⟩
    have hlt := pos_lt_quietWalk hlen hpositive hst hpath
    lia

/-- The walk returns exactly when it never comes back to a position and never
takes a slot outside its array; on all but the longest inputs coming back means
to accept a descriptor of length zero without recording it. -/
theorem returns_iff :
    (Returns mem len ↔
      (forall st, UusbParseReaches mem len st -> ¬ ComesBack mem len st) ∧
        forall st, UusbParseReaches mem len st -> Handles mem len st ->
          ¬ SlotOutside mem st) ∧
    (len + 255 ≤ 2 ^ 32 ->
      ((forall st, UusbParseReaches mem len st -> ¬ ComesBack mem len st) ↔
        forall st, UusbParseReaches mem len st -> Handles mem len st ->
          QuietAt mem st -> dtLenAt mem st ≠ 0)) :=
  ⟨returns_iff_not_comesBack, not_comesBack_iff⟩

end

/-- A device descriptor with a length byte of zero. -/
def zeroLength : List UInt8 :=
  [0, 1, 0, 2, 0, 0, 0, 64, 0x50, 0x10, 7, 4, 0, 1, 0, 0, 0, 1]

theorem not_returns_zeroLength :
    ¬ Returns (memoryOf zeroLength fun _ => 0) zeroLength.length := by
  intro h
  have hterminates := (returns_iff_ends.mp h).1
  generalize hmem : memoryOf zeroLength (fun _ => 0) = mem at hterminates
  have hhandles : Handles mem zeroLength.length {} := by
    rw [← hmem]
    exact ⟨by decide, by decide⟩
  have hquiet : QuietAt mem {} := by
    rw [← hmem]
    exact Or.inl ⟨rfl, by decide, by unfold DtFits; decide, by decide, by decide⟩
  have hinv := walkInv_initial mem
  rcases hquiet.step hhandles hinv.cursors with ⟨next, hstep, hrecorded, _⟩
  have hback : ComesBack mem zeroLength.length {} := by
    refine ⟨next, Loop.QuietPath.one hstep hrecorded, ?_⟩
    rw [again_pos hstep, ← hmem]
    rfl
  exact hback.not_terminates hinv hterminates

end Usb
end UtokenDecrypt
