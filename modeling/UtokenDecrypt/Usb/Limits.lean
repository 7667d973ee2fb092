import UtokenDecrypt.Usb.Walk

/-!
# Staying within the declared numbers

Every counter of the tree is to be bounded by the number the device declares
and by the size of the array.  The walk checks a counter against the declared
number only, and with a `>` in front of the increment where it takes a `>=`, so
one configuration, interface or endpoint in excess is let through.  The result
here says which states that happens in.
-/

namespace UtokenDecrypt
namespace Usb

open Foundation

def declaredLimits : TreeBounds where
  configs dd := min dd.bNumConfigurations.toNat uusbMaxConfigs
  interfaces cd := min cd.bNumInterfaces.toNat uusbMaxInterfaces
  endpoints id := min id.bNumEndpoints.toNat uusbMaxEndpoints

/-- Every state of the walk is within the limits, and the walk never takes a
slot outside an array. -/
structure LimitsKept (mem : Nat -> UInt8) (len : Nat) : Prop where
  states : forall st, UusbParseReaches mem len st -> st.dev.Within declaredLimits
  ends : forall st value, UusbParseReaches mem len st ->
    uusbParseStep mem len st = .finish value ->
      exists answer after, value = .returned answer after ∧
        after.dev.Within declaredLimits

/-- The tree has room for the descriptor a round is about to record. -/
structure RoomForSlot (mem : Nat -> UInt8) (st : UusbParse) : Prop where
  config : dtTypeAt mem st = usbDtConfig ->
    st.dev.numConfigs < declaredLimits.configs st.dev.descriptor
  interface : dtTypeAt mem st = usbDtInterface ->
    forall ci, st.config = some ci ->
      (st.dev.getConfig ci).numInterfaces <
        declaredLimits.interfaces (st.dev.getConfig ci).descriptor
  endpoint : dtTypeAt mem st = usbDtEndpoint ->
    forall at_, st.interface = some at_ ->
      (st.dev.getInterface at_).numEndpoints <
        declaredLimits.endpoints (st.dev.getInterface at_).descriptor

section

variable {mem : Nat -> UInt8} {len : Nat} {st : UusbParse}

theorem RoomForSlot.roomFor (h : RoomForSlot mem st) :
    RoomFor mem declaredLimits st where
  config htype _ := h.config htype
  interface htype ci hci _ := h.interface htype ci hci
  endpoint htype at_ hat _ := h.endpoint htype at_ hat

/-!
## Room is enough
-/

/-- With room for its descriptor a round stays inside the arrays. -/
theorem Handling.not_outOfArray {outside : UusbParse}
    (h : Handling mem st (.outOfArray outside))
    (hroom : st.pos ≠ 0 -> RoomForSlot mem st) : False := by
  cases h with
  | configOutside hpos htype _ hfull =>
      have hfree := (hroom hpos).config htype
      exact Nat.not_lt.mpr hfull (Nat.lt_of_lt_of_le hfree (Nat.min_le_right _ _))
  | interfaceOutside hpos htype hci _ hfull =>
      have hfree := (hroom hpos).interface htype _ hci
      exact Nat.not_lt.mpr hfull (Nat.lt_of_lt_of_le hfree (Nat.min_le_right _ _))
  | endpointOutside hpos htype hat _ hfull =>
      have hfree := (hroom hpos).endpoint htype _ hat
      exact Nat.not_lt.mpr hfull (Nat.lt_of_lt_of_le hfree (Nat.min_le_right _ _))

theorem limitsKept_of_room
    (hroom : forall st, UusbParseReaches mem len st -> Handles mem len st ->
      st.pos ≠ 0 -> RoomForSlot mem st) : LimitsKept mem len := by
  have hstates : forall st, UusbParseReaches mem len st ->
      st.dev.Within declaredLimits := by
    intro st hreach
    induction hreach with
    | refl => exact ⟨Nat.zero_le _, by simp⟩
    | tail hst hstep ih =>
        rcases uusbParseStep_again hstep with ⟨hhandles, after, hcase, hnext⟩
        have hwithin := (uusbParseCase_handling mem _).within
          (walkInv_reaches hst) ih fun hpos =>
            (hroom _ hst hhandles hpos).roomFor
        rw [hcase] at hwithin
        rw [hnext]
        exact hwithin
  refine ⟨hstates, ?_⟩
  intro st value hst hstep
  rcases uusbParseStep_finish hstep with hend | ⟨_, _, htooLong⟩ |
    ⟨hhandles, after, hcase⟩
  · exact ⟨true, st, hend, hstates st hst⟩
  · exact ⟨false, seenHeader st, htooLong, hstates st hst⟩
  · have hroomSt := hroom st hst hhandles
    have hhandling := uusbParseCase_handling mem st
    rcases hcase with ⟨hbad, hvalue⟩ | ⟨houtside, _⟩
    · have hwithin := hhandling.within (walkInv_reaches hst) (hstates st hst)
        fun hpos => (hroomSt hpos).roomFor
      rw [hbad] at hwithin
      exact ⟨false, after, hvalue, hwithin⟩
    · rw [houtside] at hhandling
      exact (hhandling.not_outOfArray hroomSt).elim

/-!
## Room is needed

A round that records a descriptor leaves a state with one slot more, which is
either reached or returned.
-/

/-- The handling stays inside the arrays and leaves a tree within the limits. -/
structure DtCase.Kept (outcome : DtCase) : Prop where
  within : outcome.state.dev.Within declaredLimits
  inside : forall outside, outcome ≠ .outOfArray outside

theorem LimitsKept.kept (h : LimitsKept mem len)
    (hst : UusbParseReaches mem len st) (hhandles : Handles mem len st) :
    (uusbParseCase mem st).Kept := by
  have hstep := uusbParseStep_of_handles hhandles
  cases hcase : uusbParseCase mem st with
  | next after =>
      rw [hcase] at hstep
      have hnext : UusbParseReaches mem len (advancePos mem st after) :=
        hst.tail hstep
      have hwithin := h.states _ hnext
      exact ⟨hwithin, fun _ hno => by cases hno⟩
  | bad after =>
      rw [hcase] at hstep
      rcases h.ends st _ hst hstep with ⟨answer, kept, heq, hwithin⟩
      injection heq with _ hkept
      rw [← hkept] at hwithin
      exact ⟨hwithin, fun _ hno => by cases hno⟩
  | outOfArray after =>
      rw [hcase] at hstep
      rcases h.ends st _ hst hstep with ⟨_, _, heq, _⟩
      cases heq

theorem room_config (hwithin : st.dev.Within declaredLimits)
    (hkept : (uusbConfigCase mem (dtParserAt mem st) (dtHead mem st)).Kept) :
    st.dev.numConfigs < declaredLimits.configs st.dev.descriptor := by
  have hlimit := hwithin.number
  rw [uusbConfigCase_eq (dtParserAt_okay mem st)] at hkept
  simp only at hkept
  split_ifs at hkept with hmany houtside hfits
  · exact absurd hmany (Nat.not_lt.mpr (Nat.le_trans hlimit (Nat.min_le_left _ _)))
  · exact absurd rfl (hkept.inside _)
  all_goals
    have hnumber := hkept.within.number
    apply Nat.lt_of_succ_le
    simpa [DtCase.state, UusbParse.addConfig, dtHead, UusbDev.numConfigs] using hnumber

theorem room_interface (hinv : WalkInv mem st)
    (hwithin : st.dev.Within declaredLimits) {ci : Nat}
    (hci : st.config = some ci)
    (hkept : (uusbInterfaceCase mem (dtParserAt mem st) (dtHead mem st)).Kept) :
    (st.dev.getConfig ci).numInterfaces <
      declaredLimits.interfaces (st.dev.getConfig ci).descriptor := by
  have hvalid := hinv.cursors.config ci hci
  have hlimit := (hwithin.configs _ (getConfig_mem hvalid)).number
  -- the configuration with one interface more is in the tree left behind
  have hmore : forall f : UusbConfig -> UusbConfig,
      (st.dev.modifyConfig ci f).Within declaredLimits ->
        (f (st.dev.getConfig ci)).Within declaredLimits := by
    intro f hafter
    rw [← getConfig_modifyConfig hvalid f]
    apply hafter.configs
    apply getConfig_mem
    rw [modifyConfig_numConfigs]
    exact hvalid
  rw [uusbInterfaceCase_some (dtParserAt_okay mem st)
    (show (dtHead mem st).config = some ci from hci)] at hkept
  simp only at hkept
  split_ifs at hkept with hmany houtside hfits
  · exact absurd hmany (Nat.not_lt.mpr (Nat.le_trans hlimit (Nat.min_le_left _ _)))
  · exact absurd rfl (hkept.inside _)
  all_goals
    have hnumber := (hmore _ hkept.within).number
    apply Nat.lt_of_succ_le
    simpa [UusbConfig.numInterfaces] using hnumber

theorem room_endpoint (hinv : WalkInv mem st)
    (hwithin : st.dev.Within declaredLimits) {at_ : Nat × Nat}
    (hat : st.interface = some at_)
    (hkept : (uusbEndpointCase mem (dtParserAt mem st) (dtHead mem st)).Kept) :
    (st.dev.getInterface at_).numEndpoints <
      declaredLimits.endpoints (st.dev.getInterface at_).descriptor := by
  have hvalid := hinv.cursors.interface at_ hat
  have hlimit : (st.dev.getInterface at_).Within declaredLimits :=
    (hwithin.configs _ (getConfig_mem hvalid.1)).interfaces _
      (getInterface_mem hvalid.2)
  have hmore : forall f : UusbInterface -> UusbInterface,
      (st.dev.modifyInterface at_ f).Within declaredLimits ->
        (f (st.dev.getInterface at_)).Within declaredLimits := by
    intro f hafter
    rw [← getInterface_modifyInterface hvalid.1 hvalid.2 f]
    have hci : at_.1 < (st.dev.modifyInterface at_ f).numConfigs :=
      Nat.lt_of_lt_of_eq hvalid.1 (modifyConfig_numConfigs _ _).symm
    apply (hafter.configs _ (getConfig_mem hci)).interfaces
    apply getInterface_mem
    rw [modifyInterface_numInterfaces hvalid.1]
    exact hvalid.2
  rw [uusbEndpointCase_some (dtParserAt_okay mem st)
    (show (dtHead mem st).interface = some at_ from hat)] at hkept
  simp only at hkept
  split_ifs at hkept with hmany houtside hfits
  · exact absurd hmany (Nat.not_lt.mpr (Nat.le_trans hlimit (Nat.min_le_left _ _)))
  · exact absurd rfl (hkept.inside _)
  all_goals
    have hnumber := hmore _ hkept.within
    apply Nat.lt_of_succ_le
    simpa [UusbInterface.Within, UusbInterface.numEndpoints] using hnumber

theorem DtCase.Kept.room (hinv : WalkInv mem st)
    (hwithin : st.dev.Within declaredLimits) (hpos : st.pos ≠ 0)
    (hkept : (uusbParseCase mem st).Kept) : RoomForSlot mem st := by
  constructor
  · intro htype
    rw [uusbParseCase_config hpos htype] at hkept
    exact room_config hwithin hkept
  · intro htype ci hci
    rw [uusbParseCase_interface hpos htype] at hkept
    exact room_interface hinv hwithin hci hkept
  · intro htype at_ hat
    rw [uusbParseCase_endpoint hpos htype] at hkept
    exact room_endpoint hinv hwithin hat hkept

theorem limitsKept_iff :
    LimitsKept mem len ↔
      forall st, UusbParseReaches mem len st -> Handles mem len st ->
        st.pos ≠ 0 -> RoomForSlot mem st := by
  constructor
  · intro h st hst hhandles hpos
    exact (h.kept hst hhandles).room (walkInv_reaches hst) (h.states st hst) hpos
  · exact limitsKept_of_room

end

/-- A device that declares one configuration and sends two. -/
def secondConfig : List UInt8 :=
  [18, 1, 0, 2, 0, 0, 0, 64, 0x50, 0x10, 7, 4, 0, 1, 0, 0, 0, 1,
    9, 2, 9, 0, 0, 1, 0, 0x80, 50,
    9, 2, 9, 0, 0, 2, 0, 0x80, 50]

theorem not_limitsKept_secondConfig :
    ¬ LimitsKept (memoryOf secondConfig fun _ => 0) secondConfig.length := by
  intro h
  have hrun : (uusbParseDescriptors (memoryOf secondConfig fun _ => 0)
      secondConfig.length 4).any (fun value => value.result.2.numConfigs == 2 &&
        value.result.2.descriptor.bNumConfigurations == 1) = true := by decide +kernel
  cases hvalue : uusbParseDescriptors (memoryOf secondConfig fun _ => 0)
      secondConfig.length 4 with
  | none =>
      rw [hvalue] at hrun
      cases hrun
  | some value =>
      rw [hvalue] at hrun
      rcases Loop.run_last hvalue with ⟨st, hst, hlast⟩
      rcases h.ends st value hst hlast with ⟨answer, after, heq, hwithin⟩
      subst heq
      have hnumber := hwithin.number
      simp only [Option.any_some, Bool.and_eq_true, beq_iff_eq,
        UusbParseEnd.result] at hrun
      rw [hrun.1] at hnumber
      simp [declaredLimits, hrun.2] at hnumber

end Usb
end UtokenDecrypt
