import UtokenDecrypt.Usb.Progress
import UtokenDecrypt.Usb.Sequence

/-!
# The CCID record in a walk

A walk that starts with another CCID record in an interface takes and refuses the
same descriptors.  The trees differ in that record only, until a descriptor that
is taken for a CCID descriptor sets it.
-/

namespace UtokenDecrypt
namespace Usb

open Foundation

/-!
## The CCID record of an interface
-/

/-- The tree has an interface at the place. -/
structure UusbDev.Has (dev : UusbDev) (at_ : Nat × Nat) : Prop where
  config : at_.1 < dev.numConfigs
  interface : at_.2 < (dev.getConfig at_.1).numInterfaces

theorem modify_append_of_lt {α : Type} {xs : List α} {i : Nat} (h : i < xs.length)
    (ys : List α) (f : α -> α) : (xs ++ ys).modify i f = xs.modify i f ++ ys := by
  induction xs generalizing i with
  | nil => cases h
  | cons x xs ih =>
      cases i with
      | zero => simp
      | succ i => simp [ih (Nat.lt_of_succ_lt_succ h)]

section

variable {dev : UusbDev} {at_ other : Nat × Nat} {ccid : Option CcidDescriptor}

theorem getInterface_modifyConfig_ne {ci : Nat} (hne : other.1 ≠ ci)
    (f : UusbConfig -> UusbConfig) :
    (dev.modifyConfig ci f).getInterface other = dev.getInterface other := by
  rw [UusbDev.getInterface, getConfig_modifyConfig_ne hne.symm]
  rfl

theorem getInterface_modifyInterface_ne (h : dev.Has at_) (hne : other ≠ at_)
    (f : UusbInterface -> UusbInterface) :
    (dev.modifyInterface at_ f).getInterface other = dev.getInterface other := by
  by_cases hci : other.1 = at_.1
  · have hii : at_.2 ≠ other.2 := fun heq => hne (Prod.ext hci heq.symm)
    rw [UusbDev.getInterface, UusbDev.modifyInterface, hci,
      getConfig_modifyConfig h.config, UusbDev.getInterface, hci]
    simp only [List.getD, List.getElem?_modify_ne f _ hii]
  · exact getInterface_modifyConfig_ne hci _

theorem getConfig_modifyInterface_descriptor (h : at_.1 < dev.numConfigs)
    (f : UusbInterface -> UusbInterface) (ci : Nat) :
    ((dev.modifyInterface at_ f).getConfig ci).descriptor =
      (dev.getConfig ci).descriptor := by
  by_cases hci : at_.1 = ci
  · subst hci
    rw [UusbDev.modifyInterface, getConfig_modifyConfig h]
  · rw [UusbDev.modifyInterface, getConfig_modifyConfig_ne hci]

theorem getConfig_setCcid_descriptor (h : dev.Has at_) (ci : Nat) :
    ((dev.setCcid at_ ccid).getConfig ci).descriptor =
      (dev.getConfig ci).descriptor :=
  getConfig_modifyInterface_descriptor h.config _ ci

theorem getConfig_setCcid_numInterfaces (h : dev.Has at_) (ci : Nat) :
    ((dev.setCcid at_ ccid).getConfig ci).numInterfaces =
      (dev.getConfig ci).numInterfaces :=
  modifyInterface_numInterfaces h.config _ ci

theorem getInterface_setCcid (h : dev.Has at_) :
    (dev.setCcid at_ ccid).getInterface at_ =
      { dev.getInterface at_ with ccid := ccid } :=
  getInterface_modifyInterface h.config h.interface _

/-- Setting the record to what it is changes nothing. -/
theorem setCcid_self (h : dev.Has at_) :
    dev.setCcid at_ (dev.getInterface at_).ccid = dev := by
  rw [UusbDev.setCcid, modifyInterface_const h.config h.interface]
  exact modifyInterface_self h.config h.interface

theorem setCcid_eq_self_iff (h : dev.Has at_) :
    dev.setCcid at_ ccid = dev ↔ (dev.getInterface at_).ccid = ccid := by
  constructor
  · intro hsame
    rw [← hsame, getInterface_setCcid h]
  · intro hccid
    rw [← hccid]
    exact setCcid_self h

/-- The record that is set last remains. -/
theorem setCcid_setCcid (first last : Option CcidDescriptor) :
    (dev.setCcid at_ first).setCcid at_ last = dev.setCcid at_ last := by
  simp only [UusbDev.setCcid, UusbDev.modifyInterface, UusbDev.modifyConfig,
    List.modify_modify_eq]
  congr 2
  funext config
  simp only [Function.comp_apply, List.modify_modify_eq]
  rfl

/-!
No slot is ever given back.
-/

theorem UusbDev.Has.addConfig (h : dev.Has at_) (config : UusbConfig) :
    ({ dev with config := dev.config ++ [config] } : UusbDev).Has at_ := by
  have hsame : ({ dev with config := dev.config ++ [config] } : UusbDev).getConfig
      at_.1 = dev.getConfig at_.1 := by
    simp only [UusbDev.getConfig]
    exact List.getD_append _ _ _ _ h.config
  constructor
  · change at_.1 < (dev.config ++ [config]).length
    rw [List.length_append]
    exact Nat.lt_add_right _ h.config
  · rw [hsame]
    exact h.interface

theorem UusbDev.Has.modifyConfig (h : dev.Has at_) (ci : Nat)
    {f : UusbConfig -> UusbConfig}
    (hf : forall config : UusbConfig, config.numInterfaces ≤ (f config).numInterfaces) :
    (dev.modifyConfig ci f).Has at_ := by
  constructor
  · rw [modifyConfig_numConfigs]
    exact h.config
  · by_cases hci : ci = at_.1
    · rw [hci, getConfig_modifyConfig h.config]
      exact Nat.lt_of_lt_of_le h.interface (hf _)
    · rw [getConfig_modifyConfig_ne hci]
      exact h.interface

theorem UusbDev.Has.addInterface (h : dev.Has at_) (ci : Nat)
    (interface : UusbInterface) : (dev.addInterface ci interface).Has at_ := by
  apply h.modifyConfig
  intro config
  simp [UusbConfig.numInterfaces]

theorem UusbDev.Has.modifyInterface (h : dev.Has at_) (other : Nat × Nat)
    (f : UusbInterface -> UusbInterface) : (dev.modifyInterface other f).Has at_ := by
  apply h.modifyConfig
  intro config
  simp [UusbConfig.numInterfaces]

/-- A new interface is the last one of its configuration. -/
theorem has_addInterface {ci : Nat} (hci : ci < dev.numConfigs)
    (interface : UusbInterface) :
    (dev.addInterface ci interface).Has (ci, (dev.getConfig ci).numInterfaces) := by
  constructor
  · rw [UusbDev.addInterface, modifyConfig_numConfigs]
    exact hci
  · rw [UusbDev.addInterface, getConfig_modifyConfig hci]
    simp [UusbConfig.numInterfaces]

/-!
The record of an interface makes no difference to what is recorded elsewhere.
-/

theorem setCcid_addConfig (h : dev.Has at_) (config : UusbConfig) :
    ({ dev with config := dev.config ++ [config] } : UusbDev).setCcid at_ ccid =
      { dev.setCcid at_ ccid with config := (dev.setCcid at_ ccid).config ++ [config] } := by
  simp only [UusbDev.setCcid, UusbDev.modifyInterface, UusbDev.modifyConfig,
    modify_append_of_lt (h.config : at_.1 < dev.config.length)]

theorem setCcid_addInterface (h : dev.Has at_) (ci : Nat) (interface : UusbInterface) :
    (dev.addInterface ci interface).setCcid at_ ccid =
      (dev.setCcid at_ ccid).addInterface ci interface := by
  simp only [UusbDev.addInterface, UusbDev.setCcid, UusbDev.modifyInterface,
    UusbDev.modifyConfig]
  congr 1
  have hconfig : at_.1 < dev.config.length := h.config
  by_cases hci : ci = at_.1
  · have hii : at_.2 < dev.config[at_.1].interface.length := by
      rw [← getConfig_eq hconfig]
      exact h.interface
    subst hci
    rw [List.modify_modify_eq, List.modify_modify_eq,
      List.modify_eq_take_cons_drop hconfig, List.modify_eq_take_cons_drop hconfig]
    simp only [Function.comp_apply, modify_append_of_lt hii]
  · exact List.modify_modify_ne _ _ _ hci

/-- Changes to interfaces commute, unless both are to one and do not. -/
theorem modifyInterface_comm {f g : UusbInterface -> UusbInterface}
    (hcomm : other = at_ -> forall interface, g (f interface) = f (g interface)) :
    (dev.modifyInterface other f).modifyInterface at_ g =
      (dev.modifyInterface at_ g).modifyInterface other f := by
  simp only [UusbDev.modifyInterface, UusbDev.modifyConfig]
  congr 1
  by_cases hci : other.1 = at_.1
  · rw [hci, List.modify_modify_eq, List.modify_modify_eq]
    congr 1
    funext config
    simp only [Function.comp_apply]
    congr 1
    by_cases hii : other.2 = at_.2
    · rw [hii, List.modify_modify_eq, List.modify_modify_eq]
      congr 1
      funext interface
      exact hcomm (Prod.ext hci hii) interface
    · exact List.modify_modify_ne _ _ _ hii
  · exact List.modify_modify_ne _ _ _ hci

theorem setCcid_addEndpoint (other : Nat × Nat) (ed : UusbEndpointDescriptor) :
    (dev.addEndpoint other ed).setCcid at_ ccid =
      (dev.setCcid at_ ccid).addEndpoint other ed :=
  modifyInterface_comm fun _ _ => rfl

theorem setCcid_comm (hne : other ≠ at_) (first last : Option CcidDescriptor) :
    (dev.setCcid other first).setCcid at_ last =
      (dev.setCcid at_ last).setCcid other first :=
  modifyInterface_comm fun heq => absurd heq hne

end

/-!
## Walks that differ in a record
-/

def Build.setCcid (b : Build) (at_ : Nat × Nat) (ccid : Option CcidDescriptor) :
    Build :=
  { b with dev := b.dev.setCcid at_ ccid }

def Handled.dev : Handled -> UusbDev
  | taken b => b.dev
  | refused dev => dev
  | outside dev => dev

def Handled.setCcid (handled : Handled) (at_ : Nat × Nat)
    (ccid : Option CcidDescriptor) : Handled :=
  match handled with
  | taken b => taken (b.setCcid at_ ccid)
  | refused dev => refused (dev.setCcid at_ ccid)
  | outside dev => outside (dev.setCcid at_ ccid)

section

variable {b : Build} {dt : AnyDt} {at_ : Nat × Nat}

theorem handleConfig_setCcid (h : b.dev.Has at_) (ccid : Option CcidDescriptor) :
    (b.setCcid at_ ccid).handleConfig dt = (b.handleConfig dt).setCcid at_ ccid := by
  have hnumber : (b.dev.setCcid at_ ccid).numConfigs = b.dev.numConfigs :=
    modifyConfig_numConfigs _ _
  have hdescriptor : (b.dev.setCcid at_ ccid).descriptor = b.dev.descriptor := rfl
  simp only [Build.handleConfig, Build.setCcid, hnumber, hdescriptor]
  split_ifs
  · rfl
  · rfl
  · simp only [Handled.setCcid, Build.setCcid, setCcid_addConfig h, hdescriptor]
  · simp only [Handled.setCcid, setCcid_addConfig h, hdescriptor]

theorem handleInterface_setCcid (h : b.dev.Has at_) (ccid : Option CcidDescriptor) :
    (b.setCcid at_ ccid).handleInterface dt =
      (b.handleInterface dt).setCcid at_ ccid := by
  simp only [Build.handleInterface, Build.setCcid]
  cases b.config with
  | none => rfl
  | some ci =>
      simp only [getConfig_setCcid_numInterfaces h, getConfig_setCcid_descriptor h]
      split_ifs
      · rfl
      · rfl
      · simp only [Handled.setCcid, Build.setCcid, setCcid_addInterface h]
      · simp only [Handled.setCcid, setCcid_addInterface h]

/-- What is asked about an interface is not its record. -/
theorem getInterface_setCcid_same {dev : UusbDev} (h : dev.Has at_)
    (other : Nat × Nat) (ccid : Option CcidDescriptor) :
    ((dev.setCcid at_ ccid).getInterface other).numEndpoints =
        (dev.getInterface other).numEndpoints ∧
      ((dev.setCcid at_ ccid).getInterface other).descriptor =
        (dev.getInterface other).descriptor ∧
      ((dev.setCcid at_ ccid).getInterface other).handler =
        (dev.getInterface other).handler := by
  by_cases hother : other = at_
  · rw [hother, getInterface_setCcid h]
    exact ⟨rfl, rfl, rfl⟩
  · rw [UusbDev.setCcid, getInterface_modifyInterface_ne h hother]
    exact ⟨rfl, rfl, rfl⟩

theorem handleEndpoint_setCcid (h : b.dev.Has at_) (ccid : Option CcidDescriptor) :
    (b.setCcid at_ ccid).handleEndpoint dt =
      (b.handleEndpoint dt).setCcid at_ ccid := by
  simp only [Build.handleEndpoint, Build.setCcid]
  cases b.interface with
  | none => rfl
  | some other =>
      rcases getInterface_setCcid_same h other ccid with
        ⟨hnumber, hdescriptor, _⟩
      simp only [hnumber, hdescriptor]
      split_ifs
      · rfl
      · rfl
      · simp only [Handled.setCcid, Build.setCcid, setCcid_addEndpoint]
      · simp only [Handled.setCcid, setCcid_addEndpoint]

/-- The descriptor is taken for a CCID descriptor of the interface. -/
structure Overwrites (b : Build) (at_ : Nat × Nat) (dt : AnyDt) : Prop where
  other : IsOther dt.dtType
  current : b.interface = some at_
  handler : (b.dev.getInterface at_).handler ≠ none
  holds : dt.Holds ccidParseUsbDescriptor

theorem handleOther_setCcid (h : b.dev.Has at_) (ccid : Option CcidDescriptor)
    (htype : IsOther dt.dtType) (hkept : ¬ Overwrites b at_ dt) :
    (b.setCcid at_ ccid).handleOther dt = (b.handleOther dt).setCcid at_ ccid := by
  simp only [Build.handleOther, Build.setCcid]
  cases hcurrent : b.interface with
  | none => simp only [Handled.setCcid, Build.setCcid, hcurrent]
  | some other =>
      simp only [(getInterface_setCcid_same h other ccid).2.2]
      split_ifs with hhandler hholds
      · simp only [Handled.setCcid, Build.setCcid, hcurrent]
      · have hne : other ≠ at_ := by
          intro heq
          rw [heq] at hcurrent hhandler
          exact hkept ⟨htype, hcurrent, hhandler, hholds⟩
        simp only [Handled.setCcid, Build.setCcid, setCcid_comm hne]
      · rfl

/-- A record makes no difference to how a descriptor is handled, but one that is
taken for a CCID descriptor sets it. -/
theorem handle_setCcid (h : b.dev.Has at_) (ccid : Option CcidDescriptor)
    (hkept : ¬ Overwrites b at_ dt) :
    (b.setCcid at_ ccid).handle dt = (b.handle dt).setCcid at_ ccid := by
  simp only [Build.handle]
  split_ifs with hdevice hconfig hinterface hendpoint
  · rfl
  · exact handleConfig_setCcid h ccid
  · exact handleInterface_setCcid h ccid
  · exact handleEndpoint_setCcid h ccid
  · exact handleOther_setCcid h ccid ⟨hdevice, hconfig, hinterface, hendpoint⟩ hkept

theorem Overwrites.handle (h : Overwrites b at_ dt) :
    b.handle dt = .taken (b.setCcid at_ (some dt.ccid)) := by
  rw [Build.handle, if_neg h.other.1, if_neg h.other.2.1, if_neg h.other.2.2.1,
    if_neg h.other.2.2.2, Build.handleOther, h.current]
  simp only [if_neg h.handler, if_pos h.holds, Build.setCcid, h.current]

theorem Overwrites.handle_setCcid (h : Overwrites b at_ dt) (hhas : b.dev.Has at_)
    (ccid : Option CcidDescriptor) :
    (b.setCcid at_ ccid).handle dt = b.handle dt := by
  have hsame : Overwrites (b.setCcid at_ ccid) at_ dt := by
    refine ⟨h.other, h.current, ?_, h.holds⟩
    change ((b.dev.setCcid at_ ccid).getInterface at_).handler ≠ none
    rw [(getInterface_setCcid_same hhas at_ ccid).2.2]
    exact h.handler
  rw [hsame.handle, h.handle, Build.setCcid, Build.setCcid, Build.setCcid,
    setCcid_setCcid]

end

/-!
## What a walk keeps
-/

/-- The places where the next descriptor goes are in the tree. -/
structure Build.Valid (b : Build) : Prop where
  config : forall ci, b.config = some ci -> ci < b.dev.numConfigs
  interface : forall at_, b.interface = some at_ -> b.dev.Has at_

section

variable {b next : Build} {dt : AnyDt} {at_ : Nat × Nat}

theorem Takes.has (h : Takes b dt next) (hhas : b.dev.Has at_) : next.dev.Has at_ := by
  cases h with
  | config => exact hhas.addConfig _
  | interface => exact hhas.addInterface _ _
  | endpoint => exact hhas.modifyInterface _ _
  | passed => exact hhas
  | ccid => exact hhas.modifyInterface _ _

theorem Takes.valid (h : Takes b dt next) (hvalid : b.Valid) : next.Valid := by
  cases h with
  | config _ cd =>
      constructor
      · intro ci hci
        injection hci with hci
        rw [← hci]
        change _ < (b.dev.config ++ [_]).length
        rw [List.length_append]
        exact Nat.lt_succ_self _
      · intro at_ hat
        cases hat
  | @interface _ ci hci id =>
      have hlt := hvalid.config ci hci
      constructor
      · intro other hother
        rw [UusbDev.addInterface, modifyConfig_numConfigs]
        exact hvalid.config other hother
      · intro at_ hat
        injection hat with hat
        rw [← hat]
        exact has_addInterface hlt _
  | endpoint =>
      constructor
      · intro ci hci
        rw [UusbDev.addEndpoint, UusbDev.modifyInterface, modifyConfig_numConfigs]
        exact hvalid.config ci hci
      · intro at_ hat
        exact (hvalid.interface at_ hat).modifyInterface _ _
  | passed => exact hvalid
  | ccid =>
      constructor
      · intro ci hci
        rw [UusbDev.setCcid, UusbDev.modifyInterface, modifyConfig_numConfigs]
        exact hvalid.config ci hci
      · intro at_ hat
        exact (hvalid.interface at_ hat).modifyInterface _ _

/-- Descriptors that are not of another type are recorded. -/
theorem Takes.recorded (h : Takes b dt next) (hvalid : b.Valid) :
    IsOther dt.dtType ∧ next.dev.recorded = b.dev.recorded ∨
      next.dev.recorded = b.dev.recorded + 1 := by
  cases h with
  | config => exact Or.inr (recorded_addConfig _)
  | interface _ hci => exact Or.inr (recorded_addInterface (hvalid.config _ hci) rfl)
  | endpoint _ hat =>
      have hhas := hvalid.interface _ hat
      exact Or.inr (recorded_addEndpoint hhas.config hhas.interface _)
  | passed htype => exact Or.inl ⟨htype, rfl⟩
  | ccid htype hat =>
      have hhas := hvalid.interface _ hat
      have hsame := recorded_modifyInterface hhas.config hhas.interface
        fun interface => { interface with ccid := some dt.ccid }
      simp only [UusbInterface.recorded, UusbInterface.numEndpoints] at hsame
      exact Or.inl ⟨htype, Nat.add_right_cancel hsame⟩

/-- A descriptor that is refused before anything is recorded from it. -/
inductive RefusedAtOnce (b : Build) (dt : AnyDt) : Prop where
  | device (htype : dt.dtType = usbDtDevice)
  | config (htype : dt.dtType = usbDtConfig)
      (hmany : b.dev.numConfigs > b.dev.descriptor.bNumConfigurations.toNat)
  | interface (htype : dt.dtType = usbDtInterface)
      (hmany : forall ci, b.config = some ci -> (b.dev.getConfig ci).numInterfaces >
        (b.dev.getConfig ci).descriptor.bNumInterfaces.toNat)
  | endpoint (htype : dt.dtType = usbDtEndpoint)
      (hmany : forall at_, b.interface = some at_ ->
        (b.dev.getInterface at_).numEndpoints >
          (b.dev.getInterface at_).descriptor.bNumEndpoints.toNat)
  | record (htype : IsOther dt.dtType) {at_ : Nat × Nat}
      (hat : b.interface = some at_) (hhandler : (b.dev.getInterface at_).handler ≠ none)
      (hshort : ¬ dt.Holds ccidParseUsbDescriptor)

theorem RefusedAtOnce.handle (h : RefusedAtOnce b dt) :
    b.handle dt = .refused b.dev := by
  cases h with
  | device htype => rw [Build.handle, if_pos htype]
  | config htype hmany =>
      rw [Build.handle, htype, if_neg (by decide), if_pos rfl, Build.handleConfig,
        if_pos hmany]
  | interface htype hmany =>
      rw [Build.handle, htype, if_neg (by decide), if_neg (by decide), if_pos rfl,
        Build.handleInterface]
      cases hci : b.config with
      | none => rfl
      | some ci => exact if_pos (hmany ci hci)
  | endpoint htype hmany =>
      rw [Build.handle, htype, if_neg (by decide), if_neg (by decide),
        if_neg (by decide), if_pos rfl, Build.handleEndpoint]
      cases hat : b.interface with
      | none => rfl
      | some at_ => exact if_pos (hmany at_ hat)
  | record htype hat hhandler hshort =>
      rw [Build.handle, if_neg htype.1, if_neg htype.2.1, if_neg htype.2.2.1,
        if_neg htype.2.2.2, Build.handleOther, hat]
      exact (if_neg hhandler).trans (if_neg hshort)

/-- How a descriptor is refused: at once, or when it has been recorded. -/
def Refuses (b : Build) (dt : AnyDt) (dev : UusbDev) : Prop :=
  (RefusedAtOnce b dt ∧ dev = b.dev) ∨
    (dev.recorded = b.dev.recorded + 1 ∧ forall at_, b.dev.Has at_ -> dev.Has at_)

section

variable {dev : UusbDev}

theorem refuses_of_handleConfig (htype : dt.dtType = usbDtConfig)
    (h : b.handleConfig dt = .refused dev) : Refuses b dt dev := by
  unfold Build.handleConfig at h
  simp only at h
  split_ifs at h with hmany houtside hholds
  · injection h with hdev
    exact Or.inl ⟨.config htype hmany, hdev.symm⟩
  · injection h with hdev
    rw [← hdev]
    exact Or.inr ⟨recorded_addConfig _, fun _ hhas => hhas.addConfig _⟩

theorem refuses_of_handleInterface (hvalid : b.Valid) (htype : dt.dtType = usbDtInterface)
    (h : b.handleInterface dt = .refused dev) : Refuses b dt dev := by
  unfold Build.handleInterface at h
  cases hci : b.config with
  | none =>
      rw [hci] at h
      injection h with hdev
      refine Or.inl ⟨.interface htype fun ci hsome => ?_, hdev.symm⟩
      rw [hci] at hsome
      cases hsome
  | some ci =>
      rw [hci] at h
      simp only at h
      split_ifs at h with hmany houtside hholds
      · injection h with hdev
        refine Or.inl ⟨.interface htype fun other hsome => ?_, hdev.symm⟩
        rw [hci] at hsome
        injection hsome with hsome
        rw [← hsome]
        exact hmany
      · injection h with hdev
        rw [← hdev]
        exact Or.inr ⟨recorded_addInterface (hvalid.config ci hci) rfl,
          fun _ hhas => hhas.addInterface _ _⟩

theorem refuses_of_handleEndpoint (hvalid : b.Valid) (htype : dt.dtType = usbDtEndpoint)
    (h : b.handleEndpoint dt = .refused dev) : Refuses b dt dev := by
  unfold Build.handleEndpoint at h
  cases hat : b.interface with
  | none =>
      rw [hat] at h
      injection h with hdev
      refine Or.inl ⟨.endpoint htype fun at_ hsome => ?_, hdev.symm⟩
      rw [hat] at hsome
      cases hsome
  | some at_ =>
      rw [hat] at h
      simp only at h
      split_ifs at h with hmany houtside hholds
      · injection h with hdev
        refine Or.inl ⟨.endpoint htype fun other hsome => ?_, hdev.symm⟩
        rw [hat] at hsome
        injection hsome with hsome
        rw [← hsome]
        exact hmany
      · injection h with hdev
        have hhas := hvalid.interface at_ hat
        rw [← hdev]
        exact Or.inr ⟨recorded_addEndpoint hhas.config hhas.interface _,
          fun _ hold => hold.modifyInterface _ _⟩

theorem refuses_of_handleOther (htype : IsOther dt.dtType)
    (h : b.handleOther dt = .refused dev) : Refuses b dt dev := by
  unfold Build.handleOther at h
  cases hat : b.interface with
  | none =>
      rw [hat] at h
      cases h
  | some at_ =>
      rw [hat] at h
      simp only at h
      split_ifs at h with hhandler hholds
      injection h with hdev
      exact Or.inl ⟨.record htype hat hhandler hholds, hdev.symm⟩

/-- A descriptor that is refused was recorded before, or is refused at once. -/
theorem handle_refused (hvalid : b.Valid) (h : b.handle dt = .refused dev) :
    Refuses b dt dev := by
  unfold Build.handle at h
  split_ifs at h with hdevice hconfig hinterface hendpoint
  · injection h with hdev
    exact Or.inl ⟨.device hdevice, hdev.symm⟩
  · exact refuses_of_handleConfig hconfig h
  · exact refuses_of_handleInterface hvalid hinterface h
  · exact refuses_of_handleEndpoint hvalid hendpoint h
  · exact refuses_of_handleOther ⟨hdevice, hconfig, hinterface, hendpoint⟩ h

end

/-- Where there is no slot the tree stays as it is. -/
theorem handle_outside {dev : UusbDev} (h : b.handle dt = .outside dev) :
    dev = b.dev := by
  unfold Build.handle at h
  split_ifs at h
  · unfold Build.handleConfig at h
    simp only at h
    split_ifs at h
    injection h with hdev
    exact hdev.symm
  · unfold Build.handleInterface at h
    split at h
    · cases h
    · simp only at h
      split_ifs at h
      injection h with hdev
      exact hdev.symm
  · unfold Build.handleEndpoint at h
    split at h
    · cases h
    · simp only at h
      split_ifs at h
      injection h with hdev
      exact hdev.symm
  · unfold Build.handleOther at h
    split at h
    · cases h
    · split_ifs at h

theorem handle_recorded_le (hvalid : b.Valid) (dt : AnyDt) :
    b.dev.recorded ≤ (b.handle dt).dev.recorded := by
  cases hcase : b.handle dt with
  | taken next =>
      change _ ≤ next.dev.recorded
      rcases (takes_of_handle hcase).recorded hvalid with hsame | hmore
      · exact Nat.le_of_eq hsame.2.symm
      · lia
  | refused dev =>
      change _ ≤ dev.recorded
      rcases handle_refused hvalid hcase with hsame | hmore
      · rw [hsame.2]
      · lia
  | outside dev =>
      change _ ≤ dev.recorded
      rw [handle_outside hcase]

/-- A walk never loses what has been recorded. -/
theorem walk_recorded_le (hvalid : b.Valid) (dts : List AnyDt) :
    b.dev.recorded ≤ (b.walk dts).dev.recorded := by
  induction dts generalizing b with
  | nil => exact Nat.le_refl _
  | cons dt dts ih =>
      have hfirst := handle_recorded_le hvalid dt
      rw [Build.walk]
      cases hcase : b.handle dt with
      | taken next =>
          rw [hcase] at hfirst
          exact Nat.le_trans hfirst (ih ((takes_of_handle hcase).valid hvalid))
      | refused dev =>
          rw [hcase] at hfirst
          exact hfirst
      | outside dev =>
          rw [hcase] at hfirst
          exact hfirst

end

end Usb
end UtokenDecrypt
