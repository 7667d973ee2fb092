import UtokenDecrypt.Usb.Descriptors

/-!
# Rounds of the descriptor walk

What a single round does, and what every state of the walk has in common.
-/

namespace UtokenDecrypt
namespace Usb

open Foundation

section

variable {mem : Nat -> UInt8} {len : Nat} {st : UusbParse}

/-!
Every way a descriptor can be handled, with the conditions each of them needs.
-/

/-- The fields of a descriptor fit behind its length and type bytes. -/
def DtFits (mem : Nat -> UInt8) (st : UusbParse) {D : Type}
    (fields : List (DtField D)) : Prop :=
  fieldsSize fields ≤ sub32 (dtLenAt mem st) 2

/-- What a field parser leaves: the parser and the record. -/
def dtGot (mem : Nat -> UInt8) (st : UusbParse) {D : Type}
    (fields : List (DtField D)) (target : D) : UusbDtParser × D :=
  (parseFields mem fields (dtParserAt mem st) target).2

/-- What the CCID parser leaves, which starts over on the descriptor. -/
def ccidGot (mem : Nat -> UInt8) (st : UusbParse) : UusbDtParser × CcidDescriptor :=
  (parseFields mem ccidParseUsbDescriptor
    (uusbDtParserInit st.pos (dtLenAt mem st) (dtHead mem st).seen) {}).2

/-- The state after the device descriptor. -/
def afterDevice (mem : Nat -> UInt8) (st : UusbParse) : UusbParse :=
  let got := dtGot mem st uusbParseDeviceDescriptor st.dev.descriptor
  st.storeDevice got.2 got.1.seen

def afterConfig (mem : Nat -> UInt8) (st : UusbParse) : UusbParse :=
  let got := dtGot mem st uusbParseConfigDescriptor {}
  st.addConfig got.2 got.1.seen

/-- The state after an interface descriptor, whose type may not be set yet. -/
def afterInterface (mem : Nat -> UInt8) (st : UusbParse) (ci : Nat)
    (type : Option UusbIntfType) : UusbParse :=
  let got := dtGot mem st uusbParseInterfaceDescriptor {}
  st.addInterface ci { descriptor := got.2, type := type } got.1.seen

def afterEndpoint (mem : Nat -> UInt8) (st : UusbParse) (at_ : Nat × Nat) :
    UusbParse :=
  let got := dtGot mem st uusbParseEndpointDescriptor {}
  st.addEndpoint at_ got.2 got.1.seen

/-- The state after another descriptor of the current interface. -/
def afterOther (st : UusbParse) (at_ : Nat × Nat) (interface : UusbInterface)
    (seen : List Access) : UusbParse :=
  { st with
    dev := st.dev.modifyInterface at_ fun _ => interface
    interface := some at_
    seen := seen }

def IsOther (dtType : UInt8) : Prop :=
  dtType ≠ usbDtDevice ∧ dtType ≠ usbDtConfig ∧ dtType ≠ usbDtInterface ∧
    dtType ≠ usbDtEndpoint

instance (dtType : UInt8) : Decidable (IsOther dtType) :=
  inferInstanceAs (Decidable (_ ∧ _))

inductive Handling (mem : Nat -> UInt8) (st : UusbParse) : DtCase -> Prop where
  | notDevice :
      st.pos = 0 -> dtTypeAt mem st ≠ usbDtDevice ->
      Handling mem st (.bad (dtHead mem st))
  | deviceShort :
      st.pos = 0 -> dtTypeAt mem st = usbDtDevice ->
      ¬ DtFits mem st uusbParseDeviceDescriptor ->
      Handling mem st (.bad (afterDevice mem st))
  | deviceCount :
      st.pos = 0 -> dtTypeAt mem st = usbDtDevice ->
      DtFits mem st uusbParseDeviceDescriptor ->
      ((afterDevice mem st).dev.descriptor.bNumConfigurations = 0 ∨
        (afterDevice mem st).dev.descriptor.bNumConfigurations.toNat >
          uusbMaxConfigs) ->
      Handling mem st (.bad (afterDevice mem st))
  | device :
      st.pos = 0 -> dtTypeAt mem st = usbDtDevice ->
      DtFits mem st uusbParseDeviceDescriptor ->
      (afterDevice mem st).dev.descriptor.bNumConfigurations ≠ 0 ->
      (afterDevice mem st).dev.descriptor.bNumConfigurations.toNat ≤
        uusbMaxConfigs ->
      Handling mem st (.next (afterDevice mem st))
  | secondDevice :
      st.pos ≠ 0 -> dtTypeAt mem st = usbDtDevice ->
      Handling mem st (.bad (dtHead mem st))
  | tooManyConfigs :
      st.pos ≠ 0 -> dtTypeAt mem st = usbDtConfig ->
      st.dev.numConfigs > st.dev.descriptor.bNumConfigurations.toNat ->
      Handling mem st (.bad (dtHead mem st))
  | configOutside :
      st.pos ≠ 0 -> dtTypeAt mem st = usbDtConfig ->
      st.dev.numConfigs ≤ st.dev.descriptor.bNumConfigurations.toNat ->
      uusbMaxConfigs ≤ st.dev.numConfigs ->
      Handling mem st (.outOfArray (dtHead mem st))
  | configShort :
      st.pos ≠ 0 -> dtTypeAt mem st = usbDtConfig ->
      st.dev.numConfigs ≤ st.dev.descriptor.bNumConfigurations.toNat ->
      st.dev.numConfigs < uusbMaxConfigs ->
      ¬ DtFits mem st uusbParseConfigDescriptor ->
      Handling mem st (.bad (afterConfig mem st))
  | config :
      st.pos ≠ 0 -> dtTypeAt mem st = usbDtConfig ->
      st.dev.numConfigs ≤ st.dev.descriptor.bNumConfigurations.toNat ->
      st.dev.numConfigs < uusbMaxConfigs ->
      DtFits mem st uusbParseConfigDescriptor ->
      Handling mem st (.next { afterConfig mem st with interface := none })
  | noConfig :
      st.pos ≠ 0 -> dtTypeAt mem st = usbDtInterface -> st.config = none ->
      Handling mem st (.bad (dtHead mem st))
  | tooManyInterfaces {ci : Nat} :
      st.pos ≠ 0 -> dtTypeAt mem st = usbDtInterface -> st.config = some ci ->
      (st.dev.getConfig ci).numInterfaces >
        (st.dev.getConfig ci).descriptor.bNumInterfaces.toNat ->
      Handling mem st (.bad (dtHead mem st))
  | interfaceOutside {ci : Nat} :
      st.pos ≠ 0 -> dtTypeAt mem st = usbDtInterface -> st.config = some ci ->
      (st.dev.getConfig ci).numInterfaces ≤
        (st.dev.getConfig ci).descriptor.bNumInterfaces.toNat ->
      uusbMaxInterfaces ≤ (st.dev.getConfig ci).numInterfaces ->
      Handling mem st (.outOfArray (dtHead mem st))
  | interfaceShort {ci : Nat} :
      st.pos ≠ 0 -> dtTypeAt mem st = usbDtInterface -> st.config = some ci ->
      (st.dev.getConfig ci).numInterfaces ≤
        (st.dev.getConfig ci).descriptor.bNumInterfaces.toNat ->
      (st.dev.getConfig ci).numInterfaces < uusbMaxInterfaces ->
      ¬ DtFits mem st uusbParseInterfaceDescriptor ->
      Handling mem st (.bad (afterInterface mem st ci none))
  | interface {ci : Nat} :
      st.pos ≠ 0 -> dtTypeAt mem st = usbDtInterface -> st.config = some ci ->
      (st.dev.getConfig ci).numInterfaces ≤
        (st.dev.getConfig ci).descriptor.bNumInterfaces.toNat ->
      (st.dev.getConfig ci).numInterfaces < uusbMaxInterfaces ->
      DtFits mem st uusbParseInterfaceDescriptor ->
      Handling mem st (.next (afterInterface mem st ci (uusbFindInterfaceType
        (dtGot mem st uusbParseInterfaceDescriptor {}).2.bInterface)))
  | noInterface :
      st.pos ≠ 0 -> dtTypeAt mem st = usbDtEndpoint -> st.interface = none ->
      Handling mem st (.bad (dtHead mem st))
  | tooManyEndpoints {at_ : Nat × Nat} :
      st.pos ≠ 0 -> dtTypeAt mem st = usbDtEndpoint -> st.interface = some at_ ->
      (st.dev.getInterface at_).numEndpoints >
        (st.dev.getInterface at_).descriptor.bNumEndpoints.toNat ->
      Handling mem st (.bad (dtHead mem st))
  | endpointOutside {at_ : Nat × Nat} :
      st.pos ≠ 0 -> dtTypeAt mem st = usbDtEndpoint -> st.interface = some at_ ->
      (st.dev.getInterface at_).numEndpoints ≤
        (st.dev.getInterface at_).descriptor.bNumEndpoints.toNat ->
      uusbMaxEndpoints ≤ (st.dev.getInterface at_).numEndpoints ->
      Handling mem st (.outOfArray (dtHead mem st))
  | endpointShort {at_ : Nat × Nat} :
      st.pos ≠ 0 -> dtTypeAt mem st = usbDtEndpoint -> st.interface = some at_ ->
      (st.dev.getInterface at_).numEndpoints ≤
        (st.dev.getInterface at_).descriptor.bNumEndpoints.toNat ->
      (st.dev.getInterface at_).numEndpoints < uusbMaxEndpoints ->
      ¬ DtFits mem st uusbParseEndpointDescriptor ->
      Handling mem st (.bad (afterEndpoint mem st at_))
  | endpoint {at_ : Nat × Nat} :
      st.pos ≠ 0 -> dtTypeAt mem st = usbDtEndpoint -> st.interface = some at_ ->
      (st.dev.getInterface at_).numEndpoints ≤
        (st.dev.getInterface at_).descriptor.bNumEndpoints.toNat ->
      (st.dev.getInterface at_).numEndpoints < uusbMaxEndpoints ->
      DtFits mem st uusbParseEndpointDescriptor ->
      Handling mem st (.next (afterEndpoint mem st at_))
  | unclaimed :
      st.pos ≠ 0 -> IsOther (dtTypeAt mem st) -> st.interface = none ->
      Handling mem st (.next (dtHead mem st))
  | ignored {at_ : Nat × Nat} :
      st.pos ≠ 0 -> IsOther (dtTypeAt mem st) -> st.interface = some at_ ->
      (st.dev.getInterface at_).handler = none ->
      Handling mem st (.next (afterOther st at_ (st.dev.getInterface at_)
        (dtHead mem st).seen))
  | ccidShort {at_ : Nat × Nat} :
      st.pos ≠ 0 -> IsOther (dtTypeAt mem st) -> st.interface = some at_ ->
      (st.dev.getInterface at_).handler = some .uusbHandleCcidDescriptor ->
      ¬ DtFits mem st ccidParseUsbDescriptor ->
      Handling mem st (.bad (afterOther st at_ (st.dev.getInterface at_)
        (ccidGot mem st).1.seen))
  | ccid {at_ : Nat × Nat} :
      st.pos ≠ 0 -> IsOther (dtTypeAt mem st) -> st.interface = some at_ ->
      (st.dev.getInterface at_).handler = some .uusbHandleCcidDescriptor ->
      DtFits mem st ccidParseUsbDescriptor ->
      Handling mem st (.next (afterOther st at_
        { st.dev.getInterface at_ with ccid := some (ccidGot mem st).2 }
        (ccidGot mem st).1.seen))

section

variable (mem) (st)

theorem dtParserAt_okay : (dtParserAt mem st).okay = true := rfl

theorem uusbDeviceCase_handling (hpos : st.pos = 0) :
    Handling mem st (uusbDeviceCase mem (dtTypeAt mem st) (dtParserAt mem st)
      (dtHead mem st)) := by
  rw [uusbDeviceCase_eq (dtParserAt_okay mem st)]
  simp only
  split_ifs with htype hfits hcount
  · exact Handling.deviceCount hpos htype hfits hcount
  · rw [not_or, Nat.not_lt] at hcount
    exact Handling.device hpos htype hfits hcount.1 hcount.2
  · exact Handling.deviceShort hpos htype hfits
  · exact Handling.notDevice hpos htype

theorem uusbConfigCase_handling (hpos : st.pos ≠ 0)
    (htype : dtTypeAt mem st = usbDtConfig) :
    Handling mem st (uusbConfigCase mem (dtParserAt mem st) (dtHead mem st)) := by
  rw [uusbConfigCase_eq (dtParserAt_okay mem st)]
  simp only
  split_ifs with hmany houtside hfits
  · exact Handling.tooManyConfigs hpos htype hmany
  · exact Handling.configOutside hpos htype (Nat.not_lt.mp hmany) houtside
  · exact Handling.config hpos htype (Nat.not_lt.mp hmany)
      (Nat.not_le.mp houtside) hfits
  · exact Handling.configShort hpos htype (Nat.not_lt.mp hmany)
      (Nat.not_le.mp houtside) hfits

theorem uusbInterfaceCase_handling (hpos : st.pos ≠ 0)
    (htype : dtTypeAt mem st = usbDtInterface) :
    Handling mem st
      (uusbInterfaceCase mem (dtParserAt mem st) (dtHead mem st)) := by
  cases hconfig : st.config with
  | none =>
      rw [uusbInterfaceCase_none (show (dtHead mem st).config = none from hconfig)]
      exact Handling.noConfig hpos htype hconfig
  | some ci =>
      rw [uusbInterfaceCase_some (dtParserAt_okay mem st)
        (show (dtHead mem st).config = some ci from hconfig)]
      simp only
      split_ifs with hmany houtside hfits
      · exact Handling.tooManyInterfaces hpos htype hconfig hmany
      · exact Handling.interfaceOutside hpos htype hconfig (Nat.not_lt.mp hmany)
          houtside
      · exact Handling.interface hpos htype hconfig (Nat.not_lt.mp hmany)
          (Nat.not_le.mp houtside) hfits
      · exact Handling.interfaceShort hpos htype hconfig (Nat.not_lt.mp hmany)
          (Nat.not_le.mp houtside) hfits

theorem uusbEndpointCase_handling (hpos : st.pos ≠ 0)
    (htype : dtTypeAt mem st = usbDtEndpoint) :
    Handling mem st
      (uusbEndpointCase mem (dtParserAt mem st) (dtHead mem st)) := by
  cases hinterface : st.interface with
  | none =>
      rw [uusbEndpointCase_none
        (show (dtHead mem st).interface = none from hinterface)]
      exact Handling.noInterface hpos htype hinterface
  | some at_ =>
      rw [uusbEndpointCase_some (dtParserAt_okay mem st)
        (show (dtHead mem st).interface = some at_ from hinterface)]
      simp only
      split_ifs with hmany houtside hfits
      · exact Handling.tooManyEndpoints hpos htype hinterface hmany
      · exact Handling.endpointOutside hpos htype hinterface
          (Nat.not_lt.mp hmany) houtside
      · exact Handling.endpoint hpos htype hinterface (Nat.not_lt.mp hmany)
          (Nat.not_le.mp houtside) hfits
      · exact Handling.endpointShort hpos htype hinterface (Nat.not_lt.mp hmany)
          (Nat.not_le.mp houtside) hfits

variable {mem} {st}

theorem uusbParseCase_device (hpos : st.pos = 0) :
    uusbParseCase mem st =
      uusbDeviceCase mem (dtTypeAt mem st) (dtParserAt mem st) (dtHead mem st) :=
  if_pos hpos

theorem uusbParseCase_config (hpos : st.pos ≠ 0)
    (htype : dtTypeAt mem st = usbDtConfig) :
    uusbParseCase mem st =
      uusbConfigCase mem (dtParserAt mem st) (dtHead mem st) := by
  unfold uusbParseCase uusbDtCase
  rw [if_neg (show ¬ (dtHead mem st).pos = 0 from hpos), htype,
    if_neg (by decide), if_pos rfl]

theorem uusbParseCase_interface (hpos : st.pos ≠ 0)
    (htype : dtTypeAt mem st = usbDtInterface) :
    uusbParseCase mem st =
      uusbInterfaceCase mem (dtParserAt mem st) (dtHead mem st) := by
  unfold uusbParseCase uusbDtCase
  rw [if_neg (show ¬ (dtHead mem st).pos = 0 from hpos), htype,
    if_neg (by decide), if_neg (by decide), if_pos rfl]

theorem uusbParseCase_endpoint (hpos : st.pos ≠ 0)
    (htype : dtTypeAt mem st = usbDtEndpoint) :
    uusbParseCase mem st =
      uusbEndpointCase mem (dtParserAt mem st) (dtHead mem st) := by
  unfold uusbParseCase uusbDtCase
  rw [if_neg (show ¬ (dtHead mem st).pos = 0 from hpos), htype,
    if_neg (by decide), if_neg (by decide), if_neg (by decide), if_pos rfl]

theorem uusbParseCase_other (hpos : st.pos ≠ 0) (htype : IsOther (dtTypeAt mem st)) :
    uusbParseCase mem st =
      uusbDefaultCase mem (dtLenAt mem st) (dtHead mem st) := by
  unfold uusbParseCase uusbDtCase
  rw [if_neg (show ¬ (dtHead mem st).pos = 0 from hpos), if_neg htype.1,
    if_neg htype.2.1, if_neg htype.2.2.1, if_neg htype.2.2.2]

theorem uusbParseCase_deviceNext (hpos : st.pos = 0)
    (htype : dtTypeAt mem st = usbDtDevice)
    (hfits : DtFits mem st uusbParseDeviceDescriptor)
    (hnonzero : (afterDevice mem st).dev.descriptor.bNumConfigurations ≠ 0)
    (hcount : (afterDevice mem st).dev.descriptor.bNumConfigurations.toNat ≤
      uusbMaxConfigs) :
    uusbParseCase mem st = .next (afterDevice mem st) := by
  rw [uusbParseCase_device hpos, uusbDeviceCase_eq (dtParserAt_okay mem st)]
  refine (if_pos htype).trans ((if_pos hfits).trans (if_neg ?_))
  exact not_or.mpr ⟨hnonzero, Nat.not_lt.mpr hcount⟩

theorem uusbParseCase_unclaimed (hpos : st.pos ≠ 0)
    (htype : IsOther (dtTypeAt mem st)) (hnone : st.interface = none) :
    uusbParseCase mem st = .next (dtHead mem st) := by
  rw [uusbParseCase_other hpos htype, uusbDefaultCase]
  simp only [show (dtHead mem st).interface = none from hnone]

theorem uusbParseCase_ignored (hpos : st.pos ≠ 0)
    (htype : IsOther (dtTypeAt mem st)) {at_ : Nat × Nat}
    (hat : st.interface = some at_)
    (hhandler : (st.dev.getInterface at_).handler = none) :
    uusbParseCase mem st = .next
      (afterOther st at_ (st.dev.getInterface at_) (dtHead mem st).seen) := by
  rw [uusbParseCase_other hpos htype, uusbDefaultCase]
  simp only [show (dtHead mem st).interface = some at_ from hat]
  rw [uusbInterfaceProcessDescriptor_none
    (show ((dtHead mem st).dev.getInterface at_).handler = none from hhandler),
    if_pos rfl]
  rfl

theorem uusbParseCase_handled (hpos : st.pos ≠ 0)
    (htype : IsOther (dtTypeAt mem st)) {at_ : Nat × Nat}
    (hat : st.interface = some at_)
    (hhandler : (st.dev.getInterface at_).handler =
      some .uusbHandleCcidDescriptor) :
    (DtFits mem st ccidParseUsbDescriptor ->
      uusbParseCase mem st = .next (afterOther st at_
        { st.dev.getInterface at_ with ccid := some (ccidGot mem st).2 }
        (ccidGot mem st).1.seen)) ∧
    (¬ DtFits mem st ccidParseUsbDescriptor ->
      uusbParseCase mem st = .bad (afterOther st at_ (st.dev.getInterface at_)
        (ccidGot mem st).1.seen)) := by
  rw [uusbParseCase_other hpos htype, uusbDefaultCase]
  simp only [show (dtHead mem st).interface = some at_ from hat]
  rw [uusbInterfaceProcessDescriptor_ccid rfl rfl (show
    ((dtHead mem st).dev.getInterface at_).handler = some _ from hhandler)]
  constructor
  · intro hfits
    change fieldsSize ccidParseUsbDescriptor ≤ (uusbDtParserInit
      (dtHead mem st).pos (dtLenAt mem st) (dtHead mem st).seen).left at hfits
    simp only [if_pos hfits]
    rfl
  · intro hfits
    change ¬ fieldsSize ccidParseUsbDescriptor ≤ (uusbDtParserInit
      (dtHead mem st).pos (dtLenAt mem st) (dtHead mem st).seen).left at hfits
    simp only [if_neg hfits]
    rfl

variable (mem) (st)

theorem uusbParseCase_other_handling (hpos : st.pos ≠ 0)
    (htype : IsOther (dtTypeAt mem st)) :
    Handling mem st (uusbParseCase mem st) := by
  cases hinterface : st.interface with
  | none =>
      rw [uusbParseCase_unclaimed hpos htype hinterface]
      exact Handling.unclaimed hpos htype hinterface
  | some at_ =>
      cases hhandler : (st.dev.getInterface at_).handler with
      | none =>
          rw [uusbParseCase_ignored hpos htype hinterface hhandler]
          exact Handling.ignored hpos htype hinterface hhandler
      | some handler =>
          have hcases := uusbParseCase_handled hpos htype hinterface hhandler
          by_cases hfits : DtFits mem st ccidParseUsbDescriptor
          · rw [hcases.1 hfits]
            exact Handling.ccid hpos htype hinterface hhandler hfits
          · rw [hcases.2 hfits]
            exact Handling.ccidShort hpos htype hinterface hhandler hfits

theorem uusbParseCase_handling : Handling mem st (uusbParseCase mem st) := by
  by_cases hother : st.pos ≠ 0 ∧ IsOther (dtTypeAt mem st)
  · exact uusbParseCase_other_handling mem st hother.1 hother.2
  · unfold uusbParseCase uusbDtCase
    split_ifs with hpos hdevice hconfig hinterface hendpoint
    · exact uusbDeviceCase_handling mem st hpos
    · exact Handling.secondDevice hpos hdevice
    · exact uusbConfigCase_handling mem st hpos hconfig
    · exact uusbInterfaceCase_handling mem st hpos hinterface
    · exact uusbEndpointCase_handling mem st hpos hendpoint
    · exact absurd ⟨hpos, hdevice, hconfig, hinterface, hendpoint⟩ hother

end

/-!
Every round handles a descriptor, or is the last one.
-/

theorem uusbParseStep_of_handles (h : Handles mem len st) :
    uusbParseStep mem len st =
      match uusbParseCase mem st with
      | .next after => .again (advancePos mem st after)
      | .bad after => .finish (.returned false after)
      | .outOfArray after => .finish (.outOfArray after) := by
  rw [uusbParseStep, if_neg (not_not.mpr h.1), if_neg h.2]
  rfl

theorem uusbParseStep_of_end (h : ¬ uusbParseGuard len st) :
    uusbParseStep mem len st = .finish (.returned true st) := by
  rw [uusbParseStep, if_pos h]

theorem uusbParseStep_of_tooLong (h1 : uusbParseGuard len st)
    (h2 : dtTooLong mem len st) :
    uusbParseStep mem len st = .finish (.returned false (seenHeader st)) := by
  rw [uusbParseStep, if_neg (not_not.mpr h1), if_pos h2]

/-- A round that is not the last one has handled a descriptor. -/
theorem uusbParseStep_again {next : UusbParse}
    (h : uusbParseStep mem len st = .again next) :
    Handles mem len st ∧ exists after,
      uusbParseCase mem st = .next after ∧ next = advancePos mem st after := by
  by_cases h1 : uusbParseGuard len st
  · by_cases h2 : dtTooLong mem len st
    · rw [uusbParseStep_of_tooLong h1 h2] at h
      cases h
    · have hh : Handles mem len st := ⟨h1, h2⟩
      rw [uusbParseStep_of_handles hh] at h
      cases hcase : uusbParseCase mem st with
      | next after =>
          rw [hcase] at h
          injection h with hnext
          exact ⟨hh, after, rfl, hnext.symm⟩
      | bad after =>
          rw [hcase] at h
          cases h
      | outOfArray after =>
          rw [hcase] at h
          cases h
  · rw [uusbParseStep_of_end h1] at h
    cases h

/-- The last round runs off the end, finds a descriptor too long, or handles one
that ends the walk. -/
theorem uusbParseStep_finish {value : UusbParseEnd}
    (h : uusbParseStep mem len st = .finish value) :
    value = .returned true st ∨
      (uusbParseGuard len st ∧ dtTooLong mem len st ∧
        value = .returned false (seenHeader st)) ∨
      (Handles mem len st ∧ exists after,
        (uusbParseCase mem st = .bad after ∧ value = .returned false after) ∨
        (uusbParseCase mem st = .outOfArray after ∧ value = .outOfArray after)) := by
  by_cases h1 : uusbParseGuard len st
  · by_cases h2 : dtTooLong mem len st
    · rw [uusbParseStep_of_tooLong h1 h2] at h
      injection h with hvalue
      exact Or.inr (Or.inl ⟨h1, h2, hvalue.symm⟩)
    · have hh : Handles mem len st := ⟨h1, h2⟩
      rw [uusbParseStep_of_handles hh] at h
      cases hcase : uusbParseCase mem st with
      | next after =>
          rw [hcase] at h
          cases h
      | bad after =>
          rw [hcase] at h
          injection h with hvalue
          exact Or.inr (Or.inr ⟨hh, after, Or.inl ⟨rfl, hvalue.symm⟩⟩)
      | outOfArray after =>
          rw [hcase] at h
          injection h with hvalue
          exact Or.inr (Or.inr ⟨hh, after, Or.inr ⟨rfl, hvalue.symm⟩⟩)
  · rw [uusbParseStep_of_end h1] at h
    injection h with hvalue
    exact Or.inl hvalue.symm

end

/-!
## Bounds on the tree

Each counter of the tree can be bounded by a number that depends on the
descriptor it belongs to.  Both the sizes of the arrays and the numbers a device
declares are such bounds.
-/

structure TreeBounds where
  configs : UusbDeviceDescriptor -> Nat
  interfaces : UusbConfigDescriptor -> Nat
  endpoints : UusbInterfaceDescriptor -> Nat

def UusbInterface.Within (bounds : TreeBounds) (interface : UusbInterface) : Prop :=
  interface.numEndpoints ≤ bounds.endpoints interface.descriptor

structure UusbConfig.Within (bounds : TreeBounds) (config : UusbConfig) : Prop where
  number : config.numInterfaces ≤ bounds.interfaces config.descriptor
  interfaces : forall interface, interface ∈ config.interface ->
    interface.Within bounds

structure UusbDev.Within (bounds : TreeBounds) (dev : UusbDev) : Prop where
  number : dev.numConfigs ≤ bounds.configs dev.descriptor
  configs : forall config, config ∈ dev.config -> config.Within bounds

def arraySizes : TreeBounds where
  configs _ := uusbMaxConfigs
  interfaces _ := uusbMaxInterfaces
  endpoints _ := uusbMaxEndpoints

section

variable {bounds : TreeBounds} {dev : UusbDev}

theorem within_modifyConfig {ci : Nat} (hci : ci < dev.numConfigs)
    {f : UusbConfig -> UusbConfig} (h : dev.Within bounds)
    (hf : (f (dev.getConfig ci)).Within bounds) :
    (dev.modifyConfig ci f).Within bounds := by
  constructor
  · rw [modifyConfig_numConfigs]
    exact h.number
  · intro config hmem
    rcases mem_modifyConfig hci hmem with hold | hnew
    · exact h.configs config hold
    · rw [hnew]
      exact hf

theorem within_modifyInterface {at_ : Nat × Nat}
    (hci : at_.1 < dev.numConfigs)
    (hii : at_.2 < (dev.getConfig at_.1).numInterfaces)
    {f : UusbInterface -> UusbInterface} (h : dev.Within bounds)
    (hf : (f (dev.getInterface at_)).Within bounds) :
    (dev.modifyInterface at_ f).Within bounds := by
  have hconfig := h.configs _ (getConfig_mem hci)
  apply within_modifyConfig hci h
  constructor
  · simpa [UusbConfig.numInterfaces] using hconfig.number
  · intro interface hmem
    rcases mem_modify_interface hii hmem with hold | hnew
    · exact hconfig.interfaces interface hold
    · rw [hnew, ← getInterface_eq hii]
      exact hf

theorem within_addConfig (h : dev.Within bounds)
    (hroom : dev.numConfigs < bounds.configs dev.descriptor)
    (cd : UusbConfigDescriptor) :
    ({ dev with config := dev.config ++ [{ descriptor := cd }] } :
      UusbDev).Within bounds := by
  constructor
  · show (dev.config ++ [_]).length ≤ _
    rw [List.length_append]
    exact hroom
  · intro config hmem
    rcases List.mem_append.mp hmem with hold | hnew
    · exact h.configs config hold
    · rw [List.mem_singleton.mp hnew]
      exact ⟨Nat.zero_le _, by simp⟩

theorem within_addInterface {config : UusbConfig} (h : config.Within bounds)
    (hroom : config.numInterfaces < bounds.interfaces config.descriptor)
    {interface : UusbInterface} (hinterface : interface.Within bounds) :
    ({ config with interface := config.interface ++ [interface] } :
      UusbConfig).Within bounds := by
  constructor
  · show (config.interface ++ [_]).length ≤ _
    rw [List.length_append]
    exact hroom
  · intro other hmem
    rcases List.mem_append.mp hmem with hold | hnew
    · exact h.interfaces other hold
    · rw [List.mem_singleton.mp hnew]
      exact hinterface

theorem within_addEndpoint {interface : UusbInterface}
    (hroom : interface.numEndpoints < bounds.endpoints interface.descriptor)
    (endpoint : UusbEndpoint) :
    ({ interface with endpoint := interface.endpoint ++ [endpoint] } :
      UusbInterface).Within bounds := by
  show (interface.endpoint ++ [_]).length ≤ _
  rw [List.length_append]
  exact hroom

end

/-!
## What every state has in common

The loop's pointers point at slots in use, the device descriptor is parsed
before anything else is recorded, and every list fits in its array.
-/

structure CursorsValid (st : UusbParse) : Prop where
  config : forall ci, st.config = some ci -> ci < st.dev.numConfigs
  interface : forall at_, st.interface = some at_ ->
    at_.1 < st.dev.numConfigs ∧ at_.2 < (st.dev.getConfig at_.1).numInterfaces

/-- The device descriptor as every visit to the start of the data parses it. -/
def deviceOf (mem : Nat -> UInt8) : UusbDeviceDescriptor :=
  storeFields mem uusbParseDeviceDescriptor 2 {}

/-- The device descriptor has been parsed, and cannot change any more. -/
structure DeviceParsed (mem : Nat -> UInt8) (st : UusbParse) : Prop where
  fits : fieldsSize uusbParseDeviceDescriptor ≤ sub32 (mem 0).toNat 2
  same : st.dev.descriptor = deviceOf mem
  atMost : (deviceOf mem).bNumConfigurations.toNat ≤ uusbMaxConfigs

structure WalkInv (mem : Nat -> UInt8) (st : UusbParse) : Prop where
  cursors : CursorsValid st
  device : (st.pos = 0 ∧ st.dev.config = []) ∨ DeviceParsed mem st
  arrays : st.dev.Within arraySizes

/-- Where the code takes another slot, the bounds leave room for it. -/
structure RoomFor (mem : Nat -> UInt8) (bounds : TreeBounds) (st : UusbParse) :
    Prop where
  config : dtTypeAt mem st = usbDtConfig -> st.dev.numConfigs < uusbMaxConfigs ->
    st.dev.numConfigs < bounds.configs st.dev.descriptor
  interface : dtTypeAt mem st = usbDtInterface ->
    forall ci, st.config = some ci ->
      (st.dev.getConfig ci).numInterfaces < uusbMaxInterfaces ->
      (st.dev.getConfig ci).numInterfaces <
        bounds.interfaces (st.dev.getConfig ci).descriptor
  endpoint : dtTypeAt mem st = usbDtEndpoint ->
    forall at_, st.interface = some at_ ->
      (st.dev.getInterface at_).numEndpoints < uusbMaxEndpoints ->
      (st.dev.getInterface at_).numEndpoints <
        bounds.endpoints (st.dev.getInterface at_).descriptor

theorem roomFor_arraySizes (mem : Nat -> UInt8) (st : UusbParse) :
    RoomFor mem arraySizes st :=
  ⟨fun _ h => h, fun _ _ _ h => h, fun _ _ _ h => h⟩

/-- The state a descriptor's handling leaves. -/
def DtCase.state : DtCase -> UusbParse
  | .next st => st
  | .bad st => st
  | .outOfArray st => st

section

variable {mem : Nat -> UInt8} {len : Nat} {st : UusbParse} {bounds : TreeBounds}

/-- Every field of the device record is stored, so what it held is forgotten. -/
theorem storeFields_device (p : Nat) (dd : UusbDeviceDescriptor) :
    storeFields mem uusbParseDeviceDescriptor p dd =
      storeFields mem uusbParseDeviceDescriptor p {} := by
  cases dd
  rfl

/-- The value a chain of fields that fits stores. -/
theorem dtGot_snd {D : Type} {fields : List (DtField D)}
    (h : DtFits mem st fields) (target : D) :
    (dtGot mem st fields target).2 = storeFields mem fields (st.pos + 2) target :=
  parseFields_target mem (dtParserAt_okay mem st) h

theorem afterDevice_descriptor (hpos : st.pos = 0)
    (h : DtFits mem st uusbParseDeviceDescriptor) :
    (afterDevice mem st).dev.descriptor = deviceOf mem := by
  have hgot := dtGot_snd h st.dev.descriptor
  rw [hpos, storeFields_device] at hgot
  exact hgot

/-- Parsing the device descriptor keeps the bounds: nothing has been recorded
yet, or it was parsed before and is the same again. -/
theorem within_afterDevice (hpos : st.pos = 0) (hwithin : st.dev.Within bounds)
    (hdevice : (st.pos = 0 ∧ st.dev.config = []) ∨ DeviceParsed mem st) :
    (afterDevice mem st).dev.Within bounds := by
  rcases hdevice with hnone | hparsed
  · have hlist : (afterDevice mem st).dev.config = [] := hnone.2
    constructor
    · rw [UusbDev.numConfigs, hlist]
      exact Nat.zero_le _
    · rw [hlist]
      simp
  · have hfits : DtFits mem st uusbParseDeviceDescriptor := by
      unfold DtFits dtLenAt
      rw [hpos]
      exact hparsed.fits
    have hsame : (afterDevice mem st).dev.descriptor = st.dev.descriptor := by
      rw [afterDevice_descriptor hpos hfits, hparsed.same]
    constructor
    · rw [hsame]
      exact hwithin.number
    · exact hwithin.configs

theorem within_afterOther {at_ : Nat × Nat} {interface : UusbInterface}
    {seen : List Access} (hcursors : CursorsValid st)
    (hat : st.interface = some at_) (hwithin : st.dev.Within bounds)
    (hdescriptor : interface.descriptor = (st.dev.getInterface at_).descriptor)
    (hendpoint : interface.endpoint = (st.dev.getInterface at_).endpoint) :
    (afterOther st at_ interface seen).dev.Within bounds := by
  have hvalid := hcursors.interface at_ hat
  have hold := (hwithin.configs _ (getConfig_mem hvalid.1)).interfaces _
    (getInterface_mem hvalid.2)
  apply within_modifyInterface hvalid.1 hvalid.2 hwithin
  unfold UusbInterface.Within UusbInterface.numEndpoints
  rw [hdescriptor, hendpoint]
  exact hold

/-- Handling a descriptor keeps the bounds it has room under. -/
theorem Handling.within {outcome : DtCase} (h : Handling mem st outcome)
    (hinv : WalkInv mem st) (hwithin : st.dev.Within bounds)
    (hroom : st.pos ≠ 0 -> RoomFor mem bounds st) :
    outcome.state.dev.Within bounds := by
  have hcursors := hinv.cursors
  cases h with
  | notDevice => exact hwithin
  | deviceShort hpos => exact within_afterDevice hpos hwithin hinv.device
  | deviceCount hpos => exact within_afterDevice hpos hwithin hinv.device
  | device hpos => exact within_afterDevice hpos hwithin hinv.device
  | secondDevice => exact hwithin
  | tooManyConfigs => exact hwithin
  | configOutside => exact hwithin
  | configShort hpos htype _ hfree =>
      exact within_addConfig hwithin ((hroom hpos).config htype hfree) _
  | config hpos htype _ hfree =>
      exact within_addConfig hwithin ((hroom hpos).config htype hfree) _
  | noConfig => exact hwithin
  | tooManyInterfaces => exact hwithin
  | interfaceOutside => exact hwithin
  | interfaceShort hpos htype hci _ hfree =>
      have hvalid := hcursors.config _ hci
      exact within_modifyConfig hvalid hwithin (within_addInterface
        (hwithin.configs _ (getConfig_mem hvalid))
        ((hroom hpos).interface htype _ hci hfree) (Nat.zero_le _))
  | interface hpos htype hci _ hfree =>
      have hvalid := hcursors.config _ hci
      exact within_modifyConfig hvalid hwithin (within_addInterface
        (hwithin.configs _ (getConfig_mem hvalid))
        ((hroom hpos).interface htype _ hci hfree) (Nat.zero_le _))
  | noInterface => exact hwithin
  | tooManyEndpoints => exact hwithin
  | endpointOutside => exact hwithin
  | endpointShort hpos htype hat _ hfree =>
      have hvalid := hcursors.interface _ hat
      exact within_modifyInterface hvalid.1 hvalid.2 hwithin
        (within_addEndpoint ((hroom hpos).endpoint htype _ hat hfree) _)
  | endpoint hpos htype hat _ hfree =>
      have hvalid := hcursors.interface _ hat
      exact within_modifyInterface hvalid.1 hvalid.2 hwithin
        (within_addEndpoint ((hroom hpos).endpoint htype _ hat hfree) _)
  | unclaimed => exact hwithin
  | ignored _ _ hat => exact within_afterOther hcursors hat hwithin rfl rfl
  | ccidShort _ _ hat => exact within_afterOther hcursors hat hwithin rfl rfl
  | ccid _ _ hat => exact within_afterOther hcursors hat hwithin rfl rfl

/-!
The pointers stay valid, as no slot is ever given back.
-/

theorem modifyInterface_numInterfaces {dev : UusbDev} {at_ : Nat × Nat}
    (h : at_.1 < dev.numConfigs) (f : UusbInterface -> UusbInterface) (ci : Nat) :
    ((dev.modifyInterface at_ f).getConfig ci).numInterfaces =
      (dev.getConfig ci).numInterfaces := by
  unfold UusbDev.modifyInterface
  by_cases heq : at_.1 = ci
  · subst heq
    rw [getConfig_modifyConfig h]
    exact List.length_modify f _ at_.2
  · rw [getConfig_modifyConfig_ne heq]

theorem getInterface_modifyInterface {dev : UusbDev} {at_ : Nat × Nat}
    (hci : at_.1 < dev.numConfigs)
    (hii : at_.2 < (dev.getConfig at_.1).numInterfaces)
    (f : UusbInterface -> UusbInterface) :
    (dev.modifyInterface at_ f).getInterface at_ = f (dev.getInterface at_) := by
  have hii' : at_.2 < ((dev.modifyInterface at_ f).getConfig at_.1).numInterfaces := by
    rw [modifyInterface_numInterfaces hci]
    exact hii
  rw [getInterface_eq hii', getInterface_eq hii]
  have hconfig : (dev.modifyInterface at_ f).getConfig at_.1 =
      { dev.getConfig at_.1 with
        interface := (dev.getConfig at_.1).interface.modify at_.2 f } :=
    getConfig_modifyConfig hci _
  simp only [hconfig]
  exact List.getElem_modify_eq f at_.2 _ _

theorem cursorsValid_modifyInterface (hcursors : CursorsValid st)
    {at_ : Nat × Nat} (hat : st.interface = some at_)
    {f : UusbInterface -> UusbInterface} {after : UusbParse}
    (hdev : after.dev = st.dev.modifyInterface at_ f)
    (hconfig : after.config = st.config)
    (hinterface : after.interface = st.interface) : CursorsValid after := by
  have hvalid := hcursors.interface at_ hat
  constructor
  · intro ci hci
    rw [hconfig] at hci
    rw [hdev]
    exact Nat.lt_of_lt_of_eq (hcursors.config ci hci)
      (modifyConfig_numConfigs _ _).symm
  · intro other hother
    rw [hinterface] at hother
    have hold := hcursors.interface other hother
    rw [hdev]
    refine ⟨Nat.lt_of_lt_of_eq hold.1 (modifyConfig_numConfigs _ _).symm, ?_⟩
    rw [modifyInterface_numInterfaces hvalid.1]
    exact hold.2

theorem cursorsValid_afterConfig :
    CursorsValid { afterConfig mem st with interface := none } := by
  constructor
  · intro ci hci
    injection hci with hci
    subst hci
    show st.dev.numConfigs < (st.dev.config ++ [_]).length
    rw [List.length_append]
    exact Nat.lt_succ_self _
  · intro at_ hat
    cases hat

theorem cursorsValid_afterInterface (hcursors : CursorsValid st) {ci : Nat}
    (hci : st.config = some ci) (type : Option UusbIntfType) :
    CursorsValid (afterInterface mem st ci type) := by
  have hvalid := hcursors.config ci hci
  have hnumber : (afterInterface mem st ci type).dev.numConfigs =
      st.dev.numConfigs := modifyConfig_numConfigs _ _
  constructor
  · intro other hother
    rw [hnumber]
    exact hcursors.config other hother
  · intro at_ hat
    injection hat with hat
    subst hat
    refine ⟨Nat.lt_of_lt_of_eq hvalid hnumber.symm, ?_⟩
    show _ < (UusbDev.getConfig (UusbDev.modifyConfig _ _ _) _).numInterfaces
    rw [getConfig_modifyConfig hvalid]
    show _ < (List.length (_ ++ [_]))
    rw [List.length_append]
    exact Nat.lt_succ_self _

theorem Handling.cursors {after : UusbParse} (h : Handling mem st (.next after))
    (hcursors : CursorsValid st) : CursorsValid after := by
  cases h with
  | device => exact ⟨hcursors.config, hcursors.interface⟩
  | config => exact cursorsValid_afterConfig
  | interface _ _ hci => exact cursorsValid_afterInterface hcursors hci _
  | endpoint _ _ hat =>
      exact cursorsValid_modifyInterface hcursors hat rfl rfl rfl
  | unclaimed => exact ⟨hcursors.config, hcursors.interface⟩
  | ignored _ _ hat =>
      exact cursorsValid_modifyInterface hcursors hat rfl rfl hat.symm
  | ccid _ _ hat =>
      exact cursorsValid_modifyInterface hcursors hat rfl rfl hat.symm

/-- Away from the start of the data the device descriptor stays as it is. -/
theorem Handling.descriptor {after : UusbParse}
    (h : Handling mem st (.next after)) (hpos : st.pos ≠ 0) :
    after.dev.descriptor = st.dev.descriptor := by
  cases h with
  | device hzero => exact absurd hzero hpos
  | config => rfl
  | interface => rfl
  | endpoint => rfl
  | unclaimed => rfl
  | ignored => rfl
  | ccid => rfl

theorem Handling.deviceParsed {after : UusbParse}
    (h : Handling mem st (.next after))
    (hdevice : (st.pos = 0 ∧ st.dev.config = []) ∨ DeviceParsed mem st) :
    DeviceParsed mem (advancePos mem st after) := by
  by_cases hpos : st.pos = 0
  · cases h with
    | device _ _ hfits _ hcount =>
        have hdescriptor := afterDevice_descriptor hpos hfits
        unfold DtFits dtLenAt at hfits
        rw [hpos] at hfits
        rw [hdescriptor] at hcount
        exact ⟨hfits, hdescriptor, hcount⟩
    | config hno => exact absurd hpos hno
    | interface hno => exact absurd hpos hno
    | endpoint hno => exact absurd hpos hno
    | unclaimed hno => exact absurd hpos hno
    | ignored hno => exact absurd hpos hno
    | ccid hno => exact absurd hpos hno
  · rcases hdevice with hstart | hparsed
    · exact absurd hstart.1 hpos
    · exact ⟨hparsed.fits, (h.descriptor hpos).trans hparsed.same, hparsed.atMost⟩

theorem walkInv_initial (mem : Nat -> UInt8) : WalkInv mem {} where
  cursors := ⟨by simp, by simp⟩
  device := Or.inl ⟨rfl, rfl⟩
  arrays := ⟨Nat.zero_le _, by simp⟩

theorem walkInv_again {next : UusbParse} (hinv : WalkInv mem st)
    (hstep : uusbParseStep mem len st = .again next) : WalkInv mem next := by
  rcases uusbParseStep_again hstep with ⟨_, after, hcase, hnext⟩
  have hhandling : Handling mem st (.next after) := by
    rw [← hcase]
    exact uusbParseCase_handling mem st
  have hcursors := hhandling.cursors hinv.cursors
  have hdevice := hhandling.deviceParsed hinv.device
  have harrays := hhandling.within hinv hinv.arrays
    fun _ => roomFor_arraySizes mem st
  rw [hnext]
  exact ⟨⟨hcursors.config, hcursors.interface⟩, Or.inr hdevice, harrays⟩

theorem walkInv_reaches (h : UusbParseReaches mem len st) : WalkInv mem st :=
  h.invariant (walkInv_initial mem) fun hinv hstep => walkInv_again hinv hstep

/-!
The position stays inside the data, and on all but the longest inputs it does
not wrap.
-/

theorem again_pos {next : UusbParse}
    (hstep : uusbParseStep mem len st = .again next) :
    next.pos = wrap32 (st.pos + dtLenAt mem st) := by
  rcases uusbParseStep_again hstep with ⟨_, after, _, hnext⟩
  rw [hnext]
  rfl

theorem pos_le (hst : UusbParseReaches mem len st) : st.pos ≤ len := by
  cases hst with
  | refl => exact Nat.zero_le len
  | tail _ hstep =>
      rw [again_pos hstep]
      exact Nat.not_lt.mp (uusbParseStep_again hstep).1.2

theorem next_pos {next : UusbParse} (hlen : len + 255 ≤ 2 ^ 32)
    (hst : UusbParseReaches mem len st)
    (hstep : uusbParseStep mem len st = .again next) :
    next.pos = st.pos + dtLenAt mem st := by
  have hpos := pos_le hst
  have hbyte : dtLenAt mem st < 256 := (mem st.pos).toNat_lt
  have hguard := (uusbParseStep_again hstep).1.1
  unfold uusbParseGuard wrap32 at hguard
  rw [again_pos hstep]
  apply wrap32_of_lt
  lia

/-!
The walk leaves its arrays where a counter has got to the size of the array, and is
not too large yet for the check in the code.
-/

/-- The descriptor at the current position takes a slot outside its array, as
its counter has got to the size of the array and is not too large yet for the
code. -/
def SlotOutside (mem : Nat -> UInt8) (st : UusbParse) : Prop :=
  st.pos ≠ 0 ∧
    ((dtTypeAt mem st = usbDtConfig ∧
        st.dev.numConfigs ≤ st.dev.descriptor.bNumConfigurations.toNat ∧
        uusbMaxConfigs ≤ st.dev.numConfigs) ∨
      (dtTypeAt mem st = usbDtInterface ∧ exists ci, st.config = some ci ∧
        (st.dev.getConfig ci).numInterfaces ≤
          (st.dev.getConfig ci).descriptor.bNumInterfaces.toNat ∧
        uusbMaxInterfaces ≤ (st.dev.getConfig ci).numInterfaces) ∨
      (dtTypeAt mem st = usbDtEndpoint ∧ exists at_, st.interface = some at_ ∧
        (st.dev.getInterface at_).numEndpoints ≤
          (st.dev.getInterface at_).descriptor.bNumEndpoints.toNat ∧
        uusbMaxEndpoints ≤ (st.dev.getInterface at_).numEndpoints))

theorem uusbParseCase_outOfArray_iff :
    (exists outside, uusbParseCase mem st = .outOfArray outside) ↔
      SlotOutside mem st := by
  constructor
  · intro h
    rcases h with ⟨outside, hcase⟩
    have hhandling := uusbParseCase_handling mem st
    rw [hcase] at hhandling
    cases hhandling with
    | configOutside hpos htype hdeclared hfull =>
        exact ⟨hpos, Or.inl ⟨htype, hdeclared, hfull⟩⟩
    | interfaceOutside hpos htype hci hdeclared hfull =>
        exact ⟨hpos, Or.inr (Or.inl ⟨htype, _, hci, hdeclared, hfull⟩)⟩
    | endpointOutside hpos htype hat hdeclared hfull =>
        exact ⟨hpos, Or.inr (Or.inr ⟨htype, _, hat, hdeclared, hfull⟩)⟩
  · intro h
    rcases h with ⟨hpos, hslot⟩
    refine ⟨dtHead mem st, ?_⟩
    rcases hslot with ⟨htype, hdeclared, hfull⟩ |
      ⟨htype, ci, hci, hdeclared, hfull⟩ | ⟨htype, at_, hat, hdeclared, hfull⟩
    · rw [uusbParseCase_config hpos htype, uusbConfigCase_eq (dtParserAt_okay mem st)]
      exact (if_neg (Nat.not_lt.mpr hdeclared)).trans (if_pos hfull)
    · rw [uusbParseCase_interface hpos htype,
        uusbInterfaceCase_some (dtParserAt_okay mem st)
          (show (dtHead mem st).config = some ci from hci)]
      exact (if_neg (Nat.not_lt.mpr hdeclared)).trans (if_pos hfull)
    · rw [uusbParseCase_endpoint hpos htype,
        uusbEndpointCase_some (dtParserAt_okay mem st)
          (show (dtHead mem st).interface = some at_ from hat)]
      exact (if_neg (Nat.not_lt.mpr hdeclared)).trans (if_pos hfull)

theorem uusbParseStep_outOfArray {after : UusbParse}
    (hstep : uusbParseStep mem len st = .finish (.outOfArray after)) :
    Handles mem len st ∧ SlotOutside mem st := by
  rcases uusbParseStep_finish hstep with hno | ⟨_, _, hno⟩ |
    ⟨hhandles, outside, ⟨_, hno⟩ | ⟨hcase, _⟩⟩
  · cases hno
  · cases hno
  · cases hno
  · exact ⟨hhandles, uusbParseCase_outOfArray_iff.mp ⟨outside, hcase⟩⟩

/-- A walk that has ended has not left its arrays if no round of it would. -/
theorem slotsInside_iff {fuel : Nat} {value : UusbParseEnd}
    (hrun : uusbParseDescriptors mem len fuel = some value) :
    (forall st, UusbParseReaches mem len st -> Handles mem len st ->
        ¬ SlotOutside mem st) ↔
      forall after, value ≠ .outOfArray after := by
  constructor
  · intro h after hvalue
    rcases Loop.run_last hrun with ⟨st, hst, hlast⟩
    rw [hvalue] at hlast
    rcases uusbParseStep_outOfArray hlast with ⟨hhandles, hslot⟩
    exact h st hst hhandles hslot
  · intro h st hst hhandles hslot
    rcases uusbParseCase_outOfArray_iff.mpr hslot with ⟨after, hcase⟩
    have hstep := uusbParseStep_of_handles hhandles
    rw [hcase] at hstep
    rcases Loop.run_of_reaches hst hstep with ⟨other, hother⟩
    -- both results are those of the longer of the two runs
    have h1 := Loop.run_mono hrun (Nat.le_max_left fuel other)
    have h2 := Loop.run_mono hother (Nat.le_max_right fuel other)
    rw [h1] at h2
    injection h2 with hvalue
    exact h after hvalue

end

end Usb
end UtokenDecrypt
