import UtokenDecrypt.Foundation.Loop
import UtokenDecrypt.Usb.DtParser

/-!
# The descriptor walk

`uusb_parse_descriptors` of `descriptor.c`, one round of its loop at a time.
The loop variables `config` and `interface` are pointers into the device tree;
here they are the indices they were taken at.

A round ends the walk with a return value, or by taking a slot that lies outside
its array, after which the C program's memory is no longer described by
anything.
-/

namespace UtokenDecrypt
namespace Usb

open Foundation

/-- The variables of the loop. -/
structure UusbParse where
  pos : Nat := 0
  dev : UusbDev := {}
  config : Option Nat := none
  interface : Option (Nat × Nat) := none
  seen : List Access := []
deriving DecidableEq

inductive UusbParseEnd where
  | returned (value : Bool) (st : UusbParse)
  | outOfArray (st : UusbParse)
deriving DecidableEq

/-- What `uusb_parse_descriptors` returns, if it does, and the tree it leaves. -/
def UusbParseEnd.result : UusbParseEnd -> Option Bool × UusbDev
  | .returned value st => (some value, st.dev)
  | .outOfArray st => (none, st.dev)

/-- How the part of the loop body behind the length check ends. -/
inductive DtCase where
  | next (st : UusbParse)
  | bad (st : UusbParse)
  | outOfArray (st : UusbParse)
deriving DecidableEq

def UusbDev.getConfig (dev : UusbDev) (ci : Nat) : UusbConfig :=
  dev.config.getD ci {}

def UusbDev.getInterface (dev : UusbDev) (at_ : Nat × Nat) : UusbInterface :=
  (dev.getConfig at_.1).interface.getD at_.2 {}

def UusbDev.modifyConfig (dev : UusbDev) (ci : Nat)
    (f : UusbConfig -> UusbConfig) : UusbDev :=
  { dev with config := dev.config.modify ci f }

def UusbDev.modifyInterface (dev : UusbDev) (at_ : Nat × Nat)
    (f : UusbInterface -> UusbInterface) : UusbDev :=
  dev.modifyConfig at_.1 fun config =>
    { config with interface := config.interface.modify at_.2 f }

section

variable {dev : UusbDev}

theorem getConfig_eq {ci : Nat} (h : ci < dev.config.length) :
    dev.getConfig ci = dev.config[ci] :=
  List.getD_eq_getElem _ _ h

theorem getInterface_eq {at_ : Nat × Nat}
    (h : at_.2 < (dev.getConfig at_.1).interface.length) :
    dev.getInterface at_ = (dev.getConfig at_.1).interface[at_.2] :=
  List.getD_eq_getElem _ _ h

theorem getConfig_mem {ci : Nat} (h : ci < dev.numConfigs) :
    dev.getConfig ci ∈ dev.config := by
  rw [getConfig_eq h]
  exact List.getElem_mem h

theorem getInterface_mem {at_ : Nat × Nat}
    (h : at_.2 < (dev.getConfig at_.1).numInterfaces) :
    dev.getInterface at_ ∈ (dev.getConfig at_.1).interface := by
  rw [getInterface_eq h]
  exact List.getElem_mem h

@[simp] theorem modifyConfig_numConfigs (ci : Nat) (f : UusbConfig -> UusbConfig) :
    (dev.modifyConfig ci f).numConfigs = dev.numConfigs :=
  List.length_modify f dev.config ci

@[simp] theorem modifyConfig_descriptor (ci : Nat) (f : UusbConfig -> UusbConfig) :
    (dev.modifyConfig ci f).descriptor = dev.descriptor := rfl

theorem getConfig_modifyConfig {ci : Nat} (h : ci < dev.numConfigs)
    (f : UusbConfig -> UusbConfig) :
    (dev.modifyConfig ci f).getConfig ci = f (dev.getConfig ci) := by
  have h' : ci < (dev.modifyConfig ci f).numConfigs := by
    rw [modifyConfig_numConfigs]
    exact h
  rw [getConfig_eq h', getConfig_eq h]
  exact List.getElem_modify_eq f ci dev.config _

theorem getConfig_modifyConfig_ne {ci cj : Nat} (h : ci ≠ cj)
    (f : UusbConfig -> UusbConfig) :
    (dev.modifyConfig ci f).getConfig cj = dev.getConfig cj := by
  simp only [UusbDev.getConfig, UusbDev.modifyConfig, List.getD,
    List.getElem?_modify_ne f dev.config h]

/-- Only the modified configuration can be a new one. -/
theorem mem_modifyConfig {ci : Nat} (h : ci < dev.numConfigs)
    {f : UusbConfig -> UusbConfig} {config : UusbConfig}
    (hmem : config ∈ (dev.modifyConfig ci f).config) :
    config ∈ dev.config ∨ config = f (dev.getConfig ci) := by
  rw [UusbDev.modifyConfig, List.modify_eq_take_cons_drop h,
    List.mem_append, List.mem_cons] at hmem
  rcases hmem with hmem | hmem | hmem
  · exact Or.inl (List.mem_of_mem_take hmem)
  · rw [getConfig_eq h]
    exact Or.inr hmem
  · exact Or.inl (List.mem_of_mem_drop hmem)

/-- Modifying an interface modifies one slot of its configuration. -/
theorem mem_modify_interface {config : UusbConfig} {ii : Nat}
    (h : ii < config.interface.length) {f : UusbInterface -> UusbInterface}
    {interface : UusbInterface}
    (hmem : interface ∈ config.interface.modify ii f) :
    interface ∈ config.interface ∨ interface = f config.interface[ii] := by
  rw [List.modify_eq_take_cons_drop h, List.mem_append, List.mem_cons] at hmem
  rcases hmem with hmem | hmem | hmem
  · exact Or.inl (List.mem_of_mem_take hmem)
  · exact Or.inr hmem
  · exact Or.inl (List.mem_of_mem_drop hmem)

end

section

variable (mem : Nat -> UInt8)

/-!
## Class descriptors
-/

/-- `uusb_handle_ccid_descriptor`, with the record of what it looks at. -/
def uusbHandleCcidDescriptor (data len : Nat) (seen : List Access) :
    Option CcidDescriptor × List Access :=
  let got := parseFields mem ccidParseUsbDescriptor
    (uusbDtParserInit data len seen) {}
  (if got.1 then some got.2.2 else none, got.2.1.seen)

def uusbInterfaceProcessDescriptor (interface : UusbInterface)
    (data len : Nat) (seen : List Access) :
    Bool × UusbInterface × List Access :=
  match interface.type with
  | none => (true, interface, seen)
  | some type =>
      match type.handleDescriptor with
      | none => (true, interface, seen)
      | some .uusbHandleCcidDescriptor =>
          match uusbHandleCcidDescriptor mem data len seen with
          | (some ccid, seen) => (true, { interface with ccid := some ccid }, seen)
          | (none, seen) => (false, interface, seen)

/-!
## The cases of the switch
-/

/-- The state after the device record has been written to. -/
def UusbParse.storeDevice (st : UusbParse) (dd : UusbDeviceDescriptor)
    (seen : List Access) : UusbParse :=
  { st with dev := { st.dev with descriptor := dd }, seen := seen }

/-- The state after the next configuration slot has been taken. -/
def UusbParse.addConfig (st : UusbParse) (cd : UusbConfigDescriptor)
    (seen : List Access) : UusbParse :=
  { st with
    dev := { st.dev with config := st.dev.config ++ [{ descriptor := cd }] }
    config := some st.dev.numConfigs
    seen := seen }

/-- The state after a configuration's next interface slot has been taken. -/
def UusbParse.addInterface (st : UusbParse) (ci : Nat)
    (interface : UusbInterface) (seen : List Access) : UusbParse :=
  { st with
    dev := st.dev.modifyConfig ci fun config =>
      { config with interface := config.interface ++ [interface] }
    interface := some (ci, (st.dev.getConfig ci).numInterfaces)
    seen := seen }

/-- The state after an interface's next endpoint slot has been taken. -/
def UusbParse.addEndpoint (st : UusbParse) (at_ : Nat × Nat)
    (ed : UusbEndpointDescriptor) (seen : List Access) : UusbParse :=
  { st with
    dev := st.dev.modifyInterface at_ fun interface =>
      { interface with endpoint := interface.endpoint ++ [{ descriptor := ed }] }
    seen := seen }

def uusbDeviceCase (dtType : UInt8) (dt : UusbDtParser) (st : UusbParse) : DtCase :=
  if dtType ≠ usbDtDevice then .bad st
  else
    let got := parseFields mem uusbParseDeviceDescriptor dt st.dev.descriptor
    let st := st.storeDevice got.2.2 got.2.1.seen
    if !got.1 then .bad st
    else if st.dev.descriptor.bNumConfigurations = 0 ∨
        st.dev.descriptor.bNumConfigurations.toNat > uusbMaxConfigs then .bad st
    else .next st

def uusbConfigCase (dt : UusbDtParser) (st : UusbParse) : DtCase :=
  if st.dev.numConfigs > st.dev.descriptor.bNumConfigurations.toNat then .bad st
  else if st.dev.numConfigs ≥ uusbMaxConfigs then .outOfArray st
  else
    let got := parseFields mem uusbParseConfigDescriptor dt {}
    let st := st.addConfig got.2.2 got.2.1.seen
    if !got.1 then .bad st else .next { st with interface := none }

def uusbInterfaceCase (dt : UusbDtParser) (st : UusbParse) : DtCase :=
  match st.config with
  | none => .bad st
  | some ci =>
      let config := st.dev.getConfig ci
      if config.numInterfaces > config.descriptor.bNumInterfaces.toNat then .bad st
      else if config.numInterfaces ≥ uusbMaxInterfaces then .outOfArray st
      else
        let got := parseFields mem uusbParseInterfaceDescriptor dt {}
        if !got.1 then .bad (st.addInterface ci { descriptor := got.2.2 } got.2.1.seen)
        else
          .next (st.addInterface ci
            { descriptor := got.2.2, type := uusbFindInterfaceType got.2.2.bInterface }
            got.2.1.seen)

def uusbEndpointCase (dt : UusbDtParser) (st : UusbParse) : DtCase :=
  match st.interface with
  | none => .bad st
  | some at_ =>
      let interface := st.dev.getInterface at_
      if interface.numEndpoints > interface.descriptor.bNumEndpoints.toNat then .bad st
      else if interface.numEndpoints ≥ uusbMaxEndpoints then .outOfArray st
      else
        let got := parseFields mem uusbParseEndpointDescriptor dt {}
        let st := st.addEndpoint at_ got.2.2 got.2.1.seen
        if !got.1 then .bad st else .next st

def uusbDefaultCase (dtLen : Nat) (st : UusbParse) : DtCase :=
  match st.interface with
  | none => .next st
  | some at_ =>
      let got := uusbInterfaceProcessDescriptor mem (st.dev.getInterface at_)
        st.pos dtLen st.seen
      let st := { st with
        dev := st.dev.modifyInterface at_ fun _ => got.2.1
        seen := got.2.2 }
      if got.1 then .next st else .bad st

def uusbDtCase (dtType : UInt8) (dtLen : Nat) (dt : UusbDtParser)
    (st : UusbParse) : DtCase :=
  if st.pos = 0 then uusbDeviceCase mem dtType dt st
  else if dtType = usbDtDevice then .bad st
  else if dtType = usbDtConfig then uusbConfigCase mem dt st
  else if dtType = usbDtInterface then uusbInterfaceCase mem dt st
  else if dtType = usbDtEndpoint then uusbEndpointCase mem dt st
  else uusbDefaultCase mem dtLen st

/-!
## The loop
-/

/-- The loop condition; `pos` is an `unsigned int`. -/
def uusbParseGuard (len : Nat) (st : UusbParse) : Prop :=
  wrap32 (st.pos + 2) < len

instance (len : Nat) (st : UusbParse) : Decidable (uusbParseGuard len st) :=
  inferInstanceAs (Decidable (_ < _))

def dtLenAt (st : UusbParse) : Nat :=
  (mem st.pos).toNat

def dtTypeAt (st : UusbParse) : UInt8 :=
  mem (wrap32 (st.pos + 1))

/-- The check for a descriptor that runs past the end. -/
def dtTooLong (len : Nat) (st : UusbParse) : Prop :=
  wrap32 (st.pos + dtLenAt mem st) > len

instance (len : Nat) (st : UusbParse) : Decidable (dtTooLong mem len st) :=
  inferInstanceAs (Decidable (_ > _))

/-- The record of reading the length and type bytes. -/
def seenHeader (st : UusbParse) : UusbParse :=
  { st with seen := st.seen ++ [.header st.pos (wrap32 (st.pos + 1))] }

/-- The parser set up on the descriptor at the current position. -/
def dtParserAt (st : UusbParse) : UusbDtParser :=
  uusbDtParserInit st.pos (dtLenAt mem st) (seenHeader st).seen

/-- The state once the parser has been set up. -/
def dtHead (st : UusbParse) : UusbParse :=
  { st with seen := (dtParserAt mem st).seen }

/-- The loop body behind the length check. -/
def uusbParseCase (st : UusbParse) : DtCase :=
  uusbDtCase mem (dtTypeAt mem st) (dtLenAt mem st) (dtParserAt mem st)
    (dtHead mem st)

def uusbParseStep (len : Nat) (st : UusbParse) : Round UusbParse UusbParseEnd :=
  if ¬ uusbParseGuard len st then .finish (.returned true st)
  else if dtTooLong mem len st then .finish (.returned false (seenHeader st))
  else
    match uusbParseCase mem st with
    | .next after =>
        .again { after with pos := wrap32 (st.pos + dtLenAt mem st) }
    | .bad after => .finish (.returned false after)
    | .outOfArray after => .finish (.outOfArray after)

/-- The walk over a device tree that is zeroed to begin with. -/
def uusbParseDescriptors (len fuel : Nat) : Option UusbParseEnd :=
  Loop.run (uusbParseStep mem len) fuel {}

/-- The states the walk passes through. -/
def UusbParseReaches (len : Nat) (st : UusbParse) : Prop :=
  Loop.Reaches (uusbParseStep mem len) {} st

/-!
## What one round does
-/

/-- The round handles a descriptor: there is one, and it is not too long. -/
def Handles (len : Nat) (st : UusbParse) : Prop :=
  uusbParseGuard len st ∧ ¬ dtTooLong mem len st

/-- The state at the head of the next round. -/
def advancePos (st after : UusbParse) : UusbParse :=
  { after with pos := wrap32 (st.pos + dtLenAt mem st) }

variable {mem} {len : Nat} {st : UusbParse} {dt : UusbDtParser}

/-!
The conditions of the five cases, with the success of a field parser replaced by
what it depends on.
-/

theorem uusbDeviceCase_eq (hokay : dt.okay = true) (dtType : UInt8) :
    uusbDeviceCase mem dtType dt st =
      let got := (parseFields mem uusbParseDeviceDescriptor dt st.dev.descriptor).2
      let after := st.storeDevice got.2 got.1.seen
      if dtType = usbDtDevice then
        if fieldsSize uusbParseDeviceDescriptor ≤ dt.left then
          if got.2.bNumConfigurations = 0 ∨
              got.2.bNumConfigurations.toNat > uusbMaxConfigs then .bad after
          else .next after
        else .bad after
      else .bad st := by
  simp only [uusbDeviceCase, parseFields_fst mem hokay, Bool.not_eq_true',
    decide_eq_false_iff_not, ite_not, ne_eq]
  rfl

theorem uusbConfigCase_eq (hokay : dt.okay = true) :
    uusbConfigCase mem dt st =
      let got := (parseFields mem uusbParseConfigDescriptor dt {}).2
      let after := st.addConfig got.2 got.1.seen
      if st.dev.numConfigs > st.dev.descriptor.bNumConfigurations.toNat then .bad st
      else if st.dev.numConfigs ≥ uusbMaxConfigs then .outOfArray st
      else if fieldsSize uusbParseConfigDescriptor ≤ dt.left then
        .next { after with interface := none }
      else .bad after := by
  simp only [uusbConfigCase, parseFields_fst mem hokay, Bool.not_eq_true',
    decide_eq_false_iff_not, ite_not]

theorem uusbInterfaceCase_none (h : st.config = none) :
    uusbInterfaceCase mem dt st = .bad st := by
  rw [uusbInterfaceCase, h]

theorem uusbInterfaceCase_some (hokay : dt.okay = true) {ci : Nat}
    (h : st.config = some ci) :
    uusbInterfaceCase mem dt st =
      let got := (parseFields mem uusbParseInterfaceDescriptor dt {}).2
      let config := st.dev.getConfig ci
      if config.numInterfaces > config.descriptor.bNumInterfaces.toNat then .bad st
      else if config.numInterfaces ≥ uusbMaxInterfaces then .outOfArray st
      else if fieldsSize uusbParseInterfaceDescriptor ≤ dt.left then
        .next (st.addInterface ci
          { descriptor := got.2, type := uusbFindInterfaceType got.2.bInterface }
          got.1.seen)
      else .bad (st.addInterface ci { descriptor := got.2 } got.1.seen) := by
  simp only [uusbInterfaceCase, h, parseFields_fst mem hokay, Bool.not_eq_true',
    decide_eq_false_iff_not, ite_not]

theorem uusbEndpointCase_none (h : st.interface = none) :
    uusbEndpointCase mem dt st = .bad st := by
  rw [uusbEndpointCase, h]

theorem uusbEndpointCase_some (hokay : dt.okay = true) {at_ : Nat × Nat}
    (h : st.interface = some at_) :
    uusbEndpointCase mem dt st =
      let got := (parseFields mem uusbParseEndpointDescriptor dt {}).2
      let interface := st.dev.getInterface at_
      let after := st.addEndpoint at_ got.2 got.1.seen
      if interface.numEndpoints > interface.descriptor.bNumEndpoints.toNat then .bad st
      else if interface.numEndpoints ≥ uusbMaxEndpoints then .outOfArray st
      else if fieldsSize uusbParseEndpointDescriptor ≤ dt.left then .next after
      else .bad after := by
  simp only [uusbEndpointCase, h, parseFields_fst mem hokay, Bool.not_eq_true',
    decide_eq_false_iff_not, ite_not]

/-- The function an interface's class descriptors are handed to. -/
def UusbInterface.handler (interface : UusbInterface) : Option HandleDescriptor :=
  interface.type.bind UusbIntfType.handleDescriptor

theorem uusbInterfaceProcessDescriptor_none {interface : UusbInterface}
    {data dtLen : Nat} {seen : List Access} (h : interface.handler = none) :
    uusbInterfaceProcessDescriptor mem interface data dtLen seen =
      (true, interface, seen) := by
  unfold UusbInterface.handler at h
  unfold uusbInterfaceProcessDescriptor
  cases htype : interface.type with
  | none => rfl
  | some type =>
      rw [htype, Option.bind_some] at h
      simp only [h]

theorem uusbHandleCcidDescriptor_eq {data dtLen : Nat} {seen : List Access}
    (hinit : uusbDtParserInit data dtLen seen = dt) (hokay : dt.okay = true) :
    uusbHandleCcidDescriptor mem data dtLen seen =
      let got := (parseFields mem ccidParseUsbDescriptor dt {}).2
      (if fieldsSize ccidParseUsbDescriptor ≤ dt.left then some got.2 else none,
        got.1.seen) := by
  simp only [uusbHandleCcidDescriptor, hinit, parseFields_fst mem hokay,
    decide_eq_true_eq]

theorem uusbInterfaceProcessDescriptor_ccid {interface : UusbInterface}
    {data dtLen : Nat} {seen : List Access}
    (hinit : uusbDtParserInit data dtLen seen = dt) (hokay : dt.okay = true)
    (h : interface.handler = some .uusbHandleCcidDescriptor) :
    uusbInterfaceProcessDescriptor mem interface data dtLen seen =
      let got := (parseFields mem ccidParseUsbDescriptor dt {}).2
      if fieldsSize ccidParseUsbDescriptor ≤ dt.left then
        (true, { interface with ccid := some got.2 }, got.1.seen)
      else (false, interface, got.1.seen) := by
  unfold UusbInterface.handler at h
  unfold uusbInterfaceProcessDescriptor
  cases htype : interface.type with
  | none =>
      rw [htype] at h
      cases h
  | some type =>
      rw [htype, Option.bind_some] at h
      simp only [h, uusbHandleCcidDescriptor_eq hinit hokay]
      by_cases hfits : fieldsSize ccidParseUsbDescriptor ≤ dt.left
      · simp only [if_pos hfits]
      · simp only [if_neg hfits]

end

/-- The memory behind a byte string that is followed by other bytes. -/
def memoryOf (bytes : List UInt8) (beyond : Nat -> UInt8) : Nat -> UInt8 :=
  fun i => bytes.getD i (beyond i)

end Usb
end UtokenDecrypt
