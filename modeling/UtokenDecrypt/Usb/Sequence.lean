import UtokenDecrypt.Usb.RoundTrip

/-!
# The walk over whole descriptors

`uusb_parse_descriptors` goes from position to position and reads bytes.  Over
data that consists of descriptors it does what a walk does that is handed one
descriptor after the other, and that knows of the tree and of the places in it
where the next descriptor goes, but of no positions and no memory.
-/

namespace UtokenDecrypt
namespace Usb

open Foundation

/-!
## Descriptors
-/

/-- A descriptor of any type whose length its length byte can hold. -/
structure AnyDt where
  dtType : UInt8
  body : List UInt8
  short : ShortBody body

def AnyDt.bytes (dt : AnyDt) : List UInt8 :=
  dtBytes dt.dtType dt.body

/-- The descriptor has room for all fields of a chain. -/
abbrev AnyDt.Holds (dt : AnyDt) {D : Type} (fields : List (DtField D)) : Prop :=
  fieldsSize fields ≤ dt.body.length

/-- The record a chain of fields leaves.  A field for which there are too few
bytes is stored as zero, and the fields behind it are not stored at all. -/
def loadPrefix {D : Type} : List (DtField D) -> List UInt8 -> D -> D
  | [], _, target => target
  | field :: rest, bytes, target =>
      if field.size ≤ bytes.length then
        loadPrefix rest (bytes.drop field.size)
          (field.load (bytes.take field.size) target)
      else field.load [] target

/-- The record of a CCID descriptor, or of what is taken for one. -/
def AnyDt.ccid (dt : AnyDt) : CcidDescriptor :=
  loadPrefix ccidParseUsbDescriptor dt.body {}

/-!
## One descriptor
-/

/-- How a descriptor is handled: it is taken, it is refused, or there is no slot
for it. -/
inductive Handled where
  | taken (b : Build)
  | refused (dev : UusbDev)
  | outside (dev : UusbDev)

/-- Go on behind a descriptor that is taken. -/
def Handled.andThen (handled : Handled) (next : Build -> Handled) : Handled :=
  match handled with
  | taken b => next b
  | refused dev => refused dev
  | outside dev => outside dev

def UusbDev.addInterface (dev : UusbDev) (ci : Nat) (interface : UusbInterface) :
    UusbDev :=
  dev.modifyConfig ci fun config =>
    { config with interface := config.interface ++ [interface] }

def UusbDev.addEndpoint (dev : UusbDev) (at_ : Nat × Nat)
    (ed : UusbEndpointDescriptor) : UusbDev :=
  dev.modifyInterface at_ fun interface =>
    { interface with endpoint := interface.endpoint ++ [{ descriptor := ed }] }

def UusbDev.setCcid (dev : UusbDev) (at_ : Nat × Nat)
    (ccid : Option CcidDescriptor) : UusbDev :=
  dev.modifyInterface at_ fun interface => { interface with ccid := ccid }

namespace Build

/-- Nothing has been parsed yet. -/
def start : Build where
  dev := {}
  config := none
  interface := none

def handleDevice (b : Build) (dt : AnyDt) : Handled :=
  if dt.dtType = usbDtDevice then
    let dd := loadPrefix uusbParseDeviceDescriptor dt.body b.dev.descriptor
    let dev := { b.dev with descriptor := dd }
    if dt.Holds uusbParseDeviceDescriptor then
      if dd.bNumConfigurations = 0 ∨ dd.bNumConfigurations.toNat > uusbMaxConfigs then
        .refused dev
      else .taken { b with dev := dev }
    else .refused dev
  else .refused b.dev

def handleConfig (b : Build) (dt : AnyDt) : Handled :=
  if b.dev.numConfigs > b.dev.descriptor.bNumConfigurations.toNat then .refused b.dev
  else if b.dev.numConfigs ≥ uusbMaxConfigs then .outside b.dev
  else
    let cd := loadPrefix uusbParseConfigDescriptor dt.body {}
    let dev := { b.dev with config := b.dev.config ++ [{ descriptor := cd }] }
    if dt.Holds uusbParseConfigDescriptor then
      .taken { dev := dev, config := some b.dev.numConfigs, interface := none }
    else .refused dev

def handleInterface (b : Build) (dt : AnyDt) : Handled :=
  match b.config with
  | none => .refused b.dev
  | some ci =>
      let config := b.dev.getConfig ci
      if config.numInterfaces > config.descriptor.bNumInterfaces.toNat then
        .refused b.dev
      else if config.numInterfaces ≥ uusbMaxInterfaces then .outside b.dev
      else
        let id := loadPrefix uusbParseInterfaceDescriptor dt.body {}
        if dt.Holds uusbParseInterfaceDescriptor then
          .taken
            { b with
              dev := b.dev.addInterface ci
                { descriptor := id, type := uusbFindInterfaceType id.bInterface }
              interface := some (ci, config.numInterfaces) }
        else .refused (b.dev.addInterface ci { descriptor := id })

def handleEndpoint (b : Build) (dt : AnyDt) : Handled :=
  match b.interface with
  | none => .refused b.dev
  | some at_ =>
      let interface := b.dev.getInterface at_
      if interface.numEndpoints > interface.descriptor.bNumEndpoints.toNat then
        .refused b.dev
      else if interface.numEndpoints ≥ uusbMaxEndpoints then .outside b.dev
      else
        let dev := b.dev.addEndpoint at_
          (loadPrefix uusbParseEndpointDescriptor dt.body {})
        if dt.Holds uusbParseEndpointDescriptor then .taken { b with dev := dev }
        else .refused dev

/-- A descriptor of another type concerns an interface with a handler only. -/
def handleOther (b : Build) (dt : AnyDt) : Handled :=
  match b.interface with
  | none => .taken b
  | some at_ =>
      if (b.dev.getInterface at_).handler = none then .taken b
      else if dt.Holds ccidParseUsbDescriptor then
        .taken { b with dev := b.dev.setCcid at_ (some dt.ccid) }
      else .refused b.dev

/-- A descriptor behind the first one. -/
def handle (b : Build) (dt : AnyDt) : Handled :=
  if dt.dtType = usbDtDevice then .refused b.dev
  else if dt.dtType = usbDtConfig then b.handleConfig dt
  else if dt.dtType = usbDtInterface then b.handleInterface dt
  else if dt.dtType = usbDtEndpoint then b.handleEndpoint dt
  else b.handleOther dt

def walk : Build -> List AnyDt -> Handled
  | b, [] => .taken b
  | b, dt :: rest => (b.handle dt).andThen fun next => walk next rest

end Build

/-- The walk over all descriptors of a device. -/
def walkDts : List AnyDt -> Handled
  | [] => .taken Build.start
  | first :: rest => (Build.start.handleDevice first).andThen fun b => b.walk rest

/-!
Every way a descriptor behind the first one can be taken.
-/

inductive Takes (b : Build) (dt : AnyDt) : Build -> Prop where
  | config (htype : dt.dtType = usbDtConfig) (cd : UusbConfigDescriptor) :
      Takes b dt
        { dev := { b.dev with config := b.dev.config ++ [{ descriptor := cd }] }
          config := some b.dev.numConfigs
          interface := none }
  | interface (htype : dt.dtType = usbDtInterface) {ci : Nat}
      (hci : b.config = some ci) (id : UusbInterfaceDescriptor) :
      Takes b dt
        { b with
          dev := b.dev.addInterface ci
            { descriptor := id, type := uusbFindInterfaceType id.bInterface }
          interface := some (ci, (b.dev.getConfig ci).numInterfaces) }
  | endpoint (htype : dt.dtType = usbDtEndpoint) {at_ : Nat × Nat}
      (hat : b.interface = some at_)
      (hdeclared : (b.dev.getInterface at_).numEndpoints ≤
        (b.dev.getInterface at_).descriptor.bNumEndpoints.toNat)
      (harray : (b.dev.getInterface at_).numEndpoints < uusbMaxEndpoints)
      (hholds : dt.Holds uusbParseEndpointDescriptor) (ed : UusbEndpointDescriptor) :
      Takes b dt { b with dev := b.dev.addEndpoint at_ ed }
  | passed (htype : IsOther dt.dtType)
      (hnone : forall at_, b.interface = some at_ ->
        (b.dev.getInterface at_).handler = none) :
      Takes b dt b
  | ccid (htype : IsOther dt.dtType) {at_ : Nat × Nat} (hat : b.interface = some at_)
      (hhandler : (b.dev.getInterface at_).handler ≠ none)
      (hholds : dt.Holds ccidParseUsbDescriptor) :
      Takes b dt { b with dev := b.dev.setCcid at_ (some dt.ccid) }

section

variable {b next : Build} {dt : AnyDt}

theorem takes_of_handleConfig (htype : dt.dtType = usbDtConfig)
    (h : b.handleConfig dt = .taken next) : Takes b dt next := by
  unfold Build.handleConfig at h
  split at h
  · cases h
  · split at h
    · cases h
    · simp only at h
      split at h
      · cases h
        exact Takes.config htype _
      · cases h

theorem takes_of_handleInterface (htype : dt.dtType = usbDtInterface)
    (h : b.handleInterface dt = .taken next) : Takes b dt next := by
  unfold Build.handleInterface at h
  split at h
  · cases h
  · rename_i ci hci
    simp only at h
    split at h
    · cases h
    · split at h
      · cases h
      · split at h
        · cases h
          exact Takes.interface htype hci _
        · cases h

theorem takes_of_handleEndpoint (htype : dt.dtType = usbDtEndpoint)
    (h : b.handleEndpoint dt = .taken next) : Takes b dt next := by
  unfold Build.handleEndpoint at h
  split at h
  · cases h
  · rename_i at_ hat
    simp only at h
    split at h
    · cases h
    · rename_i hdeclared
      split at h
      · cases h
      · rename_i harray
        split at h
        · rename_i hholds
          cases h
          exact Takes.endpoint htype hat (Nat.not_lt.mp hdeclared)
            (Nat.not_le.mp harray) hholds _
        · cases h

theorem takes_of_handleOther (htype : IsOther dt.dtType)
    (h : b.handleOther dt = .taken next) : Takes b dt next := by
  unfold Build.handleOther at h
  split at h
  · rename_i hnone
    cases h
    exact Takes.passed htype fun at_ hat => by rw [hnone] at hat; cases hat
  · rename_i at_ hat
    split at h
    · rename_i hhandler
      cases h
      refine Takes.passed htype fun other hother => ?_
      rw [hat] at hother
      injection hother with hother
      rw [← hother]
      exact hhandler
    · rename_i hhandler
      split at h
      · rename_i hholds
        cases h
        exact Takes.ccid htype hat hhandler hholds
      · cases h

theorem takes_of_handle (h : b.handle dt = .taken next) : Takes b dt next := by
  unfold Build.handle at h
  split_ifs at h with hdevice hconfig hinterface hendpoint
  · exact takes_of_handleConfig hconfig h
  · exact takes_of_handleInterface hinterface h
  · exact takes_of_handleEndpoint hendpoint h
  · exact takes_of_handleOther ⟨hdevice, hconfig, hinterface, hendpoint⟩ h

end

/-!
## Fields in a body
-/

section

variable {D : Type}

theorem DtField.parse_target_of_lt (mem : Nat -> UInt8) (field : DtField D)
    {dtp : UusbDtParser} (target : D) (h : dtp.left < field.size) :
    (field.parse mem dtp target).2.2 = field.load [] target := by
  cases field with
  | skipByte => rfl
  | skipWord16 => rfl
  | byte store =>
      simp only [parse, uusbDtGetByte]
      rw [uusbDtGetInteger_of_lt mem (n := 1) h]
      rfl
  | word16 store =>
      simp only [parse, uusbDtGetWord16]
      rw [uusbDtGetInteger_of_lt mem (n := 2) h]
      rfl
  | word32 store =>
      simp only [parse, uusbDtGetWord32]
      rw [uusbDtGetInteger_of_lt mem (n := 4) h]
      rfl

/-- What a chain of fields stores depends on the bytes the parser is set up on. -/
theorem parseFields_loadPrefix (mem : Nat -> UInt8) {fields : List (DtField D)}
    {dtp : UusbDtParser} {bytes : List UInt8} (hokay : dtp.okay = true)
    (hbytes : bytesAt mem dtp.data dtp.left = bytes) (target : D) :
    (parseFields mem fields dtp target).2.2 = loadPrefix fields bytes target := by
  induction fields generalizing dtp bytes target with
  | nil => rfl
  | cons field rest ih =>
      have hleft : bytes.length = dtp.left := by
        rw [← hbytes, bytesAt_length]
      rw [loadPrefix, hleft]
      by_cases hfits : field.size ≤ dtp.left
      · have hsplit : bytesAt mem dtp.data dtp.left =
            bytesAt mem dtp.data field.size ++
              bytesAt mem (dtp.data + field.size) (dtp.left - field.size) := by
          rw [← bytesAt_append, Nat.add_sub_cancel' hfits]
        have hlength := bytesAt_length mem dtp.data field.size
        rw [if_pos hfits, parseFields, DtField.parse_of_le mem hokay hfits]
        have htake : bytes.take field.size = bytesAt mem dtp.data field.size := by
          rw [← hbytes, hsplit, List.take_left' hlength]
        have hload : field.storeAt mem dtp.data target =
            field.load (bytes.take field.size) target := by
          rw [htake]
          cases field <;> rfl
        rw [← hload]
        apply ih ((field.behind_okay dtp).trans hokay)
        rw [DtField.behind_data, DtField.behind_left, ← hbytes, hsplit,
          List.drop_left' hlength]
      · rw [if_neg hfits, parseFields]
        have hlost := DtField.parse_of_lt mem target (Nat.not_le.mp hfits)
        have htarget := field.parse_target_of_lt mem target (Nat.not_le.mp hfits)
        rcases hparse : field.parse mem dtp target with ⟨okay, after, stored⟩
        rw [hparse] at hlost htarget
        simp only at hlost htarget
        rw [hlost.1, htarget]

end

/-!
## The code on one descriptor
-/

def DtCase.handled : DtCase -> Handled
  | .next st => .taken st.build
  | .bad st => .refused st.dev
  | .outOfArray st => .outside st.dev

section

variable {mem : Nat -> UInt8} {len : Nat} {st : UusbParse} {dt : AnyDt}

/-- The walk is at the descriptor. -/
def AtAnyDt (mem : Nat -> UInt8) (len : Nat) (st : UusbParse) (dt : AnyDt) : Prop :=
  AtDt mem len st dt.dtType dt.body

theorem AtAnyDt.left_eq (h : AtAnyDt mem len st dt) :
    (dtParserAt mem st).left = dt.body.length := by
  change sub32 (dtLenAt mem st) 2 = _
  rw [h.len_eq, sub32_of_le (Nat.le_add_right 2 _), Nat.add_sub_cancel_left]

/-- A field parser succeeds and stores as the body says. -/
theorem AtAnyDt.parse (h : AtAnyDt mem len st dt) {D : Type}
    (fields : List (DtField D)) (target : D) :
    (parseFields mem fields (dtParserAt mem st) target).2.2 =
      loadPrefix fields dt.body target := by
  apply parseFields_loadPrefix mem (dtParserAt_okay mem st)
  rw [h.left_eq]
  exact h.body_eq

@[simp] theorem dtHead_dev : (dtHead mem st).dev = st.dev := rfl

@[simp] theorem dtHead_config : (dtHead mem st).config = st.config := rfl

@[simp] theorem dtHead_interface : (dtHead mem st).interface = st.interface := rfl

@[simp] theorem build_dev : st.build.dev = st.dev := rfl

@[simp] theorem build_config : st.build.config = st.config := rfl

@[simp] theorem build_interface : st.build.interface = st.interface := rfl

theorem AtAnyDt.handled_device (h : AtAnyDt mem len st dt) (hpos : st.pos = 0) :
    (uusbParseCase mem st).handled = st.build.handleDevice dt := by
  rw [uusbParseCase_device hpos, uusbDeviceCase_eq (dtParserAt_okay mem st),
    Build.handleDevice, h.type_eq]
  simp only [h.left_eq, h.parse, apply_ite DtCase.handled]
  rfl

theorem AtAnyDt.handled_config (h : AtAnyDt mem len st dt) :
    (uusbConfigCase mem (dtParserAt mem st) (dtHead mem st)).handled =
      st.build.handleConfig dt := by
  rw [uusbConfigCase_eq (dtParserAt_okay mem st), Build.handleConfig]
  simp only [h.left_eq, h.parse, apply_ite DtCase.handled]
  rfl

theorem AtAnyDt.handled_interface (h : AtAnyDt mem len st dt) :
    (uusbInterfaceCase mem (dtParserAt mem st) (dtHead mem st)).handled =
      st.build.handleInterface dt := by
  rw [Build.handleInterface]
  cases hconfig : st.config with
  | none =>
      rw [uusbInterfaceCase_none (dtHead_config.trans hconfig)]
      simp only [build_config, hconfig]
      rfl
  | some ci =>
      rw [uusbInterfaceCase_some (dtParserAt_okay mem st) (dtHead_config.trans hconfig)]
      simp only [build_config, hconfig, h.left_eq, h.parse, apply_ite DtCase.handled]
      simp only [DtCase.handled, UusbParse.build, UusbParse.addInterface,
        dtHead_config, hconfig]
      rfl

theorem AtAnyDt.handled_endpoint (h : AtAnyDt mem len st dt) :
    (uusbEndpointCase mem (dtParserAt mem st) (dtHead mem st)).handled =
      st.build.handleEndpoint dt := by
  rw [Build.handleEndpoint]
  cases hinterface : st.interface with
  | none =>
      rw [uusbEndpointCase_none (dtHead_interface.trans hinterface)]
      simp only [build_interface, hinterface]
      rfl
  | some at_ =>
      rw [uusbEndpointCase_some (dtParserAt_okay mem st)
        (dtHead_interface.trans hinterface)]
      simp only [build_interface, hinterface, h.left_eq, h.parse,
        apply_ite DtCase.handled]
      simp only [DtCase.handled, UusbParse.build, UusbParse.addEndpoint,
        dtHead_interface, hinterface]
      rfl

/-- Putting an interface back where it came from changes nothing. -/
theorem modifyInterface_self {dev : UusbDev} {at_ : Nat × Nat}
    (hci : at_.1 < dev.numConfigs)
    (hii : at_.2 < (dev.getConfig at_.1).numInterfaces) :
    (dev.modifyInterface at_ fun _ => dev.getInterface at_) = dev := by
  have hself := modifyInterface_const hci hii id
  change _ = dev.modifyInterface at_ fun _ => dev.getInterface at_ at hself
  rw [← hself]
  simp only [UusbDev.modifyInterface, UusbDev.modifyConfig, List.modify_id]
  exact congrArg (fun config => { dev with config := config })
    (List.modify_id _ dev.config)

theorem AtAnyDt.ccid_eq (h : AtAnyDt mem len st dt) : (ccidGot mem st).2 = dt.ccid := by
  have hparse : (parseFields mem ccidParseUsbDescriptor (uusbDtParserInit st.pos
      (dtLenAt mem st) (dtHead mem st).seen) {}).2.2 =
      loadPrefix ccidParseUsbDescriptor dt.body {} := by
    apply parseFields_loadPrefix mem rfl
    have hleft := h.left_eq
    change sub32 (dtLenAt mem st) 2 = _ at hleft
    change bytesAt mem (st.pos + 2) (sub32 (dtLenAt mem st) 2) = _
    rw [hleft]
    exact h.body_eq
  exact hparse

theorem AtAnyDt.fits_iff (h : AtAnyDt mem len st dt) {D : Type}
    (fields : List (DtField D)) : DtFits mem st fields ↔ dt.Holds fields := by
  have hleft := h.left_eq
  change sub32 (dtLenAt mem st) 2 = _ at hleft
  rw [DtFits, hleft]

theorem AtAnyDt.handled_other (h : AtAnyDt mem len st dt) (hpos : st.pos ≠ 0)
    (htype : IsOther dt.dtType) (hcursors : CursorsValid st) :
    (uusbParseCase mem st).handled = st.build.handleOther dt := by
  rw [← h.type_eq] at htype
  rw [Build.handleOther]
  cases hat : st.interface with
  | none =>
      rw [uusbParseCase_unclaimed hpos htype hat]
      simp only [build_interface, hat]
      rfl
  | some at_ =>
      have hvalid := hcursors.interface at_ hat
      simp only [build_interface, hat, build_dev]
      cases hhandler : (st.dev.getInterface at_).handler with
      | none =>
          rw [uusbParseCase_ignored hpos htype hat hhandler, if_pos rfl,
            DtCase.handled, build_afterOther hat,
            modifyInterface_self hvalid.1 hvalid.2]
          rfl
      | some handler =>
          have hcases := uusbParseCase_handled hpos htype hat hhandler
          rw [if_neg (Option.some_ne_none _)]
          by_cases hfits : dt.Holds ccidParseUsbDescriptor
          · have hset : st.dev.setCcid at_ (some dt.ccid) = st.dev.modifyInterface at_ fun _ =>
                { st.dev.getInterface at_ with ccid := some dt.ccid } :=
              modifyInterface_const hvalid.1 hvalid.2 _
            rw [hcases.1 ((h.fits_iff _).mpr hfits), if_pos hfits, DtCase.handled,
              build_afterOther hat, h.ccid_eq, hset]
            simp only [UusbParse.build, hat]
          · rw [hcases.2 (mt (h.fits_iff _).mp hfits), if_neg hfits]
            exact congrArg Handled.refused (modifyInterface_self hvalid.1 hvalid.2)

/-- Behind the first descriptor the code handles descriptors as the walk over
descriptors does. -/
theorem AtAnyDt.handled (h : AtAnyDt mem len st dt) (hpos : st.pos ≠ 0)
    (hcursors : CursorsValid st) :
    (uusbParseCase mem st).handled = st.build.handle dt := by
  have htype := h.type_eq
  rw [Build.handle]
  split_ifs with hdevice hconfig hinterface hendpoint
  · have hpos' : (dtHead mem st).pos ≠ 0 := hpos
    rw [uusbParseCase, uusbDtCase, if_neg hpos', htype, if_pos hdevice]
    rfl
  · rw [uusbParseCase_config hpos (htype.trans hconfig)]
    exact h.handled_config
  · rw [uusbParseCase_interface hpos (htype.trans hinterface)]
    exact h.handled_interface
  · rw [uusbParseCase_endpoint hpos (htype.trans hendpoint)]
    exact h.handled_endpoint
  · exact h.handled_other hpos ⟨hdevice, hconfig, hinterface, hendpoint⟩ hcursors

end

/-!
## The code on a sequence of descriptors
-/

theorem AnyDt.bytes_length (dt : AnyDt) : dt.bytes.length = 2 + dt.body.length := by
  rw [AnyDt.bytes, dtBytes, List.length_cons, List.length_cons]
  lia

def UusbParseEnd.handled : UusbParseEnd -> Handled
  | .returned true st => .taken st.build
  | .returned false st => .refused st.dev
  | .outOfArray st => .outside st.dev

/-- The rest of the data consists of descriptors and some bytes behind them, and
at each descriptor there are more than the two bytes that make the walk go on. -/
structure Ahead (mem : Nat -> UInt8) (len : Nat) (st : UusbParse)
    (dts : List AnyDt) (rest : List UInt8) : Prop where
  inside : st.pos ≤ len
  bytes : bytesAt mem st.pos (len - st.pos) = dts.flatMap AnyDt.bytes ++ rest
  more : forall front back, dts = front ++ back -> back ≠ [] ->
    2 < (back.flatMap AnyDt.bytes ++ rest).length
  small : len < 2 ^ 32

section

variable {mem : Nat -> UInt8} {len : Nat} {st next : UusbParse} {dt : AnyDt}
  {dts : List AnyDt} {rest : List UInt8}

theorem Ahead.length_eq (h : Ahead mem len st dts rest) :
    len = st.pos + (dts.flatMap AnyDt.bytes ++ rest).length := by
  have hinside := h.inside
  have hlength := congrArg List.length h.bytes
  rw [bytesAt_length] at hlength
  lia

theorem Ahead.split (h : Ahead mem len st (dt :: dts) rest) :
    bytesAt mem st.pos (2 + dt.body.length) = dt.bytes ∧
      bytesAt mem (st.pos + dt.bytes.length) (len - (st.pos + dt.bytes.length)) =
        dts.flatMap AnyDt.bytes ++ rest := by
  have hbytes := h.bytes
  have hlength := h.length_eq
  rw [List.flatMap_cons, List.append_assoc] at hbytes hlength
  rw [List.length_append] at hlength
  have hsplit : bytesAt mem st.pos (len - st.pos) =
      bytesAt mem st.pos dt.bytes.length ++
        bytesAt mem (st.pos + dt.bytes.length) (len - (st.pos + dt.bytes.length)) := by
    rw [← bytesAt_append]
    congr 1
    lia
  rw [hsplit] at hbytes
  rw [← dt.bytes_length]
  exact List.append_inj hbytes (bytesAt_length _ _ _)

theorem Ahead.at (h : Ahead mem len st (dt :: dts) rest) : AtAnyDt mem len st dt := by
  have hlength := h.length_eq
  have hmore := h.more [] (dt :: dts) rfl (List.cons_ne_nil _ _)
  have hbytes := dt.bytes_length
  refine ⟨h.split.1, dt.short, ?_, by lia, h.small⟩
  rw [List.flatMap_cons, List.append_assoc, List.length_append] at hlength
  lia

theorem Ahead.tail (h : Ahead mem len st (dt :: dts) rest)
    (hpos : next.pos = st.pos + dt.bytes.length) : Ahead mem len next dts rest where
  inside := by
    have hlength := h.length_eq
    rw [List.flatMap_cons, List.append_assoc, List.length_append] at hlength
    lia
  bytes := by
    rw [hpos]
    exact h.split.2
  more := by
    intro front back hsplit
    exact h.more (dt :: front) back (by rw [hsplit, List.cons_append])
  small := h.small

/-- The round at the next descriptor. -/
theorem Ahead.step_taken (h : Ahead mem len st (dt :: dts) rest) {b : Build}
    (htaken : (uusbParseCase mem st).handled = .taken b) :
    exists next, uusbParseStep mem len st = .again next ∧ next.build = b ∧
      next.pos = st.pos + dt.bytes.length ∧ Ahead mem len next dts rest := by
  cases hcase : uusbParseCase mem st with
  | next after =>
      rw [hcase] at htaken
      injection htaken with hbuild
      rcases h.at.step hcase with ⟨next, hstep, hnext, hpos⟩
      rw [← dt.bytes_length] at hpos
      exact ⟨next, hstep, hnext.trans hbuild, hpos, h.tail hpos⟩
  | bad after =>
      rw [hcase] at htaken
      cases htaken
  | outOfArray after =>
      rw [hcase] at htaken
      cases htaken

theorem Ahead.step_ended (h : Ahead mem len st (dt :: dts) rest) {ended : Handled}
    (hhandled : (uusbParseCase mem st).handled = ended)
    (hended : forall b, ended ≠ .taken b) :
    exists value, uusbParseStep mem len st = .finish value ∧ value.handled = ended := by
  have hstep := uusbParseStep_of_handles h.at.handles
  cases hcase : uusbParseCase mem st with
  | next after =>
      rw [hcase] at hhandled
      exact absurd hhandled.symm (hended _)
  | bad after =>
      rw [hcase] at hstep hhandled
      exact ⟨_, hstep, hhandled⟩
  | outOfArray after =>
      rw [hcase] at hstep hhandled
      exact ⟨_, hstep, hhandled⟩

/-- A round and the rounds behind it. -/
theorem Ahead.run_cons (h : Ahead mem len st (dt :: dts) rest) {behind : Build -> Handled}
    (hbehind : forall next, uusbParseStep mem len st = .again next ->
      next.pos = st.pos + dt.bytes.length -> Ahead mem len next dts rest ->
      exists fuel value, Loop.run (uusbParseStep mem len) fuel next = some value ∧
        value.handled = behind next.build) :
    exists fuel value, Loop.run (uusbParseStep mem len) fuel st = some value ∧
      value.handled = (uusbParseCase mem st).handled.andThen behind := by
  cases hhandled : (uusbParseCase mem st).handled with
  | taken b =>
      rcases h.step_taken hhandled with ⟨next, hstep, hbuild, hpos, htail⟩
      rcases hbehind next hstep hpos htail with ⟨fuel, value, hrun, hvalue⟩
      rw [hbuild] at hvalue
      exact ⟨fuel + 1, value, (Loop.run_again hstep fuel).trans hrun, hvalue⟩
  | refused dev =>
      rcases h.step_ended hhandled (fun _ hbad => by cases hbad) with
        ⟨value, hstep, hvalue⟩
      exact ⟨1, value, Loop.run_finish hstep 0, hvalue⟩
  | outside dev =>
      rcases h.step_ended hhandled (fun _ hbad => by cases hbad) with
        ⟨value, hstep, hvalue⟩
      exact ⟨1, value, Loop.run_finish hstep 0, hvalue⟩

/-!
The walk over the rest of the data, and what it has taken in every state it
passes through.
-/

theorem Build.walk_append (b : Build) (front back : List AnyDt) :
    b.walk (front ++ back) = (b.walk front).andThen fun next => next.walk back := by
  induction front generalizing b with
  | nil => rfl
  | cons dt front ih =>
      rw [List.cons_append, walk, walk]
      cases b.handle dt with
      | taken next => exact ih next
      | refused dev => rfl
      | outside dev => rfl

theorem walkDts_append {front : List AnyDt} (hne : front ≠ []) (back : List AnyDt) :
    walkDts (front ++ back) = (walkDts front).andThen fun b => b.walk back := by
  cases front with
  | nil => exact absurd rfl hne
  | cons first front =>
      rw [List.cons_append, walkDts, walkDts]
      cases Build.start.handleDevice first with
      | taken b => exact b.walk_append front back
      | refused dev => rfl
      | outside dev => rfl

/-- At the end of the data the loop's condition fails, unless `pos + 2` wraps. -/
theorem Ahead.ends (h : Ahead mem len st [] []) (hend : len + 2 < 2 ^ 32) :
    ¬ uusbParseGuard len st := by
  have hlength := h.length_eq
  change len = st.pos + 0 at hlength
  unfold uusbParseGuard
  rw [wrap32_of_lt (by lia)]
  lia

theorem Ahead.handled (h : Ahead mem len st (dt :: dts) rest) (hpos : st.pos ≠ 0)
    (hst : UusbParseReaches mem len st) :
    (uusbParseCase mem st).handled = st.build.handle dt :=
  h.at.handled hpos (walkInv_reaches hst).cursors

theorem Ahead.walk (h : Ahead mem len st dts []) (hend : len + 2 < 2 ^ 32)
    (hst : UusbParseReaches mem len st) (hpos : st.pos ≠ 0) :
    exists fuel value, Loop.run (uusbParseStep mem len) fuel st = some value ∧
      value.handled = st.build.walk dts := by
  induction dts generalizing st with
  | nil =>
      have hstep : uusbParseStep mem len st = _ := uusbParseStep_of_end (h.ends hend)
      exact ⟨1, .returned true st, Loop.run_finish hstep 0, rfl⟩
  | cons dt dts ih =>
      rw [Build.walk, ← h.handled hpos hst]
      refine h.run_cons ?_
      intro next hstep hnext htail
      exact ih htail (hst.tail hstep) (by lia)

end

section

variable {dts front back : List AnyDt}

/-- Data that consists of descriptors longer than two bytes. -/
structure Sequence (dts : List AnyDt) : Prop where
  long : forall dt, dt ∈ dts -> dt.body ≠ []
  small : (dts.flatMap AnyDt.bytes).length + 2 < 2 ^ 32

def dtsMemory (dts : List AnyDt) (beyond : Nat -> UInt8) : Nat -> UInt8 :=
  memoryOf (dts.flatMap AnyDt.bytes) beyond

def dtsLength (dts : List AnyDt) : Nat :=
  (dts.flatMap AnyDt.bytes).length

theorem Sequence.ahead (h : Sequence dts) (beyond : Nat -> UInt8) :
    Ahead (dtsMemory dts beyond) (dtsLength dts) {} dts [] where
  inside := Nat.zero_le _
  bytes := by
    rw [List.append_nil]
    exact bytesAt_memoryOf _ beyond (Nat.zero_add _)
  more := by
    intro front back hsplit hback
    cases back with
    | nil => exact absurd rfl hback
    | cons dt back =>
        have hbody := List.length_pos_iff.mpr (h.long dt (by rw [hsplit]; simp))
        have hbytes := dt.bytes_length
        rw [List.append_nil, List.flatMap_cons, List.length_append]
        lia
  small := by
    have hsmall := h.small
    rw [dtsLength]
    lia

/-- The walk over the bytes is the walk over the descriptors. -/
theorem Sequence.parse (h : Sequence dts) (beyond : Nat -> UInt8) :
    exists fuel value,
      uusbParseDescriptors (dtsMemory dts beyond) (dtsLength dts) fuel = some value ∧
        value.handled = walkDts dts := by
  have hahead := h.ahead beyond
  cases dts with
  | nil =>
      have hstep : uusbParseStep (dtsMemory [] beyond) (dtsLength []) {} = _ :=
        uusbParseStep_of_end (hahead.ends h.small)
      exact ⟨1, .returned true {}, Loop.run_finish hstep 0, rfl⟩
  | cons first rest =>
      have hhandled : (uusbParseCase _ {}).handled = Build.start.handleDevice first :=
        hahead.at.handled_device rfl
      rw [walkDts, ← hhandled]
      refine hahead.run_cons ?_
      intro next hstep hnext htail
      have hlength := first.bytes_length
      exact htail.walk h.small (Loop.Reaches.refl.tail hstep) (by lia)

theorem dtsLength_append (front back : List AnyDt) :
    dtsLength (front ++ back) = dtsLength front + dtsLength back := by
  rw [dtsLength, List.flatMap_append, List.length_append]
  rfl

theorem dtsLength_eq_zero_iff : dtsLength dts = 0 ↔ dts = [] := by
  cases dts with
  | nil => simp [dtsLength]
  | cons dt rest =>
      have hlength := dt.bytes_length
      rw [dtsLength, List.flatMap_cons, List.length_append]
      constructor
      · intro hzero
        lia
      · intro hnil
        cases hnil

/-- Sequences of descriptors that start the same data and are equally long are
the same. -/
theorem front_unique {other rest : List AnyDt}
    (hsplit : front ++ back = other ++ rest)
    (hlength : dtsLength front = dtsLength other) : front = other := by
  rcases List.append_eq_append_iff.mp hsplit with
    ⟨mid, hother, _⟩ | ⟨mid, hfront, _⟩
  · rw [hother, dtsLength_append] at hlength
    have hmid := dtsLength_eq_zero_iff.mp (by lia : dtsLength mid = 0)
    rw [hother, hmid, List.append_nil]
  · rw [hfront, dtsLength_append] at hlength
    have hmid := dtsLength_eq_zero_iff.mp (by lia : dtsLength mid = 0)
    rw [hfront, hmid, List.append_nil]

theorem Handled.andThen_walk_nil (handled : Handled) :
    (handled.andThen fun b => b.walk []) = handled := by
  cases handled <;> rfl

section

variable {mem : Nat -> UInt8} {len : Nat} {st : UusbParse} {dt : AnyDt}

/-- Where the walk has taken some descriptors, the next one is handled as the
last one of a longer sequence. -/
theorem Ahead.handled_snoc (h : Ahead mem len st (dt :: dts) [])
    (hst : UusbParseReaches mem len st) (hpos : st.pos = dtsLength front)
    (hfront : walkDts front = .taken st.build) :
    (uusbParseCase mem st).handled = walkDts (front ++ [dt]) := by
  by_cases hnil : front = []
  · rw [hnil] at hpos hfront
    injection hfront with hbuild
    rw [h.at.handled_device hpos, ← hbuild, hnil]
    exact (Handled.andThen_walk_nil _).symm
  · have hnonzero : st.pos ≠ 0 := by
      rw [hpos]
      exact mt dtsLength_eq_zero_iff.mp hnil
    rw [h.handled hnonzero hst, walkDts_append hnil, hfront]
    exact (Handled.andThen_walk_nil _).symm

end

/-- The walk gets behind descriptors that are taken. -/
theorem Sequence.reaches (h : Sequence (front ++ back)) (beyond : Nat -> UInt8)
    {b : Build} (htaken : walkDts front = .taken b) :
    exists st,
      UusbParseReaches (dtsMemory (front ++ back) beyond) (dtsLength (front ++ back))
        st ∧
      st.build = b ∧ st.pos = dtsLength front ∧
      Ahead (dtsMemory (front ++ back) beyond) (dtsLength (front ++ back)) st back [] := by
  induction front using List.reverseRecOn generalizing back b with
  | nil =>
      injection htaken with hbuild
      exact ⟨{}, Loop.Reaches.refl, hbuild, rfl, h.ahead beyond⟩
  | append_singleton front dt ih =>
      rw [List.append_assoc, List.singleton_append] at h ⊢
      have hfirst : exists first, walkDts front = .taken first := by
        by_cases hnil : front = []
        · rw [hnil]
          exact ⟨_, rfl⟩
        · rw [walkDts_append hnil] at htaken
          cases hfront : walkDts front with
          | taken first => exact ⟨first, rfl⟩
          | refused dev =>
              rw [hfront] at htaken
              cases htaken
          | outside dev =>
              rw [hfront] at htaken
              cases htaken
      rcases hfirst with ⟨first, hfirst⟩
      rcases ih h hfirst with ⟨st, hst, hbuild, hpos, hahead⟩
      rw [← hbuild] at hfirst
      have hhandled := hahead.handled_snoc hst hpos hfirst
      rcases hahead.step_taken (hhandled.trans htaken) with
        ⟨next, hstep, hnext, hnextPos, htail⟩
      refine ⟨next, hst.tail hstep, hnext, ?_, htail⟩
      rw [hnextPos, hpos, dtsLength_append]
      simp [dtsLength]

/-- In every state the walk passes through it has taken the descriptors in front
of its position. -/
theorem Sequence.reached (h : Sequence dts) (beyond : Nat -> UInt8) {st : UusbParse}
    (hst : UusbParseReaches (dtsMemory dts beyond) (dtsLength dts) st) :
    exists front back, dts = front ++ back ∧ st.pos = dtsLength front ∧
      walkDts front = .taken st.build ∧
      Ahead (dtsMemory dts beyond) (dtsLength dts) st back [] := by
  induction hst with
  | refl => exact ⟨[], dts, rfl, rfl, rfl, h.ahead beyond⟩
  | @tail st next hst hstep ih =>
      rcases ih with ⟨front, back, hsplit, hpos, hfront, hahead⟩
      cases back with
      | nil => exact absurd (uusbParseStep_again hstep).1.1 (hahead.ends h.small)
      | cons dt back =>
          have hhandled := hahead.handled_snoc hst hpos hfront
          rcases uusbParseStep_again hstep with ⟨_, after, hcase, _⟩
          have htaken : (uusbParseCase (dtsMemory dts beyond) st).handled =
              .taken after.build := by
            rw [hcase]
            rfl
          rcases hahead.step_taken htaken with ⟨other, hother, hbuild, hotherPos, htail⟩
          rw [hstep] at hother
          injection hother with hnext
          rw [← hnext] at hbuild hotherPos htail
          refine ⟨front ++ [dt], back, ?_, ?_, ?_, htail⟩
          · rw [hsplit, List.append_assoc, List.singleton_append]
          · rw [hotherPos, hpos, dtsLength_append]
            simp [dtsLength]
          · rw [← hhandled, htaken, hbuild]

end

end Usb
end UtokenDecrypt
