import UtokenDecrypt.Usb.CcidRecord

/-!
# Chains of descriptors

Where the descriptors of the data start, and what may stand behind what, said of
the bytes alone.  A descriptor counts as a configuration, interface or endpoint
by its type byte.  What stands in front of a position is the list of the
positions the descriptors there start at, the last one first.
-/

namespace UtokenDecrypt
namespace Usb

open Foundation

section

variable (mem : Nat -> UInt8)

def typeAt (p : Nat) : UInt8 :=
  mem (wrap32 (p + 1))

/-- The descriptor that starts at the position has all the fields, by its length
byte. -/
def FieldsFit {D : Type} (fields : List (DtField D)) (p : Nat) : Prop :=
  fieldsSize fields ≤ sub32 (mem p).toNat 2

def configAt (p : Nat) : UusbConfigDescriptor :=
  storeFields mem uusbParseConfigDescriptor (p + 2) {}

def interfaceAt (p : Nat) : UusbInterfaceDescriptor :=
  storeFields mem uusbParseInterfaceDescriptor (p + 2) {}

/-- What handles the class descriptors of the interface at the position. -/
def handlerAt (p : Nat) : Option HandleDescriptor :=
  (uusbFindInterfaceType (interfaceAt mem p).bInterface).bind
    UusbIntfType.handleDescriptor

def configsIn (before : List Nat) : List Nat :=
  before.filter fun p => typeAt mem p = usbDtConfig

def currentConfig (before : List Nat) : Option Nat :=
  before.find? fun p => typeAt mem p = usbDtConfig

/-- What stands behind the last configuration descriptor. -/
def underConfig (before : List Nat) : List Nat :=
  before.takeWhile fun p => typeAt mem p ≠ usbDtConfig

def interfacesIn (before : List Nat) : List Nat :=
  (underConfig mem before).filter fun p => typeAt mem p = usbDtInterface

def currentInterface (before : List Nat) : Option Nat :=
  (underConfig mem before).find? fun p => typeAt mem p = usbDtInterface

/-- The endpoints behind the last interface descriptor. -/
def endpointsIn (before : List Nat) : List Nat :=
  ((underConfig mem before).takeWhile fun p => typeAt mem p ≠ usbDtInterface).filter
    fun p => typeAt mem p = usbDtEndpoint

/-- One more of a kind may follow: there are no more of them than declared, and
fewer than the array has slots. -/
def RoomBehind (number declared size : Nat) : Prop :=
  number ≤ declared ∧ number < size

/-- The array is full, and there are still no more in it than declared. -/
def FullBehind (number declared size : Nat) : Prop :=
  number ≤ declared ∧ size ≤ number

/-- The descriptor at the position may stand behind the others. -/
@[mk_iff mayStand_iff]
structure MayStand (before : List Nat) (p : Nat) : Prop where
  first : p = 0 ↔ typeAt mem p = usbDtDevice
  device : p = 0 -> FieldsFit mem uusbParseDeviceDescriptor p ∧
    (deviceOf mem).bNumConfigurations ≠ 0 ∧
    (deviceOf mem).bNumConfigurations.toNat ≤ uusbMaxConfigs
  config : typeAt mem p = usbDtConfig ->
    RoomBehind (configsIn mem before).length
      (deviceOf mem).bNumConfigurations.toNat uusbMaxConfigs ∧
    FieldsFit mem uusbParseConfigDescriptor p
  interface : typeAt mem p = usbDtInterface -> exists c,
    currentConfig mem before = some c ∧
    RoomBehind (interfacesIn mem before).length
      (configAt mem c).bNumInterfaces.toNat uusbMaxInterfaces ∧
    FieldsFit mem uusbParseInterfaceDescriptor p
  endpoint : typeAt mem p = usbDtEndpoint -> exists i,
    currentInterface mem before = some i ∧
    RoomBehind (endpointsIn mem before).length
      (interfaceAt mem i).bNumEndpoints.toNat uusbMaxEndpoints ∧
    FieldsFit mem uusbParseEndpointDescriptor p
  other : IsOther (typeAt mem p) -> forall i, currentInterface mem before = some i ->
    handlerAt mem i = some .uusbHandleCcidDescriptor ->
    FieldsFit mem ccidParseUsbDescriptor p

/-- The descriptor at the position is one too many for its array, and not for what
is declared. -/
def Overruns (before : List Nat) (p : Nat) : Prop :=
  p ≠ 0 ∧
    ((typeAt mem p = usbDtConfig ∧
        FullBehind (configsIn mem before).length
          (deviceOf mem).bNumConfigurations.toNat uusbMaxConfigs) ∨
      (typeAt mem p = usbDtInterface ∧ exists c, currentConfig mem before = some c ∧
        FullBehind (interfacesIn mem before).length
          (configAt mem c).bNumInterfaces.toNat uusbMaxInterfaces) ∨
      (typeAt mem p = usbDtEndpoint ∧ exists i,
        currentInterface mem before = some i ∧
        FullBehind (endpointsIn mem before).length
          (interfaceAt mem i).bNumEndpoints.toNat uusbMaxEndpoints))

variable (len : Nat)

/-- More than two bytes are left at the position. -/
def MoreLeft (p : Nat) : Prop :=
  wrap32 (p + 2) < len

/-- A descriptor of the data starts at the position, by its length byte. -/
def StartsAt (p : Nat) : Prop :=
  MoreLeft len p ∧ wrap32 (p + (mem p).toNat) ≤ len

/-- The data is a chain of descriptors up to the position. -/
inductive Chain : List Nat -> Nat -> Prop where
  | start : Chain [] 0
  | behind {before : List Nat} {p : Nat} :
      Chain before p -> StartsAt mem len p -> MayStand mem before p ->
      Chain (p :: before) (wrap32 (p + (mem p).toNat))

end

/-!
## What stands in front of one more descriptor
-/

section

variable {mem : Nat -> UInt8} {len : Nat} {before : List Nat} {p : Nat}

theorem currentConfig_config (h : typeAt mem p = usbDtConfig) :
    currentConfig mem (p :: before) = some p := by
  simp [currentConfig, h]

theorem underConfig_config (h : typeAt mem p = usbDtConfig) :
    underConfig mem (p :: before) = [] := by
  simp [underConfig, h]

theorem configsIn_config (h : typeAt mem p = usbDtConfig) :
    configsIn mem (p :: before) = p :: configsIn mem before := by
  simp [configsIn, h]

theorem currentConfig_other (h : typeAt mem p ≠ usbDtConfig) :
    currentConfig mem (p :: before) = currentConfig mem before := by
  simp [currentConfig, h]

theorem configsIn_other (h : typeAt mem p ≠ usbDtConfig) :
    configsIn mem (p :: before) = configsIn mem before := by
  simp [configsIn, h]

theorem underConfig_other (h : typeAt mem p ≠ usbDtConfig) :
    underConfig mem (p :: before) = p :: underConfig mem before := by
  simp [underConfig, h]

theorem interfacesIn_other (h : typeAt mem p ≠ usbDtConfig)
    (hinterface : typeAt mem p ≠ usbDtInterface) :
    interfacesIn mem (p :: before) = interfacesIn mem before := by
  simp [interfacesIn, underConfig_other h, hinterface]

theorem currentInterface_other (h : typeAt mem p ≠ usbDtConfig)
    (hinterface : typeAt mem p ≠ usbDtInterface) :
    currentInterface mem (p :: before) = currentInterface mem before := by
  simp [currentInterface, underConfig_other h, hinterface]

theorem endpointsIn_other (h : typeAt mem p ≠ usbDtConfig)
    (hinterface : typeAt mem p ≠ usbDtInterface)
    (hendpoint : typeAt mem p ≠ usbDtEndpoint) :
    endpointsIn mem (p :: before) = endpointsIn mem before := by
  simp [endpointsIn, underConfig_other h, hinterface, hendpoint]

theorem interfacesIn_interface (h : typeAt mem p = usbDtInterface) :
    interfacesIn mem (p :: before) = p :: interfacesIn mem before := by
  have hconfig : typeAt mem p ≠ usbDtConfig := by
    rw [h]
    decide
  simp [interfacesIn, underConfig_other hconfig, h]

theorem currentInterface_interface (h : typeAt mem p = usbDtInterface) :
    currentInterface mem (p :: before) = some p := by
  have hconfig : typeAt mem p ≠ usbDtConfig := by
    rw [h]
    decide
  simp [currentInterface, underConfig_other hconfig, h]

theorem endpointsIn_interface (h : typeAt mem p = usbDtInterface) :
    endpointsIn mem (p :: before) = [] := by
  have hconfig : typeAt mem p ≠ usbDtConfig := by
    rw [h]
    decide
  simp [endpointsIn, underConfig_other hconfig, h]

theorem endpointsIn_endpoint (h : typeAt mem p = usbDtEndpoint) :
    endpointsIn mem (p :: before) = p :: endpointsIn mem before := by
  have hconfig : typeAt mem p ≠ usbDtConfig := by
    rw [h]
    decide
  have hkind : usbDtEndpoint ≠ usbDtInterface := by decide
  simp [endpointsIn, underConfig_other hconfig, h, hkind]

end

/-!
## The states of the walk
-/

theorem getD_concat_length {α : Type} (xs : List α) (x d : α) :
    (xs ++ [x]).getD xs.length d = x := by
  rw [List.getD_append_right _ _ _ _ (Nat.le_refl _), Nat.sub_self]
  rfl

/-- The state holds what stands in front of its position. -/
structure Stands (mem : Nat -> UInt8) (before : List Nat) (st : UusbParse) : Prop where
  number : st.dev.numConfigs = (configsIn mem before).length
  config : st.config.map (fun ci => ((st.dev.getConfig ci).descriptor,
      (st.dev.getConfig ci).numInterfaces)) =
    (currentConfig mem before).map fun c =>
      (configAt mem c, (interfacesIn mem before).length)
  interface : st.interface.map (fun at_ => ((st.dev.getInterface at_).descriptor,
      (st.dev.getInterface at_).handler, (st.dev.getInterface at_).numEndpoints)) =
    (currentInterface mem before).map fun i =>
      (interfaceAt mem i, handlerAt mem i, (endpointsIn mem before).length)

section

variable {mem : Nat -> UInt8} {len : Nat} {before : List Nat} {st : UusbParse}

theorem stands_initial (mem : Nat -> UInt8) : Stands mem [] {} :=
  ⟨rfl, rfl, rfl⟩

theorem Stands.noConfig (h : Stands mem before st) (hnone : st.config = none) :
    currentConfig mem before = none := by
  have hconfig := h.config
  rw [hnone] at hconfig
  exact Option.map_eq_none_iff.mp hconfig.symm

theorem Stands.someConfig (h : Stands mem before st) {ci : Nat}
    (hci : st.config = some ci) : exists c, currentConfig mem before = some c ∧
      (st.dev.getConfig ci).descriptor = configAt mem c ∧
      (st.dev.getConfig ci).numInterfaces = (interfacesIn mem before).length := by
  have hconfig := h.config
  rw [hci] at hconfig
  rcases Option.map_eq_some_iff.mp hconfig.symm with ⟨c, hc, heq⟩
  injection heq with hdescriptor hnumber
  exact ⟨c, hc, hdescriptor.symm, hnumber.symm⟩

theorem Stands.noInterface (h : Stands mem before st) (hnone : st.interface = none) :
    currentInterface mem before = none := by
  have hinterface := h.interface
  rw [hnone] at hinterface
  exact Option.map_eq_none_iff.mp hinterface.symm

theorem Stands.someInterface (h : Stands mem before st) {at_ : Nat × Nat}
    (hat : st.interface = some at_) : exists i, currentInterface mem before = some i ∧
      (st.dev.getInterface at_).descriptor = interfaceAt mem i ∧
      (st.dev.getInterface at_).handler = handlerAt mem i ∧
      (st.dev.getInterface at_).numEndpoints = (endpointsIn mem before).length := by
  have hinterface := h.interface
  rw [hat] at hinterface
  rcases Option.map_eq_some_iff.mp hinterface.symm with ⟨i, hi, heq⟩
  injection heq with hdescriptor hothers
  injection hothers with hhandler hnumber
  exact ⟨i, hi, hdescriptor.symm, hhandler.symm, hnumber.symm⟩

/-!
One descriptor more in front, by what it is.
-/

/-- A descriptor that leaves the tree's shape and the pointers as they are. -/
theorem Stands.passed (h : Stands mem before st) {after : UusbParse}
    (hconfig : typeAt mem st.pos ≠ usbDtConfig)
    (hinterface : typeAt mem st.pos ≠ usbDtInterface)
    (hendpoint : typeAt mem st.pos ≠ usbDtEndpoint)
    (hdev : after.dev.config = st.dev.config) (hci : after.config = st.config)
    (hat : after.interface = st.interface) : Stands mem (st.pos :: before) after := by
  have hconfigs : after.dev.getConfig = st.dev.getConfig := by
    funext ci
    rw [UusbDev.getConfig, hdev, UusbDev.getConfig]
  have hinterfaces : after.dev.getInterface = st.dev.getInterface := by
    funext at_
    rw [UusbDev.getInterface, hconfigs, UusbDev.getInterface]
  constructor
  · rw [configsIn_other hconfig, UusbDev.numConfigs, hdev]
    exact h.number
  · rw [hci, hconfigs, currentConfig_other hconfig,
      interfacesIn_other hconfig hinterface]
    exact h.config
  · rw [hat, hinterfaces, currentInterface_other hconfig hinterface,
      endpointsIn_other hconfig hinterface hendpoint]
    exact h.interface

theorem Stands.addConfig (h : Stands mem before st)
    (htype : typeAt mem st.pos = usbDtConfig)
    (hfits : DtFits mem st uusbParseConfigDescriptor) :
    Stands mem (st.pos :: before) { afterConfig mem st with interface := none } := by
  have hnew : (afterConfig mem st).dev.getConfig st.dev.numConfigs =
      { descriptor := configAt mem st.pos } := by
    rw [configAt, ← dtGot_snd hfits]
    exact getD_concat_length _ _ _
  constructor
  · rw [configsIn_config htype]
    show (st.dev.config ++ [_]).length = _
    rw [List.length_append, List.length_cons]
    exact congrArg (· + 1) h.number
  · rw [currentConfig_config htype, interfacesIn, underConfig_config htype]
    show (some st.dev.numConfigs).map _ = _
    rw [Option.map_some, Option.map_some]
    simp only [hnew]
    rfl
  · rw [currentInterface, underConfig_config htype]
    rfl

theorem Stands.addInterface (h : Stands mem before st) (hcursors : CursorsValid st)
    {ci : Nat} (hci : st.config = some ci)
    (htype : typeAt mem st.pos = usbDtInterface)
    (hfits : DtFits mem st uusbParseInterfaceDescriptor) :
    Stands mem (st.pos :: before) (afterInterface mem st ci (uusbFindInterfaceType
      (dtGot mem st uusbParseInterfaceDescriptor {}).2.bInterface)) := by
  have hvalid := hcursors.config ci hci
  have hgot : (dtGot mem st uusbParseInterfaceDescriptor {}).2 =
      interfaceAt mem st.pos := dtGot_snd hfits _
  rw [hgot]
  have hconfigType : typeAt mem st.pos ≠ usbDtConfig := by
    rw [htype]
    decide
  rcases h.someConfig hci with ⟨c, hc, hdescriptor, hnumber⟩
  have hnew : (afterInterface mem st ci (uusbFindInterfaceType
      (interfaceAt mem st.pos).bInterface)).dev.getConfig ci =
      { st.dev.getConfig ci with
        interface := (st.dev.getConfig ci).interface ++
          [{ descriptor := interfaceAt mem st.pos
             type := uusbFindInterfaceType (interfaceAt mem st.pos).bInterface }] } := by
    rw [← hgot]
    exact getConfig_modifyConfig hvalid _
  constructor
  · rw [configsIn_other hconfigType]
    exact (modifyConfig_numConfigs _ _).trans h.number
  · show st.config.map _ = _
    rw [hci, currentConfig_other hconfigType, hc, interfacesIn_interface htype,
      Option.map_some, Option.map_some]
    simp only [hnew]
    rw [hdescriptor, UusbConfig.numInterfaces, List.length_append, List.length_cons,
      List.length_cons, ← hnumber]
    rfl
  · rw [currentInterface_interface htype, endpointsIn_interface htype]
    show (some (ci, (st.dev.getConfig ci).numInterfaces)).map _ = _
    rw [Option.map_some, Option.map_some]
    have hslot : (afterInterface mem st ci (uusbFindInterfaceType
        (interfaceAt mem st.pos).bInterface)).dev.getInterface
          (ci, (st.dev.getConfig ci).numInterfaces) =
        { descriptor := interfaceAt mem st.pos
          type := uusbFindInterfaceType (interfaceAt mem st.pos).bInterface } := by
      rw [UusbDev.getInterface, hnew]
      exact getD_concat_length _ _ _
    simp only [hslot]
    rfl

/-- Changing an interface leaves its configuration's descriptor and number of
interfaces. -/
theorem Stands.modifyInterface (h : Stands mem before st) (hcursors : CursorsValid st)
    {at_ : Nat × Nat} (hat : st.interface = some at_)
    {f : UusbInterface -> UusbInterface} {after : UusbParse}
    (hdev : after.dev = st.dev.modifyInterface at_ f) (hconfig : after.config = st.config)
    (hnotConfig : typeAt mem st.pos ≠ usbDtConfig)
    (hnotInterface : typeAt mem st.pos ≠ usbDtInterface) :
    after.dev.numConfigs = (configsIn mem (st.pos :: before)).length ∧
      after.config.map (fun ci => ((after.dev.getConfig ci).descriptor,
        (after.dev.getConfig ci).numInterfaces)) =
      (currentConfig mem (st.pos :: before)).map fun c =>
        (configAt mem c, (interfacesIn mem (st.pos :: before)).length) := by
  have hvalid := hcursors.interface at_ hat
  rw [hdev, configsIn_other hnotConfig, currentConfig_other hnotConfig,
    interfacesIn_other hnotConfig hnotInterface, hconfig, ← h.config]
  refine ⟨(modifyConfig_numConfigs _ _).trans h.number, ?_⟩
  congr 1
  funext ci
  rw [modifyInterface_numInterfaces hvalid.1,
    getConfig_modifyInterface_descriptor hvalid.1]

theorem Stands.addEndpoint (h : Stands mem before st) (hcursors : CursorsValid st)
    {at_ : Nat × Nat} (hat : st.interface = some at_)
    (htype : typeAt mem st.pos = usbDtEndpoint) :
    Stands mem (st.pos :: before) (afterEndpoint mem st at_) := by
  have hvalid := hcursors.interface at_ hat
  have hnotConfig : typeAt mem st.pos ≠ usbDtConfig := by
    rw [htype]
    decide
  have hnotInterface : typeAt mem st.pos ≠ usbDtInterface := by
    rw [htype]
    decide
  have hdev : (afterEndpoint mem st at_).dev =
      st.dev.modifyInterface at_ fun interface => { interface with
        endpoint := interface.endpoint ++
          [{ descriptor := (dtGot mem st uusbParseEndpointDescriptor {}).2 }] } := rfl
  have hconfigs := h.modifyInterface hcursors hat hdev rfl hnotConfig hnotInterface
  refine ⟨hconfigs.1, hconfigs.2, ?_⟩
  rcases h.someInterface hat with ⟨i, hi, hdescriptor, hhandler, hnumber⟩
  have hslot : (afterEndpoint mem st at_).dev.getInterface at_ =
      { st.dev.getInterface at_ with
        endpoint := (st.dev.getInterface at_).endpoint ++
          [{ descriptor := (dtGot mem st uusbParseEndpointDescriptor {}).2 }] } :=
    getInterface_modifyInterface hvalid.1 hvalid.2 _
  show st.interface.map _ = _
  rw [hat, currentInterface_other hnotConfig hnotInterface, hi,
    endpointsIn_endpoint htype, Option.map_some, Option.map_some]
  simp only [hslot]
  rw [hdescriptor, UusbInterface.numEndpoints, List.length_append, List.length_cons,
    List.length_cons, ← hnumber, ← hhandler]
  rfl

theorem Stands.other (h : Stands mem before st) (hcursors : CursorsValid st)
    {at_ : Nat × Nat} (hat : st.interface = some at_)
    (htype : IsOther (typeAt mem st.pos)) {interface : UusbInterface}
    (hdescriptor : interface.descriptor = (st.dev.getInterface at_).descriptor)
    (htypeKept : interface.type = (st.dev.getInterface at_).type)
    (hendpoint : interface.endpoint = (st.dev.getInterface at_).endpoint)
    (seen : List Access) :
    Stands mem (st.pos :: before) (afterOther st at_ interface seen) := by
  have hvalid := hcursors.interface at_ hat
  have hdev : (afterOther st at_ interface seen).dev =
      st.dev.modifyInterface at_ fun _ => interface := rfl
  have hconfigs := h.modifyInterface hcursors hat hdev rfl htype.2.1 htype.2.2.1
  refine ⟨hconfigs.1, hconfigs.2, ?_⟩
  rcases h.someInterface hat with ⟨i, hi, hold, hhandler, hnumber⟩
  have hslot : (afterOther st at_ interface seen).dev.getInterface at_ = interface :=
    getInterface_modifyInterface hvalid.1 hvalid.2 _
  show (some at_).map _ = _
  rw [currentInterface_other htype.2.1 htype.2.2.1, hi,
    endpointsIn_other htype.2.1 htype.2.2.1 htype.2.2.2, Option.map_some,
    Option.map_some]
  simp only [hslot]
  rw [hdescriptor, hold, UusbInterface.handler, htypeKept, ← hhandler,
    UusbInterface.numEndpoints, hendpoint, ← hnumber]
  rfl

/-- A descriptor that is handled stands in front of the next one. -/
theorem Handling.stands {after : UusbParse} (h : Handling mem st (.next after))
    (hstands : Stands mem before st) (hcursors : CursorsValid st) :
    Stands mem (st.pos :: before) after := by
  cases h with
  | device _ htype =>
      have hdevice : typeAt mem st.pos = usbDtDevice := htype
      exact hstands.passed (by rw [hdevice]; decide) (by rw [hdevice]; decide)
        (by rw [hdevice]; decide) rfl rfl rfl
  | config _ htype _ _ hfits => exact hstands.addConfig htype hfits
  | interface _ htype hci _ _ hfits =>
      exact hstands.addInterface hcursors hci htype hfits
  | endpoint _ htype hat => exact hstands.addEndpoint hcursors hat htype
  | unclaimed _ htype =>
      exact hstands.passed htype.2.1 htype.2.2.1 htype.2.2.2 rfl rfl rfl
  | ignored _ htype hat => exact hstands.other hcursors hat htype rfl rfl rfl _
  | ccid _ htype hat =>
      refine hstands.other hcursors hat htype ?_ ?_ ?_ _
      · rfl
      · rfl
      · rfl

/-!
The walk goes on behind a descriptor where it may stand.
-/

theorem mayStand_device {p : Nat} (hp : p = 0) :
    MayStand mem before p ↔ typeAt mem p = usbDtDevice ∧
      FieldsFit mem uusbParseDeviceDescriptor p ∧
      (deviceOf mem).bNumConfigurations ≠ 0 ∧
      (deviceOf mem).bNumConfigurations.toNat ≤ uusbMaxConfigs := by
  constructor
  · intro h
    exact ⟨h.first.mp hp, h.device hp⟩
  · intro h
    have hkinds : usbDtDevice ≠ usbDtConfig ∧ usbDtDevice ≠ usbDtInterface ∧
        usbDtDevice ≠ usbDtEndpoint := by decide
    subst hp
    simp [mayStand_iff, h.1, h.2, hkinds, IsOther]

theorem mayStand_config {p : Nat} (hp : p ≠ 0) (htype : typeAt mem p = usbDtConfig) :
    MayStand mem before p ↔
      RoomBehind (configsIn mem before).length
        (deviceOf mem).bNumConfigurations.toNat uusbMaxConfigs ∧
      FieldsFit mem uusbParseConfigDescriptor p := by
  have hkinds : usbDtConfig ≠ usbDtDevice ∧ usbDtConfig ≠ usbDtInterface ∧
      usbDtConfig ≠ usbDtEndpoint := by decide
  simp [mayStand_iff, hp, htype, hkinds, IsOther]

theorem mayStand_interface {p : Nat} (hp : p ≠ 0)
    (htype : typeAt mem p = usbDtInterface) :
    MayStand mem before p ↔ exists c, currentConfig mem before = some c ∧
      RoomBehind (interfacesIn mem before).length
        (configAt mem c).bNumInterfaces.toNat uusbMaxInterfaces ∧
      FieldsFit mem uusbParseInterfaceDescriptor p := by
  have hkinds : usbDtInterface ≠ usbDtDevice ∧ usbDtInterface ≠ usbDtConfig ∧
      usbDtInterface ≠ usbDtEndpoint := by decide
  simp [mayStand_iff, hp, htype, hkinds, IsOther]

theorem mayStand_endpoint {p : Nat} (hp : p ≠ 0)
    (htype : typeAt mem p = usbDtEndpoint) :
    MayStand mem before p ↔ exists i, currentInterface mem before = some i ∧
      RoomBehind (endpointsIn mem before).length
        (interfaceAt mem i).bNumEndpoints.toNat uusbMaxEndpoints ∧
      FieldsFit mem uusbParseEndpointDescriptor p := by
  have hkinds : usbDtEndpoint ≠ usbDtDevice ∧ usbDtEndpoint ≠ usbDtConfig ∧
      usbDtEndpoint ≠ usbDtInterface := by decide
  simp [mayStand_iff, hp, htype, hkinds, IsOther]

theorem mayStand_other {p : Nat} (hp : p ≠ 0) (htype : IsOther (typeAt mem p)) :
    MayStand mem before p ↔ forall i, currentInterface mem before = some i ->
      handlerAt mem i = some .uusbHandleCcidDescriptor ->
      FieldsFit mem ccidParseUsbDescriptor p := by
  have hkinds := htype
  unfold IsOther at hkinds
  simp [mayStand_iff, hp, htype, hkinds]

theorem next_device_iff (hpos : st.pos = 0) :
    (exists after, uusbParseCase mem st = .next after) ↔
      MayStand mem before st.pos := by
  rw [mayStand_device hpos, uusbParseCase_device hpos,
    uusbDeviceCase_eq (dtParserAt_okay mem st)]
  simp only
  constructor
  · rintro ⟨after, hcase⟩
    split_ifs at hcase with htype hfits hcount
    · have hdeclared :
          ¬ ((afterDevice mem st).dev.descriptor.bNumConfigurations = 0 ∨
            (afterDevice mem st).dev.descriptor.bNumConfigurations.toNat >
              uusbMaxConfigs) := hcount
      rw [afterDevice_descriptor hpos hfits, not_or, Nat.not_lt] at hdeclared
      exact ⟨htype, hfits, hdeclared⟩
  · rintro ⟨htype, hfits, hcount⟩
    rw [← afterDevice_descriptor hpos hfits] at hcount
    refine ⟨afterDevice mem st, ?_⟩
    refine (if_pos htype).trans ((if_pos hfits).trans (if_neg ?_))
    exact not_or.mpr ⟨hcount.1, Nat.not_lt.mpr hcount.2⟩

theorem next_config_iff (hstands : Stands mem before st) (hinv : WalkInv mem st)
    (hpos : st.pos ≠ 0) (htype : typeAt mem st.pos = usbDtConfig) :
    (exists after, uusbParseCase mem st = .next after) ↔
      MayStand mem before st.pos := by
  have hparsed : DeviceParsed mem st :=
    hinv.device.resolve_left fun hstart => hpos hstart.1
  rw [mayStand_config hpos htype, uusbParseCase_config hpos htype,
    uusbConfigCase_eq (dtParserAt_okay mem st), RoomBehind, ← hstands.number,
    ← hparsed.same]
  simp only
  constructor
  · rintro ⟨after, hcase⟩
    split_ifs at hcase with hmany houtside hfits
    · exact ⟨⟨Nat.not_lt.mp hmany, Nat.not_le.mp houtside⟩, hfits⟩
  · rintro ⟨⟨hmany, houtside⟩, hfits⟩
    exact ⟨_, (if_neg (Nat.not_lt.mpr hmany)).trans
      ((if_neg (Nat.not_le.mpr houtside)).trans (if_pos hfits))⟩

theorem next_interface_iff (hstands : Stands mem before st) (hpos : st.pos ≠ 0)
    (htype : typeAt mem st.pos = usbDtInterface) :
    (exists after, uusbParseCase mem st = .next after) ↔
      MayStand mem before st.pos := by
  rw [mayStand_interface hpos htype, uusbParseCase_interface hpos htype]
  cases hconfig : st.config with
  | none =>
      rw [uusbInterfaceCase_none (show (dtHead mem st).config = none from hconfig),
        hstands.noConfig hconfig]
      simp
  | some ci =>
      rcases hstands.someConfig hconfig with ⟨c, hc, hdescriptor, hnumber⟩
      rw [uusbInterfaceCase_some (dtParserAt_okay mem st)
        (show (dtHead mem st).config = some ci from hconfig), hc]
      simp only [Option.some.injEq, exists_eq_left', RoomBehind]
      rw [← hdescriptor, ← hnumber]
      constructor
      · rintro ⟨after, hcase⟩
        split_ifs at hcase with hmany houtside hfits
        · exact ⟨⟨Nat.not_lt.mp hmany, Nat.not_le.mp houtside⟩, hfits⟩
      · rintro ⟨⟨hmany, houtside⟩, hfits⟩
        exact ⟨_, (if_neg (Nat.not_lt.mpr hmany)).trans
          ((if_neg (Nat.not_le.mpr houtside)).trans (if_pos hfits))⟩

theorem next_endpoint_iff (hstands : Stands mem before st) (hpos : st.pos ≠ 0)
    (htype : typeAt mem st.pos = usbDtEndpoint) :
    (exists after, uusbParseCase mem st = .next after) ↔
      MayStand mem before st.pos := by
  rw [mayStand_endpoint hpos htype, uusbParseCase_endpoint hpos htype]
  cases hinterface : st.interface with
  | none =>
      rw [uusbEndpointCase_none
        (show (dtHead mem st).interface = none from hinterface),
        hstands.noInterface hinterface]
      simp
  | some at_ =>
      rcases hstands.someInterface hinterface with ⟨i, hi, hdescriptor, _, hnumber⟩
      rw [uusbEndpointCase_some (dtParserAt_okay mem st)
        (show (dtHead mem st).interface = some at_ from hinterface), hi]
      simp only [Option.some.injEq, exists_eq_left', RoomBehind]
      rw [← hdescriptor, ← hnumber]
      constructor
      · rintro ⟨after, hcase⟩
        split_ifs at hcase with hmany houtside hfits
        · exact ⟨⟨Nat.not_lt.mp hmany, Nat.not_le.mp houtside⟩, hfits⟩
      · rintro ⟨⟨hmany, houtside⟩, hfits⟩
        exact ⟨_, (if_neg (Nat.not_lt.mpr hmany)).trans
          ((if_neg (Nat.not_le.mpr houtside)).trans (if_pos hfits))⟩

theorem next_other_iff (hstands : Stands mem before st) (hpos : st.pos ≠ 0)
    (htype : IsOther (typeAt mem st.pos)) :
    (exists after, uusbParseCase mem st = .next after) ↔
      MayStand mem before st.pos := by
  rw [mayStand_other hpos htype]
  cases hinterface : st.interface with
  | none =>
      rw [uusbParseCase_unclaimed hpos htype hinterface,
        hstands.noInterface hinterface]
      simp
  | some at_ =>
      rcases hstands.someInterface hinterface with ⟨i, hi, _, hhandler, _⟩
      simp only [hi, Option.some.injEq, forall_eq']
      rw [← hhandler]
      cases hsome : (st.dev.getInterface at_).handler with
      | none =>
          rw [uusbParseCase_ignored hpos htype hinterface hsome]
          simp
      | some handler =>
          have hcases := uusbParseCase_handled hpos htype hinterface hsome
          constructor
          · rintro ⟨after, hcase⟩ _
            by_contra hshort
            rw [hcases.2 hshort] at hcase
            cases hcase
          · intro hfits
            exact ⟨_, hcases.1 (hfits rfl)⟩

theorem next_iff (hstands : Stands mem before st) (hinv : WalkInv mem st) :
    (exists after, uusbParseCase mem st = .next after) ↔
      MayStand mem before st.pos := by
  by_cases hpos : st.pos = 0
  · exact next_device_iff hpos
  · by_cases hother : IsOther (typeAt mem st.pos)
    · exact next_other_iff hstands hpos hother
    · by_cases hconfig : typeAt mem st.pos = usbDtConfig
      · exact next_config_iff hstands hinv hpos hconfig
      · by_cases hinterface : typeAt mem st.pos = usbDtInterface
        · exact next_interface_iff hstands hpos hinterface
        · by_cases hendpoint : typeAt mem st.pos = usbDtEndpoint
          · exact next_endpoint_iff hstands hpos hendpoint
          · -- a second device descriptor
            have hdevice : typeAt mem st.pos = usbDtDevice := by
              by_contra hno
              exact hother ⟨hno, hconfig, hinterface, hendpoint⟩
            constructor
            · rintro ⟨after, hcase⟩
              rw [uusbParseCase, uusbDtCase,
                if_neg (show ¬ (dtHead mem st).pos = 0 from hpos),
                if_pos (show dtTypeAt mem st = usbDtDevice from hdevice)] at hcase
              cases hcase
            · intro h
              exact absurd (h.first.mpr hdevice) hpos

/-- A slot outside its array is taken where a descriptor overruns it. -/
theorem slotOutside_iff (hstands : Stands mem before st) (hinv : WalkInv mem st) :
    SlotOutside mem st ↔ Overruns mem before st.pos := by
  unfold SlotOutside Overruns
  apply and_congr_right
  intro hpos
  have hparsed : DeviceParsed mem st :=
    hinv.device.resolve_left fun hstart => hpos hstart.1
  apply or_congr
  · rw [hstands.number, hparsed.same]
    rfl
  apply or_congr
  · apply and_congr_right
    intro _
    cases hconfig : st.config with
    | none => simp [hstands.noConfig hconfig]
    | some ci =>
        rcases hstands.someConfig hconfig with ⟨c, hc, hdescriptor, hnumber⟩
        simp [hc, FullBehind, hdescriptor, hnumber]
  · apply and_congr_right
    intro _
    cases hinterface : st.interface with
    | none => simp [hstands.noInterface hinterface]
    | some at_ =>
        rcases hstands.someInterface hinterface with ⟨i, hi, hdescriptor, _, hnumber⟩
        simp only [hi, Option.some.injEq, exists_eq_left', FullBehind, hdescriptor,
          hnumber]

/-!
The walk gets to the ends of the chains.
-/

theorem chain_of_reaches (h : UusbParseReaches mem len st) :
    exists before, Chain mem len before st.pos ∧ Stands mem before st := by
  have hboth : WalkInv mem st ∧ exists before, Chain mem len before st.pos ∧
      Stands mem before st := by
    apply h.invariant
    · exact ⟨walkInv_initial mem, [], Chain.start, stands_initial mem⟩
    · intro s next hold hstep
      rcases hold with ⟨hinv, before, hchain, hstands⟩
      refine ⟨walkInv_again hinv hstep, ?_⟩
      rcases uusbParseStep_again hstep with ⟨hhandles, after, hcase, hnext⟩
      have hhandling : Handling mem s (.next after) := by
        rw [← hcase]
        exact uusbParseCase_handling mem s
      have hafter := hhandling.stands hstands hinv.cursors
      rw [hnext]
      exact ⟨s.pos :: before, hchain.behind ⟨hhandles.1, Nat.not_lt.mp hhandles.2⟩
        ((next_iff hstands hinv).mp ⟨after, hcase⟩), hafter.number, hafter.config,
        hafter.interface⟩
  exact hboth.2

theorem reaches_of_chain {p : Nat} (h : Chain mem len before p) :
    exists st, UusbParseReaches mem len st ∧ st.pos = p ∧ Stands mem before st := by
  induction h with
  | start => exact ⟨{}, Loop.Reaches.refl, rfl, stands_initial mem⟩
  | behind hchain hstarts hmay ih =>
      rcases ih with ⟨st, hst, rfl, hstands⟩
      have hinv := walkInv_reaches hst
      rcases (next_iff hstands hinv).mpr hmay with ⟨after, hcase⟩
      have hhandling : Handling mem st (.next after) := by
        rw [← hcase]
        exact uusbParseCase_handling mem st
      have hafter := hhandling.stands hstands hinv.cursors
      have hhandles : Handles mem len st := ⟨hstarts.1, Nat.not_lt.mpr hstarts.2⟩
      have hstep := uusbParseStep_of_handles hhandles
      rw [hcase] at hstep
      exact ⟨advancePos mem st after, hst.tail hstep, rfl, hafter.number,
        hafter.config, hafter.interface⟩

end

end Usb
end UtokenDecrypt
