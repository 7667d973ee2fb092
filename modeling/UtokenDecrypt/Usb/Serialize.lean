import UtokenDecrypt.Usb.Walk

/-!
# Device trees on the wire

The descriptors a device sends, with the fields the parser does not store and
the bytes a descriptor may have behind its standard ones, and the tree that is
meant by them.
-/

namespace UtokenDecrypt
namespace Usb

open Foundation

/-!
## Descriptors
-/

/-- A descriptor with its length and type bytes. -/
def dtBytes (dtType : UInt8) (body : List UInt8) : List UInt8 :=
  UInt8.ofNat (2 + body.length) :: dtType :: body

structure DeviceDt where
  descriptor : UusbDeviceDescriptor
  bcdUSB : UInt16 := 0
  bcdDevice : UInt16 := 0
  iManufacturer : UInt8 := 0
  iProduct : UInt8 := 0
  iSerialNumber : UInt8 := 0
  trailing : List UInt8 := []

structure ConfigDt where
  descriptor : UusbConfigDescriptor
  wTotalLength : UInt16 := 0
  iConfiguration : UInt8 := 0
  trailing : List UInt8 := []

structure InterfaceDt where
  descriptor : UusbInterfaceDescriptor
  iInterface : UInt8 := 0
  trailing : List UInt8 := []

structure EndpointDt where
  descriptor : UusbEndpointDescriptor
  wMaxPacketSize : UInt16 := 0
  bInterval : UInt8 := 0
  trailing : List UInt8 := []

structure CcidDt where
  dtType : UInt8
  descriptor : CcidDescriptor
  trailing : List UInt8 := []

structure OtherDt where
  dtType : UInt8
  body : List UInt8

def le16 (v : UInt16) : List UInt8 :=
  leBytes 2 v.toNat

def le32 (v : UInt32) : List UInt8 :=
  leBytes 4 v.toNat

def DeviceDt.body (dt : DeviceDt) : List UInt8 :=
  le16 dt.bcdUSB ++ dt.descriptor.bDevice.cls :: dt.descriptor.bDevice.subclass ::
    dt.descriptor.bDevice.protocol :: dt.descriptor.bMaxPacketSize0 ::
    (le16 dt.descriptor.idVendor ++ (le16 dt.descriptor.idProduct ++
      (le16 dt.bcdDevice ++ dt.iManufacturer :: dt.iProduct :: dt.iSerialNumber ::
        dt.descriptor.bNumConfigurations :: dt.trailing)))

def ConfigDt.body (dt : ConfigDt) : List UInt8 :=
  le16 dt.wTotalLength ++ dt.descriptor.bNumInterfaces ::
    dt.descriptor.bConfigurationValue :: dt.iConfiguration ::
    dt.descriptor.bmAttributes :: dt.descriptor.maxPower :: dt.trailing

def InterfaceDt.body (dt : InterfaceDt) : List UInt8 :=
  dt.descriptor.bInterfaceNumber :: dt.descriptor.bAlternateSetting ::
    dt.descriptor.bNumEndpoints :: dt.descriptor.bInterface.cls ::
    dt.descriptor.bInterface.subclass :: dt.descriptor.bInterface.protocol ::
    dt.iInterface :: dt.trailing

def EndpointDt.body (dt : EndpointDt) : List UInt8 :=
  dt.descriptor.bEndpointAddress :: dt.descriptor.bmAttributes ::
    (le16 dt.wMaxPacketSize ++ dt.bInterval :: dt.trailing)

def CcidDt.body (dt : CcidDt) : List UInt8 :=
  let d := dt.descriptor
  le16 d.bcdCCID ++ d.bMaxSlotIndex :: d.bVoltageSupport ::
    (le32 d.dwProtocols ++ (le32 d.dwDefaultClock ++ (le32 d.dwMaximumClock ++
      d.bNumClockRatesSupported :: (le32 d.dwDataRate ++ (le32 d.dwMaxDataRate ++
        d.bNumDataRatesSupported :: (le32 d.dwMaxIFSD ++ (le32 d.dwSynchProtocols ++
          (le32 d.dwMechanical ++ (le32 d.dwFeatures ++
            (le32 d.dwMaxCCIDMessageLength ++ d.bClassGetResponse ::
              d.bClassEnvelope :: (le16 d.wLcdLayout ++
                d.bPINSupport :: d.bMaxCCIDBusySlots :: dt.trailing)))))))))))

/-!
## Trees
-/

/-- What follows an interface descriptor. -/
inductive Item where
  | endpoint (dt : EndpointDt)
  | ccid (dt : CcidDt)
  | other (dt : OtherDt)

structure InterfaceTree where
  dt : InterfaceDt
  items : List Item := []

structure ConfigTree where
  dt : ConfigDt
  interfaces : List InterfaceTree := []

structure DeviceTree where
  dt : DeviceDt
  configs : List ConfigTree := []

def Item.endpoint? : Item -> Option UusbEndpoint
  | endpoint dt => some { descriptor := dt.descriptor }
  | ccid _ => none
  | other _ => none

def Item.ccid? : Item -> Option CcidDescriptor
  | endpoint _ => none
  | ccid dt => some dt.descriptor
  | other _ => none

def InterfaceTree.interface (tree : InterfaceTree) : UusbInterface where
  descriptor := tree.dt.descriptor
  type := uusbFindInterfaceType tree.dt.descriptor.bInterface
  ccid := (tree.items.filterMap Item.ccid?).head?
  endpoint := tree.items.filterMap Item.endpoint?

def ConfigTree.config (tree : ConfigTree) : UusbConfig where
  descriptor := tree.dt.descriptor
  interface := tree.interfaces.map InterfaceTree.interface

/-- The tree the parser is to build in a zeroed device. -/
def DeviceTree.dev (tree : DeviceTree) : UusbDev where
  descriptor := tree.dt.descriptor
  config := tree.configs.map ConfigTree.config

/-!
## Serialisation
-/

/-- A descriptor behind the device descriptor. -/
inductive Dt where
  | config (dt : ConfigDt)
  | interface (dt : InterfaceDt)
  | item (entry : Item)

def Item.dtType : Item -> UInt8
  | endpoint _ => usbDtEndpoint
  | ccid dt => dt.dtType
  | other dt => dt.dtType

def Item.body : Item -> List UInt8
  | endpoint dt => dt.body
  | ccid dt => dt.body
  | other dt => dt.body

def Dt.dtType : Dt -> UInt8
  | config _ => usbDtConfig
  | interface _ => usbDtInterface
  | item entry => entry.dtType

def Dt.body : Dt -> List UInt8
  | config dt => dt.body
  | interface dt => dt.body
  | item entry => entry.body

def Dt.bytes (dt : Dt) : List UInt8 :=
  dtBytes dt.dtType dt.body

def InterfaceTree.dts (tree : InterfaceTree) : List Dt :=
  .interface tree.dt :: tree.items.map Dt.item

def ConfigTree.dts (tree : ConfigTree) : List Dt :=
  .config tree.dt :: tree.interfaces.flatMap InterfaceTree.dts

def DeviceTree.dts (tree : DeviceTree) : List Dt :=
  tree.configs.flatMap ConfigTree.dts

def DeviceTree.bytes (tree : DeviceTree) : List UInt8 :=
  dtBytes usbDtDevice tree.dt.body ++ tree.dts.flatMap Dt.bytes

/-!
## The parser's limits
-/

/-- The length byte can hold the length. -/
def ShortBody (body : List UInt8) : Prop :=
  2 + body.length ≤ 255

instance (body : List UInt8) : Decidable (ShortBody body) :=
  inferInstanceAs (Decidable (_ ≤ _))

/-- The interface's class triple selects the ccid type. -/
def IsCcid (dt : InterfaceDt) : Prop :=
  uusbFindInterfaceType dt.descriptor.bInterface = some uusbIntfTypeCcid

instance (dt : InterfaceDt) : Decidable (IsCcid dt) :=
  inferInstanceAs (Decidable (_ = _))

/-- What may follow an interface descriptor, with a class triple that selects the
ccid type or without. -/
def Item.Allowed (ccid : Prop) : Item -> Prop
  | endpoint _ => True
  | .ccid dt => ccid ∧ IsOther dt.dtType
  | other dt => ¬ ccid ∧ IsOther dt.dtType

instance (ccid : Prop) [Decidable ccid] (entry : Item) :
    Decidable (entry.Allowed ccid) :=
  match entry with
  | .endpoint _ => inferInstanceAs (Decidable True)
  | .ccid dt => inferInstanceAs (Decidable (ccid ∧ IsOther dt.dtType))
  | .other dt => inferInstanceAs (Decidable (¬ ccid ∧ IsOther dt.dtType))

structure InterfaceTree.Fits (tree : InterfaceTree) : Prop where
  short : ShortBody tree.dt.body
  items : forall entry, entry ∈ tree.items ->
    ShortBody entry.body ∧ entry.Allowed (IsCcid tree.dt)
  ccid : (tree.items.filterMap Item.ccid?).length ≤ 1
  endpoints : (tree.items.filterMap Item.endpoint?).length ≤
    min tree.dt.descriptor.bNumEndpoints.toNat uusbMaxEndpoints

instance (tree : InterfaceTree) : Decidable tree.Fits :=
  decidable_of_iff
    (ShortBody tree.dt.body ∧
      (forall entry, entry ∈ tree.items ->
        ShortBody entry.body ∧ entry.Allowed (IsCcid tree.dt)) ∧
      (tree.items.filterMap Item.ccid?).length ≤ 1 ∧
      (tree.items.filterMap Item.endpoint?).length ≤
        min tree.dt.descriptor.bNumEndpoints.toNat uusbMaxEndpoints)
    ⟨fun h => ⟨h.1, h.2.1, h.2.2.1, h.2.2.2⟩,
      fun h => ⟨h.short, h.items, h.ccid, h.endpoints⟩⟩

structure ConfigTree.Fits (tree : ConfigTree) : Prop where
  short : ShortBody tree.dt.body
  interfaces : forall interface, interface ∈ tree.interfaces -> interface.Fits
  number : tree.interfaces.length ≤
    min tree.dt.descriptor.bNumInterfaces.toNat uusbMaxInterfaces

instance (tree : ConfigTree) : Decidable tree.Fits :=
  decidable_of_iff
    (ShortBody tree.dt.body ∧
      (forall interface, interface ∈ tree.interfaces -> interface.Fits) ∧
      tree.interfaces.length ≤
        min tree.dt.descriptor.bNumInterfaces.toNat uusbMaxInterfaces)
    ⟨fun h => ⟨h.1, h.2.1, h.2.2⟩, fun h => ⟨h.short, h.interfaces, h.number⟩⟩

structure DeviceTree.Fits (tree : DeviceTree) : Prop where
  short : ShortBody tree.dt.body
  configs : forall config, config ∈ tree.configs -> config.Fits
  positive : 0 < tree.dt.descriptor.bNumConfigurations.toNat
  atMost : tree.dt.descriptor.bNumConfigurations.toNat ≤ uusbMaxConfigs
  number : tree.configs.length ≤ tree.dt.descriptor.bNumConfigurations.toNat

instance (tree : DeviceTree) : Decidable tree.Fits :=
  decidable_of_iff
    (ShortBody tree.dt.body ∧
      (forall config, config ∈ tree.configs -> config.Fits) ∧
      0 < tree.dt.descriptor.bNumConfigurations.toNat ∧
      tree.dt.descriptor.bNumConfigurations.toNat ≤ uusbMaxConfigs ∧
      tree.configs.length ≤ tree.dt.descriptor.bNumConfigurations.toNat)
    ⟨fun h => ⟨h.1, h.2.1, h.2.2.1, h.2.2.2.1, h.2.2.2.2⟩,
      fun h => ⟨h.short, h.configs, h.positive, h.atMost, h.number⟩⟩

/-!
## Reading fields back

The value a chain of fields stores depends on the bytes alone, and fields that
were written one after the other are stored one after the other.
-/

section

variable {D : Type}

/-- What a field does to the record, given its bytes. -/
def DtField.load (bytes : List UInt8) (target : D) : DtField D -> D
  | .skipByte => target
  | .skipWord16 => target
  | .byte store => store target (UInt8.ofNat (leValue bytes))
  | .word16 store => store target (UInt16.ofNat (leValue bytes))
  | .word32 store => store target (UInt32.ofNat (leValue bytes))

def loadFields : List (DtField D) -> List UInt8 -> D -> D
  | [], _, target => target
  | field :: rest, bytes, target =>
      loadFields rest (bytes.drop field.size)
        (field.load (bytes.take field.size) target)

theorem storeFields_eq (mem : Nat -> UInt8) {fields : List (DtField D)} {p n : Nat}
    (h : fieldsSize fields ≤ n) (target : D) :
    storeFields mem fields p target = loadFields fields (bytesAt mem p n) target := by
  induction fields generalizing p n target with
  | nil => rfl
  | cons field rest ih =>
      rw [fieldsSize] at h
      have hsplit : bytesAt mem p n =
          bytesAt mem p field.size ++ bytesAt mem (p + field.size) (n - field.size) := by
        rw [← bytesAt_append, Nat.add_sub_cancel' (by lia)]
      have hlength := bytesAt_length mem p field.size
      have htake : (bytesAt mem p n).take field.size = bytesAt mem p field.size := by
        rw [hsplit, List.take_left' hlength]
      have hdrop : (bytesAt mem p n).drop field.size =
          bytesAt mem (p + field.size) (n - field.size) := by
        rw [hsplit, List.drop_left' hlength]
      rw [storeFields, loadFields, htake, hdrop, ← ih (by lia)]
      cases field <;> rfl

@[simp] theorem loadFields_nil (bytes : List UInt8) (target : D) :
    loadFields [] bytes target = target := rfl

@[simp] theorem loadFields_skipByte (rest : List (DtField D)) (v : UInt8)
    (bytes : List UInt8) (target : D) :
    loadFields (.skipByte :: rest) (v :: bytes) target =
      loadFields rest bytes target := rfl

@[simp] theorem loadFields_skipWord16 (rest : List (DtField D)) (v : UInt16)
    (bytes : List UInt8) (target : D) :
    loadFields (.skipWord16 :: rest) (le16 v ++ bytes) target =
      loadFields rest bytes target := rfl

@[simp] theorem loadFields_byte (store : D -> UInt8 -> D) (rest : List (DtField D))
    (v : UInt8) (bytes : List UInt8) (target : D) :
    loadFields (.byte store :: rest) (v :: bytes) target =
      loadFields rest bytes (store target v) := by
  have hvalue : UInt8.ofNat (leValue [v]) = v := by
    rw [leValue, leValue, Nat.mul_zero, Nat.add_zero, UInt8.ofNat_toNat]
  rw [loadFields]
  show loadFields rest bytes (store target (UInt8.ofNat (leValue [v]))) = _
  rw [hvalue]

@[simp] theorem loadFields_word16 (store : D -> UInt16 -> D)
    (rest : List (DtField D)) (v : UInt16) (bytes : List UInt8) (target : D) :
    loadFields (.word16 store :: rest) (le16 v ++ bytes) target =
      loadFields rest bytes (store target v) := by
  have hvalue : UInt16.ofNat (leValue (le16 v)) = v := by
    rw [le16, leValue_leBytes_of_lt v.toNat_lt, UInt16.ofNat_toNat]
  rw [loadFields]
  show loadFields rest bytes (store target (UInt16.ofNat (leValue (le16 v)))) = _
  rw [hvalue]

@[simp] theorem loadFields_word32 (store : D -> UInt32 -> D)
    (rest : List (DtField D)) (v : UInt32) (bytes : List UInt8) (target : D) :
    loadFields (.word32 store :: rest) (le32 v ++ bytes) target =
      loadFields rest bytes (store target v) := by
  have hvalue : UInt32.ofNat (leValue (le32 v)) = v := by
    rw [le32, leValue_leBytes_of_lt v.toNat_lt, UInt32.ofNat_toNat]
  rw [loadFields]
  show loadFields rest bytes (store target (UInt32.ofNat (leValue (le32 v)))) = _
  rw [hvalue]

end

theorem DeviceDt.load (dt : DeviceDt) (dd : UusbDeviceDescriptor) :
    loadFields uusbParseDeviceDescriptor dt.body dd = dt.descriptor := by
  simp only [uusbParseDeviceDescriptor, DeviceDt.body, loadFields_skipWord16,
    loadFields_byte, loadFields_word16, loadFields_skipByte, loadFields_nil]

theorem ConfigDt.load (dt : ConfigDt) :
    loadFields uusbParseConfigDescriptor dt.body {} = dt.descriptor := by
  simp only [uusbParseConfigDescriptor, ConfigDt.body, loadFields_skipWord16,
    loadFields_byte, loadFields_skipByte, loadFields_nil]

theorem InterfaceDt.load (dt : InterfaceDt) :
    loadFields uusbParseInterfaceDescriptor dt.body {} = dt.descriptor := by
  simp only [uusbParseInterfaceDescriptor, InterfaceDt.body, loadFields_byte,
    loadFields_skipByte, loadFields_nil]

theorem EndpointDt.load (dt : EndpointDt) :
    loadFields uusbParseEndpointDescriptor dt.body {} = dt.descriptor := by
  simp only [uusbParseEndpointDescriptor, EndpointDt.body, loadFields_byte,
    loadFields_skipWord16, loadFields_skipByte, loadFields_nil]

theorem CcidDt.load (dt : CcidDt) :
    loadFields ccidParseUsbDescriptor dt.body {} = dt.descriptor := by
  simp only [ccidParseUsbDescriptor, CcidDt.body, loadFields_byte, loadFields_word16,
    loadFields_word32, loadFields_nil]

end Usb
end UtokenDecrypt
