import UtokenDecrypt.Foundation.Words

/-!
# USB device data

The descriptor records of `uusb_impl.h`, the CCID record of `ccid_impl.h`, and
the interface types `descriptor.c` knows.

The three arrays of a device tree are lists of the slots in use, and each
counter is the length of its list.  A slot is zeroed until it is used, because
the whole tree is, so a new slot is the default value of its type.  The array
sizes are kept apart, as the parser has to stay within them.
-/

namespace UtokenDecrypt
namespace Usb

/-!
## Constants
-/

def usbDtDevice : UInt8 := 0x01
def usbDtConfig : UInt8 := 0x02
def usbDtInterface : UInt8 := 0x04
def usbDtEndpoint : UInt8 := 0x05

def uusbMaxConfigs : Nat := 8
def uusbMaxInterfaces : Nat := 8
def uusbMaxEndpoints : Nat := 4

/-!
## Descriptors
-/

structure UusbClassproto where
  cls : UInt8 := 0
  subclass : UInt8 := 0
  protocol : UInt8 := 0
deriving DecidableEq, Inhabited

structure UusbDeviceDescriptor where
  bDevice : UusbClassproto := {}
  bMaxPacketSize0 : UInt8 := 0
  idVendor : UInt16 := 0
  idProduct : UInt16 := 0
  bNumConfigurations : UInt8 := 0
deriving DecidableEq, Inhabited

structure UusbConfigDescriptor where
  bNumInterfaces : UInt8 := 0
  bConfigurationValue : UInt8 := 0
  bmAttributes : UInt8 := 0
  maxPower : UInt8 := 0
deriving DecidableEq, Inhabited

structure UusbInterfaceDescriptor where
  bInterface : UusbClassproto := {}
  bInterfaceNumber : UInt8 := 0
  bAlternateSetting : UInt8 := 0
  bNumEndpoints : UInt8 := 0
deriving DecidableEq, Inhabited

structure UusbEndpointDescriptor where
  bEndpointAddress : UInt8 := 0
  bmAttributes : UInt8 := 0
deriving DecidableEq, Inhabited

structure CcidDescriptor where
  bcdCCID : UInt16 := 0
  bMaxSlotIndex : UInt8 := 0
  bVoltageSupport : UInt8 := 0
  dwProtocols : UInt32 := 0
  dwDefaultClock : UInt32 := 0
  dwMaximumClock : UInt32 := 0
  bNumClockRatesSupported : UInt8 := 0
  dwDataRate : UInt32 := 0
  dwMaxDataRate : UInt32 := 0
  bNumDataRatesSupported : UInt8 := 0
  dwMaxIFSD : UInt32 := 0
  dwSynchProtocols : UInt32 := 0
  dwMechanical : UInt32 := 0
  dwFeatures : UInt32 := 0
  dwMaxCCIDMessageLength : UInt32 := 0
  bClassGetResponse : UInt8 := 0
  bClassEnvelope : UInt8 := 0
  wLcdLayout : UInt16 := 0
  bPINSupport : UInt8 := 0
  bMaxCCIDBusySlots : UInt8 := 0
deriving DecidableEq, Inhabited

/-!
## Interface types
-/

/-- The functions an interface type can have for its class descriptors. -/
inductive HandleDescriptor where
  | uusbHandleCcidDescriptor
deriving DecidableEq

structure UusbIntfType where
  name : String
  classproto : UusbClassproto
  handleDescriptor : Option HandleDescriptor := none
deriving DecidableEq

def uusbIntfTypeKeyboard : UusbIntfType where
  name := "keyboard"
  classproto := { cls := 3, subclass := 1, protocol := 1 }

def uusbIntfTypeCcid : UusbIntfType where
  name := "ccid"
  classproto := { cls := 11, subclass := 0, protocol := 0 }
  handleDescriptor := some .uusbHandleCcidDescriptor

def uusbIntfTypeStorage : UusbIntfType where
  name := "storage"
  classproto := { cls := 8, subclass := 0xFF, protocol := 0xFF }

/-- The list without the entry that ends it. -/
def uusbIntfTypeList : List UusbIntfType :=
  [uusbIntfTypeKeyboard, uusbIntfTypeCcid, uusbIntfTypeStorage]

def uusbMatchUusbClassproto (want got : UusbClassproto) : Bool :=
  (want.cls == 0xFF || want.cls == got.cls) &&
    (want.subclass == 0xFF || want.subclass == got.subclass) &&
    (want.protocol == 0xFF || want.protocol == got.protocol)

def uusbFindInterfaceType (classproto : UusbClassproto) : Option UusbIntfType :=
  uusbIntfTypeList.find? fun intfType =>
    uusbMatchUusbClassproto intfType.classproto classproto

/-!
## The device tree
-/

structure UusbEndpoint where
  descriptor : UusbEndpointDescriptor := {}
deriving DecidableEq, Inhabited

structure UusbInterface where
  descriptor : UusbInterfaceDescriptor := {}
  type : Option UusbIntfType := none
  ccid : Option CcidDescriptor := none
  endpoint : List UusbEndpoint := []
deriving DecidableEq, Inhabited

structure UusbConfig where
  descriptor : UusbConfigDescriptor := {}
  interface : List UusbInterface := []
deriving DecidableEq, Inhabited

/-- The pipe addresses `uusb_set_endpoints` stores, with -1 for none. -/
structure UusbEndpoints where
  epO : Int := 0
  epI : Int := 0
  epIntr : Int := 0
deriving DecidableEq, Inhabited

structure UusbDev where
  endpoints : UusbEndpoints := {}
  descriptor : UusbDeviceDescriptor := {}
  config : List UusbConfig := []
deriving DecidableEq, Inhabited

def UusbDev.numConfigs (dev : UusbDev) : Nat :=
  dev.config.length

def UusbConfig.numInterfaces (config : UusbConfig) : Nat :=
  config.interface.length

def UusbInterface.numEndpoints (interface : UusbInterface) : Nat :=
  interface.endpoint.length

end Usb
end UtokenDecrypt
