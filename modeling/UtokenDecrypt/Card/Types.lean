import UtokenDecrypt.Buffer

/-!
# Cards

The data of `scard.h`, and the list of card drivers as `yubikey_init`
of `yubikey.c` leaves it.  There is one driver, registered under four
answers to reset.
-/

namespace UtokenDecrypt

/-- A string argument: the bytes before the terminating NUL. -/
structure CString where
  bytes : List UInt8
  noNul : (0 : UInt8) ∉ bytes

def ifdMaxAtrLen : Nat := 64

/-- The bytes of an ATR buffer. -/
abbrev IfdAtrbuf : Type := List UInt8

def ifdAtrbufSet (data : List UInt8) (len : Nat) : IfdAtrbuf :=
  data.take (min len ifdMaxAtrLen)

inductive YkVariant where
  | neoR3
  | yubikey4
  | yubikey5
  | yubikey5P1
deriving DecidableEq

structure IfdCardDriverRegistration where
  atr : IfdAtrbuf
  name : String
  variant : YkVariant

def atrNeoR3 : IfdAtrbuf :=
  [0x3b, 0xfc, 0x13, 0x00, 0x00, 0x81, 0x31, 0xfe, 0x15, 0x59, 0x75, 0x62, 0x69,
    0x6b, 0x65, 0x79, 0x4e, 0x45, 0x4f, 0x72, 0x33, 0xe1]

def atrYubikey4 : IfdAtrbuf :=
  [0x3b, 0xf8, 0x13, 0x00, 0x00, 0x81, 0x31, 0xfe, 0x15, 0x59, 0x75, 0x62, 0x69,
    0x6b, 0x65, 0x79, 0x34, 0xd4]

def atrYubikey5 : IfdAtrbuf :=
  [0x3b, 0xfd, 0x13, 0x00, 0x00, 0x81, 0x31, 0xfe, 0x15, 0x80, 0x73, 0xc0, 0x21,
    0xc0, 0x57, 0x59, 0x75, 0x62, 0x69, 0x4b, 0x65, 0x79, 0x40]

def atrYubikey5P1 : IfdAtrbuf :=
  [0x3b, 0xf8, 0x13, 0x00, 0x00, 0x81, 0x31, 0xfe, 0x15, 0x01, 0x59, 0x75, 0x62,
    0x69, 0x4b, 0x65, 0x79, 0xc1]

/-- The registrations of `yubikey_init`; all have the same driver. -/
def ifdCardDrivers : List IfdCardDriverRegistration :=
  [{ atr := atrNeoR3, name := "YubiKey Neo R3", variant := .neoR3 },
    { atr := atrYubikey4, name := "YubiKey 4", variant := .yubikey4 },
    { atr := atrYubikey5, name := "YubiKey 5", variant := .yubikey5 },
    { atr := atrYubikey5P1, name := "YubiKey 5", variant := .yubikey5P1 }]

structure IfdCard where
  name : String
  atr : IfdAtrbuf
  variant : YkVariant
  slot : Nat
  pinRequired : Bool
  keySlot : UInt8
deriving DecidableEq

/-- The card is zeroed by its allocation, and takes a PIN to begin with. -/
def ifdCardAlloc (atr : IfdAtrbuf) (name : String) (variant : YkVariant)
    (slot : Nat) : IfdCard where
  name := name
  atr := atr
  variant := variant
  slot := slot
  pinRequired := true
  keySlot := 0

def ifdCreateCard (atr : IfdAtrbuf) (slot : Nat) : Option IfdCard :=
  (ifdCardDrivers.find? fun reg => atr = reg.atr).map fun reg =>
    ifdCardAlloc atr reg.name reg.variant slot

end UtokenDecrypt
