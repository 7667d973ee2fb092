import Mathlib.Tactic.Linarith
import UtokenDecrypt.Foundation.Memory
import UtokenDecrypt.Usb.Types

/-!
# The descriptor field parser

The `uusb_dt_parser` of `uusb_const.h` and the five field-by-field parsers built
on it.  Memory is a function from the offset behind the `data` pointer to the
byte found there, inside the byte string or beyond it.

Each field parser is the list of the fields its chain of `&&` goes through, in
order.  The parser keeps a record of what it looks at, which no function reads
back; it is there for the bounds results alone.
-/

namespace UtokenDecrypt
namespace Usb

open Foundation

/-- What the code looks at while it parses descriptors. -/
inductive Access where
  /-- The length and type bytes at two offsets of the walk. -/
  | header (lengthAt typeAt : Nat)
  /-- A parser for a descriptor believes it has this many bytes left. -/
  | left (base len left : Nat)
  /-- A parser for a descriptor reads a run of bytes. -/
  | bytes (base len first count : Nat)
deriving DecidableEq

/-- The parser, with the descriptor it was set up on and its record. -/
structure UusbDtParser where
  data : Nat
  left : Nat
  okay : Bool
  base : Nat
  len : Nat
  seen : List Access
deriving DecidableEq

namespace UusbDtParser

/-- Move on by a number of bytes that are there. -/
def advance (dtp : UusbDtParser) (n : Nat) : UusbDtParser :=
  { dtp with
    data := dtp.data + n
    left := dtp.left - n
    seen := dtp.seen ++ [.left dtp.base dtp.len (dtp.left - n)] }

/-- Give up, leaving no bytes. -/
def giveUp (dtp : UusbDtParser) : UusbDtParser :=
  { dtp with
    okay := false
    left := 0
    seen := dtp.seen ++ [.left dtp.base dtp.len 0] }

def note (dtp : UusbDtParser) (access : Access) : UusbDtParser :=
  { dtp with seen := dtp.seen ++ [access] }

end UusbDtParser

def uusbDtParserInit (data len : Nat) (seen : List Access) : UusbDtParser where
  data := data + 2
  left := sub32 len 2
  okay := true
  base := data
  len := len
  seen := seen ++ [.left data len (sub32 len 2)]

/-!
## Primitives
-/

section

variable (mem : Nat -> UInt8)

/-- The loop of `uusb_dt_get_integer`, from the last byte to the first. -/
def uusbDtInteger (p : Nat) : Nat -> Nat -> Nat
  | 0, result => result
  | i + 1, result =>
      uusbDtInteger p i (wrap64 (result <<< 8) ||| (mem (p + i)).toNat)

def uusbDtGetInteger (dtp : UusbDtParser) (n : Nat) : Nat × UusbDtParser :=
  if n > dtp.left then (0, dtp.giveUp)
  else
    (uusbDtInteger mem dtp.data n 0,
      (dtp.note (.bytes dtp.base dtp.len dtp.data n)).advance n)

def uusbDtSkip (dtp : UusbDtParser) (n : Nat) : Bool × UusbDtParser :=
  if n > dtp.left then (false, dtp.giveUp) else (true, dtp.advance n)

def uusbDtGetByte (dtp : UusbDtParser) : UInt8 × Bool × UusbDtParser :=
  let got := uusbDtGetInteger mem dtp 1
  (UInt8.ofNat got.1, got.2.okay, got.2)

def uusbDtGetWord16 (dtp : UusbDtParser) : UInt16 × Bool × UusbDtParser :=
  let got := uusbDtGetInteger mem dtp 2
  (UInt16.ofNat got.1, got.2.okay, got.2)

def uusbDtGetWord32 (dtp : UusbDtParser) : UInt32 × Bool × UusbDtParser :=
  let got := uusbDtGetInteger mem dtp 4
  (UInt32.ofNat got.1, got.2.okay, got.2)

def uusbDtSkipByte (dtp : UusbDtParser) : Bool × UusbDtParser :=
  uusbDtSkip dtp 1

def uusbDtSkipWord16 (dtp : UusbDtParser) : Bool × UusbDtParser :=
  uusbDtSkip dtp 2

/-!
## Fields
-/

/-- One link of a parser's `&&` chain, storing into a record. -/
inductive DtField (D : Type) where
  | skipByte
  | skipWord16
  | byte (store : D -> UInt8 -> D)
  | word16 (store : D -> UInt16 -> D)
  | word32 (store : D -> UInt32 -> D)

namespace DtField

def size {D : Type} : DtField D -> Nat
  | skipByte => 1
  | skipWord16 => 2
  | byte _ => 1
  | word16 _ => 2
  | word32 _ => 4

/-- Whether the field's bytes are read, and not only passed over. -/
def reads {D : Type} : DtField D -> Bool
  | skipByte => false
  | skipWord16 => false
  | byte _ => true
  | word16 _ => true
  | word32 _ => true

def parse {D : Type} (dtp : UusbDtParser) (target : D) :
    DtField D -> Bool × UusbDtParser × D
  | skipByte =>
      let got := uusbDtSkipByte dtp
      (got.1, got.2, target)
  | skipWord16 =>
      let got := uusbDtSkipWord16 dtp
      (got.1, got.2, target)
  | byte store =>
      let got := uusbDtGetByte mem dtp
      (got.2.1, got.2.2, store target got.1)
  | word16 store =>
      let got := uusbDtGetWord16 mem dtp
      (got.2.1, got.2.2, store target got.1)
  | word32 store =>
      let got := uusbDtGetWord32 mem dtp
      (got.2.1, got.2.2, store target got.1)

end DtField

/-- A chain of fields, left at the first one that fails. -/
def parseFields {D : Type} : List (DtField D) -> UusbDtParser -> D ->
    Bool × UusbDtParser × D
  | [], dtp, target => (true, dtp, target)
  | field :: rest, dtp, target =>
      match field.parse mem dtp target with
      | (true, dtp, target) => parseFields rest dtp target
      | (false, dtp, target) => (false, dtp, target)

end

/-!
## The parsers
-/

def uusbParseDeviceDescriptor : List (DtField UusbDeviceDescriptor) :=
  [ .skipWord16, -- bcdUSB
    .byte fun dd v => { dd with bDevice := { dd.bDevice with cls := v } },
    .byte fun dd v => { dd with bDevice := { dd.bDevice with subclass := v } },
    .byte fun dd v => { dd with bDevice := { dd.bDevice with protocol := v } },
    .byte fun dd v => { dd with bMaxPacketSize0 := v },
    .word16 fun dd v => { dd with idVendor := v },
    .word16 fun dd v => { dd with idProduct := v },
    .skipWord16, -- bcdDevice
    .skipByte, -- iManufacturer
    .skipByte, -- iProduct
    .skipByte, -- iSerialNumber
    .byte fun dd v => { dd with bNumConfigurations := v } ]

def uusbParseConfigDescriptor : List (DtField UusbConfigDescriptor) :=
  [ .skipWord16, -- wTotalLength
    .byte fun cd v => { cd with bNumInterfaces := v },
    .byte fun cd v => { cd with bConfigurationValue := v },
    .skipByte, -- iConfiguration
    .byte fun cd v => { cd with bmAttributes := v },
    .byte fun cd v => { cd with maxPower := v } ]

def uusbParseInterfaceDescriptor : List (DtField UusbInterfaceDescriptor) :=
  [ .byte fun id v => { id with bInterfaceNumber := v },
    .byte fun id v => { id with bAlternateSetting := v },
    .byte fun id v => { id with bNumEndpoints := v },
    .byte fun id v => { id with bInterface := { id.bInterface with cls := v } },
    .byte fun id v => { id with bInterface := { id.bInterface with subclass := v } },
    .byte fun id v => { id with bInterface := { id.bInterface with protocol := v } },
    .skipByte ] -- iInterface

def uusbParseEndpointDescriptor : List (DtField UusbEndpointDescriptor) :=
  [ .byte fun ed v => { ed with bEndpointAddress := v },
    .byte fun ed v => { ed with bmAttributes := v },
    .skipWord16, -- wMaxPacketSize
    .skipByte ] -- bInterval

def ccidParseUsbDescriptor : List (DtField CcidDescriptor) :=
  [ .word16 fun d v => { d with bcdCCID := v },
    .byte fun d v => { d with bMaxSlotIndex := v },
    .byte fun d v => { d with bVoltageSupport := v },
    .word32 fun d v => { d with dwProtocols := v },
    .word32 fun d v => { d with dwDefaultClock := v },
    .word32 fun d v => { d with dwMaximumClock := v },
    .byte fun d v => { d with bNumClockRatesSupported := v },
    .word32 fun d v => { d with dwDataRate := v },
    .word32 fun d v => { d with dwMaxDataRate := v },
    .byte fun d v => { d with bNumDataRatesSupported := v },
    .word32 fun d v => { d with dwMaxIFSD := v },
    .word32 fun d v => { d with dwSynchProtocols := v },
    .word32 fun d v => { d with dwMechanical := v },
    .word32 fun d v => { d with dwFeatures := v },
    .word32 fun d v => { d with dwMaxCCIDMessageLength := v },
    .byte fun d v => { d with bClassGetResponse := v },
    .byte fun d v => { d with bClassEnvelope := v },
    .word16 fun d v => { d with wLcdLayout := v },
    .byte fun d v => { d with bPINSupport := v },
    .byte fun d v => { d with bMaxCCIDBusySlots := v } ]

/-!
## What a chain of fields does

A chain succeeds when its fields fit in the bytes left, and then stores the
number each field spells.
-/

section

variable (mem : Nat -> UInt8)

/-- Reading from the last byte to the first gives the little-endian number. -/
theorem uusbDtInteger_eq {n : Nat} (hn : n ≤ 8) (p : Nat) :
    uusbDtInteger mem p n 0 = leValue (bytesAt mem p n) := by
  -- the bytes still to come must fit above what has been shifted in
  have key : forall count result, (result + 1) * 256 ^ count ≤ 2 ^ 64 ->
      uusbDtInteger mem p count result =
        result * 256 ^ count + leValue (bytesAt mem p count) := by
    intro count
    induction count with
    | zero =>
        intro result _
        simp [uusbDtInteger, bytesAt, leValue]
    | succ count ih =>
        intro result hfit
        have hbyte : (mem (p + count)).toNat < 256 := (mem (p + count)).toNat_lt
        have hpow : 0 < 256 ^ count := Nat.pow_pos (by decide)
        rw [Nat.pow_succ] at hfit
        have hsmall : result * 256 < 2 ^ 64 := by nlinarith
        have hshift : wrap64 (result <<< 8) = result <<< 8 := by
          apply wrap64_of_lt
          rw [Nat.shiftLeft_eq]
          exact hsmall
        have hnext : (result * 256 + (mem (p + count)).toNat + 1) * 256 ^ count ≤
            2 ^ 64 := by nlinarith
        rw [uusbDtInteger, hshift, shiftLeft_or_byte, ih _ hnext,
          bytesAt_succ_last, leValue_append_byte, bytesAt_length, Nat.pow_succ]
        ring
  have hstart : (0 + 1) * 256 ^ n ≤ 2 ^ 64 := by
    have hle : 256 ^ n ≤ 256 ^ 8 := Nat.pow_le_pow_right (by decide) hn
    lia
  rw [key n 0 hstart, Nat.zero_mul, Nat.zero_add]

/-- What a field whose bytes are at an offset does to the record. -/
def DtField.storeAt {D : Type} (p : Nat) (target : D) : DtField D -> D
  | .skipByte => target
  | .skipWord16 => target
  | .byte store => store target (UInt8.ofNat (leValue (bytesAt mem p 1)))
  | .word16 store => store target (UInt16.ofNat (leValue (bytesAt mem p 2)))
  | .word32 store => store target (UInt32.ofNat (leValue (bytesAt mem p 4)))

def fieldsSize {D : Type} : List (DtField D) -> Nat
  | [] => 0
  | field :: rest => field.size + fieldsSize rest

def storeFields {D : Type} : List (DtField D) -> Nat -> D -> D
  | [], _, target => target
  | field :: rest, p, target =>
      storeFields rest (p + field.size) (field.storeAt mem p target)

variable {D : Type}

theorem uusbDtSkip_of_lt {dtp : UusbDtParser} {n : Nat} (h : dtp.left < n) :
    uusbDtSkip dtp n = (false, dtp.giveUp) :=
  if_pos h

theorem uusbDtSkip_of_le {dtp : UusbDtParser} {n : Nat} (h : n ≤ dtp.left) :
    uusbDtSkip dtp n = (true, dtp.advance n) :=
  if_neg (Nat.not_lt.mpr h)

theorem uusbDtGetInteger_of_lt {dtp : UusbDtParser} {n : Nat}
    (h : dtp.left < n) : uusbDtGetInteger mem dtp n = (0, dtp.giveUp) :=
  if_pos h

theorem uusbDtGetInteger_of_le {dtp : UusbDtParser} {n : Nat}
    (hn : n ≤ 8) (h : n ≤ dtp.left) :
    uusbDtGetInteger mem dtp n =
      (leValue (bytesAt mem dtp.data n),
        (dtp.note (.bytes dtp.base dtp.len dtp.data n)).advance n) := by
  rw [← uusbDtInteger_eq mem hn]
  exact if_neg (Nat.not_lt.mpr h)

/-- A field that does not fit makes the parser give up. -/
theorem DtField.parse_of_lt {field : DtField D} {dtp : UusbDtParser}
    (target : D) (h : dtp.left < field.size) :
    (field.parse mem dtp target).1 = false ∧
      (field.parse mem dtp target).2.1 = dtp.giveUp := by
  cases field with
  | skipByte =>
      simp only [parse, uusbDtSkipByte]
      rw [uusbDtSkip_of_lt (n := 1) h]
      exact ⟨rfl, rfl⟩
  | skipWord16 =>
      simp only [parse, uusbDtSkipWord16]
      rw [uusbDtSkip_of_lt (n := 2) h]
      exact ⟨rfl, rfl⟩
  | byte store =>
      simp only [parse, uusbDtGetByte]
      rw [uusbDtGetInteger_of_lt mem (n := 1) h]
      exact ⟨rfl, rfl⟩
  | word16 store =>
      simp only [parse, uusbDtGetWord16]
      rw [uusbDtGetInteger_of_lt mem (n := 2) h]
      exact ⟨rfl, rfl⟩
  | word32 store =>
      simp only [parse, uusbDtGetWord32]
      rw [uusbDtGetInteger_of_lt mem (n := 4) h]
      exact ⟨rfl, rfl⟩

/-- The parser behind a field that fits. -/
def DtField.behind (field : DtField D) (dtp : UusbDtParser) : UusbDtParser :=
  if field.reads then
    (dtp.note (.bytes dtp.base dtp.len dtp.data field.size)).advance field.size
  else dtp.advance field.size

theorem DtField.parse_of_le {field : DtField D} {dtp : UusbDtParser}
    {target : D} (hokay : dtp.okay = true) (h : field.size ≤ dtp.left) :
    field.parse mem dtp target =
      (true, field.behind dtp, field.storeAt mem dtp.data target) := by
  cases field with
  | skipByte =>
      simp only [parse, uusbDtSkipByte]
      rw [uusbDtSkip_of_le (n := 1) h]
      rfl
  | skipWord16 =>
      simp only [parse, uusbDtSkipWord16]
      rw [uusbDtSkip_of_le (n := 2) h]
      rfl
  | byte store =>
      simp only [parse, uusbDtGetByte]
      rw [uusbDtGetInteger_of_le mem (n := 1) (by decide) h]
      exact Prod.ext hokay rfl
  | word16 store =>
      simp only [parse, uusbDtGetWord16]
      rw [uusbDtGetInteger_of_le mem (n := 2) (by decide) h]
      exact Prod.ext hokay rfl
  | word32 store =>
      simp only [parse, uusbDtGetWord32]
      rw [uusbDtGetInteger_of_le mem (n := 4) (by decide) h]
      exact Prod.ext hokay rfl

@[simp] theorem DtField.behind_okay (field : DtField D) (dtp : UusbDtParser) :
    (field.behind dtp).okay = dtp.okay := by
  unfold behind
  split <;> rfl

@[simp] theorem DtField.behind_left (field : DtField D) (dtp : UusbDtParser) :
    (field.behind dtp).left = dtp.left - field.size := by
  unfold behind
  split <;> rfl

@[simp] theorem DtField.behind_data (field : DtField D) (dtp : UusbDtParser) :
    (field.behind dtp).data = dtp.data + field.size := by
  unfold behind
  split <;> rfl

@[simp] theorem DtField.behind_base (field : DtField D) (dtp : UusbDtParser) :
    (field.behind dtp).base = dtp.base := by
  unfold behind
  split <;> rfl

@[simp] theorem DtField.behind_len (field : DtField D) (dtp : UusbDtParser) :
    (field.behind dtp).len = dtp.len := by
  unfold behind
  split <;> rfl

/-- A chain succeeds exactly when its fields fit in the bytes left. -/
theorem parseFields_fst {dtp : UusbDtParser} (hokay : dtp.okay = true)
    (fields : List (DtField D)) (target : D) :
    (parseFields mem fields dtp target).1 =
      decide (fieldsSize fields ≤ dtp.left) := by
  induction fields generalizing dtp target with
  | nil => simp [parseFields, fieldsSize]
  | cons field rest ih =>
      by_cases h : field.size ≤ dtp.left
      · rw [parseFields, DtField.parse_of_le mem hokay h]
        simp only
        rw [ih (by simpa using hokay), DtField.behind_left, fieldsSize]
        congr 1
        apply propext
        lia
      · have hfail := DtField.parse_of_lt mem target
          (show dtp.left < field.size by lia)
        have hno : ¬ fieldsSize (field :: rest) ≤ dtp.left := by
          rw [fieldsSize]
          lia
        rw [decide_eq_false hno, parseFields]
        rcases hparse : field.parse mem dtp target with ⟨ok, after, stored⟩
        rw [hparse] at hfail
        simp only at hfail
        rw [hfail.1]

/-- A chain that succeeds stores every field. -/
theorem parseFields_target {fields : List (DtField D)} {dtp : UusbDtParser}
    {target : D} (hokay : dtp.okay = true) (h : fieldsSize fields ≤ dtp.left) :
    (parseFields mem fields dtp target).2.2 =
      storeFields mem fields dtp.data target := by
  induction fields generalizing dtp target with
  | nil => rfl
  | cons field rest ih =>
      rw [fieldsSize] at h
      rw [parseFields, DtField.parse_of_le mem hokay (by lia), storeFields]
      simp only
      rw [ih (by simpa using hokay) (by rw [DtField.behind_left]; lia),
        DtField.behind_data]

end

end Usb
end UtokenDecrypt
