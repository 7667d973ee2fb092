import UtokenDecrypt.Card.Types
import UtokenDecrypt.Ccid.Exchange

/-!
# The reader

The functions of `reader.c` above `ccid_xfer`: setting up a reader,
selecting its slot, powering the card on and sending an APDU.  A command that
was sent, and a response that came back, are freed on every path; nothing of
that is seen here.
-/

namespace UtokenDecrypt

open Foundation
open Usb

def ccidCmdIccpoweron : UInt8 := 0x62
def ccidCmdGetslotstat : UInt8 := 0x65
def ccidCmdXfrblock : UInt8 := 0x6F

def ccidProtoT0Mask : UInt32 := 0x01
def ccidProtoT1Mask : UInt32 := 0x02

/-- Whether the reader chooses the voltage, when it has all the features that
are needed. -/
def ccidReaderSetFeatures (ccid : CcidDescriptor) : Option Bool :=
  let f := ccid.dwFeatures
  if f &&& 0x60000 = 0 then none
  else
    let autoAtr := f &&& 0x2 ≠ 0
    let autoVoltage := f &&& 0x4 ≠ 0 ∨ f &&& 0x8 ≠ 0
    let noPts := f &&& 0x40 ≠ 0 ∨ f &&& 0x80 ≠ 0
    let noSetparam := f &&& 0x40 ≠ 0
    if ¬ autoAtr ∨ ¬ noPts ∨ ¬ noSetparam then none
    else some (decide autoVoltage)

/-- The `int` of the current slot, compared with an `unsigned int`. -/
def slotUnsigned (slot : Int) : Nat :=
  (slot % 2 ^ 32).toNat

section

variable {σ : Type} [Usbfs σ]

def ccidReaderCreate : Process (Host σ) Bool := do
  let ccid ← uusbDevSelectCcidInterface
  match ccid with
  | none => pure false
  | some ccid =>
      if ccid.dwProtocols &&& (ccidProtoT0Mask ||| ccidProtoT1Mask) = 0 then
        pure false
      else
        match ccidReaderSetFeatures ccid with
        | none => pure false
        | some autoVoltage => do
            Process.update fun s =>
              { s with reader := {
                  ccid := ccid
                  maxMessageSize := ccid.dwMaxCCIDMessageLength.toNat
                  supportedProtocols := ccid.dwProtocols.toNat
                  autoVoltage := autoVoltage
                  supportedVoltages := (ccid.bVoltageSupport &&& 0x7).toNat
                  currentSlot := -1
                  ccidSeq := 0 } }
            pure true

/-- Send a command that may have failed to be built. -/
def ccidXferBuilt (cmd : Option CcidCommand) (expected : UInt8) :
    Process (Host σ) (Option CcidResponse) :=
  match cmd with
  | none => pure none
  | some cmd => ccidXfer cmd expected

/-- The card status of a slot: 0 when there is no card. -/
def ccidGetSlotStatus (slot : Nat) : Process (Host σ) (Option Nat) := do
  let s ← Process.read
  let resp ← ccidXferBuilt
    (ccidBuildSimplePacket s.reader (UInt8.ofNat slot) ccidCmdGetslotstat)
    ccidRespSlotstat
  pure (resp.map fun resp => if resp.ctl.ctl1 &&& 0x3 = 2 then 0 else 1)

def ccidCardPoweron (slot : Nat) (voltage : UInt8) :
    Process (Host σ) (Option IfdAtrbuf) := do
  let s ← Process.read
  let resp ← ccidXferBuilt
    (ccidBuildCommand s.reader (UInt8.ofNat slot) ccidCmdIccpoweron
      (some { ctl1 := voltage }) [] 0)
    ccidRespData
  pure (resp.map fun resp =>
    ifdAtrbufSet (bufferReadPointer resp.payload) (bufferAvailable resp.payload))

/-- The loop of `ccid_reset_card` over the voltages. -/
def ccidTryVoltages (slot : Nat) : List Nat -> Process (Host σ) (Option IfdAtrbuf)
  | [] => pure none
  | i :: rest => do
      let s ← Process.read
      if s.reader.supportedVoltages.testBit i then do
        let atr ← ccidCardPoweron slot (UInt8.ofNat (i + 1))
        match atr with
        | some atr => pure (some atr)
        | none => ccidTryVoltages slot rest
      else ccidTryVoltages slot rest

def ccidResetCard (slot : Nat) : Process (Host σ) (Option IfdAtrbuf) := do
  let s ← Process.read
  if s.reader.autoVoltage then do
    let atr ← ccidCardPoweron slot 0
    match atr with
    | some atr => pure (some atr)
    | none => ccidTryVoltages slot [0, 1, 2]
  else ccidTryVoltages slot [0, 1, 2]

def ccidReaderSelectSlot (slot : Nat) : Process (Host σ) Bool := do
  let s ← Process.read
  if slotUnsigned s.reader.currentSlot = slot then pure true
  else do
    let status ← ccidGetSlotStatus slot
    match status with
    | none => pure false
    | some status =>
        if status = 0 then pure false
        else do
          Process.update fun s =>
            { s with reader := { s.reader with currentSlot := signed32 slot } }
          pure true

def ccidReaderIdentifyCard (slot : Nat) : Process (Host σ) (Option IfdCard) := do
  let s ← Process.read
  if slot ≠ slotUnsigned s.reader.currentSlot then pure none
  else do
    let atr ← ccidResetCard slot
    pure (atr.bind fun atr => ifdCreateCard atr slot)

def ccidReaderApduXfer (slot : Nat) (apdu : Buffer) :
    Process (Host σ) (Option Buffer) := do
  let s ← Process.read
  let resp ← ccidXferBuilt
    (ccidBuildCommand s.reader (UInt8.ofNat slot) ccidCmdXfrblock none
      (bufferReadPointer apdu) (bufferAvailable apdu))
    ccidRespData
  pure (resp.map fun resp => resp.payload)

end

end UtokenDecrypt
