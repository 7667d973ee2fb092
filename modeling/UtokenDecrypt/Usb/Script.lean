import UtokenDecrypt.Ccid.Framing

/-!
# A device that follows a script

A device whose answers are laid out in advance, for runs on fixed inputs.  It
accepts every packet, and every receive delivers the next answer: either some
bytes as they are, or a response to the command it was last sent.
-/

namespace UtokenDecrypt

open Foundation
open Usb

inductive ScriptAnswer where
  | raw (packet : List UInt8)
  | response (type : UInt8) (payload : List UInt8)
deriving DecidableEq

structure Script where
  /-- The slot and sequence number of the last command. -/
  command : UInt8 × UInt8 := (0, 0)
  answers : List ScriptAnswer

namespace Script

def packet (usb : Script) : ScriptAnswer -> List UInt8
  | .raw packet => packet
  | .response type payload =>
      ccidPacket type usb.command.1 usb.command.2 {} payload

def deliver (usb : Script) (room : Nat) : Option (List UInt8) × Script :=
  match usb.answers with
  | [] => (none, usb)
  | answer :: rest =>
      let after := { usb with answers := rest }
      if (usb.packet answer).length ≤ room then (some (usb.packet answer), after)
      else (none, after)

instance : Usbfs Script where
  bulkOut usb _ packet :=
    (true, { usb with command := (packet.getD 5 0, packet.getD 6 0) })
  bulkIn usb _ room := usb.deliver room
  setConfiguration usb _ := (true, usb)
  claimInterface usb _ := (true, usb)
  bulkIn_le := by
    intro usb ep room bytes h
    unfold deliver at h
    split at h
    · cases h
    · simp only at h
      split at h
      · rename_i hroom
        cases h
        exact hroom
      · cases h

end Script

/-- A token whose reader has one slot. -/
def slotToken : UusbDev where
  config := [{ interface := [{
    ccid := some {
      bVoltageSupport := 1
      dwProtocols := 1
      dwFeatures := 0x20042
      dwMaxCCIDMessageLength := 271 }
    endpoint := [
      { descriptor := { bEndpointAddress := 0x02, bmAttributes := 2 } },
      { descriptor := { bEndpointAddress := 0x81, bmAttributes := 2 } }] }] }]

end UtokenDecrypt
