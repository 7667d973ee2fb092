import UtokenDecrypt.Ccid.Reader

/-!
# APDUs

How `scard.c` builds an APDU, exchanges it, and puts a response together
that the card delivers in parts.  A pointer to an APDU that could not be built
is `none`; it is used without a check.
-/

namespace UtokenDecrypt

open Foundation

def ifdInsGetResponseApdu : UInt8 := 0xc0

/-- The data is the memory a pointer points to, which holds at least `len`
bytes. -/
def ifdBuildApdu (cla ins p1 p2 : UInt8) (data : Option (List UInt8))
    (len : Nat) : Option Buffer :=
  if len > 0xFF then none
  else do
    let apdu := bufferAllocWrite (5 + len)
    let apdu ← bufferPutU8 apdu cla
    let apdu ← bufferPutU8 apdu ins
    let apdu ← bufferPutU8 apdu p1
    let apdu ← bufferPutU8 apdu p2
    let apdu ← bufferPutU8 apdu (UInt8.ofNat len)
    match data with
    | none => some apdu
    | some data => bufferPut apdu (data.take len)

/-- The status word, an `uint16_t`. -/
def statusWord (sw1 sw2 : UInt8) : Nat :=
  sw1.toNat <<< 8 ||| sw2.toNat

section

variable {σ : Type} [Usbfs σ]

/-- The response without its status word, and the status word. -/
def ifdCardApdu (card : IfdCard) (apdu : Option Buffer) :
    Process (Host σ) (Option (Buffer × Nat)) :=
  match apdu with
  | none => Process.crash
  | some apdu => do
      let rapdu ← ccidReaderApduXfer card.slot apdu
      match rapdu with
      | none => pure none
      | some rapdu =>
          if bufferAvailable rapdu < 2 then pure none
          else
            let sw := statusWord (rapdu.data.getD (rapdu.wpos - 2) 0)
              (rapdu.data.getD (rapdu.wpos - 1) 0)
            pure (some ({ rapdu with wpos := rapdu.wpos - 2 }, sw))

/-- The loop of `ifd_card_xfer`.  Each further round takes some of the room
left in the first response, so that this room bounds the number of rounds. -/
def ifdCardXferLoop (card : IfdCard) :
    Nat -> Buffer -> Nat -> Process (Host σ) (Option (Buffer × Nat))
  | 0, _, _ => Process.hang
  | fuel + 1, rapdu, sw =>
      if sw &&& 0xFF00 = 0x6100 then do
        let lc := UInt8.ofNat (sw &&& 0xFF)
        let len := if lc = 0 then 0x100 else lc.toNat
        let got ← ifdCardApdu card
          (ifdBuildApdu 0 ifdInsGetResponseApdu 0 0 none lc.toNat)
        match got with
        | none => pure none
        | some (rapdu2, sw) =>
            if bufferAvailable rapdu2 ≠ len then pure none
            else
              match bufferPut rapdu
                  ((bufferReadPointer rapdu2).take (bufferAvailable rapdu2)) with
              | none => pure none
              | some rapdu => ifdCardXferLoop card fuel rapdu sw
      else pure (some (rapdu, sw))

def ifdCardXfer (card : IfdCard) (apdu : Option Buffer) :
    Process (Host σ) (Option (Buffer × Nat)) := do
  let got ← ifdCardApdu card apdu
  match got with
  | none => pure none
  | some (rapdu, sw) =>
      ifdCardXferLoop card (bufferTailroom rapdu + 1) rapdu sw

end

end UtokenDecrypt
