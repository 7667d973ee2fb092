import UtokenDecrypt.Alloc.Blocks
import UtokenDecrypt.Card.Yubikey

/-!
# The card, block by block

The functions of `scard.c`, `yubikey.c` and `main.c` with the blocks they
allocate and free.  A card is a block that its driver writes to; elsewhere in the
development a function that does returns the new card.

Where the C code ends at a label `done` that frees what is left, so does the
definition.  A pointer that is overwritten, or not looked at again, is lost with
its block.
-/

namespace UtokenDecrypt
namespace Alloc

open Foundation
open Machine

section

variable {σ : Type}

def loadCard (card : Nat) : Prog σ (IfdCard × Nat) :=
  loadAs Block.card? card

/-- Write to a card, where that is needed. -/
def writeCard (card : Nat) (needed : IfdCard -> Bool) (f : IfdCard -> IfdCard) :
    Prog σ Unit := do
  let (c, reader) ← loadCard card
  if needed c then store card (.card (f c) reader) else pure ()

def loadString (addr : Nat) : Prog σ (List UInt8) :=
  loadAs Block.string? addr

/-!
## Card options
-/

def stringAt (bytes : List UInt8) (pos : Nat) : List UInt8 :=
  (bytes.drop pos).takeWhile (· != 0)

/-- The position of the first byte of a string that is the given one. -/
def strchr (bytes : List UInt8) (byte : UInt8) : Option Nat :=
  (stringAt bytes 0).findIdx? (· == byte)

/-- The key is at the start of the block, the value at a position behind it. -/
def yubikeySetCardOption (card copy : Nat) (value : Option Nat) : Prog σ Bool := do
  let bytes ← loadString copy
  let (c, reader) ← loadCard card
  match UtokenDecrypt.yubikeySetCardOption c (stringAt bytes 0)
      (value.map (stringAt bytes)) with
  | none => pure false
  | some c => do
      store card (.card c reader)
      pure true

/-- The copy of the option is cut at its first `=`. -/
def ifdCardSetOption (card : Nat) (option : CString) : Prog σ Bool := do
  let copy ← malloc (.string (option.bytes ++ [0]))
  let bytes ← loadString copy
  let ok ← match strchr bytes 0x3d with
    | none => yubikeySetCardOption card copy none
    | some pos => do
        store copy (.string (bytes.set pos 0))
        yubikeySetCardOption card copy (some (pos + 1))
  free copy
  pure ok

def ifdCardSetOptions (card : Nat) : List CString -> Prog σ Bool
  | [] => pure true
  | option :: rest => do
      let ok ← ifdCardSetOption card option
      if ok then ifdCardSetOptions card rest else pure false

/-!
## APDUs
-/

def ifdFillApdu (apdu : Nat) (cla ins p1 p2 : UInt8) (data : Option (List UInt8))
    (len : Nat) : Prog σ (Option Unit) :=
  (putting apdu fun bp => bufferPutU8 bp cla).thenSome fun _ =>
  (putting apdu fun bp => bufferPutU8 bp ins).thenSome fun _ =>
  (putting apdu fun bp => bufferPutU8 bp p1).thenSome fun _ =>
  (putting apdu fun bp => bufferPutU8 bp p2).thenSome fun _ =>
  (putting apdu fun bp => bufferPutU8 bp (UInt8.ofNat len)).thenSome fun _ =>
  match data with
  | none => pure (some ())
  | some data => putting apdu fun bp => bufferPut bp (data.take len)

/-- The buffer is not freed where a write fails. -/
def ifdBuildApdu (cla ins p1 p2 : UInt8) (data : Option (List UInt8)) (len : Nat) :
    Prog σ (Option Nat) :=
  if len > 0xFF then pure none
  else do
    let apdu ← bufferAllocWrite (5 + len)
    let filled ← ifdFillApdu apdu cla ins p1 p2 data len
    match filled with
    | none => pure none
    | some () => pure (some apdu)

/-- Build an APDU, exchange it, and free it. -/
def sendAndFree {ω : Type} (build : Prog σ (Option Nat)) (send : Option Nat -> Prog σ ω) :
    Prog σ ω := do
  let apdu ← build
  let got ← send apdu
  freePointer apdu
  pure got

variable [Usbfs σ]

/-- A response that is too short is not freed. -/
def ifdCardApdu (card : Nat) (apdu : Option Nat) : Prog σ (Option (Nat × Nat)) := do
  let (c, reader) ← loadCard card
  let rapdu ← ccidReaderApduXfer reader c.slot apdu
  match rapdu with
  | none => pure none
  | some rapdu => do
      let bp ← loadBuffer rapdu
      if bufferAvailable bp < 2 then pure none
      else do
        let sw := statusWord (bp.data.getD (bp.wpos - 2) 0) (bp.data.getD (bp.wpos - 1) 0)
        store rapdu (.buffer { bp with wpos := bp.wpos - 2 })
        pure (some (rapdu, sw))

/-- The loop of `ifd_card_xfer`, with a bound on the number of its rounds. -/
def ifdCardXferLoop (card : Nat) : Nat -> Nat -> Nat -> Prog σ (Option (Nat × Nat))
  | 0, _, _ => Process.hang
  | fuel + 1, rapdu, sw =>
      if sw &&& 0xFF00 = 0x6100 then do
        let lc := UInt8.ofNat (sw &&& 0xFF)
        let len := if lc = 0 then 0x100 else lc.toNat
        let got ← sendAndFree (ifdBuildApdu 0 ifdInsGetResponseApdu 0 0 none lc.toNat)
          (ifdCardApdu card)
        match got with
        | none => do
            bufferFree rapdu
            pure none
        | some (rapdu2, sw) => do
            let bp2 ← loadBuffer rapdu2
            if bufferAvailable bp2 ≠ len then do
              bufferFree rapdu2
              bufferFree rapdu
              pure none
            else do
              let put ← putting rapdu fun bp =>
                bufferPut bp ((bufferReadPointer bp2).take (bufferAvailable bp2))
              match put with
              | none => do
                  bufferFree rapdu2
                  bufferFree rapdu
                  pure none
              | some () => do
                  bufferFree rapdu2
                  ifdCardXferLoop card fuel rapdu sw
      else pure (some (rapdu, sw))

def ifdCardXfer (card : Nat) (apdu : Option Nat) : Prog σ (Option (Nat × Nat)) := do
  let got ← ifdCardApdu card apdu
  match got with
  | none => pure none
  | some (rapdu, sw) => do
      let bp ← loadBuffer rapdu
      ifdCardXferLoop card (bufferTailroom bp + 1) rapdu sw

/-!
## Connecting and verifying
-/

/-- Exchange an APDU, if it could be built, and free it and the response: the
status word, if there was a response. -/
def xferAndFree (card : Nat) (apdu : Option Nat) : Prog σ (Option Nat) :=
  match apdu with
  | none => pure none
  | some apdu => do
      let got ← ifdCardXfer card (some apdu)
      bufferFree apdu
      freePointer (got.map Prod.fst)
      pure (got.map Prod.snd)

def yubikeySelectApplication (card : Nat) (aid : List UInt8) : Prog σ Bool := do
  let apdu ← ifdBuildApdu 0x00 ykpivInsSelectApplication 0x04 0x00 (some aid) aid.length
  let sw ← xferAndFree card apdu
  pure (sw == some ykpivSuccess)

def yubikeyVerifyApdu (pin : Option CString) : Prog σ (Option Nat) :=
  match pin with
  | none => ifdBuildApdu 0x00 ykpivInsVerify 0x00 0x80 none 0
  | some pin => ifdBuildApdu 0x00 ykpivInsVerify 0x00 0x80 (some (paddedPin pin.bytes)) 8

def yubikeyVerify (card : Nat) (pin : Option CString) : Prog σ VerifyResult :=
  if 8 < (pin.elim 0 fun pin => pin.bytes.length) then pure { rv := false }
  else do
    let apdu ← yubikeyVerifyApdu pin
    let sw ← xferAndFree card apdu
    match sw with
    | none => pure { rv := false }
    | some sw =>
        if sw &&& 0xFF00 = 0x6300 then
          pure { rv := false, triesLeft := some (sw &&& 0x000F) }
        else pure { rv := sw == ykpivSuccess }

def yubikeyConnect (card : Nat) : Prog σ Bool := do
  let selected ← yubikeySelectApplication card pivAid
  if selected then do
    writeCard card (fun c => c.keySlot = 0) fun c => { c with keySlot := 0x9e }
    let verified ← yubikeyVerify card none
    writeCard card (fun _ => verified.rv) fun c => { c with pinRequired := false }
    pure true
  else pure false

/-!
## Deciphering
-/

omit [Usbfs σ] in
def yubikeyEncodeDecipherArgs (ciphertext : List UInt8) : Prog σ (Option Nat) :=
  if encodedSize < wrap32 (ciphertext.length + 32) then pure none
  else
    match yubikeyEncodeArgs ciphertext
        { encoded := List.replicate encodedSize 0, pos := encodedSize } with
    | (.done (), e) => do
        let result ← bufferAllocWrite 1024
        let _ ← putting result fun bp => bufferPut bp (e.encoded.drop e.pos)
        pure (some result)
    | (.crash, _) => Process.crash
    | (.hang, _) => Process.hang

/-- The loop over the chunks: whether all were sent, and the last response.  The
response of a chunk before the last is lost. -/
def yubikeyDecipherChunks (card : Nat) (algorithm key : UInt8) :
    Nat -> Nat -> Option Nat -> Prog σ (Bool × Option Nat)
  | 0, _, _ => Process.hang
  | fuel + 1, data, rapdu => do
      let bp ← loadBuffer data
      if bufferAvailable bp = 0 then pure (true, rapdu)
      else do
        let len := min (bufferAvailable bp) 0xFF
        let cla := if bufferAvailable bp > 0xFF then 0x10 else 0x00
        let got ← sendAndFree (ifdBuildApdu cla ykpivInsAuthenticate algorithm key
          (some (bufferReadPointer bp)) len) (ifdCardXfer card)
        match got with
        | none => pure (false, none)
        | some (rapdu, sw) =>
            if sw = ykpivSuccess then do
              let _ ← putting data fun bp => bufferSkip bp len
              yubikeyDecipherChunks card algorithm key fuel data (some rapdu)
            else pure (false, some rapdu)

omit [Usbfs σ] in
def yubikeyUnwrap (rapdu : Nat) : Prog σ Bool := do
  let bp ← loadBuffer rapdu
  let decoded ← onHost (Process.peek bp.data (yubikeyDecodeDecipherResp bp))
  store rapdu (.buffer decoded.2)
  if decoded.1 then do
    let removed ← onHost (Process.peek decoded.2.data (pkcs1Type2PaddingRemove decoded.2))
    store rapdu (.buffer removed.2)
    if removed.1 then do
      onHost (dump (bufferReadPointer removed.2) (bufferAvailable removed.2))
      pure true
    else pure false
  else pure false

omit [Usbfs σ] in
/-- The last response unwrapped, if all parts were sent. -/
def unwrapSent (sent : Bool) (rapdu : Option Nat) : Prog σ Bool :=
  if sent then do
    let rapdu ← deref rapdu
    yubikeyUnwrap rapdu
  else pure false

/-- `yubikey_decipher` from the encoded arguments on. -/
def yubikeyDecipherArgs (card : Nat) (algorithm key : UInt8) (data : Option Nat) :
    Prog σ (Option Nat) := do
  let data ← deref data
  let bp ← loadBuffer data
  let (sent, rapdu) ← yubikeyDecipherChunks card algorithm key (bufferAvailable bp + 1)
    data none
  let clear ← unwrapSent sent rapdu
  bufferFree data
  if clear then pure rapdu
  else do
    freePointer rapdu
    pure none

def yubikeyDecipher (card ciphertext : Nat) : Prog σ (Option Nat) := do
  let (c, _) ← loadCard card
  let bp ← loadBuffer ciphertext
  let inLen := bufferAvailable bp
  whenDebug2 (onHost (dump (bufferReadPointer bp) inLen))
  match yubikeyAlgorithm inLen with
  | none => pure none
  | some algorithm => do
      let data ← yubikeyEncodeDecipherArgs ((bufferReadPointer bp).take inLen)
      yubikeyDecipherArgs card algorithm c.keySlot data

/-!
## A whole run
-/

/-- `doit` of `main.c`; the reader and the card are never freed. -/
def doit (pin : Option CString) (ciphertext : Nat) (cardopts : List CString) :
    Prog σ (Option Nat) := do
  let reader ← ccidReaderCreate
  match reader with
  | none => pure none
  | some reader => do
      let selected ← ccidReaderSelectSlot reader 0
      if selected then do
        let card ← ccidReaderIdentifyCard reader 0
        match card with
        | none => pure none
        | some card => do
            let set ← ifdCardSetOptions card cardopts
            if set then do
              let connected ← yubikeyConnect card
              if connected then
                match pin with
                | none => yubikeyDecipher card ciphertext
                | some pin => do
                    let verified ← yubikeyVerify card (some pin)
                    if verified.rv then yubikeyDecipher card ciphertext else pure none
              else pure none
            else pure none
      else pure none

end

end Alloc
end UtokenDecrypt
