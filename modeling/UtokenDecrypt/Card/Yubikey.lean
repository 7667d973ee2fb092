import UtokenDecrypt.Card.Apdu
import UtokenDecrypt.Foundation.Strtoul

/-!
# The YubiKey driver

The functions of `yubikey.c`, and those of `scard.c` that go through
the driver.  The card's key slot and its PIN flag are the two things that change
in a card; a function that changes them returns the new card, and `none`
where the C function returns `false`.
-/

namespace UtokenDecrypt

open Foundation

def ykpivInsVerify : UInt8 := 0x20
def ykpivInsAuthenticate : UInt8 := 0x87
def ykpivInsSelectApplication : UInt8 := 0xa4

def ykpivSuccess : Nat := 0x9000

def ykpivAlgoRsa1024 : UInt8 := 0x06
def ykpivAlgoRsa2048 : UInt8 := 0x07

/-!
## Card options
-/

def yubikeySetCardOption (card : IfdCard) (key : List UInt8)
    (value : Option (List UInt8)) : Option IfdCard :=
  match value with
  | none => none
  | some value =>
      if key = "key-slot".toUTF8.toList then
        let got := strtoul16 value
        let keySlot := wrap32 got.1
        if got.2 ≠ [] then none
        else if keySlot = 0 ∨ keySlot ≥ 0xFF then none
        else some { card with keySlot := UInt8.ofNat keySlot }
      else none

/-- The option is split at its first `=`. -/
def ifdCardSetOption (card : IfdCard) (option : CString) : Option IfdCard :=
  let key := option.bytes.takeWhile (· != 0x3d)
  let value := (option.bytes.dropWhile (· != 0x3d)).tail?
  yubikeySetCardOption card key value

def ifdCardSetOptions (card : IfdCard) : List CString -> Option IfdCard
  | [] => some card
  | option :: rest => do
      let card ← ifdCardSetOption card option
      ifdCardSetOptions card rest

/-!
## Connecting and verifying
-/

section

variable {σ : Type} [Usbfs σ]

def pivAid : List UInt8 := [0xa0, 0x00, 0x00, 0x03, 0x08]

def yubikeySelectApplication (card : IfdCard) (aid : List UInt8) :
    Process (Host σ) Bool :=
  match ifdBuildApdu 0x00 ykpivInsSelectApplication 0x04 0x00 (some aid)
      aid.length with
  | none => pure false
  | some apdu => do
      let got ← ifdCardXfer card (some apdu)
      match got with
      | none => pure false
      | some (_, sw) => pure (sw == ykpivSuccess)

/-- The outcome of a PIN verification, and the number of tries left when it was
stored. -/
structure VerifyResult where
  rv : Bool
  triesLeft : Option Nat := none
deriving DecidableEq

/-- The PIN filled up with `0xFF` to eight bytes. -/
def paddedPin (pin : List UInt8) : List UInt8 :=
  pin ++ List.replicate (8 - pin.length) 0xFF

def yubikeyVerifyApdu (pin : Option CString) : Option Buffer :=
  match pin with
  | none => ifdBuildApdu 0x00 ykpivInsVerify 0x00 0x80 none 0
  | some pin =>
      ifdBuildApdu 0x00 ykpivInsVerify 0x00 0x80 (some (paddedPin pin.bytes)) 8

def yubikeyVerify (card : IfdCard) (pin : Option CString) :
    Process (Host σ) VerifyResult :=
  if 8 < (pin.elim 0 fun pin => pin.bytes.length) then pure { rv := false }
  else
    match yubikeyVerifyApdu pin with
    | none => pure { rv := false }
    | some apdu => do
        let got ← ifdCardXfer card (some apdu)
        match got with
        | none => pure { rv := false }
        | some (_, sw) =>
            if sw &&& 0xFF00 = 0x6300 then
              pure { rv := false, triesLeft := some (sw &&& 0x000F) }
            else pure { rv := sw == ykpivSuccess }

def yubikeyConnect (card : IfdCard) : Process (Host σ) (Option IfdCard) := do
  let selected ← yubikeySelectApplication card pivAid
  if selected then do
    let card := if card.keySlot = 0 then { card with keySlot := 0x9e } else card
    let verified ← yubikeyVerify card none
    pure (some (if verified.rv then { card with pinRequired := false } else card))
  else pure none

end

/-!
## Encoding the arguments
-/

/-- The array filled from its end, and the position of its first byte in use. -/
structure Encoder where
  encoded : List UInt8
  pos : Nat

/-- `encoded[--pos] = byte`; `pos` is an `unsigned int`. -/
def encPushByte (byte : UInt8) : Process Encoder Unit := fun e =>
  if e.pos = 0 then (.crash, e)
  else (.done (), { encoded := e.encoded.set (e.pos - 1) byte, pos := e.pos - 1 })

def encPushLength (len : Nat) : Process Encoder Unit := do
  encPushByte (UInt8.ofNat len)
  if len < 0x80 then pure ()
  else if len < 0x100 then encPushByte 0x81
  else do
    encPushByte (UInt8.ofNat (len >>> 8))
    encPushByte 0x82

/-- Data there is no room for is not written, and the position is then 0. -/
def encPush (data : List UInt8) : Process Encoder Unit :=
  Process.update fun e =>
    if e.pos < data.length then { e with pos := 0 }
    else
      { encoded := overwrite e.encoded (e.pos - data.length) data
        pos := e.pos - data.length }

def encodedSize : Nat := 1024

def yubikeyEncodeArgs (ciphertext : List UInt8) : Process Encoder Unit := do
  encPush ciphertext
  encPushLength ciphertext.length
  encPushByte 0x81
  encPushByte 0x00
  encPushByte 0x82
  let e ← Process.read
  encPushLength (encodedSize - e.pos)
  encPushByte 0x7c

/-- The arguments as a fresh buffer; `none` is `NULL`. -/
def yubikeyEncodeDecipherArgs (ciphertext : List UInt8) :
    Outcome (Option Buffer) :=
  if encodedSize < wrap32 (ciphertext.length + 32) then .done none
  else
    match yubikeyEncodeArgs ciphertext
        { encoded := List.replicate encodedSize 0, pos := encodedSize } with
    | (.done (), e) =>
        let result := bufferAllocWrite 1024
        .done (some ((bufferPut result (e.encoded.drop e.pos)).getD result))
    | (.crash, _) => .crash
    | (.hang, _) => .hang

/-!
## Decoding the response
-/

/-- The length, and the position behind it. -/
def decodeLength (pos : Nat) : Peek (Nat × Nat) := do
  let len ← Peek.byte pos
  if len = 0x81 then do
    let len ← Peek.byte (pos + 1)
    pure (len.toNat, pos + 2)
  else if len = 0x82 then do
    let high ← Peek.byte (pos + 1)
    let low ← Peek.byte (pos + 2)
    pure (high.toNat <<< 8 ||| low.toNat, pos + 3)
  else pure (len.toNat, pos + 1)

/-- `buffer_skip` with its return value and the buffer it leaves. -/
def bufferTrySkip (bp : Buffer) (count : Nat) : Bool × Buffer :=
  (bufferSkip bp count).elim (false, bp) fun after => (true, after)

/-- The bytes are looked at without regard to how many there are, and only the
last step checks. -/
def yubikeyDecodeDecipherResp (resp : Buffer) : Peek (Bool × Buffer) := do
  let tag ← Peek.byte resp.rpos
  if tag ≠ 0x7c then pure (false, resp)
  else do
    let outer ← decodeLength (resp.rpos + 1)
    let tag ← Peek.byte outer.2
    if tag ≠ 0x82 then pure (false, resp)
    else do
      let inner ← decodeLength (outer.2 + 1)
      pure (bufferTrySkip resp (inner.2 - resp.rpos))

/-- The search for the byte that ends the padding, from index `i` on, with the
number of bytes left to look at.  The result of the skip is not checked. -/
def pkcs1FindSeparator (bp : Buffer) : Nat -> Nat -> Peek (Bool × Buffer)
  | 0, _ => pure (false, bp)
  | count + 1, i => do
      let byte ← Peek.byte (bp.rpos + i)
      if byte = 0 then pure (true, (bufferTrySkip bp (i + 1)).2)
      else pkcs1FindSeparator bp count (i + 1)

def pkcs1Type2PaddingRemove (bp : Buffer) : Peek (Bool × Buffer) := do
  let first ← Peek.byte bp.rpos
  let second ← Peek.byte (bp.rpos + 1)
  if first ≠ 0x00 ∨ second ≠ 0x02 then pure (false, bp)
  else pkcs1FindSeparator bp (bufferAvailable bp - 2) 2

/-!
## Deciphering
-/

section

variable {σ : Type} [Usbfs σ]

/-- The loop over the chunks of the arguments: `none` where the source goes
to `done`, and otherwise the last response. -/
def yubikeyDecipherChunks (card : IfdCard) (algorithm : UInt8) :
    Nat -> Buffer -> Option Buffer -> Process (Host σ) (Option (Option Buffer))
  | 0, _, _ => Process.hang
  | fuel + 1, data, rapdu =>
      if bufferAvailable data = 0 then pure (some rapdu)
      else do
        let len := min (bufferAvailable data) 0xFF
        let cla := if bufferAvailable data > 0xFF then 0x10 else 0x00
        let got ← ifdCardXfer card
          (ifdBuildApdu cla ykpivInsAuthenticate algorithm card.keySlot
            (some (bufferReadPointer data)) len)
        match got with
        | none => pure none
        | some (rapdu, sw) =>
            if sw = ykpivSuccess then
              yubikeyDecipherChunks card algorithm fuel
                ((bufferSkip data len).getD data) (some rapdu)
            else pure none

/-- The response unwrapped; the cleartext is dumped at every debug level. -/
def yubikeyUnwrap (rapdu : Buffer) : Process (Host σ) (Option Buffer) := do
  let decoded ← Process.peek rapdu.data (yubikeyDecodeDecipherResp rapdu)
  if decoded.1 then do
    let removed ← Process.peek decoded.2.data (pkcs1Type2PaddingRemove decoded.2)
    if removed.1 then do
      dump (bufferReadPointer removed.2) (bufferAvailable removed.2)
      pure (some removed.2)
    else pure none
  else pure none

/-- `yubikey_decipher` from the encoded arguments on. -/
def yubikeyDecipherArgs (card : IfdCard) (algorithm : UInt8)
    (data : Option Buffer) : Process (Host σ) (Option Buffer) :=
  match data with
  | none => Process.crash
  | some data => do
      let sent ← yubikeyDecipherChunks card algorithm (bufferAvailable data + 1)
        data none
      match sent with
      | none => pure none
      | some none => Process.crash
      | some (some rapdu) => yubikeyUnwrap rapdu

def yubikeyAlgorithm (inLen : Nat) : Option UInt8 :=
  if inLen = 128 then some ykpivAlgoRsa1024
  else if inLen = 256 then some ykpivAlgoRsa2048
  else none

def yubikeyDecipher (card : IfdCard) (ciphertext : Buffer) :
    Process (Host σ) (Option Buffer) := do
  let inLen := bufferAvailable ciphertext
  whenDebug2 (dump (bufferReadPointer ciphertext) inLen)
  match yubikeyAlgorithm inLen with
  | none => pure none
  | some algorithm => do
      let data ← Process.ofOutcome
        (yubikeyEncodeDecipherArgs ((bufferReadPointer ciphertext).take inLen))
      yubikeyDecipherArgs card algorithm data

/-!
## A whole run
-/

/-- `doit` of `main.c`. -/
def doit (pin : Option CString) (ciphertext : Buffer) (cardopts : List CString) :
    Process (Host σ) (Option Buffer) := do
  let created ← ccidReaderCreate
  if created then do
    let selected ← ccidReaderSelectSlot 0
    if selected then do
      let card ← ccidReaderIdentifyCard 0
      match card.bind fun card => ifdCardSetOptions card cardopts with
      | none => pure none
      | some card => do
          let card ← yubikeyConnect card
          match card with
          | none => pure none
          | some card =>
              match pin with
              | none => yubikeyDecipher card ciphertext
              | some pin => do
                  let verified ← yubikeyVerify card (some pin)
                  if verified.rv then yubikeyDecipher card ciphertext
                  else pure none
    else pure none
  else pure none

end

end UtokenDecrypt
