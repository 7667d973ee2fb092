import UtokenDecrypt.Ccid.Reader
import UtokenDecrypt.Foundation.Ownership

/-!
# Allocated blocks

The functions of `reader.c` once more, with the blocks they allocate and free.
Elsewhere in the development a buffer, a command or a response is a value; here
it is a block of the heap, and what a function is given and what it returns are
pointers.  A function that is named as one elsewhere is the same C function.

A buffer and its bytes are one block, as `buffer_alloc_write` allocates them.
The reader is a block too, but what is in it stays in the state, where the rest
of the development has it.
-/

namespace UtokenDecrypt
namespace Alloc

open Foundation
open Machine

/-- `struct ccid_command`. -/
structure CommandBlock where
  slot : UInt8
  seq : UInt8
  pkt : Option Nat

/-- `struct ccid_response`. -/
structure ResponseBlock where
  type : UInt8 := 0
  slot : UInt8 := 0
  seq : UInt8 := 0
  ctl : CcidCtl := {}
  pkt : Option Nat := none
  payload : Option Nat := none

/-- What the program allocates. -/
inductive Block where
  | buffer (bp : Buffer)
  | command (cmd : CommandBlock)
  | response (resp : ResponseBlock)
  | reader
  | card (card : IfdCard) (reader : Nat)
  | string (bytes : List UInt8)

namespace Block

def buffer? : Block -> Option Buffer
  | .buffer bp => some bp
  | _ => none

def command? : Block -> Option CommandBlock
  | .command cmd => some cmd
  | _ => none

def response? : Block -> Option ResponseBlock
  | .response resp => some resp
  | _ => none

def reader? : Block -> Option Unit
  | .reader => some ()
  | _ => none

def card? : Block -> Option (IfdCard × Nat)
  | .card c addr => some (c, addr)
  | _ => none

def string? : Block -> Option (List UInt8)
  | .string bytes => some bytes
  | _ => none

end Block

/-- A program with the blocks above. -/
abbrev Prog (σ α : Type) : Type :=
  Process (Machine (Host σ) Block) α

section

variable {σ α ω : Type}

/-!
## Buffers
-/

def bufferAllocWrite (size : Nat) : Prog σ Nat :=
  malloc (.buffer (UtokenDecrypt.bufferAllocWrite size))

def bufferFree (bp : Nat) : Prog σ Unit :=
  free bp

def loadBuffer (bp : Nat) : Prog σ Buffer :=
  loadAs Block.buffer? bp

/-- A buffer operation that puts something into the buffer, or leaves it alone. -/
def putting (bp : Nat) (op : Buffer -> Option Buffer) : Prog σ (Option Unit) := do
  let buffer ← loadBuffer bp
  match op buffer with
  | none => pure none
  | some buffer => do
      store bp (.buffer buffer)
      pure (some ())

/-- A buffer operation that takes something out of the buffer, or leaves it
alone. -/
def getting (bp : Nat) (op : Buffer -> Option (ω × Buffer)) : Prog σ (Option ω) := do
  let buffer ← loadBuffer bp
  match op buffer with
  | none => pure none
  | some (value, buffer) => do
      store bp (.buffer buffer)
      pure (some value)

def whenDebug2 (action : Prog σ Unit) : Prog σ Unit := fun m =>
  if 1 < m.host.optDebug then action m else (.done (), m)

/-!
## Commands and responses
-/

def loadCommand (cmd : Nat) : Prog σ CommandBlock :=
  loadAs Block.command? cmd

def loadResponse (resp : Nat) : Prog σ ResponseBlock :=
  loadAs Block.response? resp

/-- Follow the pointer to the reader. -/
def useReader (reader : Nat) : Prog σ Unit :=
  loadAs Block.reader? reader

def ccidCommandCreate (seqno slot : UInt8) (pkt : Nat) : Prog σ Nat :=
  malloc (.command { slot := slot, seq := seqno, pkt := some pkt })

def ccidCommandFree (cmd : Nat) : Prog σ Unit := do
  let block ← loadCommand cmd
  freePointer block.pkt
  free cmd

/-- The reads of `ccid_response_create`, in the order of the condition. -/
def ccidResponseRead (pkt : Nat) : Prog σ (Option ResponseBlock) :=
  (getting pkt bufferGetU8).thenSome fun type =>
  (getting pkt bufferGetU32le).thenSome fun payloadLen =>
  (getting pkt bufferGetU8).thenSome fun slot =>
  (getting pkt bufferGetU8).thenSome fun seq =>
  (getting pkt fun bp => bufferGet bp 3).thenSome fun ctl =>
  (putting pkt fun bp => bufferTruncate bp payloadLen).thenSome fun _ =>
  pure (some { type := type, slot := slot, seq := seq, ctl := CcidCtl.ofBytes ctl })

def ccidResponseCreate (pkt : Nat) : Prog σ (Option Nat) := do
  let bp ← loadBuffer pkt
  if bufferAvailable bp < 10 then pure none
  else do
    let resp ← malloc (.response {})
    let got ← ccidResponseRead pkt
    match got with
    | none => do
        free resp
        pure none
    | some block => do
        store resp (.response { block with payload := some pkt })
        pure (some resp)

/-- The pointer is followed before anything else. -/
def ccidResponseFree (resp : Option Nat) : Prog σ Unit := do
  let resp ← deref resp
  let block ← loadResponse resp
  freePointer block.pkt
  freePointer block.payload
  free resp

/-- The writes of `ccid_build_command`. -/
def ccidFillCommand (bp : Nat) (seq slot cmd : UInt8) (ctlData : Option CcidCtl)
    (payload : List UInt8) (payloadLen : Nat) : Prog σ (Option Unit) :=
  (putting bp fun bp => bufferPutU8 bp cmd).thenSome fun _ =>
  (putting bp fun bp => bufferPutU32le bp payloadLen).thenSome fun _ =>
  (putting bp fun bp => bufferPutU8 bp slot).thenSome fun _ =>
  (putting bp fun bp => bufferPutU8 bp seq).thenSome fun _ =>
  (putting bp fun bp => bufferPut bp (ctlData.getD {}).bytes).thenSome fun _ =>
  putting bp fun bp => ccidPutPayload bp payload payloadLen

def ccidBuildCommand (reader : Nat) (slot cmd : UInt8) (ctlData : Option CcidCtl)
    (payload : List UInt8) (payloadLen : Nat) : Prog σ (Option Nat) := do
  useReader reader
  let s ← onHost Process.read
  let seq := UInt8.ofNat s.reader.ccidSeq
  let bp ← bufferAllocWrite (wrap32 (16 + payloadLen))
  let filled ← ccidFillCommand bp seq slot cmd ctlData payload payloadLen
  match filled with
  | none => do
      bufferFree bp
      pure none
  | some () => do
      let built ← ccidCommandCreate seq slot bp
      pure (some built)

def ccidBuildSimplePacket (reader : Nat) (slot cmd : UInt8) : Prog σ (Option Nat) :=
  ccidBuildCommand reader slot cmd none [] 0

/-!
## Exchanging
-/

variable [Usbfs σ]

/-- `uusb_bulk` of `uusb_recv`. -/
def uusbRecvBytes (maxlen : Nat) : Process (Host σ) (Option (List UInt8)) := fun s =>
  let rc := uusbRecvBulk s.dev maxlen s.usb
  (.done rc.1, { s with usb := rc.2, log := s.log ++ [.recv rc.1] })

def uusbRecv (maxlen : Nat) : Prog σ (Option Nat) := do
  let pkt ← bufferAllocWrite maxlen
  let bp ← loadBuffer pkt
  store pkt (.buffer { bp with
    data := overwrite bp.data bp.wpos (List.replicate (bufferTailroom bp) 0xAA) })
  let got ← onHost (uusbRecvBytes maxlen)
  match got with
  | none => do
      bufferFree pkt
      pure none
  | some bytes => do
      let bp ← loadBuffer pkt
      store pkt (.buffer { bp with
        data := overwrite bp.data bp.wpos bytes
        wpos := bp.wpos + bytes.length })
      pure (some pkt)

omit [Usbfs σ] in
/-- The loop body behind the dump of the packet. -/
def ccidXferAnswer (cmd : Nat) (expected : UInt8) (rbuf : Nat)
    (again : Prog σ (Option Nat)) : Prog σ (Option Nat) := do
  let resp ← ccidResponseCreate rbuf
  match resp with
  | none => do
      bufferFree rbuf
      ccidResponseFree none
      again
  | some resp => do
      let r ← loadResponse resp
      let c ← loadCommand cmd
      if r.slot = c.slot ∧ r.seq = c.seq then
        if r.type ≠ expected then do
          ccidResponseFree (some resp)
          pure none
        else if r.ctl.ctl1 &&& 0xc0 = 0 then pure (some resp)
        else if r.ctl.ctl1 &&& 0xc0 = 0x80 then do
          ccidResponseFree (some resp)
          again
        else do
          ccidResponseFree (some resp)
          pure none
      else do
        ccidResponseFree (some resp)
        again

def ccidXferLoop (reader cmd : Nat) (expected : UInt8) : Nat -> Prog σ (Option Nat)
  | 0 => pure none
  | retries + 1 => do
      useReader reader
      let s ← onHost Process.read
      let rbuf ← uusbRecv s.reader.maxMessageSize
      match rbuf with
      | none => pure none
      | some rbuf => do
          whenDebug2 do
            let bp ← loadBuffer rbuf
            onHost (ccidDumpResponse bp)
          ccidXferAnswer cmd expected rbuf (ccidXferLoop reader cmd expected retries)

def ccidXfer (reader cmd : Nat) (expected : UInt8) : Prog σ (Option Nat) := do
  let c ← loadCommand cmd
  whenDebug2 do
    let pkt ← deref c.pkt
    let bp ← loadBuffer pkt
    onHost (dump (bufferReadPointer bp) (bufferAvailable bp))
  useReader reader
  let pkt ← deref c.pkt
  let bp ← loadBuffer pkt
  let rv ← onHost (uusbSend bp)
  if rv then do
    useReader reader
    onHost (Process.update fun s =>
      { s with reader := { s.reader with ccidSeq := c.seq.toNat + 1 } })
    ccidXferLoop reader cmd expected 6
  else pure none

/-!
## The reader
-/

/-- The pointer to the reader; the block of one that lacks a feature is lost. -/
def ccidReaderCreate : Prog σ (Option Nat) := do
  let ccid ← onHost uusbDevSelectCcidInterface
  match ccid with
  | none => pure none
  | some ccid =>
      if ccid.dwProtocols &&& (ccidProtoT0Mask ||| ccidProtoT1Mask) = 0 then pure none
      else do
        let reader ← malloc .reader
        match ccidReaderSetFeatures ccid with
        | none => pure none
        | some autoVoltage => do
            useReader reader
            onHost (Process.update fun s =>
              { s with reader := {
                  ccid := ccid
                  maxMessageSize := ccid.dwMaxCCIDMessageLength.toNat
                  supportedProtocols := ccid.dwProtocols.toNat
                  autoVoltage := autoVoltage
                  supportedVoltages := (ccid.bVoltageSupport &&& 0x7).toNat
                  currentSlot := -1
                  ccidSeq := 0 } })
            pure (some reader)

omit [Usbfs σ] in
/-- `if (cmd) ccid_command_free(cmd); if (resp) ccid_response_free(resp);` -/
def ccidFreeBoth (cmd resp : Option Nat) : Prog σ Unit := do
  cmd.elim (pure ()) ccidCommandFree
  resp.elim (pure ()) fun resp => ccidResponseFree (some resp)

/-- Send a command that may have failed to be built, look at the response, and
free both. -/
def ccidXferBuilt (reader : Nat) (expected : UInt8) (build : Prog σ (Option Nat))
    (look : Nat -> Prog σ (Option ω)) : Prog σ (Option ω) := do
  let cmd ← build
  match cmd with
  | none => do
      ccidFreeBoth none none
      pure none
  | some cmd => do
      let resp ← ccidXfer reader cmd expected
      let value ← resp.elim (pure none) look
      ccidFreeBoth (some cmd) resp
      pure value

def ccidGetSlotStatus (reader : Nat) (slot : Nat) : Prog σ (Option Nat) :=
  ccidXferBuilt reader ccidRespSlotstat
    (ccidBuildSimplePacket reader (UInt8.ofNat slot) ccidCmdGetslotstat) fun resp => do
      let r ← loadResponse resp
      pure (some (if r.ctl.ctl1 &&& 0x3 = 2 then 0 else 1))

def ccidCardPoweron (reader : Nat) (slot : Nat) (voltage : UInt8) :
    Prog σ (Option IfdAtrbuf) :=
  ccidXferBuilt reader ccidRespData
    (ccidBuildCommand reader (UInt8.ofNat slot) ccidCmdIccpoweron
      (some { ctl1 := voltage }) [] 0) fun resp => do
      let r ← loadResponse resp
      let atrbuf ← deref r.payload
      let bp ← loadBuffer atrbuf
      pure (some (ifdAtrbufSet (bufferReadPointer bp) (bufferAvailable bp)))

/-- The loop of `ccid_reset_card` over the voltages. -/
def ccidTryVoltages (reader : Nat) (slot : Nat) : List Nat -> Prog σ (Option IfdAtrbuf)
  | [] => pure none
  | i :: rest => do
      useReader reader
      let s ← onHost Process.read
      if s.reader.supportedVoltages.testBit i then do
        let atr ← ccidCardPoweron reader slot (UInt8.ofNat (i + 1))
        match atr with
        | some atr => pure (some atr)
        | none => ccidTryVoltages reader slot rest
      else ccidTryVoltages reader slot rest

def ccidResetCard (reader : Nat) (slot : Nat) : Prog σ (Option IfdAtrbuf) := do
  useReader reader
  let s ← onHost Process.read
  if s.reader.autoVoltage then do
    let atr ← ccidCardPoweron reader slot 0
    match atr with
    | some atr => pure (some atr)
    | none => ccidTryVoltages reader slot [0, 1, 2]
  else ccidTryVoltages reader slot [0, 1, 2]

def ccidReaderSelectSlot (reader : Nat) (slot : Nat) : Prog σ Bool := do
  useReader reader
  let s ← onHost Process.read
  if slotUnsigned s.reader.currentSlot = slot then pure true
  else do
    let status ← ccidGetSlotStatus reader slot
    match status with
    | none => pure false
    | some status =>
        if status = 0 then pure false
        else do
          useReader reader
          onHost (Process.update fun s =>
            { s with reader := { s.reader with currentSlot := signed32 slot } })
          pure true

/-- `ifd_create_card`, with the block of `ifd_card_alloc`. -/
def ifdCreateCard (atr : IfdAtrbuf) (reader : Nat) (slot : Nat) : Prog σ (Option Nat) :=
  match UtokenDecrypt.ifdCreateCard atr slot with
  | none => pure none
  | some card => do
      let addr ← malloc (.card card reader)
      pure (some addr)

def ccidReaderIdentifyCard (reader : Nat) (slot : Nat) : Prog σ (Option Nat) := do
  useReader reader
  let s ← onHost Process.read
  if slot ≠ slotUnsigned s.reader.currentSlot then pure none
  else do
    let atr ← ccidResetCard reader slot
    match atr with
    | none => pure none
    | some atr => ifdCreateCard atr reader slot

/-- The payload is taken out of the response before that is freed. -/
def ccidReaderApduXfer (reader : Nat) (slot : Nat) (apdu : Option Nat) :
    Prog σ (Option Nat) := do
  let apdu ← deref apdu
  let bp ← loadBuffer apdu
  ccidXferBuilt reader ccidRespData
    (ccidBuildCommand reader (UInt8.ofNat slot) ccidCmdXfrblock none
      (bufferReadPointer bp) (bufferAvailable bp)) fun resp => do
      let r ← loadResponse resp
      store resp (.response { r with payload := none })
      pure r.payload

end

end Alloc
end UtokenDecrypt
