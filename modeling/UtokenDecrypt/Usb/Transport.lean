import UtokenDecrypt.Buffer
import UtokenDecrypt.Foundation.Process
import UtokenDecrypt.Usb.Types
import UtokenDecrypt.Util

/-!
# The USB transport

The part of `usb.c` that talks to an opened device.  The device and the
kernel's usbfs driver are a state machine that nothing is known about, except
that a bulk transfer does not deliver more bytes than there was room for.

The state of the program holds, besides the device and the reader object, a
record of what `uusb_send` and `uusb_recv` did and of the hex dumps that
were started.  The program never reads the record.
-/

namespace UtokenDecrypt

open Foundation
open Usb

/-- The ioctls of an opened usbfs device file. -/
class Usbfs (σ : Type) where
  /-- `USBDEVFS_BULK` on an endpoint to the device. -/
  bulkOut : σ -> UInt8 -> List UInt8 -> Bool × σ
  /-- `USBDEVFS_BULK` on an endpoint from the device, with the bytes that are put
  into the buffer.  The kernel leaves `bulk.len` as it is. -/
  bulkIn : σ -> UInt8 -> Nat -> Option (List UInt8) × σ
  /-- `USBDEVFS_SETCONFIGURATION`. -/
  setConfiguration : σ -> UInt8 -> Bool × σ
  /-- `USBDEVFS_CLAIMINTERFACE`. -/
  claimInterface : σ -> UInt8 -> Bool × σ
  bulkIn_le : forall {usb : σ} {ep : UInt8} {room : Nat} {bytes : List UInt8},
    (bulkIn usb ep room).1 = some bytes -> bytes.length ≤ room

/-- A call of `uusb_send` or `uusb_recv` that returned. -/
inductive Event where
  | send (packet : List UInt8) (rv : Bool)
  | recv (packet : Option (List UInt8))
deriving DecidableEq

/-- A call of `hexdump`. -/
structure Dump where
  mem : List UInt8
  size : Nat

structure CcidReader where
  ccid : CcidDescriptor := {}
  maxMessageSize : Nat := 0
  supportedProtocols : Nat := 0
  autoVoltage : Bool := false
  supportedVoltages : Nat := 0
  currentSlot : Int := 0
  ccidSeq : Nat := 0
deriving DecidableEq

structure Host (σ : Type) where
  usb : σ
  dev : UusbDev := {}
  reader : CcidReader := {}
  optDebug : Nat := 0
  log : List Event := []
  dumps : List Dump := []

section

variable {σ : Type}

/-- The record of a dump is made before it may fail to return. -/
def dump (mem : List UInt8) (size : Nat) : Process (Host σ) Unit := fun s =>
  (hexdump mem size, { s with dumps := s.dumps ++ [{ mem := mem, size := size }] })

/-- What is done under `if (opt_debug > 1)`. -/
def whenDebug2 (action : Process (Host σ) Unit) : Process (Host σ) Unit := fun s =>
  if 1 < s.optDebug then action s else (.done (), s)

/-- The `int` of an endpoint, passed as an `uint8_t`. -/
def endpointAddress (ep : Int) : UInt8 :=
  UInt8.ofNat (ep % 256).toNat

variable [Usbfs σ]

/-!
## Sending and receiving
-/

/-- `uusb_bulk` of a transfer that succeeds is the length it was asked for, which
counts as a failure where it is negative as an `int`. -/
def uusbBulkOkay (len : Nat) : Bool :=
  decide (0 ≤ signed32 len)

def uusbSendBulk (dev : UusbDev) (pkt : Buffer) (usb : σ) : Bool × σ :=
  let rc := Usbfs.bulkOut usb (endpointAddress dev.endpoints.epO)
    ((bufferReadPointer pkt).take (bufferAvailable pkt))
  (rc.1 && uusbBulkOkay (bufferAvailable pkt), rc.2)

def uusbSend (pkt : Buffer) : Process (Host σ) Bool := fun s =>
  let rc := uusbSendBulk s.dev pkt s.usb
  let packet := (bufferReadPointer pkt).take (bufferAvailable pkt)
  (.done rc.1, { s with usb := rc.2, log := s.log ++ [.send packet rc.1] })

/-- A packet fresh from the allocator, with its room filled. -/
def uusbRecvPacket (maxlen : Nat) : Buffer :=
  let pkt := bufferAllocWrite maxlen
  { pkt with
    data := overwrite pkt.data pkt.wpos (List.replicate (bufferTailroom pkt) 0xAA) }

/-- The packet with the bytes the kernel put into it. -/
def uusbRecvFilled (maxlen : Nat) (bytes : List UInt8) : Buffer :=
  let pkt := uusbRecvPacket maxlen
  { pkt with
    data := overwrite pkt.data pkt.wpos bytes
    wpos := pkt.wpos + bytes.length }

/-- The bytes the returned length covers: those the kernel put there, and the fill
behind them. -/
def uusbRecvBytes (room : Nat) (bytes : List UInt8) : List UInt8 :=
  bytes ++ List.replicate (room - bytes.length) 0xAA

def uusbRecvBulk (dev : UusbDev) (maxlen : Nat) (usb : σ) :
    Option (List UInt8) × σ :=
  let room := bufferTailroom (uusbRecvPacket maxlen)
  let rc := Usbfs.bulkIn usb (endpointAddress dev.endpoints.epI) room
  ((rc.1.filter fun _ => uusbBulkOkay room).map (uusbRecvBytes room), rc.2)

def uusbRecv (maxlen : Nat) : Process (Host σ) (Option Buffer) := fun s =>
  let rc := uusbRecvBulk s.dev maxlen s.usb
  (.done (rc.1.map (uusbRecvFilled maxlen)),
    { s with usb := rc.2, log := s.log ++ [.recv rc.1] })

/-!
## Selecting the interface
-/

def uusbEndpointTypeMask : UInt8 := 0x03
def uusbEndpointDirMask : UInt8 := 0x80
def uusbEndpointIn : UInt8 := 0x80
def uusbEndpointTypeBulk : UInt8 := 2
def uusbEndpointTypeInterrupt : UInt8 := 3

omit [Usbfs σ] in
/-- The body of the loop of `uusb_set_endpoints`. -/
def uusbSetEndpoint (endpoints : UusbEndpoints) (ep : UusbEndpoint) :
    UusbEndpoints :=
  let d := ep.descriptor
  let epType := d.bmAttributes &&& uusbEndpointTypeMask
  let epDir := d.bEndpointAddress &&& uusbEndpointDirMask
  if epType = uusbEndpointTypeBulk then
    if epDir = uusbEndpointIn then
      { endpoints with epI := d.bEndpointAddress.toNat }
    else
      { endpoints with epO := d.bEndpointAddress.toNat }
  else if epType = uusbEndpointTypeInterrupt ∧ epDir = uusbEndpointIn then
    { endpoints with epIntr := d.bEndpointAddress.toNat }
  else endpoints

omit [Usbfs σ] in
def uusbSetEndpoints (interface : UusbInterface) : Process (Host σ) Bool := fun s =>
  let endpoints := interface.endpoint.foldl uusbSetEndpoint
    { epO := -1, epI := -1, epIntr := -1 }
  (.done (decide (0 ≤ endpoints.epO ∧ 0 ≤ endpoints.epI)),
    { s with dev := { s.dev with endpoints := endpoints } })

/-- Run an ioctl that only succeeds or fails, where it is needed. -/
def usbIoctl (needed : Bool) (request : σ -> Bool × σ) :
    Process (Host σ) Bool := fun s =>
  if needed then
    (.done (request s.usb).1, { s with usb := (request s.usb).2 })
  else (.done true, s)

def uusbSelectInterface (config : UusbConfig) (interface : UusbInterface) :
    Process (Host σ) Bool := do
  let s ← Process.read
  let configured ← usbIoctl (1 < s.dev.descriptor.bNumConfigurations) fun usb =>
    Usbfs.setConfiguration usb config.descriptor.bConfigurationValue
  if configured then
    usbIoctl (interface.descriptor.bInterfaceNumber != 0) fun usb =>
      Usbfs.claimInterface usb interface.descriptor.bInterfaceNumber
  else pure false

/-- The two selections of the body of the inner loop. -/
def uusbTryInterface (config : UusbConfig) (interface : UusbInterface) :
    Process (Host σ) Bool := do
  let found ← uusbSetEndpoints interface
  if found then uusbSelectInterface config interface else pure false

/-- The inner loop of `uusb_dev_select_ccid_interface`. -/
def uusbConfigSelectCcidInterface (config : UusbConfig) :
    List UusbInterface -> Process (Host σ) (Option CcidDescriptor)
  | [] => pure none
  | interface :: rest =>
      match interface.ccid with
      | none => uusbConfigSelectCcidInterface config rest
      | some ccid => do
          let selected ← uusbTryInterface config interface
          if selected then pure (some ccid)
          else uusbConfigSelectCcidInterface config rest

/-- The outer loop of `uusb_dev_select_ccid_interface`. -/
def uusbConfigsSelectCcidInterface :
    List UusbConfig -> Process (Host σ) (Option CcidDescriptor)
  | [] => pure none
  | config :: rest => do
      let ccid ← uusbConfigSelectCcidInterface config config.interface
      match ccid with
      | some ccid => pure (some ccid)
      | none => uusbConfigsSelectCcidInterface rest

def uusbDevSelectCcidInterface : Process (Host σ) (Option CcidDescriptor) := do
  let s ← Process.read
  uusbConfigsSelectCcidInterface s.dev.config

/-!
## What a receive leaves behind
-/

section

variable {maxlen : Nat} {bytes : List UInt8}

omit [Usbfs σ] in
theorem bufferTailroom_recvPacket (maxlen : Nat) :
    bufferTailroom (uusbRecvPacket maxlen) = capacity maxlen := by
  have h : sub64 (capacity maxlen) 0 = capacity maxlen := sub64_of_le (Nat.zero_le _)
  change wrap32 (sub64 (capacity maxlen) 0) = capacity maxlen
  rw [h, wrap32_of_lt (capacity_lt maxlen)]

omit [Usbfs σ] in
theorem uusbRecvPacket_wf (maxlen : Nat) : (uusbRecvPacket maxlen).Wf := by
  have hfresh := bufferAllocWrite_wf maxlen
  have hroom : bufferTailroom (bufferAllocWrite maxlen) = capacity maxlen := by
    rw [bufferTailroom_eq hfresh]
    rfl
  refine ⟨Nat.le_refl 0, Nat.zero_le _, hfresh.size_lt, ?_⟩
  change (overwrite _ 0 _).length = _
  rw [overwrite_length]
  · exact hfresh.length_eq
  · rw [List.length_replicate, hroom, hfresh.length_eq, bufferAllocWrite_size]
    lia

omit [Usbfs σ] in
/-- Bytes there is room for are received as they are. -/
theorem uusbRecvFilled_spec (hroom : bytes.length ≤ capacity maxlen) :
    (uusbRecvFilled maxlen bytes).Wf ∧
      (uusbRecvFilled maxlen bytes).contents = bytes ∧
      (uusbRecvFilled maxlen bytes).rpos = 0 ∧
      (uusbRecvFilled maxlen bytes).size = capacity maxlen := by
  have hwf := uusbRecvPacket_wf maxlen
  have hput : bufferPut (uusbRecvPacket maxlen) bytes =
      some (uusbRecvFilled maxlen bytes) :=
    bufferPut_eq_some hwf hroom
  rcases bufferPut_spec hwf hput with ⟨hfilled, hcontents, hrpos, _, hsize⟩
  refine ⟨hfilled, ?_, hrpos, hsize⟩
  rw [hcontents, Buffer.contents]
  exact congrArg (· ++ bytes) (slice_self _ 0)

omit [Usbfs σ] in
theorem uusbBulkOkay_iff {len : Nat} (h : len < 2 ^ 32) :
    uusbBulkOkay len = true ↔ len < 2 ^ 31 := by
  rw [uusbBulkOkay, decide_eq_true_eq, signed32_nonneg_iff h]

omit [Usbfs σ] in
theorem uusbBulkOkay_of_lt {len : Nat} (h : len < 2 ^ 31) : uusbBulkOkay len = true :=
  (uusbBulkOkay_iff (by lia)).mpr h

/-- A packet that is received has as many bytes as there was room for. -/
theorem uusbRecvBulk_length {dev : UusbDev} {usb after : σ}
    (h : uusbRecvBulk dev maxlen usb = (some bytes, after)) :
    bytes.length = capacity maxlen ∧ capacity maxlen < 2 ^ 31 := by
  rcases Option.map_eq_some_iff.mp (congrArg Prod.fst h) with ⟨got, hgot, hbytes⟩
  rw [bufferTailroom_recvPacket] at hgot hbytes
  rcases Option.filter_eq_some_iff.mp hgot with ⟨hin, hokay⟩
  have hle := Usbfs.bulkIn_le hin
  constructor
  · rw [← hbytes, uusbRecvBytes, List.length_append, List.length_replicate]
    lia
  · exact (uusbBulkOkay_iff (capacity_lt maxlen)).mp hokay

theorem uusbRecvBulk_le {dev : UusbDev} {usb after : σ}
    (h : uusbRecvBulk dev maxlen usb = (some bytes, after)) :
    bytes.length ≤ capacity maxlen ∧ capacity maxlen < 2 ^ 31 := by
  rcases uusbRecvBulk_length h with ⟨hlength, hroom⟩
  exact ⟨Nat.le_of_eq hlength, hroom⟩

end

/-!
## What a select leaves alone
-/

/-- The two states differ in the device and its endpoints only. -/
structure Host.SameButUsb (s t : Host σ) : Prop where
  reader : t.reader = s.reader
  optDebug : t.optDebug = s.optDebug
  log : t.log = s.log
  dumps : t.dumps = s.dumps

omit [Usbfs σ] in
theorem Host.SameButUsb.rfl {s : Host σ} : s.SameButUsb s :=
  ⟨Eq.refl _, Eq.refl _, Eq.refl _, Eq.refl _⟩

omit [Usbfs σ] in
theorem Host.SameButUsb.trans {s t u : Host σ} (h1 : s.SameButUsb t)
    (h2 : t.SameButUsb u) : s.SameButUsb u :=
  ⟨h2.reader.trans h1.reader, h2.optDebug.trans h1.optDebug,
    h2.log.trans h1.log, h2.dumps.trans h1.dumps⟩

/-- A process that returns and leaves the reader and the record alone. -/
def SelectsOnly {α : Type} (proc : Process (Host σ) α) : Prop :=
  forall s : Host σ, exists value t, proc s = (.done value, t) ∧ s.SameButUsb t

omit [Usbfs σ] in
theorem SelectsOnly.pure {α : Type} (value : α) :
    SelectsOnly (pure value : Process (Host σ) α) := by
  intro s
  exact ⟨value, s, rfl, Host.SameButUsb.rfl⟩

omit [Usbfs σ] in
theorem SelectsOnly.bind {α β : Type} {first : Process (Host σ) α}
    {next : α -> Process (Host σ) β} (h : SelectsOnly first)
    (hnext : forall value, SelectsOnly (next value)) :
    SelectsOnly (first >>= next) := by
  intro s
  rcases h s with ⟨value, t, hrun, hst⟩
  rcases hnext value t with ⟨result, u, hrun2, htu⟩
  exact ⟨result, u, by rw [Process.bind_done hrun, hrun2], hst.trans htu⟩

omit [Usbfs σ] in
theorem selectsOnly_usbIoctl (needed : Bool) (request : σ -> Bool × σ) :
    SelectsOnly (usbIoctl needed request) := by
  intro s
  unfold usbIoctl
  split
  · exact ⟨_, _, rfl, ⟨rfl, rfl, rfl, rfl⟩⟩
  · exact ⟨_, _, rfl, Host.SameButUsb.rfl⟩

omit [Usbfs σ] in
theorem selectsOnly_uusbSetEndpoints (interface : UusbInterface) :
    SelectsOnly (uusbSetEndpoints (σ := σ) interface) := by
  intro s
  exact ⟨_, _, rfl, ⟨rfl, rfl, rfl, rfl⟩⟩

omit [Usbfs σ] in
theorem selectsOnly_read : SelectsOnly (Process.read (S := Host σ)) := by
  intro s
  exact ⟨_, _, rfl, Host.SameButUsb.rfl⟩

theorem selectsOnly_uusbSelectInterface (config : UusbConfig)
    (interface : UusbInterface) :
    SelectsOnly (uusbSelectInterface (σ := σ) config interface) := by
  refine selectsOnly_read.bind ?_
  intro s
  refine (selectsOnly_usbIoctl _ _).bind ?_
  intro configured
  split
  · exact selectsOnly_usbIoctl _ _
  · exact SelectsOnly.pure _

theorem selectsOnly_uusbTryInterface (config : UusbConfig)
    (interface : UusbInterface) :
    SelectsOnly (uusbTryInterface (σ := σ) config interface) := by
  refine (selectsOnly_uusbSetEndpoints interface).bind ?_
  intro found
  split
  · exact selectsOnly_uusbSelectInterface config interface
  · exact SelectsOnly.pure _

theorem selectsOnly_uusbConfigSelect (config : UusbConfig)
    (interfaces : List UusbInterface) :
    SelectsOnly (uusbConfigSelectCcidInterface (σ := σ) config interfaces) := by
  induction interfaces with
  | nil => exact SelectsOnly.pure _
  | cons interface rest ih =>
      unfold uusbConfigSelectCcidInterface
      cases interface.ccid with
      | none => exact ih
      | some ccid =>
          refine (selectsOnly_uusbTryInterface config interface).bind ?_
          intro selected
          split
          · exact SelectsOnly.pure _
          · exact ih

theorem selectsOnly_uusbConfigsSelect (configs : List UusbConfig) :
    SelectsOnly (uusbConfigsSelectCcidInterface (σ := σ) configs) := by
  induction configs with
  | nil => exact SelectsOnly.pure _
  | cons config rest ih =>
      refine (selectsOnly_uusbConfigSelect config config.interface).bind ?_
      intro found
      cases found with
      | none => exact ih
      | some ccid => exact SelectsOnly.pure _

theorem selectsOnly_uusbDevSelect :
    SelectsOnly (uusbDevSelectCcidInterface (σ := σ)) :=
  selectsOnly_read.bind fun s => selectsOnly_uusbConfigsSelect s.dev.config

end

end UtokenDecrypt
