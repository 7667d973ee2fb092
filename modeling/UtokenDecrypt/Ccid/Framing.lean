import UtokenDecrypt.Usb.Transport

/-!
# CCID framing

How `reader.c` writes a command into a packet and takes a response out of
one.  A packet is a header of ten bytes and a payload:

    type  length (4, little-endian)  slot  seq  ctl (3)  payload

The main results say that the two functions agree on this layout for every
length that fits, and where the 32-bit arithmetic of the buffer size makes
`ccid_build_command` refuse a payload.
-/

namespace UtokenDecrypt

open Foundation

def ccidRespData : UInt8 := 0x80
def ccidRespSlotstat : UInt8 := 0x81

def ccidHdrSize : Nat := 10

/-- The three control bytes of a header. -/
structure CcidCtl where
  ctl1 : UInt8 := 0
  ctl2 : UInt8 := 0
  ctl3 : UInt8 := 0
deriving DecidableEq

namespace CcidCtl

def bytes (ctl : CcidCtl) : List UInt8 :=
  [ctl.ctl1, ctl.ctl2, ctl.ctl3]

def ofBytes (data : List UInt8) : CcidCtl where
  ctl1 := data.getD 0 0
  ctl2 := data.getD 1 0
  ctl3 := data.getD 2 0

end CcidCtl

structure CcidCommand where
  slot : UInt8
  seq : UInt8
  pkt : Buffer
deriving DecidableEq

structure CcidResponse where
  type : UInt8
  slot : UInt8
  seq : UInt8
  ctl : CcidCtl
  payload : Buffer
deriving DecidableEq

/-!
## The two functions
-/

def ccidCommandCreate (seqno slot : UInt8) (pkt : Buffer) : CcidCommand where
  slot := slot
  seq := seqno
  pkt := pkt

/-- `payload_len && !buffer_put(...)`, with the payload's memory. -/
def ccidPutPayload (bp : Buffer) (payload : List UInt8) (payloadLen : Nat) :
    Option Buffer :=
  if payloadLen = 0 then some bp
  else bufferPut bp (payload.take payloadLen)

/-- The payload is the memory a pointer points to, and how much of it to send;
the buffer size `16 + payload_len` is computed in 32 bits. -/
def ccidBuildCommand (reader : CcidReader) (slot cmd : UInt8)
    (ctlData : Option CcidCtl) (payload : List UInt8) (payloadLen : Nat) :
    Option CcidCommand := do
  let seq := UInt8.ofNat reader.ccidSeq
  let bp := bufferAllocWrite (wrap32 (16 + payloadLen))
  let bp ← bufferPutU8 bp cmd
  let bp ← bufferPutU32le bp payloadLen
  let bp ← bufferPutU8 bp slot
  let bp ← bufferPutU8 bp seq
  let bp ← bufferPut bp (ctlData.getD {}).bytes
  let bp ← ccidPutPayload bp payload payloadLen
  some (ccidCommandCreate seq slot bp)

def ccidBuildSimplePacket (reader : CcidReader) (slot cmd : UInt8) :
    Option CcidCommand :=
  ccidBuildCommand reader slot cmd none [] 0

def ccidResponseCreate (pkt : Buffer) : Option CcidResponse :=
  if bufferAvailable pkt < 10 then none
  else do
    let (type, pkt) ← bufferGetU8 pkt
    let (payloadLen, pkt) ← bufferGetU32le pkt
    let (slot, pkt) ← bufferGetU8 pkt
    let (seq, pkt) ← bufferGetU8 pkt
    let (ctl, pkt) ← bufferGet pkt 3
    let pkt ← bufferTruncate pkt payloadLen
    some { type := type, slot := slot, seq := seq,
           ctl := CcidCtl.ofBytes ctl, payload := pkt }

/-!
## The layout
-/

/-- The bytes of a packet. -/
def ccidPacket (type slot seq : UInt8) (ctl : CcidCtl) (payload : List UInt8) :
    List UInt8 :=
  [type] ++ leBytes 4 payload.length ++ [slot] ++ [seq] ++ ctl.bytes ++ payload

/-- The payload length a packet declares. -/
def ccidDeclared (packet : List UInt8) : Nat :=
  leValue ((packet.drop 1).take 4)

/-- The payload a packet declares. -/
def ccidPayload (packet : List UInt8) : List UInt8 :=
  (packet.drop 10).take (ccidDeclared packet)

/-- The packet has a header, and all of the payload it declares. -/
def CcidWellFormed (packet : List UInt8) : Prop :=
  ccidHdrSize ≤ packet.length ∧
    ccidHdrSize + ccidDeclared packet ≤ packet.length

instance (packet : List UInt8) : Decidable (CcidWellFormed packet) :=
  inferInstanceAs (Decidable (_ ∧ _))

@[simp] theorem ccidPacket_length (type slot seq : UInt8) (ctl : CcidCtl)
    (payload : List UInt8) :
    (ccidPacket type slot seq ctl payload).length = 10 + payload.length := by
  simp [ccidPacket, CcidCtl.bytes]
  lia

theorem ccidDeclared_packet (type slot seq : UInt8) (ctl : CcidCtl)
    (payload trailing : List UInt8) (h : payload.length < 2 ^ 32) :
    ccidDeclared (ccidPacket type slot seq ctl payload ++ trailing) =
      payload.length := by
  have hfield : ((ccidPacket type slot seq ctl payload ++ trailing).drop 1).take 4 =
      leBytes 4 payload.length := by
    simp [ccidPacket, leBytes]
  rw [ccidDeclared, hfield, leValue_leBytes_of_lt (by lia)]

theorem ccidWellFormed_packet (type slot seq : UInt8) (ctl : CcidCtl)
    (payload trailing : List UInt8) (h : payload.length < 2 ^ 32) :
    CcidWellFormed (ccidPacket type slot seq ctl payload ++ trailing) := by
  unfold CcidWellFormed ccidHdrSize
  rw [ccidDeclared_packet type slot seq ctl payload trailing h]
  simp only [List.length_append, ccidPacket_length]
  lia

theorem ccidPayload_packet (type slot seq : UInt8) (ctl : CcidCtl) {payload : List UInt8}
    (trailing : List UInt8) (h : payload.length < 2 ^ 32) :
    ccidPayload (ccidPacket type slot seq ctl payload ++ trailing) = payload := by
  rw [ccidPayload, ccidDeclared_packet type slot seq ctl payload trailing h]
  simp [ccidPacket, leBytes, CcidCtl.bytes]

section

variable (type slot seq : UInt8) (ctl : CcidCtl) (payload : List UInt8)

theorem ccidPacket_type : (ccidPacket type slot seq ctl payload).getD 0 0 = type := rfl

theorem ccidPacket_slot : (ccidPacket type slot seq ctl payload).getD 5 0 = slot := by
  simp [ccidPacket, leBytes]

theorem ccidPacket_seq : (ccidPacket type slot seq ctl payload).getD 6 0 = seq := by
  simp [ccidPacket, leBytes]

theorem ccidPacket_ctl1 : (ccidPacket type slot seq ctl payload).getD 7 0 = ctl.ctl1 := by
  simp [ccidPacket, leBytes, CcidCtl.bytes]

end

theorem ccidPayload_length {packet : List UInt8} (h : CcidWellFormed packet) :
    (ccidPayload packet).length = ccidDeclared packet := by
  have hfit := h.2
  unfold ccidHdrSize at hfit
  rw [ccidPayload, List.length_take, List.length_drop]
  lia

/-- A packet is its header fields and what follows them. -/
theorem ccidPacket_of_bytes {packet : List UInt8} (h : CcidWellFormed packet) :
    ccidPacket (packet.getD 0 0) (packet.getD 5 0) (packet.getD 6 0)
      (CcidCtl.ofBytes ((packet.drop 7).take 3)) (ccidPayload packet) =
    packet.take (10 + ccidDeclared packet) := by
  have hlen := ccidPayload_length h
  have hten : 10 ≤ packet.length := h.1
  unfold ccidPacket
  rw [hlen]
  clear h hlen
  match packet, hten with
  | b0 :: b1 :: b2 :: b3 :: b4 :: b5 :: b6 :: b7 :: b8 :: b9 :: rest, _ =>
      have hlength : ccidDeclared
          (b0 :: b1 :: b2 :: b3 :: b4 :: b5 :: b6 :: b7 :: b8 :: b9 :: rest) =
          leValue [b1, b2, b3, b4] := by
        simp [ccidDeclared]
      have hfield : leBytes 4 (leValue [b1, b2, b3, b4]) = [b1, b2, b3, b4] := by
        have h := leBytes_leValue [b1, b2, b3, b4]
        simpa only [List.length_cons, List.length_nil] using h
      rw [ccidPayload, hlength, hfield, Nat.add_comm 10]
      simp [CcidCtl.bytes, CcidCtl.ofBytes]

/-!
## Building
-/

section

variable {reader : CcidReader} {slot cmd : UInt8} {ctlData : Option CcidCtl}
  {payload : List UInt8}

theorem ccidPutPayload_eq {bp : Buffer} (h : bp.Wf) :
    ccidPutPayload bp payload payload.length = bufferPut bp payload := by
  unfold ccidPutPayload
  split
  · rename_i hnone
    rw [List.length_eq_zero_iff.mp hnone, bufferPut_nil h]
  · rw [List.take_length]

/-- The writes of `ccid_build_command` are one write of the packet. -/
theorem ccidBuildCommand_eq :
    ccidBuildCommand reader slot cmd ctlData payload payload.length =
      (bufferPut (bufferAllocWrite (wrap32 (16 + payload.length)))
        (ccidPacket cmd slot (UInt8.ofNat reader.ccidSeq) (ctlData.getD {})
          payload)).map
        (ccidCommandCreate (UInt8.ofNat reader.ccidSeq) slot) := by
  have hwf := bufferAllocWrite_wf (wrap32 (16 + payload.length))
  change ((bufferPut (bufferAllocWrite (wrap32 (16 + payload.length))) [cmd]).bind
    fun bp => (bufferPut bp (leBytes 4 payload.length)).bind
    fun bp => (bufferPut bp [slot]).bind
    fun bp => (bufferPut bp [UInt8.ofNat reader.ccidSeq]).bind
    fun bp => (bufferPut bp (ctlData.getD {}).bytes).bind
    fun bp => (ccidPutPayload bp payload payload.length).bind
    fun bp => some (ccidCommandCreate (UInt8.ofNat reader.ccidSeq) slot bp)) = _
  rw [bufferPut_bind_put hwf, bufferPut_bind_put hwf, bufferPut_bind_put hwf,
    bufferPut_bind_put hwf, ccidPacket, ← bufferPut_append hwf _ payload]
  cases hput : bufferPut (bufferAllocWrite (wrap32 (16 + payload.length)))
      ([cmd] ++ leBytes 4 payload.length ++ [slot] ++ [UInt8.ofNat reader.ccidSeq] ++
        (ctlData.getD {}).bytes) with
  | none => rfl
  | some after =>
      rw [Option.bind_some, Option.bind_some,
        ccidPutPayload_eq (bufferPut_spec hwf hput).1]
      cases bufferPut after payload with
      | none => rfl
      | some final => rfl

/-- The size of the buffer a command is built in: up to `2^32 - 24` bytes of
payload it is rounded up, behind that it wraps to almost nothing. -/
theorem capacity_command (n : Nat) :
    10 + n ≤ capacity (wrap32 (16 + n)) ↔ n ≤ 2 ^ 32 - 24 := by
  unfold capacity wrap32 wrap64
  lia

theorem ccidBuildCommand_eq_none_iff :
    ccidBuildCommand reader slot cmd ctlData payload payload.length = none ↔
      2 ^ 32 - 24 < payload.length := by
  have hwf := bufferAllocWrite_wf (wrap32 (16 + payload.length))
  have hfits := bufferPut_isSome_iff hwf
    (ccidPacket cmd slot (UInt8.ofNat reader.ccidSeq) (ctlData.getD {}) payload)
  rw [ccidPacket_length, bufferAllocWrite_size] at hfits
  have hwpos : (bufferAllocWrite (wrap32 (16 + payload.length))).wpos = 0 := rfl
  have hcap := capacity_command payload.length
  rw [ccidBuildCommand_eq, Option.map_eq_none_iff, ← Option.not_isSome_iff_eq_none,
    hfits, hwpos, Nat.zero_add, hcap]
  lia

theorem length_le_of_ccidBuildCommand {command : CcidCommand}
    (h : ccidBuildCommand reader slot cmd ctlData payload payload.length =
      some command) : payload.length ≤ 2 ^ 32 - 24 := by
  cases Nat.lt_or_ge (2 ^ 32 - 24) payload.length with
  | inl hlong => cases h.symm.trans (ccidBuildCommand_eq_none_iff.mpr hlong)
  | inr hshort => exact hshort

/-- A command that was built carries its fields, and its packet. -/
theorem ccidBuildCommand_spec {command : CcidCommand}
    (h : ccidBuildCommand reader slot cmd ctlData payload payload.length =
      some command) :
    command.slot = slot ∧ command.seq = UInt8.ofNat reader.ccidSeq ∧
      command.pkt.Wf ∧
      command.pkt.contents = ccidPacket cmd slot (UInt8.ofNat reader.ccidSeq)
        (ctlData.getD {}) payload := by
  have hwf := bufferAllocWrite_wf (wrap32 (16 + payload.length))
  rw [ccidBuildCommand_eq, Option.map_eq_some_iff] at h
  rcases h with ⟨bp, hput, rfl⟩
  rcases bufferPut_spec hwf hput with ⟨hbp, hcontents, _⟩
  exact ⟨rfl, rfl, hbp, by simpa [ccidCommandCreate] using hcontents⟩

end

/-!
## Taking apart
-/

section

variable {pkt : Buffer}

/-- The response a well-formed packet holds. -/
def ccidResponseOf (pkt : Buffer) : CcidResponse where
  type := pkt.contents.getD 0 0
  slot := pkt.contents.getD 5 0
  seq := pkt.contents.getD 6 0
  ctl := CcidCtl.ofBytes ((pkt.contents.drop 7).take 3)
  payload := { pkt with
    rpos := pkt.rpos + 10
    wpos := pkt.rpos + 10 + ccidDeclared pkt.contents }

theorem ccidResponseCreate_eq (h : pkt.Wf) :
    ccidResponseCreate pkt =
      if CcidWellFormed pkt.contents then some (ccidResponseOf pkt) else none := by
  unfold ccidResponseCreate
  rw [bufferAvailable_eq h]
  cases Nat.lt_or_ge pkt.contents.length 10 with
  | inl hshort =>
      rw [if_pos hshort, if_neg]
      intro hwf
      have hten := hwf.1
      unfold ccidHdrSize at hten
      lia
  | inr hlong =>
      -- each read splits what is left of the packet
      have hafter : forall count, count ≤ pkt.contents.length ->
          ({ pkt with rpos := pkt.rpos + count } : Buffer).Wf ∧
            ({ pkt with rpos := pkt.rpos + count } : Buffer).contents =
              pkt.contents.drop count := by
        intro count hcount
        exact ⟨bufferSkip_wf h hcount, bufferSkip_contents pkt count⟩
      rcases hafter 1 (by lia) with ⟨hwf1, hc1⟩
      rcases hafter 5 (by lia) with ⟨hwf5, hc5⟩
      rcases hafter 6 (by lia) with ⟨hwf6, hc6⟩
      rcases hafter 7 (by lia) with ⟨hwf7, hc7⟩
      rcases hafter 10 (by lia) with ⟨hwf10, hc10⟩
      have hget0 := bufferGetU8_eq_some h (by lia)
      have hget1 := bufferGetU32le_eq_some hwf1 (by rw [hc1, List.length_drop]; lia)
      have hget5 := bufferGetU8_eq_some hwf5 (by rw [hc5, List.length_drop]; lia)
      have hget6 := bufferGetU8_eq_some hwf6 (by rw [hc6, List.length_drop]; lia)
      have hget7 := bufferGet_eq_some hwf7
        (by rw [hc7, List.length_drop]; lia : 3 ≤ _)
      rw [hc1] at hget1
      rw [hc5] at hget5
      rw [hc6] at hget6
      rw [hc7] at hget7
      rw [if_neg (by lia)]
      simp only [Option.bind_eq_bind, hget0, Option.bind_some, hget1, hget5,
        hget6, hget7, Nat.add_assoc, Nat.reduceAdd]
      have hslot : (pkt.contents.drop 5).getD 0 0 = pkt.contents.getD 5 0 := by
        simp
      have hseq : (pkt.contents.drop 6).getD 0 0 = pkt.contents.getD 6 0 := by
        simp
      have hrest : ({ pkt with rpos := pkt.rpos + 10 } : Buffer).contents.length =
          pkt.contents.length - 10 := by
        rw [hc10, List.length_drop]
      rw [hslot, hseq]
      cases Nat.lt_or_ge pkt.contents.length (10 + ccidDeclared pkt.contents) with
      | inl hcut =>
          rw [if_neg (fun hwf => absurd hwf.2 (Nat.not_le.mpr hcut)),
            ← ccidDeclared, bufferTruncate_eq_none hwf10 (by rw [hrest]; lia)]
          rfl
      | inr hfits =>
          rw [if_pos ⟨hlong, hfits⟩, ← ccidDeclared,
            bufferTruncate_eq_some hwf10 (by rw [hrest]; lia)]
          rfl

/-- A well-formed packet's payload is the bytes it declares. -/
theorem ccidResponseOf_payload (h : pkt.Wf) (hwf : CcidWellFormed pkt.contents) :
    (ccidResponseOf pkt).payload.Wf ∧
      (ccidResponseOf pkt).payload.contents = ccidPayload pkt.contents := by
  have hlen := h.contents_length
  have hfits := hwf.2
  unfold ccidHdrSize at hfits
  have hskip : ({ pkt with rpos := pkt.rpos + 10 } : Buffer).Wf :=
    bufferSkip_wf h (by lia)
  have hshort : pkt.rpos + 10 + ccidDeclared pkt.contents ≤ pkt.wpos := by lia
  constructor
  · exact wf_of_shorter hskip hshort
  · rw [ccidPayload, ← bufferSkip_contents pkt 10]
    exact contents_of_shorter { pkt with rpos := pkt.rpos + 10 } hshort

end

end UtokenDecrypt
