import UtokenDecrypt.Ccid.Framing

/-!
# Building and taking apart are inverse to each other

Both directions, for all lengths.  The one limit is the 32-bit size of the
buffer a command is built in: a response can declare more payload than
`ccid_build_command` accepts.
-/

namespace UtokenDecrypt

open Foundation

section

variable {pkt : Buffer}

/-- A packet that was built is taken apart into what it was built from,
whatever follows it. -/
theorem ccidResponseCreate_packet (h : pkt.Wf) {type slot seq : UInt8}
    {ctl : CcidCtl} {payload trailing : List UInt8}
    (hlen : payload.length < 2 ^ 32)
    (hcontents : pkt.contents = ccidPacket type slot seq ctl payload ++ trailing) :
    exists resp, ccidResponseCreate pkt = some resp ∧ resp.type = type ∧
      resp.slot = slot ∧ resp.seq = seq ∧ resp.ctl = ctl ∧
      resp.payload.Wf ∧ resp.payload.contents = payload := by
  have hwf : CcidWellFormed pkt.contents := by
    rw [hcontents]
    exact ccidWellFormed_packet type slot seq ctl payload trailing hlen
  have hdeclared : ccidDeclared pkt.contents = payload.length := by
    rw [hcontents]
    exact ccidDeclared_packet type slot seq ctl payload trailing hlen
  have hpayload := ccidResponseOf_payload h hwf
  have hback : ccidPayload pkt.contents = payload := by
    rw [ccidPayload, hdeclared, hcontents]
    simp [ccidPacket, CcidCtl.bytes, leBytes]
  refine ⟨ccidResponseOf pkt, ?_, ?_, ?_, ?_, ?_, hpayload.1, ?_⟩
  · rw [ccidResponseCreate_eq h, if_pos hwf]
  · simp [ccidResponseOf, hcontents, ccidPacket]
  · simp [ccidResponseOf, hcontents, ccidPacket, leBytes]
  · simp [ccidResponseOf, hcontents, ccidPacket, leBytes]
  · cases ctl
    simp [ccidResponseOf, hcontents, ccidPacket, leBytes, CcidCtl.bytes,
      CcidCtl.ofBytes]
  · rw [hpayload.2, hback]

theorem ccidResponseCreate_isSome_iff (h : pkt.Wf) :
    (ccidResponseCreate pkt).isSome ↔ CcidWellFormed pkt.contents := by
  rw [ccidResponseCreate_eq h]
  split
  · rename_i hwf
    exact iff_of_true rfl hwf
  · rename_i hbad
    exact iff_of_false (by simp) hbad

theorem ccidResponseCreate_eq_some (h : pkt.Wf) {resp : CcidResponse}
    (hresp : ccidResponseCreate pkt = some resp) :
    CcidWellFormed pkt.contents ∧ resp = ccidResponseOf pkt := by
  rw [ccidResponseCreate_eq h, Option.ite_none_right_eq_some] at hresp
  exact ⟨hresp.1, (Option.some.inj hresp.2).symm⟩

/-- The fields of a response are those of the packet it was taken from. -/
theorem ccidPacket_response (h : pkt.Wf) (hwf : CcidWellFormed pkt.contents) :
    ccidPacket (ccidResponseOf pkt).type (ccidResponseOf pkt).slot
      (ccidResponseOf pkt).seq (ccidResponseOf pkt).ctl
      (ccidResponseOf pkt).payload.contents =
    pkt.contents.take (10 + ccidDeclared pkt.contents) := by
  rw [(ccidResponseOf_payload h hwf).2]
  exact ccidPacket_of_bytes hwf

end

/-- A command built from a response is the packet the response came from. -/
theorem ccidBuildCommand_response {pkt : Buffer} (h : pkt.Wf)
    {resp : CcidResponse} (hresp : ccidResponseCreate pkt = some resp)
    (hlen : ccidDeclared pkt.contents ≤ 2 ^ 32 - 24) {reader : CcidReader}
    (hseq : UInt8.ofNat reader.ccidSeq = resp.seq) :
    exists command,
      ccidBuildCommand reader resp.slot resp.type (some resp.ctl)
        resp.payload.contents resp.payload.contents.length = some command ∧
      command.pkt.contents =
        pkt.contents.take (10 + ccidDeclared pkt.contents) := by
  rcases ccidResponseCreate_eq_some h hresp with ⟨hwf, rfl⟩
  have hpayload : (ccidResponseOf pkt).payload.contents.length =
      ccidDeclared pkt.contents := by
    rw [(ccidResponseOf_payload h hwf).2, ccidPayload_length hwf]
  cases hbuild : ccidBuildCommand reader (ccidResponseOf pkt).slot
      (ccidResponseOf pkt).type (some (ccidResponseOf pkt).ctl)
      (ccidResponseOf pkt).payload.contents
      (ccidResponseOf pkt).payload.contents.length with
  | none =>
      have hlong := ccidBuildCommand_eq_none_iff.mp hbuild
      lia
  | some command =>
      refine ⟨command, rfl, ?_⟩
      rw [(ccidBuildCommand_spec hbuild).2.2.2, hseq]
      exact ccidPacket_response h hwf

theorem ccid_codec :
    (forall (reader : CcidReader) (slot cmd : UInt8) (ctl : CcidCtl)
        (payload : List UInt8), payload.length < 2 ^ 32 ->
      (ccidBuildCommand reader slot cmd (some ctl) payload payload.length = none ↔
        2 ^ 32 - 24 < payload.length) ∧
      forall command,
        ccidBuildCommand reader slot cmd (some ctl) payload payload.length =
          some command ->
        command.pkt.contents.length = 10 + payload.length ∧
        forall (pkt : Buffer) (trailing : List UInt8), pkt.Wf ->
          pkt.contents = command.pkt.contents ++ trailing ->
          exists resp, ccidResponseCreate pkt = some resp ∧ resp.type = cmd ∧
            resp.slot = slot ∧ resp.seq = UInt8.ofNat reader.ccidSeq ∧
            resp.ctl = ctl ∧ resp.payload.contents = payload) ∧
    (forall pkt : Buffer, pkt.Wf ->
      ((ccidResponseCreate pkt).isSome ↔
        10 ≤ pkt.contents.length ∧
          ccidDeclared pkt.contents ≤ pkt.contents.length - 10) ∧
      forall resp, ccidResponseCreate pkt = some resp ->
        ccidDeclared pkt.contents ≤ 2 ^ 32 - 24 ->
        forall reader : CcidReader, UInt8.ofNat reader.ccidSeq = resp.seq ->
        exists command,
          ccidBuildCommand reader resp.slot resp.type (some resp.ctl)
            resp.payload.contents resp.payload.contents.length = some command ∧
          command.pkt.contents =
            pkt.contents.take (10 + ccidDeclared pkt.contents)) := by
  constructor
  · intro reader slot cmd ctl payload hlen
    refine ⟨ccidBuildCommand_eq_none_iff, ?_⟩
    intro command hbuild
    rcases ccidBuildCommand_spec hbuild with ⟨_, _, _, hpacket⟩
    refine ⟨by rw [hpacket, ccidPacket_length], ?_⟩
    intro pkt trailing hwf hcontents
    rw [hpacket] at hcontents
    rcases ccidResponseCreate_packet hwf hlen hcontents with
      ⟨resp, hresp, htype, hslot, hseq, hctl, _, hpayload⟩
    exact ⟨resp, hresp, htype, hslot, hseq, hctl, hpayload⟩
  · intro pkt hwf
    constructor
    · rw [ccidResponseCreate_isSome_iff hwf, CcidWellFormed, ccidHdrSize]
      lia
    · intro resp hresp hlen reader hseq
      exact ccidBuildCommand_response hwf hresp hlen hseq

/-- Without the limit on the declared length there are responses no command
can be built from: those with one byte more than a command can have. -/
theorem not_ccidBuildCommand_longPayload :
    ¬ (forall (pkt : Buffer) (resp : CcidResponse) (reader : CcidReader), pkt.Wf ->
        ccidResponseCreate pkt = some resp ->
        UInt8.ofNat reader.ccidSeq = resp.seq ->
        exists command,
          ccidBuildCommand reader resp.slot resp.type (some resp.ctl)
            resp.payload.contents resp.payload.contents.length = some command ∧
          command.pkt.contents =
            pkt.contents.take (10 + ccidDeclared pkt.contents)) := by
  intro hall
  have hlong : exists payload : List UInt8, payload.length = 2 ^ 32 - 23 :=
    ⟨List.replicate (2 ^ 32 - 23) 0, List.length_replicate⟩
  rcases hlong with ⟨payload, hlen⟩
  have hpacket := ccidPacket_length 0 0 0 {} payload
  have hsmall : (ccidPacket 0 0 0 {} payload).length < 2 ^ 32 := by lia
  have hwf := bufferInitRead_wf hsmall
  have hcontents := bufferInitRead_contents hsmall
  have hsplit := hcontents.trans (List.append_nil (ccidPacket 0 0 0 {} payload)).symm
  rcases ccidResponseCreate_packet hwf (by lia) hsplit with
    ⟨resp, hresp, _, _, hseq, _, _, hpayload⟩
  rcases hall _ resp {} hwf hresp hseq.symm with ⟨command, hbuild, _⟩
  have hshort := length_le_of_ccidBuildCommand hbuild
  rw [hpayload] at hshort
  lia

end UtokenDecrypt
