import UtokenDecrypt.Card.Yubikey
import UtokenDecrypt.Foundation.Calls

/-!
# One APDU

What `ccid_reader_apdu_xfer` and `ifd_card_apdu` do with a single APDU,
for any device.
-/

namespace UtokenDecrypt

open Foundation

/-- A receive buffer of the reader, positioned behind the header. -/
structure IsReply (size : Nat) (bp : Buffer) : Prop where
  wf : bp.Wf
  size_eq : bp.size = size
  rpos_eq : bp.rpos = 10
  small : size < 2 ^ 31

section

variable {size : Nat} {bp : Buffer}

theorem IsReply.wpos_eq (h : IsReply size bp) :
    bp.wpos = 10 + bp.contents.length := by
  have hlen := h.wf.contents_length
  have hrpos := h.rpos_eq
  have hle := h.wf.rpos_le
  lia

theorem IsReply.fits (h : IsReply size bp) :
    10 + bp.contents.length ≤ size := by
  rw [← h.wpos_eq, ← h.size_eq]
  exact h.wf.wpos_le

end

/-!
## Building
-/

/-- The bytes of an APDU. -/
def apduBytes (cla ins p1 p2 : UInt8) (data : List UInt8) : List UInt8 :=
  cla :: ins :: p1 :: p2 :: UInt8.ofNat data.length :: data

@[simp] theorem apduBytes_length (cla ins p1 p2 : UInt8) (data : List UInt8) :
    (apduBytes cla ins p1 p2 data).length = 5 + data.length := by
  simp only [apduBytes, List.length_cons]
  lia

theorem ifdBuildApdu_put (cla ins p1 p2 : UInt8) {len : Nat} (hlen : len ≤ 0xFF) :
    exists header, header.Wf ∧
      header.contents = [cla, ins, p1, p2, UInt8.ofNat len] ∧
      header.wpos = 5 ∧ 5 + len ≤ header.size ∧
      (forall data, ifdBuildApdu cla ins p1 p2 (some data) len =
        bufferPut header (data.take len)) ∧
      ifdBuildApdu cla ins p1 p2 none len = some header := by
  have hwf := bufferAllocWrite_wf (5 + len)
  have hcap : 5 + len ≤ capacity (5 + len) := le_capacity (by lia)
  have hsome := (bufferPut_isSome_iff hwf [cla, ins, p1, p2, UInt8.ofNat len]).mpr (by
    change 0 + 5 ≤ capacity (5 + len)
    lia)
  rcases Option.isSome_iff_exists.mp hsome with ⟨header, hput⟩
  rcases bufferPut_spec hwf hput with ⟨hheader, hcontents, _, hwpos, hsize⟩
  -- the five single writes are one
  have hbuild : forall data, ifdBuildApdu cla ins p1 p2 data len =
      (bufferPut (bufferAllocWrite (5 + len))
        [cla, ins, p1, p2, UInt8.ofNat len]).bind fun apdu =>
          data.elim (some apdu) fun data => bufferPut apdu (data.take len) := by
    intro data
    rw [ifdBuildApdu, if_neg (by lia)]
    cases data with
    | none =>
        simp only [bufferPutU8, Option.bind_eq_bind, bufferPut_bind_put hwf,
          List.cons_append, List.nil_append, Option.elim]
    | some data =>
        simp only [bufferPutU8, Option.bind_eq_bind, bufferPut_bind_put hwf,
          List.cons_append, List.nil_append, Option.elim]
  refine ⟨header, hheader, by simpa using hcontents, ?_, ?_, ?_, ?_⟩
  · rw [hwpos]
    rfl
  · rw [hsize, bufferAllocWrite_size]
    exact hcap
  · intro data
    rw [hbuild, hput, Option.bind_some, Option.elim_some]
  · rw [hbuild, hput, Option.bind_some, Option.elim_none]

/-- An APDU with data. -/
theorem ifdBuildApdu_some (cla ins p1 p2 : UInt8) {data : List UInt8} {len : Nat}
    (hlen : len ≤ 0xFF) (hdata : len ≤ data.length) :
    exists apdu, ifdBuildApdu cla ins p1 p2 (some data) len = some apdu ∧
      apdu.Wf ∧ apdu.contents = apduBytes cla ins p1 p2 (data.take len) := by
  rcases ifdBuildApdu_put cla ins p1 p2 hlen with
    ⟨header, hwf, hcontents, hwpos, hsize, hbuild, _⟩
  have htake : (data.take len).length = len := List.length_take_of_le hdata
  have hsome := (bufferPut_isSome_iff hwf (data.take len)).mpr (by
    rw [hwpos, htake]
    exact hsize)
  rcases Option.isSome_iff_exists.mp hsome with ⟨apdu, hput⟩
  rcases bufferPut_spec hwf hput with ⟨hapdu, hall, _⟩
  refine ⟨apdu, by rw [hbuild, hput], hapdu, ?_⟩
  rw [hall, hcontents, apduBytes, htake]
  rfl

/-- An APDU without data carries the length byte it is given. -/
theorem ifdBuildApdu_none (cla ins p1 p2 : UInt8) {len : Nat} (hlen : len ≤ 0xFF) :
    exists apdu, ifdBuildApdu cla ins p1 p2 none len = some apdu ∧
      apdu.Wf ∧ apdu.contents = [cla, ins, p1, p2, UInt8.ofNat len] := by
  rcases ifdBuildApdu_put cla ins p1 p2 hlen with
    ⟨header, hwf, hcontents, _, _, _, hbuild⟩
  exact ⟨header, hbuild, hwf, hcontents⟩

/-!
## Exchanging
-/

section

variable {σ : Type}

/-- What every exchange leaves alone. -/
structure Host.SameReader (s t : Host σ) : Prop where
  reader : exists seq, t.reader = { s.reader with ccidSeq := seq }
  dev : t.dev = s.dev
  optDebug : t.optDebug = s.optDebug

theorem Host.SameReader.rfl {s : Host σ} : s.SameReader s :=
  ⟨⟨s.reader.ccidSeq, Eq.refl _⟩, Eq.refl _, Eq.refl _⟩

theorem Host.SameReader.trans {s t u : Host σ} (h1 : s.SameReader t)
    (h2 : t.SameReader u) : s.SameReader u := by
  rcases h1.reader with ⟨seq1, hreader1⟩
  rcases h2.reader with ⟨seq2, hreader2⟩
  refine ⟨⟨seq2, ?_⟩, h2.dev.trans h1.dev, h2.optDebug.trans h1.optDebug⟩
  rw [hreader2, hreader1]

theorem Host.SameReader.maxMessageSize {s t : Host σ} (h : s.SameReader t) :
    t.reader.maxMessageSize = s.reader.maxMessageSize := by
  rcases h.reader with ⟨seq, hreader⟩
  rw [hreader]

variable [Usbfs σ]

/-- The command depends on the payload only, not on the memory behind it. -/
theorem ccidBuildCommand_contents {reader : CcidReader} {slot cmd : UInt8}
    {ctlData : Option CcidCtl} {apdu : Buffer} (h : apdu.Wf) :
    ccidBuildCommand reader slot cmd ctlData (bufferReadPointer apdu)
        (bufferAvailable apdu) =
      ccidBuildCommand reader slot cmd ctlData apdu.contents
        apdu.contents.length := by
  have htake := bufferReadPointer_take_all h
  simp only [ccidBuildCommand, ccidPutPayload, bufferAvailable_eq h] at htake ⊢
  rw [htake, List.take_length]

/-- How the transfer of an APDU goes: it may be too long to be put into a
command, its dump may not end, and otherwise it is exchanged. -/
inductive ApduXfer (slot : Nat) (apdu : List UInt8) (s t : Host σ) :
    Outcome (Option Buffer) -> Prop where
  | tooLong (h : 2 ^ 32 - 24 < apdu.length) (hsame : t = s) :
      ApduXfer slot apdu s t (.done none)
  | dumped (h : 2 ^ 32 - 42 < apdu.length) {dumps : List Dump}
      (hsame : t = { s with dumps := dumps }) : ApduXfer slot apdu s t .hang
  | exchanged {cmd : CcidCommand} {rv : Bool} {answers : List (Option (List UInt8))}
      {outcome : Outcome (Option CcidResponse)}
      (hcmd : cmd.pkt.contents = ccidPacket ccidCmdXfrblock (UInt8.ofNat slot)
        (UInt8.ofNat s.reader.ccidSeq) {} apdu)
      (h : CcidExchanged cmd ccidRespData s t rv answers outcome) :
      ApduXfer slot apdu s t (outcome.map (Option.map CcidResponse.payload))

theorem ccidReaderApduXfer_ensures (slot : Nat) {apdu : Buffer} (h : apdu.Wf)
    (s : Host σ) :
    (ccidReaderApduXfer slot apdu).Ensures s fun outcome t =>
      ApduXfer slot apdu.contents s t outcome := by
  unfold Process.Ensures
  rw [ccidReaderApduXfer, Process.bind_done (Process.read_apply s),
    Process.bind_pure_apply, ccidBuildCommand_contents h]
  cases hbuild : ccidBuildCommand s.reader (UInt8.ofNat slot) ccidCmdXfrblock none
      apdu.contents apdu.contents.length with
  | none =>
      exact ApduXfer.tooLong (ccidBuildCommand_eq_none_iff.mp hbuild) rfl
  | some cmd =>
      rcases ccidBuildCommand_spec hbuild with ⟨_, _, hwf, hcontents⟩
      have hxfer := ccidXfer_ensures cmd ccidRespData hwf s
      unfold Process.Ensures at hxfer
      change ApduXfer slot apdu.contents s (ccidXfer cmd ccidRespData s).2
        ((ccidXfer cmd ccidRespData s).1.map (Option.map CcidResponse.payload))
      rcases hxfer with ⟨hlong, hhang, dumps, hsame⟩ | ⟨rv, answers, hexchanged⟩
      · rw [hhang]
        rw [hcontents, ccidPacket_length] at hlong
        exact ApduXfer.dumped (by lia) hsame
      · exact ApduXfer.exchanged hcontents hexchanged

omit [Usbfs σ] in
/-- The payload of a response is in a receive buffer. -/
theorem CcidExchanged.isReply {cmd : CcidCommand} {expected : UInt8} {s t : Host σ}
    {rv : Bool} {answers : List (Option (List UInt8))} {resp : CcidResponse}
    (h : CcidExchanged cmd expected s t rv answers (.done (some resp))) :
    IsReply (capacity s.reader.maxMessageSize) resp.payload := by
  cases hrv : rv with
  | false => cases (h.failed hrv).2
  | true =>
      rcases Option.map_eq_some_iff.mp (h.result hrv).2.symm with
        ⟨packet, hdecision, hresp⟩
      rcases ccidDecision_mem hdecision with ⟨hmem, haccept⟩
      have haccepted := ccidAccepted_spec (h.fits packet hmem).1 haccept
      rw [hresp] at haccepted
      exact ⟨haccepted.wf, haccepted.size, haccepted.rpos, (h.fits packet hmem).2⟩

variable {slot : Nat} {apdu : List UInt8} {s t : Host σ}
  {outcome : Outcome (Option Buffer)}

omit [Usbfs σ] in
theorem ApduXfer.sameReader (h : ApduXfer slot apdu s t outcome) :
    s.SameReader t := by
  cases h with
  | tooLong h hsame =>
      rw [hsame]
      exact Host.SameReader.rfl
  | dumped h hsame =>
      rw [hsame]
      exact ⟨⟨_, rfl⟩, rfl, rfl⟩
  | exchanged hcmd h => exact ⟨⟨_, h.reader⟩, h.dev, h.optDebug⟩

omit [Usbfs σ] in
/-- A reply is in a receive buffer. -/
theorem ApduXfer.isReply (h : ApduXfer slot apdu s t outcome) {reply : Buffer}
    (hreply : outcome = .done (some reply)) :
    IsReply (capacity s.reader.maxMessageSize) reply := by
  cases h with
  | tooLong h hsame => cases hreply
  | dumped h hsame => cases hreply
  | @exchanged cmd rv answers outcome hcmd h =>
      cases outcome with
      | crash => cases hreply
      | hang => cases hreply
      | done resp =>
          cases resp with
          | none => cases hreply
          | some resp =>
              simp only [Outcome.map_done, Option.map_some, Outcome.done.injEq,
                Option.some.injEq] at hreply
              rw [← hreply]
              exact h.isReply

end

end UtokenDecrypt
