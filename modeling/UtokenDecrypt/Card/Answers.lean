import UtokenDecrypt.Card.Reassemble

/-!
# A card that answers

What it means for a device to answer an APDU, in terms of the packets on its
two bulk endpoints, and what `ifd_card_xfer` makes of an answer that comes in
several parts.  The parts go into the buffer of the first one, so that its room
decides.
-/

namespace UtokenDecrypt

open Foundation
open Usb

/-!
## Packets
-/

/-- A whole packet that brings a payload for the command with these numbers. -/
structure CcidAnswers (slot seq : UInt8) (payload packet : List UInt8) : Prop where
  whole : CcidWellFormed packet
  slot : packet.getD 5 0 = slot
  seq : packet.getD 6 0 = seq
  type : packet.getD 0 0 = ccidRespData
  status : packet.getD 7 0 &&& 0xc0 = 0
  payload : ccidPayload packet = payload

/-- A whole packet that responds to the command with these numbers. -/
structure CcidReplies (slot seq type status : UInt8) (payload packet : List UInt8) : Prop where
  whole : CcidWellFormed packet
  slot : packet.getD 5 0 = slot
  seq : packet.getD 6 0 = seq
  type : packet.getD 0 0 = type
  status : packet.getD 7 0 = status
  payload : ccidPayload packet = payload

/-- A whole packet for another command, or one that asks for more time. -/
structure CcidIgnored (slot seq : UInt8) (packet : List UInt8) : Prop where
  whole : CcidWellFormed packet
  ignored : packet.getD 5 0 ≠ slot ∨ packet.getD 6 0 ≠ seq ∨
    packet.getD 0 0 = ccidRespData ∧ packet.getD 7 0 &&& 0xc0 = 0x80

theorem CcidIgnored.verdict {cmd : CcidCommand} {packet : List UInt8}
    (h : CcidIgnored cmd.slot cmd.seq packet) :
    ccidVerdict cmd ccidRespData packet = .skip := by
  have hignored := h.ignored
  unfold ccidVerdict
  rw [if_neg (not_not.mpr h.whole)]
  split
  · rfl
  · rename_i hown
    rw [not_or, not_not, not_not] at hown
    have hwait : packet.getD 0 0 = ccidRespData ∧ packet.getD 7 0 &&& 0xc0 = 0x80 := by
      rcases hignored with hslot | hseq | hwait
      · exact absurd hown.1 hslot
      · exact absurd hown.2 hseq
      · exact hwait
    rw [if_neg (not_not.mpr hwait.1), hwait.2, if_neg (by decide), if_pos rfl]

section

variable {σ : Type} [Usbfs σ]

/-- The next receives, at most so many, bring the payload. -/
inductive Delivers (dev : UusbDev) (maxlen : Nat) (slot seq : UInt8)
    (payload : List UInt8) : Nat -> σ -> σ -> Prop where
  | answer {count : Nat} {usb after : σ} {packet : List UInt8}
      (hrecv : uusbRecvBulk dev maxlen usb = (some packet, after))
      (h : CcidAnswers slot seq payload packet) :
      Delivers dev maxlen slot seq payload (count + 1) usb after
  | ignored {count : Nat} {usb mid after : σ} {packet : List UInt8}
      (hrecv : uusbRecvBulk dev maxlen usb = (some packet, mid))
      (h : CcidIgnored slot seq packet)
      (hrest : Delivers dev maxlen slot seq payload count mid after) :
      Delivers dev maxlen slot seq payload (count + 1) usb after

/-- What is delivered fits into a receive buffer, behind a header. -/
theorem Delivers.fits {dev : UusbDev} {maxlen count : Nat} {slot seq : UInt8}
    {payload : List UInt8} {usb after : σ}
    (h : Delivers dev maxlen slot seq payload count usb after) :
    10 + payload.length ≤ capacity maxlen := by
  induction h with
  | answer hrecv hanswer =>
      have hle := (uusbRecvBulk_le hrecv).1
      have hwhole := hanswer.whole.2
      rw [← hanswer.payload, ccidPayload_length hanswer.whole]
      exact Nat.le_trans hwhole hle
  | ignored _ _ _ ih => exact ih

theorem ccidXferLoop_delivers {cmd : CcidCommand} {dev : UusbDev} {maxlen count : Nat}
    {payload : List UInt8} {usb after : σ}
    (h : Delivers dev maxlen cmd.slot cmd.seq payload count usb after) {s : Host σ}
    (hdev : s.dev = dev) (hmax : s.reader.maxMessageSize = maxlen) (husb : s.usb = usb) :
    exists resp t, ccidXferLoop cmd ccidRespData count s = (.done (some resp), t) ∧
      resp.payload.contents = payload ∧ t.usb = after := by
  induction h generalizing s with
  | @answer count usb after packet hrecv hanswer =>
      rw [← hdev, ← hmax, ← husb] at hrecv
      have haccept : ccidVerdict cmd ccidRespData packet = .accept :=
        ccidVerdict_accept_iff.mpr ⟨hanswer.whole, hanswer.slot, hanswer.seq,
          hanswer.type, hanswer.status⟩
      have haccepted := ccidAccepted_spec (uusbRecvBulk_le hrecv).1 haccept
      rcases ccidXferLoop_whole cmd ccidRespData count hrecv hanswer.whole with
        ⟨dumps, hround⟩
      rw [hround, haccept]
      exact ⟨_, _, rfl, haccepted.contents.trans hanswer.payload, rfl⟩
  | @ignored count usb mid after packet hrecv hignored _ ih =>
      rw [← hdev, ← hmax, ← husb] at hrecv
      rcases ccidXferLoop_whole cmd ccidRespData count hrecv hignored.whole with
        ⟨dumps, hround⟩
      rw [hround, hignored.verdict]
      exact ih hdev hmax rfl

/-!
## APDUs
-/

/-- The device, and the sequence number of the next command. -/
structure Wire (σ : Type) where
  usb : σ
  seq : Nat

def Host.wire {σ : Type} (s : Host σ) : Wire σ where
  usb := s.usb
  seq := s.reader.ccidSeq

/-- What the packets depend on and no exchange changes. -/
structure Port where
  dev : UusbDev
  maxMessageSize : Nat
  slot : Nat

def Host.port {σ : Type} (s : Host σ) (slot : Nat) : Port where
  dev := s.dev
  maxMessageSize := s.reader.maxMessageSize
  slot := slot

variable {port : Port} {w w' : Wire σ}

/-- The device takes the command with the APDU, and one of the next six packets
is the answer. -/
structure Wire.Answers (port : Port) (w : Wire σ) (apdu : List UInt8) (p : ReplyApdu)
    (w' : Wire σ) : Prop where
  answers : exists usb,
    Usbfs.bulkOut w.usb (endpointAddress port.dev.endpoints.epO)
        (ccidPacket ccidCmdXfrblock (UInt8.ofNat port.slot) (UInt8.ofNat w.seq) {} apdu) =
      (true, usb) ∧
    Delivers port.dev port.maxMessageSize (UInt8.ofNat port.slot) (UInt8.ofNat w.seq)
      p.bytes 6 usb w'.usb
  seq : w'.seq = (UInt8.ofNat w.seq).toNat + 1

theorem Wire.Answers.fits {apdu : List UInt8} {p : ReplyApdu}
    (h : w.Answers port apdu p w') :
    10 + p.body.length ≤ capacity port.maxMessageSize := by
  rcases h.answers with ⟨usb, _, hdelivers⟩
  have hfits := hdelivers.fits
  rw [ReplyApdu.bytes_length] at hfits
  lia

theorem ccidReaderApduXfer_answers {apdu : Buffer} (hwf : apdu.Wf)
    (hshort : apdu.contents.length ≤ 260) {p : ReplyApdu} {s : Host σ}
    (hport : s.port port.slot = port) (hwire : s.wire = w)
    (h : w.Answers port apdu.contents p w') :
    exists reply t, ccidReaderApduXfer port.slot apdu s = (.done (some reply), t) ∧
      reply.contents = p.bytes ∧ t.wire = w' ∧ t.port port.slot = port := by
  have hdev : s.dev = port.dev := congrArg Port.dev hport
  have hmax : s.reader.maxMessageSize = port.maxMessageSize :=
    congrArg Port.maxMessageSize hport
  have husb : s.usb = w.usb := congrArg Wire.usb hwire
  have hseq : s.reader.ccidSeq = w.seq := congrArg Wire.seq hwire
  rcases h.answers with ⟨usb, hout, hdelivers⟩
  rw [ccidReaderApduXfer, Process.bind_done (Process.read_apply s),
    Process.bind_pure_apply, ccidBuildCommand_contents hwf]
  cases hbuild : ccidBuildCommand s.reader (UInt8.ofNat port.slot) ccidCmdXfrblock none
      apdu.contents apdu.contents.length with
  | none =>
      have hlong := ccidBuildCommand_eq_none_iff.mp hbuild
      lia
  | some cmd =>
      rcases ccidBuildCommand_spec hbuild with ⟨hslot, hcmdSeq, hcmdWf, hcontents⟩
      rw [hseq] at hcmdSeq hcontents
      have hlength : cmd.pkt.contents.length = 10 + apdu.contents.length := by
        rw [hcontents, ccidPacket_length]
      have hsend : uusbSendBulk s.dev cmd.pkt s.usb = (true, usb) := by
        have hfits : uusbBulkOkay (bufferAvailable cmd.pkt) = true := by
          rw [bufferAvailable_eq hcmdWf]
          exact uusbBulkOkay_of_lt (by lia)
        simp only [uusbSendBulk, bufferReadPointer_take_all hcmdWf, hcontents, hdev, husb,
          Option.getD_none, hout, hfits, Bool.and_self]
      rcases ccidXfer_cases cmd ccidRespData hcmdWf s with ⟨dumps, hrun⟩
      rw [← hslot, ← hcmdSeq] at hdelivers
      rcases ccidXferLoop_delivers hdelivers (s := s.sentCommand cmd dumps usb) hdev hmax
        rfl with ⟨resp, t, hloop, hpayload, hafter⟩
      rcases (ccidXferLoop_ensures cmd ccidRespData 6 _).apply hloop with
        ⟨answers, hreceived⟩
      rw [if_pos (Or.inr (by lia)), hsend, if_pos rfl, hloop] at hrun
      rw [ccidXferBuilt, hrun]
      refine ⟨resp.payload, t, rfl, hpayload, ?_, ?_⟩
      · rw [Host.wire, hafter, hreceived.reader]
        change Wire.mk w'.usb (cmd.seq.toNat + 1) = w'
        rw [hcmdSeq, ← h.seq]
      · rw [Host.port, hreceived.dev, hreceived.reader]
        exact hport

/-!
## Answers in parts
-/

/-- A part that announces the length of the next one. -/
def morePart (chunk next : List UInt8) : ReplyApdu where
  body := chunk
  sw1 := 0x61
  sw2 := UInt8.ofNat next.length

def lastPart (chunk : List UInt8) : ReplyApdu where
  body := chunk
  sw1 := 0x90
  sw2 := 0x00

omit [Usbfs σ] in
theorem lastPart_sw (chunk : List UInt8) : (lastPart chunk).sw = ykpivSuccess := by
  have hsw : (0x90 : UInt8).toNat * 256 + (0x00 : UInt8).toNat = ykpivSuccess := by decide
  rw [← hsw, ReplyApdu.sw, lastPart]

/-- The chunks come one after the other, each one behind the first when it is
asked for. -/
inductive Wire.AnswersParts (port : Port) :
    Wire σ -> List UInt8 -> List (List UInt8) -> Wire σ -> Prop where
  | last {w w' : Wire σ} {apdu chunk : List UInt8}
      (h : w.Answers port apdu (lastPart chunk) w') :
      AnswersParts port w apdu [chunk] w'
  | more {w mid w' : Wire σ} {apdu chunk next : List UInt8} {rest : List (List UInt8)}
      (h : w.Answers port apdu (morePart chunk next) mid)
      (hrest : AnswersParts port mid (getResponseApdu (morePart chunk next))
        (next :: rest) w') :
      AnswersParts port w apdu (chunk :: next :: rest) w'

omit [Usbfs σ] in
theorem morePart_advertised {chunk next : List UInt8}
    (h : 1 ≤ next.length ∧ next.length ≤ 0x100) :
    (morePart chunk next).advertised = next.length := by
  have hsw2 : (morePart chunk next).sw2.toNat = next.length % 256 := UInt8.toNat_ofNat'
  unfold ReplyApdu.advertised
  split
  · rename_i hzero
    rw [hzero] at hsw2
    change 0 = next.length % 256 at hsw2
    lia
  · rename_i hne
    have hpos : (morePart chunk next).sw2.toNat ≠ 0 :=
      fun heq => hne (UInt8.toNat_inj.mp heq)
    lia

omit [Usbfs σ] in
theorem Joined.front {size : Nat} {front back : List ReplyApdu}
    (h : Joined size (front ++ back)) : Joined size front := by
  have hfits := h.fits
  rw [List.flatMap_append, List.length_append] at hfits
  exact ⟨(List.isChain_append.mp h.chain).1, by lia⟩

omit [Usbfs σ] in
/-- Behind a part that was joined the exchange goes on. -/
theorem CardExchange.tail {size : Nat} {prior : List ReplyApdu} {first : List UInt8}
    {call : ApduCall} {calls : List ApduCall}
    {outcome : Outcome (Option (List UInt8 × Nat))} {p : ReplyApdu}
    {reached : List ReplyApdu} {last : Outcome (Option (List UInt8))}
    (h : CardExchange size prior first (call :: calls) outcome (p :: reached) last) :
    CardExchange size (prior ++ [p]) (getResponseApdu p) calls outcome reached last where
  apdus := (List.cons.inj h.apdus).2
  replies := (List.cons.inj h.replies).2
  more := fun q hmem => h.more q (List.mem_cons_of_mem p hmem)
  joined := by
    intro _
    rw [List.append_assoc]
    exact h.joined (List.cons_ne_nil p reached)
  ends := by
    rw [List.append_assoc]
    exact h.ends

omit [Usbfs σ] in
/-- The first reply is either the last one, or one that is joined. -/
theorem CardExchange.head_cases {size : Nat} {prior : List ReplyApdu}
    {first : List UInt8} {call : ApduCall} {calls : List ApduCall}
    {outcome : Outcome (Option (List UInt8 × Nat))} {reached : List ReplyApdu}
    {last : Outcome (Option (List UInt8))}
    (h : CardExchange size prior first (call :: calls) outcome reached last) :
    (calls = [] ∧ CardEnd size prior call.reply outcome) ∨
      exists p rest, reached = p :: rest ∧ call.reply = .done (some p.bytes) ∧
        p.sw1 = 0x61 ∧ Joined size (prior ++ [p]) := by
  have hreplies := h.replies
  cases reached with
  | nil =>
      rcases List.cons.inj hreplies with ⟨hlast, hnil⟩
      have hends := h.ends
      rw [List.append_nil, ← hlast] at hends
      exact Or.inl ⟨List.map_eq_nil_iff.mp hnil, hends⟩
  | cons p rest =>
      have hall := h.joined (List.cons_ne_nil p rest)
      rw [List.append_cons] at hall
      exact Or.inr ⟨p, rest, rfl, (List.cons.inj hreplies).1,
        h.more p List.mem_cons_self, hall.front⟩

omit [Usbfs σ] in
theorem CardExchange.first_reply {size : Nat} {prior : List ReplyApdu}
    {first : List UInt8} {call : ApduCall} {calls : List ApduCall}
    {outcome : Outcome (Option (List UInt8 × Nat))} {p : ReplyApdu}
    {reached : List ReplyApdu} {last : Outcome (Option (List UInt8))}
    (h : CardExchange size prior first (call :: calls) outcome reached last)
    (hreply : call.reply = .done (some p.bytes)) :
    (calls = [] ∧ CardEnd size prior (.done (some p.bytes)) outcome) ∨
      exists rest, reached = p :: rest ∧ p.sw1 = 0x61 ∧ Joined size (prior ++ [p]) := by
  have hcases := h.head_cases
  rw [hreply] at hcases
  rcases hcases with hend | ⟨q, rest, hreached, hq, hmore, hjoined⟩
  · exact Or.inl hend
  · injection hq with hq
    rw [← ReplyApdu.bytes_injective (Option.some.inj hq)] at hreached hmore hjoined
    exact Or.inr ⟨rest, hreached, hmore, hjoined⟩

omit [Usbfs σ] in
theorem CardEnd.of_not_joined {size : Nat} {prior : List ReplyApdu} {p : ReplyApdu}
    {outcome : Outcome (Option (List UInt8 × Nat))}
    (h : CardEnd size prior (.done (some p.bytes)) outcome)
    (hfull : ¬ Joined size (prior ++ [p])) : outcome = .done none := by
  generalize hreply : Outcome.done (some p.bytes) = reply at h
  cases h with
  | @finished q hjoined _ =>
      injection hreply with hreply
      rw [ReplyApdu.bytes_injective (Option.some.inj hreply)] at hfull
      exact absurd hjoined hfull
  | refused _ => rfl
  | crashed => cases hreply
  | hung => cases hreply

/-- The first APDU of an exchange, when it is answered. -/
theorem CardExchange.first_answered {size : Nat} {prior : List ReplyApdu}
    {apdu : List UInt8} {calls : List (Buffer × Outcome (Option Buffer))}
    {outcome : Outcome (Option (List UInt8 × Nat))} {p : ReplyApdu}
    {reached : List ReplyApdu} {last : Outcome (Option (List UInt8))} {s t : Host σ}
    (h : CardExchange size prior apdu (calls.map ApduCall.of) outcome reached last)
    (hanswers : w.Answers port apdu p w') (hshort : apdu.length ≤ 260)
    (hport : s.port port.slot = port) (hwire : s.wire = w)
    (hcalls : Process.Calls (ccidReaderApduXfer port.slot) s calls t)
    (hwf : forall call, call ∈ calls -> call.1.Wf) :
    exists call rest u, calls = call :: rest ∧
      (ApduCall.of call).reply = .done (some p.bytes) ∧
      Process.Calls (ccidReaderApduXfer port.slot) u rest t ∧
      u.wire = w' ∧ u.port port.slot = port := by
  cases calls with
  | nil => cases h.apdus
  | cons call rest =>
      have hapdu : call.1.contents = apdu := (List.cons.inj h.apdus).1
      rw [← hapdu] at hanswers hshort
      rcases hcalls.head with ⟨u, hcall, hrest⟩
      rcases ccidReaderApduXfer_answers (hwf call List.mem_cons_self) hshort hport hwire
        hanswers with ⟨reply, t', hrun, hbytes, hwire', hport'⟩
      rw [hcall] at hrun
      rcases Prod.mk.inj hrun with ⟨hreply, rfl⟩
      refine ⟨call, rest, u, rfl, ?_, hrest, hwire', hport'⟩
      rw [ApduCall.of, hreply, ← hbytes]
      rfl

/-- What `ifd_card_xfer` gives for an answer in parts: all of it if there is room,
and nothing otherwise. -/
def PartsGive (size : Nat) (front : List UInt8) (chunks : List (List UInt8))
    (outcome : Outcome (Option (List UInt8 × Nat))) (arrived : Prop) : Prop :=
  (10 + (front ++ chunks.flatten).length ≤ size ->
    outcome = .done (some (front ++ chunks.flatten, ykpivSuccess)) ∧ arrived) ∧
  (size < 10 + (front ++ chunks.flatten).length -> outcome = .done none)

theorem Wire.AnswersParts.gives {apdu : List UInt8} {chunks : List (List UInt8)}
    (h : w.AnswersParts port apdu chunks w')
    (hcut : forall chunk, chunk ∈ chunks.tail -> 1 ≤ chunk.length ∧ chunk.length ≤ 0x100)
    (hshort : apdu.length ≤ 260) {s t : Host σ}
    (hport : s.port port.slot = port) (hwire : s.wire = w)
    {prior : List ReplyApdu} {calls : List (Buffer × Outcome (Option Buffer))}
    (hcalls : Process.Calls (ccidReaderApduXfer port.slot) s calls t)
    (hwf : forall call, call ∈ calls -> call.1.Wf)
    {outcome : Outcome (Option (List UInt8 × Nat))} {reached : List ReplyApdu}
    {last : Outcome (Option (List UInt8))}
    (hexchange : CardExchange (capacity port.maxMessageSize) prior apdu
      (calls.map ApduCall.of) outcome reached last)
    (hjoin : forall q : ReplyApdu, chunks.head? = some q.body ->
      (Joined (capacity port.maxMessageSize) (prior ++ [q]) ↔
        10 + ((prior ++ [q]).flatMap ReplyApdu.body).length ≤
          capacity port.maxMessageSize)) :
    PartsGive (capacity port.maxMessageSize) (prior.flatMap ReplyApdu.body) chunks
      outcome (t.wire = w') := by
  induction h generalizing s prior calls reached with
  | @last w w' apdu chunk hanswers =>
      rcases hexchange.first_answered hanswers hshort hport hwire hcalls hwf with
        ⟨call, more, u, rfl, hreply, hmore, hu, _⟩
      have hiff := hjoin (lastPart chunk) rfl
      rw [List.flatMap_append, List.flatMap_singleton] at hiff
      change _ ↔ 10 + (prior.flatMap ReplyApdu.body ++ chunk).length ≤ _ at hiff
      rcases hexchange.first_reply hreply with ⟨hnil, hends⟩ | ⟨_, _, hsw1, _⟩
      · rw [PartsGive, List.flatten_singleton]
        constructor
        · intro hroom
          have houtcome := (hends.of_joined (hiff.mpr hroom)).2
          rw [List.flatMap_append, List.flatMap_singleton, lastPart_sw] at houtcome
          refine ⟨houtcome, ?_⟩
          rw [List.map_eq_nil_iff.mp hnil] at hmore
          cases hmore
          exact hu
        · intro hfull
          exact hends.of_not_joined (fun hjoined => by
            have hroom := hiff.mp hjoined
            lia)
      · change (0x90 : UInt8) = 0x61 at hsw1
        exact absurd hsw1 (by decide)
  | @more w mid w' apdu chunk next rest hanswers hrest ih =>
      rcases hexchange.first_answered hanswers hshort hport hwire hcalls hwf with
        ⟨call, more, u, rfl, hreply, hmore, hu, huport⟩
      have hiff := hjoin (morePart chunk next) rfl
      rw [List.flatMap_append, List.flatMap_singleton] at hiff
      change _ ↔ 10 + (prior.flatMap ReplyApdu.body ++ chunk).length ≤ _ at hiff
      have hnext := hcut next List.mem_cons_self
      rcases hexchange.first_reply hreply with ⟨_, hends⟩ | ⟨reached, rfl, _, hjoined⟩
      · -- it asks for more, so that there was no room for it
        have hfull : ¬ Joined (capacity port.maxMessageSize)
            (prior ++ [morePart chunk next]) :=
          fun hjoined => (hends.of_joined hjoined).1 rfl
        have hlong := fun hroom => hfull (hiff.mpr hroom)
        rw [List.length_append] at hlong
        rw [PartsGive, List.flatten_cons, List.length_append, List.length_append]
        exact ⟨fun hroom => absurd (by lia) hlong, fun _ => hends.of_not_joined hfull⟩
      · have hgives := ih (fun other hmem => hcut other (List.mem_cons_of_mem _ hmem))
          (by rw [getResponseApdu_length]; decide) huport hu hmore
          (fun call hmem => hwf call (List.mem_cons_of_mem _ hmem)) hexchange.tail ?_
        · rw [List.flatMap_append, List.flatMap_singleton] at hgives
          rw [PartsGive, List.append_assoc] at hgives
          exact hgives
        · intro q hq
          have hbody : next = q.body := Option.some.inj hq
          have hlength : ((prior ++ [morePart chunk next] ++ [q]).flatMap
              ReplyApdu.body).length =
              ((prior ++ [morePart chunk next]).flatMap ReplyApdu.body).length +
                q.body.length := by
            rw [List.flatMap_append, List.length_append, List.flatMap_singleton]
          rw [joined_snoc_iff rfl hjoined, morePart_advertised hnext, hlength, hbody,
            Nat.add_assoc]
          exact and_iff_right rfl

end

end UtokenDecrypt
