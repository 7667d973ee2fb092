import UtokenDecrypt.Card.Answers
import UtokenDecrypt.Card.Chaining
import UtokenDecrypt.Card.Encode
import UtokenDecrypt.Card.Unwrap
import UtokenDecrypt.Usb.Script

/-!
# From the ciphertext to the message

What `yubikey_decipher` returns when the card does its part.  The reply may be
cut in any way, but all of it is collected in the buffer of its first part, which
is as large as a message of the reader.  A reply that does not fit there is given
up, even when each of its parts is short enough for a message.
-/

namespace UtokenDecrypt

open Foundation
open Usb

section

variable {σ : Type} [Usbfs σ] {port : Port} {w w' : Wire σ}

/-!
## The exchange
-/

/-- How `ifd_card_xfer` ends when the APDU is answered. -/
structure Answered (port : Port) (chunks : List (List UInt8)) (w' : Wire σ)
    (outcome : Option (Buffer × Nat)) (t : Host σ) : Prop where
  samePort : t.port port.slot = port
  fits : 10 + chunks.flatten.length ≤ capacity port.maxMessageSize ->
    t.wire = w' ∧ exists reply, outcome = some (reply, ykpivSuccess) ∧ reply.Wf ∧
      reply.contents = chunks.flatten
  full : capacity port.maxMessageSize < 10 + chunks.flatten.length -> outcome = none

theorem ifdCardXfer_answered {card : IfdCard} {apdu : Buffer} (hwf : apdu.Wf)
    (hshort : apdu.contents.length ≤ 260) {chunks : List (List UInt8)}
    (h : w.AnswersParts port apdu.contents chunks w')
    (hcut : forall chunk, chunk ∈ chunks.tail -> 1 ≤ chunk.length ∧ chunk.length ≤ 0x100)
    {s : Host σ} (hslot : card.slot = port.slot) (hport : s.port port.slot = port)
    (hwire : s.wire = w) :
    exists outcome t, ifdCardXfer card (some apdu) s = (.done outcome, t) ∧
      Answered port chunks w' outcome t := by
  have hmax : s.reader.maxMessageSize = port.maxMessageSize :=
    congrArg Port.maxMessageSize hport
  have hruns := ifdCardXfer_runs card hwf s
  rw [hslot, hmax] at hruns
  rcases hrun : ifdCardXfer card (some apdu) s with ⟨outcome, t⟩
  rw [hrun] at hruns
  rcases hruns.exchange with ⟨calls, reached, last, hcalls, hproper, hexchange⟩
  have hjoin : forall q : ReplyApdu, chunks.head? = some q.body ->
      (Joined (capacity port.maxMessageSize) ([] ++ [q]) ↔
        10 + (([] ++ [q]).flatMap ReplyApdu.body).length ≤
          capacity port.maxMessageSize) :=
    fun q _ => ⟨fun hjoined => hjoined.fits, fun hroom => ⟨List.isChain_singleton q, hroom⟩⟩
  have hgives := h.gives hcut hshort hport hwire hcalls
    (fun call hmem => (hproper call hmem).apdu) hexchange hjoin
  have hafter : t.port port.slot = port := by
    rw [Host.port, hruns.sameReader.dev, hruns.sameReader.maxMessageSize]
    exact hport
  have hreply : forall bytes, cardResult outcome = .done (some (bytes, ykpivSuccess)) ->
      exists reply, outcome = .done (some (reply, ykpivSuccess)) ∧ reply.Wf ∧
        reply.contents = bytes := by
    intro bytes hresult
    cases outcome with
    | crash => cases hresult
    | hang => cases hresult
    | done got =>
        cases got with
        | none => cases hresult
        | some result =>
            rcases result with ⟨reply, sw⟩
            injection hresult with hresult
            rcases Prod.mk.inj (Option.some.inj hresult) with ⟨hbytes, hsw⟩
            rw [← hsw]
            exact ⟨reply, rfl, (hruns.isReply reply sw rfl).wf, hbytes⟩
  have hnone : cardResult outcome = .done none -> outcome = .done none := by
    intro hresult
    cases outcome with
    | crash => cases hresult
    | hang => cases hresult
    | done got =>
        cases got with
        | none => rfl
        | some result => cases hresult
  cases Nat.lt_or_ge (capacity port.maxMessageSize) (10 + chunks.flatten.length) with
  | inl hfull =>
      rw [hnone (hgives.2 hfull)]
      exact ⟨none, t, rfl, hafter, fun hroom => by lia, fun _ => rfl⟩
  | inr hroom =>
      rcases hgives.1 hroom with ⟨hresult, hwire'⟩
      rcases hreply _ hresult with ⟨reply, rfl, hreplyWf, hbytes⟩
      exact ⟨_, t, rfl, hafter, fun _ => ⟨hwire', reply, rfl, hreplyWf, hbytes⟩,
        fun hfull => by lia⟩

/-!
## The loop over the arguments
-/

/-- All `AUTHENTICATE` APDUs but the last are answered with success and nothing
else, and the last one with the chunks. -/
inductive Wire.AnswersChained (port : Port) (card : IfdCard) (algorithm : UInt8)
    (chunks : List (List UInt8)) : Wire σ -> List UInt8 -> Prop where
  | last {w w' : Wire σ} {data : List UInt8} (hlast : data.length ≤ 0xFF)
      (h : w.AnswersParts port (chunkApdu card algorithm data []) chunks w') :
      AnswersChained port card algorithm chunks w data
  | more {w w' : Wire σ} {data : List UInt8} (hmore : 0xFF < data.length)
      (h : w.Answers port
        (chunkApdu card algorithm (data.take 0xFF) (data.drop 0xFF)) (lastPart []) w')
      (hrest : AnswersChained port card algorithm chunks w' (data.drop 0xFF)) :
      AnswersChained port card algorithm chunks w data

omit [Usbfs σ] in
theorem chunkApdu_length (card : IfdCard) (algorithm : UInt8) {chunk : List UInt8}
    (rest : List UInt8) (h : chunk.length ≤ 0xFF) :
    (chunkApdu card algorithm chunk rest).length ≤ 260 := by
  rw [chunkApdu, apduBytes_length]
  lia

/-- What the loop returns, when there is room for the reply and when there is not. -/
def ChunksGive (size : Nat) (reply : List UInt8)
    (outcome : Outcome (Option (Option Buffer))) : Prop :=
  (10 + reply.length ≤ size -> exists rapdu, outcome = .done (some (some rapdu)) ∧
    rapdu.Wf ∧ rapdu.contents = reply) ∧
  (size < 10 + reply.length -> outcome = .done none)

theorem yubikeyDecipherChunks_gives {card : IfdCard} {algorithm : UInt8}
    {chunks : List (List UInt8)} {bytes : List UInt8}
    (h : w.AnswersChained port card algorithm chunks bytes)
    (hcut : forall chunk, chunk ∈ chunks.tail -> 1 ≤ chunk.length ∧ chunk.length ≤ 0x100)
    {data : Buffer} (hwf : data.Wf)
    (hcontents : data.contents = bytes) (hne : bytes ≠ []) (previous : Option Buffer)
    {fuel : Nat} (hfuel : bytes.length < fuel) {s : Host σ}
    (hslot : card.slot = port.slot) (hport : s.port port.slot = port)
    (hwire : s.wire = w) :
    ChunksGive (capacity port.maxMessageSize) chunks.flatten
      (yubikeyDecipherChunks card algorithm fuel data previous s).1 := by
  induction h generalizing data previous fuel s with
  | @last w w' bytes hlast hparts =>
      subst hcontents
      have htake : data.contents.take 0xFF = data.contents := List.take_of_length_le hlast
      have hdrop : data.contents.drop 0xFF = [] := List.drop_eq_nil_of_le hlast
      have hpos := List.length_pos_iff.mpr hne
      rcases Nat.exists_eq_add_of_lt (by lia : 1 < fuel) with ⟨more, rfl⟩
      rcases yubikeyDecipherChunks_round card algorithm (1 + more) hwf hne previous s with
        ⟨apdu, rest, hround⟩
      have hapdu := hround.apdu_eq
      rw [htake, hdrop] at hapdu
      rw [← hapdu] at hparts
      rcases ifdCardXfer_answered hround.apdu_wf
        (by rw [hapdu]; exact chunkApdu_length card algorithm [] hlast) hparts hcut hslot
        hport hwire with ⟨outcome, t, hrun, hanswered⟩
      constructor
      · intro hroom
        rcases (hanswered.fits hroom).2 with ⟨reply, rfl, hreplyWf, hreply⟩
        rw [hround.goesOn hrun, Nat.add_comm 1 more,
          yubikeyDecipherChunks_end card algorithm more hround.rest_wf
            (hround.rest_eq.trans hdrop)]
        exact ⟨reply, rfl, hreplyWf, hreply⟩
      · intro hfull
        rw [hanswered.full hfull] at hrun
        rw [hround.stops hrun (by rintro ⟨reply, hreply⟩; cases hreply)]
        rfl
  | @more w w' bytes hmore hanswers hrest ih =>
      subst hcontents
      rcases Nat.exists_eq_add_of_lt (Nat.lt_of_le_of_lt (Nat.zero_le _) hfuel) with
        ⟨fuel, rfl⟩
      rw [Nat.zero_add] at hfuel ⊢
      rcases yubikeyDecipherChunks_round card algorithm fuel hwf hne previous s with
        ⟨apdu, rest, hround⟩
      have hroom := hanswers.fits
      have htake : (data.contents.take 0xFF).length ≤ 0xFF := List.length_take_le _ _
      rw [← hround.apdu_eq] at hanswers
      rcases ifdCardXfer_answered hround.apdu_wf
        (by rw [hround.apdu_eq]; exact chunkApdu_length card algorithm _ htake)
        (.last hanswers) (fun _ hmem => (List.not_mem_nil hmem).elim) hslot hport hwire with
        ⟨outcome, t, hrun, hanswered⟩
      rcases hanswered.fits hroom with ⟨hwire', reply, rfl, _, _⟩
      have hleft : data.contents.drop 0xFF ≠ [] := by
        rw [ne_eq, List.drop_eq_nil_iff]
        lia
      rw [hround.goesOn hrun]
      exact ih hround.rest_wf hround.rest_eq hleft (some reply)
        (by rw [List.length_drop]; lia) hanswered.samePort hwire'

/-!
## Unwrapping
-/

omit [Usbfs σ] in
/-- Looking at bytes that are there is no fault. -/
theorem peek_run {α : Type} {bp : Buffer} (hwf : bp.Wf) {proc : Peek α} {result : α}
    (hvalue : proc.value (fun pos => bp.data.getD pos 0) = result)
    (hreads : forall p, p ∈ proc.reads (fun pos => bp.data.getD pos 0) -> p < bp.wpos)
    (s : Host σ) : Process.peek bp.data proc s = (.done result, s) := by
  have hmem : bp.wpos ≤ bp.data.length := by
    rw [hwf.length_eq]
    exact hwf.wpos_le
  unfold Process.peek
  rw [if_pos, hvalue]
  · rfl
  · rw [List.all_eq_true]
    intro p hp
    rw [decide_eq_true_eq]
    exact Nat.lt_of_lt_of_le (hreads p hp) hmem

/-- The run returned a buffer with these available bytes. -/
def Decrypted (message : List UInt8) (run : Outcome (Option Buffer) × Host σ) : Prop :=
  exists result, run.1 = .done (some result) ∧ result.Wf ∧ result.contents = message

omit [Usbfs σ] in
theorem yubikeyUnwrap_decrypted {rapdu : Buffer} (hwf : rapdu.Wf)
    {padded message : List UInt8} (hreply : DecipherResponse rapdu.contents padded)
    (hpadded : Pkcs1Type2 padded message) (hshort : message.length ≤ 2 ^ 32 - 32)
    (s : Host σ) : Decrypted message (yubikeyUnwrap rapdu s) := by
  have hmem := memoryShows_data hwf
  rcases (yubikeyDecodeDecipherResp_contents_iff hwf hmem padded).mpr hreply with
    ⟨first, hfirst, hfirstContents⟩
  have hskip := onlySkipped_of_decode hwf hmem hfirst
  have hfirstWf := hskip.wf hwf
  have hfirstMem := memoryShows_data hfirstWf
  rw [← hfirstContents] at hpadded
  rcases (pkcs1Type2PaddingRemove_contents_iff hfirstWf hfirstMem message).mpr hpadded with
    ⟨cleartext, hcleartext, hmessage⟩
  have hclearWf : cleartext.Wf := by
    rcases (pkcs1Type2PaddingRemove_eq_true_iff hfirstWf hfirstMem).mp hcleartext with
      ⟨found, _, rfl⟩
    exact bufferSkip_wf hfirstWf (Nat.sub_le _ _)
  have hdump : hexdump (bufferReadPointer cleartext) (bufferAvailable cleartext) =
      .done () := by
    have hthere := contents_length_le hclearWf
    rw [bufferAvailable_eq hclearWf, hexdump_eq hclearWf.contents_lt, if_pos hthere,
      if_pos (by rw [hmessage]; exact hshort)]
  rw [yubikeyUnwrap, Process.bind_done (peek_run hwf hfirst
    (fun _ hp => yubikeyDecodeDecipherResp_reads hwf hfirst hp) s)]
  rw [if_pos rfl]
  dsimp only
  rw [Process.bind_done (peek_run hfirstWf hcleartext
    (fun _ hp => pkcs1Type2PaddingRemove_reads hfirstWf hcleartext hp) s), if_pos rfl]
  dsimp only
  have hrun : exists t, dump (bufferReadPointer cleartext) (bufferAvailable cleartext) s =
      (.done (), t) := by
    rw [dump, hdump]
    exact ⟨_, rfl⟩
  rcases hrun with ⟨t, hrun⟩
  rw [Process.bind_done hrun]
  exact ⟨cleartext, rfl, hclearWf, hmessage⟩

/-!
## The whole way
-/

/-- The card decrypts: it answers the chained arguments, and the reply, cut into
chunks, wraps the padded message. -/
structure CardDecrypts (card : IfdCard) (ciphertext : Buffer) (s : Host σ)
    (padding message reply : List UInt8) (chunks : List (List UInt8)) : Prop where
  wf : ciphertext.Wf
  key : ciphertext.contents.length = 128 ∨ ciphertext.contents.length = 256
  length_eq : 3 + padding.length + message.length = ciphertext.contents.length
  padding_long : 8 ≤ padding.length
  padding_nonzero : (0 : UInt8) ∉ padding
  wraps : DecipherResponse reply (0x00 :: 0x02 :: (padding ++ 0x00 :: message))
  flatten_eq : chunks.flatten = reply
  cut : forall chunk, chunk ∈ chunks -> 1 ≤ chunk.length ∧ chunk.length ≤ 0x100
  answers : forall algorithm,
    yubikeyAlgorithm ciphertext.contents.length = some algorithm ->
      s.wire.AnswersChained (s.port card.slot) card algorithm chunks
        (decipherArgsBytes ciphertext.contents)

section

variable {card : IfdCard} {ciphertext : Buffer} {s : Host σ}
  {padding message reply : List UInt8} {chunks : List (List UInt8)}

/-- The message comes back when there is room for the reply, and nothing does when
there is not. -/
theorem CardDecrypts.runs (h : CardDecrypts card ciphertext s padding message reply chunks) :
    (10 + reply.length ≤ capacity s.reader.maxMessageSize ->
      Decrypted message (yubikeyDecipher card ciphertext s)) ∧
    (capacity s.reader.maxMessageSize < 10 + reply.length ->
      (yubikeyDecipher card ciphertext s).1 = .done none) := by
  have hkey := h.key
  have halgorithm : exists algorithm,
      yubikeyAlgorithm ciphertext.contents.length = some algorithm := by
    unfold yubikeyAlgorithm
    cases hkey with
    | inl h128 => exact ⟨_, if_pos h128⟩
    | inr h256 => exact ⟨ykpivAlgoRsa2048, by rw [h256]; rfl⟩
  rcases halgorithm with ⟨algorithm, halgorithm⟩
  rcases whenDebug2_dump_command h.wf s with ⟨dumps, hdump⟩
  rw [if_pos (Or.inr (by lia))] at hdump
  rcases yubikeyEncodeDecipherArgs_eq (by lia : ciphertext.contents.length ≤ 992) with
    ⟨data, hdata, hdataWf, hcontents⟩
  have hgives := yubikeyDecipherChunks_gives (h.answers algorithm halgorithm)
    (fun chunk hmem => h.cut chunk (List.mem_of_mem_tail hmem)) hdataWf hcontents
    (List.cons_ne_nil _ _) none (Nat.lt_succ_self _)
    (s := { s with dumps := dumps }) rfl rfl rfl
  rw [h.flatten_eq] at hgives
  have hshort : message.length ≤ 2 ^ 32 - 32 := by
    have hlength := h.length_eq
    lia
  have hrun : yubikeyDecipher card ciphertext s =
      yubikeyDecipherArgs card algorithm (some data) { s with dumps := dumps } := by
    have htake := bufferReadPointer_take_all h.wf
    rw [bufferAvailable_eq h.wf] at htake
    rw [yubikeyDecipher, Process.bind_done hdump]
    simp only [bufferAvailable_eq h.wf, halgorithm, htake, hdata]
    rfl
  rw [hrun, yubikeyDecipherArgs]
  rw [bufferAvailable_eq hdataWf, hcontents]
  rcases hsent : yubikeyDecipherChunks card algorithm
    ((decipherArgsBytes ciphertext.contents).length + 1) data none
    { s with dumps := dumps } with ⟨outcome, t⟩
  rw [hsent] at hgives
  constructor
  · intro hroom
    rcases hgives.1 hroom with ⟨rapdu, rfl, hwf, hbytes⟩
    rw [Process.bind_done hsent]
    refine yubikeyUnwrap_decrypted hwf ?_ ⟨padding, h.padding_nonzero, rfl⟩ hshort t
    rw [hbytes]
    exact h.wraps
  · intro hfull
    have houtcome := hgives.2 hfull
    dsimp only at houtcome
    rw [houtcome] at hsent
    rw [Process.bind_done hsent]
    rfl

/-- A card that decrypts is enough exactly when its whole reply fits behind a header
in a receive buffer. -/
theorem yubikeyDecipher_decrypts_iff
    (h : CardDecrypts card ciphertext s padding message reply chunks) :
    Decrypted message (yubikeyDecipher card ciphertext s) ↔
      10 + reply.length ≤ capacity s.reader.maxMessageSize := by
  constructor
  · rintro ⟨result, hresult, _, _⟩
    by_contra hfull
    rw [h.runs.2 (by lia)] at hresult
    cases hresult
  · exact h.runs.1

end

end

/-!
## A card that follows a script
-/

/-- The answers of a device that delivers the chunks. -/
def scriptParts : List (List UInt8) -> List ScriptAnswer
  | [] => []
  | [chunk] => [.response ccidRespData (lastPart chunk).bytes]
  | chunk :: next :: rest =>
      .response ccidRespData (morePart chunk next).bytes :: scriptParts (next :: rest)

/-- A response with anything behind it. -/
theorem ccidReplies_packet (slot seq type : UInt8) {payload : List UInt8}
    (h : payload.length < 2 ^ 32) (trailing : List UInt8) :
    CcidReplies slot seq type 0 payload
      (ccidPacket type slot seq {} payload ++ trailing) := by
  have hat : forall {i : Nat}, i < 10 ->
      (ccidPacket type slot seq {} payload ++ trailing).getD i 0 =
        (ccidPacket type slot seq {} payload).getD i 0 := by
    intro i hi
    apply List.getD_append
    rw [ccidPacket_length]
    lia
  refine ⟨ccidWellFormed_packet type slot seq {} payload trailing h, ?_, ?_, ?_, ?_,
    ccidPayload_packet _ _ _ _ trailing h⟩
  · rw [hat (by decide), ccidPacket_slot]
  · rw [hat (by decide), ccidPacket_seq]
  · rw [hat (by decide), ccidPacket_type]
  · rw [hat (by decide), ccidPacket_ctl1]

theorem ccidAnswers_packet (slot seq : UInt8) {payload : List UInt8}
    (h : payload.length < 2 ^ 32) (trailing : List UInt8) :
    CcidAnswers slot seq payload
      (ccidPacket ccidRespData slot seq {} payload ++ trailing) := by
  have hreplies := ccidReplies_packet slot seq ccidRespData h trailing
  exact ⟨hreplies.whole, hreplies.slot, hreplies.seq, hreplies.type,
    by rw [hreplies.status]; rfl, hreplies.payload⟩

/-- A response to the last command comes whole, with the rest of the room filled. -/
theorem script_received (dev : UusbDev) {maxlen : Nat} {usb : Script} {type : UInt8}
    {payload : List UInt8} {rest : List ScriptAnswer}
    (h : usb.answers = .response type payload :: rest)
    (hroom : 10 + payload.length ≤ capacity maxlen) (hsmall : capacity maxlen < 2 ^ 31) :
    uusbRecvBulk dev maxlen usb =
      (some (ccidPacket type usb.command.1 usb.command.2 {} payload ++
        List.replicate (capacity maxlen - (10 + payload.length)) 0xAA),
        { usb with answers := rest }) := by
  simp only [uusbRecvBulk, Usbfs.bulkIn, bufferTailroom_recvPacket, Script.deliver, h,
    Script.packet, ccidPacket_length, if_pos hroom, Option.filter_some,
    uusbBulkOkay_of_lt hsmall, if_true, Option.map_some, uusbRecvBytes]

theorem script_answers (port : Port) (w : Wire Script) (apdu : List UInt8)
    {p : ReplyApdu} {rest : List ScriptAnswer}
    (h : w.usb.answers = .response ccidRespData p.bytes :: rest)
    (hshort : p.body.length ≤ 0x100)
    (hroom : 12 + p.body.length ≤ capacity port.maxMessageSize)
    (hsmall : capacity port.maxMessageSize < 2 ^ 31) :
    exists w', w.Answers port apdu p w' ∧ w'.usb.answers = rest := by
  have hlength := p.bytes_length
  refine ⟨⟨{ command := (UInt8.ofNat port.slot, UInt8.ofNat w.seq), answers := rest },
    (UInt8.ofNat w.seq).toNat + 1⟩, ⟨⟨{ w.usb with
      command := (UInt8.ofNat port.slot, UInt8.ofNat w.seq) }, ?_, ?_⟩, rfl⟩, rfl⟩
  · simp [Usbfs.bulkOut, ccidPacket, leBytes]
  · refine Delivers.answer ?_ (ccidAnswers_packet _ _ (by lia : p.bytes.length < 2 ^ 32)
      (List.replicate (capacity port.maxMessageSize - (10 + p.bytes.length)) 0xAA))
    exact script_received port.dev h (by lia) hsmall

theorem script_answersParts (port : Port) {chunks : List (List UInt8)}
    (hne : chunks ≠ [])
    (hcut : forall chunk, chunk ∈ chunks -> chunk.length ≤ 0x100)
    (hroom : forall chunk, chunk ∈ chunks ->
      12 + chunk.length ≤ capacity port.maxMessageSize)
    (hsmall : capacity port.maxMessageSize < 2 ^ 31)
    (w : Wire Script) (apdu : List UInt8)
    (h : w.usb.answers = scriptParts chunks) :
    exists w', w.AnswersParts port apdu chunks w' := by
  induction chunks generalizing w apdu with
  | nil => exact absurd rfl hne
  | cons chunk more ih =>
      cases more with
      | nil =>
          rcases script_answers port w apdu (p := lastPart chunk) h
            (hcut chunk List.mem_cons_self) (hroom chunk List.mem_cons_self) hsmall with
            ⟨w', hanswers, _⟩
          exact ⟨w', .last hanswers⟩
      | cons next more =>
          rcases script_answers port w apdu (p := morePart chunk next) h
            (hcut chunk List.mem_cons_self) (hroom chunk List.mem_cons_self) hsmall with
            ⟨mid, hanswers, hrest⟩
          rcases ih (List.cons_ne_nil _ _)
            (fun other hmem => hcut other (List.mem_cons_of_mem _ hmem))
            (fun other hmem => hroom other (List.mem_cons_of_mem _ hmem)) mid
            (getResponseApdu (morePart chunk next)) hrest with ⟨w', hparts⟩
          exact ⟨w', .more hanswers hparts⟩

/-- The reply for a padded message, with shortest length fields. -/
def decipherReply (padding message : List UInt8) : List UInt8 :=
  let padded := 0x00 :: 0x02 :: (padding ++ 0x00 :: message)
  let value := 0x82 :: (lengthBytes padded.length ++ padded)
  0x7c :: (lengthBytes value.length ++ value)

theorem decipherReply_wraps {padding message : List UInt8}
    (h : padding.length + message.length < 0x1000) :
    DecipherResponse (decipherReply padding message)
      (0x00 :: 0x02 :: (padding ++ 0x00 :: message)) := by
  have hinner := lengthBytes_length_le
    (0x00 :: 0x02 :: (padding ++ 0x00 :: message)).length
  refine ⟨_, _, _, _, (lengthBytes_shortest ?_).1.encoding,
    (lengthBytes_shortest ?_).1.encoding, rfl⟩
  · simp only [List.length_cons, List.length_append] at hinner ⊢
    lia
  · simp only [List.length_cons, List.length_append]
    lia

/-- A padded message of `k` bytes. -/
def somePadding (k : Nat) : List UInt8 :=
  List.replicate (k - 5) 0xAA

def someMessage : List UInt8 :=
  [0x48, 0x69]

def someReply (k : Nat) : List UInt8 :=
  decipherReply (somePadding k) someMessage

theorem someReply_length :
    (someReply 128).length = 134 ∧ (someReply 256).length = 264 := by decide +kernel

def someCiphertext (k : Nat) : Buffer :=
  bufferInitRead (List.replicate k 0x55)

/-- A device that answers each chunk, and then delivers the reply, has a card that
decrypts. -/
theorem cardDecrypts_script (card : IfdCard) {s : Host Script} {acks k : Nat}
    {chunks : List (List UInt8)} (hk : k = 128 ∧ acks = 0 ∨ k = 256 ∧ acks = 1)
    (hflatten : chunks.flatten = someReply k)
    (hcut : forall chunk, chunk ∈ chunks -> 1 ≤ chunk.length ∧ chunk.length ≤ 0x100)
    (hroom : 0x10c ≤ capacity s.reader.maxMessageSize)
    (hsmall : capacity s.reader.maxMessageSize < 2 ^ 31)
    (h : s.usb.answers = List.replicate acks (.response ccidRespData (lastPart []).bytes) ++
      scriptParts chunks) :
    CardDecrypts card (someCiphertext k) s (somePadding k) someMessage (someReply k)
      chunks := by
  have hcontents : (someCiphertext k).contents = List.replicate k 0x55 :=
    bufferInitRead_contents (by rw [List.length_replicate]; lia)
  have hpadding : (somePadding k).length = k - 5 := List.length_replicate
  have hlength : (List.replicate k (0x55 : UInt8)).length = k := List.length_replicate
  have hne : chunks ≠ [] := by
    rintro rfl
    cases hflatten
  constructor
  · exact bufferInitRead_wf (by rw [List.length_replicate]; lia)
  · rw [hcontents, hlength]
    lia
  · rw [hcontents, hlength, hpadding]
    change 3 + (k - 5) + 2 = k
    lia
  · lia
  · intro hmem
    exact absurd (List.eq_of_mem_replicate hmem) (by decide)
  · exact decipherReply_wraps (by rw [hpadding]; change k - 5 + 2 < _; lia)
  · exact hflatten
  · exact hcut
  · intro algorithm _
    rw [hcontents]
    have hupper := decipherArgsBytes_length_le (List.replicate k 0x55)
    have hlower := length_lt_decipherArgsBytes (List.replicate k 0x55)
    rw [hlength] at hupper hlower
    have hparts := script_answersParts (s.port card.slot) hne
      (fun chunk hmem => (hcut chunk hmem).2) (fun chunk hmem => by
        have hle := (hcut chunk hmem).2
        change 12 + chunk.length ≤ capacity s.reader.maxMessageSize
        lia) hsmall
    rcases hk with ⟨rfl, rfl⟩ | ⟨rfl, rfl⟩
    · rcases hparts s.wire _ h with ⟨w', hparts⟩
      exact .last (by lia) hparts
    · rcases script_answers (s.port card.slot) s.wire _ (p := lastPart []) h
        (Nat.zero_le _) (by change 12 + 0 ≤ capacity s.reader.maxMessageSize; lia)
        hsmall with ⟨mid, hack, hrest⟩
      rcases hparts mid _ hrest with ⟨w', hparts⟩
      refine .more (by lia) hack (.last ?_ hparts)
      rw [List.length_drop]
      lia

/-- A card that sends so many bytes of its reply first, and then the others. -/
def decryptHost (maxMessageSize acks k cut : Nat) : Host Script where
  usb := { answers :=
    List.replicate acks (.response ccidRespData (lastPart []).bytes) ++
      scriptParts [(someReply k).take cut, (someReply k).drop cut] }
  reader := { maxMessageSize := maxMessageSize }

theorem cardDecrypts_some {maxMessageSize acks k cut : Nat}
    (hk : k = 128 ∧ acks = 0 ∨ k = 256 ∧ acks = 1)
    (hcut : 1 ≤ cut ∧ cut ≤ 0x100 ∧ cut < (someReply k).length)
    (hrest : (someReply k).length ≤ cut + 0x100)
    (hroom : 0x10c ≤ capacity maxMessageSize)
    (hsmall : capacity maxMessageSize < 2 ^ 31) :
    CardDecrypts anyCard (someCiphertext k) (decryptHost maxMessageSize acks k cut)
      (somePadding k) someMessage (someReply k)
      [(someReply k).take cut, (someReply k).drop cut] := by
  refine cardDecrypts_script anyCard hk ?_ ?_ hroom hsmall rfl
  · simp only [List.flatten_cons, List.flatten_nil, List.append_nil, List.take_append_drop]
  · intro chunk hmem
    rcases List.mem_pair.mp hmem with rfl | rfl
    · rw [List.length_take]
      lia
    · rw [List.length_drop]
      lia

theorem yubikeyDecipher_decrypts_twoParts :
    Decrypted someMessage
      (yubikeyDecipher anyCard (someCiphertext 128) (decryptHost 268 0 128 100)) :=
  (yubikeyDecipher_decrypts_iff (cardDecrypts_some (.inl ⟨rfl, rfl⟩)
    (by rw [someReply_length.1]; decide) (by rw [someReply_length.1]; decide)
    (by decide) (by decide))).mpr (by rw [someReply_length.1]; decide)

/-- A reply in two parts, in messages of at most 270 bytes, on a reader with a
largest message of 272 bytes. -/
theorem not_decrypted_smallBuffer :
    ¬ forall (card : IfdCard) (ciphertext : Buffer) (s : Host Script)
      (padding message reply : List UInt8) (chunks : List (List UInt8)),
      CardDecrypts card ciphertext s padding message reply chunks ->
      ccidHdrSize + 5 + 0xFF ≤ s.reader.maxMessageSize ->
      ccidHdrSize + 0x100 + 2 ≤ s.reader.maxMessageSize ->
      Decrypted message (yubikeyDecipher card ciphertext s) := by
  intro hclaim
  have hsome : CardDecrypts anyCard (someCiphertext 256) (decryptHost 272 1 256 256)
      (somePadding 256) someMessage (someReply 256)
      [(someReply 256).take 256, (someReply 256).drop 256] :=
    cardDecrypts_some (.inr ⟨rfl, rfl⟩) (by rw [someReply_length.2]; decide)
      (by rw [someReply_length.2]; decide) (by decide) (by decide)
  have hfull : capacity (decryptHost 272 1 256 256).reader.maxMessageSize <
      10 + (someReply 256).length := by
    rw [someReply_length.2]
    decide
  rcases hclaim _ _ _ _ _ _ _ hsome (by decide) (by decide) with ⟨result, hresult, _⟩
  rw [hsome.runs.2 hfull] at hresult
  cases hresult

end UtokenDecrypt
