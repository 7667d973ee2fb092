import Mathlib.Data.List.Chain
import UtokenDecrypt.Card.Transfer
import UtokenDecrypt.Usb.Script

/-!
# Putting a response together

A card that has more to say than fits into one response ends it with the status
word `61xx`, and `ifd_card_xfer` asks for the rest.  The main result says
what it then returns, in terms of the replies it got, and which APDUs it
sends.

The measure of the loop is the room left in the first response: every further
round that is accepted takes at least one byte of it.
-/

namespace UtokenDecrypt

open Foundation

/-- A response APDU: its data and its status word. -/
structure ReplyApdu where
  body : List UInt8
  sw1 : UInt8
  sw2 : UInt8
deriving DecidableEq

namespace ReplyApdu

def bytes (p : ReplyApdu) : List UInt8 :=
  p.body ++ [p.sw1, p.sw2]

def sw (p : ReplyApdu) : Nat :=
  p.sw1.toNat * 256 + p.sw2.toNat

/-- How many bytes of data the status word `61xx` announces. -/
def advertised (p : ReplyApdu) : Nat :=
  if p.sw2 = 0 then 0x100 else p.sw2.toNat

theorem bytes_length (p : ReplyApdu) : p.bytes.length = p.body.length + 2 := by
  simp [bytes]

theorem bytes_injective {p q : ReplyApdu} (h : p.bytes = q.bytes) : p = q := by
  have hparts := List.append_inj' h rfl
  cases p
  cases q
  simp_all

theorem exists_of_length {reply : List UInt8} (h : 2 ≤ reply.length) :
    exists p : ReplyApdu, reply = p.bytes := by
  have hlast : (reply.drop (reply.length - 2)).length = 2 := by
    rw [List.length_drop]
    lia
  rcases List.length_eq_two.mp hlast with ⟨sw1, sw2, hsw⟩
  refine ⟨{ body := reply.take (reply.length - 2), sw1 := sw1, sw2 := sw2 }, ?_⟩
  rw [bytes, ← hsw, List.take_append_drop]

theorem advertised_pos (p : ReplyApdu) : 0 < p.advertised := by
  unfold advertised
  split
  · exact Nat.succ_pos _
  · rename_i hsw2
    apply Nat.pos_of_ne_zero
    intro hzero
    exact hsw2 (UInt8.toNat_inj.mp hzero)

end ReplyApdu

/-!
## Status words
-/

section

variable (sw1 sw2 : UInt8)

theorem statusWord_eq : statusWord sw1 sw2 = sw1.toNat * 256 + sw2.toNat :=
  shiftLeft_or_byte _ _

theorem statusWord_more_iff :
    statusWord sw1 sw2 &&& 0xFF00 = 0x6100 ↔ sw1 = 0x61 := by
  have hhigh : forall high : Fin 256,
      (high.val <<< 8) &&& 0xFF00 = high.val <<< 8 := by decide +kernel
  have hlow : forall low : Fin 256, low.val &&& 0xFF00 = 0 := by decide +kernel
  have hmask : statusWord sw1 sw2 &&& 0xFF00 = sw1.toNat <<< 8 := by
    rw [statusWord, Nat.and_or_distrib_right]
    have h1 := hhigh ⟨sw1.toNat, sw1.toNat_lt⟩
    have h2 := hlow ⟨sw2.toNat, sw2.toNat_lt⟩
    simp only at h1 h2
    rw [h1, h2, Nat.or_zero]
  rw [hmask, Nat.shiftLeft_eq, ← UInt8.toNat_inj]
  change sw1.toNat * 256 = 24832 ↔ sw1.toNat = 97
  lia

theorem statusWord_low : UInt8.ofNat (statusWord sw1 sw2 &&& 0xFF) = sw2 := by
  apply UInt8.toNat_inj.mp
  have hmod := Nat.and_two_pow_sub_one_eq_mod (statusWord sw1 sw2) 8
  have hlt := sw2.toNat_lt
  rw [statusWord_eq] at hmod
  rw [UInt8.toNat_ofNat', statusWord_eq]
  change ((sw1.toNat * 256 + sw2.toNat) &&& (2 ^ 8 - 1)) % 256 = _
  rw [hmod]
  lia

end

/-!
## The shape of an exchange
-/

/-- The parts belong together: all but the last announce how much the next one
has, and all of them fit behind the header of a receive buffer. -/
structure Joined (size : Nat) (parts : List ReplyApdu) : Prop where
  chain : parts.IsChain fun p q => p.sw1 = 0x61 ∧ q.body.length = p.advertised
  fits : 10 + (parts.flatMap ReplyApdu.body).length ≤ size

def getResponseApdu (p : ReplyApdu) : List UInt8 :=
  [0x00, ifdInsGetResponseApdu, 0x00, 0x00, p.sw2]

theorem getResponseApdu_length (p : ReplyApdu) : (getResponseApdu p).length = 5 := rfl

/-- An APDU that was sent, and the reply. -/
structure ApduCall where
  apdu : List UInt8
  reply : Outcome (Option (List UInt8))

/-- The bytes of a call of `ccid_reader_apdu_xfer`. -/
def ApduCall.of (call : Buffer × Outcome (Option Buffer)) : ApduCall where
  apdu := call.1.contents
  reply := call.2.map (Option.map Buffer.contents)

/-- The bytes and the status word of what `ifd_card_xfer` returns. -/
def cardResult (outcome : Outcome (Option (Buffer × Nat))) :
    Outcome (Option (List UInt8 × Nat)) :=
  outcome.map (Option.map fun result => (result.1.contents, result.2))

/-- How the last reply ends an exchange that has received `parts` before. -/
inductive CardEnd (size : Nat) (parts : List ReplyApdu) :
    Outcome (Option (List UInt8)) -> Outcome (Option (List UInt8 × Nat)) -> Prop where
  | finished {p : ReplyApdu} (hjoined : Joined size (parts ++ [p]))
      (hlast : p.sw1 ≠ 0x61) :
      CardEnd size parts (.done (some p.bytes))
        (.done (some ((parts ++ [p]).flatMap ReplyApdu.body, p.sw)))
  | refused {reply : Option (List UInt8)}
      (h : forall p : ReplyApdu, reply = some p.bytes ->
        ¬ Joined size (parts ++ [p])) :
      CardEnd size parts (.done reply) (.done none)
  | crashed : CardEnd size parts .crash .crash
  | hung : CardEnd size parts .hang .hang

/-- An exchange with a card that starts with the APDU `first`, when `prior`
has been received: it goes on as long as replies are accepted that announce
more. -/
structure CardExchange (size : Nat) (prior : List ReplyApdu) (first : List UInt8)
    (calls : List ApduCall) (outcome : Outcome (Option (List UInt8 × Nat)))
    (reached : List ReplyApdu) (last : Outcome (Option (List UInt8))) : Prop where
  apdus : calls.map ApduCall.apdu = first :: reached.map getResponseApdu
  replies : calls.map ApduCall.reply =
    (reached.map fun p => Outcome.done (some p.bytes)) ++ [last]
  more : forall p, p ∈ reached -> p.sw1 = 0x61
  joined : reached ≠ [] -> Joined size (prior ++ reached)
  ends : CardEnd size (prior ++ reached) last outcome

section

variable {size : Nat} {prior : List ReplyApdu} {first : List UInt8}
  {outcome : Outcome (Option (List UInt8 × Nat))}

theorem CardExchange.single {last : Outcome (Option (List UInt8))}
    (h : CardEnd size prior last outcome) :
    CardExchange size prior first [{ apdu := first, reply := last }] outcome []
      last where
  apdus := rfl
  replies := rfl
  more := by
    intro p hmem
    cases hmem
  joined := fun hne => absurd rfl hne
  ends := by
    rw [List.append_nil]
    exact h

theorem CardExchange.cons (first : List UInt8) {p : ReplyApdu} {calls : List ApduCall}
    {reached : List ReplyApdu} {last : Outcome (Option (List UInt8))}
    (hmore : p.sw1 = 0x61) (hjoined : Joined size (prior ++ [p]))
    (h : CardExchange size (prior ++ [p]) (getResponseApdu p) calls outcome reached
      last) :
    CardExchange size prior first
      ({ apdu := first, reply := .done (some p.bytes) } :: calls) outcome
      (p :: reached) last where
  apdus := by rw [List.map_cons, h.apdus, List.map_cons]
  replies := by rw [List.map_cons, h.replies, List.map_cons, List.cons_append]
  more := by
    intro q hmem
    cases List.mem_cons.mp hmem with
    | inl heq =>
        rw [heq]
        exact hmore
    | inr hrest => exact h.more q hrest
  joined := by
    intro _
    rw [List.append_cons]
    cases reached with
    | nil => simpa using hjoined
    | cons q rest => exact h.joined (List.cons_ne_nil q rest)
  ends := by simpa using h.ends

end

/-!
## One APDU of an exchange
-/

section

variable {size : Nat}

/-- What `ifd_card_apdu` makes of a reply. -/
inductive CardApdu (size : Nat) :
    Outcome (Option Buffer) -> Outcome (Option (Buffer × Nat)) -> Prop where
  | lost : CardApdu size (.done none) (.done none)
  | short {rapdu : Buffer} (h : rapdu.contents.length < 2) :
      CardApdu size (.done (some rapdu)) (.done none)
  | received {rapdu body : Buffer} {p : ReplyApdu} (hbytes : rapdu.contents = p.bytes)
      (hreply : IsReply size body) (hbody : body.contents = p.body) :
      CardApdu size (.done (some rapdu)) (.done (some (body, p.sw)))
  | crashed : CardApdu size .crash .crash
  | hung : CardApdu size .hang .hang

/-- The status word is taken off the end of a reply. -/
theorem cardApdu_of_reply {rapdu : Buffer} (h : IsReply size rapdu) :
    CardApdu size (.done (some rapdu)) (.done
      (if bufferAvailable rapdu < 2 then none
        else some ({ rapdu with wpos := rapdu.wpos - 2 },
          statusWord (rapdu.data.getD (rapdu.wpos - 2) 0)
            (rapdu.data.getD (rapdu.wpos - 1) 0)))) := by
  rw [bufferAvailable_eq h.wf]
  split
  · rename_i hshort
    exact CardApdu.short hshort
  · rename_i hlong
    rcases ReplyApdu.exists_of_length (by lia : 2 ≤ rapdu.contents.length) with
      ⟨p, hbytes⟩
    have hlen := p.bytes_length
    rw [← hbytes] at hlen
    have hwpos := h.wpos_eq
    have hrpos := h.rpos_eq
    have hback : rapdu.wpos - 2 = rapdu.rpos + p.body.length := by lia
    have hle : rapdu.rpos + p.body.length ≤ rapdu.wpos := by lia
    have hbody := contents_of_shorter rapdu hle
    have hwf := wf_of_shorter h.wf hle
    -- the two bytes behind the body, found in the memory and in the reply
    have hsplit : slice rapdu.data (rapdu.rpos + p.body.length) rapdu.wpos =
        [p.sw1, p.sw2] := by
      have hdrop := drop_slice rapdu.data rapdu.rpos rapdu.wpos p.body.length
      rw [← Buffer.contents, hbytes, ReplyApdu.bytes, List.drop_left] at hdrop
      exact hdrop.symm
    have hmem : rapdu.wpos ≤ rapdu.data.length := by
      rw [h.wf.length_eq]
      exact h.wf.wpos_le
    have hget : forall i, i < 2 ->
        rapdu.data.getD (rapdu.rpos + p.body.length + i) 0 =
          [p.sw1, p.sw2].getD i 0 := by
      intro i hi
      rw [← hsplit, slice, List.getD_eq_getElem?_getD, List.getD_eq_getElem?_getD,
        List.getElem?_take_of_lt (by lia), List.getElem?_drop]
    have hsw1 := hget 0 (by lia)
    have hsw2 := hget 1 (by lia)
    have hlast : rapdu.wpos - 1 = rapdu.rpos + p.body.length + 1 := by lia
    rw [Nat.add_zero] at hsw1
    rw [hback, hlast, hsw1, hsw2]
    have hsw : statusWord ([p.sw1, p.sw2].getD 0 0) ([p.sw1, p.sw2].getD 1 0) =
        p.sw := statusWord_eq _ _
    rw [hsw]
    refine CardApdu.received hbytes ⟨hwf, h.size_eq, h.rpos_eq, h.small⟩ ?_
    rw [hbody, hbytes, ReplyApdu.bytes, List.take_left]

variable {σ : Type} [Usbfs σ]

omit [Usbfs σ] in
/-- The APDU of a call is a proper buffer, and its reply is in a receive
buffer. -/
structure ProperCall (size : Nat) (call : Buffer × Outcome (Option Buffer)) :
    Prop where
  apdu : call.1.Wf
  reply : forall rapdu, call.2 = .done (some rapdu) -> IsReply size rapdu

theorem ifdCardApdu_cases (card : IfdCard) {apdu : Buffer} (h : apdu.Wf)
    (s : Host σ) :
    exists reply outcome t,
      ccidReaderApduXfer card.slot apdu s = (reply, t) ∧
      ifdCardApdu card (some apdu) s = (outcome, t) ∧
      ProperCall (capacity s.reader.maxMessageSize) (apdu, reply) ∧
      CardApdu (capacity s.reader.maxMessageSize) reply outcome ∧
      s.SameReader t := by
  have hxfer := ccidReaderApduXfer_ensures card.slot h s
  unfold Process.Ensures at hxfer
  rcases hrun : ccidReaderApduXfer card.slot apdu s with ⟨reply, t⟩
  rw [hrun] at hxfer
  have hsame := hxfer.sameReader
  have hproper : ProperCall (capacity s.reader.maxMessageSize) (apdu, reply) :=
    ⟨h, fun rapdu hreply => hxfer.isReply hreply⟩
  cases reply with
  | crash =>
      refine ⟨_, .crash, t, rfl, ?_, hproper, CardApdu.crashed, hsame⟩
      rw [ifdCardApdu, Process.bind_apply, hrun]
  | hang =>
      refine ⟨_, .hang, t, rfl, ?_, hproper, CardApdu.hung, hsame⟩
      rw [ifdCardApdu, Process.bind_apply, hrun]
  | done rapdu =>
      cases rapdu with
      | none =>
          refine ⟨_, .done none, t, rfl, ?_, hproper, CardApdu.lost, hsame⟩
          rw [ifdCardApdu, Process.bind_done hrun]
          rfl
      | some rapdu =>
          refine ⟨_, _, t, rfl, ?_, hproper,
            cardApdu_of_reply (hxfer.isReply rfl), hsame⟩
          rw [ifdCardApdu, Process.bind_done hrun]
          simp only
          split <;> rfl

/-!
## The loop
-/

omit [Usbfs σ] in
theorem joined_snoc_iff {front : List ReplyApdu} {p q : ReplyApdu}
    (hmore : p.sw1 = 0x61) (h : Joined size (front ++ [p])) :
    Joined size (front ++ [p] ++ [q]) ↔
      q.body.length = p.advertised ∧
        10 + ((front ++ [p]).flatMap ReplyApdu.body).length + q.body.length ≤ size := by
  have hlen : ((front ++ [p] ++ [q]).flatMap ReplyApdu.body).length =
      ((front ++ [p]).flatMap ReplyApdu.body).length + q.body.length := by
    rw [List.flatMap_append, List.length_append]
    simp
  constructor
  · intro hjoined
    have hlast := (List.isChain_append.mp hjoined.chain).2.2 p (by simp) q (by simp)
    have hfits := hjoined.fits
    exact ⟨hlast.2, by lia⟩
  · intro hboth
    constructor
    · refine List.isChain_append.mpr ⟨h.chain, List.isChain_singleton q, ?_⟩
      intro x hx y hy
      rw [List.getLast?_concat, Option.mem_some_iff] at hx
      rw [List.head?_cons, Option.mem_some_iff] at hy
      subst hx
      subst hy
      exact ⟨hmore, hboth.1⟩
    · lia

/-- A run that makes the calls of an exchange. -/
structure CardRuns (slot size : Nat) (prior : List ReplyApdu) (first : List UInt8)
    (s : Host σ) (run : Outcome (Option (Buffer × Nat)) × Host σ) : Prop where
  exchange : exists calls reached last,
    Process.Calls (ccidReaderApduXfer slot) s calls run.2 ∧
      (forall call, call ∈ calls -> ProperCall size call) ∧
      CardExchange size prior first (calls.map ApduCall.of) (cardResult run.1)
        reached last
  sameReader : s.SameReader run.2
  isReply : forall body sw, run.1 = .done (some (body, sw)) -> IsReply size body

theorem CardRuns.single {slot : Nat} {prior : List ReplyApdu} {apdu : Buffer}
    {s t : Host σ} {reply : Outcome (Option Buffer)}
    {outcome : Outcome (Option (Buffer × Nat))}
    (hcall : ccidReaderApduXfer slot apdu s = (reply, t))
    (hproper : ProperCall size (apdu, reply)) (hsame : s.SameReader t)
    (hends : CardEnd size prior (reply.map (Option.map Buffer.contents))
      (cardResult outcome))
    (hreply : forall body sw, outcome = .done (some (body, sw)) -> IsReply size body) :
    CardRuns slot size prior apdu.contents s (outcome, t) := by
  refine ⟨⟨_, _, _, Process.Calls.single hcall, ?_, CardExchange.single hends⟩,
    hsame, hreply⟩
  intro call hmem
  rw [List.mem_singleton.mp hmem]
  exact hproper

theorem CardRuns.cons {slot : Nat} {prior : List ReplyApdu} {apdu rapdu : Buffer}
    {p : ReplyApdu} {s t : Host σ} {run : Outcome (Option (Buffer × Nat)) × Host σ}
    (hcall : ccidReaderApduXfer slot apdu s = (.done (some rapdu), t))
    (hproper : ProperCall size (apdu, .done (some rapdu)))
    (hsame : s.SameReader t) (hbytes : rapdu.contents = p.bytes)
    (hmore : p.sw1 = 0x61) (hjoined : Joined size (prior ++ [p]))
    (h : CardRuns slot size (prior ++ [p]) (getResponseApdu p) t run) :
    CardRuns slot size prior apdu.contents s run := by
  rcases h.exchange with ⟨calls, reached, last, hcalls, hall, hexchange⟩
  refine ⟨⟨_, p :: reached, last, Process.Calls.returned hcall hcalls, ?_, ?_⟩,
    hsame.trans h.sameReader, h.isReply⟩
  · intro call hmem
    cases List.mem_cons.mp hmem with
    | inl heq =>
        rw [heq]
        exact hproper
    | inr hrest => exact hall call hrest
  · have hcons := CardExchange.cons apdu.contents hmore hjoined hexchange
    rw [← hbytes] at hcons
    exact hcons

omit [Usbfs σ] in
theorem short_refused {prior : List ReplyApdu} {reply : List UInt8}
    (h : reply.length < 2) :
    CardEnd size prior (.done (some reply)) (.done none) := by
  refine CardEnd.refused ?_
  intro p hp
  have hlen := p.bytes_length
  rw [← Option.some.inj hp] at hlen
  lia

omit [Usbfs σ] in
theorem lost_refused {prior : List ReplyApdu} :
    CardEnd size prior (.done none) (.done none) := by
  refine CardEnd.refused ?_
  intro p hp
  cases hp

omit [Usbfs σ] in
theorem received_refused {prior : List ReplyApdu} {p : ReplyApdu}
    (h : ¬ Joined size (prior ++ [p])) :
    CardEnd size prior (.done (some p.bytes)) (.done none) := by
  refine CardEnd.refused ?_
  intro q hq
  rw [← ReplyApdu.bytes_injective (Option.some.inj hq)]
  exact h

section

variable {prior : List ReplyApdu} {apdu rapdu : Buffer} {p : ReplyApdu}
  {s t : Host σ} {slot : Nat}

/-- The run ends with a reply that is not joined. -/
theorem CardRuns.refused
    (hcall : ccidReaderApduXfer slot apdu s = (.done (some rapdu), t))
    (hproper : ProperCall size (apdu, .done (some rapdu))) (hsame : s.SameReader t)
    (hbytes : rapdu.contents = p.bytes) (hfull : ¬ Joined size (prior ++ [p])) :
    CardRuns slot size prior apdu.contents s (.done none, t) := by
  have hend := received_refused hfull
  rw [← hbytes] at hend
  exact CardRuns.single hcall hproper hsame hend fun body sw heq => by cases heq

/-- The run ends with a reply that does not announce more. -/
theorem CardRuns.finished {body : Buffer}
    (hcall : ccidReaderApduXfer slot apdu s = (.done (some rapdu), t))
    (hproper : ProperCall size (apdu, .done (some rapdu))) (hsame : s.SameReader t)
    (hbytes : rapdu.contents = p.bytes) (hjoined : Joined size (prior ++ [p]))
    (hlast : p.sw1 ≠ 0x61) (hreply : IsReply size body)
    (hcontents : body.contents = (prior ++ [p]).flatMap ReplyApdu.body) :
    CardRuns slot size prior apdu.contents s (.done (some (body, p.sw)), t) := by
  have hend := CardEnd.finished hjoined hlast
  rw [← hbytes, ← hcontents] at hend
  refine CardRuns.single hcall hproper hsame hend ?_
  intro found sw heq
  cases heq
  exact hreply

/-- An APDU to the card, and what is done with a reply that has a status word.
Without one the run is over. -/
theorem CardRuns.of_cardApdu (card : IfdCard) (h : apdu.Wf)
    (hsize : capacity s.reader.maxMessageSize = size)
    {next : Option (Buffer × Nat) -> Process (Host σ) (Option (Buffer × Nat))}
    (hnone : next none = pure none)
    (hreceived : forall rapdu body (q : ReplyApdu) t,
      ccidReaderApduXfer card.slot apdu s = (.done (some rapdu), t) ->
      ProperCall size (apdu, .done (some rapdu)) -> s.SameReader t ->
      rapdu.contents = q.bytes -> IsReply size body -> body.contents = q.body ->
      CardRuns card.slot size prior apdu.contents s (next (some (body, q.sw)) t)) :
    CardRuns card.slot size prior apdu.contents s
      ((ifdCardApdu card (some apdu) >>= next) s) := by
  rcases ifdCardApdu_cases card h s with
    ⟨reply, outcome, t, hcall, hrun, hproper, hcard, hsame⟩
  rw [hsize] at hproper hcard
  have hrefused : forall body sw, (Outcome.done none : Outcome (Option (Buffer × Nat))) =
      .done (some (body, sw)) -> IsReply size body := by
    intro body sw heq
    cases heq
  cases hcard with
  | crashed =>
      rw [Process.bind_apply, hrun]
      exact CardRuns.single hcall hproper hsame CardEnd.crashed (fun _ _ h => by cases h)
  | hung =>
      rw [Process.bind_apply, hrun]
      exact CardRuns.single hcall hproper hsame CardEnd.hung (fun _ _ h => by cases h)
  | lost =>
      rw [Process.bind_done hrun, hnone]
      exact CardRuns.single hcall hproper hsame lost_refused hrefused
  | @short rapdu hshort =>
      rw [Process.bind_done hrun, hnone]
      exact CardRuns.single hcall hproper hsame (short_refused hshort) hrefused
  | @received rapdu body q hbytes hbody hdata =>
      rw [Process.bind_done hrun]
      exact hreceived rapdu body q t hcall hproper hsame hbytes hbody hdata

end

omit [Usbfs σ] in
/-- A part of the announced length is joined exactly when there is room. -/
theorem bufferPut_joined {front : List ReplyApdu} {p q : ReplyApdu} {rapdu : Buffer}
    (hreply : IsReply size rapdu)
    (hcontents : rapdu.contents = (front ++ [p]).flatMap ReplyApdu.body)
    (hmore : p.sw1 = 0x61) (hjoined : Joined size (front ++ [p]))
    (hlen : q.body.length = p.advertised) :
    (bufferPut rapdu q.body = none ∧ ¬ Joined size (front ++ [p] ++ [q])) ∨
      exists joined, bufferPut rapdu q.body = some joined ∧
        Joined size (front ++ [p] ++ [q]) ∧ IsReply size joined ∧
        joined.contents = (front ++ [p] ++ [q]).flatMap ReplyApdu.body ∧
        joined.wpos = rapdu.wpos + q.body.length := by
  have hsnoc := joined_snoc_iff (q := q) hmore hjoined
  have hwpos := hreply.wpos_eq
  rw [hcontents] at hwpos
  cases hput : bufferPut rapdu q.body with
  | none =>
      refine Or.inl ⟨rfl, ?_⟩
      intro hfits
      have hsome := (bufferPut_isSome_iff hreply.wf q.body).mpr (by
        rw [hreply.size_eq, hwpos]
        exact (hsnoc.mp hfits).2)
      rw [hput] at hsome
      cases hsome
  | some joined =>
      rcases bufferPut_spec hreply.wf hput with
        ⟨hwf2, hcontents2, hrpos2, hwpos2, hsize2⟩
      have hroom := hwf2.wpos_le
      rw [hsize2, hreply.size_eq, hwpos2, hwpos] at hroom
      refine Or.inr ⟨joined, rfl, hsnoc.mpr ⟨hlen, hroom⟩,
        ⟨hwf2, hsize2.trans hreply.size_eq, hrpos2.trans hreply.rpos_eq, hreply.small⟩,
        ?_, hwpos2⟩
      rw [hcontents2, hcontents, List.flatMap_append]
      simp

theorem ifdCardXferLoop_finished (card : IfdCard) {fuel : Nat} (hfuel : 0 < fuel)
    (rapdu : Buffer) {p : ReplyApdu} (hlast : p.sw1 ≠ 0x61) (s : Host σ) :
    ifdCardXferLoop card fuel rapdu p.sw s = (.done (some (rapdu, p.sw)), s) := by
  cases fuel with
  | zero => exact absurd hfuel (Nat.lt_irrefl 0)
  | succ fuel =>
      have hsw : p.sw = statusWord p.sw1 p.sw2 := (statusWord_eq _ _).symm
      rw [ifdCardXferLoop, hsw,
        if_neg (fun hmore => hlast ((statusWord_more_iff _ _).mp hmore))]
      rfl

/-- A round of the loop, up to the reply. -/
theorem ifdCardXferLoop_round (card : IfdCard) (fuel : Nat) (rapdu : Buffer)
    {p : ReplyApdu} (hmore : p.sw1 = 0x61) (s : Host σ) :
    exists apdu : Buffer, apdu.Wf ∧ apdu.contents = getResponseApdu p ∧
      ifdCardXferLoop card (fuel + 1) rapdu p.sw s =
        (do
          let got ← ifdCardApdu card (some apdu)
          match got with
          | none => pure none
          | some (rapdu2, sw) =>
              if bufferAvailable rapdu2 ≠ p.advertised then pure none
              else
                match bufferPut rapdu
                    ((bufferReadPointer rapdu2).take (bufferAvailable rapdu2)) with
                | none => pure none
                | some rapdu => ifdCardXferLoop card fuel rapdu sw :
          Process (Host σ) (Option (Buffer × Nat))) s := by
  have hsw : p.sw = statusWord p.sw1 p.sw2 := (statusWord_eq _ _).symm
  have hle : p.sw2.toNat ≤ 0xFF := Nat.le_of_lt_succ p.sw2.toNat_lt
  rcases ifdBuildApdu_none 0 ifdInsGetResponseApdu 0 0 hle with ⟨apdu, hbuild, hwf, hcontents⟩
  refine ⟨apdu, hwf, ?_, ?_⟩
  · rw [hcontents, UInt8.ofNat_toNat]
    rfl
  · rw [ifdCardXferLoop, hsw, if_pos ((statusWord_more_iff _ _).mpr hmore)]
    simp only [statusWord_low, hbuild]
    rfl

/-- The loop is the rest of an exchange that has received everything in the
buffer; the fuel is more than the room left. -/
theorem ifdCardXferLoop_runs (card : IfdCard) {fuel : Nat} {front : List ReplyApdu}
    {p : ReplyApdu} {rapdu : Buffer} {s : Host σ} (hmore : p.sw1 = 0x61)
    (hsize : capacity s.reader.maxMessageSize = size)
    (hreply : IsReply size rapdu)
    (hcontents : rapdu.contents = (front ++ [p]).flatMap ReplyApdu.body)
    (hjoined : Joined size (front ++ [p])) (hfuel : size < rapdu.wpos + fuel) :
    CardRuns card.slot size (front ++ [p]) (getResponseApdu p) s
      (ifdCardXferLoop card fuel rapdu p.sw s) := by
  induction fuel generalizing front p rapdu s with
  | zero =>
      have hfits := hreply.fits
      have hwpos := hreply.wpos_eq
      lia
  | succ fuel ih =>
      rcases ifdCardXferLoop_round card fuel rapdu hmore s with
        ⟨apdu, hwf, hget, hround⟩
      rw [hround, ← hget]
      refine CardRuns.of_cardApdu card hwf hsize rfl ?_
      intro rapdu2 body q t hcall hproper hsame hbytes hbody hdata
      have hsnoc := joined_snoc_iff (q := q) hmore hjoined
      simp only [bufferAvailable_eq hbody.wf, hdata, ne_eq, ite_not]
      by_cases hlen : q.body.length = p.advertised
      · rw [if_pos hlen]
        have htake := bufferReadPointer_take hbody.wf
          (Nat.le_of_eq (congrArg List.length hdata).symm)
        rw [hdata, List.take_length] at htake
        rw [htake]
        rcases bufferPut_joined (q := q) hreply hcontents hmore hjoined hlen with
          ⟨hput, hfull⟩ | ⟨joined, hput, hall, hreply2, hcontents2, hwpos2⟩
        · rw [hput]
          exact CardRuns.refused hcall hproper hsame hbytes hfull
        · have hpos := p.advertised_pos
          have hroom := hreply2.wf.wpos_le
          rw [hreply2.size_eq] at hroom
          rw [hput]
          by_cases hmore2 : q.sw1 = 0x61
          · refine CardRuns.cons hcall hproper hsame hbytes hmore2 hall ?_
            exact ih hmore2 (by rw [hsame.maxMessageSize, hsize]) hreply2
              hcontents2 hall (by lia)
          · simp only
            rw [ifdCardXferLoop_finished card (by lia) joined hmore2 t]
            exact CardRuns.finished hcall hproper hsame hbytes hall hmore2 hreply2 hcontents2
      · rw [if_neg hlen]
        exact CardRuns.refused hcall hproper hsame hbytes fun hfits => hlen (hsnoc.mp hfits).1

/-- The whole of `ifd_card_xfer` is an exchange. -/
theorem ifdCardXfer_runs (card : IfdCard) {apdu : Buffer} (h : apdu.Wf)
    (s : Host σ) :
    CardRuns card.slot (capacity s.reader.maxMessageSize) [] apdu.contents s
      (ifdCardXfer card (some apdu) s) := by
  rw [ifdCardXfer]
  refine CardRuns.of_cardApdu card h rfl rfl ?_
  intro rapdu body p t hcall hproper hsame hbytes hbody hdata
  have hfits := hbody.fits
  have hjoined : Joined (capacity s.reader.maxMessageSize) ([] ++ [p]) :=
    ⟨List.isChain_singleton p, by simpa [hdata] using hfits⟩
  have hcontents : body.contents = ([] ++ [p]).flatMap ReplyApdu.body := by
    simpa using hdata
  have hroom := bufferTailroom_eq hbody.wf
  have hwpos := hbody.wf.wpos_le
  rw [hbody.size_eq] at hroom hwpos
  by_cases hmore : p.sw1 = 0x61
  · refine CardRuns.cons hcall hproper hsame hbytes hmore hjoined ?_
    exact ifdCardXferLoop_runs card hmore (by rw [hsame.maxMessageSize]) hbody
      hcontents hjoined (by lia)
  · simp only
    rw [ifdCardXferLoop_finished card (Nat.succ_pos _) body hmore t]
    exact CardRuns.finished hcall hproper hsame hbytes hjoined hmore hbody hcontents

end

/-!
## The law of reassembly
-/

/-- The replies with the status word `61xx` that an exchange got to: those
in front that belong together, as far as they announce more. -/
structure Reached (size : Nat) (replies : List (Outcome (Option (List UInt8))))
    (reached : List ReplyApdu) : Prop where
  front : replies.take reached.length =
    reached.map fun p => Outcome.done (some p.bytes)
  more : forall p, p ∈ reached -> p.sw1 = 0x61
  joined : reached ≠ [] -> Joined size reached
  longest : forall p : ReplyApdu,
    replies[reached.length]? = some (.done (some p.bytes)) ->
      Joined size (reached ++ [p]) -> p.sw1 ≠ 0x61

/-- What an exchange sends and returns, in terms of the replies. -/
structure Reassembled (size : Nat) (first : List UInt8) (calls : List ApduCall)
    (outcome : Outcome (Option (List UInt8 × Nat))) : Prop where
  apdus : exists reached, Reached size (calls.map ApduCall.reply) reached ∧
    calls.map ApduCall.apdu = first :: reached.map getResponseApdu
  returns_iff : forall bytes sw, outcome = .done (some (bytes, sw)) ↔
    exists front p, Joined size (front ++ [p]) ∧ p.sw1 ≠ 0x61 ∧
      calls.map ApduCall.reply =
        ((front ++ [p]).map fun p => Outcome.done (some p.bytes)) ∧
      bytes = (front ++ [p]).flatMap ReplyApdu.body ∧ sw = p.sw
  otherwise : (forall call, call ∈ calls -> exists reply, call.reply = .done reply) ->
    exists result, outcome = .done result

section

variable {size : Nat} {first : List UInt8} {calls : List ApduCall}
  {outcome : Outcome (Option (List UInt8 × Nat))} {reached : List ReplyApdu}
  {last : Outcome (Option (List UInt8))}

/-- A last reply that belongs to the others finishes the exchange. -/
theorem CardEnd.of_joined {parts : List ReplyApdu} {p : ReplyApdu}
    (h : CardEnd size parts (.done (some p.bytes)) outcome)
    (hjoined : Joined size (parts ++ [p])) :
    p.sw1 ≠ 0x61 ∧
      outcome = .done (some ((parts ++ [p]).flatMap ReplyApdu.body, p.sw)) := by
  generalize hreply : Outcome.done (some p.bytes) = reply at h
  cases h with
  | @finished q _ hlast =>
      injection hreply with hreply
      rw [ReplyApdu.bytes_injective (Option.some.inj hreply)]
      exact ⟨hlast, rfl⟩
  | refused hrefused =>
      injection hreply with hreply
      exact absurd hjoined (hrefused p hreply.symm)
  | crashed => cases hreply
  | hung => cases hreply

theorem CardExchange.reached_spec (h : CardExchange size [] first calls outcome reached last) :
    Reached size (calls.map ApduCall.reply) reached where
  front := by
    rw [h.replies, List.take_left' (by simp)]
  more := h.more
  joined := h.joined
  longest := by
    intro p hlast hjoined
    rw [h.replies, List.getElem?_append_right (by simp)] at hlast
    simp only [List.length_map, Nat.sub_self, List.getElem?_cons_zero,
      Option.some.injEq] at hlast
    have hends := h.ends
    rw [hlast] at hends
    exact (hends.of_joined hjoined).1

theorem CardExchange.gives_iff
    (h : CardExchange size [] first calls outcome reached last)
    (bytes : List UInt8) (sw : Nat) :
    outcome = .done (some (bytes, sw)) ↔
      exists front p, Joined size (front ++ [p]) ∧ p.sw1 ≠ 0x61 ∧
        calls.map ApduCall.reply =
          ((front ++ [p]).map fun p => Outcome.done (some p.bytes)) ∧
        bytes = (front ++ [p]).flatMap ReplyApdu.body ∧ sw = p.sw := by
  have hreplies := h.replies
  have hends := h.ends
  constructor
  · intro hdone
    rw [hdone] at hends
    cases hends with
    | @finished p hjoined hlast =>
        refine ⟨reached, p, hjoined, hlast, ?_, rfl, rfl⟩
        rw [hreplies, List.map_append]
        rfl
  · rintro ⟨front, p, hjoined, hlast, hall, rfl, rfl⟩
    rw [hreplies, List.map_append] at hall
    rcases List.append_inj' hall rfl with ⟨hfront, hback⟩
    have hreached : reached = front := by
      refine List.map_injective_iff.mpr ?_ hfront
      intro q r hqr
      injection hqr with hqr
      exact ReplyApdu.bytes_injective (Option.some.inj hqr)
    rw [(List.cons.inj hback).1, hreached] at hends
    exact (hends.of_joined hjoined).2

theorem CardExchange.returned
    (h : CardExchange size [] first calls outcome reached last)
    (hreturned : forall call, call ∈ calls ->
      exists reply, call.reply = .done reply) :
    exists result, outcome = .done result := by
  have hmem : last ∈ calls.map ApduCall.reply := by
    rw [h.replies]
    simp
  rcases List.mem_map.mp hmem with ⟨call, hcall, hlast⟩
  rcases hreturned call hcall with ⟨reply, hreply⟩
  have hends := h.ends
  rw [← hlast, hreply] at hends
  cases hends with
  | finished hjoined hdone => exact ⟨_, rfl⟩
  | refused hrefused => exact ⟨_, rfl⟩

theorem CardExchange.reassembled
    (h : CardExchange size [] first calls outcome reached last) :
    Reassembled size first calls outcome where
  apdus := ⟨reached, h.reached_spec, h.apdus⟩
  returns_iff := h.gives_iff
  otherwise := h.returned

end

section

variable {σ : Type} [Usbfs σ]

/-- For every device, `ifd_card_xfer` returns the reassembled response
exactly when the replies belong together and fit, and asks for more exactly as
often as it is told to. -/
theorem ifdCardXfer_reassembles (card : IfdCard) {apdu : Buffer} (h : apdu.Wf)
    (s : Host σ) :
    exists calls,
      Process.Calls (ccidReaderApduXfer card.slot) s calls
        (ifdCardXfer card (some apdu) s).2 ∧
      (forall call, call ∈ calls ->
        ProperCall (capacity s.reader.maxMessageSize) call) ∧
      Reassembled (capacity s.reader.maxMessageSize) apdu.contents
        (calls.map ApduCall.of) (cardResult (ifdCardXfer card (some apdu) s).1) := by
  rcases (ifdCardXfer_runs card h s).exchange with
    ⟨calls, reached, last, hcalls, hproper, hexchange⟩
  exact ⟨calls, hcalls, hproper, hexchange.reassembled⟩

omit [Usbfs σ] in
/-- The calls are those of one exchange that starts with the APDU. -/
def IsExchange (apdu : Buffer) (outcome : Outcome (Option (Buffer × Nat)))
    (made : List (Buffer × Outcome (Option Buffer))) : Prop :=
  exists size reached last, CardExchange size [] apdu.contents
    (made.map ApduCall.of) (cardResult outcome) reached last

/-- The calls `ifd_card_xfer` is made of; they all returned if it did. -/
theorem ifdCardXfer_made (card : IfdCard) (apdu : Buffer) (s : Host σ)
    (h : apdu.Wf) :
    exists made,
      Process.Calls (ccidReaderApduXfer card.slot) s made
        (ifdCardXfer card (some apdu) s).2 ∧
      IsExchange apdu (ifdCardXfer card (some apdu) s).1 made ∧
      forall result, (ifdCardXfer card (some apdu) s).1 = .done result ->
        forall call, call ∈ made -> exists reply, call.2 = .done reply := by
  rcases (ifdCardXfer_runs card h s).exchange with
    ⟨made, reached, last, hcalls, _, hexchange⟩
  refine ⟨made, hcalls, ⟨_, reached, last, hexchange⟩, ?_⟩
  intro result hresult call hmem
  have hreply : (ApduCall.of call).reply ∈
      (reached.map fun p => Outcome.done (some p.bytes)) ++ [last] := by
    rw [← hexchange.replies]
    exact List.mem_map_of_mem (List.mem_map_of_mem hmem)
  have hends := hexchange.ends
  rw [hresult] at hends
  have hdone : exists reply, (ApduCall.of call).reply = .done reply := by
    cases List.mem_append.mp hreply with
    | inl hfront =>
        rcases List.mem_map.mp hfront with ⟨p, _, hp⟩
        exact ⟨_, hp.symm⟩
    | inr hlast =>
        rw [List.mem_singleton.mp hlast]
        cases last with
        | done reply => exact ⟨_, rfl⟩
        | crash => cases hends
        | hang => cases hends
  rcases hdone with ⟨reply, hreply⟩
  rcases call with ⟨apdu, outcome⟩
  cases outcome with
  | done value => exact ⟨value, rfl⟩
  | crash => cases hreply
  | hang => cases hreply

end

/-- A device that answers one command in two parts. -/
def twoPartHost : Host Script where
  usb := { answers := [.response ccidRespData [0x01, 0x02, 0x61, 0x01],
    .response ccidRespData [0x03, 0x90, 0x00]] }
  reader := { maxMessageSize := 32 }

def anyCard : IfdCard :=
  ifdCardAlloc atrYubikey5 "YubiKey 5" .yubikey5 0

theorem ifdCardXfer_reassembles_twoParts :
    cardResult (ifdCardXfer anyCard (some (bufferInitRead [0x00, 0xa4])) twoPartHost).1 =
        .done (some ([0x01, 0x02, 0x03], 0x9000)) ∧
      exists calls,
        Process.Calls (ccidReaderApduXfer anyCard.slot) twoPartHost calls
          (ifdCardXfer anyCard (some (bufferInitRead [0x00, 0xa4])) twoPartHost).2 ∧
        (forall call, call ∈ calls ->
          ProperCall (capacity twoPartHost.reader.maxMessageSize) call) ∧
        Reassembled (capacity twoPartHost.reader.maxMessageSize)
          (bufferInitRead [0x00, 0xa4]).contents (calls.map ApduCall.of)
          (cardResult
            (ifdCardXfer anyCard (some (bufferInitRead [0x00, 0xa4])) twoPartHost).1) :=
  ⟨by decide +kernel,
    ifdCardXfer_reassembles anyCard (bufferInitRead_wf (by decide)) twoPartHost⟩

end UtokenDecrypt
