import UtokenDecrypt.Card.EndToEnd
import UtokenDecrypt.Card.Options
import UtokenDecrypt.Card.UnwrapBounds

/-!
# Where a cleartext comes from

A run that returns a cleartext has selected the application, shown the PIN it was given,
and sent the whole ciphertext to the key slot of the options, each of them with success,
and the reply to the last chunk wraps the cleartext.  Nothing else a device answers is taken for a cleartext.
-/

namespace UtokenDecrypt

open Foundation
open Usb

/-!
## The key slot
-/

/-- The key slot of a run: that of the last option, or the one for card
authentication. -/
def KeySlotChosen (cardopts : List CString) (keySlot : UInt8) : Prop :=
  (cardopts = [] ∧ keySlot = 0x9e) ∨
    exists front last v, cardopts = front ++ [last] ∧ GivesKeySlot last v ∧
      1 ≤ v % 2 ^ 32 ∧ v % 2 ^ 32 ≤ 0xFE ∧ keySlot = UInt8.ofNat (v % 2 ^ 32).toNat

theorem ifdCardSetOption_some {card written : IfdCard} {option : CString}
    (h : ifdCardSetOption card option = some written) :
    exists v, GivesKeySlot option v ∧ 1 ≤ v % 2 ^ 32 ∧ v % 2 ^ 32 ≤ 0xFE ∧
      written.keySlot = UInt8.ofNat (v % 2 ^ 32).toNat := by
  have hrun := ifdCardSetOption_eq option card
  rw [h, Option.elim_some] at hrun
  by_cases hgives : exists v, GivesKeySlot option v
  · rcases hgives with ⟨v, hgiven⟩
    rw [ifdCardSetOption_given hgiven card] at hrun
    split at hrun
    · rename_i hbounds
      refine ⟨v, hgiven, hbounds.2.1, hbounds.2.2, ?_⟩
      rw [← (Prod.mk.inj hrun).2]
    · cases (Prod.mk.inj hrun).1
  · rw [ifdCardSetOption_not_given (fun v hv => hgives ⟨v, hv⟩) card] at hrun
    cases (Prod.mk.inj hrun).1

/-- The last option decides. -/
theorem ifdCardSetOptions_some {card written : IfdCard} {options : List CString}
    (h : ifdCardSetOptions card options = some written) :
    (options = [] ∧ written.keySlot = card.keySlot) ∨
      exists front last v, options = front ++ [last] ∧ GivesKeySlot last v ∧
        1 ≤ v % 2 ^ 32 ∧ v % 2 ^ 32 ≤ 0xFE ∧
        written.keySlot = UInt8.ofNat (v % 2 ^ 32).toNat := by
  induction options generalizing card with
  | nil =>
      injection h with h
      exact Or.inl ⟨rfl, by rw [h]⟩
  | cons option rest ih =>
      rcases Option.bind_eq_some_iff.mp h with ⟨next, hnext, hrest⟩
      refine Or.inr ?_
      rcases ih hrest with ⟨rfl, hkey⟩ | ⟨front, last, v, rfl, hgiven⟩
      · rcases ifdCardSetOption_some hnext with ⟨v, hgiven, hlow, hhigh, hslot⟩
        exact ⟨[], option, v, rfl, hgiven, hlow, hhigh, hkey.trans hslot⟩
      · exact ⟨option :: front, last, v, rfl, hgiven⟩

/-- The key slot behind the connection to the card. -/
theorem keySlotChosen_of_options {card written : IfdCard} {options : List CString}
    (h : ifdCardSetOptions card options = some written) (hnew : card.keySlot = 0) :
    KeySlotChosen options (if written.keySlot = 0 then 0x9e else written.keySlot) := by
  rcases ifdCardSetOptions_some h with ⟨hnil, hkey⟩ |
    ⟨front, last, v, hsplit, hgiven, hlow, hhigh, hkey⟩
  · rw [hkey, if_pos hnew]
    exact Or.inl ⟨hnil, rfl⟩
  · refine Or.inr ⟨front, last, v, hsplit, hgiven, hlow, hhigh, ?_⟩
    rw [if_neg, hkey]
    intro hzero
    have hnat := congrArg UInt8.toNat (hkey.symm.trans hzero)
    rw [UInt8.toNat_ofNat'] at hnat
    change _ = 0 at hnat
    lia

section

variable {σ : Type} [Usbfs σ]

/-- Identifying a card gives one without a key slot. -/
theorem ccidReaderIdentifyCard_keySlot (slot : Nat) (s : Host σ) :
    (ccidReaderIdentifyCard slot).Yields s fun card _ => card.keySlot = 0 := by
  intro card hcard
  rw [ccidReaderIdentifyCard, Process.bind_done (Process.read_apply s)] at hcard
  split at hcard
  · cases hcard
  · rw [Process.bind_pure_apply] at hcard
    cases hreset : (ccidResetCard slot s).1 with
    | done atr =>
        rw [hreset] at hcard
        injection hcard with hcard
        rcases Option.bind_eq_some_iff.mp hcard with ⟨bytes, _, hcreate⟩
        rcases Option.map_eq_some_iff.mp hcreate with ⟨reg, _, rfl⟩
        rfl
    | crash =>
        rw [hreset] at hcard
        cases hcard
    | hang =>
        rw [hreset] at hcard
        cases hcard

/-!
## The exchanges
-/

/-- The reply is the one to the last of the exchanges, which carry the ciphertext. -/
structure DecipherSent (card : IfdCard) (ciphertext : List UInt8) (reply : List UInt8)
    (xs : List CardXfer) : Prop where
  sent : exists algorithm chunks,
    yubikeyAlgorithm ciphertext.length = some algorithm ∧
    (forall chunk, chunk ∈ chunks -> 1 ≤ chunk.length ∧ chunk.length ≤ 0xFF) ∧
    chunks.flatten = decipherArgsBytes ciphertext ∧
    xs.map CardXfer.apdu = chunkApdus card algorithm [] chunks
  succeeded : forall x, x ∈ xs -> x.Succeeded
  last : exists front x, xs = front ++ [x] ∧ x.outcome = .done (some (reply, ykpivSuccess))

section

variable {card : IfdCard} {algorithm : UInt8} {data rest : List UInt8}
  {calls : List XferCall} {chunks : List (List UInt8)} {rapdu : Buffer}

theorem ChainedCalls.all_succeeded {previous : Option Buffer}
    (h : ChainedCalls card algorithm data previous calls (.done (some (some rapdu))) chunks
      rest) : forall call, call ∈ calls -> CallSucceeded call := by
  intro call hmem
  by_contra hfail
  rcases List.append_of_mem hmem with ⟨front, back, hsplit⟩
  have hstop := (h.failed front call back hsplit hfail).2
  cases hcall : call.2 <;> rw [hcall] at hstop <;> cases hstop

theorem ChainedCalls.last_reply
    (h : ChainedCalls card algorithm data none calls (.done (some (some rapdu))) chunks rest) :
    exists front call, calls = front ++ [call] ∧
      call.2 = .done (some (rapdu, ykpivSuccess)) := by
  rcases List.eq_nil_or_concat' calls with rfl | ⟨front, call, rfl⟩
  · cases h.nothing rfl
  · have hlast : call ∈ front ++ [call] :=
      List.mem_append_right _ (List.mem_singleton_self call)
    rcases h.all_succeeded call hlast with ⟨reply, hreply⟩
    have hsame := h.returned call reply List.getLast?_concat hreply
    injection hsame with hsame
    injection hsame with hsame
    injection hsame with hsame
    refine ⟨front, call, rfl, ?_⟩
    rw [hreply, hsame]

end

/-- A response comes only when all chunks have been sent. -/
theorem yubikeyDecipherChunks_sent (card : IfdCard) (algorithm : UInt8) {data : Buffer}
    (h : data.Wf) (s : Host σ) :
    (yubikeyDecipherChunks card algorithm (bufferAvailable data + 1) data none).Ensures s
      fun outcome t => forall rapdu, outcome = .done (some (some rapdu)) ->
        exists xs chunks, Transfers card.slot s xs t ∧
          (forall chunk, chunk ∈ chunks -> 1 ≤ chunk.length ∧ chunk.length ≤ 0xFF) ∧
          chunks.flatten = data.contents ∧
          xs.map CardXfer.apdu = chunkApdus card algorithm [] chunks ∧
          (forall x, x ∈ xs -> x.Succeeded) ∧
          exists front x, xs = front ++ [x] ∧
            x.outcome = .done (some (rapdu.contents, ykpivSuccess)) := by
  rw [bufferAvailable_eq h]
  rcases yubikeyDecipherChunks_chained card algorithm h none s
    (Nat.lt_succ_self data.contents.length) with
    ⟨calls, chunks, rest, hcalls, hchained, _⟩
  intro rapdu hrapdu
  rw [hrapdu] at hchained
  have hall := hchained.all_succeeded
  have hrest := hchained.succeeded hall
  rw [hrest] at hchained
  have hflatten : chunks.flatten = data.contents := by
    rw [hchained.data_eq, List.append_nil]
  have hapdus : forall call, call ∈ calls ->
      call.1.contents ∈ chunkApdus card algorithm [] chunks := by
    intro call hmem
    rw [← hchained.apdus]
    exact List.mem_map_of_mem hmem
  rcases calls_transfers card hcalls (fun call hmem => ⟨hchained.proper call hmem,
    chunkApdus_length hchained.lengths (hapdus call hmem)⟩) with ⟨xs, hxs, hmap⟩
  refine ⟨xs, chunks, hxs, hchained.lengths, hflatten, ?_, ?_, ?_⟩
  · have hfirst := congrArg (List.map Prod.fst) hmap
    rw [List.map_map, List.map_map] at hfirst
    rw [← hchained.apdus]
    exact hfirst
  · intro x hmem
    have hcall : (x.apdu, x.outcome) ∈
        calls.map fun call => (call.1.contents, cardResult call.2) := by
      rw [← hmap]
      exact List.mem_map_of_mem hmem
    rcases List.mem_map.mp hcall with ⟨call, hcallMem, heq⟩
    exact succeeded_of_callSucceeded (Prod.mk.inj heq).2.symm (hall call hcallMem)
  · rcases hchained.last_reply with ⟨front, call, rfl, hreply⟩
    rw [List.map_append, List.map_singleton] at hmap
    rcases List.map_eq_append_iff.mp hmap with ⟨before, behind, rfl, _, hbehind⟩
    rcases List.map_eq_singleton_iff.mp hbehind with ⟨x, rfl, hx⟩
    refine ⟨before, x, rfl, ?_⟩
    rw [(Prod.mk.inj hx).2, hreply]
    rfl

theorem yubikeyReply_sent (card : IfdCard) {ciphertext : Buffer} (h : ciphertext.Wf)
    (s : Host σ) :
    (yubikeyReply card ciphertext).Yields s fun rapdu t => exists xs,
      Transfers card.slot s xs t ∧
        DecipherSent card ciphertext.contents rapdu.contents xs := by
  have htake := bufferReadPointer_take_all h
  rw [bufferAvailable_eq h] at htake
  rw [yubikeyReply]
  refine (whenDebug2_dump _ _ s).yields ?_
  intro _ t hst
  rw [bufferAvailable_eq h, htake]
  cases halgorithm : yubikeyAlgorithm ciphertext.contents.length with
  | none => exact Process.yields_none
  | some algorithm =>
      have hlen : ciphertext.contents.length ≤ 992 := by
        unfold yubikeyAlgorithm at halgorithm
        split_ifs at halgorithm <;> lia
      rcases yubikeyEncodeDecipherArgs_eq hlen with ⟨data, hdata, hwf, hcontents⟩
      rw [hdata]
      refine (yubikeyDecipherChunks_sent card algorithm hwf t).yields ?_
      intro sent u hsent
      cases sent with
      | none => exact Process.yields_none
      | some found =>
          cases found with
          | none => exact fun _ hbad => by cases hbad
          | some found =>
              refine Process.yields_some ?_
              rcases hsent found rfl with
                ⟨xs, chunks, hxs, hlengths, hflatten, hapdus, hall, hlast⟩
              rw [hcontents] at hflatten
              exact ⟨xs, hxs.after_dump hst,
                ⟨algorithm, chunks, halgorithm, hlengths, hflatten, hapdus⟩, hall, hlast⟩

omit [Usbfs σ] in
theorem peek_value {α : Type} (block : List UInt8) (proc : Peek α) (s : Host σ) :
    (Process.peek block proc).Ensures s fun outcome _ => forall value,
      outcome = .done value -> value = proc.value fun pos => block.getD pos 0 := by
  intro value hdone
  unfold Process.peek at hdone
  split at hdone
  · injection hdone with hdone
    exact hdone.symm
  · cases hdone

omit [Usbfs σ] in
theorem yubikeyUnwrap_wraps {rapdu : Buffer} (h : rapdu.Wf) (s : Host σ) :
    (yubikeyUnwrap rapdu).Yields s fun cleartext _ => cleartext.Wf ∧ exists padded,
      DecipherResponse rapdu.contents padded ∧ Pkcs1Type2 padded cleartext.contents := by
  have hmem := memoryShows_data h
  rw [yubikeyUnwrap]
  refine (peek_value _ _ s).yields ?_
  intro decoded t hdecoded
  rcases decoded with ⟨okay, padded⟩
  cases okay with
  | false => exact Process.yields_none
  | true =>
      have hvalue := (hdecoded (true, padded) rfl).symm
      have hwraps := (yubikeyDecodeDecipherResp_contents_iff h hmem padded.contents).mp
        ⟨padded, hvalue, rfl⟩
      have hpaddedWf := (yubikeyDecodeDecipherResp_rpos_le h hvalue).1
      refine (peek_value _ _ t).yields ?_
      intro removed u hremoved
      rcases removed with ⟨okay, found⟩
      cases okay with
      | false => exact Process.yields_none
      | true =>
          have hmessage := (hremoved (true, found) rfl).symm
          have hpkcs := (pkcs1Type2PaddingRemove_contents_iff hpaddedWf
            (memoryShows_data hpaddedWf) found.contents).mp ⟨found, hmessage, rfl⟩
          have hfoundWf : found.Wf := by
            rcases (pkcs1Type2PaddingRemove_eq_true_iff hpaddedWf
              (memoryShows_data hpaddedWf)).mp hmessage with ⟨skipped, _, rfl⟩
            exact bufferSkip_wf hpaddedWf (Nat.sub_le _ _)
          have hdump : (dump (bufferReadPointer found) (bufferAvailable found)).Ensures u
              fun _ _ => True := trivial
          exact hdump.yields fun _ _ _ =>
            Process.yields_some ⟨hfoundWf, padded.contents, hwraps, hpkcs⟩

theorem yubikeyDecipher_returned (card : IfdCard) {ciphertext : Buffer} (h : ciphertext.Wf)
    (s : Host σ) :
    (yubikeyDecipher card ciphertext).Yields s fun cleartext t =>
      cleartext.Wf ∧ exists xs reply padded,
        Transfers card.slot s xs t ∧ DecipherSent card ciphertext.contents reply xs ∧
          DecipherResponse reply padded ∧ Pkcs1Type2 padded cleartext.contents := by
  have hreply : (yubikeyReply card ciphertext).Yields s fun rapdu t =>
      rapdu.Wf ∧ exists xs, Transfers card.slot s xs t ∧
        DecipherSent card ciphertext.contents rapdu.contents xs := by
    intro rapdu hdone
    exact ⟨((yubikeyReply_isReply card ciphertext s).known.2 rapdu hdone).wf,
      yubikeyReply_sent card h s rapdu hdone⟩
  rw [yubikeyDecipher_eq]
  refine hreply.thenSome ?_
  intro rapdu t hsent
  rcases hsent with ⟨hwf, xs, hxs, hsent⟩
  intro cleartext hdone
  rcases yubikeyUnwrap_wraps hwf t cleartext hdone with ⟨hclearWf, padded, hwraps, hpkcs⟩
  exact ⟨hclearWf, xs, rapdu.contents, padded, hxs.dumped (yubikeyUnwrap_dumped rapdu t),
    hsent, hwraps, hpkcs⟩

/-!
## In front of the ciphertext
-/

/-- The application is selected, and the card asked whether it needs a PIN. -/
structure SelectsCard (xs : List CardXfer) : Prop where
  sent : xs.map CardXfer.apdu = [selectApdu, verifyApdu none]
  selected : exists x, xs.head? = some x ∧ x.Succeeded

/-- The PIN is shown to the card, if there is one, and taken. -/
def ShowsPin (pin : Option CString) (xs : List CardXfer) : Prop :=
  pin.elim (xs = []) fun given => given.bytes.length ≤ 8 ∧
    exists x, xs = [x] ∧ x.apdu = verifyApdu (some given) ∧ x.Succeeded

/-- A card is connected behind these exchanges, and has a key slot. -/
theorem yubikeyConnect_selects (card : IfdCard) (s : Host σ) :
    (yubikeyConnect card).Yields s fun connected t =>
      connected.slot = card.slot ∧
      connected.keySlot = (if card.keySlot = 0 then 0x9e else card.keySlot) ∧
      exists xs, Transfers card.slot s xs t ∧ SelectsCard xs := by
  have hnone : ((none : Option CString).elim 0 fun pin => pin.bytes.length) ≤ 8 :=
    Nat.zero_le 8
  let asked : IfdCard := if card.keySlot = 0 then { card with keySlot := 0x9e } else card
  have hslot : asked.slot = card.slot := by
    dsimp only [asked]
    split <;> rfl
  have hkey : asked.keySlot = if card.keySlot = 0 then 0x9e else card.keySlot := by
    dsimp only [asked]
    split <;> rfl
  rw [yubikeyConnect]
  refine (yubikeySelectApplication_ensures card s).yields ?_
  intro selected t hselect
  rcases hselect with ⟨x, hx, hselect, hsucceeded⟩
  cases selected with
  | false => exact Process.yields_none
  | true =>
      refine (yubikeyVerify_sends asked hnone t).yields ?_
      intro verified u hverify
      rcases hverify with ⟨y, hy, hquery, _⟩
      rw [hslot] at hy
      have hxs : Transfers card.slot s [x, y] u := hx.append (.single hy)
      have hselects : SelectsCard [x, y] := by
        refine ⟨?_, x, rfl, hsucceeded rfl⟩
        rw [List.map_cons, List.map_singleton, hselect, hquery]
      refine Process.yields_some ⟨?_, ?_, [x, y], hxs, hselects⟩
      · split
        · exact hslot
        · exact hslot
      · split
        · exact hkey
        · exact hkey

/-- The card that a run deciphers with, and what has been sent before: the commands that
set up the reader, and the exchanges with the card. -/
def CardReady (cardopts : List CString) (s : Host σ) (Sent : List CardXfer -> Prop)
    (card : IfdCard) (t : Host σ) : Prop :=
  card.slot = 0 ∧ KeySlotChosen cardopts card.keySlot ∧
    exists start xs, SetsUp 5 s start ∧ Transfers 0 start xs t ∧ Sent xs

theorem doitConnect_ready (cardopts : List CString) (s : Host σ) :
    (doitConnect cardopts).Yields s (CardReady cardopts s SelectsCard) := by
  rw [doitConnect]
  refine (ccidReaderCreate_ensures s).yields ?_
  intro created t0 h0
  have hs0 : SetsUp 0 s t0 := SetsUp.nothing h0.2.1 0
  cases created with
  | false => exact Process.yields_none
  | true =>
      rw [if_pos rfl, doitConnectCard]
      refine (settingUp_ccidReaderSelectSlot 0 t0).yields ?_
      intro selected t1 h1
      cases selected with
      | false => exact Process.yields_none
      | true =>
          have hidentify : (ccidReaderIdentifyCard 0).Ensures t1 fun outcome t =>
              SetsUp 4 t1 t ∧ forall card, outcome = .done (some card) ->
                card.slot = 0 ∧ card.keySlot = 0 :=
            ⟨(ccidReaderIdentifyCard_ensures 0 t1).1, fun card hdone =>
              ⟨(ccidReaderIdentifyCard_ensures 0 t1).2 card hdone,
                ccidReaderIdentifyCard_keySlot 0 t1 card hdone⟩⟩
          refine hidentify.yields ?_
          intro identified t2 h2
          have hs2 : SetsUp 5 s t2 := (hs0.trans h1).trans h2.1
          cases hoptions : identified.bind fun card => ifdCardSetOptions card cardopts with
          | none => exact Process.yields_none
          | some written =>
              rcases Option.bind_eq_some_iff.mp hoptions with ⟨card, hcard, hset⟩
              rcases h2.2 card (by rw [hcard]) with ⟨hslot, hkey⟩
              have hwritten : written.slot = 0 := (ifdCardSetOptions_slot hset).trans hslot
              rw [Option.elim_some]
              refine (yubikeyConnect_selects written t2).mono ?_
              rintro connected t ⟨hconnected, hkeySlot, xs, hxs, hselects⟩
              rw [hwritten] at hxs hconnected
              refine ⟨hconnected, ?_, t2, xs, hs2, hxs, hselects⟩
              rw [hkeySlot]
              exact keySlotChosen_of_options hset hkey

def SendsFirst (pin : Option CString) (xs : List CardXfer) : Prop :=
  exists connect verify, xs = connect ++ verify ∧ SelectsCard connect ∧ ShowsPin pin verify

theorem doitVerify_ready (pin : Option CString) (cardopts : List CString) {card : IfdCard}
    {s t : Host σ} (h : CardReady cardopts s SelectsCard card t) :
    (doitVerify pin card).Yields t (CardReady cardopts s (SendsFirst pin)) := by
  rcases h with ⟨hslot, hkey, start, xs, hstart, hxs, hselects⟩
  cases pin with
  | none =>
      exact Process.yields_some ⟨hslot, hkey, start, xs, hstart, hxs, xs, [],
        (List.append_nil xs).symm, hselects, rfl⟩
  | some pin =>
      rw [doitVerify, Option.elim]
      by_cases hlong : 8 < pin.bytes.length
      · rw [yubikeyVerify, Option.elim_some, if_pos hlong]
        exact fun _ hbad => by cases hbad
      · have hlength := Nat.not_lt.mp hlong
        refine (@yubikeyVerify_sends σ _ card (some pin) hlength t).yields ?_
        intro result u hu
        rcases hu with ⟨x, hx, hverify, hsucceeded⟩
        cases hrv : result.rv with
        | false => exact Process.yields_none
        | true =>
            rw [hslot] at hx
            exact Process.yields_some ⟨hslot, hkey, start, xs ++ [x], hstart,
              hxs.append (.single hx), xs, [x], rfl, hselects, hlength, x, rfl, hverify,
              hsucceeded result rfl hrv⟩

theorem doitReady (pin : Option CString) (cardopts : List CString) (s : Host σ) :
    ((doitConnect cardopts).thenSome (doitVerify pin)).Yields s
      (CardReady cardopts s (SendsFirst pin)) :=
  (doitConnect_ready cardopts s).thenSome fun _ _ => doitVerify_ready pin cardopts

/-!
## The whole run
-/

/-- The reader is set up; then the application is selected, the PIN shown if there is one,
and the whole ciphertext sent to the key slot of the options.  The card answers them with
success, and its reply to the ciphertext wraps the message. -/
def Unlocks (pin : Option CString) (cardopts : List CString) (ciphertext : List UInt8)
    (s t : Host σ) (message : List UInt8) : Prop :=
  exists start card connect verify decipher reply padded, SetsUp 5 s start ∧
    Transfers 0 start (connect ++ verify ++ decipher) t ∧
    SelectsCard connect ∧ ShowsPin pin verify ∧
    KeySlotChosen cardopts card.keySlot ∧ DecipherSent card ciphertext reply decipher ∧
    DecipherResponse reply padded ∧ Pkcs1Type2 padded message

theorem doit_returned (pin : Option CString) {ciphertext : Buffer} (h : ciphertext.Wf)
    (cardopts : List CString) (s : Host σ) :
    (doit pin ciphertext cardopts).Yields s fun cleartext t => cleartext.Wf ∧
      Unlocks pin cardopts ciphertext.contents s t cleartext.contents := by
  rw [doit_eq]
  refine (doitReady pin cardopts s).thenSome ?_
  intro card before hbefore
  rcases hbefore with ⟨hslot, hkey, start, front, hstart, hfront, hsent⟩
  rcases hsent with ⟨connect, verify, rfl, hselects, hshows⟩
  refine (yubikeyDecipher_returned card h before).mono ?_
  intro cleartext t hreturned
  rcases hreturned with ⟨hclearWf, xs, reply, padded, hxs, hdecipher, hwraps, hpkcs⟩
  rw [hslot] at hxs
  exact ⟨hclearWf, start, card, connect, verify, xs, reply, padded, hstart,
    hfront.append hxs, hselects, hshows, hkey, hdecipher, hwraps, hpkcs⟩

/-- A cleartext comes out of a run only in this way. -/
theorem doit_decrypts (pin : Option CString) {ciphertext : Buffer} (h : ciphertext.Wf)
    (cardopts : List CString) {s t : Host σ} {cleartext : Buffer}
    (hrun : doit pin ciphertext cardopts s = (.done (some cleartext), t)) :
    Unlocks pin cardopts ciphertext.contents s t cleartext.contents :=
  ((doit_returned pin h cardopts s).apply hrun).2

end

/-- A token with a card that takes a PIN and decrypts. -/
def answeringHost : Host Script where
  usb := { answers := [.response ccidRespSlotstat [], .response ccidRespData atrYubikey4,
    .response ccidRespData [0x90, 0x00], .response ccidRespData [0x63, 0xc3],
    .response ccidRespData [0x90, 0x00]] ++ scriptParts [someReply 128] }
  dev := slotToken

def somePin : CString where
  bytes := "123456".toUTF8.toList
  noNul := by decide +kernel

theorem doit_decrypts_answered :
    exists cleartext t,
      doit (some somePin) (someCiphertext 128) [] answeringHost =
        (.done (some cleartext), t) ∧
      Unlocks (some somePin) [] (someCiphertext 128).contents answeringHost t
        cleartext.contents := by
  have hreturns : (doit (some somePin) (someCiphertext 128) [] answeringHost).1.map
      Option.isSome = .done true := by decide +kernel
  rcases hrun : doit (some somePin) (someCiphertext 128) [] answeringHost with ⟨outcome, t⟩
  rw [hrun] at hreturns
  cases outcome with
  | crash => cases hreturns
  | hang => cases hreturns
  | done got =>
      cases got with
      | none => cases hreturns
      | some cleartext =>
          exact ⟨cleartext, t, rfl, doit_decrypts (some somePin)
            (bufferInitRead_wf (by rw [List.length_replicate]; decide)) [] hrun⟩

end UtokenDecrypt
