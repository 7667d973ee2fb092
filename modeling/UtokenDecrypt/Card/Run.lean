import UtokenDecrypt.Card.Chaining
import UtokenDecrypt.Card.Encode
import UtokenDecrypt.Card.Transfers

/-!
# A whole run

The exchanges a run of `doit` consists of: those of `yubikey_connect`, of
`yubikey_verify` and of `yubikey_decipher`, and when it goes on from one to the
next.
-/

namespace UtokenDecrypt

open Foundation

/-!
## The parts of a run
-/

def selectApdu : List UInt8 :=
  apduBytes 0x00 ykpivInsSelectApplication 0x04 0x00 pivAid

def verifyApdu : Option CString -> List UInt8
  | none => [0x00, ykpivInsVerify, 0x00, 0x80, 0x00]
  | some pin => apduBytes 0x00 ykpivInsVerify 0x00 0x80 (paddedPin pin.bytes)

/-- The exchanges of `yubikey_verify` and of `yubikey_decipher`. -/
structure UseParts (pin : Option CString) (verify decipher : List CardXfer) : Prop where
  verifies : forall x, x ∈ verify -> exists given, pin = some given ∧
    given.bytes.length ≤ 8 ∧ x.apdu = verifyApdu pin
  deciphers : forall x, x ∈ decipher -> IsAuthenticate x.apdu = true
  verify_le : verify.length ≤ 1
  decipher_le : decipher.length ≤ 2
  verified : decipher ≠ [] -> forall given, pin = some given ->
    exists x, x ∈ verify ∧ x.Succeeded
  stops : forall front x back, decipher = front ++ x :: back -> ¬ x.Succeeded -> back = []

/-- Those of `yubikey_connect` in front. -/
structure RunParts (pin : Option CString) (connect verify decipher : List CardXfer) :
    Prop where
  connects : forall x, x ∈ connect -> x.apdu = selectApdu ∨ x.apdu = verifyApdu none
  connect_le : connect.length ≤ 2
  selected : decipher ≠ [] -> exists x, x ∈ connect ∧ x.apdu = selectApdu ∧ x.Succeeded
  use : UseParts pin verify decipher

theorem eq_nil_of_split_nil {α : Type} {front back : List α} {x : α} {p : Prop}
    (h : [] = front ++ x :: back) : p :=
  absurd (List.append_eq_nil_iff.mp h.symm).2 (List.cons_ne_nil _ _)

theorem UseParts.verifyOnly {pin : Option CString} {verify : List CardXfer}
    (h : forall x, x ∈ verify -> exists given, pin = some given ∧
      given.bytes.length ≤ 8 ∧ x.apdu = verifyApdu pin)
    (hle : verify.length ≤ 1) : UseParts pin verify [] where
  verifies := h
  deciphers := fun _ hmem => (List.not_mem_nil hmem).elim
  verify_le := hle
  decipher_le := Nat.zero_le 2
  verified := fun hne => absurd rfl hne
  stops := fun _ _ _ hsplit => eq_nil_of_split_nil hsplit

theorem RunParts.connectOnly {pin : Option CString} {connect : List CardXfer}
    (h : forall x, x ∈ connect -> x.apdu = selectApdu ∨ x.apdu = verifyApdu none)
    (hle : connect.length ≤ 2) : RunParts pin connect [] [] where
  connects := h
  connect_le := hle
  selected := fun hne => absurd rfl hne
  use := .verifyOnly (fun _ hmem => (List.not_mem_nil hmem).elim) (Nat.zero_le 1)

section

variable {σ : Type} [Usbfs σ]

theorem succeeded_of_cardResult {x : CardXfer} {reply : Buffer} {sw : Nat}
    (h : x.outcome = cardResult (.done (some (reply, sw)))) (hsw : sw = ykpivSuccess) :
    x.Succeeded := by
  rw [hsw] at h
  exact ⟨reply.contents, h⟩

theorem yubikeySelectApplication_ensures (card : IfdCard) (s : Host σ) :
    (yubikeySelectApplication card pivAid).Ensures s fun outcome t =>
      exists x, Transfers card.slot s [x] t ∧ x.apdu = selectApdu ∧
        (outcome = .done true -> x.Succeeded) := by
  rcases ifdBuildApdu_some 0x00 ykpivInsSelectApplication 0x04 0x00
    (by decide : pivAid.length ≤ 0xFF) (Nat.le_refl pivAid.length) with
    ⟨apdu, hbuild, hwf, hcontents⟩
  have hapdu : apdu.contents = selectApdu := by
    rw [hcontents, List.take_length]
    rfl
  have hshort : apdu.contents.length ≤ 260 := by
    rw [hapdu]
    decide
  rw [yubikeySelectApplication, hbuild]
  refine (ifdCardXfer_ensures card hwf hshort s).bind ?_ ?_ ?_
  · intro got t h
    rcases h with ⟨x, hruns, hx, houtcome⟩
    cases got with
    | none => exact ⟨x, .single hruns, hx.trans hapdu, fun hbad => by cases hbad⟩
    | some result =>
        refine ⟨x, .single hruns, hx.trans hapdu, ?_⟩
        intro hdone
        injection hdone with hsw
        exact succeeded_of_cardResult houtcome (eq_of_beq hsw)
  · intro t h
    rcases h with ⟨x, hruns, hx, _⟩
    exact ⟨x, .single hruns, hx.trans hapdu, fun hbad => by cases hbad⟩
  · intro t h
    rcases h with ⟨x, hruns, hx, _⟩
    exact ⟨x, .single hruns, hx.trans hapdu, fun hbad => by cases hbad⟩

theorem paddedPin_length {pin : List UInt8} (h : pin.length ≤ 8) :
    (paddedPin pin).length = 8 := by
  rw [paddedPin, List.length_append, List.length_replicate]
  lia

/-- The APDU of a PIN that is not too long. -/
theorem yubikeyVerifyApdu_eq {pin : Option CString}
    (h : (pin.elim 0 fun pin => pin.bytes.length) ≤ 8) :
    exists apdu, yubikeyVerifyApdu pin = some apdu ∧ apdu.Wf ∧
      apdu.contents = verifyApdu pin ∧ apdu.contents.length ≤ 260 := by
  cases pin with
  | none =>
      rcases ifdBuildApdu_none 0x00 ykpivInsVerify 0x00 0x80 (Nat.zero_le 0xFF) with
        ⟨apdu, hbuild, hwf, hcontents⟩
      refine ⟨apdu, hbuild, hwf, hcontents, ?_⟩
      rw [hcontents]
      decide
  | some pin =>
      have hlength := paddedPin_length h
      rcases ifdBuildApdu_some 0x00 ykpivInsVerify 0x00 0x80 (by decide : 8 ≤ 0xFF)
        (Nat.le_of_eq hlength.symm) with ⟨apdu, hbuild, hwf, hcontents⟩
      rw [← hlength, List.take_length] at hcontents
      refine ⟨apdu, hbuild, hwf, hcontents, ?_⟩
      rw [hcontents, apduBytes_length, hlength]
      decide

/-- What `yubikey_verify` does: nothing for a PIN that is too long. -/
def Verifies (slot : Nat) (pin : Option CString) (s t : Host σ)
    (outcome : Outcome VerifyResult) : Prop :=
  exists xs, Transfers slot s xs t ∧ xs.length ≤ 1 ∧
    (forall x, x ∈ xs -> x.apdu = verifyApdu pin ∧
      (pin.elim 0 fun pin => pin.bytes.length) ≤ 8) ∧
    forall result, outcome = .done result -> result.rv = true ->
      exists x, x ∈ xs ∧ x.Succeeded

theorem Verifies.single {slot : Nat} {pin : Option CString} {s t : Host σ}
    {outcome : Outcome VerifyResult} {x : CardXfer} (hruns : x.Runs slot s t)
    (hx : x.apdu = verifyApdu pin) (h : (pin.elim 0 fun pin => pin.bytes.length) ≤ 8)
    (hdone : forall result, outcome = .done result -> result.rv = true -> x.Succeeded) :
    Verifies slot pin s t outcome := by
  refine ⟨[x], .single hruns, Nat.le_refl 1, ?_, ?_⟩
  · intro y hmem
    rw [List.mem_singleton.mp hmem]
    exact ⟨hx, h⟩
  · intro result houtcome hrv
    exact ⟨x, List.mem_singleton_self x, hdone result houtcome hrv⟩

/-- A PIN that is not too long takes one exchange. -/
theorem yubikeyVerify_sends (card : IfdCard) {pin : Option CString}
    (h : (pin.elim 0 fun pin => pin.bytes.length) ≤ 8) (s : Host σ) :
    (yubikeyVerify card pin).Ensures s fun outcome t =>
      exists x : CardXfer, x.Runs card.slot s t ∧ x.apdu = verifyApdu pin ∧
        forall result, outcome = .done result -> result.rv = true -> x.Succeeded := by
  rcases yubikeyVerifyApdu_eq h with ⟨apdu, hbuild, hwf, hapdu, hle⟩
  rw [yubikeyVerify, if_neg (Nat.not_lt.mpr h), hbuild]
  refine (ifdCardXfer_ensures card hwf hle s).bind ?_ ?_ ?_
  · intro got t hxfer
    rcases hxfer with ⟨x, hruns, hx, houtcome⟩
    have hfalse : forall verified : VerifyResult, verified.rv = false -> forall result,
        Outcome.done verified = .done result -> result.rv = true -> x.Succeeded := by
      intro verified hrv result hdone hbad
      injection hdone with hresult
      rw [← hresult, hrv] at hbad
      cases hbad
    cases got with
    | none => exact ⟨x, hruns, hx.trans hapdu, hfalse _ rfl⟩
    | some got =>
        rcases got with ⟨reply, sw⟩
        dsimp only
        split
        · exact ⟨x, hruns, hx.trans hapdu, hfalse _ rfl⟩
        · refine ⟨x, hruns, hx.trans hapdu, ?_⟩
          intro result hdone hrv
          injection hdone with hresult
          rw [← hresult] at hrv
          exact succeeded_of_cardResult houtcome (eq_of_beq hrv)
  · intro t hxfer
    rcases hxfer with ⟨x, hruns, hx, _⟩
    exact ⟨x, hruns, hx.trans hapdu, fun _ hbad => by cases hbad⟩
  · intro t hxfer
    rcases hxfer with ⟨x, hruns, hx, _⟩
    exact ⟨x, hruns, hx.trans hapdu, fun _ hbad => by cases hbad⟩

theorem yubikeyVerify_ensures (card : IfdCard) (pin : Option CString) (s : Host σ) :
    (yubikeyVerify card pin).Ensures s fun outcome t =>
      Verifies card.slot pin s t outcome := by
  by_cases hlong : 8 < pin.elim 0 fun pin => pin.bytes.length
  · rw [yubikeyVerify, if_pos hlong]
    refine ⟨[], .nothing Host.Dumped.rfl, Nat.zero_le 1,
      fun _ hmem => (List.not_mem_nil hmem).elim, ?_⟩
    intro result houtcome hrv
    injection houtcome with hresult
    rw [← hresult] at hrv
    cases hrv
  · have hlength := Nat.not_lt.mp hlong
    refine (yubikeyVerify_sends card hlength s).mono ?_
    rintro outcome t ⟨x, hruns, hx, hdone⟩
    exact .single hruns hx hlength hdone

/-- What `yubikey_connect` does: it selects the application, and asks whether a
PIN is needed. -/
def Connects (slot : Nat) (s t : Host σ) (outcome : Outcome (Option IfdCard)) : Prop :=
  exists xs, Transfers slot s xs t ∧ xs.length ≤ 2 ∧
    (forall x, x ∈ xs -> x.apdu = selectApdu ∨ x.apdu = verifyApdu none) ∧
    forall card, outcome = .done (some card) -> card.slot = slot ∧
      exists x, x ∈ xs ∧ x.apdu = selectApdu ∧ x.Succeeded

theorem yubikeyConnect_ensures (card : IfdCard) (s : Host σ) :
    (yubikeyConnect card).Ensures s fun outcome t =>
      Connects card.slot s t outcome := by
  -- behind a `SELECT` that is the last APDU
  have hended : forall {outcome : Outcome (Option IfdCard)} {t : Host σ} {x : CardXfer},
      Transfers card.slot s [x] t -> x.apdu = selectApdu ->
      (forall card, outcome ≠ .done (some card)) -> Connects card.slot s t outcome := by
    intro outcome t x hx hselect hnone
    refine ⟨[x], hx, Nat.le_succ 1, ?_, fun card hdone => absurd hdone (hnone card)⟩
    intro y hmem
    rw [List.mem_singleton.mp hmem]
    exact Or.inl hselect
  rw [yubikeyConnect]
  refine (yubikeySelectApplication_ensures card s).bind ?_ ?_ ?_
  · intro selected t h
    rcases h with ⟨x, hx, hselect, hsucceeded⟩
    cases selected with
    | false => exact hended hx hselect fun card hbad => by cases hbad
    | true =>
        have hslot : (if card.keySlot = 0 then { card with keySlot := 0x9e }
            else card : IfdCard).slot = card.slot := by
          split <;> rfl
        have hverify := yubikeyVerify_ensures
          (if card.keySlot = 0 then { card with keySlot := 0x9e } else card) none t
        rw [hslot] at hverify
        -- whatever the card says about the PIN
        have hall : forall {outcome : Outcome VerifyResult} {u : Host σ}
            {result : Outcome (Option IfdCard)}, Verifies card.slot none t u outcome ->
            (forall other, result = .done (some other) -> other.slot = card.slot) ->
            Connects card.slot s u result := by
          intro outcome u result hverifies hother
          rcases hverifies with ⟨xs, hxs, hle, hapdus, _⟩
          refine ⟨x :: xs, hx.append hxs, Nat.succ_le_succ hle, ?_, ?_⟩
          · intro y hmem
            cases List.mem_cons.mp hmem with
            | inl heq =>
                rw [heq]
                exact Or.inl hselect
            | inr hrest => exact Or.inr (hapdus y hrest).1
          · intro other hdone
            exact ⟨hother other hdone, x, List.mem_cons_self, hselect, hsucceeded rfl⟩
        refine hverify.bind ?_ ?_ ?_
        · intro verified u hu
          refine hall hu ?_
          intro other hdone
          injection hdone with hdone
          injection hdone with hdone
          rw [← hdone]
          split
          · exact hslot
          · exact hslot
        · exact fun u hu => hall hu fun _ hbad => by cases hbad
        · exact fun u hu => hall hu fun _ hbad => by cases hbad
  · intro t h
    rcases h with ⟨x, hx, hselect, _⟩
    exact hended hx hselect fun card hbad => by cases hbad
  · intro t h
    rcases h with ⟨x, hx, hselect, _⟩
    exact hended hx hselect fun card hbad => by cases hbad

/-!
## Deciphering
-/

/-- The exchanges of some calls of `ifd_card_xfer`. -/
theorem calls_transfers (card : IfdCard) {s t : Host σ} {calls : List XferCall}
    (h : Process.Calls (fun apdu => ifdCardXfer card (some apdu)) s calls t)
    (hwf : forall call, call ∈ calls ->
      call.1.Wf ∧ call.1.contents.length ≤ 260) :
    exists xs, Transfers card.slot s xs t ∧
      xs.map (fun x => (x.apdu, x.outcome)) =
        calls.map fun call => (call.1.contents, cardResult call.2) := by
  induction h with
  | nil s => exact ⟨[], .nothing Host.Dumped.rfl, rfl⟩
  | @returned s t u apdu value calls hcall _ ih =>
      rcases hwf (apdu, .done value) List.mem_cons_self with ⟨hapdu, hshort⟩
      rcases ih (fun call hmem => hwf call (List.mem_cons_of_mem _ hmem)) with
        ⟨xs, hxs, hmap⟩
      rcases (ifdCardXfer_ensures card hapdu hshort s).apply hcall with
        ⟨x, hruns, hx, houtcome⟩
      refine ⟨x :: xs, .next Host.Dumped.rfl hruns hxs, ?_⟩
      rw [List.map_cons, List.map_cons, hmap, hx, houtcome]
  | @stopped s t apdu outcome hcall _ =>
      rcases hwf (apdu, outcome) List.mem_cons_self with ⟨hapdu, hshort⟩
      rcases (ifdCardXfer_ensures card hapdu hshort s).apply hcall with
        ⟨x, hruns, hx, houtcome⟩
      refine ⟨[x], .single hruns, ?_⟩
      rw [List.map_singleton, List.map_singleton, hx, houtcome]

omit [Usbfs σ] in
theorem chunkApdus_length {card : IfdCard} {algorithm : UInt8} {rest : List UInt8}
    {chunks : List (List UInt8)}
    (h : forall chunk, chunk ∈ chunks -> 1 ≤ chunk.length ∧ chunk.length ≤ 0xFF)
    {apdu : List UInt8} (hmem : apdu ∈ chunkApdus card algorithm rest chunks) :
    apdu.length ≤ 260 := by
  induction chunks with
  | nil => cases hmem
  | cons chunk more ih =>
      cases List.mem_cons.mp hmem with
      | inl heq =>
          have hlength := (h chunk List.mem_cons_self).2
          rw [heq, apduBytes_length]
          lia
      | inr hmore =>
          exact ih (fun other hother => h other (List.mem_cons_of_mem _ hother)) hmore

/-- What `yubikey_decipher` does, up to the first `AUTHENTICATE` that fails. -/
def Deciphers (slot : Nat) (s t : Host σ) : Prop :=
  exists xs, Transfers slot s xs t ∧ xs.length ≤ 2 ∧
    (forall x, x ∈ xs -> IsAuthenticate x.apdu = true) ∧
    forall front x back, xs = front ++ x :: back -> ¬ x.Succeeded -> back = []

omit [Usbfs σ] in
theorem succeeded_of_callSucceeded {x : CardXfer} {call : XferCall}
    (h : x.outcome = cardResult call.2) (hcall : CallSucceeded call) : x.Succeeded := by
  rcases hcall with ⟨reply, hreply⟩
  rw [hreply] at h
  exact succeeded_of_cardResult h rfl

omit [Usbfs σ] in
theorem yubikeyUnwrap_dumped (rapdu : Buffer) (s : Host σ) :
    (yubikeyUnwrap rapdu).Ensures s fun _ t => s.Dumped t := by
  have hpeek : forall {α : Type} (block : List UInt8) (proc : Peek α),
      (Process.peek block proc : Process (Host σ) α).Ensures s fun _ t => t = s := by
    intro α block proc
    unfold Process.peek
    split <;> rfl
  have hstopped : forall t : Host σ, t = s -> s.Dumped t := by
    intro t ht
    rw [ht]
    exact Host.Dumped.rfl
  rw [yubikeyUnwrap]
  refine (hpeek _ _).bind ?_ hstopped hstopped
  intro decoded t ht
  rw [ht]
  rcases decoded with ⟨okay, padded⟩
  cases okay with
  | false => exact Host.Dumped.rfl
  | true =>
      refine (hpeek _ _).bind ?_ hstopped hstopped
      intro removed u hu
      rw [hu]
      rcases removed with ⟨okay, cleartext⟩
      cases okay with
      | false => exact Host.Dumped.rfl
      | true =>
          have hdump : (dump (bufferReadPointer cleartext)
              (bufferAvailable cleartext)).Ensures s fun _ t => s.Dumped t := ⟨_, rfl⟩
          exact hdump.bind (fun _ _ h => h) (fun _ h => h) (fun _ h => h)

theorem Deciphers.dumped {slot : Nat} {s t u : Host σ} (h : Deciphers slot s t)
    (hdumped : t.Dumped u) : Deciphers slot s u := by
  rcases h with ⟨xs, hxs, hrest⟩
  exact ⟨xs, hxs.dumped hdumped, hrest⟩

theorem yubikeyDecipherChunks_ensures (card : IfdCard) (algorithm : UInt8)
    {data : Buffer} (h : data.Wf) (hlength : data.contents.length ≤ 510) (s : Host σ) :
    (yubikeyDecipherChunks card algorithm (bufferAvailable data + 1) data none).Ensures s
      fun _ t => Deciphers card.slot s t := by
  rw [bufferAvailable_eq h]
  rcases yubikeyDecipherChunks_chained card algorithm h none s
    (Nat.lt_succ_self data.contents.length) with
    ⟨calls, chunks, rest, hcalls, hchained, hcount⟩
  have hapdus : forall call, call ∈ calls ->
      call.1.contents ∈ chunkApdus card algorithm rest chunks := by
    intro call hmem
    rw [← hchained.apdus]
    exact List.mem_map_of_mem hmem
  rcases calls_transfers card hcalls (fun call hmem => ⟨hchained.proper call hmem,
    chunkApdus_length hchained.lengths (hapdus call hmem)⟩) with ⟨xs, hxs, hmap⟩
  refine ⟨xs, hxs, ?_, ?_, ?_⟩
  · have hnumber := congrArg List.length hmap
    rw [List.length_map, List.length_map] at hnumber
    lia
  · intro x hmem
    have hcall : (x.apdu, x.outcome) ∈
        calls.map fun call => (call.1.contents, cardResult call.2) := by
      rw [← hmap]
      exact List.mem_map_of_mem hmem
    rcases List.mem_map.mp hcall with ⟨call, hcallMem, heq⟩
    rw [← (Prod.mk.inj heq).1]
    exact isAuthenticate_chunkApdus card algorithm rest chunks (hapdus call hcallMem)
  · intro front x back hsplit hfail
    rw [hsplit, List.map_append, List.map_cons] at hmap
    rcases List.map_eq_append_iff.mp hmap.symm with ⟨first, others, rfl, _, hothers⟩
    rcases List.map_eq_cons_iff.mp hothers with ⟨call, last, rfl, hcall, hlast⟩
    have hcallFail : ¬ CallSucceeded call := by
      intro hsucceeded
      exact hfail (succeeded_of_callSucceeded (Prod.mk.inj hcall).2.symm hsucceeded)
    have hnil := (hchained.failed first call last rfl hcallFail).1
    rw [hnil, List.map_nil] at hlast
    exact List.map_eq_nil_iff.mp hlast.symm

theorem yubikeyDecipherArgs_ensures (card : IfdCard) (algorithm : UInt8)
    {data : Buffer} (h : data.Wf) (hlength : data.contents.length ≤ 510) (s : Host σ) :
    (yubikeyDecipherArgs card algorithm (some data)).Ensures s fun _ t =>
      Deciphers card.slot s t := by
  refine (yubikeyDecipherChunks_ensures card algorithm h hlength s).bind ?_
    (fun _ hst => hst) (fun _ hst => hst)
  intro sent t hst
  match sent with
  | none => exact hst
  | some none => exact hst
  | some (some rapdu) =>
      exact (yubikeyUnwrap_dumped rapdu t).mono fun _ _ hdumped => hst.dumped hdumped

omit [Usbfs σ] in
theorem whenDebug2_dump (mem : List UInt8) (size : Nat) (s : Host σ) :
    (whenDebug2 (dump mem size)).Ensures s fun _ t => s.Dumped t := by
  unfold Process.Ensures whenDebug2
  split
  · exact ⟨_, rfl⟩
  · exact Host.Dumped.rfl

omit [Usbfs σ] in
theorem yubikeyAlgorithm_length {ciphertext : Buffer} {algorithm : UInt8}
    (h : yubikeyAlgorithm (bufferAvailable ciphertext) = some algorithm) :
    ((bufferReadPointer ciphertext).take (bufferAvailable ciphertext)).length ≤ 256 := by
  have htake := List.length_take_le (bufferAvailable ciphertext)
    (bufferReadPointer ciphertext)
  unfold yubikeyAlgorithm at h
  split_ifs at h <;> lia

theorem yubikeyDecipher_ensures (card : IfdCard) (ciphertext : Buffer) (s : Host σ) :
    (yubikeyDecipher card ciphertext).Ensures s fun _ t => Deciphers card.slot s t := by
  have hnothing : forall t, s.Dumped t -> Deciphers card.slot s t := by
    intro t hst
    exact ⟨[], .nothing hst, Nat.zero_le 2, fun _ hmem => (List.not_mem_nil hmem).elim,
      fun _ _ _ hsplit => eq_nil_of_split_nil hsplit⟩
  rw [yubikeyDecipher]
  refine (whenDebug2_dump _ _ s).bind ?_ hnothing hnothing
  intro _ t hst
  cases halgorithm : yubikeyAlgorithm (bufferAvailable ciphertext) with
  | none => exact hnothing t hst
  | some algorithm =>
      have hlen := yubikeyAlgorithm_length halgorithm
      rcases yubikeyEncodeDecipherArgs_eq (Nat.le_trans hlen (by decide)) with
        ⟨data, hdata, hwf, hcontents⟩
      have hargs := decipherArgsBytes_length_le
        ((bufferReadPointer ciphertext).take (bufferAvailable ciphertext))
      have hsent := yubikeyDecipherArgs_ensures card algorithm hwf
        (by rw [hcontents]; lia) t
      rw [hdata]
      refine hsent.mono ?_
      intro _ u hu
      rcases hu with ⟨xs, hxs, hrest⟩
      exact ⟨xs, hxs.after_dump hst, hrest⟩

/-!
## The whole run
-/

omit [Usbfs σ] in
theorem ifdCardSetOptions_slot {card changed : IfdCard} {options : List CString}
    (h : ifdCardSetOptions card options = some changed) : changed.slot = card.slot := by
  induction options generalizing card with
  | nil =>
      injection h with h
      rw [h]
  | cons option rest ih =>
      rcases Option.bind_eq_some_iff.mp h with ⟨next, hnext, hrest⟩
      have hslot : next.slot = card.slot := by
        unfold ifdCardSetOption yubikeySetCardOption at hnext
        dsimp only at hnext
        split at hnext
        · cases hnext
        · split_ifs at hnext
          injection hnext with hnext
          rw [← hnext]
      exact (ih hrest).trans hslot

theorem ccidReaderIdentifyCard_ensures (slot : Nat) (s : Host σ) :
    (ccidReaderIdentifyCard slot).Ensures s fun outcome t =>
      SetsUp 4 s t ∧ forall card, outcome = .done (some card) -> card.slot = slot := by
  refine ⟨settingUp_ccidReaderIdentifyCard slot s, ?_⟩
  intro card hcard
  rw [ccidReaderIdentifyCard, Process.bind_done (Process.read_apply s)] at hcard
  split at hcard
  · cases hcard
  · rw [Process.bind_pure_apply] at hcard
    rcases hreset : (ccidResetCard slot s).1 with atr | _ | _
    · rw [hreset] at hcard
      injection hcard with hcard
      rcases Option.bind_eq_some_iff.mp hcard with ⟨bytes, _, hcreate⟩
      rcases Option.map_eq_some_iff.mp hcreate with ⟨reg, _, rfl⟩
      rfl
    · rw [hreset] at hcard
      cases hcard
    · rw [hreset] at hcard
      cases hcard

/-- What is done with a connected card. -/
def Uses (pin : Option CString) (slot : Nat) (s t : Host σ) : Prop :=
  exists verify decipher, Transfers slot s (verify ++ decipher) t ∧
    UseParts pin verify decipher

theorem decipher_uses (card : IfdCard) (ciphertext : Buffer) (s : Host σ) :
    (yubikeyDecipher card ciphertext).Ensures s fun _ t => Uses none card.slot s t := by
  refine (yubikeyDecipher_ensures card ciphertext s).mono ?_
  intro _ t ht
  rcases ht with ⟨xs, hxs, hle, hauth, hstops⟩
  refine ⟨[], xs, hxs, fun _ hmem => (List.not_mem_nil hmem).elim, hauth,
    Nat.zero_le 1, hle, ?_, hstops⟩
  intro _ given hbad
  cases hbad

/-- The key is used only if the PIN is accepted. -/
theorem verify_uses (card : IfdCard) (pin : CString) (ciphertext : Buffer)
    (s : Host σ) :
    (do
      let verified ← yubikeyVerify card (some pin)
      if verified.rv then yubikeyDecipher card ciphertext else pure none :
      Process (Host σ) (Option Buffer)).Ensures s fun _ t =>
        Uses (some pin) card.slot s t := by
  have hpin : forall {xs : List CardXfer},
      (forall x, x ∈ xs -> x.apdu = verifyApdu (some pin) ∧ pin.bytes.length ≤ 8) ->
      forall x, x ∈ xs -> exists given, some pin = some given ∧
        given.bytes.length ≤ 8 ∧ x.apdu = verifyApdu (some pin) := by
    intro xs h x hmem
    exact ⟨pin, rfl, (h x hmem).2, (h x hmem).1⟩
  have hstopped : forall {outcome : Outcome VerifyResult} {t : Host σ},
      Verifies card.slot (some pin) s t outcome -> Uses (some pin) card.slot s t := by
    intro outcome t h
    rcases h with ⟨xs, hxs, hone, hpins, _⟩
    refine ⟨xs, [], ?_, .verifyOnly (hpin hpins) hone⟩
    rw [List.append_nil]
    exact hxs
  refine (yubikeyVerify_ensures card (some pin) s).bind ?_ (fun _ => hstopped)
    (fun _ => hstopped)
  intro verified t h
  cases hrv : verified.rv with
  | false =>
      rw [if_neg (by decide)]
      exact hstopped h
  | true =>
      rw [if_pos rfl]
      refine (yubikeyDecipher_ensures card ciphertext t).mono ?_
      intro _ u hu
      rcases h with ⟨xs, hxs, hone, hpins, hsucceeded⟩
      rcases hu with ⟨ys, hys, hle, hauth, hstops⟩
      exact ⟨xs, ys, hxs.append hys, hpin hpins, hauth, hone, hle,
        fun _ _ _ => hsucceeded verified rfl hrv, hstops⟩

/-- A run of `doit`: setting up, and then the exchanges with the card. -/
def RunsAs (pin : Option CString) (s t : Host σ) : Prop :=
  exists start connect verify decipher, SetsUp 5 s start ∧
    Transfers 0 start (connect ++ (verify ++ decipher)) t ∧
    RunParts pin connect verify decipher

theorem doit_ensures (pin : Option CString) (ciphertext : Buffer)
    (cardopts : List CString) (s : Host σ) :
    (doit pin ciphertext cardopts).Ensures s fun _ t => RunsAs pin s t := by
  have hsetup : forall {n t}, SetsUp n s t -> n ≤ 5 -> RunsAs pin s t := by
    intro n t ht hn
    exact ⟨t, [], [], [], ht.mono hn, .nothing Host.Dumped.rfl,
      RunParts.connectOnly (fun _ hmem => (List.not_mem_nil hmem).elim) (Nat.zero_le 2)⟩
  have hcreate : forall {created : Outcome Bool} {t : Host σ},
      (exists value, created = .done value) ∧ t.log = s.log ∧ t.dumps = s.dumps ->
      RunsAs pin s t :=
    fun h => hsetup (SetsUp.nothing h.2.1 0) (Nat.zero_le 5)
  rw [doit]
  refine (ccidReaderCreate_ensures s).bind ?_ (fun _ => hcreate) (fun _ => hcreate)
  intro created t0 h0
  have hs0 : SetsUp 0 s t0 := SetsUp.nothing h0.2.1 0
  cases created with
  | false => exact hcreate h0
  | true =>
      refine (settingUp_ccidReaderSelectSlot 0 t0).bind ?_
        (fun _ h => hsetup (hs0.trans h) (by decide))
        (fun _ h => hsetup (hs0.trans h) (by decide))
      intro selected t1 h1
      have hs1 : SetsUp 1 s t1 := hs0.trans h1
      cases selected with
      | false => exact hsetup hs1 (by decide)
      | true =>
          refine (ccidReaderIdentifyCard_ensures 0 t1).bind ?_
            (fun _ h => hsetup (hs1.trans h.1) (by decide))
            (fun _ h => hsetup (hs1.trans h.1) (by decide))
          intro identified t2 h2
          have hs2 : SetsUp 5 s t2 := hs1.trans h2.1
          split
          · exact hsetup hs2 (Nat.le_refl 5)
          · rename_i card hcard
            rcases Option.bind_eq_some_iff.mp hcard with ⟨created, hcreated, hoptions⟩
            have hslot : card.slot = 0 :=
              (ifdCardSetOptions_slot hoptions).trans (h2.2 created (by rw [hcreated]))
            have hconnect := yubikeyConnect_ensures card t2
            rw [hslot] at hconnect
            have hended : forall {outcome : Outcome (Option IfdCard)} {t : Host σ},
                Connects 0 t2 t outcome -> RunsAs pin s t := by
              intro outcome t h
              rcases h with ⟨xs, hxs, hle, hapdus, _⟩
              refine ⟨t2, xs, [], [], hs2, ?_, RunParts.connectOnly hapdus hle⟩
              rw [List.append_nil, List.append_nil]
              exact hxs
            refine hconnect.bind ?_ (fun _ => hended) (fun _ => hended)
            intro connected t3 h3
            cases connected with
            | none => exact hended h3
            | some card =>
                rcases h3 with ⟨xs, hxs, hle, hapdus, hcards⟩
                rcases hcards card rfl with ⟨hzero, hselected⟩
                have huses : forall u, Uses pin card.slot t3 u -> RunsAs pin s u := by
                  intro u hu
                  rw [hzero] at hu
                  rcases hu with ⟨verify, decipher, hys, hparts⟩
                  exact ⟨t2, xs, verify, decipher, hs2, hxs.append hys, hapdus, hle,
                    fun _ => hselected, hparts⟩
                cases pin with
                | none =>
                    exact (decipher_uses card ciphertext t3).mono fun _ u hu => huses u hu
                | some pin =>
                    exact (verify_uses card pin ciphertext t3).mono fun _ u hu =>
                      huses u hu

end

end UtokenDecrypt
