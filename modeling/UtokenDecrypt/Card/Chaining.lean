import UtokenDecrypt.Card.Reassemble

/-!
# Command chaining

The loop of `yubikey_decipher` that sends the encoded arguments in chunks.
The result is about any argument buffer and any device: the chunks follow each
other without a gap, and the first one that is not answered with success is the
last one sent.
-/

namespace UtokenDecrypt

open Foundation

/-- A call of `ifd_card_xfer`: the APDU and what came back. -/
abbrev XferCall : Type :=
  Buffer × Outcome (Option (Buffer × Nat))

def CallSucceeded (call : XferCall) : Prop :=
  exists reply, call.2 = .done (some (reply, ykpivSuccess))

/-- The `AUTHENTICATE` APDUs for chunks that follow each other in front of
`rest`; the class byte says whether more is to come. -/
def chunkApdus (card : IfdCard) (algorithm : UInt8) (rest : List UInt8) :
    List (List UInt8) -> List (List UInt8)
  | [] => []
  | chunk :: more =>
      apduBytes (if more = [] ∧ rest = [] then 0x00 else 0x10)
        ykpivInsAuthenticate algorithm card.keySlot chunk ::
      chunkApdus card algorithm rest more

/-- A run of the loop over `data`, when the last response so far is
`previous`. -/
structure ChainedCalls (card : IfdCard) (algorithm : UInt8) (data : List UInt8)
    (previous : Option Buffer) (calls : List XferCall)
    (outcome : Outcome (Option (Option Buffer))) (chunks : List (List UInt8))
    (rest : List UInt8) : Prop where
  data_eq : data = chunks.flatten ++ rest
  lengths : forall chunk, chunk ∈ chunks -> 1 ≤ chunk.length ∧ chunk.length ≤ 0xFF
  apdus : calls.map (fun call => call.1.contents) =
    chunkApdus card algorithm rest chunks
  proper : forall call, call ∈ calls -> call.1.Wf
  succeeded : (forall call, call ∈ calls -> CallSucceeded call) -> rest = []
  returned : forall last reply, calls.getLast? = some last ->
    last.2 = .done (some (reply, ykpivSuccess)) ->
      outcome = .done (some (some reply))
  nothing : calls = [] -> outcome = .done (some previous)
  failed : forall front call back, calls = front ++ call :: back ->
    ¬ CallSucceeded call -> back = [] ∧ outcome = call.2.map fun _ => none

section

variable {card : IfdCard} {algorithm : UInt8} {chunk rest : List UInt8}

theorem chainedCalls_nil {previous : Option Buffer} :
    ChainedCalls card algorithm [] previous [] (.done (some previous)) [] [] where
  data_eq := rfl
  lengths := fun _ hmem => by cases hmem
  apdus := rfl
  proper := fun _ hmem => by cases hmem
  succeeded := fun _ => rfl
  returned := fun _ _ hlast => by cases hlast
  nothing := fun _ => rfl
  failed := by
    intro front call back hsplit
    exact absurd (List.append_eq_nil_iff.mp hsplit.symm).2 (List.cons_ne_nil _ _)

/-- The APDU of a chunk, whose class byte says whether anything is left. -/
def chunkApdu (card : IfdCard) (algorithm : UInt8) (chunk rest : List UInt8) :
    List UInt8 :=
  apduBytes (if rest = [] then 0x00 else 0x10) ykpivInsAuthenticate algorithm
    card.keySlot chunk

/-- The loop stops behind a chunk that is not answered with success. -/
theorem chainedCalls_failed (previous : Option Buffer) {apdu : Buffer}
    {got : Outcome (Option (Buffer × Nat))}
    (hlength : 1 ≤ chunk.length ∧ chunk.length ≤ 0xFF)
    (hwf : apdu.Wf) (hapdu : apdu.contents = chunkApdu card algorithm chunk rest)
    (hfail : ¬ CallSucceeded (apdu, got)) :
    ChainedCalls card algorithm (chunk ++ rest) previous [(apdu, got)]
      (got.map fun _ => none) [chunk] rest where
  data_eq := by simp
  lengths := by
    intro other hmem
    rw [List.mem_singleton.mp hmem]
    exact hlength
  apdus := by simp [chunkApdus, chunkApdu, hapdu]
  proper := by
    intro call hmem
    rw [List.mem_singleton.mp hmem]
    exact hwf
  succeeded := fun hall => absurd (hall _ List.mem_cons_self) hfail
  returned := by
    intro last reply hlast hreply
    cases hlast
    exact absurd ⟨reply, hreply⟩ hfail
  nothing := fun hnil => absurd hnil (List.cons_ne_nil _ _)
  failed := by
    intro front call back hsplit _
    rcases List.append_eq_singleton_iff.mp hsplit.symm with ⟨_, hcall⟩ | ⟨_, hcall⟩
    · rw [(List.cons.inj hcall).1, (List.cons.inj hcall).2]
      exact ⟨rfl, rfl⟩
    · exact absurd hcall (List.cons_ne_nil _ _)

/-- The loop goes on behind a chunk that is answered with success. -/
theorem ChainedCalls.cons (previous : Option Buffer) {apdu reply : Buffer} {data : List UInt8}
    {calls : List XferCall} {outcome : Outcome (Option (Option Buffer))}
    {chunks : List (List UInt8)}
    (hlength : 1 ≤ chunk.length ∧ chunk.length ≤ 0xFF)
    (hwf : apdu.Wf) (hapdu : apdu.contents = chunkApdu card algorithm chunk data)
    (h : ChainedCalls card algorithm data (some reply) calls outcome chunks rest) :
    ChainedCalls card algorithm (chunk ++ data) previous
      ((apdu, .done (some (reply, ykpivSuccess))) :: calls) outcome
      (chunk :: chunks) rest where
  data_eq := by rw [h.data_eq, List.flatten_cons, List.append_assoc]
  lengths := by
    intro other hmem
    cases List.mem_cons.mp hmem with
    | inl heq =>
        rw [heq]
        exact hlength
    | inr hrest => exact h.lengths other hrest
  apdus := by
    have hlast : data = [] ↔ chunks = [] ∧ rest = [] := by
      rw [h.data_eq, List.append_eq_nil_iff]
      constructor
      · intro hnil
        refine ⟨?_, hnil.2⟩
        cases hchunks : chunks with
        | nil => rfl
        | cons first more =>
            have hfirst := (h.lengths first (by rw [hchunks]; exact List.mem_cons_self)).1
            have hempty := congrArg List.length hnil.1
            rw [hchunks, List.flatten_cons, List.length_append,
              List.length_nil] at hempty
            lia
      · intro hnil
        rw [hnil.1]
        exact ⟨rfl, hnil.2⟩
    rw [List.map_cons, h.apdus, chunkApdus, hapdu, chunkApdu]
    simp only [hlast]
  proper := by
    intro call hmem
    cases List.mem_cons.mp hmem with
    | inl heq =>
        rw [heq]
        exact hwf
    | inr hrest => exact h.proper call hrest
  succeeded := fun hall =>
    h.succeeded fun call hmem => hall call (List.mem_cons_of_mem _ hmem)
  returned := by
    intro last found hlast hreply
    cases calls with
    | nil =>
        cases hlast
        cases hreply
        exact h.nothing rfl
    | cons second more =>
        rw [List.getLast?_cons_cons] at hlast
        exact h.returned last found hlast hreply
  nothing := fun hnil => absurd hnil (List.cons_ne_nil _ _)
  failed := by
    intro front call back hsplit hfail
    cases front with
    | nil =>
        rw [List.nil_append] at hsplit
        rw [← (List.cons.inj hsplit).1] at hfail
        exact absurd ⟨reply, rfl⟩ hfail
    | cons first front => exact h.failed front call back (List.cons.inj hsplit).2 hfail

end

/-!
## The loop
-/

section

variable {σ : Type} [Usbfs σ]

/-- The APDU of a round of the loop. -/
theorem yubikeyDecipherChunks_apdu (card : IfdCard) (algorithm : UInt8)
    {data : Buffer} (h : data.Wf) :
    exists apdu : Buffer,
      ifdBuildApdu (if bufferAvailable data > 0xFF then 0x10 else 0x00)
          ykpivInsAuthenticate algorithm card.keySlot
          (some (bufferReadPointer data)) (min (bufferAvailable data) 0xFF) =
        some apdu ∧
      apdu.Wf ∧ apdu.contents = chunkApdu card algorithm
        (data.contents.take 0xFF) (data.contents.drop 0xFF) := by
  have hmem := contents_length_le h
  rw [bufferAvailable_eq h]
  rcases ifdBuildApdu_some (if data.contents.length > 0xFF then 0x10 else 0x00)
    ykpivInsAuthenticate algorithm card.keySlot
    (Nat.min_le_right data.contents.length 0xFF)
    (Nat.le_trans (Nat.min_le_left _ _) hmem) with ⟨apdu, hbuild, hwf, hcontents⟩
  refine ⟨apdu, hbuild, hwf, ?_⟩
  have htake : data.contents.take (min data.contents.length 0xFF) =
      data.contents.take 0xFF := by
    rw [List.take_eq_take_iff]
    lia
  have hmore : data.contents.drop 0xFF = [] ↔ ¬ data.contents.length > 0xFF := by
    rw [List.drop_eq_nil_iff]
    lia
  rw [hcontents, bufferReadPointer_take h (Nat.min_le_left _ _), htake, chunkApdu]
  simp only [hmore, ite_not]

/-- A round of the loop: it goes on with what is left, or stops. -/
structure ChunkRound (card : IfdCard) (algorithm : UInt8) (fuel : Nat) (data : Buffer)
    (previous : Option Buffer) (s : Host σ) (apdu rest : Buffer) : Prop where
  apdu_wf : apdu.Wf
  apdu_eq : apdu.contents = chunkApdu card algorithm (data.contents.take 0xFF)
    (data.contents.drop 0xFF)
  rest_wf : rest.Wf
  rest_eq : rest.contents = data.contents.drop 0xFF
  goesOn : forall {reply t},
    ifdCardXfer card (some apdu) s = (.done (some (reply, ykpivSuccess)), t) ->
      yubikeyDecipherChunks card algorithm (fuel + 1) data previous s =
        yubikeyDecipherChunks card algorithm fuel rest (some reply) t
  stops : forall {outcome t}, ifdCardXfer card (some apdu) s = (outcome, t) ->
    ¬ CallSucceeded (apdu, outcome) ->
      yubikeyDecipherChunks card algorithm (fuel + 1) data previous s =
        (outcome.map fun _ => none, t)

theorem yubikeyDecipherChunks_round (card : IfdCard) (algorithm : UInt8) (fuel : Nat)
    {data : Buffer} (h : data.Wf) (hne : data.contents ≠ []) (previous : Option Buffer)
    (s : Host σ) :
    exists apdu rest, ChunkRound card algorithm fuel data previous s apdu rest := by
  have hle : min data.contents.length 0xFF ≤ data.contents.length := Nat.min_le_left _ _
  have hskip := bufferSkip_eq_some h hle
  have hmore : ¬ bufferAvailable data = 0 := by
    rw [bufferAvailable_eq h, List.length_eq_zero_iff]
    exact hne
  rcases yubikeyDecipherChunks_apdu card algorithm h with ⟨apdu, hbuild, hapduWf, hapdu⟩
  refine ⟨apdu, { data with rpos := data.rpos + min data.contents.length 0xFF },
    hapduWf, hapdu, bufferSkip_wf h hle, ?_, ?_, ?_⟩
  · rw [bufferSkip_contents, List.drop_eq_drop_iff]
    lia
  · intro reply t hrun
    rw [yubikeyDecipherChunks, if_neg hmore]
    simp only [hbuild]
    rw [Process.bind_done hrun]
    simp only [if_pos, bufferAvailable_eq h, hskip, Option.getD_some]
  · intro outcome t hrun hfail
    rw [yubikeyDecipherChunks, if_neg hmore]
    simp only [hbuild]
    cases outcome with
    | crash => rw [Process.bind_apply, hrun, Outcome.map_crash]
    | hang => rw [Process.bind_apply, hrun, Outcome.map_hang]
    | done got =>
        rw [Process.bind_done hrun]
        cases got with
        | none => rfl
        | some result =>
            rcases result with ⟨reply, sw⟩
            have hsw : sw ≠ ykpivSuccess := by
              intro heq
              rw [heq] at hfail
              exact hfail ⟨reply, rfl⟩
            simp only [if_neg hsw]
            rfl

theorem yubikeyDecipherChunks_end (card : IfdCard) (algorithm : UInt8) (fuel : Nat)
    {data : Buffer} (h : data.Wf) (hend : data.contents = []) (previous : Option Buffer)
    (s : Host σ) :
    yubikeyDecipherChunks card algorithm (fuel + 1) data previous s =
      (.done (some previous), s) := by
  have hzero : bufferAvailable data = 0 := by
    rw [bufferAvailable_eq h, hend, List.length_nil]
  rw [yubikeyDecipherChunks, if_pos hzero]
  rfl

theorem yubikeyDecipherChunks_chained (card : IfdCard) (algorithm : UInt8)
    {fuel : Nat} {data : Buffer} (h : data.Wf) (previous : Option Buffer)
    (s : Host σ) (hfuel : data.contents.length < fuel) :
    exists calls chunks rest,
      Process.Calls (fun apdu => ifdCardXfer card (some apdu)) s calls
        (yubikeyDecipherChunks card algorithm fuel data previous s).2 ∧
      ChainedCalls card algorithm data.contents previous calls
        (yubikeyDecipherChunks card algorithm fuel data previous s).1 chunks rest ∧
      0xFF * calls.length ≤ data.contents.length + 0xFE := by
  induction fuel generalizing data previous s with
  | zero => exact absurd hfuel (Nat.not_lt_zero _)
  | succ fuel ih =>
      by_cases hend : data.contents = []
      · rw [yubikeyDecipherChunks_end card algorithm fuel h hend, hend]
        exact ⟨[], [], [], Process.Calls.nil s, chainedCalls_nil, Nat.zero_le _⟩
      · have hpos := List.length_pos_iff.mpr hend
        have hlength : 1 ≤ (data.contents.take 0xFF).length ∧
            (data.contents.take 0xFF).length ≤ 0xFF := by
          rw [List.length_take]
          lia
        rcases yubikeyDecipherChunks_round card algorithm fuel h hend previous s with
          ⟨apdu, rest, hround⟩
        rcases hrun : ifdCardXfer card (some apdu) s with ⟨outcome, t⟩
        by_cases hsuccess : CallSucceeded (apdu, outcome)
        · rcases hsuccess with ⟨reply, rfl⟩
          have hshorter : rest.contents.length < fuel := by
            rw [hround.rest_eq, List.length_drop]
            lia
          rcases ih hround.rest_wf (some reply) t hshorter with
            ⟨calls, chunks, left, hcalls, hchained, hcount⟩
          rw [hround.rest_eq] at hchained hcount
          have hcons := hchained.cons previous hlength hround.apdu_wf hround.apdu_eq
          rw [List.take_append_drop] at hcons
          rw [hround.goesOn hrun]
          refine ⟨_, _, _, Process.Calls.returned hrun hcalls, hcons, ?_⟩
          rw [List.length_drop] at hcount
          rw [List.length_cons]
          lia
        · have hfailed := chainedCalls_failed previous hlength hround.apdu_wf
            hround.apdu_eq hsuccess
          rw [List.take_append_drop] at hfailed
          rw [hround.stops hrun hsuccess]
          refine ⟨_, _, _, Process.Calls.single hrun, hfailed, ?_⟩
          rw [List.length_singleton]
          lia

/-!
## What is sent
-/

/-- The instruction byte of an APDU is that of `AUTHENTICATE`. -/
def IsAuthenticate (apdu : List UInt8) : Bool :=
  apdu.getD 1 0 == ykpivInsAuthenticate

omit [Usbfs σ] in
/-- Of a kind that does not ask for the rest of a response, only the first APDU of
an exchange can be. -/
theorem filter_exchange {size : Nat} {first : List UInt8}
    {calls : List ApduCall} {outcome : Outcome (Option (List UInt8 × Nat))}
    {reached : List ReplyApdu} {last : Outcome (Option (List UInt8))}
    (h : CardExchange size [] first calls outcome reached last)
    (kind : List UInt8 -> Bool) (hkind : forall p, kind (getResponseApdu p) = false) :
    (calls.map ApduCall.apdu).filter kind = [first].filter kind := by
  have hrest : (reached.map getResponseApdu).filter kind = [] := by
    rw [List.filter_eq_nil_iff]
    intro apdu hmem
    rcases List.mem_map.mp hmem with ⟨p, _, rfl⟩
    rw [hkind]
    exact Bool.false_ne_true
  rw [h.apdus, ← List.singleton_append, List.filter_append, hrest, List.append_nil]

omit [Usbfs σ] in
theorem isAuthenticate_chunkApdus (card : IfdCard) (algorithm : UInt8)
    (rest : List UInt8) (chunks : List (List UInt8)) {apdu : List UInt8}
    (h : apdu ∈ chunkApdus card algorithm rest chunks) :
    IsAuthenticate apdu = true := by
  induction chunks with
  | nil => cases h
  | cons chunk more ih =>
      cases List.mem_cons.mp h with
      | inl heq =>
          rw [heq]
          rfl
      | inr hmore => exact ih hmore

/-- The chunks that were sent, on their way out. -/
theorem sent_authenticates (card : IfdCard) {s t : Host σ} {calls : List XferCall}
    (h : Process.Calls (fun apdu => ifdCardXfer card (some apdu)) s calls t)
    (hwf : forall call, call ∈ calls -> call.1.Wf)
    (hauth : forall call, call ∈ calls -> IsAuthenticate call.1.contents = true) :
    exists sent,
      Process.Calls (ccidReaderApduXfer card.slot) s sent t ∧
      (sent.map fun call => call.1.contents).filter IsAuthenticate =
        calls.map fun call => call.1.contents := by
  rcases h.refines (ifdCardXfer_made card) hwf with
    ⟨parts, hsent, hparts⟩
  refine ⟨parts.flatten, hsent, ?_⟩
  clear h hwf hsent
  induction hparts with
  | nil => rfl
  | @cons call made calls parts hmade _ ih =>
      rcases hmade with ⟨size, reached, last, hexchange⟩
      have hfirst := filter_exchange hexchange IsAuthenticate fun _ => rfl
      rw [List.map_map, List.filter_cons_of_pos (hauth call List.mem_cons_self),
        List.filter_nil] at hfirst
      have hrest := ih fun other hmem => hauth other (List.mem_cons_of_mem _ hmem)
      rw [List.flatten_cons, List.map_append, List.filter_append, hrest,
        List.map_cons]
      exact congrArg (· ++ _) hfirst

/-- A run of the chunk loop of `yubikey_decipher`: the calls of
`ifd_card_xfer`, what these sent, and what follows from the answers. -/
def SendsChunks (card : IfdCard) (algorithm : UInt8) (data : Buffer)
    (s : Host σ) : Prop :=
  exists calls chunks rest t sent,
    Process.Calls (fun apdu => ifdCardXfer card (some apdu)) s calls t ∧
    Process.Calls (ccidReaderApduXfer card.slot) s sent t ∧
    (sent.map fun call => call.1.contents).filter IsAuthenticate =
      (calls.map fun call => call.1.contents) ∧
    (calls.map fun call => call.1.contents) =
      chunkApdus card algorithm rest chunks ∧
    data.contents = chunks.flatten ++ rest ∧
    (forall chunk, chunk ∈ chunks -> 1 ≤ chunk.length ∧ chunk.length ≤ 0xFF) ∧
    ((forall call, call ∈ calls -> CallSucceeded call) ->
      rest = [] ∧ exists last reply, calls.getLast? = some last ∧
        last.2 = .done (some (reply, ykpivSuccess)) ∧
        yubikeyDecipherArgs card algorithm (some data) s = yubikeyUnwrap reply t) ∧
    forall front call back, calls = front ++ call :: back -> ¬ CallSucceeded call ->
      back = [] ∧
        yubikeyDecipherArgs card algorithm (some data) s =
          (call.2.map fun _ => none, t)

/-- The chunks follow each other without a gap, whatever the device does, and
the first one that does not succeed is the last one. -/
theorem yubikeyDecipherArgs_chains (card : IfdCard) (algorithm : UInt8)
    {data : Buffer} (h : data.Wf) (hne : data.contents ≠ []) (s : Host σ) :
    SendsChunks card algorithm data s := by
  rcases yubikeyDecipherChunks_chained card algorithm h none s
    (Nat.lt_succ_self data.contents.length) with
    ⟨calls, chunks, rest, hcalls, hchained, _⟩
  rcases sent_authenticates card hcalls hchained.proper (by
    intro call hmem
    apply isAuthenticate_chunkApdus card algorithm rest chunks
    rw [← hchained.apdus]
    exact List.mem_map_of_mem hmem) with ⟨sent, hsent, hfilter⟩
  refine ⟨calls, chunks, rest, _, sent, hcalls, hsent, hfilter, hchained.apdus,
    hchained.data_eq, hchained.lengths, ?_, ?_⟩
  · intro hall
    refine ⟨hchained.succeeded hall, ?_⟩
    cases hlast : calls.getLast? with
    | none =>
        -- without a call there is nothing to send
        have hnil := List.getLast?_eq_none_iff.mp hlast
        have hapdus := hchained.apdus
        have hdata := hchained.data_eq
        rw [hchained.succeeded hall, List.append_nil] at hdata
        rw [hnil, List.map_nil] at hapdus
        cases hchunks : chunks with
        | nil =>
            rw [hchunks] at hdata
            exact absurd hdata hne
        | cons chunk more =>
            rw [hchunks] at hapdus
            cases hapdus
    | some last =>
        rcases hall last (List.mem_of_getLast? hlast) with ⟨reply, hreply⟩
        refine ⟨last, reply, rfl, hreply, ?_⟩
        have hrun := hchained.returned last reply hlast hreply
        rw [yubikeyDecipherArgs, bufferAvailable_eq h, Process.bind_apply]
        rcases hchunks : yubikeyDecipherChunks card algorithm
          (data.contents.length + 1) data none s with ⟨outcome, t⟩
        rw [hchunks] at hrun
        simp only at hrun
        rw [hrun]
  · intro front call back hsplit hfail
    rcases hchained.failed front call back hsplit hfail with ⟨hlast, hrun⟩
    refine ⟨hlast, ?_⟩
    rw [yubikeyDecipherArgs, bufferAvailable_eq h, Process.bind_apply]
    rcases hchunks : yubikeyDecipherChunks card algorithm
      (data.contents.length + 1) data none s with ⟨outcome, t⟩
    rw [hchunks] at hrun
    simp only at hrun
    rw [hrun]
    cases call.2 <;> rfl

end

/-- A card that takes the first chunk and answers the second one. -/
def twoChunkHost : Host Script where
  usb := { answers := [.response ccidRespData [0x90, 0x00],
    .response ccidRespData [0x7c, 0x00, 0x90, 0x00]] }
  reader := { maxMessageSize := 272 }

theorem yubikeyDecipherArgs_chains_twoChunks :
    SendsChunks anyCard ykpivAlgoRsa2048 (bufferInitRead (List.replicate 266 0x55))
        twoChunkHost ∧
      (yubikeyDecipherArgs anyCard ykpivAlgoRsa2048
        (some (bufferInitRead (List.replicate 266 0x55))) twoChunkHost).2.log.length = 4 :=
  ⟨yubikeyDecipherArgs_chains anyCard ykpivAlgoRsa2048
      (bufferInitRead_wf (by rw [List.length_replicate]; decide))
      (by
        rw [bufferInitRead_contents (by rw [List.length_replicate]; decide)]
        exact List.cons_ne_nil _ _) twoChunkHost, by decide +kernel⟩

end UtokenDecrypt
