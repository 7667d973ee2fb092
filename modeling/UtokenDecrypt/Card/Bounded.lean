import UtokenDecrypt.Card.Ready
import UtokenDecrypt.Card.Rules
import UtokenDecrypt.Ccid.Debug
import UtokenDecrypt.Foundation.Hangs
import UtokenDecrypt.Usb.Script

/-!
# Bounded runs

No loop of the program goes on for ever, whatever the device does, with one
exception: the loop of `hexdump`, whose index wraps.  A packet is too short for
that, and so is a message, so it is the ciphertext that decides: all runs with one
that is not too long end, after a number of commands that is bounded by the room in
a receive buffer.
-/

namespace UtokenDecrypt

open Foundation
open Usb

/-!
## Dumps that do not end
-/

/-- All bytes are there, and the index wraps before it gets to the last one. -/
def Dump.Endless (d : Dump) : Prop :=
  2 ^ 32 - 32 < d.size ∧ d.size ≤ d.mem.length

section

variable {σ : Type} {α : Type}

/-- A process that does not return exactly when it starts an endless dump. -/
def HangsInDump (proc : Process (Host σ) α) : Prop :=
  Process.HangsBy Host.dumps Dump.Endless proc

theorem hangsInDump_dump (mem : List UInt8) {size : Nat} (h : size < 2 ^ 32) :
    HangsInDump (σ := σ) (dump mem size) := by
  intro s
  refine ⟨[{ mem := mem, size := size }], rfl, ?_⟩
  rw [dump, hexdump_eq h]
  constructor
  · intro hhang
    refine ⟨_, List.mem_singleton_self _, ?_⟩
    unfold Dump.Endless
    dsimp only at hhang ⊢
    split_ifs at hhang
    lia
  · rintro ⟨d, hmem, hendless⟩
    rw [List.mem_singleton.mp hmem] at hendless
    unfold Dump.Endless at hendless
    rw [if_pos hendless.2, if_neg (by lia)]

theorem hangsInDump_whenDebug2 {action : Process (Host σ) Unit}
    (h : HangsInDump action) : HangsInDump (whenDebug2 action) := by
  intro s
  unfold whenDebug2
  split
  · exact h s
  · exact .ended rfl fun hhang => by cases hhang

theorem hangsInDump_ccidDumpResponse (pkt : Buffer) :
    HangsInDump (σ := σ) (ccidDumpResponse pkt) := by
  unfold ccidDumpResponse
  split
  · exact .pure ()
  · exact hangsInDump_dump _ (wrap32_lt _)

/-!
## The reader
-/

variable [Usbfs σ]

theorem hangsInDump_ccidXferLoop (cmd : CcidCommand) (expected : UInt8) (count : Nat) :
    HangsInDump (σ := σ) (ccidXferLoop cmd expected count) := by
  induction count with
  | zero => exact .pure none
  | succ count ih =>
      refine Process.HangsBy.read.bind fun s => ?_
      refine Process.HangsBy.bind (.ended fun t => ⟨rfl, fun hhang => by cases hhang⟩) ?_
      intro rbuf
      cases rbuf with
      | none => exact .pure none
      | some rbuf =>
          refine (hangsInDump_whenDebug2 (hangsInDump_ccidDumpResponse rbuf)).bind ?_
          intro _
          unfold ccidXferAnswer
          split
          · exact .crash
          · split
            · dsimp only
              split_ifs
              · exact .pure none
              · exact .pure _
              · exact ih
              · exact .pure none
            · exact ih

theorem hangsInDump_ccidXferBuilt (cmd : Option CcidCommand) (expected : UInt8) :
    HangsInDump (σ := σ) (ccidXferBuilt cmd expected) := by
  cases cmd with
  | none => exact .pure none
  | some cmd =>
      refine (hangsInDump_whenDebug2 (hangsInDump_dump _ (wrap32_lt _))).bind fun _ => ?_
      refine Process.HangsBy.bind (.ended fun t => ⟨rfl, fun hhang => by cases hhang⟩) ?_
      intro rv
      cases rv with
      | false => exact .pure none
      | true =>
          refine Process.HangsBy.bind (.update fun _ => rfl) fun _ => ?_
          exact hangsInDump_ccidXferLoop cmd expected 6

theorem hangsInDump_ccidReaderApduXfer (slot : Nat) (apdu : Buffer) :
    HangsInDump (σ := σ) (ccidReaderApduXfer slot apdu) :=
  Process.HangsBy.read.bind fun _ =>
    (hangsInDump_ccidXferBuilt _ _).bind fun _ => .pure _

theorem hangsInDump_ccidReaderCreate :
    HangsInDump (ccidReaderCreate (σ := σ)) := by
  intro s
  rcases ccidReaderCreate_ensures s with ⟨⟨created, hdone⟩, _, hdumps⟩
  refine .ended hdumps ?_
  rw [hdone]
  exact fun hhang => by cases hhang

theorem hangsInDump_runRules : RunRules (σ := σ) HangsInDump where
  pure := .pure
  bind := .bind
  read := .read
  reader := fun _ => .update fun _ => rfl
  create := hangsInDump_ccidReaderCreate
  xfer := fun cmd expected _ _ => hangsInDump_ccidXferBuilt (some cmd) expected

/-!
## The card
-/

omit [Usbfs σ] in
/-- An exchange does not return when one of its replies does not. -/
theorem CardExchange.hang_iff {size : Nat} {prior : List ReplyApdu} {first : List UInt8}
    {calls : List ApduCall} {outcome : Outcome (Option (List UInt8 × Nat))}
    {reached : List ReplyApdu} {last : Outcome (Option (List UInt8))}
    (h : CardExchange size prior first calls outcome reached last) :
    outcome = .hang ↔ exists call, call ∈ calls ∧ call.reply = .hang := by
  have hlast : outcome = .hang ↔ last = .hang := by
    cases h.ends with
    | hung => exact iff_of_true rfl rfl
    | finished _ _ => exact iff_of_false (fun hbad => by cases hbad) fun hbad => by cases hbad
    | refused _ => exact iff_of_false (fun hbad => by cases hbad) fun hbad => by cases hbad
    | crashed => exact iff_of_false (fun hbad => by cases hbad) fun hbad => by cases hbad
  have hmem : (exists call, call ∈ calls ∧ call.reply = .hang) ↔
      Outcome.hang ∈ calls.map ApduCall.reply := List.mem_map.symm
  rw [hlast, hmem, h.replies, List.mem_append, List.mem_singleton]
  constructor
  · exact fun hhang => Or.inr hhang.symm
  · intro hin
    cases hin with
    | inl hreached =>
        rcases List.mem_map.mp hreached with ⟨p, _, hbad⟩
        cases hbad
    | inr hhang => exact hhang.symm

theorem hangsInDump_ifdCardXfer (card : IfdCard) {apdu : Buffer} (h : apdu.Wf) :
    HangsInDump (σ := σ) (ifdCardXfer card (some apdu)) := by
  intro s
  rcases (ifdCardXfer_runs card h s).exchange with
    ⟨calls, reached, last, hcalls, _, hexchange⟩
  rcases hcalls.hangs (fun _ => True)
    (fun arg _ => hangsInDump_ccidReaderApduXfer card.slot arg) (fun _ _ => trivial) with
    ⟨added, hadded, hiff⟩
  refine ⟨added, hadded, Iff.trans ?_ hiff⟩
  rw [← Outcome.map_hang_iff _ (Option.map fun result => (result.1.contents, result.2))]
  refine hexchange.hang_iff.trans ?_
  constructor
  · rintro ⟨round, hmem, hhang⟩
    rcases List.mem_map.mp hmem with ⟨call, hcall, rfl⟩
    exact ⟨call, hcall, (Outcome.map_hang_iff _ _).mp hhang⟩
  · rintro ⟨call, hmem, hhang⟩
    exact ⟨_, List.mem_map_of_mem hmem, (Outcome.map_hang_iff _ _).mpr hhang⟩

theorem hangsInDump_cardRules : CardRules (σ := σ) HangsInDump where
  toRunRules := hangsInDump_runRules
  cardXfer := fun card _ hwf _ => hangsInDump_ifdCardXfer card hwf

/-!
## Deciphering
-/

omit [Usbfs σ] in
/-- The loop over the chunks does not return when one of its calls does not. -/
theorem ChainedCalls.hang_iff {card : IfdCard} {algorithm : UInt8}
    {data rest : List UInt8} {previous : Option Buffer} {calls : List XferCall}
    {outcome : Outcome (Option (Option Buffer))} {chunks : List (List UInt8)}
    (h : ChainedCalls card algorithm data previous calls outcome chunks rest) :
    outcome = .hang ↔ exists call, call ∈ calls ∧ call.2 = .hang := by
  have hfailed : forall call, call ∈ calls -> ¬ CallSucceeded call ->
      outcome = call.2.map fun _ => none := by
    intro call hmem hfail
    rcases List.append_of_mem hmem with ⟨front, back, hsplit⟩
    exact (h.failed front call back hsplit hfail).2
  constructor
  · intro hhang
    by_contra hnone
    have hall : forall call, call ∈ calls -> CallSucceeded call := by
      intro call hmem
      by_contra hfail
      have hmap := hfailed call hmem hfail
      rw [hhang] at hmap
      exact hnone ⟨call, hmem, (Outcome.map_hang_iff _ _).mp hmap.symm⟩
    have hdone : exists value, outcome = .done value := by
      rcases List.eq_nil_or_concat calls with hnil | ⟨front, last, hlast⟩
      · exact ⟨_, h.nothing hnil⟩
      · rw [List.concat_eq_append] at hlast
        have hmem : last ∈ calls := by
          rw [hlast]
          exact List.mem_append_right front (List.mem_singleton_self last)
        have hgetLast : calls.getLast? = some last := by
          rw [hlast]
          exact List.getLast?_concat
        rcases hall last hmem with ⟨reply, hreply⟩
        exact ⟨_, h.returned last reply hgetLast hreply⟩
    rcases hdone with ⟨value, hvalue⟩
    rw [hhang] at hvalue
    cases hvalue
  · rintro ⟨call, hmem, hhang⟩
    have hmap := hfailed call hmem (by
      rintro ⟨reply, hreply⟩
      rw [hhang] at hreply
      cases hreply)
    rw [hmap, hhang, Outcome.map_hang]

theorem hangsInDump_yubikeyDecipherChunks (card : IfdCard) (algorithm : UInt8)
    {data : Buffer} (h : data.Wf) :
    HangsInDump (σ := σ)
      (yubikeyDecipherChunks card algorithm (bufferAvailable data + 1) data none) := by
  intro s
  rw [bufferAvailable_eq h]
  rcases yubikeyDecipherChunks_chained card algorithm h none s
    (Nat.lt_succ_self data.contents.length) with
    ⟨calls, chunks, rest, hcalls, hchained, _⟩
  rcases hcalls.hangs (fun apdu => apdu.Wf)
    (fun apdu hwf => hangsInDump_ifdCardXfer card hwf) hchained.proper with
    ⟨added, hadded, hiff⟩
  exact ⟨added, hadded, hchained.hang_iff.trans hiff⟩

omit [Usbfs σ] in
theorem hangsInDump_yubikeyUnwrap (rapdu : Buffer) :
    HangsInDump (σ := σ) (yubikeyUnwrap rapdu) := by
  refine (Process.HangsBy.peek _ _).bind fun decoded => ?_
  rcases decoded with ⟨okay, padded⟩
  cases okay with
  | false => exact .pure none
  | true =>
      refine (Process.HangsBy.peek _ _).bind fun removed => ?_
      rcases removed with ⟨okay, cleartext⟩
      cases okay with
      | false => exact .pure none
      | true =>
          exact (hangsInDump_dump _ (wrap32_lt _)).bind fun _ => .pure _

theorem hangsInDump_yubikeyDecipher (card : IfdCard) (ciphertext : Buffer) :
    HangsInDump (σ := σ) (yubikeyDecipher card ciphertext) := by
  refine (hangsInDump_whenDebug2 (hangsInDump_dump _ (wrap32_lt _))).bind fun _ => ?_
  cases halgorithm : yubikeyAlgorithm (bufferAvailable ciphertext) with
  | none => exact .pure none
  | some algorithm =>
      rcases yubikeyEncodeDecipherArgs_eq
          (Nat.le_trans (yubikeyAlgorithm_length halgorithm) (by decide)) with
        ⟨data, hdata, hwf, _⟩
      rw [hdata]
      refine (hangsInDump_yubikeyDecipherChunks card algorithm hwf).bind fun sent => ?_
      cases sent with
      | none => exact .pure none
      | some rapdu =>
          cases rapdu with
          | none => exact .crash
          | some rapdu => exact hangsInDump_yubikeyUnwrap rapdu

/-!
## The whole run
-/

theorem hangsInDump_doit (pin : Option CString) (ciphertext : Buffer)
    (cardopts : List CString) :
    HangsInDump (σ := σ) (doit pin ciphertext cardopts) := by
  rw [doit_eq]
  exact hangsInDump_cardRules.thenSome (hangsInDump_cardRules.verified pin cardopts)
    fun card => hangsInDump_yubikeyDecipher card ciphertext

/-!
## Runs that end
-/

omit [Usbfs σ] in
theorem dump_hang_iff (mem : List UInt8) {size : Nat} (h : size < 2 ^ 32) (s : Host σ) :
    (dump mem size s).1 = .hang ↔ Dump.Endless { mem := mem, size := size } := by
  rcases hangsInDump_dump mem h s with ⟨dumps, hdumps, hiff⟩
  have hadded : dumps = [{ mem := mem, size := size }] :=
    (List.append_cancel_left hdumps).symm
  rw [hiff, hadded]
  simp only [List.mem_singleton, exists_eq_left]

omit [Usbfs σ] in
theorem whenDebug2_dump_endless_iff (mem : List UInt8) {size : Nat} (h : size < 2 ^ 32)
    (s : Host σ) :
    (whenDebug2 (dump mem size) s).1 = .hang ↔
      1 < s.optDebug ∧ Dump.Endless { mem := mem, size := size } := by
  unfold whenDebug2
  split
  · rename_i hloud
    exact (dump_hang_iff mem h s).trans (and_iff_right hloud).symm
  · rename_i hquiet
    exact iff_of_false (fun hbad => by cases hbad) fun hboth => hquiet hboth.1

theorem ccidXfer_ends (cmd : CcidCommand) (expected : UInt8) (h : cmd.pkt.Wf)
    (hshort : cmd.pkt.contents.length ≤ 270) :
    Process.Ends (ccidXfer (σ := σ) cmd expected) := by
  intro s
  rcases ccidXfer_cases cmd expected h s with ⟨dumps, hrun⟩
  rw [hrun, if_pos (Or.inr (by lia))]
  split
  · exact ccidXferLoop_ends cmd expected 6 _
  · exact fun hbad => by cases hbad

theorem ends_runRules : RunRules (σ := σ) Process.Ends where
  pure := .pure
  bind := .bind
  read := .read
  reader := fun _ => .update _
  create := .returns fun s => (ccidReaderCreate_ensures s).1
  xfer := ccidXfer_ends

/-- Whatever the card answers, the loop over `61xx` ends. -/
theorem ifdCardXfer_ends (card : IfdCard) {apdu : Buffer} (h : apdu.Wf)
    (hshort : apdu.contents.length ≤ 260) :
    Process.Ends (ifdCardXfer (σ := σ) card (some apdu)) := by
  intro s hhang
  rcases (ifdCardXfer_runs card h s).exchange with
    ⟨calls, reached, last, hcalls, hproper, hexchange⟩
  have hnone := hcalls.ends fun call hmem => by
    have hround : (ApduCall.of call).apdu.length ≤ 260 := by
      rcases hexchange.round_cases (List.mem_map_of_mem hmem) with heq | ⟨p, _, heq⟩
      · rw [heq]
        exact hshort
      · rw [heq, getResponseApdu_length]
        decide
    exact ends_runRules.ccidReaderApduXfer card.slot (hproper call hmem).apdu hround
  have hlast : (ifdCardXfer card (some apdu) s).1.map
      (Option.map fun result => (result.1.contents, result.2)) = .hang := by
    rw [hhang]
    rfl
  rcases hexchange.hang_iff.mp hlast with ⟨round, hmem, hround⟩
  rcases List.mem_map.mp hmem with ⟨call, hcall, rfl⟩
  exact hnone call hcall ((Outcome.map_hang_iff _ _).mp hround)

theorem ends_cardRules : CardRules (σ := σ) Process.Ends where
  toRunRules := ends_runRules
  cardXfer := fun card _ hwf hshort => ifdCardXfer_ends card hwf hshort

theorem yubikeyDecipherChunks_ends (card : IfdCard) (algorithm : UInt8) {data : Buffer}
    (h : data.Wf) :
    Process.Ends
      (yubikeyDecipherChunks (σ := σ) card algorithm (bufferAvailable data + 1) data none) := by
  intro s hhang
  rw [bufferAvailable_eq h] at hhang
  rcases yubikeyDecipherChunks_chained card algorithm h none s
    (Nat.lt_succ_self data.contents.length) with
    ⟨calls, chunks, rest, hcalls, hchained, _⟩
  rcases hchained.hang_iff.mp hhang with ⟨call, hmem, hcall⟩
  refine hcalls.ends (fun call hmem => ?_) call hmem hcall
  refine ifdCardXfer_ends card (hchained.proper call hmem) ?_
  have hsent : call.1.contents ∈ chunkApdus card algorithm rest chunks := by
    rw [← hchained.apdus]
    exact List.mem_map_of_mem hmem
  exact chunkApdus_length hchained.lengths hsent

omit [Usbfs σ] in
/-- What is left of a reply is in a receive buffer, which is too small for an endless
dump. -/
theorem yubikeyUnwrap_ends {size : Nat} {rapdu : Buffer} (h : IsReply size rapdu) (s : Host σ) :
    (yubikeyUnwrap rapdu s).1 ≠ .hang := by
  intro hhang
  have hmem := memoryShows_data h.wf
  rcases Process.bind_hang_iff.mp hhang with hpeek | ⟨⟨okay, padded⟩, t, hdecoded, hdecode⟩
  · exact Process.Ends.peek _ _ s hpeek
  cases okay with
  | false => cases hdecode
  | true =>
      have hvalue := (peek_value _ _ s (true, padded) (congrArg Prod.fst hdecoded)).symm
      have hskipped := onlySkipped_of_decode h.wf hmem hvalue
      have hpaddedWf := hskipped.wf h.wf
      rcases hskipped with ⟨count, hcount, rfl⟩
      rcases Process.bind_hang_iff.mp hdecode with
        hpeek | ⟨⟨okay, cleartext⟩, u, hremoved, hremove⟩
      · exact Process.Ends.peek _ _ t hpeek
      cases okay with
      | false => cases hremove
      | true =>
          have hfound := (peek_value _ _ t (true, cleartext)
            (congrArg Prod.fst hremoved)).symm
          rcases (pkcs1Type2PaddingRemove_eq_true_iff hpaddedWf
            (memoryShows_data hpaddedWf)).mp hfound with ⟨message, _, rfl⟩
          rcases Process.bind_hang_iff.mp hremove with hdump | ⟨_, v, _, hbad⟩
          · have hendless := (dump_hang_iff _ (wrap32_lt _) u).mp hdump
            have hroom : rapdu.data.length < 2 ^ 31 := by
              rw [h.wf.length_eq, h.size_eq]
              exact h.small
            unfold Dump.Endless bufferReadPointer at hendless
            simp only [List.length_drop] at hendless
            lia
          · cases hbad

theorem yubikeyReply_hang_iff (card : IfdCard) (ciphertext : Buffer) (s : Host σ) :
    (yubikeyReply card ciphertext s).1 = .hang ↔ 1 < s.optDebug ∧ Dump.Endless {
      mem := bufferReadPointer ciphertext, size := bufferAvailable ciphertext } := by
  have hlt : bufferAvailable ciphertext < 2 ^ 32 := wrap32_lt _
  rw [← whenDebug2_dump_endless_iff (bufferReadPointer ciphertext) hlt s, yubikeyReply]
  refine Process.bind_hang_iff.trans (or_iff_left ?_)
  rintro ⟨_, t, _, hhang⟩
  cases halgorithm : yubikeyAlgorithm (bufferAvailable ciphertext) with
  | none =>
      rw [halgorithm] at hhang
      cases hhang
  | some algorithm =>
      rcases yubikeyEncodeDecipherArgs_eq
          (Nat.le_trans (yubikeyAlgorithm_length halgorithm) (by decide)) with
        ⟨data, hdata, hwf, _⟩
      rw [halgorithm, hdata] at hhang
      refine Process.Ends.bind (yubikeyDecipherChunks_ends card algorithm hwf) (fun sent => ?_)
        t hhang
      cases sent with
      | none => exact .pure none
      | some rapdu =>
          cases rapdu with
          | none => exact .crash
          | some rapdu => exact .pure _

/-- The dump of the ciphertext is the only one that may not end. -/
theorem yubikeyDecipher_hang_iff (card : IfdCard) (ciphertext : Buffer) (s : Host σ) :
    (yubikeyDecipher card ciphertext s).1 = .hang ↔ 1 < s.optDebug ∧ Dump.Endless {
      mem := bufferReadPointer ciphertext, size := bufferAvailable ciphertext } := by
  rw [yubikeyDecipher_eq, ← yubikeyReply_hang_iff card ciphertext s]
  refine Process.bind_hang_iff.trans (or_iff_left ?_)
  rintro ⟨got, t, hreply, hhang⟩
  cases got with
  | none => cases hhang
  | some rapdu =>
      have hisReply := (yubikeyReply_isReply card ciphertext s).known.2 rapdu
        (congrArg Prod.fst hreply)
      exact yubikeyUnwrap_ends hisReply t hhang

/-- The debug level is an option of the program, and stays as it is. -/
theorem keepsDebug_runRelation (ciphertext : Buffer) :
    RunRelation ciphertext fun s t : Host σ => t.optDebug = s.optDebug where
  closed := .same Host.optDebug
  select := fun hsame => hsame.optDebug
  reader := fun _ _ => rfl
  xfer := by
    intro cmd expected hwf s
    rcases ccidXfer_ensures cmd expected hwf s with
      ⟨_, _, dumps, hsame⟩ | ⟨rv, answers, hexchanged⟩
    · rw [hsame]
    · exact hexchanged.optDebug
  ciphertext := by
    intro s
    rcases whenDebug2_dump (bufferReadPointer ciphertext) (bufferAvailable ciphertext) s with
      ⟨dumps, hdumps⟩
    rw [hdumps]

/-- A run does not end exactly if it gets to the ciphertext, and the dump of that does
not. -/
theorem doit_hang_iff (pin : Option CString) (ciphertext : Buffer) (cardopts : List CString)
    (s : Host σ) :
    (doit pin ciphertext cardopts s).1 = .hang ↔
      (exists card t, ((doitConnect cardopts).thenSome (doitVerify pin)) s =
        (.done (some card), t)) ∧ 1 < s.optDebug ∧ Dump.Endless {
          mem := bufferReadPointer ciphertext, size := bufferAvailable ciphertext } := by
  have hkeeps := (keepsDebug_runRelation ciphertext).cardRules.verified pin cardopts s
  rw [doit_eq]
  refine Process.bind_hang_iff.trans ⟨?_, ?_⟩
  · rintro (hbad | ⟨got, t, hverified, hhang⟩)
    · exact absurd hbad (ends_cardRules.verified pin cardopts s)
    · cases got with
      | none => cases hhang
      | some card =>
          have hdump := (yubikeyDecipher_hang_iff card ciphertext t).mp hhang
          rw [hverified] at hkeeps
          rw [hkeeps] at hdump
          exact ⟨⟨card, t, hverified⟩, hdump⟩
  · rintro ⟨⟨card, t, hverified⟩, hdump⟩
    rw [hverified] at hkeeps
    rw [← hkeeps] at hdump
    exact Or.inr ⟨some card, t, hverified,
      (yubikeyDecipher_hang_iff card ciphertext t).mpr hdump⟩

/-!
## Counting
-/

omit [Usbfs σ] in
/-- Every part behind the first one has at least one byte. -/
theorem length_le_of_chain {p : ReplyApdu} {rest : List ReplyApdu}
    (h : (p :: rest).IsChain fun p q => p.sw1 = 0x61 ∧ q.body.length = p.advertised) :
    rest.length ≤ (rest.flatMap ReplyApdu.body).length := by
  induction rest generalizing p with
  | nil => exact Nat.le_refl 0
  | cons q rest ih =>
      rcases List.isChain_cons_cons.mp h with ⟨⟨_, hlength⟩, hrest⟩
      have hpos := p.advertised_pos
      have hle := ih hrest
      rw [List.flatMap_cons, List.length_append, List.length_cons]
      lia

omit [Usbfs σ] in
/-- The room in the first reply's buffer bounds the number of APDUs. -/
theorem CardXfer.Made.length_le {size : Nat} {x : CardXfer} (h : x.Made size) :
    x.rounds.length ≤ size + 1 := by
  rcases h with ⟨reached, last, hexchange⟩
  have hcount := congrArg List.length hexchange.apdus
  rw [List.length_map, List.length_cons, List.length_map] at hcount
  rw [hcount]
  cases hreached : reached with
  | nil => exact Nat.succ_le_succ (Nat.zero_le size)
  | cons p rest =>
      have hjoined := hexchange.joined (by rw [hreached]; exact List.cons_ne_nil _ _)
      rw [List.nil_append, hreached] at hjoined
      have hle := length_le_of_chain hjoined.chain
      have hfits := hjoined.fits
      rw [List.flatMap_cons, List.length_append] at hfits
      rw [List.length_cons]
      lia

omit [Usbfs σ] in
theorem cardRounds_length_le {size : Nat} {xs : List CardXfer}
    (h : forall x, x ∈ xs -> x.Made size) :
    (cardRounds xs).length ≤ xs.length * (size + 1) := by
  induction xs with
  | nil => exact Nat.zero_le _
  | cons x xs ih =>
      have hfirst := (h x List.mem_cons_self).length_le
      have hrest := ih fun y hmem => h y (List.mem_cons_of_mem _ hmem)
      rw [cardRounds, List.flatMap_cons, List.length_append, List.length_cons,
        Nat.succ_mul, Nat.add_comm]
      exact Nat.add_le_add hrest hfirst

/-- At most five commands to set up, and five exchanges behind them. -/
theorem RunsAs.adds {pin : Option CString} {s t : Host σ} (h : RunsAs pin s t) :
    exists sent, s.Adds t sent ∧
      sent.length ≤ 5 + 5 * (capacity t.reader.maxMessageSize + 1) := by
  rcases h with ⟨start, connect, verify, decipher, hsetup, hxs, hparts⟩
  rcases hsetup with ⟨first, hfirst, hle, _⟩
  rcases hxs.adds with ⟨second, hsecond, hapdus⟩
  refine ⟨first ++ second, hfirst.append hsecond, ?_⟩
  have hcount := congrArg List.length hapdus
  rw [List.length_map, List.length_map] at hcount
  have hrounds := cardRounds_length_le hxs.made
  have hfive : (connect ++ (verify ++ decipher)).length ≤ 5 := by
    have hconnect := hparts.connect_le
    have hverify := hparts.use.verify_le
    have hdecipher := hparts.use.decipher_le
    rw [List.length_append, List.length_append]
    lia
  rw [List.length_append, hcount]
  exact Nat.add_le_add hle (Nat.le_trans hrounds (Nat.mul_le_mul_right _ hfive))

end

end UtokenDecrypt
