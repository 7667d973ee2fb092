import UtokenDecrypt.Card.Bounded
import UtokenDecrypt.Card.Result
import UtokenDecrypt.Card.Rules
import UtokenDecrypt.Foundation.Crashes

/-!
# What a run crashes on

`ccid_xfer` goes on with a response that `ccid_response_create` could not make.  Nothing
else in a run is a fault, whatever the device answers: a run that ends has crashed
exactly when it has received a truncated packet.
-/

namespace UtokenDecrypt

open Foundation
open Usb

/-- A packet has been received that has no header, or less payload than the header
declares. -/
def Event.Truncated : Event -> Prop
  | .send _ _ => False
  | .recv packet => exists bytes, packet = some bytes ∧ ¬ CcidWellFormed bytes

theorem Event.not_truncated_none : ¬ (Event.recv none).Truncated := by
  rintro ⟨bytes, hbytes, _⟩
  cases hbytes

theorem Event.not_truncated_whole {packet : List UInt8} (h : CcidWellFormed packet) :
    ¬ (Event.recv (some packet)).Truncated := by
  rintro ⟨bytes, hbytes, hbad⟩
  injection hbytes with hbytes
  rw [← hbytes] at hbad
  exact hbad h

section

variable {σ α : Type}

/-- A process for which nothing is a fault but a truncated packet. -/
def CrashesOnPacket (proc : Process (Host σ) α) : Prop :=
  Process.CrashesBy Host.log Event.Truncated proc

theorem crashesOnPacket_whenDebug2 {action : Process (Host σ) Unit}
    (h : CrashesOnPacket action) : CrashesOnPacket (whenDebug2 action) := by
  intro s
  unfold whenDebug2
  split
  · exact h s
  · exact .nothing rfl fun hbad => by cases hbad

/-- The dump of a buffer stays inside of it. -/
theorem crashesOnPacket_dump {bp : Buffer} (h : bp.Wf) :
    CrashesOnPacket (σ := σ) (dump (bufferReadPointer bp) (bufferAvailable bp)) := by
  intro s
  refine .nothing rfl ?_
  rw [bufferAvailable_eq h, dump, hexdump_eq h.contents_lt, if_pos (contents_length_le h)]
  dsimp only
  split_ifs
  · exact fun hbad => by cases hbad
  · exact fun hbad => by cases hbad

/-!
## The reader
-/

variable [Usbfs σ]

theorem crashesOnPacket_ccidXferLoop (cmd : CcidCommand) (expected : UInt8) (count : Nat) :
    CrashesOnPacket (σ := σ) (ccidXferLoop cmd expected count) := by
  induction count with
  | zero => exact .pure none
  | succ count ih =>
      intro s
      rcases hrecv : uusbRecvBulk s.dev s.reader.maxMessageSize s.usb with ⟨answer, usb⟩
      cases answer with
      | none =>
          rw [ccidXferLoop_none count hrecv]
          exact .behind (t := s.received none usb) rfl Event.not_truncated_none
            (.nothing rfl fun hbad => by cases hbad)
      | some packet =>
          by_cases hwhole : CcidWellFormed packet
          · rcases ccidXferLoop_whole cmd expected count hrecv hwhole with ⟨dumps, hround⟩
            rw [hround]
            refine .behind (t := { s.received (some packet) usb with dumps := dumps }) rfl
              (Event.not_truncated_whole hwhole) ?_
            cases ccidVerdict cmd expected packet with
            | skip => exact ih _
            | accept => exact Process.CrashesBy.pure _ _
            | reject => exact Process.CrashesBy.pure _ _
          · rcases ccidXferLoop_truncated cmd expected count hrecv hwhole with
              ⟨dumps, hround⟩
            rw [hround]
            exact .stopped (x := .recv (some packet)) rfl ⟨packet, rfl, hwhole⟩ rfl

theorem crashesOnPacket_uusbSend {pkt : Buffer} (h : pkt.Wf) :
    CrashesOnPacket (σ := σ) (uusbSend pkt) := by
  intro s
  rw [uusbSend_apply h]
  exact .behind (x := .send pkt.contents (uusbSendBulk s.dev pkt s.usb).1)
    (t := s.sent pkt.contents _ (uusbSendBulk s.dev pkt s.usb).2) rfl (fun hbad => hbad)
    (.nothing rfl fun hbad => by cases hbad)

theorem crashesOnPacket_ccidXfer (cmd : CcidCommand) (expected : UInt8)
    (h : cmd.pkt.Wf) : CrashesOnPacket (σ := σ) (ccidXfer cmd expected) := by
  refine (crashesOnPacket_whenDebug2 (crashesOnPacket_dump h)).bind fun _ => ?_
  refine (crashesOnPacket_uusbSend h).bind fun rv => ?_
  cases rv with
  | false => exact .pure none
  | true =>
      exact Process.CrashesBy.bind (.update fun _ => rfl) fun _ =>
        crashesOnPacket_ccidXferLoop cmd expected 6

theorem crashesOnPacket_ccidReaderCreate :
    CrashesOnPacket (ccidReaderCreate (σ := σ)) := by
  intro s
  rcases ccidReaderCreate_ensures s with ⟨⟨created, hdone⟩, hlog, _⟩
  refine .nothing hlog ?_
  rw [hdone]
  exact fun hbad => by cases hbad

/-- The rules leave runs without an end alone. -/
theorem crashesOnPacket_cardRules : CardRules (σ := σ) CrashesOnPacket :=
  RunRules.cardRules {
    pure := .pure
    bind := .bind
    read := .read
    reader := fun _ => .update fun _ => rfl
    create := crashesOnPacket_ccidReaderCreate
    xfer := fun cmd expected hwf _ => crashesOnPacket_ccidXfer cmd expected hwf } .hang

/-!
## Deciphering
-/

/-- There is a response, if there is anything to send. -/
theorem yubikeyDecipherChunks_response (card : IfdCard) (algorithm : UInt8) (fuel : Nat)
    (data : Buffer) (rapdu : Option Buffer) (h : rapdu = none -> bufferAvailable data ≠ 0)
    (s : Host σ) :
    (yubikeyDecipherChunks card algorithm fuel data rapdu).Ensures s fun outcome _ =>
      outcome ≠ .done (some none) := by
  induction fuel generalizing data rapdu s with
  | zero => exact fun hbad => by cases hbad
  | succ fuel ih =>
      rw [yubikeyDecipherChunks]
      split
      · rename_i hempty
        cases rapdu with
        | none => exact absurd hempty (h rfl)
        | some rapdu => exact fun hbad => by cases hbad
      · dsimp only
        generalize (ifdCardXfer card _ : Process (Host σ) _) = xfer
        have hxfer : xfer.Ensures s fun _ _ => True := trivial
        refine hxfer.bind ?_ (fun _ _ hbad => by cases hbad) (fun _ _ hbad => by cases hbad)
        intro got t _
        cases got with
        | none => exact fun hbad => by cases hbad
        | some got =>
            dsimp only
            split
            · exact ih _ _ (fun hbad => by cases hbad) t
            · exact fun hbad => by cases hbad

theorem crashesOnPacket_yubikeyReply (card : IfdCard) {ciphertext : Buffer}
    (h : ciphertext.Wf) :
    CrashesOnPacket (σ := σ) (yubikeyReply card ciphertext) := by
  refine crashesOnPacket_cardRules.yubikeyReply card
    (crashesOnPacket_whenDebug2 (crashesOnPacket_dump h)) ?_
  intro algorithm data hwf hsome s
  refine Process.CrashesHere.bind
    (crashesOnPacket_cardRules.yubikeyDecipherChunks .hang card algorithm _ hwf none s) ?_
  intro sent t hrun
  cases sent with
  | none => exact Process.CrashesBy.pure none t
  | some rapdu =>
      cases rapdu with
      | none =>
          have hresponse := yubikeyDecipherChunks_response card algorithm
            (bufferAvailable data + 1) data none (fun _ => hsome) s
          unfold Process.Ensures at hresponse
          rw [hrun] at hresponse
          exact absurd rfl hresponse
      | some rapdu => exact Process.CrashesBy.pure _ t

omit [Usbfs σ] in
/-- Looking at bytes of the block only. -/
theorem crashesOnPacket_peek {bp : Buffer} (h : bp.Wf) {proc : Peek α}
    (hreads : forall p, p ∈ proc.reads (fun pos => bp.data.getD pos 0) -> p < bp.size) :
    CrashesOnPacket (σ := σ) (Process.peek bp.data proc) := by
  unfold Process.peek
  rw [if_pos]
  · exact .pure _
  · rw [List.all_eq_true]
    intro p hp
    rw [decide_eq_true_eq, h.length_eq]
    exact hreads p hp

omit [Usbfs σ] in
theorem crashesOnPacket_yubikeyUnwrap {rapdu : Buffer} (h : rapdu.Wf)
    (hinside : UnwrapsInside rapdu) : CrashesOnPacket (σ := σ) (yubikeyUnwrap rapdu) := by
  have hmem := memoryShows_data h
  intro s
  refine Process.CrashesHere.bind
    (crashesOnPacket_peek h (fun p hp => hinside.decode _ p hp) s) ?_
  intro decoded t hdecoded
  rcases decoded with ⟨okay, padded⟩
  cases okay with
  | false => exact Process.CrashesBy.pure none t
  | true =>
      have hvalue := (peek_value _ _ s (true, padded) (congrArg Prod.fst hdecoded)).symm
      have hskipped := onlySkipped_of_decode h hmem hvalue
      have hpaddedWf := hskipped.wf h
      have hreads := hinside.remove _ padded hvalue
      rcases hskipped with ⟨count, hcount, rfl⟩
      refine Process.CrashesHere.bind
        (crashesOnPacket_peek hpaddedWf (fun p hp => hreads p hp) t) ?_
      intro removed u hremoved
      rcases removed with ⟨okay, cleartext⟩
      cases okay with
      | false => exact Process.CrashesBy.pure none u
      | true =>
          have hfound := (peek_value _ _ t (true, cleartext)
            (congrArg Prod.fst hremoved)).symm
          rcases (pkcs1Type2PaddingRemove_eq_true_iff hpaddedWf
            (memoryShows_data hpaddedWf)).mp hfound with ⟨message, _, rfl⟩
          have hclearWf := bufferSkip_wf hpaddedWf (Nat.sub_le _ message.length)
          exact (crashesOnPacket_dump hclearWf).bind (fun _ => .pure _) u

/-!
## The whole run
-/

theorem crashesOnPacket_doitReply (pin : Option CString) {ciphertext : Buffer}
    (h : ciphertext.Wf) (cardopts : List CString) :
    CrashesOnPacket (σ := σ) (doitReply pin ciphertext cardopts) :=
  crashesOnPacket_cardRules.thenSome (crashesOnPacket_cardRules.verified pin cardopts)
    fun card => crashesOnPacket_yubikeyReply card h

theorem doitReply_wf (pin : Option CString) (ciphertext : Buffer) (cardopts : List CString)
    (s : Host σ) :
    (doitReply pin ciphertext cardopts).Yields s fun rapdu _ => rapdu.Wf := by
  have hcard : ((doitConnect cardopts).thenSome (doitVerify pin)).Yields s
      fun _ _ => True := fun _ _ => trivial
  refine hcard.thenSome ?_
  intro card t _ rapdu hdone
  exact ((yubikeyReply_isReply card ciphertext t).known.2 rapdu hdone).wf

theorem crashesOnPacket_doit (pin : Option CString) {ciphertext : Buffer}
    (h : ciphertext.Wf) (cardopts : List CString) :
    CrashesOnPacket (σ := σ) (doit pin ciphertext cardopts) := by
  intro s
  rw [doit_eq_unwrap]
  refine (crashesOnPacket_doitReply pin h cardopts s).thenSome ?_
  intro rapdu t hrun
  have hdone := congrArg Prod.fst hrun
  exact crashesOnPacket_yubikeyUnwrap (doitReply_wf pin ciphertext cardopts s rapdu hdone)
    (doitReply_unwrapsInside pin ciphertext cardopts s rapdu hdone) t

/-- How a run ends, in terms of the packets it has received and the dumps it has
started. -/
structure EndsAs (events : List Event) (dumps : List Dump)
    (outcome : Outcome (Option Buffer)) : Prop where
  hang_iff : outcome = .hang ↔ exists d, d ∈ dumps ∧ d.Endless
  crash_iff : outcome = .crash ↔
    (exists event, event ∈ events ∧ event.Truncated) ∧ forall d, d ∈ dumps -> ¬ d.Endless

omit [Usbfs σ] in
theorem EndsAs.of_ending {events : List Event} {dumps : List Dump}
    {outcome : Outcome (Option Buffer)}
    (hhang : outcome = .hang ↔ exists d, d ∈ dumps ∧ d.Endless)
    (hcrash : outcome ≠ .hang ->
      (outcome = .crash ↔ exists event, event ∈ events ∧ event.Truncated)) :
    EndsAs events dumps outcome := by
  refine ⟨hhang, ?_⟩
  constructor
  · intro hend
    have hreturns : outcome ≠ .hang := by
      rw [hend]
      exact fun hbad => by cases hbad
    exact ⟨(hcrash hreturns).mp hend, fun d hmem hendless =>
      hreturns (hhang.mpr ⟨d, hmem, hendless⟩)⟩
  · rintro ⟨hevent, hdumped⟩
    refine (hcrash ?_).mpr hevent
    intro hbad
    rcases hhang.mp hbad with ⟨d, hmem, hendless⟩
    exact hdumped d hmem hendless

/-- Whatever the device answers, a run comes to an end unless it starts an endless dump,
and it crashes on a truncated packet, and on nothing else. -/
theorem doit_endsAs (pin : Option CString) {ciphertext : Buffer} (h : ciphertext.Wf)
    (cardopts : List CString) (s : Host σ) :
    (doit pin ciphertext cardopts).Ensures s fun outcome t => exists events dumps,
      t.log = s.log ++ events ∧ t.dumps = s.dumps ++ dumps ∧
        EndsAs events dumps outcome := by
  rcases hangsInDump_doit pin ciphertext cardopts s with ⟨dumps, hdumps, hhang⟩
  rcases crashesOnPacket_doit pin h cardopts s with ⟨events, hevents, hcrash⟩
  exact ⟨events, dumps, hevents, hdumps, .of_ending hhang hcrash⟩

end

theorem doit_endsAs_slotToken :
    (doit none (bufferInitRead (List.replicate 128 0x55)) []).Ensures
      ({ usb := { answers := [.raw [0x81, 0x00]] }, dev := slotToken } : Host Script)
      fun outcome t => exists events dumps, t.log = [] ++ events ∧ t.dumps = [] ++ dumps ∧
        EndsAs events dumps outcome :=
  doit_endsAs none (bufferInitRead_wf (by rw [List.length_replicate]; decide)) [] _

end UtokenDecrypt
