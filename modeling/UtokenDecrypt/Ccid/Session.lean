import UtokenDecrypt.Ccid.Exchange
import UtokenDecrypt.Usb.Script

/-!
# Sessions

Any number of exchanges, one after the other, on a reader that starts out fresh.
The sequence number of a command is the low byte of the reader's counter, so a
response can be told from the ones to older commands as long as it is not more
than 255 commands late.

Which command a response answers is not something the program can see.  It is
given here by a function on the positions of the record, and all that is known
about it is that a device copies the slot and the sequence number of the command
it answers.
-/

namespace UtokenDecrypt

open Foundation
open Usb

/-- The arguments of one `ccid_build_command` and `ccid_xfer`. -/
structure CcidRequest where
  slot : UInt8
  cmd : UInt8
  ctl : Option CcidCtl := none
  payload : List UInt8 := []
  expected : UInt8

/-- The commands sent, in order; a send that failed sent nothing. -/
def sentPackets (log : List Event) : List (List UInt8) :=
  log.filterMap fun event =>
    match event with
    | .send packet true => some packet
    | _ => none

section

variable {σ : Type} [Usbfs σ]

def ccidExchange (req : CcidRequest) : Process (Host σ) (Option CcidResponse) := do
  let s ← Process.read
  match ccidBuildCommand s.reader req.slot req.cmd req.ctl req.payload
      req.payload.length with
  | none => pure none
  | some cmd => ccidXfer cmd req.expected

/-- The states between the exchanges of a session. -/
inductive SessionReaches (start : Host σ) : Host σ -> Prop where
  | start : SessionReaches start start
  | exchange {s t : Host σ} (req : CcidRequest) (resp : Option CcidResponse) :
      SessionReaches start s -> ccidExchange req s = (.done resp, t) ->
      SessionReaches start t

omit [Usbfs σ] in
/-- Nothing has been sent yet. -/
def Host.Fresh (s : Host σ) : Prop :=
  s.reader.ccidSeq = 0 ∧ s.log = []

/-- Every whole packet received at a position answers a command sent before,
the first one having the number 1, and carries its slot and sequence number. -/
def AnswersSent (answered : Nat -> Nat) (log : List Event) : Prop :=
  forall i packet, log[i]? = some (.recv (some packet)) -> CcidWellFormed packet ->
    1 ≤ answered i ∧ exists cmd,
      (sentPackets (log.take i))[answered i - 1]? = some cmd ∧
      packet.getD 5 0 = cmd.getD 5 0 ∧ packet.getD 6 0 = cmd.getD 6 0

/-- No response comes after 255 further commands. -/
def NotDelayed (answered : Nat -> Nat) (log : List Event) : Prop :=
  forall i packet, log[i]? = some (.recv (some packet)) ->
    (sentPackets (log.take i)).length ≤ answered i + 255

/-!
## What is sent
-/

omit [Usbfs σ] in
theorem sentPackets_append (front back : List Event) :
    sentPackets (front ++ back) = sentPackets front ++ sentPackets back :=
  List.filterMap_append

omit [Usbfs σ] in
theorem sentPackets_recvs (answers : List (Option (List UInt8))) :
    sentPackets (answers.map Event.recv) = [] := by
  simp [sentPackets]

omit [Usbfs σ] in
theorem sentPackets_exchange (log : List Event) (packet : List UInt8) (rv : Bool)
    (answers : List (Option (List UInt8))) :
    sentPackets (log ++ .send packet rv :: answers.map Event.recv) =
      sentPackets log ++ if rv then [packet] else [] := by
  rw [sentPackets_append, ← List.singleton_append, sentPackets_append,
    sentPackets_recvs, List.append_nil]
  cases rv <;> rfl

/-- The counter is the number of commands sent, and so is the sequence number in
each of them, both modulo 256. -/
structure SessionInv (s : Host σ) : Prop where
  seq : UInt8.ofNat s.reader.ccidSeq = UInt8.ofNat (sentPackets s.log).length
  numbered : forall k cmd, (sentPackets s.log)[k]? = some cmd ->
    cmd.getD 6 0 = UInt8.ofNat k

omit [Usbfs σ] in
theorem Host.Fresh.sessionInv {s : Host σ} (h : s.Fresh) : SessionInv s := by
  constructor
  · rw [h.1, h.2]
    rfl
  · intro k cmd hk
    rw [h.2] at hk
    cases hk

/-- An exchange that returned: nothing was sent, or the command was, and the
packets in `answers` were received. -/
theorem ccidExchange_cases {s t : Host σ} {req : CcidRequest}
    {resp : Option CcidResponse} (h : ccidExchange req s = (.done resp, t)) :
    (resp = none ∧ t = s) ∨
      exists cmd rv answers,
        ccidBuildCommand s.reader req.slot req.cmd req.ctl req.payload
          req.payload.length = some cmd ∧
        CcidExchanged cmd req.expected s t rv answers (.done resp) := by
  rw [ccidExchange, Process.bind_done (Process.read_apply s)] at h
  cases hbuild : ccidBuildCommand s.reader req.slot req.cmd req.ctl req.payload
      req.payload.length with
  | none =>
      rw [hbuild] at h
      cases h
      exact Or.inl ⟨rfl, rfl⟩
  | some cmd =>
      rw [hbuild] at h
      have hensures := ccidXfer_ensures cmd req.expected
        (ccidBuildCommand_spec hbuild).2.2.1 s
      cases hensures.apply h with
      | inl hstuck => cases hstuck.2.1
      | inr hexchanged =>
          rcases hexchanged with ⟨rv, answers, hx⟩
          exact Or.inr ⟨cmd, rv, answers, rfl, hx⟩

/-!
## The invariant
-/

omit [Usbfs σ] in
theorem ofNat_succ_congr {a b : Nat} (h : UInt8.ofNat a = UInt8.ofNat b) :
    UInt8.ofNat ((UInt8.ofNat a).toNat + 1) = UInt8.ofNat (b + 1) := by
  have hmod := congrArg UInt8.toNat h
  simp only [UInt8.toNat_ofNat'] at hmod
  apply UInt8.toNat_inj.mp
  simp only [UInt8.toNat_ofNat']
  lia

omit [Usbfs σ] in
/-- An exchange that sent its command counts it. -/
theorem SessionInv.exchanged {s t : Host σ} {req : CcidRequest}
    {cmd : CcidCommand} {rv : Bool} {answers : List (Option (List UInt8))}
    {resp : Option CcidResponse} (h : SessionInv s)
    (hbuild : ccidBuildCommand s.reader req.slot req.cmd req.ctl req.payload
      req.payload.length = some cmd)
    (hx : CcidExchanged cmd req.expected s t rv answers (.done resp)) :
    SessionInv t := by
  rcases ccidBuildCommand_spec hbuild with ⟨_, hseq, _, hcontents⟩
  have hbyte : cmd.pkt.contents.getD 6 0 = UInt8.ofNat (sentPackets s.log).length := by
    rw [hcontents, ← h.seq, ccidPacket_seq]
  have hlog := sentPackets_exchange s.log cmd.pkt.contents rv answers
  rw [← hx.log] at hlog
  cases rv with
  | false =>
      rw [if_neg (by simp), List.append_nil] at hlog
      constructor
      · rw [hx.reader, hlog]
        exact h.seq
      · rw [hlog]
        exact h.numbered
  | true =>
      rw [if_pos rfl] at hlog
      constructor
      · rw [hx.reader, hlog, List.length_append]
        change UInt8.ofNat (cmd.seq.toNat + 1) = _
        rw [hseq]
        exact ofNat_succ_congr h.seq
      · intro k sent hk
        rw [hlog] at hk
        cases Nat.lt_or_ge k (sentPackets s.log).length with
        | inl hold =>
            rw [List.getElem?_append_left hold] at hk
            exact h.numbered k sent hk
        | inr hnew =>
            rw [List.getElem?_append_right hnew, List.getElem?_singleton] at hk
            split at hk
            · rename_i hlast
              cases hk
              rw [hbyte]
              congr 1
              lia
            · cases hk

theorem sessionInv_reaches {start s : Host σ} (hfresh : start.Fresh)
    (h : SessionReaches start s) : SessionInv s := by
  induction h with
  | start => exact hfresh.sessionInv
  | exchange req resp _ hrun ih =>
      cases ccidExchange_cases hrun with
      | inl hnothing =>
          rw [hnothing.2]
          exact ih
      | inr hexchanged =>
          rcases hexchanged with ⟨cmd, rv, answers, hbuild, hx⟩
          exact ih.exchanged hbuild hx

/-!
## The response that is returned
-/

/-- What is known of an exchange that returned a response: its command was sent,
and the response is the packet received last. -/
theorem ccidExchange_some {s t : Host σ} {req : CcidRequest} {resp : CcidResponse}
    (hinv : SessionInv s) (h : ccidExchange req s = (.done (some resp), t)) :
    exists packet front,
      t.log = front ++ [.recv (some packet)] ∧
      sentPackets t.log = sentPackets front ∧
      (sentPackets t.log).length = (sentPackets s.log).length + 1 ∧
      CcidWellFormed packet ∧ resp.payload.contents = ccidPayload packet ∧
      packet.getD 6 0 = UInt8.ofNat (sentPackets s.log).length := by
  cases ccidExchange_cases h with
  | inl hnothing => cases hnothing.1
  | inr hexchanged =>
      rcases hexchanged with ⟨cmd, rv, answers, hbuild, hx⟩
      cases rv with
      | false => cases (hx.failed rfl).2
      | true =>
          rcases hx.result rfl with ⟨hdecided, hresp⟩
          rcases Option.map_eq_some_iff.mp hresp.symm with
            ⟨packet, hdecision, hpacket⟩
          rcases ccidDecision_mem hdecision with ⟨hmem, haccept⟩
          rcases hdecided.getLast hdecision with ⟨received, hanswers⟩
          rcases ccidVerdict_accept_iff.mp haccept with ⟨hwhole, _, hseq, _⟩
          have hsent := sentPackets_exchange s.log cmd.pkt.contents true answers
          rw [← hx.log, if_pos rfl] at hsent
          have hfront := sentPackets_exchange s.log cmd.pkt.contents true received
          rw [if_pos rfl] at hfront
          refine ⟨packet, s.log ++ .send cmd.pkt.contents true ::
            received.map Event.recv, ?_, hsent.trans hfront.symm, ?_, hwhole, ?_, ?_⟩
          · rw [hx.log, hanswers]
            simp
          · rw [hsent, List.length_append]
            rfl
          · rw [← hpacket]
            exact (ccidAccepted_spec (hx.fits packet hmem).1 haccept).contents
          · rw [hseq, (ccidBuildCommand_spec hbuild).2.1, hinv.seq]

theorem session_fresh_responses {start s t : Host σ} (hfresh : start.Fresh)
    (hreach : SessionReaches start s) :
    s.reader.ccidSeq % 256 = (sentPackets s.log).length % 256 ∧
    forall req resp, ccidExchange req s = (.done resp, t) ->
      ((sentPackets t.log).length = (sentPackets s.log).length ->
        t.reader.ccidSeq = s.reader.ccidSeq) ∧
      forall answered, AnswersSent answered t.log -> forall got, resp = some got ->
        exists packet, t.log.getLast? = some (.recv (some packet)) ∧
          got.payload.contents = ccidPayload packet ∧
          (sentPackets t.log).length = (sentPackets s.log).length + 1 ∧
          answered (t.log.length - 1) % 256 = (sentPackets t.log).length % 256 ∧
          (NotDelayed answered t.log ->
            answered (t.log.length - 1) = (sentPackets t.log).length) := by
  have hinv := sessionInv_reaches hfresh hreach
  constructor
  · have hseq := congrArg UInt8.toNat hinv.seq
    simpa only [UInt8.toNat_ofNat'] using hseq
  · intro req resp hrun
    constructor
    · intro hnone
      cases ccidExchange_cases hrun with
      | inl hnothing => rw [hnothing.2]
      | inr hexchanged =>
          rcases hexchanged with ⟨cmd, rv, answers, hbuild, hx⟩
          have hsent := sentPackets_exchange s.log cmd.pkt.contents rv answers
          rw [← hx.log] at hsent
          cases rv with
          | false => rw [hx.reader]; rfl
          | true => simp [hsent] at hnone
    · intro answered hanswers got hgot
      subst hgot
      rcases ccidExchange_some hinv hrun with
        ⟨packet, front, hlog, hsent, hcount, hwhole, hpayload, hseq⟩
      have hinvt := sessionInv_reaches hfresh (hreach.exchange req (some got) hrun)
      have hlast : t.log[t.log.length - 1]? = some (.recv (some packet)) := by
        simp [hlog]
      have htake : t.log.take (t.log.length - 1) = front := by
        simp [hlog]
      rcases hanswers _ packet hlast hwhole with ⟨hone, cmd, hcmd, _, hbyte⟩
      rw [htake, ← hsent] at hcmd
      have hnumber := hinvt.numbered _ cmd hcmd
      have hle : answered (t.log.length - 1) - 1 < (sentPackets t.log).length :=
        (List.getElem?_eq_some_iff.mp hcmd).1
      have hmod : (answered (t.log.length - 1) - 1) % 256 =
          (sentPackets s.log).length % 256 := by
        have heq := congrArg UInt8.toNat (hnumber.symm.trans (hbyte.symm.trans hseq))
        simpa only [UInt8.toNat_ofNat'] using heq
      refine ⟨packet, by simp [hlog], hpayload, hcount, by lia, ?_⟩
      intro hsoon
      have hlate := hsoon _ packet hlast
      rw [htake, ← hsent] at hlate
      lia

end

def slotStatusRequest : CcidRequest where
  slot := 0
  cmd := 0x65
  expected := ccidRespSlotstat

/-- A fresh reader, and a device that answers the first of two commands twice, the second
time when it has been sent the other command. -/
def lateHost : Host Script where
  usb := { answers := [.response ccidRespSlotstat [], .raw (ccidPacket 0x81 0 0 {} []),
    .response ccidRespSlotstat []] }
  reader := { maxMessageSize := 16 }

def lateLog : List Event :=
  [.send (ccidPacket 0x65 0 0 {} []) true,
    .recv (some (uusbRecvBytes 16 (ccidPacket 0x81 0 0 {} []))),
    .send (ccidPacket 0x65 0 1 {} []) true,
    .recv (some (uusbRecvBytes 16 (ccidPacket 0x81 0 0 {} []))),
    .recv (some (uusbRecvBytes 16 (ccidPacket 0x81 0 1 {} [])))]

/-- What an exchange returns for the response with this number. -/
def slotStatusResponse (seq : UInt8) : CcidResponse where
  type := ccidRespSlotstat
  slot := 0
  seq := seq
  ctl := {}
  payload := {
    rpos := 10
    wpos := 10
    size := 16
    data := uusbRecvBytes 16 (ccidPacket 0x81 0 seq {} []) }

def lateAnswered (i : Nat) : Nat :=
  if i < 4 then 1 else 2

theorem answersSent_late : AnswersSent lateAnswered lateLog := by
  intro i packet hi _
  match i, hi with
  | 0, hi => cases hi
  | 1, hi =>
      cases hi
      exact ⟨by decide, _, rfl, rfl, rfl⟩
  | 2, hi => cases hi
  | 3, hi =>
      cases hi
      exact ⟨by decide, _, rfl, rfl, rfl⟩
  | 4, hi =>
      cases hi
      exact ⟨by decide, _, rfl, rfl, rfl⟩
  | _ + 5, hi => cases hi

theorem notDelayed_late : NotDelayed lateAnswered lateLog := by
  intro i packet _
  have hall : (sentPackets (lateLog.take i)).length ≤ lateLog.length :=
    Nat.le_trans (List.length_filterMap_le _ _) (List.length_take_le' i lateLog)
  have hfive : lateLog.length = 5 := rfl
  lia

/-- The duplicate is not taken for the response to the second command. -/
theorem session_fresh_responses_lateDuplicate :
    exists (got : CcidResponse) (s t : Host Script), SessionReaches lateHost s ∧
      ccidExchange slotStatusRequest s = (.done (some got), t) ∧ t.log = lateLog ∧
      exists packet, t.log.getLast? = some (.recv (some packet)) ∧
        got.payload.contents = ccidPayload packet ∧
        lateAnswered (t.log.length - 1) = (sentPackets t.log).length := by
  let s := (ccidExchange slotStatusRequest lateHost).2
  let t := (ccidExchange slotStatusRequest s).2
  have hfirst : ccidExchange slotStatusRequest lateHost =
      (.done (some (slotStatusResponse 0)), s) := Prod.ext (by decide +kernel) rfl
  have hsecond : ccidExchange slotStatusRequest s =
      (.done (some (slotStatusResponse 1)), t) := Prod.ext (by decide +kernel) rfl
  have hlog : t.log = lateLog := by decide +kernel
  have hreach : SessionReaches lateHost s := .exchange _ _ .start hfirst
  have hsession := (session_fresh_responses (⟨rfl, rfl⟩ : lateHost.Fresh) hreach).2
    slotStatusRequest _ hsecond
  have hanswers : AnswersSent lateAnswered t.log := by
    rw [hlog]
    exact answersSent_late
  have hsoon : NotDelayed lateAnswered t.log := by
    rw [hlog]
    exact notDelayed_late
  rcases hsession.2 lateAnswered hanswers _ rfl with
    ⟨packet, hlast, hpayload, _, _, hanswered⟩
  exact ⟨_, s, t, hreach, hsecond, hlog, packet, hlast, hpayload, hanswered hsoon⟩

end UtokenDecrypt
