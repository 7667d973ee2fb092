import UtokenDecrypt.Ccid.Framing

/-!
# One exchange with the reader

`ccid_xfer` of `reader.c` sends a command and then receives packets, at
most six of them, until one decides the outcome.  The module gives the function
as the source has it, and next to it the decision about a single packet and
about a run of packets.

A received packet that does not parse leaves `resp` at `NULL`, and the
common way on to the next packet is `ccid_response_free(resp)`, which reads
`resp->pkt`.  That is a memory fault.
-/

namespace UtokenDecrypt

open Foundation
open Usb

/-!
## The functions
-/

section

variable {σ : Type}

def ccidDumpResponse (pkt : Buffer) : Process (Host σ) Unit :=
  if bufferAvailable pkt < 10 then pure ()
  else
    let hdr := bufferReadPointer pkt
    let payloadLen := leValue ((hdr.drop 1).take 4)
    dump hdr (wrap32 (10 + payloadLen))

/-- The loop body behind the dump of the packet. -/
def ccidXferAnswer (cmd : CcidCommand) (expected : UInt8) (rbuf : Buffer)
    (again : Process (Host σ) (Option CcidResponse)) :
    Process (Host σ) (Option CcidResponse) :=
  match ccidResponseCreate rbuf with
  | none => Process.crash
  | some resp =>
      if resp.slot = cmd.slot ∧ resp.seq = cmd.seq then
        let ctl := resp.ctl.ctl1
        if resp.type ≠ expected then pure none
        else if ctl &&& 0xc0 = 0 then pure (some resp)
        else if ctl &&& 0xc0 = 0x80 then again
        else pure none
      else again

variable [Usbfs σ]

/-- The loop, with the number of retries left. -/
def ccidXferLoop (cmd : CcidCommand) (expected : UInt8) :
    Nat -> Process (Host σ) (Option CcidResponse)
  | 0 => pure none
  | retries + 1 => do
      let s ← Process.read
      let rbuf ← uusbRecv s.reader.maxMessageSize
      match rbuf with
      | none => pure none
      | some rbuf => do
          whenDebug2 (ccidDumpResponse rbuf)
          ccidXferAnswer cmd expected rbuf (ccidXferLoop cmd expected retries)

def ccidXfer (cmd : CcidCommand) (expected : UInt8) :
    Process (Host σ) (Option CcidResponse) := do
  whenDebug2 (dump (bufferReadPointer cmd.pkt) (bufferAvailable cmd.pkt))
  let rv ← uusbSend cmd.pkt
  if rv then do
    Process.update fun s =>
      { s with reader := { s.reader with ccidSeq := cmd.seq.toNat + 1 } }
    ccidXferLoop cmd expected 6
  else pure none

end

/-!
## The decision
-/

inductive CcidVerdict where
  | skip
  | accept
  | reject
deriving DecidableEq

def ccidVerdict (cmd : CcidCommand) (expected : UInt8) (packet : List UInt8) :
    CcidVerdict :=
  if ¬ CcidWellFormed packet then .skip
  else if packet.getD 5 0 ≠ cmd.slot ∨ packet.getD 6 0 ≠ cmd.seq then .skip
  else if packet.getD 0 0 ≠ expected then .reject
  else if packet.getD 7 0 &&& 0xc0 = 0 then .accept
  else if packet.getD 7 0 &&& 0xc0 = 0x80 then .skip
  else .reject

/-- The first packet that is not skipped decides; so does a receive that fails,
and the end of the packets. -/
def ccidDecision (cmd : CcidCommand) (expected : UInt8) :
    List (Option (List UInt8)) -> Option (List UInt8)
  | [] => none
  | none :: _ => none
  | some packet :: rest =>
      match ccidVerdict cmd expected packet with
      | .skip => ccidDecision cmd expected rest
      | .accept => some packet
      | .reject => none

/-- Receiving goes on for at most `count` packets, and stops as soon as one
decides. -/
def CcidDecided (cmd : CcidCommand) (expected : UInt8) :
    Nat -> List (Option (List UInt8)) -> Prop
  | 0, answers => answers = []
  | _ + 1, [] => False
  | _ + 1, none :: rest => rest = []
  | count + 1, some packet :: rest =>
      if ccidVerdict cmd expected packet = .skip then
        CcidDecided cmd expected count rest
      else rest = []

section

variable {cmd : CcidCommand} {expected : UInt8} {packet : List UInt8}
  {answers : List (Option (List UInt8))}

theorem ccidVerdict_accept_iff :
    ccidVerdict cmd expected packet = .accept ↔
      CcidWellFormed packet ∧ packet.getD 5 0 = cmd.slot ∧
        packet.getD 6 0 = cmd.seq ∧ packet.getD 0 0 = expected ∧
        packet.getD 7 0 &&& 0xc0 = 0 := by
  unfold ccidVerdict
  grind

/-- An accepted packet is the last one received, and was received whole. -/
theorem ccidDecision_mem (h : ccidDecision cmd expected answers = some packet) :
    some packet ∈ answers ∧ ccidVerdict cmd expected packet = .accept := by
  induction answers with
  | nil => cases h
  | cons answer rest ih =>
      cases answer with
      | none => cases h
      | some received =>
          rw [ccidDecision] at h
          split at h
          · rcases ih h with ⟨hmem, haccept⟩
            exact ⟨List.mem_cons_of_mem _ hmem, haccept⟩
          · rename_i haccept
            cases h
            exact ⟨List.mem_cons_self, haccept⟩
          · cases h

/-- The deciding packet is the last one received. -/
theorem CcidDecided.getLast {count : Nat}
    (h : CcidDecided cmd expected count answers)
    (hdecision : ccidDecision cmd expected answers = some packet) :
    exists front, answers = front ++ [some packet] := by
  induction count generalizing answers with
  | zero =>
      rw [show answers = [] from h] at hdecision
      cases hdecision
  | succ count ih =>
      match answers with
      | [] => cases hdecision
      | none :: rest => cases hdecision
      | some received :: rest =>
          unfold CcidDecided at h
          rw [ccidDecision] at hdecision
          split at h
          · rename_i hskip
            rw [hskip] at hdecision
            rcases ih h hdecision with ⟨front, hfront⟩
            exact ⟨some received :: front, by rw [hfront, List.cons_append]⟩
          · split at hdecision
            · rename_i hskip
              contradiction
            · cases hdecision
              exact ⟨[], by rw [h, List.nil_append]⟩
            · cases hdecision

end

structure CcidAccepted (cmd : CcidCommand) (expected : UInt8) (maxlen : Nat)
    (packet : List UInt8) (resp : CcidResponse) : Prop where
  type : resp.type = expected
  slot : resp.slot = cmd.slot
  seq : resp.seq = cmd.seq
  wf : resp.payload.Wf
  contents : resp.payload.contents = ccidPayload packet
  size : resp.payload.size = capacity maxlen
  rpos : resp.payload.rpos = 10

theorem ccidAccepted_spec {cmd : CcidCommand} {expected : UInt8} {maxlen : Nat}
    {packet : List UInt8} (hfits : packet.length ≤ capacity maxlen)
    (haccept : ccidVerdict cmd expected packet = .accept) :
    CcidAccepted cmd expected maxlen packet
      (ccidResponseOf (uusbRecvFilled maxlen packet)) := by
  rcases uusbRecvFilled_spec hfits with ⟨hwf, hcontents, hrpos, hsize⟩
  rcases ccidVerdict_accept_iff.mp haccept with ⟨hwhole, hslot, hseq, htype, _⟩
  have hpayload := ccidResponseOf_payload hwf (by rw [hcontents]; exact hwhole)
  rw [hcontents] at hpayload
  constructor
  · change (uusbRecvFilled maxlen packet).contents.getD 0 0 = expected
    rw [hcontents, htype]
  · change (uusbRecvFilled maxlen packet).contents.getD 5 0 = cmd.slot
    rw [hcontents, hslot]
  · change (uusbRecvFilled maxlen packet).contents.getD 6 0 = cmd.seq
    rw [hcontents, hseq]
  · exact hpayload.1
  · exact hpayload.2
  · exact hsize
  · change (uusbRecvFilled maxlen packet).rpos + 10 = 10
    rw [hrpos]

/-!
## One received packet
-/

section

variable {σ : Type} {cmd : CcidCommand} {expected : UInt8}

def Host.received (s : Host σ) (answer : Option (List UInt8)) (usb : σ) :
    Host σ :=
  { s with usb := usb, log := s.log ++ [.recv answer] }

theorem ccidXferAnswer_truncated {rbuf : Buffer} (h : rbuf.Wf)
    (hbad : ¬ CcidWellFormed rbuf.contents)
    (again : Process (Host σ) (Option CcidResponse)) :
    ccidXferAnswer cmd expected rbuf again = Process.crash := by
  rw [ccidXferAnswer, ccidResponseCreate_eq h, if_neg hbad]

/-- A whole packet is dealt with as its verdict says. -/
theorem ccidXferAnswer_whole {rbuf : Buffer} (h : rbuf.Wf)
    (hwf : CcidWellFormed rbuf.contents)
    (again : Process (Host σ) (Option CcidResponse)) :
    ccidXferAnswer cmd expected rbuf again =
      match ccidVerdict cmd expected rbuf.contents with
      | .skip => again
      | .accept => pure (some (ccidResponseOf rbuf))
      | .reject => pure none := by
  have hctl : (ccidResponseOf rbuf).ctl.ctl1 = rbuf.contents.getD 7 0 := by
    change ((rbuf.contents.drop 7).take 3).getD 0 0 = rbuf.contents.getD 7 0
    simp
  have hslot : (ccidResponseOf rbuf).slot = rbuf.contents.getD 5 0 := rfl
  have hseq : (ccidResponseOf rbuf).seq = rbuf.contents.getD 6 0 := rfl
  have htype : (ccidResponseOf rbuf).type = rbuf.contents.getD 0 0 := rfl
  rw [ccidXferAnswer, ccidResponseCreate_eq h, if_pos hwf, ccidVerdict,
    if_neg (not_not.mpr hwf)]
  simp only [hctl, hslot, hseq, htype]
  by_cases hmatch : rbuf.contents.getD 5 0 = cmd.slot ∧
      rbuf.contents.getD 6 0 = cmd.seq
  · have hown : ¬ (rbuf.contents.getD 5 0 ≠ cmd.slot ∨
        rbuf.contents.getD 6 0 ≠ cmd.seq) := by
      simpa only [ne_eq, not_or, not_not] using hmatch
    rw [if_pos hmatch, if_neg hown]
    split
    · rfl
    · split
      · rfl
      · split <;> rfl
  · rw [if_neg hmatch, if_pos (Classical.not_and_iff_not_or_not.mp hmatch)]

/-- Dumping a packet touches the record of dumps only. -/
theorem whenDebug2_ccidDumpResponse (pkt : Buffer) (s : Host σ) :
    exists outcome dumps,
      whenDebug2 (ccidDumpResponse pkt) s =
        (outcome, { s with dumps := dumps }) := by
  unfold whenDebug2 ccidDumpResponse
  split
  · split
    · exact ⟨.done (), s.dumps, rfl⟩
    · exact ⟨_, _, rfl⟩
  · exact ⟨.done (), s.dumps, rfl⟩

theorem ccidDumpResponse_eq {pkt : Buffer} (h : pkt.Wf) :
    ccidDumpResponse (σ := σ) pkt =
      if pkt.contents.length < 10 then pure ()
      else dump (bufferReadPointer pkt) (wrap32 (10 + ccidDeclared pkt.contents)) := by
  unfold ccidDumpResponse
  rw [bufferAvailable_eq h]
  split
  · rfl
  · rename_i hlong
    have hheader := bufferReadPointer_take h (by lia : 5 ≤ pkt.contents.length)
    have hfield := congrArg (List.drop 1) hheader
    rw [List.drop_take, List.drop_take] at hfield
    simp only [ccidDeclared, hfield]

/-- The dump of a whole packet stays inside the buffer, and returns. -/
theorem whenDebug2_ccidDumpResponse_whole {pkt : Buffer} (h : pkt.Wf)
    (hwf : CcidWellFormed pkt.contents) (hsmall : pkt.contents.length < 2 ^ 31)
    (s : Host σ) :
    exists dumps,
      whenDebug2 (ccidDumpResponse pkt) s = (.done (), { s with dumps := dumps }) := by
  have hten : 10 ≤ pkt.contents.length := hwf.1
  have hfits : 10 + ccidDeclared pkt.contents ≤ pkt.contents.length := hwf.2
  have hmem := contents_length_le h
  have hdump : hexdump (bufferReadPointer pkt)
      (wrap32 (10 + ccidDeclared pkt.contents)) = .done () := by
    rw [wrap32_of_lt (by lia), hexdump_eq (by lia), if_pos (by lia),
      if_pos (by lia)]
  unfold whenDebug2
  split
  · rw [ccidDumpResponse_eq h, if_neg (by lia), dump, hdump]
    exact ⟨_, rfl⟩
  · exact ⟨s.dumps, rfl⟩

/-- The dump of a packet ends where the receive buffer is one `uusb_recv` can fill. -/
theorem whenDebug2_dump_ends {s : Host σ} {maxlen : Nat} {packet : List UInt8}
    (hfits : packet.length ≤ capacity maxlen) (hroom : capacity maxlen < 2 ^ 31) :
    (whenDebug2 (ccidDumpResponse (uusbRecvFilled maxlen packet)) s).1 ≠ .hang := by
  rcases uusbRecvFilled_spec hfits with ⟨hwf, _, hrpos, hsize⟩
  have hmem : (bufferReadPointer (uusbRecvFilled maxlen packet)).length =
      capacity maxlen := by
    rw [bufferReadPointer, List.length_drop, hwf.length_eq, hrpos, hsize]
    rfl
  unfold whenDebug2
  split
  · rw [ccidDumpResponse_eq hwf]
    split
    · exact fun hhang => by cases hhang
    · rw [dump, hexdump_eq (wrap32_lt _), hmem]
      split
      · -- a size that fits the buffer is below the one at which the index wraps
        rw [if_pos (by lia)]
        exact fun hhang => by cases hhang
      · exact fun hhang => by cases hhang
  · exact fun hhang => by cases hhang

variable [Usbfs σ]

theorem ccidXferLoop_none {s : Host σ} {usb : σ} (retries : Nat)
    (h : uusbRecvBulk s.dev s.reader.maxMessageSize s.usb = (none, usb)) :
    ccidXferLoop cmd expected (retries + 1) s =
      (.done none, s.received none usb) := by
  have hrun : uusbRecv s.reader.maxMessageSize s =
      (.done none, s.received none usb) := by
    unfold uusbRecv
    rw [h]
    rfl
  rw [ccidXferLoop, Process.bind_done (Process.read_apply s),
    Process.bind_done hrun]
  rfl

theorem ccidXferLoop_some {s : Host σ} {usb : σ} {packet : List UInt8}
    (retries : Nat)
    (h : uusbRecvBulk s.dev s.reader.maxMessageSize s.usb = (some packet, usb)) :
    ccidXferLoop cmd expected (retries + 1) s =
      (whenDebug2 (ccidDumpResponse
          (uusbRecvFilled s.reader.maxMessageSize packet)) >>= fun _ =>
        ccidXferAnswer cmd expected
          (uusbRecvFilled s.reader.maxMessageSize packet)
          (ccidXferLoop cmd expected retries))
        (s.received (some packet) usb) := by
  have hrun : uusbRecv s.reader.maxMessageSize s =
      (.done (some (uusbRecvFilled s.reader.maxMessageSize packet)),
        s.received (some packet) usb) := by
    unfold uusbRecv
    rw [h]
    rfl
  rw [ccidXferLoop, Process.bind_done (Process.read_apply s),
    Process.bind_done hrun]

theorem ccidXferLoop_whole {s : Host σ} {usb : σ} {packet : List UInt8}
    (cmd : CcidCommand) (expected : UInt8) (retries : Nat)
    (h : uusbRecvBulk s.dev s.reader.maxMessageSize s.usb = (some packet, usb))
    (hwhole : CcidWellFormed packet) :
    exists dumps,
      ccidXferLoop cmd expected (retries + 1) s =
        (match ccidVerdict cmd expected packet with
          | .skip => ccidXferLoop cmd expected retries
          | .accept => pure (some (ccidResponseOf
              (uusbRecvFilled s.reader.maxMessageSize packet)))
          | .reject => pure none)
          { s.received (some packet) usb with dumps := dumps } := by
  have hfits := uusbRecvBulk_le h
  rcases uusbRecvFilled_spec hfits.1 with ⟨hwf, hcontents, _, _⟩
  rcases whenDebug2_ccidDumpResponse_whole hwf (by rw [hcontents]; exact hwhole)
      (by rw [hcontents]; exact Nat.lt_of_le_of_lt hfits.1 hfits.2) (s.received (some packet) usb) with
    ⟨dumps, hdump⟩
  refine ⟨dumps, ?_⟩
  rw [ccidXferLoop_some retries h, Process.bind_done hdump,
    ccidXferAnswer_whole hwf (by rw [hcontents]; exact hwhole), hcontents]

/-- A truncated packet stops the program, in the dump or behind it. -/
theorem ccidXferLoop_truncated {s : Host σ} {usb : σ} {packet : List UInt8}
    (cmd : CcidCommand) (expected : UInt8) (retries : Nat)
    (h : uusbRecvBulk s.dev s.reader.maxMessageSize s.usb = (some packet, usb))
    (hbad : ¬ CcidWellFormed packet) :
    exists dumps,
      ccidXferLoop cmd expected (retries + 1) s =
        (.crash, { s.received (some packet) usb with dumps := dumps }) := by
  have hfits := uusbRecvBulk_le h
  rcases uusbRecvFilled_spec hfits.1 with ⟨hwf, hcontents, _, _⟩
  have hends := whenDebug2_dump_ends (s := s.received (some packet) usb) hfits.1 hfits.2
  rcases whenDebug2_ccidDumpResponse (uusbRecvFilled s.reader.maxMessageSize packet)
      (s.received (some packet) usb) with ⟨outcome, dumps, hdump⟩
  rw [hdump] at hends
  refine ⟨dumps, ?_⟩
  rw [ccidXferLoop_some retries h, Process.bind_apply, hdump,
    ccidXferAnswer_truncated hwf (by rw [hcontents]; exact hbad)]
  cases outcome with
  | done value => rfl
  | crash => rfl
  | hang => exact absurd rfl hends

/-!
## The loop, for any device
-/

def CcidResult (cmd : CcidCommand) (expected : UInt8) (maxlen count : Nat)
    (answers : List (Option (List UInt8))) :
    Outcome (Option CcidResponse) -> Prop
  | .done resp =>
      CcidDecided cmd expected count answers ∧
        resp = (ccidDecision cmd expected answers).map fun packet =>
          ccidResponseOf (uusbRecvFilled maxlen packet)
  | .crash => ccidDecision cmd expected answers = none
  | .hang => ccidDecision cmd expected answers = none

structure CcidReceived (cmd : CcidCommand) (expected : UInt8) (count : Nat)
    (s t : Host σ) (answers : List (Option (List UInt8)))
    (outcome : Outcome (Option CcidResponse)) : Prop where
  reader : t.reader = s.reader
  dev : t.dev = s.dev
  optDebug : t.optDebug = s.optDebug
  log : t.log = s.log ++ answers.map Event.recv
  length_le : answers.length ≤ count
  fits : forall packet, some packet ∈ answers ->
    packet.length ≤ capacity s.reader.maxMessageSize ∧
      capacity s.reader.maxMessageSize < 2 ^ 31
  result : CcidResult cmd expected s.reader.maxMessageSize count answers outcome

omit [Usbfs σ] in
/-- A skipped packet in front of the ones the rest of the loop receives. -/
theorem CcidReceived.cons_skip {count : Nat} {s t : Host σ} {usb : σ}
    {packet : List UInt8} {dumps : List Dump}
    {answers : List (Option (List UInt8))}
    {outcome : Outcome (Option CcidResponse)}
    (h : CcidReceived cmd expected count
      { s.received (some packet) usb with dumps := dumps } t answers outcome)
    (hskip : ccidVerdict cmd expected packet = .skip)
    (hfits : packet.length ≤ capacity s.reader.maxMessageSize ∧
      capacity s.reader.maxMessageSize < 2 ^ 31) :
    CcidReceived cmd expected (count + 1) s t (some packet :: answers) outcome where
  reader := h.reader
  dev := h.dev
  optDebug := h.optDebug
  log := by
    rw [h.log]
    simp [Host.received]
  length_le := Nat.succ_le_succ h.length_le
  fits := by
    intro other hmem
    cases List.mem_cons.mp hmem with
    | inl heq =>
        cases heq
        exact hfits
    | inr hrest => exact h.fits other hrest
  result := by
    have hresult := h.result
    cases outcome with
    | done resp =>
        rw [CcidResult, CcidDecided, if_pos hskip, ccidDecision, hskip]
        exact hresult
    | crash =>
        rw [CcidResult, ccidDecision, hskip]
        exact hresult
    | hang =>
        rw [CcidResult, ccidDecision, hskip]
        exact hresult

omit [Usbfs σ] in
theorem CcidReceived.last {count : Nat} {s : Host σ} {usb : σ}
    {packet : List UInt8} {dumps : List Dump}
    {outcome : Outcome (Option CcidResponse)}
    (hfits : packet.length ≤ capacity s.reader.maxMessageSize ∧
      capacity s.reader.maxMessageSize < 2 ^ 31)
    (hresult : CcidResult cmd expected s.reader.maxMessageSize (count + 1)
      [some packet] outcome) :
    CcidReceived cmd expected (count + 1) s
      { s.received (some packet) usb with dumps := dumps } [some packet]
      outcome where
  reader := rfl
  dev := rfl
  optDebug := rfl
  log := rfl
  length_le := Nat.succ_le_succ (Nat.zero_le _)
  fits := by
    intro other hmem
    cases List.mem_singleton.mp hmem
    exact hfits
  result := hresult

theorem ccidXferLoop_ensures (cmd : CcidCommand) (expected : UInt8) (count : Nat) (s : Host σ) :
    (ccidXferLoop cmd expected count).Ensures s fun outcome t =>
      exists answers, CcidReceived cmd expected count s t answers outcome := by
  induction count generalizing s with
  | zero =>
      refine ⟨[], rfl, rfl, rfl, (List.append_nil _).symm, Nat.le_refl 0, ?_, ?_⟩
      · intro packet hmem
        cases hmem
      · exact ⟨rfl, rfl⟩
  | succ count ih =>
      unfold Process.Ensures
      rcases hrecv : uusbRecvBulk s.dev s.reader.maxMessageSize s.usb with
        ⟨answer, usb⟩
      cases answer with
      | none =>
          rw [ccidXferLoop_none count hrecv]
          refine ⟨[none], rfl, rfl, rfl, rfl, Nat.succ_le_succ (Nat.zero_le _), ?_, ?_⟩
          · intro packet hmem
            cases List.mem_singleton.mp hmem
          · exact ⟨rfl, rfl⟩
      | some packet =>
          have hfits := uusbRecvBulk_le hrecv
          by_cases hwhole : CcidWellFormed packet
          · rcases ccidXferLoop_whole cmd expected count hrecv hwhole with ⟨dumps, hround⟩
            rw [hround]
            cases hverdict : ccidVerdict cmd expected packet with
            | skip =>
                rcases ih { s.received (some packet) usb with dumps := dumps } with
                  ⟨answers, hrest⟩
                exact ⟨some packet :: answers, hrest.cons_skip hverdict hfits⟩
            | accept =>
                refine ⟨[some packet], CcidReceived.last hfits ?_⟩
                simp [CcidResult, CcidDecided, hverdict, ccidDecision]
            | reject =>
                refine ⟨[some packet], CcidReceived.last hfits ?_⟩
                simp [CcidResult, CcidDecided, hverdict, ccidDecision]
          · have hskip : ccidVerdict cmd expected packet = .skip := if_pos hwhole
            rcases ccidXferLoop_truncated cmd expected count hrecv hwhole with
              ⟨dumps, hround⟩
            rw [hround]
            refine ⟨[some packet], CcidReceived.last hfits ?_⟩
            simp [CcidResult, ccidDecision, hskip]

/-!
## When the loop returns
-/

/-- Until a packet decides, the device delivers whole packets only. -/
def CcidWholeUntilDecided (cmd : CcidCommand) (expected : UInt8) (dev : UusbDev)
    (maxlen : Nat) : Nat -> σ -> Prop
  | 0, _ => True
  | count + 1, usb =>
      match uusbRecvBulk dev maxlen usb with
      | (none, _) => True
      | (some packet, after) =>
          CcidWellFormed packet ∧
            (ccidVerdict cmd expected packet = .skip ->
              CcidWholeUntilDecided cmd expected dev maxlen count after)

theorem ccidXferLoop_returns_iff (cmd : CcidCommand) (expected : UInt8)
    (count : Nat) (s : Host σ) :
    (exists resp, (ccidXferLoop cmd expected count s).1 = .done resp) ↔
      CcidWholeUntilDecided cmd expected s.dev s.reader.maxMessageSize count
        s.usb := by
  induction count generalizing s with
  | zero => exact iff_of_true ⟨none, rfl⟩ trivial
  | succ count ih =>
      rcases hrecv : uusbRecvBulk s.dev s.reader.maxMessageSize s.usb with
        ⟨answer, usb⟩
      rw [CcidWholeUntilDecided, hrecv]
      cases answer with
      | none =>
          rw [ccidXferLoop_none count hrecv]
          exact iff_of_true ⟨none, rfl⟩ trivial
      | some packet =>
          by_cases hwhole : CcidWellFormed packet
          · rcases ccidXferLoop_whole cmd expected count hrecv hwhole with ⟨dumps, hround⟩
            rw [hround]
            cases hverdict : ccidVerdict cmd expected packet with
            | skip =>
                have hrest :=
                  ih { s.received (some packet) usb with dumps := dumps }
                exact hrest.trans ⟨fun h => ⟨hwhole, fun _ => h⟩, fun h => h.2 hverdict⟩
            | accept =>
                refine iff_of_true ⟨_, rfl⟩ ⟨hwhole, ?_⟩
                intro hskip
                cases hverdict.symm.trans hskip
            | reject =>
                refine iff_of_true ⟨_, rfl⟩ ⟨hwhole, ?_⟩
                intro hskip
                cases hverdict.symm.trans hskip
          · rcases ccidXferLoop_truncated cmd expected count hrecv hwhole with
              ⟨dumps, hround⟩
            rw [hround]
            refine iff_of_false ?_ (fun h => hwhole h.1)
            intro hreturned
            rcases hreturned with ⟨resp, hresp⟩
            cases hresp

/-!
## The whole exchange
-/

def Host.sent (s : Host σ) (packet : List UInt8) (rv : Bool) (usb : σ) : Host σ :=
  { s with usb := usb, log := s.log ++ [.send packet rv] }

theorem uusbSend_apply {pkt : Buffer} (h : pkt.Wf) (s : Host σ) :
    uusbSend pkt s = (.done (uusbSendBulk s.dev pkt s.usb).1,
      s.sent pkt.contents (uusbSendBulk s.dev pkt s.usb).1
        (uusbSendBulk s.dev pkt s.usb).2) := by
  simp only [uusbSend, Host.sent, bufferReadPointer_take_all h]

omit [Usbfs σ] in
/-- The dump of the command: it stays inside the packet, but does not end for
the very longest packets. -/
theorem whenDebug2_dump_command {pkt : Buffer} (h : pkt.Wf) (s : Host σ) :
    exists dumps,
      whenDebug2 (dump (bufferReadPointer pkt) (bufferAvailable pkt)) s =
        (if s.optDebug ≤ 1 ∨ pkt.contents.length ≤ 2 ^ 32 - 32 then .done ()
          else .hang, { s with dumps := dumps }) := by
  have hmem := contents_length_le h
  have hdump : hexdump (bufferReadPointer pkt) (bufferAvailable pkt) =
      if pkt.contents.length ≤ 2 ^ 32 - 32 then .done () else .hang := by
    rw [bufferAvailable_eq h, hexdump_eq h.contents_lt, if_pos hmem]
  unfold whenDebug2
  split
  · rename_i hdebug
    rw [dump, hdump]
    simp only [show ¬ s.optDebug ≤ 1 by lia, false_or]
    exact ⟨_, rfl⟩
  · rename_i hquiet
    rw [if_pos (Or.inl (by lia))]
    exact ⟨s.dumps, rfl⟩

/-- What an exchange that got as far as sending leaves behind. -/
structure CcidExchanged (cmd : CcidCommand) (expected : UInt8) (s t : Host σ)
    (rv : Bool) (answers : List (Option (List UInt8)))
    (outcome : Outcome (Option CcidResponse)) : Prop where
  reader : t.reader =
    { s.reader with
      ccidSeq := if rv then cmd.seq.toNat + 1 else s.reader.ccidSeq }
  dev : t.dev = s.dev
  optDebug : t.optDebug = s.optDebug
  log : t.log = s.log ++ .send cmd.pkt.contents rv :: answers.map Event.recv
  length_le : answers.length ≤ 6
  fits : forall packet, some packet ∈ answers ->
    packet.length ≤ capacity s.reader.maxMessageSize ∧
      capacity s.reader.maxMessageSize < 2 ^ 31
  failed : rv = false -> answers = [] ∧ outcome = .done none
  result : rv = true ->
    CcidResult cmd expected s.reader.maxMessageSize 6 answers outcome

def Host.sentCommand (s : Host σ) (cmd : CcidCommand) (dumps : List Dump)
    (usb : σ) : Host σ :=
  { s.sent cmd.pkt.contents true usb with
    dumps := dumps
    reader := { s.reader with ccidSeq := cmd.seq.toNat + 1 } }

/-- The three ways through `ccid_xfer`. -/
theorem ccidXfer_cases (cmd : CcidCommand) (expected : UInt8) (h : cmd.pkt.Wf)
    (s : Host σ) :
    exists dumps,
      ccidXfer cmd expected s =
        if s.optDebug ≤ 1 ∨ cmd.pkt.contents.length ≤ 2 ^ 32 - 32 then
          if (uusbSendBulk s.dev cmd.pkt s.usb).1 then
            ccidXferLoop cmd expected 6
              (s.sentCommand cmd dumps (uusbSendBulk s.dev cmd.pkt s.usb).2)
          else (.done none,
            { s.sent cmd.pkt.contents false (uusbSendBulk s.dev cmd.pkt s.usb).2
              with dumps := dumps })
        else (.hang, { s with dumps := dumps }) := by
  rcases whenDebug2_dump_command h s with ⟨dumps, hdump⟩
  refine ⟨dumps, ?_⟩
  by_cases hends : s.optDebug ≤ 1 ∨ cmd.pkt.contents.length ≤ 2 ^ 32 - 32
  · rw [if_pos hends] at hdump ⊢
    have hsend := uusbSend_apply h { s with dumps := dumps }
    rw [ccidXfer, Process.bind_done hdump, Process.bind_done hsend]
    cases hrv : (uusbSendBulk s.dev cmd.pkt s.usb).1 with
    | true => rfl
    | false => rfl
  · rw [if_neg hends] at hdump ⊢
    rw [ccidXfer, Process.bind_apply, hdump]

theorem ccidXfer_ensures (cmd : CcidCommand) (expected : UInt8) (h : cmd.pkt.Wf)
    (s : Host σ) :
    (ccidXfer cmd expected).Ensures s fun outcome t =>
      (2 ^ 32 - 32 < cmd.pkt.contents.length ∧ outcome = .hang ∧
        exists dumps, t = { s with dumps := dumps }) ∨
      exists rv answers, CcidExchanged cmd expected s t rv answers outcome := by
  unfold Process.Ensures
  rcases ccidXfer_cases cmd expected h s with ⟨dumps, hrun⟩
  rw [hrun]
  split
  · split
    · refine Or.inr ?_
      rcases ccidXferLoop_ensures cmd expected 6
        (s.sentCommand cmd dumps (uusbSendBulk s.dev cmd.pkt s.usb).2) with
        ⟨answers, hloop⟩
      refine ⟨true, answers, hloop.reader, hloop.dev, hloop.optDebug, ?_,
        hloop.length_le, hloop.fits, by simp, fun _ => hloop.result⟩
      rw [hloop.log]
      simp [Host.sentCommand, Host.sent]
    · refine Or.inr ⟨false, [], rfl, rfl, rfl, rfl, Nat.zero_le _, ?_,
        fun _ => ⟨rfl, rfl⟩, by simp⟩
      intro packet hmem
      cases hmem
  · rename_i hlong
    exact Or.inl ⟨by lia, rfl, dumps, rfl⟩

/-- When an exchange returns: the dump of the command ends, and until a packet
decides the device delivers whole packets only. -/
theorem ccidXfer_returns_iff (cmd : CcidCommand) (expected : UInt8)
    (h : cmd.pkt.Wf) (s : Host σ) :
    (exists resp, (ccidXfer cmd expected s).1 = .done resp) ↔
      (s.optDebug ≤ 1 ∨ cmd.pkt.contents.length ≤ 2 ^ 32 - 32) ∧
      ((uusbSendBulk s.dev cmd.pkt s.usb).1 = true ->
        CcidWholeUntilDecided cmd expected s.dev s.reader.maxMessageSize 6
          (uusbSendBulk s.dev cmd.pkt s.usb).2) := by
  rcases ccidXfer_cases cmd expected h s with ⟨dumps, hrun⟩
  rw [hrun]
  split
  · rename_i hends
    split
    · rename_i hsent
      have hloop := ccidXferLoop_returns_iff cmd expected 6
        (s.sentCommand cmd dumps (uusbSendBulk s.dev cmd.pkt s.usb).2)
      exact hloop.trans ⟨fun hwhole => ⟨hends, fun _ => hwhole⟩,
        fun hboth => hboth.2 hsent⟩
    · rename_i hfailed
      exact iff_of_true ⟨none, rfl⟩ ⟨hends, fun hsent => absurd hsent hfailed⟩
  · rename_i hlong
    refine iff_of_false ?_ (fun hboth => hlong hboth.1)
    intro hreturned
    rcases hreturned with ⟨resp, hresp⟩
    cases hresp

end

end UtokenDecrypt
