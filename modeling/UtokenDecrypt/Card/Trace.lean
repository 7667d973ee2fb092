import UtokenDecrypt.Card.Rules
import UtokenDecrypt.Ccid.Debug
import UtokenDecrypt.UtilText

/-!
# What debugging shows

The hex dumps of a run next to the packets on the wire.  With `opt_debug > 1` each
packet is dumped before it is sent, and each one of the size of a header when it has been
received, so that the text gives away all that is sent, the PIN too; otherwise the
cleartext is the only thing that is passed to `hexdump`.
-/

namespace UtokenDecrypt

open Foundation
open Usb

/-!
## Dumps and packets
-/

def Dump.bytes (d : Dump) : List UInt8 :=
  d.mem.take d.size

/-- The text of a dump, from which these bytes can be read. -/
def Dump.Prints (d : Dump) (bytes : List UInt8) : Prop :=
  forall indent arrays, exists lines, hexdumpText d.mem d.size indent arrays = .done lines ∧
    readDump indent lines = bytes

/-- A dump that is made of a packet that has been received, which covers as many bytes as
the header says there are. -/
structure Dump.Shows (d : Dump) (packet : List UInt8) : Prop where
  mem : d.mem.take packet.length = packet
  size : d.size = wrap32 (10 + ccidDeclared packet)

/-- What is added to the records at a time: a packet with the dump that belongs to it,
or a dump alone. -/
inductive TraceBlock where
  | sent (before : Option Dump) (packet : List UInt8) (rv : Bool)
  | received (packet : Option (List UInt8)) (behind : Option Dump)
  | alone (d : Dump)

namespace TraceBlock

def events : TraceBlock -> List Event
  | sent _ packet rv => [.send packet rv]
  | received packet _ => [.recv packet]
  | alone _ => []

def dumps : TraceBlock -> List Dump
  | sent before _ _ => before.toList
  | received _ behind => behind.toList
  | alone d => [d]

/-- What the records say of the wire.  A dump stands alone if it is the one of the
ciphertext, or if it does not return. -/
def Faithful (loud : Prop) (ciphertext : List UInt8) : TraceBlock -> Prop
  | sent before packet _ =>
      (loud -> exists d, before = some d ∧ d.Prints packet) ∧ (¬ loud -> before = none)
  | received packet behind =>
      (forall bytes, packet = some bytes -> loud -> 10 ≤ bytes.length ->
        exists d, behind = some d ∧ d.Shows bytes) ∧ (¬ loud -> behind = none)
  | alone d => loud ∧ (d.bytes = ciphertext ∨ hexdump d.mem d.size ≠ .done ())

end TraceBlock

section

variable {σ : Type}

/-- From one state to the other these blocks are added to the records. -/
structure Host.Traces (s : Host σ) (blocks : List TraceBlock) (t : Host σ) : Prop where
  log : t.log = s.log ++ blocks.flatMap TraceBlock.events
  dumps : t.dumps = s.dumps ++ blocks.flatMap TraceBlock.dumps
  optDebug : t.optDebug = s.optDebug

def Host.Traced (ciphertext : List UInt8) (s t : Host σ) : Prop :=
  exists blocks, s.Traces blocks t ∧
    forall block, block ∈ blocks -> block.Faithful (1 < s.optDebug) ciphertext

theorem Host.Traced.same {ciphertext : List UInt8} {s t : Host σ} (hlog : t.log = s.log)
    (hdumps : t.dumps = s.dumps) (hdebug : t.optDebug = s.optDebug) :
    s.Traced ciphertext t :=
  ⟨[], ⟨hlog.trans (List.append_nil _).symm, hdumps.trans (List.append_nil _).symm, hdebug⟩,
    fun _ hmem => (List.not_mem_nil hmem).elim⟩

theorem Host.traced_closed (ciphertext : List UInt8) :
    Process.Closed (Host.Traced (σ := σ) ciphertext) where
  refl := fun _ => .same rfl rfl rfl
  trans := by
    intro s t u h1 h2
    rcases h1 with ⟨front, hfront, hall⟩
    rcases h2 with ⟨back, hback, hmore⟩
    refine ⟨front ++ back, ⟨?_, ?_, hback.optDebug.trans hfront.optDebug⟩, ?_⟩
    · rw [hback.log, hfront.log, List.append_assoc, List.flatMap_append]
    · rw [hback.dumps, hfront.dumps, List.append_assoc, List.flatMap_append]
    · intro block hmem
      rcases List.mem_append.mp hmem with hin | hin
      · exact hall block hin
      · rw [← hfront.optDebug]
        exact hmore block hin

theorem Host.Traced.single {ciphertext : List UInt8} {s t : Host σ} (block : TraceBlock)
    (hlog : t.log = s.log ++ block.events) (hdumps : t.dumps = s.dumps ++ block.dumps)
    (hdebug : t.optDebug = s.optDebug) (h : block.Faithful (1 < s.optDebug) ciphertext) :
    s.Traced ciphertext t := by
  refine ⟨[block], ⟨?_, ?_, hdebug⟩, fun other hmem => ?_⟩
  · rw [hlog, List.flatMap_singleton]
  · rw [hdumps, List.flatMap_singleton]
  · rw [List.mem_singleton.mp hmem]
    exact h

/-- The bytes of a dump that returns are in its text. -/
theorem Dump.prints_of_done {d : Dump} (hsize : d.size < 2 ^ 32)
    (h : hexdump d.mem d.size = .done ()) : d.Prints d.bytes := by
  intro indent arrays
  refine ⟨dumpText d.mem d.size indent, ?_, readDump_dumpText d.mem d.size indent⟩
  rw [hexdumpText_eq d.mem hsize, h, Outcome.map_done]

/-!
## Receiving
-/

section

variable {ciphertext : List UInt8} {s : Host σ} {packet : List UInt8} {usb : σ}

theorem Host.received_quiet (h : ¬ 1 < s.optDebug) (answer : Option (List UInt8)) :
    s.Traced ciphertext (s.received answer usb) := by
  refine .single (.received answer none) rfl (List.append_nil _).symm rfl ⟨?_, fun _ => rfl⟩
  intro bytes _ hloud
  exact absurd hloud h

/-- A packet that is received is dumped behind it. -/
theorem traced_ccidDumpResponse {maxlen : Nat} (hfits : packet.length ≤ capacity maxlen) :
    s.Traced ciphertext (whenDebug2 (ccidDumpResponse (uusbRecvFilled maxlen packet))
      (s.received (some packet) usb)).2 := by
  by_cases hloud : 1 < s.optDebug
  · rcases uusbRecvFilled_spec hfits with ⟨hwf, hcontents, _, _⟩
    have hdump : whenDebug2 (ccidDumpResponse (uusbRecvFilled maxlen packet))
        (s.received (some packet) usb) =
          ccidDumpResponse (uusbRecvFilled maxlen packet) (s.received (some packet) usb) :=
      if_pos hloud
    rw [hdump, ccidDumpResponse_eq hwf, hcontents]
    by_cases hshort : packet.length < 10
    · rw [if_pos hshort]
      refine .single (.received (some packet) none) rfl (List.append_nil _).symm rfl
        ⟨?_, fun _ => rfl⟩
      intro bytes hbytes _ hlong
      injection hbytes with hbytes
      rw [← hbytes] at hlong
      lia
    · rw [if_neg hshort]
      let d : Dump := {
        mem := bufferReadPointer (uusbRecvFilled maxlen packet)
        size := wrap32 (10 + ccidDeclared packet) }
      have hshows : d.Shows packet := by
        refine ⟨?_, rfl⟩
        have htake := bufferReadPointer_take_all hwf
        rw [bufferAvailable_eq hwf, hcontents] at htake
        exact htake
      refine .single (.received (some packet) (some d)) rfl rfl rfl
        ⟨?_, fun hquiet => absurd hloud hquiet⟩
      intro bytes hbytes _ _
      injection hbytes with hbytes
      rw [← hbytes]
      exact ⟨d, rfl, hshows⟩
  · have hdump : whenDebug2 (ccidDumpResponse (uusbRecvFilled maxlen packet))
        (s.received (some packet) usb) = (.done (), s.received (some packet) usb) :=
      if_neg hloud
    rw [hdump]
    exact Host.received_quiet hloud (some packet)

end

variable [Usbfs σ]

omit [Usbfs σ] in
theorem traced_ccidXferAnswer {ciphertext : List UInt8} (cmd : CcidCommand) (expected : UInt8)
    (rbuf : Buffer) {again : Process (Host σ) (Option CcidResponse)}
    (h : Process.Keeps (Host.Traced ciphertext) again) :
    Process.Keeps (Host.Traced ciphertext) (ccidXferAnswer cmd expected rbuf again) := by
  have hclosed := Host.traced_closed (σ := σ) ciphertext
  unfold ccidXferAnswer
  split
  · exact .crash hclosed
  · split
    · dsimp only
      split_ifs
      · exact .pure hclosed none
      · exact .pure hclosed _
      · exact h
      · exact .pure hclosed none
    · exact h

theorem traced_ccidXferLoop {ciphertext : List UInt8} (cmd : CcidCommand) (expected : UInt8)
    (count : Nat) :
    Process.Keeps (Host.Traced (σ := σ) ciphertext) (ccidXferLoop cmd expected count) := by
  have hclosed := Host.traced_closed (σ := σ) ciphertext
  induction count with
  | zero => exact .pure hclosed none
  | succ count ih =>
      intro s
      rcases hrecv : uusbRecvBulk s.dev s.reader.maxMessageSize s.usb with ⟨answer, usb⟩
      cases answer with
      | none =>
          rw [ccidXferLoop_none count hrecv]
          refine .single (.received none none) rfl (List.append_nil _).symm rfl
            ⟨(fun _ hbad => by cases hbad), fun _ => rfl⟩
      | some packet =>
          have hreceived : s.Traced ciphertext (whenDebug2 (ccidDumpResponse
              (uusbRecvFilled s.reader.maxMessageSize packet))
                (s.received (some packet) usb)).2 :=
            traced_ccidDumpResponse (uusbRecvBulk_le hrecv).1
          rw [ccidXferLoop_some count hrecv, Process.bind_apply]
          rcases hdump : whenDebug2 (ccidDumpResponse
            (uusbRecvFilled s.reader.maxMessageSize packet)) (s.received (some packet) usb) with
            ⟨outcome, t⟩
          rw [hdump] at hreceived
          cases outcome with
          | done value =>
              exact hclosed.trans hreceived (traced_ccidXferAnswer cmd expected _ ih t)
          | crash => exact hreceived
          | hang => exact hreceived

/-!
## Sending
-/

/-- What `ccid_xfer` does when the packet has been dumped. -/
def ccidXferDumped (cmd : CcidCommand) (expected : UInt8) :
    Process (Host σ) (Option CcidResponse) := do
  let rv ← uusbSend cmd.pkt
  if rv then do
    Process.update fun s =>
      { s with reader := { s.reader with ccidSeq := cmd.seq.toNat + 1 } }
    ccidXferLoop cmd expected 6
  else pure none

theorem ccidXfer_dumped (cmd : CcidCommand) (expected : UInt8) :
    ccidXfer (σ := σ) cmd expected =
      whenDebug2 (dump (bufferReadPointer cmd.pkt) (bufferAvailable cmd.pkt)) >>= fun _ =>
        ccidXferDumped cmd expected := rfl

/-- The packet that is sent stands behind its dump, if there is one. -/
theorem traced_ccidXferDumped {ciphertext : List UInt8} (cmd : CcidCommand)
    (expected : UInt8) (s : Host σ) (before : Option Dump)
    (hloud : 1 < s.optDebug -> exists d, before = some d ∧
      d.Prints ((bufferReadPointer cmd.pkt).take (bufferAvailable cmd.pkt)))
    (hquiet : ¬ 1 < s.optDebug -> before = none) :
    s.Traced ciphertext
      (ccidXferDumped cmd expected { s with dumps := s.dumps ++ before.toList }).2 := by
  have hclosed := Host.traced_closed (σ := σ) ciphertext
  let packet := (bufferReadPointer cmd.pkt).take (bufferAvailable cmd.pkt)
  rcases hsend : uusbSendBulk s.dev cmd.pkt s.usb with ⟨rv, usb⟩
  have hrun : uusbSend cmd.pkt { s with dumps := s.dumps ++ before.toList } =
      (.done rv, { s with
        usb := usb
        dumps := s.dumps ++ before.toList
        log := s.log ++ [.send packet rv] }) := by
    unfold uusbSend
    rw [hsend]
  have hsent : s.Traced ciphertext { s with
      usb := usb
      dumps := s.dumps ++ before.toList
      log := s.log ++ [.send packet rv] } :=
    .single (.sent before packet rv) rfl rfl rfl ⟨hloud, hquiet⟩
  rw [ccidXferDumped, Process.bind_done hrun]
  cases rv with
  | false => exact hsent
  | true =>
      have hupdate : Process.Keeps (Host.Traced (σ := σ) ciphertext) (Process.update fun s =>
          { s with reader := { s.reader with ccidSeq := cmd.seq.toNat + 1 } }) :=
        fun _ => .same rfl rfl rfl
      exact hclosed.trans hsent (Process.Keeps.bind hclosed hupdate
        (fun _ => traced_ccidXferLoop cmd expected 6) _)

/-- A packet is dumped in front of it, and sent only if the dump returns. -/
theorem traced_ccidXfer {ciphertext : List UInt8} (cmd : CcidCommand) (expected : UInt8) :
    Process.Keeps (Host.Traced (σ := σ) ciphertext) (ccidXfer cmd expected) := by
  intro s
  let d : Dump := { mem := bufferReadPointer cmd.pkt, size := bufferAvailable cmd.pkt }
  by_cases hloud : 1 < s.optDebug
  · have hdump : whenDebug2 (dump (bufferReadPointer cmd.pkt) (bufferAvailable cmd.pkt)) s =
        (hexdump d.mem d.size, { s with dumps := s.dumps ++ [d] }) := if_pos hloud
    have halone : hexdump d.mem d.size ≠ .done () ->
        s.Traced ciphertext { s with dumps := s.dumps ++ [d] } := fun hstops =>
      .single (.alone d) (List.append_nil _).symm rfl rfl ⟨hloud, Or.inr hstops⟩
    rw [ccidXfer_dumped, Process.bind_apply, hdump]
    cases hends : hexdump d.mem d.size with
    | crash => exact halone (by rw [hends]; exact fun hbad => by cases hbad)
    | hang => exact halone (by rw [hends]; exact fun hbad => by cases hbad)
    | done value =>
        have hprints := Dump.prints_of_done (wrap32_lt _) hends
        exact traced_ccidXferDumped cmd expected s (some d) (fun _ => ⟨d, rfl, hprints⟩)
          fun hquiet => absurd hloud hquiet
  · have hdump : whenDebug2 (dump (bufferReadPointer cmd.pkt) (bufferAvailable cmd.pkt)) s =
        (.done (), s) := if_neg hloud
    have hnothing : s.Traced ciphertext
        (ccidXferDumped cmd expected { s with dumps := s.dumps ++ [] }).2 :=
      traced_ccidXferDumped cmd expected s none (fun hbad => absurd hbad hloud) fun _ => rfl
    rw [List.append_nil] at hnothing
    rw [ccidXfer_dumped, Process.bind_done hdump]
    exact hnothing

theorem traced_runRelation (ciphertext : Buffer) :
    RunRelation ciphertext (Host.Traced (σ := σ)
      ((bufferReadPointer ciphertext).take (bufferAvailable ciphertext))) where
  closed := Host.traced_closed _
  select := fun hsame => .same hsame.log hsame.dumps hsame.optDebug
  reader := fun _ _ => .same rfl rfl rfl
  xfer := fun cmd expected _ => traced_ccidXfer cmd expected
  ciphertext := by
    intro s
    unfold whenDebug2
    split
    · rename_i hloud
      exact .single (.alone {
        mem := bufferReadPointer ciphertext
        size := bufferAvailable ciphertext }) (List.append_nil _).symm rfl rfl
          ⟨hloud, Or.inl rfl⟩
    · exact (Host.traced_closed _).refl s

/-!
## The whole run
-/

/-- The dumps at the end, by how the run ends: of the cleartext where there is one,
and otherwise none but the one the run ends in. -/
inductive ShowsCleartext : List Dump -> Outcome (Option Buffer) -> Prop where
  | shown {d : Dump} {cleartext : Buffer} :
      d.Prints ((bufferReadPointer cleartext).take (bufferAvailable cleartext)) ->
      ShowsCleartext [d] (.done (some cleartext))
  | nothing {outcome : Outcome (Option Buffer)} :
      (forall cleartext, outcome ≠ .done (some cleartext)) -> ShowsCleartext [] outcome
  | crashed {d : Dump} : hexdump d.mem d.size = .crash -> ShowsCleartext [d] .crash
  | hung {d : Dump} : hexdump d.mem d.size = .hang -> ShowsCleartext [d] .hang

omit [Usbfs σ] in
theorem peek_apply {α : Type} (block : List UInt8) (proc : Peek α) (s : Host σ) :
    (exists value, Process.peek block proc s = (.done value, s)) ∨
      Process.peek block proc s = (.crash, s) := by
  unfold Process.peek
  split
  · exact Or.inl ⟨_, rfl⟩
  · exact Or.inr rfl

omit [Usbfs σ] in
theorem yubikeyUnwrap_dumps (rapdu : Buffer) (s : Host σ) :
    (yubikeyUnwrap rapdu).Ensures s fun outcome t => exists last : List Dump,
      t = { s with dumps := s.dumps ++ last } ∧ ShowsCleartext last outcome := by
  have hnothing : forall outcome : Outcome (Option Buffer),
      (forall cleartext, outcome ≠ .done (some cleartext)) -> exists last : List Dump,
        s = { s with dumps := s.dumps ++ last } ∧ ShowsCleartext last outcome := by
    intro outcome hno
    exact ⟨[], by rw [List.append_nil], .nothing hno⟩
  have hcrash := hnothing .crash fun _ hbad => by cases hbad
  have hnone := hnothing (.done none) fun _ hbad => by cases hbad
  unfold Process.Ensures yubikeyUnwrap
  rcases peek_apply rapdu.data (yubikeyDecodeDecipherResp rapdu) s with
    ⟨⟨okay, padded⟩, hpadded⟩ | hpadded
  · rw [Process.bind_done hpadded]
    cases okay with
    | false => exact hnone
    | true =>
        dsimp only
        rcases peek_apply padded.data (pkcs1Type2PaddingRemove padded) s with
          ⟨⟨okay, cleartext⟩, hcleartext⟩ | hcleartext
        · rw [if_pos rfl, Process.bind_done hcleartext]
          cases okay with
          | false => exact hnone
          | true =>
              let d : Dump := {
                mem := bufferReadPointer cleartext
                size := bufferAvailable cleartext }
              have hdump : dump (bufferReadPointer cleartext) (bufferAvailable cleartext) s =
                  (hexdump d.mem d.size, { s with dumps := s.dumps ++ [d] }) := rfl
              dsimp only
              rw [if_pos rfl, Process.bind_apply, hdump]
              cases hends : hexdump d.mem d.size with
              | crash => exact ⟨[d], rfl, .crashed hends⟩
              | hang => exact ⟨[d], rfl, .hung hends⟩
              | done value =>
                  exact ⟨[d], rfl, .shown (Dump.prints_of_done (wrap32_lt _) hends)⟩
        · rw [if_pos rfl, Process.bind_apply, hcleartext]
          exact hcrash
  · rw [Process.bind_apply, hpadded]
    exact hcrash

structure DebugRecord (ciphertext : List UInt8) (s : Host σ) (blocks : List TraceBlock)
    (last : List Dump) (outcome : Outcome (Option Buffer)) (t : Host σ) : Prop where
  log : t.log = s.log ++ blocks.flatMap TraceBlock.events
  dumps : t.dumps = s.dumps ++ (blocks.flatMap TraceBlock.dumps ++ last)
  faithful : forall block, block ∈ blocks -> block.Faithful (1 < s.optDebug) ciphertext
  cleartext : ShowsCleartext last outcome

/-- With `opt_debug > 1` all that is sent can be read from the dumps, one for each
packet, and so can the headers that are received; otherwise nothing is dumped, except
for the cleartext in the end. -/
theorem doit_debug (pin : Option CString) (ciphertext : Buffer) (cardopts : List CString)
    (s : Host σ) :
    (doit pin ciphertext cardopts).Ensures s fun outcome t => exists blocks last,
      DebugRecord ((bufferReadPointer ciphertext).take (bufferAvailable ciphertext)) s blocks
        last outcome t := by
  have hkeeps := (traced_runRelation (σ := σ) ciphertext).doitReply pin cardopts s
  unfold Process.Ensures
  rw [doit_eq_unwrap, Process.thenSome, Process.bind_apply]
  rcases hreply : doitReply pin ciphertext cardopts s with ⟨outcome, t⟩
  rw [hreply] at hkeeps
  rcases hkeeps with ⟨blocks, htraces, hfaithful⟩
  have hstopped : forall outcome : Outcome (Option Buffer),
      (forall cleartext, outcome ≠ .done (some cleartext)) -> exists blocks last,
        DebugRecord ((bufferReadPointer ciphertext).take (bufferAvailable ciphertext)) s blocks
          last outcome t := by
    intro outcome hno
    refine ⟨blocks, [], htraces.log, ?_, hfaithful, .nothing hno⟩
    rw [List.append_nil]
    exact htraces.dumps
  cases outcome with
  | crash => exact hstopped .crash fun _ hbad => by cases hbad
  | hang => exact hstopped .hang fun _ hbad => by cases hbad
  | done got =>
      cases got with
      | none => exact hstopped (.done none) fun _ hbad => by cases hbad
      | some rapdu =>
          have hunwrap := yubikeyUnwrap_dumps rapdu t
          unfold Process.Ensures at hunwrap
          rcases hunwrap with ⟨last, hstate, hclear⟩
          dsimp only [Option.elim]
          rw [hstate]
          refine ⟨blocks, last, htraces.log, ?_, hfaithful, hclear⟩
          rw [← List.append_assoc, ← htraces.dumps]

end

end UtokenDecrypt
