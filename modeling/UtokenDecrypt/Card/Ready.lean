import UtokenDecrypt.Card.Result
import UtokenDecrypt.Card.Wire

/-!
# A token that is ready

What a device has to answer for a run to get to the ciphertext, packet by packet: there is
a card in the slot, it gets power and is one the program knows, and it takes the
application and the PIN.
-/

namespace UtokenDecrypt

open Foundation
open Usb

section

variable {σ : Type} [Usbfs σ] {port : Port} {w w' : Wire σ} {s : Host σ}

/-!
## The reader
-/

/-- The device takes a command without a payload, and the next packet is the response. -/
structure Wire.Replies (port : Port) (w : Wire σ) (cmd : UInt8) (ctl : Option CcidCtl)
    (type status : UInt8) (payload : List UInt8) (w' : Wire σ) : Prop where
  replies : exists usb packet,
    Usbfs.bulkOut w.usb (endpointAddress port.dev.endpoints.epO)
        (ccidPacket cmd (UInt8.ofNat port.slot) (UInt8.ofNat w.seq) (ctl.getD {}) []) =
      (true, usb) ∧
    uusbRecvBulk port.dev port.maxMessageSize usb = (some packet, w'.usb) ∧
    CcidReplies (UInt8.ofNat port.slot) (UInt8.ofNat w.seq) type status payload packet
  seq : w'.seq = (UInt8.ofNat w.seq).toNat + 1

/-- What `ccid_xfer` makes of a response by its status. -/
structure Responded (status : UInt8) (payload : List UInt8) (resp : Option CcidResponse) :
    Prop where
  accepted : status &&& 0xc0 = 0 -> exists r, resp = some r ∧ r.ctl.ctl1 = status ∧
    r.payload.Wf ∧ r.payload.contents = payload
  failed : status &&& 0xc0 = 0x40 -> resp = none

/-- The host is at this place of the wire. -/
structure Host.At (s : Host σ) (port : Port) (w : Wire σ) : Prop where
  port : s.port port.slot = port
  wire : s.wire = w

omit [Usbfs σ] in
theorem Host.At.dev (h : s.At port w) : s.dev = port.dev :=
  congrArg Port.dev h.port

omit [Usbfs σ] in
theorem Host.At.maxMessageSize (h : s.At port w) :
    s.reader.maxMessageSize = port.maxMessageSize :=
  congrArg Port.maxMessageSize h.port

omit [Usbfs σ] in
theorem Host.At.next {t : Host σ} (h : s.At port w) (hsame : s.SameReader t)
    (hwire : t.wire = w') : t.At port w' := by
  refine ⟨?_, hwire⟩
  rw [Host.port, hsame.dev, hsame.maxMessageSize]
  exact h.port

omit [Usbfs σ] in
/-- The status is the first byte behind the numbers. -/
theorem ccidCtl_status {packet : List UInt8} (h : CcidWellFormed packet) :
    (CcidCtl.ofBytes ((packet.drop 7).take 3)).ctl1 = packet.getD 7 0 := by
  have hlong : 10 ≤ packet.length := h.1
  have hpos : 0 < (packet.drop 7).length := by
    rw [List.length_drop]
    lia
  rcases List.exists_cons_of_length_pos hpos with ⟨first, rest, hdrop⟩
  have hhead := congrArg List.head? hdrop
  rw [List.head?_drop, List.head?_cons] at hhead
  rw [hdrop, List.getD_eq_getElem?_getD, hhead, Option.getD_some]
  rfl

/-- A response to the command just sent ends the loop, unless it asks for more time. -/
theorem ccidXferLoop_replies {cmd : CcidCommand} {type status : UInt8}
    {payload packet : List UInt8} {usb : σ} (retries : Nat)
    (hrecv : uusbRecvBulk s.dev s.reader.maxMessageSize s.usb = (some packet, usb))
    (h : CcidReplies cmd.slot cmd.seq type status payload packet)
    (hends : status &&& 0xc0 = 0 ∨ status &&& 0xc0 = 0x40) :
    exists resp t, ccidXferLoop cmd type (retries + 1) s = (.done resp, t) ∧
      t.usb = usb ∧ s.SameReader t ∧ t.reader = s.reader ∧ Responded status payload resp := by
  rcases ccidXferLoop_whole cmd type retries hrecv h.whole with ⟨dumps, hround⟩
  rw [hround]
  cases hends with
  | inl hok =>
      have haccept : ccidVerdict cmd type packet = .accept :=
        ccidVerdict_accept_iff.mpr ⟨h.whole, h.slot, h.seq, h.type, by rw [h.status]; exact hok⟩
      have hfits := (uusbRecvBulk_le hrecv).1
      have haccepted := ccidAccepted_spec hfits haccept
      have hctl := (ccidCtl_status h.whole).trans h.status
      rw [haccept]
      refine ⟨_, _, rfl, rfl, ⟨⟨_, rfl⟩, rfl, rfl⟩, rfl, fun _ => ⟨_, rfl, ?_, haccepted.wf,
        haccepted.contents.trans h.payload⟩, fun hbad => ?_⟩
      · rw [← (uusbRecvFilled_spec hfits).2.1] at hctl
        exact hctl
      · rw [hok] at hbad
        cases hbad
  | inr hfailed =>
      have hreject : ccidVerdict cmd type packet = .reject := by
        rw [ccidVerdict, if_neg (not_not.mpr h.whole), h.slot, h.seq, if_neg (by simp), h.type,
          if_neg (by simp), h.status, hfailed]
        rfl
      rw [hreject]
      refine ⟨_, _, rfl, rfl, ⟨⟨_, rfl⟩, rfl, rfl⟩, rfl, fun hbad => ?_, fun _ => rfl⟩
      rw [hfailed] at hbad
      cases hbad

theorem Wire.Replies.exchange {cmd type status : UInt8} {ctl : Option CcidCtl}
    {payload : List UInt8} (h : w.Replies port cmd ctl type status payload w')
    (hends : status &&& 0xc0 = 0 ∨ status &&& 0xc0 = 0x40) (hat : s.At port w) :
    exists resp t,
      ccidXferBuilt (ccidBuildCommand s.reader (UInt8.ofNat port.slot) cmd ctl [] 0) type s =
        (.done resp, t) ∧
      t.At port w' ∧ s.SameReader t ∧ Responded status payload resp := by
  have husb : s.usb = w.usb := congrArg Wire.usb hat.wire
  have hseq : s.reader.ccidSeq = w.seq := congrArg Wire.seq hat.wire
  rcases h.replies with ⟨usb, packet, hout, hrecv, hreplies⟩
  cases hbuild : ccidBuildCommand s.reader (UInt8.ofNat port.slot) cmd ctl [] 0 with
  | none => exact absurd (ccidBuildCommand_eq_none_iff.mp hbuild) (by decide)
  | some built =>
      rcases ccidBuildCommand_spec hbuild with ⟨hslot, hcmdSeq, hwf, hcontents⟩
      rw [hseq] at hcmdSeq hcontents
      have hlength : built.pkt.contents.length = 10 := by
        rw [hcontents, ccidPacket_length]
        rfl
      have hsend : uusbSendBulk s.dev built.pkt s.usb = (true, usb) := by
        have hokay : uusbBulkOkay (bufferAvailable built.pkt) = true := by
          rw [bufferAvailable_eq hwf, hlength]
          exact uusbBulkOkay_of_lt (by decide)
        simp only [uusbSendBulk, bufferReadPointer_take_all hwf, hcontents, hat.dev, husb, hout,
          hokay, Bool.and_self]
      rcases ccidXfer_cases built type hwf s with ⟨dumps, hrun⟩
      rw [if_pos (Or.inr (by lia)), hsend, if_pos rfl] at hrun
      let sent := s.sentCommand built dumps usb
      have hsent : s.SameReader sent := ⟨⟨_, rfl⟩, rfl, rfl⟩
      rw [← hslot, ← hcmdSeq] at hreplies
      rw [← hat.dev, ← hat.maxMessageSize] at hrecv
      rcases ccidXferLoop_replies (s := sent) 5 hrecv hreplies hends with
        ⟨resp, t, hloop, hafter, hsame, hreader, hresponded⟩
      refine ⟨resp, t, ?_, hat.next (hsent.trans hsame) ?_, hsent.trans hsame, hresponded⟩
      · rw [ccidXferBuilt, hrun]
        exact hloop
      · rw [Host.wire, hafter, hreader]
        change Wire.mk w'.usb (built.seq.toNat + 1) = w'
        rw [hcmdSeq, ← h.seq]

/-- A card is reported to be in the slot. -/
def Wire.Present (port : Port) (w w' : Wire σ) : Prop :=
  exists status payload, status &&& 0xc0 = 0 ∧ status &&& 0x3 ≠ 2 ∧
    w.Replies port ccidCmdGetslotstat none ccidRespSlotstat status payload w'

theorem Wire.Present.selectSlot (h : w.Present port w') (hslot : port.slot = 0)
    (hat : s.At port w) (hnew : s.reader.currentSlot = -1) :
    exists t, ccidReaderSelectSlot 0 s = (.done true, t) ∧ t.At port w' ∧
      t.reader.currentSlot = 0 ∧ t.reader.autoVoltage = s.reader.autoVoltage ∧
      t.reader.supportedVoltages = s.reader.supportedVoltages := by
  rcases h with ⟨status, payload, hok, hpresent, hreplies⟩
  rcases hreplies.exchange (Or.inl hok) hat with ⟨resp, u, hrun, hu, hsame, hresponded⟩
  rcases hresponded.accepted hok with ⟨r, rfl, hctl, _⟩
  rcases hsame.reader with ⟨seq, hreader⟩
  rw [hslot] at hrun
  have hother : ¬ slotUnsigned s.reader.currentSlot = 0 := by
    rw [hnew]
    decide
  have hstatus : ccidGetSlotStatus 0 s = (.done (some 1), u) := by
    have hxfer : ccidXferBuilt (ccidBuildSimplePacket s.reader (UInt8.ofNat 0)
        ccidCmdGetslotstat) ccidRespSlotstat s = (.done (some r), u) := hrun
    rw [ccidGetSlotStatus, Process.bind_done (Process.read_apply s), Process.bind_pure_apply,
      hxfer, Outcome.map_done, Option.map_some, hctl, if_neg hpresent]
  refine ⟨{ u with reader := { u.reader with currentSlot := signed32 0 } }, ?_,
    ⟨hu.port, hu.wire⟩, rfl, ?_, ?_⟩
  · rw [ccidReaderSelectSlot, Process.bind_done (Process.read_apply s), if_neg hother,
      Process.bind_done hstatus]
    rfl
  · rw [hreader]
  · rw [hreader]

/-- The voltages are refused up to one that brings the answer to reset. -/
inductive Wire.PowersOn (port : Port) (atr : IfdAtrbuf) :
    Wire σ -> List UInt8 -> Wire σ -> Prop where
  | taken {w w' : Wire σ} {voltage : UInt8} {rest : List UInt8} {status : UInt8}
      (hok : status &&& 0xc0 = 0)
      (h : w.Replies port ccidCmdIccpoweron (some { ctl1 := voltage }) ccidRespData status
        atr w') :
      PowersOn port atr w (voltage :: rest) w'
  | refused {w mid w' : Wire σ} {voltage : UInt8} {rest : List UInt8} {status : UInt8}
      {payload : List UInt8} (hfailed : status &&& 0xc0 = 0x40)
      (h : w.Replies port ccidCmdIccpoweron (some { ctl1 := voltage }) ccidRespData status
        payload mid)
      (hrest : PowersOn port atr mid rest w') :
      PowersOn port atr w (voltage :: rest) w'

theorem Wire.Replies.poweron {voltage status : UInt8} {payload : List UInt8}
    (h : w.Replies port ccidCmdIccpoweron (some { ctl1 := voltage }) ccidRespData status
      payload w')
    (hends : status &&& 0xc0 = 0 ∨ status &&& 0xc0 = 0x40) (hslot : port.slot = 0)
    (hat : s.At port w) :
    exists atr t, ccidCardPoweron 0 voltage s = (.done atr, t) ∧ t.At port w' ∧
      s.SameReader t ∧
      (status &&& 0xc0 = 0 -> payload.length ≤ ifdMaxAtrLen -> atr = some payload) ∧
      (status &&& 0xc0 = 0x40 -> atr = none) := by
  rcases h.exchange hends hat with ⟨resp, t, hrun, ht, hsame, hresponded⟩
  rw [hslot] at hrun
  have hpower : ccidCardPoweron 0 voltage s = (.done (resp.map fun resp => ifdAtrbufSet
      (bufferReadPointer resp.payload) (bufferAvailable resp.payload)), t) := by
    rw [ccidCardPoweron, Process.bind_done (Process.read_apply s), Process.bind_pure_apply,
      hrun, Outcome.map_done]
  refine ⟨_, t, hpower, ht, hsame, ?_, fun hfailed => ?_⟩
  · intro hok hshort
    rcases hresponded.accepted hok with ⟨r, rfl, _, hwf, hcontents⟩
    have htake := bufferReadPointer_take_all hwf
    rw [bufferAvailable_eq hwf, hcontents] at htake
    rw [Option.map_some, ifdAtrbufSet, bufferAvailable_eq hwf, hcontents,
      Nat.min_eq_left hshort, htake]
  · rw [hresponded.failed hfailed, Option.map_none]

theorem Wire.PowersOn.tryVoltages {atr : IfdAtrbuf} {bits : List Nat}
    (h : w.PowersOn port atr (voltageBits s.reader.supportedVoltages bits) w')
    (hshort : atr.length ≤ ifdMaxAtrLen) (hslot : port.slot = 0) (hat : s.At port w) :
    exists t, ccidTryVoltages 0 bits s = (.done (some atr), t) ∧ t.At port w' ∧
      s.SameReader t := by
  induction bits generalizing s w with
  | nil => cases h
  | cons bit bits ih =>
      rw [ccidTryVoltages, Process.bind_done (Process.read_apply s)]
      by_cases hbit : s.reader.supportedVoltages.testBit bit = true
      · have hplan : voltageBits s.reader.supportedVoltages (bit :: bits) =
            UInt8.ofNat (bit + 1) :: voltageBits s.reader.supportedVoltages bits := by
          rw [voltageBits, List.filter_cons_of_pos hbit, List.map_cons, voltageBits]
        rw [hplan] at h
        rw [if_pos hbit]
        cases h with
        | taken hok hreplies =>
            rcases hreplies.poweron (Or.inl hok) hslot hat with
              ⟨got, t, hrun, ht, hsame, hgot, _⟩
            rw [Process.bind_done hrun, hgot hok hshort]
            exact ⟨t, rfl, ht, hsame⟩
        | refused hfailed hreplies hrest =>
            rcases hreplies.poweron (Or.inr hfailed) hslot hat with
              ⟨got, t, hrun, ht, hsame, _, hgot⟩
            rcases hsame.reader with ⟨seq, hreader⟩
            rw [Process.bind_done hrun, hgot hfailed]
            have hvoltages : t.reader.supportedVoltages = s.reader.supportedVoltages := by
              rw [hreader]
            rw [← hvoltages] at hrest
            rcases ih hrest ht with ⟨u, hdone, hu, hthen⟩
            exact ⟨u, hdone, hu, hsame.trans hthen⟩
      · have hplan : voltageBits s.reader.supportedVoltages (bit :: bits) =
            voltageBits s.reader.supportedVoltages bits := by
          rw [voltageBits, List.filter_cons_of_neg hbit, voltageBits]
        rw [hplan] at h
        rw [if_neg hbit]
        exact ih h hat

theorem Wire.PowersOn.identifyCard {atr : IfdAtrbuf}
    (h : w.PowersOn port atr
      (voltagePlan s.reader.autoVoltage s.reader.supportedVoltages) w')
    {card : IfdCard} (hknown : ifdCreateCard atr 0 = some card) (hslot : port.slot = 0)
    (hat : s.At port w) (hcurrent : s.reader.currentSlot = 0) :
    exists t, ccidReaderIdentifyCard 0 s = (.done (some card), t) ∧ t.At port w' := by
  have hshort : atr.length ≤ ifdMaxAtrLen := by
    rcases Option.map_eq_some_iff.mp hknown with ⟨reg, hfind, _⟩
    have hall : forall reg, reg ∈ ifdCardDrivers -> reg.atr.length ≤ ifdMaxAtrLen := by
      decide
    have hfound := List.find?_some hfind
    rw [of_decide_eq_true hfound]
    exact hall reg (List.mem_of_find?_eq_some hfind)
  have hreset : exists t, ccidResetCard 0 s = (.done (some atr), t) ∧ t.At port w' := by
    rw [ccidResetCard, Process.bind_done (Process.read_apply s)]
    unfold voltagePlan at h
    cases hauto : s.reader.autoVoltage with
    | false =>
        rw [hauto, if_neg Bool.false_ne_true, List.nil_append] at h
        rcases h.tryVoltages hshort hslot hat with ⟨t, hrun, ht, _⟩
        exact ⟨t, hrun, ht⟩
    | true =>
        rw [hauto, if_pos rfl, List.singleton_append] at h
        rw [if_pos rfl]
        cases h with
        | taken hok hreplies =>
            rcases hreplies.poweron (Or.inl hok) hslot hat with ⟨got, t, hrun, ht, _, hgot, _⟩
            rw [Process.bind_done hrun, hgot hok hshort]
            exact ⟨t, rfl, ht⟩
        | refused hfailed hreplies hrest =>
            rcases hreplies.poweron (Or.inr hfailed) hslot hat with
              ⟨got, t, hrun, ht, hsame, _, hgot⟩
            rcases hsame.reader with ⟨seq, hreader⟩
            rw [Process.bind_done hrun, hgot hfailed]
            have hvoltages : t.reader.supportedVoltages = s.reader.supportedVoltages := by
              rw [hreader]
            rw [← hvoltages] at hrest
            rcases hrest.tryVoltages hshort hslot ht with ⟨u, hdone, hu, _⟩
            exact ⟨u, hdone, hu⟩
  rcases hreset with ⟨t, hrun, ht⟩
  have hhere : ¬ 0 ≠ slotUnsigned s.reader.currentSlot := by
    rw [hcurrent]
    decide
  refine ⟨t, ?_, ht⟩
  rw [ccidReaderIdentifyCard, Process.bind_done (Process.read_apply s), if_neg hhere,
    Process.bind_pure_apply, hrun, Outcome.map_done, Option.bind_some, hknown]

/-!
## The card
-/

/-- A reply that is the only one to its APDU. -/
theorem ifdCardXfer_replied {card : IfdCard} {apdu : Buffer} (hwf : apdu.Wf)
    (hshort : apdu.contents.length ≤ 260) {p : ReplyApdu}
    (h : w.Answers port apdu.contents p w') (hlast : p.sw1 ≠ 0x61)
    (hslot : card.slot = port.slot) (hat : s.At port w) :
    exists reply t, ifdCardXfer card (some apdu) s = (.done (some (reply, p.sw)), t) ∧
      t.At port w' := by
  have hruns := ifdCardXfer_runs card hwf s
  rw [hslot, hat.maxMessageSize] at hruns
  rcases hrun : ifdCardXfer card (some apdu) s with ⟨outcome, t⟩
  rw [hrun] at hruns
  rcases hruns.exchange with ⟨calls, reached, last, hcalls, hproper, hexchange⟩
  rcases hexchange.first_answered h hshort hat.port hat.wire hcalls
    (fun call hmem => (hproper call hmem).apdu) with
    ⟨call, more, u, rfl, hreply, hmore, hwire, hport⟩
  have hjoined : Joined (capacity port.maxMessageSize) ([] ++ [p]) := by
    refine ⟨List.isChain_singleton p, ?_⟩
    rw [List.nil_append, List.flatMap_singleton]
    exact h.fits
  rcases hexchange.first_reply hreply with ⟨hnil, hends⟩ | ⟨_, _, hsw1, _⟩
  · have houtcome := (hends.of_joined hjoined).2
    rw [List.map_eq_nil_iff.mp hnil] at hmore
    cases hmore
    cases outcome with
    | crash => cases houtcome
    | hang => cases houtcome
    | done got =>
        cases got with
        | none => cases houtcome
        | some result =>
            rcases result with ⟨reply, sw⟩
            injection houtcome with houtcome
            rw [← (Prod.mk.inj (Option.some.inj houtcome)).2]
            exact ⟨reply, _, rfl, hport, hwire⟩
  · exact absurd hsw1 hlast

theorem Wire.Answers.select {body : List UInt8}
    (h : w.Answers port selectApdu (lastPart body) w') {card : IfdCard}
    (hslot : card.slot = port.slot) (hat : s.At port w) :
    exists t, yubikeySelectApplication card pivAid s = (.done true, t) ∧ t.At port w' := by
  rcases ifdBuildApdu_some 0x00 ykpivInsSelectApplication 0x04 0x00
    (by decide : pivAid.length ≤ 0xFF) (Nat.le_refl pivAid.length) with
    ⟨apdu, hbuild, hwf, hcontents⟩
  have hapdu : apdu.contents = selectApdu := by
    rw [hcontents, List.take_length]
    rfl
  rw [← hapdu] at h
  have hshort : apdu.contents.length ≤ 260 := by
    rw [hapdu]
    decide
  rcases ifdCardXfer_replied hwf hshort h (by change (0x90 : UInt8) ≠ 0x61; decide) hslot hat
    with ⟨reply, t, hrun, ht⟩
  rw [lastPart_sw] at hrun
  refine ⟨t, ?_, ht⟩
  rw [yubikeySelectApplication, hbuild]
  exact (Process.bind_done hrun).trans rfl

theorem Wire.Answers.verify {pin : Option CString} {p : ReplyApdu}
    (h : w.Answers port (verifyApdu pin) p w') (hlast : p.sw1 ≠ 0x61)
    (hpin : (pin.elim 0 fun pin => pin.bytes.length) ≤ 8) {card : IfdCard}
    (hslot : card.slot = port.slot) (hat : s.At port w) :
    exists result t, yubikeyVerify card pin s = (.done result, t) ∧ t.At port w' ∧
      (p.sw = ykpivSuccess -> result.rv = true) := by
  rcases yubikeyVerifyApdu_eq hpin with ⟨apdu, hbuild, hwf, hcontents, hshort⟩
  rw [← hcontents] at h
  rcases ifdCardXfer_replied hwf hshort h hlast hslot hat with ⟨reply, t, hrun, ht⟩
  rw [yubikeyVerify, if_neg (Nat.not_lt.mpr hpin), hbuild]
  dsimp only
  rw [Process.bind_done hrun]
  dsimp only
  split
  · rename_i hcounted
    refine ⟨_, t, rfl, ht, fun hsuccess => ?_⟩
    rw [hsuccess] at hcounted
    exact absurd hcounted (by decide)
  · refine ⟨_, t, rfl, ht, fun hsuccess => ?_⟩
    rw [hsuccess]
    exact beq_self_eq_true _

/-!
## The run
-/

/-- The places on the wire between the phases of a run. -/
structure TokenWires (σ : Type) where
  present : Wire σ
  powered : Wire σ
  selected : Wire σ
  asked : Wire σ
  shown : Wire σ

/-- The token answers all that is in front of the ciphertext. -/
structure TokenReady (start : Host σ) (pin : Option CString) (ws : TokenWires σ) : Prop where
  present : start.wire.Present (start.port 0) ws.present
  powered : exists atr, (ifdCreateCard atr 0).isSome ∧
    ws.present.PowersOn (start.port 0) atr
      (voltagePlan start.reader.autoVoltage start.reader.supportedVoltages) ws.powered
  selected : exists body,
    ws.powered.Answers (start.port 0) selectApdu (lastPart body) ws.selected
  asked : exists p : ReplyApdu, p.sw1 ≠ 0x61 ∧
    ws.selected.Answers (start.port 0) (verifyApdu none) p ws.asked
  shown : pin.elim (ws.shown = ws.asked) fun given => given.bytes.length ≤ 8 ∧
    exists body, ws.asked.Answers (start.port 0) (verifyApdu pin) (lastPart body) ws.shown

section

variable {start : Host σ} {pin : Option CString} {cardopts : List CString}
  {ws : TokenWires σ}

theorem TokenReady.connect (h : TokenReady start pin ws) {card : IfdCard}
    (hslot : card.slot = 0) (hat : s.At (start.port 0) ws.powered) :
    exists connected t, yubikeyConnect card s = (.done (some connected), t) ∧
      connected.slot = 0 ∧ t.At (start.port 0) ws.asked := by
  rcases h.selected with ⟨body, hselected⟩
  rcases hselected.select hslot hat with ⟨t, hselect, ht⟩
  rcases h.asked with ⟨p, hlast, hasked⟩
  let asking : IfdCard := if card.keySlot = 0 then { card with keySlot := 0x9e } else card
  have hasking : asking.slot = 0 := by
    dsimp only [asking]
    split
    · exact hslot
    · exact hslot
  rcases hasked.verify hlast (Nat.zero_le 8) hasking ht with ⟨result, u, hverify, hu, _⟩
  rw [yubikeyConnect, Process.bind_done hselect, if_pos rfl, Process.bind_done hverify]
  refine ⟨_, u, rfl, ?_, hu⟩
  split
  · exact hasking
  · exact hasking

theorem TokenReady.connects (h : TokenReady start pin ws)
    (hcreate : ccidReaderCreate s = (.done true, start))
    (hopts : forall option, option ∈ cardopts -> OptionTaken option) :
    exists card t, doitConnect cardopts s = (.done (some card), t) ∧
      card.slot = 0 ∧ t.At (start.port 0) ws.asked := by
  have hnew : start.reader.currentSlot = -1 :=
    (ccidReaderCreate_currentSlot s).apply hcreate rfl
  rcases h.present.selectSlot rfl ⟨rfl, rfl⟩ hnew with
    ⟨t1, hselect, ht1, hcurrent, hauto, hvoltages⟩
  rcases h.powered with ⟨atr, hatr, hpowers⟩
  rcases Option.isSome_iff_exists.mp hatr with ⟨card, hcard⟩
  rw [← hauto, ← hvoltages] at hpowers
  rcases hpowers.identifyCard hcard rfl ht1 hcurrent with ⟨t2, hidentify, ht2⟩
  have hcardSlot : card.slot = 0 := by
    rcases Option.map_eq_some_iff.mp hcard with ⟨reg, _, rfl⟩
    rfl
  rcases Option.isSome_iff_exists.mp ((ifdCardSetOptions_isSome_iff card cardopts).mpr hopts)
    with ⟨written, hset⟩
  rcases h.connect ((ifdCardSetOptions_slot hset).trans hcardSlot) ht2 with
    ⟨connected, t3, hconnect, hslot, ht3⟩
  refine ⟨connected, t3, ?_, hslot, ht3⟩
  rw [doitConnect, Process.bind_done hcreate, if_pos rfl, doitConnectCard,
    Process.bind_done hselect, if_pos rfl, Process.bind_done hidentify, Option.bind_some,
    hset, Option.elim_some, hconnect]

/-- The run gets to the ciphertext. -/
theorem TokenReady.verified (h : TokenReady start pin ws)
    (hcreate : ccidReaderCreate s = (.done true, start))
    (hopts : forall option, option ∈ cardopts -> OptionTaken option) :
    exists card t, ((doitConnect cardopts).thenSome (doitVerify pin)) s =
      (.done (some card), t) ∧ t.At (start.port 0) ws.shown := by
  rcases h.connects hcreate hopts with ⟨card, t, hconnect, hslot, hat⟩
  have hshown := h.shown
  cases pin with
  | none =>
      rw [Option.elim_none] at hshown
      rw [hshown]
      exact ⟨card, t, Process.bind_done hconnect, hat⟩
  | some pin =>
      rcases hshown with ⟨hpin, body, hanswers⟩
      rcases hanswers.verify (by change (0x90 : UInt8) ≠ 0x61; decide) hpin hslot hat with
        ⟨result, u, hverify, hu, hsuccess⟩
      refine ⟨card, u, ?_, hu⟩
      rw [Process.thenSome, Process.bind_done hconnect, Option.elim_some, doitVerify,
        Option.elim_some, Process.bind_done hverify, hsuccess (lastPart_sw body)]
      rfl

end

end

/-!
## A token that follows a script
-/

theorem script_replies (port : Port) (w : Wire Script) (cmd : UInt8) (ctl : Option CcidCtl)
    {type : UInt8} {payload : List UInt8} {rest : List ScriptAnswer}
    (h : w.usb.answers = .response type payload :: rest)
    (hroom : 10 + payload.length ≤ capacity port.maxMessageSize)
    (hsmall : capacity port.maxMessageSize < 2 ^ 31) :
    exists w', w.Replies port cmd ctl type 0 payload w' ∧ w'.usb.answers = rest := by
  refine ⟨⟨{ command := (UInt8.ofNat port.slot, UInt8.ofNat w.seq), answers := rest },
    (UInt8.ofNat w.seq).toNat + 1⟩, ⟨⟨{ w.usb with
      command := (UInt8.ofNat port.slot, UInt8.ofNat w.seq) }, _, ?_,
      script_received port.dev h hroom hsmall, ccidReplies_packet _ _ _ (by lia) _⟩, rfl⟩, rfl⟩
  simp only [Usbfs.bulkOut, ccidPacket_slot, ccidPacket_seq]

/-- The answers of a token that is ready: the reply to the question for the PIN may be
any that is not followed by another. -/
theorem script_ready {start : Host Script} {pin : Option CString} {voltage : UInt8}
    {voltages : List UInt8} {p : ReplyApdu} {rest : List ScriptAnswer}
    (hplan : voltagePlan start.reader.autoVoltage start.reader.supportedVoltages =
      voltage :: voltages)
    (hpin : (pin.elim 0 fun pin => pin.bytes.length) ≤ 8)
    (hlast : p.sw1 ≠ 0x61) (hshort : p.body.length ≤ 0x100)
    (hroom : 12 + p.body.length ≤ capacity start.reader.maxMessageSize)
    (hatr : 10 + atrYubikey4.length ≤ capacity start.reader.maxMessageSize)
    (hsmall : capacity start.reader.maxMessageSize < 2 ^ 31)
    (h : start.usb.answers = .response ccidRespSlotstat [] ::
      .response ccidRespData atrYubikey4 :: .response ccidRespData (lastPart []).bytes ::
      .response ccidRespData p.bytes ::
      (pin.elim rest fun _ => .response ccidRespData (lastPart []).bytes :: rest)) :
    exists ws, TokenReady start pin ws ∧ ws.shown.usb.answers = rest := by
  have hempty : 12 + (lastPart []).body.length ≤ capacity start.reader.maxMessageSize := by
    change 12 + 0 ≤ _
    lia
  rcases script_replies (start.port 0) start.wire ccidCmdGetslotstat none h
    (by change 10 + 0 ≤ capacity start.reader.maxMessageSize; lia) hsmall with
    ⟨present, hpresent, h1⟩
  rcases script_replies (start.port 0) present ccidCmdIccpoweron (some { ctl1 := voltage }) h1
    hatr hsmall with ⟨powered, hpowered, h2⟩
  rcases script_answers (start.port 0) powered selectApdu h2 (Nat.zero_le _) hempty hsmall with
    ⟨selected, hselected, h3⟩
  rcases script_answers (start.port 0) selected (verifyApdu none) h3 hshort hroom hsmall with
    ⟨asked, hasked, h4⟩
  have hready : forall shown : Wire Script,
      pin.elim (shown = asked) (fun given => given.bytes.length ≤ 8 ∧
        exists body, asked.Answers (start.port 0) (verifyApdu pin) (lastPart body) shown) ->
      TokenReady start pin ⟨present, powered, selected, asked, shown⟩ := by
    intro shown hshown
    exact ⟨⟨0, [], rfl, by decide, hpresent⟩,
      ⟨atrYubikey4, by decide, by rw [hplan]; exact .taken rfl hpowered⟩,
      ⟨[], hselected⟩, ⟨p, hlast, hasked⟩, hshown⟩
  cases pin with
  | none => exact ⟨_, hready asked rfl, h4⟩
  | some pin =>
      rcases script_answers (start.port 0) asked (verifyApdu (some pin)) h4 (Nat.zero_le _)
        hempty hsmall with ⟨shown, hshown, h5⟩
      exact ⟨_, hready shown ⟨hpin, [], hshown⟩, h5⟩

end UtokenDecrypt
