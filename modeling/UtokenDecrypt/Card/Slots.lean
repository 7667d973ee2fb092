import UtokenDecrypt.Card.Transfers

/-!
# Slots and power

Any number of calls of `ccid_reader_select_slot` and of
`ccid_reader_identify_card` on a new reader.  What the reader knows about its
slots is in `current_slot`, an `int` that starts out as -1 and is compared with
the `unsigned int` of the caller: a caller that asks for the slot 0xFFFFFFFF
finds that it has been selected already.
-/

namespace UtokenDecrypt

open Foundation
open Usb

namespace CcidSent

/-- The type of the command. -/
def cmd (x : CcidSent) : UInt8 :=
  x.packet.getD 0 0

/-- The slot in the command. -/
def slot (x : CcidSent) : UInt8 :=
  x.packet.getD 5 0

/-- The packet that was accepted as the response to the command. -/
def response (x : CcidSent) (expected : UInt8) : Option (List UInt8) :=
  if x.rv then
    ccidDecision (ccidCommandCreate (x.packet.getD 6 0) x.slot (bufferInitRead x.packet))
      expected x.answers
  else none

/-- The command asked for the status of a slot, and the response said that there
is a card in it. -/
def Present (x : CcidSent) : Prop :=
  x.cmd = ccidCmdGetslotstat ∧
    exists packet, x.response ccidRespSlotstat = some packet ∧
      packet.getD 7 0 &&& 0x3 ≠ 2

end CcidSent

/-- A call of one of the two functions. -/
inductive SlotCall where
  | select (slot : UInt32)
  | identify (slot : UInt32)
deriving DecidableEq

def SlotCall.slot : SlotCall -> UInt32
  | select slot => slot
  | identify slot => slot

/-- What the call returns. -/
inductive SlotAnswer where
  | selected (rv : Bool)
  | identified (card : Option IfdCard)
deriving DecidableEq

/-- A call in a run: how it ended and which commands were sent for it. -/
structure SlotStep where
  call : SlotCall
  outcome : Outcome SlotAnswer
  sent : List CcidSent

/-- All commands of some calls, in order. -/
def slotRecord (steps : List SlotStep) : List CcidSent :=
  steps.flatMap SlotStep.sent

/-- The slot was reported to hold a card during a call that was to select it. -/
def Reported (steps : List SlotStep) (slot : UInt32) : Prop :=
  exists step, step ∈ steps ∧ step.call = .select slot ∧
    exists x, x ∈ step.sent ∧ x.Present ∧ x.slot = UInt8.ofNat slot.toNat

/-- Power goes to slots only that were reported to hold a card before, and a
slot is selected only once it has been. -/
structure KnownSlots (steps : List SlotStep) : Prop where
  powered : forall i x, (slotRecord steps)[i]? = some x -> x.cmd = ccidCmdIccpoweron ->
    exists y, y ∈ (slotRecord steps).take i ∧ y.Present ∧ y.slot = x.slot
  selected : forall i step slot, steps[i]? = some step -> step.call = .select slot ->
    step.outcome = .done (.selected true) -> Reported (steps.take (i + 1)) slot

/-- The slot that is taken for the one a new reader has is asked for only after
some slot has been reported to hold a card. -/
def SentinelLate (steps : List SlotStep) : Prop :=
  forall i step, steps[i]? = some step -> step.call.slot = 0xFFFFFFFF ->
    exists x, x ∈ slotRecord (steps.take i) ∧ x.Present

section

variable {σ : Type} [Usbfs σ]

def SlotCall.exec : SlotCall -> Process (Host σ) SlotAnswer
  | select slot => do
      let rv ← ccidReaderSelectSlot slot.toNat
      pure (.selected rv)
  | identify slot => do
      let card ← ccidReaderIdentifyCard slot.toNat
      pure (.identified card)

/-- The reader has just been created. -/
def Host.Created (s : Host σ) : Prop :=
  exists before : Host σ, ccidReaderCreate before = (.done true, s)

/-- Calls one after the other; behind one that does not return there is none. -/
inductive SlotRun (s : Host σ) : List SlotStep -> Host σ -> Prop where
  | nil : SlotRun s [] s
  | snoc {steps : List SlotStep} {t u : Host σ} {step : SlotStep}
      (hrun : SlotRun s steps t)
      (hreturned : forall earlier, earlier ∈ steps ->
        exists answer, earlier.outcome = .done answer)
      (hcall : step.call.exec t = (step.outcome, u)) (hsent : t.Adds u step.sent) :
      SlotRun s (steps ++ [step]) u

end

/-!
## The commands in a record
-/

theorem recv_append_inj {answers others : List (Option (List UInt8))}
    {xs ys : List CcidSent}
    (h : answers.map Event.recv ++ xs.flatMap CcidSent.events =
      others.map Event.recv ++ ys.flatMap CcidSent.events) :
    answers = others ∧ xs.flatMap CcidSent.events = ys.flatMap CcidSent.events := by
  induction answers generalizing others with
  | nil =>
      cases others with
      | nil => exact ⟨rfl, h⟩
      | cons other rest =>
          cases xs with
          | nil => cases h
          | cons x xs => cases h
  | cons answer answers ih =>
      cases others with
      | nil =>
          cases ys with
          | nil => cases h
          | cons y ys => cases h
      | cons other others =>
          injection h with hhead htail
          injection hhead with hanswer
          rcases ih htail with ⟨hrest, hback⟩
          exact ⟨by rw [hanswer, hrest], hback⟩

/-- A record is made of commands in one way only. -/
theorem events_inj {xs ys : List CcidSent}
    (h : xs.flatMap CcidSent.events = ys.flatMap CcidSent.events) : xs = ys := by
  induction xs generalizing ys with
  | nil =>
      cases ys with
      | nil => rfl
      | cons y ys => cases h
  | cons x xs ih =>
      cases ys with
      | nil => cases h
      | cons y ys =>
          rw [List.flatMap_cons, List.flatMap_cons, CcidSent.events, CcidSent.events,
            List.cons_append, List.cons_append] at h
          injection h with hhead htail
          injection hhead with hpacket hrv
          rcases recv_append_inj htail with ⟨hanswers, hback⟩
          have hx : x = y := by
            cases x
            cases y
            simp_all
          rw [hx, ih hback]

section

variable {σ : Type}

theorem Host.Adds.unique {s t : Host σ} {xs ys : List CcidSent} (h1 : s.Adds t xs)
    (h2 : s.Adds t ys) : xs = ys := by
  have hlog := h1.log
  rw [h2.log] at hlog
  exact (events_inj (List.append_cancel_left hlog)).symm

theorem ccidVerdict_congr {first second : CcidCommand} (hslot : first.slot = second.slot)
    (hseq : first.seq = second.seq) (expected : UInt8) (packet : List UInt8) :
    ccidVerdict first expected packet = ccidVerdict second expected packet := by
  rw [ccidVerdict, ccidVerdict, hslot, hseq]

/-- Which packet is accepted depends on the slot and the number of the command. -/
theorem ccidDecision_congr {first second : CcidCommand}
    (hslot : first.slot = second.slot) (hseq : first.seq = second.seq)
    (expected : UInt8) (answers : List (Option (List UInt8))) :
    ccidDecision first expected answers = ccidDecision second expected answers := by
  induction answers with
  | nil => rfl
  | cons answer rest ih =>
      cases answer with
      | none => rfl
      | some packet =>
          rw [ccidDecision, ccidDecision, ccidVerdict_congr hslot hseq, ih]

/-!
## What is sent for a slot
-/

/-- The commands are for a slot, and the current slot stays as it is. -/
def SendsFor (type slot : UInt8) (s t : Host σ) : Prop :=
  t.reader.currentSlot = s.reader.currentSlot ∧
    exists sent, s.Adds t sent ∧ forall x, x ∈ sent -> x.cmd = type ∧ x.slot = slot

theorem SendsFor.nothing {type slot : UInt8} {s t : Host σ}
    (hlog : t.log = s.log) (hslot : t.reader.currentSlot = s.reader.currentSlot) :
    SendsFor type slot s t :=
  ⟨hslot, [], Host.Adds.nil hlog, fun _ hmem => (List.not_mem_nil hmem).elim⟩

theorem SendsFor.trans {type slot : UInt8} {s t u : Host σ}
    (h1 : SendsFor type slot s t) (h2 : SendsFor type slot t u) :
    SendsFor type slot s u := by
  rcases h1 with ⟨hslot1, first, hadds1, hall1⟩
  rcases h2 with ⟨hslot2, second, hadds2, hall2⟩
  refine ⟨hslot2.trans hslot1, first ++ second, hadds1.append hadds2, ?_⟩
  intro x hmem
  cases List.mem_append.mp hmem with
  | inl hfirst => exact hall1 x hfirst
  | inr hsecond => exact hall2 x hsecond

/-- A process that does so in every state. -/
def SlotCommands {α : Type} (type slot : UInt8) (proc : Process (Host σ) α) : Prop :=
  forall s, proc.Ensures s fun _ t => SendsFor type slot s t

theorem SlotCommands.pure {α : Type} (type slot : UInt8) (value : α) :
    SlotCommands type slot (pure value : Process (Host σ) α) :=
  fun _ => SendsFor.nothing rfl rfl

theorem slotCommands_read (type slot : UInt8) :
    SlotCommands type slot (Process.read (S := Host σ)) :=
  fun _ => SendsFor.nothing rfl rfl

theorem SlotCommands.bind {α β : Type} {type slot : UInt8}
    {first : Process (Host σ) α} {next : α -> Process (Host σ) β}
    (h : SlotCommands type slot first)
    (hnext : forall value, SlotCommands type slot (next value)) :
    SlotCommands type slot (first >>= next) := by
  intro s
  refine (h s).bind ?_ (fun _ hst => hst) (fun _ hst => hst)
  intro value t hst
  exact (hnext value t).mono fun _ _ htu => hst.trans htu

variable [Usbfs σ]

/-- One command at most, and the response to it if there is one. -/
theorem ccidXferBuilt_response (reader : CcidReader) (slot type : UInt8)
    (ctl : Option CcidCtl) (expected : UInt8) (s : Host σ) :
    (ccidXferBuilt (ccidBuildCommand reader slot type ctl [] 0) expected).Ensures s
      fun outcome t =>
        t.reader.currentSlot = s.reader.currentSlot ∧
        ((t.log = s.log ∧ forall resp, outcome ≠ .done (some resp)) ∨
          exists x, s.Adds t [x] ∧ x.cmd = type ∧ x.slot = slot ∧
            ((exists packet resp, x.response expected = some packet ∧
              outcome = .done (some resp) ∧ resp.ctl.ctl1 = packet.getD 7 0) ∨
            x.response expected = none ∧ forall resp, outcome ≠ .done (some resp))) := by
  cases hbuild : ccidBuildCommand reader slot type ctl [] 0 with
  | none =>
      refine ⟨rfl, Or.inl ⟨rfl, ?_⟩⟩
      intro resp hresp
      cases hresp
  | some cmd =>
      rcases ccidBuildCommand_spec hbuild with ⟨hslot, hseq, hwf, hcontents⟩
      refine (ccidXfer_ensures cmd expected hwf s).mono ?_
      intro outcome t h
      rcases h with ⟨_, hhang, dumps, hsame⟩ | ⟨rv, answers, hx⟩
      · rw [hhang, hsame]
        refine ⟨rfl, Or.inl ⟨rfl, ?_⟩⟩
        intro resp hresp
        cases hresp
      · have hbyte : cmd.pkt.contents.getD 0 0 = type ∧
            cmd.pkt.contents.getD 5 0 = slot ∧
            cmd.pkt.contents.getD 6 0 = UInt8.ofNat reader.ccidSeq := by
          rw [hcontents]
          exact ⟨ccidPacket_type _ _ _ _ _, ccidPacket_slot _ _ _ _ _,
            ccidPacket_seq _ _ _ _ _⟩
        refine ⟨by rw [hx.reader], Or.inr ⟨_, hx.adds, hbyte.1, hbyte.2.1, ?_⟩⟩
        cases rv with
        | false =>
            refine Or.inr ⟨rfl, ?_⟩
            rw [(hx.failed rfl).2]
            intro resp hresp
            cases hresp
        | true =>
            have hresult := hx.result rfl
            have hdecision : CcidSent.response
                { packet := cmd.pkt.contents, rv := true, answers := answers } expected =
                  ccidDecision cmd expected answers :=
              ccidDecision_congr (hbyte.2.1.trans hslot.symm)
                (hbyte.2.2.trans hseq.symm) expected answers
            rw [hdecision]
            cases houtcome : outcome with
            | crash =>
                rw [houtcome] at hresult
                refine Or.inr ⟨hresult, ?_⟩
                intro resp hresp
                cases hresp
            | hang =>
                rw [houtcome] at hresult
                refine Or.inr ⟨hresult, ?_⟩
                intro resp hresp
                cases hresp
            | done resp =>
                rw [houtcome] at hresult
                cases haccepted : ccidDecision cmd expected answers with
                | none =>
                    refine Or.inr ⟨rfl, ?_⟩
                    rw [hresult.2, haccepted]
                    intro resp hresp
                    cases hresp
                | some packet =>
                    have hfits := hx.fits packet (ccidDecision_mem haccepted).1
                    refine Or.inl ⟨packet, _, rfl, by rw [hresult.2, haccepted]; rfl, ?_⟩
                    simp [ccidResponseOf, CcidCtl.ofBytes,
                      (uusbRecvFilled_spec hfits.1).2.1]

/-- The status of a slot is one with a card exactly if the response says so. -/
theorem ccidGetSlotStatus_present (slot : Nat) (s : Host σ) :
    (ccidGetSlotStatus slot).Ensures s fun outcome t =>
      t.reader.currentSlot = s.reader.currentSlot ∧
      exists sent, s.Adds t sent ∧
        (forall x, x ∈ sent -> x.cmd = ccidCmdGetslotstat ∧ x.slot = UInt8.ofNat slot) ∧
        ((exists x, x ∈ sent ∧ x.Present) ↔
          exists status, outcome = .done (some status) ∧ status ≠ 0) := by
  have hxfer := ccidXferBuilt_response s.reader (UInt8.ofNat slot) ccidCmdGetslotstat
    none ccidRespSlotstat s
  rcases hrun : ccidXferBuilt (ccidBuildCommand s.reader (UInt8.ofNat slot)
    ccidCmdGetslotstat none [] 0) ccidRespSlotstat s with ⟨outcome, t⟩
  rcases hxfer.apply hrun with ⟨hslot, hcases⟩
  unfold Process.Ensures
  rw [ccidGetSlotStatus, Process.bind_done (Process.read_apply s),
    Process.bind_pure_apply, ccidBuildSimplePacket, hrun]
  refine ⟨hslot, ?_⟩
  have hno : forall outcome : Outcome (Option CcidResponse),
      (forall resp, outcome ≠ .done (some resp)) -> ¬ exists status,
        outcome.map (fun resp => resp.map fun resp =>
          if resp.ctl.ctl1 &&& 0x3 = 2 then 0 else 1) = .done (some status) ∧
        status ≠ 0 := by
    intro outcome hnone hstatus
    rcases hstatus with ⟨status, hmap, _⟩
    cases outcome with
    | crash => cases hmap
    | hang => cases hmap
    | done resp =>
        cases resp with
        | none => cases hmap
        | some resp => exact hnone resp rfl
  rcases hcases with ⟨hlog, hnone⟩ | ⟨x, hadds, hcmd, hx, hresponse⟩
  · refine ⟨[], Host.Adds.nil hlog, fun _ hmem => (List.not_mem_nil hmem).elim, ?_⟩
    refine iff_of_false ?_ (hno _ hnone)
    intro h
    rcases h with ⟨x, hmem, _⟩
    exact List.not_mem_nil hmem
  · refine ⟨[x], hadds, ?_, ?_⟩
    · intro y hmem
      rw [List.mem_singleton.mp hmem]
      exact ⟨hcmd, hx⟩
    · simp only [List.mem_singleton, exists_eq_left]
      rcases hresponse with ⟨packet, resp, hpacket, hdone, hctl⟩ | ⟨hnone, hnever⟩
      · rw [hdone, Outcome.map_done, Option.map_some, hctl]
        constructor
        · intro h
          rcases h.2 with ⟨other, hother, hpresent⟩
          rw [hpacket] at hother
          injection hother with hother
          refine ⟨_, rfl, ?_⟩
          rw [hother, if_neg hpresent]
          decide
        · intro h
          rcases h with ⟨status, hstatus, hne⟩
          refine ⟨hcmd, packet, hpacket, ?_⟩
          intro habsent
          rw [if_pos habsent] at hstatus
          injection hstatus with hstatus
          injection hstatus with hstatus
          exact hne hstatus.symm
      · refine iff_of_false ?_ (hno _ hnever)
        intro h
        rcases h.2 with ⟨packet, hpacket, _⟩
        rw [hnone] at hpacket
        cases hpacket

theorem slotCommands_ccidCardPoweron (slot : Nat) (voltage : UInt8) :
    SlotCommands ccidCmdIccpoweron (UInt8.ofNat slot)
      (ccidCardPoweron (σ := σ) slot voltage) := by
  refine (slotCommands_read _ _).bind fun reading => ?_
  refine SlotCommands.bind ?_ fun _ => SlotCommands.pure _ _ _
  intro s
  refine (ccidXferBuilt_response reading.reader (UInt8.ofNat slot) ccidCmdIccpoweron
    _ ccidRespData s).mono ?_
  intro outcome t h
  rcases h with ⟨hslot, ⟨hlog, _⟩ | ⟨x, hadds, hcmd, hx, _⟩⟩
  · exact SendsFor.nothing hlog hslot
  · refine ⟨hslot, [x], hadds, ?_⟩
    intro y hmem
    rw [List.mem_singleton.mp hmem]
    exact ⟨hcmd, hx⟩

theorem slotCommands_ccidTryVoltages (slot : Nat) (voltages : List Nat) :
    SlotCommands ccidCmdIccpoweron (UInt8.ofNat slot)
      (ccidTryVoltages (σ := σ) slot voltages) := by
  induction voltages with
  | nil => exact SlotCommands.pure _ _ none
  | cons i rest ih =>
      refine (slotCommands_read _ _).bind fun s => ?_
      split
      · refine (slotCommands_ccidCardPoweron slot _).bind fun atr => ?_
        cases atr with
        | some atr => exact SlotCommands.pure _ _ _
        | none => exact ih
      · exact ih

theorem slotCommands_ccidResetCard (slot : Nat) :
    SlotCommands ccidCmdIccpoweron (UInt8.ofNat slot) (ccidResetCard (σ := σ) slot) := by
  have htry := slotCommands_ccidTryVoltages (σ := σ) slot [0, 1, 2]
  refine (slotCommands_read _ _).bind fun s => ?_
  split
  · refine (slotCommands_ccidCardPoweron slot 0).bind fun atr => ?_
    cases atr with
    | some atr => exact SlotCommands.pure _ _ _
    | none => exact htry
  · exact htry

/-!
## The two functions
-/

theorem ccidReaderSelectSlot_current {slot : Nat} {s : Host σ}
    (h : slotUnsigned s.reader.currentSlot = slot) :
    ccidReaderSelectSlot slot s = (.done true, s) := by
  rw [ccidReaderSelectSlot, Process.bind_done (Process.read_apply s), if_pos h]
  rfl

/-- Any other slot becomes the current one exactly if there is a card in it. -/
theorem ccidReaderSelectSlot_other {slot : Nat} {s : Host σ}
    (h : slotUnsigned s.reader.currentSlot ≠ slot) :
    (ccidReaderSelectSlot slot).Ensures s fun outcome t =>
      exists sent, s.Adds t sent ∧
        (forall x, x ∈ sent -> x.cmd = ccidCmdGetslotstat ∧ x.slot = UInt8.ofNat slot) ∧
        (((exists x, x ∈ sent ∧ x.Present) ∧
            t.reader.currentSlot = signed32 slot) ∨
          ((forall x, x ∈ sent -> ¬ x.Present) ∧ outcome ≠ .done true ∧
            t.reader.currentSlot = s.reader.currentSlot)) := by
  refine Process.ensures_bind_of_run (Process.read_apply s) ?_
  rw [if_neg h]
  refine (ccidGetSlotStatus_present slot s).bind ?_ ?_ ?_
  · intro status t hstatus
    rcases hstatus with ⟨hslot, sent, hadds, hall, hpresent⟩
    cases status with
    | none =>
        refine ⟨sent, hadds, hall, Or.inr ⟨?_, by simp, hslot⟩⟩
        intro x hmem hx
        rcases hpresent.mp ⟨x, hmem, hx⟩ with ⟨status, hdone, _⟩
        cases hdone
    | some status =>
        by_cases hzero : status = 0
        · dsimp only
          rw [if_pos hzero]
          refine ⟨sent, hadds, hall, Or.inr ⟨?_, by simp, hslot⟩⟩
          intro x hmem hx
          rcases hpresent.mp ⟨x, hmem, hx⟩ with ⟨other, hdone, hne⟩
          cases hdone
          exact hne hzero
        · dsimp only
          rw [if_neg hzero]
          exact ⟨sent, ⟨hadds.log, hadds.answers⟩, hall,
            Or.inl ⟨hpresent.mpr ⟨status, rfl, hzero⟩, rfl⟩⟩
  · intro t hstatus
    rcases hstatus with ⟨hslot, sent, hadds, hall, hpresent⟩
    refine ⟨sent, hadds, hall, Or.inr ⟨?_, by simp, hslot⟩⟩
    intro x hmem hx
    rcases hpresent.mp ⟨x, hmem, hx⟩ with ⟨status, hdone, _⟩
    cases hdone
  · intro t hstatus
    rcases hstatus with ⟨hslot, sent, hadds, hall, hpresent⟩
    refine ⟨sent, hadds, hall, Or.inr ⟨?_, by simp, hslot⟩⟩
    intro x hmem hx
    rcases hpresent.mp ⟨x, hmem, hx⟩ with ⟨status, hdone, _⟩
    cases hdone

theorem ccidReaderIdentifyCard_other {slot : Nat} {s : Host σ}
    (h : slotUnsigned s.reader.currentSlot ≠ slot) :
    ccidReaderIdentifyCard slot s = (.done none, s) := by
  rw [ccidReaderIdentifyCard, Process.bind_done (Process.read_apply s),
    if_pos (Ne.symm h)]
  rfl

theorem slotCommands_ccidReaderIdentifyCard (slot : Nat) :
    SlotCommands ccidCmdIccpoweron (UInt8.ofNat slot)
      (ccidReaderIdentifyCard (σ := σ) slot) := by
  refine (slotCommands_read _ _).bind fun s => ?_
  split
  · exact SlotCommands.pure _ _ none
  · exact (slotCommands_ccidResetCard slot).bind fun _ => SlotCommands.pure _ _ _

/-!
## Runs
-/

omit [Usbfs σ] in
theorem slotUnsigned_signed32 {n : Nat} (h : n < 2 ^ 32) :
    slotUnsigned (signed32 n) = n := by
  unfold slotUnsigned signed32
  rw [wrap32_of_lt h]
  split <;> lia

/-- Either nothing has been found yet, or the current slot has been. -/
def SlotInv (steps : List SlotStep) (t : Host σ) : Prop :=
  (t.reader.currentSlot = -1 ∧ forall x, x ∈ slotRecord steps -> ¬ x.Present) ∨
    exists slot : UInt32, t.reader.currentSlot = signed32 slot.toNat ∧
      Reported steps slot

omit [Usbfs σ] in
theorem Reported.append {steps : List SlotStep} {slot : UInt32}
    (h : Reported steps slot) (more : List SlotStep) : Reported (steps ++ more) slot := by
  rcases h with ⟨step, hmem, hcall, hsent⟩
  exact ⟨step, List.mem_append_left _ hmem, hcall, hsent⟩

omit [Usbfs σ] in
theorem slotRecord_append (front back : List SlotStep) :
    slotRecord (front ++ back) = slotRecord front ++ slotRecord back :=
  List.flatMap_append

omit [Usbfs σ] in
theorem slotRecord_singleton (step : SlotStep) : slotRecord [step] = step.sent :=
  List.flatMap_singleton _ _

omit [Usbfs σ] in
theorem Reported.present {steps : List SlotStep} {slot : UInt32}
    (h : Reported steps slot) :
    exists x, x ∈ slotRecord steps ∧ x.Present ∧ x.slot = UInt8.ofNat slot.toNat := by
  rcases h with ⟨step, hmem, _, x, hx, hpresent, hslot⟩
  exact ⟨x, List.mem_flatMap.mpr ⟨step, hmem, hx⟩, hpresent, hslot⟩

omit [Usbfs σ] in
/-- A slot that is the current one has been reported to hold a card. -/
theorem SlotInv.current {steps : List SlotStep} {t : Host σ} {slot : UInt32}
    (h : SlotInv steps t) (hcurrent : slotUnsigned t.reader.currentSlot = slot.toNat)
    (hlate : slot = 0xFFFFFFFF -> exists x, x ∈ slotRecord steps ∧ x.Present) :
    Reported steps slot := by
  cases h with
  | inl hnone =>
      rw [hnone.1] at hcurrent
      have hsentinel : slot = 0xFFFFFFFF :=
        UInt32.toNat_inj.mp (hcurrent.symm.trans (by decide))
      rcases hlate hsentinel with ⟨x, hmem, hpresent⟩
      exact absurd hpresent (hnone.2 x hmem)
  | inr hsome =>
      rcases hsome with ⟨known, hknown, hreported⟩
      rw [hknown, slotUnsigned_signed32 known.toNat_lt] at hcurrent
      rw [← UInt32.toNat_inj.mp hcurrent]
      exact hreported

/-- What one call keeps and guarantees. -/
structure SlotStep.Good (steps : List SlotStep) (step : SlotStep) (u : Host σ) :
    Prop where
  inv : SlotInv (steps ++ [step]) u
  powered : forall x, x ∈ step.sent -> x.cmd = ccidCmdIccpoweron ->
    exists y, y ∈ slotRecord steps ∧ y.Present ∧ y.slot = x.slot
  selected : forall slot, step.call = .select slot ->
    step.outcome = .done (.selected true) -> Reported (steps ++ [step]) slot

omit [Usbfs σ] in
/-- A call that sends nothing that tells of a card, and keeps the slot. -/
theorem SlotInv.quiet {steps : List SlotStep} {step : SlotStep} {t u : Host σ}
    (h : SlotInv steps t) (hslot : u.reader.currentSlot = t.reader.currentSlot)
    (hquiet : forall x, x ∈ step.sent -> ¬ x.Present) :
    SlotInv (steps ++ [step]) u := by
  cases h with
  | inl hnone =>
      refine Or.inl ⟨hslot.trans hnone.1, ?_⟩
      intro x hmem
      rw [slotRecord_append, slotRecord_singleton] at hmem
      cases List.mem_append.mp hmem with
      | inl hold => exact hnone.2 x hold
      | inr hnew => exact hquiet x hnew
  | inr hsome =>
      rcases hsome with ⟨slot, hknown, hreported⟩
      exact Or.inr ⟨slot, hslot.trans hknown, hreported.append _⟩

omit [Usbfs σ] in
theorem not_present_of_poweron {x : CcidSent} (h : x.cmd = ccidCmdIccpoweron) :
    ¬ x.Present := by
  intro hpresent
  have hcmd := h.symm.trans hpresent.1
  exact absurd hcmd (by decide)

omit [Usbfs σ] in
/-- A call that sends nothing and changes nothing. -/
theorem SlotInv.good_silent {steps : List SlotStep} {t : Host σ} {call : SlotCall}
    {outcome : Outcome SlotAnswer} (h : SlotInv steps t)
    (hselected : forall slot, call = .select slot -> outcome = .done (.selected true) ->
      Reported (steps ++ [⟨call, outcome, []⟩]) slot) :
    SlotStep.Good steps ⟨call, outcome, []⟩ t where
  inv := h.quiet rfl fun _ hmem => (List.not_mem_nil hmem).elim
  powered := fun _ hmem => (List.not_mem_nil hmem).elim
  selected := hselected

theorem SlotStep.good_select {steps : List SlotStep} {t u : Host σ} {slot : UInt32}
    {outcome : Outcome SlotAnswer} {sent : List CcidSent} (h : SlotInv steps t)
    (hcall : (SlotCall.select slot).exec t = (outcome, u)) (hsent : t.Adds u sent)
    (hlate : slot = 0xFFFFFFFF -> exists x, x ∈ slotRecord steps ∧ x.Present) :
    Good steps ⟨.select slot, outcome, sent⟩ u := by
  rw [SlotCall.exec, Process.bind_pure_apply] at hcall
  by_cases hcurrent : slotUnsigned t.reader.currentSlot = slot.toNat
  · rw [ccidReaderSelectSlot_current hcurrent] at hcall
    cases hcall
    have hnothing := hsent.unique (Host.Adds.nil rfl)
    subst hnothing
    refine h.good_silent ?_
    intro other hother _
    cases hother
    exact (h.current hcurrent hlate).append _
  · rcases hrun : ccidReaderSelectSlot slot.toNat t with ⟨result, v⟩
    rcases (ccidReaderSelectSlot_other hcurrent).apply hrun with
      ⟨found, hadds, hall, hcases⟩
    rw [hrun] at hcall
    cases hcall
    have hsame := hsent.unique hadds
    subst hsame
    have hpower : forall x, x ∈ sent -> x.cmd ≠ ccidCmdIccpoweron := by
      intro x hmem
      rw [(hall x hmem).1]
      decide
    rcases hcases with ⟨⟨x, hmem, hpresent⟩, hslot⟩ | ⟨hnone, hfalse, hslot⟩
    · have hreported : Reported (steps ++ [⟨.select slot, result.map .selected, sent⟩])
          slot :=
        ⟨_, List.mem_append_right _ (List.mem_singleton_self _), rfl, x, hmem, hpresent,
          (hall x hmem).2⟩
      refine ⟨Or.inr ⟨slot, hslot, hreported⟩,
        fun y hy hcmd => absurd hcmd (hpower y hy), ?_⟩
      intro other hother _
      cases hother
      exact hreported
    · refine ⟨h.quiet hslot hnone, fun y hy hcmd => absurd hcmd (hpower y hy), ?_⟩
      intro other hother htrue
      refine absurd ?_ hfalse
      cases result with
      | crash => cases htrue
      | hang => cases htrue
      | done rv =>
          cases htrue
          rfl

theorem SlotStep.good_identify {steps : List SlotStep} {t u : Host σ} {slot : UInt32}
    {outcome : Outcome SlotAnswer} {sent : List CcidSent} (h : SlotInv steps t)
    (hcall : (SlotCall.identify slot).exec t = (outcome, u)) (hsent : t.Adds u sent)
    (hlate : slot = 0xFFFFFFFF -> exists x, x ∈ slotRecord steps ∧ x.Present) :
    Good steps ⟨.identify slot, outcome, sent⟩ u := by
  rw [SlotCall.exec, Process.bind_pure_apply] at hcall
  by_cases hcurrent : slotUnsigned t.reader.currentSlot = slot.toNat
  · rcases hrun : ccidReaderIdentifyCard slot.toNat t with ⟨result, v⟩
    rcases (slotCommands_ccidReaderIdentifyCard slot.toNat t).apply hrun with
      ⟨hslot, found, hadds, hall⟩
    rw [hrun] at hcall
    cases hcall
    have hsame := hsent.unique hadds
    subst hsame
    refine ⟨h.quiet hslot fun x hmem => not_present_of_poweron (hall x hmem).1, ?_, ?_⟩
    · intro x hmem _
      rw [(hall x hmem).2]
      exact (h.current hcurrent hlate).present
    · intro other hother _
      cases hother
  · rw [ccidReaderIdentifyCard_other hcurrent] at hcall
    cases hcall
    have hnothing := hsent.unique (Host.Adds.nil rfl)
    subst hnothing
    refine h.good_silent ?_
    intro other hother _
    cases hother

theorem ccidReaderCreate_currentSlot (s : Host σ) :
    ccidReaderCreate.Ensures s fun outcome t =>
      outcome = .done true -> t.reader.currentSlot = -1 := by
  rcases selectsOnly_uusbDevSelect s with ⟨ccid, t, hrun, _⟩
  refine Process.ensures_bind_of_run hrun ?_
  have hnone : (pure false : Process (Host σ) Bool).Ensures t fun outcome u =>
      outcome = .done true -> u.reader.currentSlot = -1 := by
    intro htrue
    cases htrue
  cases ccid with
  | none => exact hnone
  | some ccid =>
      dsimp only
      split
      · exact hnone
      · split
        · exact hnone
        · exact fun _ => rfl

/-- A new reader has no current slot. -/
theorem Host.Created.currentSlot {s : Host σ} (h : s.Created) :
    s.reader.currentSlot = -1 := by
  rcases h with ⟨before, hcreate⟩
  exact (ccidReaderCreate_currentSlot before).apply hcreate rfl

theorem SlotRun.inv_known {s t : Host σ} {steps : List SlotStep} (hs : s.Created)
    (hrun : SlotRun s steps t) (hlate : SentinelLate steps) :
    SlotInv steps t ∧ KnownSlots steps := by
  induction hrun with
  | nil =>
      refine ⟨Or.inl ⟨hs.currentSlot, fun _ hmem => (List.not_mem_nil hmem).elim⟩, ?_, ?_⟩
      · intro i x hx
        cases hx
      · intro i step slot hstep
        cases hstep
  | @snoc steps t u step hrun hreturned hcall hsent ih =>
      have hfront : SentinelLate steps := by
        intro i earlier hi hslot
        have hlt := (List.getElem?_eq_some_iff.mp hi).1
        have hearlier := hlate i earlier (by rw [List.getElem?_append_left hlt, hi]) hslot
        rw [List.take_append_of_le_length (by lia)] at hearlier
        exact hearlier
      have hlast : step.call.slot = 0xFFFFFFFF ->
          exists x, x ∈ slotRecord steps ∧ x.Present := by
        intro hslot
        have hpresent := hlate steps.length step (by simp) hslot
        rw [List.take_left' rfl] at hpresent
        exact hpresent
      rcases ih hfront with ⟨hinv, hknown⟩
      have hgood : step.Good steps u := by
        rcases step with ⟨call, outcome, sent⟩
        cases call with
        | select slot => exact SlotStep.good_select hinv hcall hsent hlast
        | identify slot => exact SlotStep.good_identify hinv hcall hsent hlast
      refine ⟨hgood.inv, ?_, ?_⟩
      · intro i x hx hpower
        rw [slotRecord_append, slotRecord_singleton] at hx ⊢
        by_cases hi : i < (slotRecord steps).length
        · rw [List.getElem?_append_left hi] at hx
          rw [List.take_append_of_le_length (by lia)]
          exact hknown.powered i x hx hpower
        · rw [List.getElem?_append_right (by lia)] at hx
          rcases hgood.powered x (List.mem_of_getElem? hx) hpower with ⟨y, hy, hfound⟩
          refine ⟨y, ?_, hfound⟩
          rw [List.take_append]
          exact List.mem_append_left _ (by rw [List.take_of_length_le (by lia)]; exact hy)
      · intro i other slot hi hselect hdone
        by_cases hlt : i < steps.length
        · rw [List.getElem?_append_left hlt] at hi
          rw [List.take_append_of_le_length (by lia)]
          exact hknown.selected i other slot hi hselect hdone
        · rw [List.getElem?_append_right (by lia)] at hi
          have hzero : i - steps.length = 0 := by
            have hbound := (List.getElem?_eq_some_iff.mp hi).1
            rw [List.length_singleton] at hbound
            lia
          rw [hzero] at hi
          cases hi
          rw [List.take_of_length_le (by
            rw [List.length_append, List.length_singleton]
            lia)]
          exact hgood.selected slot hselect hdone

/-- In a run that asks for the last of all slots late enough, only slots that are
known to hold a card get power. -/
theorem slotRun_known {s t : Host σ} {steps : List SlotStep} (hs : s.Created)
    (hrun : SlotRun s steps t) (hlate : SentinelLate steps) : KnownSlots steps :=
  (hrun.inv_known hs hlate).2

end

/-!
## A reader with one slot
-/

/-- The reader once it is created, and a device that still has some answers. -/
def slotHost (answers : List ScriptAnswer) : Host Script :=
  (ccidReaderCreate { usb := { answers := answers }, dev := slotToken }).2

theorem slotHost_created (answers : List ScriptAnswer) : (slotHost answers).Created :=
  ⟨{ usb := { answers := answers }, dev := slotToken }, Prod.ext rfl rfl⟩

/-- One more call, with what it does computed. -/
theorem SlotRun.next {answers : List ScriptAnswer} {steps : List SlotStep}
    {t : Host Script} {step : SlotStep} (hrun : SlotRun (slotHost answers) steps t)
    (hreturned : forall earlier, earlier ∈ steps ->
      exists answer, earlier.outcome = .done answer)
    (hcall : (step.call.exec t).1 = step.outcome)
    (hlog : (step.call.exec t).2.log = t.log ++ step.sent.flatMap CcidSent.events)
    (hanswers : forall x, x ∈ step.sent -> x.answers.length ≤ 6) :
    SlotRun (slotHost answers) (steps ++ [step]) (step.call.exec t).2 :=
  SlotRun.snoc hrun hreturned (Prod.ext hcall rfl) ⟨hlog, hanswers⟩

/-- The slot is asked for, and there is a card in it. -/
def selectZero : SlotStep where
  call := .select 0
  outcome := .done (.selected true)
  sent := [⟨ccidPacket 0x65 0 0 {} [], true,
    [some (uusbRecvBytes 272 (ccidPacket 0x81 0 0 {} []))]⟩]

/-- It gets power, and says which card it is. -/
def identifyZero : SlotStep where
  call := .identify 0
  outcome := .done (.identified (ifdCreateCard atrYubikey4 0))
  sent := [⟨ccidPacket 0x62 0 1 { ctl1 := 1 } [], true,
    [some (uusbRecvBytes 272 (ccidPacket 0x80 0 1 {} atrYubikey4))]⟩]

theorem slotRun_known_selectIdentify : KnownSlots [selectZero, identifyZero] := by
  let answers : List ScriptAnswer :=
    [.response ccidRespSlotstat [], .response ccidRespData atrYubikey4]
  have hselect : SlotRun (slotHost answers) [selectZero]
      (selectZero.call.exec (slotHost answers)).2 := by
    refine SlotRun.nil.next (fun _ hmem => (List.not_mem_nil hmem).elim) ?_ ?_ ?_
    · decide +kernel
    · decide +kernel
    · intro x hmem
      rw [List.mem_singleton.mp hmem]
      decide
  have hboth : SlotRun (slotHost answers) ([selectZero] ++ [identifyZero]) _ := hselect.next
    (fun earlier hmem => ⟨.selected true, by rw [List.mem_singleton.mp hmem]; rfl⟩)
    (by decide +kernel) (by decide +kernel) (fun x hmem => by
      rw [List.mem_singleton.mp hmem]
      decide)
  refine slotRun_known (slotHost_created answers) hboth ?_
  intro i step hstep hslot
  have hzero : step.call.slot = 0 := by
    rcases List.mem_pair.mp (List.mem_of_getElem? hstep) with rfl | rfl
    · rfl
    · rfl
  rw [hzero] at hslot
  exact absurd hslot (by decide)

/-- Nothing has been asked, and power goes to the last slot. -/
def identifyLast : SlotStep where
  call := .identify 0xFFFFFFFF
  outcome := .done (.identified none)
  sent := [⟨ccidPacket 0x62 0xFF 0 { ctl1 := 1 } [], true, [none]⟩]

theorem not_slotRun_known_identifyLast :
    ¬ forall (s t : Host Script) (steps : List SlotStep),
      s.Created -> SlotRun s steps t -> KnownSlots steps := by
  intro h
  have hrun : SlotRun (slotHost []) [identifyLast]
      (identifyLast.call.exec (slotHost [])).2 := by
    refine SlotRun.nil.next (fun _ hmem => (List.not_mem_nil hmem).elim) ?_ ?_ ?_
    · decide +kernel
    · decide +kernel
    · intro x hmem
      rw [List.mem_singleton.mp hmem]
      decide
  have hknown := h _ _ _ (slotHost_created []) hrun
  rcases hknown.powered 0 _ rfl rfl with ⟨y, hmem, _⟩
  exact List.not_mem_nil hmem

end UtokenDecrypt
