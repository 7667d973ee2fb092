import UtokenDecrypt.Card.Reassemble

/-!
# What a run does on the wire

Every command of the program is sent by `ccid_xfer`, which sends it once and then
receives six packets at most.  The record of a run is therefore a list of commands
with the packets received for each.  The commands that carry an APDU are those of
`ccid_reader_apdu_xfer`; they come in exchanges, one for each call of
`ifd_card_xfer`.
-/

namespace UtokenDecrypt

open Foundation

/-!
## Commands
-/

/-- A command that was sent, or failed to be, and what was received for it. -/
structure CcidSent where
  packet : List UInt8
  rv : Bool
  answers : List (Option (List UInt8))

def CcidSent.events (x : CcidSent) : List Event :=
  .send x.packet x.rv :: x.answers.map Event.recv

/-- The APDU a packet carries, if it is a command for the card. -/
def packetApdu (packet : List UInt8) : Option (List UInt8) :=
  if packet.getD 0 0 = ccidCmdXfrblock then some (packet.drop ccidHdrSize) else none

def Event.apdu : Event -> Option (List UInt8)
  | .send packet _ => packetApdu packet
  | .recv _ => none

/-- The APDUs that were sent, in order; a send that failed counts. -/
def sentApdus (log : List Event) : List (List UInt8) :=
  log.filterMap Event.apdu

section

variable {σ : Type}

/-- The commands a run has added to the record. -/
structure Host.Adds (s t : Host σ) (sent : List CcidSent) : Prop where
  log : t.log = s.log ++ sent.flatMap CcidSent.events
  answers : forall x, x ∈ sent -> x.answers.length ≤ 6

theorem Host.Adds.nil {s t : Host σ} (h : t.log = s.log) : s.Adds t [] :=
  ⟨by rw [h, List.flatMap_nil, List.append_nil], fun _ hmem => (List.not_mem_nil hmem).elim⟩

theorem Host.Adds.append {s t u : Host σ} {first second : List CcidSent}
    (h1 : s.Adds t first) (h2 : t.Adds u second) : s.Adds u (first ++ second) := by
  constructor
  · rw [h2.log, h1.log, List.flatMap_append, List.append_assoc]
  · intro x hmem
    cases List.mem_append.mp hmem with
    | inl hfirst => exact h1.answers x hfirst
    | inr hsecond => exact h2.answers x hsecond

theorem sentApdus_append (front back : List Event) :
    sentApdus (front ++ back) = sentApdus front ++ sentApdus back :=
  List.filterMap_append

theorem sentApdus_events (x : CcidSent) :
    sentApdus x.events = (packetApdu x.packet).toList := by
  have hrecv : sentApdus (x.answers.map Event.recv) = [] := by
    rw [sentApdus, List.filterMap_map, List.filterMap_eq_nil_iff]
    exact fun _ _ => rfl
  rw [CcidSent.events, ← List.singleton_append, sentApdus_append, hrecv,
    List.append_nil, sentApdus]
  simp only [List.filterMap_cons, List.filterMap_nil, Event.apdu]
  cases packetApdu x.packet <;> rfl

/-- The APDUs in the record are those of the commands. -/
theorem Host.Adds.sentApdus {s t : Host σ} {sent : List CcidSent}
    (h : s.Adds t sent) :
    sentApdus t.log =
      sentApdus s.log ++ sent.filterMap fun x => packetApdu x.packet := by
  rw [h.log, sentApdus_append]
  congr 1
  clear h
  induction sent with
  | nil => rfl
  | cons x rest ih =>
      rw [List.flatMap_cons, sentApdus_append, sentApdus_events, ih,
        List.filterMap_cons]
      cases packetApdu x.packet <;> rfl

theorem packetApdu_ccidPacket (type slot seq : UInt8) (ctl : CcidCtl)
    (payload : List UInt8) :
    packetApdu (ccidPacket type slot seq ctl payload) =
      if type = ccidCmdXfrblock then some payload else none := by
  have htype : (ccidPacket type slot seq ctl payload).getD 0 0 = type := by
    simp [ccidPacket]
  have hdrop : (ccidPacket type slot seq ctl payload).drop ccidHdrSize = payload := by
    rw [ccidPacket, List.drop_left']
    simp [ccidHdrSize, CcidCtl.bytes]
  rw [packetApdu, htype, hdrop]

/-- The record of an exchange that got as far as sending. -/
theorem CcidExchanged.adds {cmd : CcidCommand} {expected : UInt8} {s t : Host σ}
    {rv : Bool} {answers : List (Option (List UInt8))}
    {outcome : Outcome (Option CcidResponse)}
    (h : CcidExchanged cmd expected s t rv answers outcome) :
    s.Adds t [{ packet := cmd.pkt.contents, rv := rv, answers := answers }] := by
  constructor
  · rw [List.flatMap_singleton]
    exact h.log
  · intro x hmem
    rw [List.mem_singleton.mp hmem]
    exact h.length_le

/-!
## Setting up
-/

/-- At most `n` commands have been sent, none of them for the card. -/
def SetsUp (n : Nat) (s t : Host σ) : Prop :=
  exists sent, s.Adds t sent ∧ sent.length ≤ n ∧
    forall x, x ∈ sent -> packetApdu x.packet = none

theorem SetsUp.nothing {s t : Host σ} (h : t.log = s.log) (n : Nat) : SetsUp n s t :=
  ⟨[], Host.Adds.nil h, Nat.zero_le n, fun _ hmem => (List.not_mem_nil hmem).elim⟩

theorem SetsUp.mono {n m : Nat} {s t : Host σ} (h : SetsUp n s t) (hle : n ≤ m) :
    SetsUp m s t := by
  rcases h with ⟨sent, hadds, hlength, hnone⟩
  exact ⟨sent, hadds, Nat.le_trans hlength hle, hnone⟩

theorem SetsUp.trans {n m : Nat} {s t u : Host σ} (h1 : SetsUp n s t)
    (h2 : SetsUp m t u) : SetsUp (n + m) s u := by
  rcases h1 with ⟨first, hadds1, hlength1, hnone1⟩
  rcases h2 with ⟨second, hadds2, hlength2, hnone2⟩
  refine ⟨first ++ second, hadds1.append hadds2, ?_, ?_⟩
  · rw [List.length_append]
    exact Nat.add_le_add hlength1 hlength2
  · intro x hmem
    cases List.mem_append.mp hmem with
    | inl hfirst => exact hnone1 x hfirst
    | inr hsecond => exact hnone2 x hsecond

theorem SetsUp.sentApdus {n : Nat} {s t : Host σ} (h : SetsUp n s t) :
    sentApdus t.log = sentApdus s.log := by
  rcases h with ⟨sent, hadds, _, hnone⟩
  have hempty : (sent.filterMap fun x => packetApdu x.packet) = [] :=
    List.filterMap_eq_nil_iff.mpr hnone
  rw [hadds.sentApdus, hempty, List.append_nil]

/-- A process that sends at most `n` commands, none of them for the card. -/
def SettingUp {α : Type} (n : Nat) (proc : Process (Host σ) α) : Prop :=
  forall s, proc.Ensures s fun _ t => SetsUp n s t

theorem SettingUp.pure {α : Type} (n : Nat) (value : α) :
    SettingUp n (pure value : Process (Host σ) α) :=
  fun _ => SetsUp.nothing rfl n

theorem SettingUp.bind {α β : Type} {n m : Nat} {first : Process (Host σ) α}
    {next : α -> Process (Host σ) β} (h : SettingUp n first)
    (hnext : forall value, SettingUp m (next value)) :
    SettingUp (n + m) (first >>= next) := by
  intro s
  refine (h s).bind ?_ ?_ ?_
  · intro value t hst
    exact (hnext value t).mono fun _ _ htu => hst.trans htu
  · exact fun t hst => hst.mono (Nat.le_add_right n m)
  · exact fun t hst => hst.mono (Nat.le_add_right n m)

/-- A step that sends nothing, in front of others. -/
theorem SettingUp.after {α β : Type} {n : Nat} {first : Process (Host σ) α}
    {next : α -> Process (Host σ) β} (h : SettingUp 0 first)
    (hnext : forall value, SettingUp n (next value)) :
    SettingUp n (first >>= next) := by
  have hbind := h.bind hnext
  rw [Nat.zero_add] at hbind
  exact hbind

theorem settingUp_read : SettingUp 0 (Process.read (S := Host σ)) :=
  fun _ => SetsUp.nothing rfl 0

variable [Usbfs σ]

/-- A command of another type. -/
theorem settingUp_ccidXferBuilt {slot type : UInt8} {ctl : Option CcidCtl}
    (htype : type ≠ ccidCmdXfrblock) (expected : UInt8) (reader : CcidReader) :
    SettingUp (σ := σ) 1
      (ccidXferBuilt (ccidBuildCommand reader slot type ctl [] 0) expected) := by
  intro s
  cases hbuild : ccidBuildCommand reader slot type ctl [] 0 with
  | none => exact SetsUp.nothing rfl 1
  | some cmd =>
      rcases ccidBuildCommand_spec hbuild with ⟨_, _, hwf, hcontents⟩
      refine (ccidXfer_ensures cmd expected hwf s).mono ?_
      intro outcome t h
      rcases h with ⟨_, _, dumps, hsame⟩ | ⟨rv, answers, hexchanged⟩
      · have hlog : t.log = s.log := by rw [hsame]
        exact SetsUp.nothing hlog 1
      · refine ⟨_, hexchanged.adds, Nat.le_refl 1, ?_⟩
        intro x hmem
        rw [List.mem_singleton.mp hmem, hcontents, packetApdu_ccidPacket, if_neg htype]

theorem settingUp_ccidGetSlotStatus (slot : Nat) :
    SettingUp (σ := σ) 1 (ccidGetSlotStatus slot) := by
  refine settingUp_read.after fun s => ?_
  exact (settingUp_ccidXferBuilt (by decide) _ s.reader).bind fun _ =>
    SettingUp.pure 0 _

theorem settingUp_ccidCardPoweron (slot : Nat) (voltage : UInt8) :
    SettingUp (σ := σ) 1 (ccidCardPoweron slot voltage) := by
  refine settingUp_read.after fun s => ?_
  exact (settingUp_ccidXferBuilt (by decide) _ s.reader).bind fun _ =>
    SettingUp.pure 0 _

theorem settingUp_ccidTryVoltages (slot : Nat) (voltages : List Nat) :
    SettingUp (σ := σ) voltages.length (ccidTryVoltages slot voltages) := by
  induction voltages with
  | nil => exact SettingUp.pure 0 none
  | cons i rest ih =>
      have hrest : SettingUp (σ := σ) (i :: rest).length (ccidTryVoltages slot rest) :=
        fun s => (ih s).mono fun _ _ h => h.mono (Nat.le_succ _)
      refine settingUp_read.after fun s => ?_
      split
      · rw [List.length_cons, Nat.add_comm]
        refine (settingUp_ccidCardPoweron (σ := σ) slot _).bind fun atr => ?_
        cases atr with
        | some atr => exact SettingUp.pure _ _
        | none => exact ih
      · exact hrest

theorem settingUp_ccidResetCard (slot : Nat) :
    SettingUp (σ := σ) 4 (ccidResetCard slot) := by
  have htry := settingUp_ccidTryVoltages (σ := σ) slot [0, 1, 2]
  refine settingUp_read.after fun s => ?_
  split
  · change SettingUp (1 + 3) _
    refine (settingUp_ccidCardPoweron slot 0).bind fun atr => ?_
    cases atr with
    | some atr => exact SettingUp.pure 3 _
    | none => exact htry
  · exact fun s => (htry s).mono fun _ _ h => h.mono (by decide)

theorem settingUp_ccidReaderSelectSlot (slot : Nat) :
    SettingUp (σ := σ) 1 (ccidReaderSelectSlot slot) := by
  refine settingUp_read.after fun s => ?_
  split
  · exact SettingUp.pure 1 true
  · change SettingUp (1 + 0) _
    refine (settingUp_ccidGetSlotStatus slot).bind fun status => ?_
    cases status with
    | none => exact SettingUp.pure 0 false
    | some status =>
        dsimp only
        split
        · exact SettingUp.pure 0 false
        · refine SettingUp.after ?_ fun _ => SettingUp.pure 0 true
          intro s
          apply Process.ensures_update
          apply SetsUp.nothing
          rfl

theorem settingUp_ccidReaderIdentifyCard (slot : Nat) :
    SettingUp (σ := σ) 4 (ccidReaderIdentifyCard slot) := by
  refine settingUp_read.after fun s => ?_
  split
  · exact SettingUp.pure 4 none
  · exact (settingUp_ccidResetCard (σ := σ) slot).bind fun _ => SettingUp.pure 0 _

/-- Creating the reader sends nothing. -/
theorem ccidReaderCreate_ensures (s : Host σ) :
    ccidReaderCreate.Ensures s fun outcome t =>
      (exists created, outcome = .done created) ∧ t.log = s.log ∧ t.dumps = s.dumps := by
  rcases selectsOnly_uusbDevSelect s with ⟨ccid, t, hrun, hsame⟩
  refine Process.ensures_bind_of_run hrun ?_
  have hnone : (pure false : Process (Host σ) Bool).Ensures t fun outcome u =>
      (exists created, outcome = .done created) ∧ u.log = s.log ∧ u.dumps = s.dumps :=
    ⟨⟨false, rfl⟩, hsame.log, hsame.dumps⟩
  cases ccid with
  | none => exact hnone
  | some ccid =>
      dsimp only
      split
      · exact hnone
      · split
        · exact hnone
        · exact ⟨⟨true, rfl⟩, hsame.log, hsame.dumps⟩

end

/-!
## Exchanges with the card
-/

/-- A call of `ifd_card_xfer`: its APDU, all APDUs that were sent for it, with
their replies, and what came back. -/
structure CardXfer where
  apdu : List UInt8
  rounds : List ApduCall
  outcome : Outcome (Option (List UInt8 × Nat))

/-- The final status word is that of success. -/
def CardXfer.Succeeded (x : CardXfer) : Prop :=
  exists body, x.outcome = .done (some (body, ykpivSuccess))

section

variable {σ : Type}

/-- Nothing happens but a dump. -/
def Host.Dumped (s t : Host σ) : Prop :=
  exists dumps, t = { s with dumps := dumps }

theorem Host.Dumped.rfl {s : Host σ} : s.Dumped s :=
  ⟨s.dumps, Eq.refl s⟩

theorem Host.Dumped.trans {s t u : Host σ} (h1 : s.Dumped t) (h2 : t.Dumped u) :
    s.Dumped u := by
  rcases h1 with ⟨dumps1, rfl⟩
  rcases h2 with ⟨dumps2, rfl⟩
  exact ⟨dumps2, Eq.refl _⟩

variable [Usbfs σ]

/-- The rounds are those of one exchange. -/
def CardXfer.Made (size : Nat) (x : CardXfer) : Prop :=
  exists reached last,
    CardExchange size [] x.apdu x.rounds x.outcome reached last

/-- A run of `ifd_card_xfer` from a state to a state. -/
structure CardXfer.Runs (slot : Nat) (s t : Host σ) (x : CardXfer) : Prop where
  calls : exists calls, Process.Calls (ccidReaderApduXfer slot) s calls t ∧
    (forall call, call ∈ calls -> call.1.Wf) ∧ calls.map ApduCall.of = x.rounds
  made : x.Made (capacity s.reader.maxMessageSize)
  short : x.apdu.length ≤ 260
  maxMessageSize : t.reader.maxMessageSize = s.reader.maxMessageSize

/-- A run that sends nothing but these exchanges, one after the other. -/
inductive Transfers (slot : Nat) : Host σ -> List CardXfer -> Host σ -> Prop where
  | nothing {s t : Host σ} (h : s.Dumped t) : Transfers slot s [] t
  | next {s s' t u : Host σ} {x : CardXfer} {xs : List CardXfer} (h : s.Dumped s')
      (hx : x.Runs slot s' t) (hxs : Transfers slot t xs u) : Transfers slot s (x :: xs) u

variable {slot : Nat} {s t u : Host σ} {x : CardXfer} {xs ys : List CardXfer}

theorem Transfers.single (h : x.Runs slot s t) : Transfers slot s [x] t :=
  .next Host.Dumped.rfl h (.nothing Host.Dumped.rfl)

theorem Transfers.after_dump (h : s.Dumped t) (hxs : Transfers slot t xs u) :
    Transfers slot s xs u := by
  cases hxs with
  | nothing hdumped => exact .nothing (h.trans hdumped)
  | next hdumped hx hrest => exact .next (h.trans hdumped) hx hrest

theorem Transfers.append (h1 : Transfers slot s xs t) (h2 : Transfers slot t ys u) :
    Transfers slot s (xs ++ ys) u := by
  induction h1 with
  | nothing hdumped => exact h2.after_dump hdumped
  | next hdumped hx _ ih => exact .next hdumped hx (ih h2)

theorem Transfers.dumped (h : Transfers slot s xs t) (hdumped : t.Dumped u) :
    Transfers slot s xs u := by
  have happend := h.append (.nothing hdumped)
  rw [List.append_nil] at happend
  exact happend

theorem Transfers.maxMessageSize (h : Transfers slot s xs t) :
    t.reader.maxMessageSize = s.reader.maxMessageSize := by
  induction h with
  | nothing hdumped =>
      rcases hdumped with ⟨dumps, rfl⟩
      rfl
  | next hdumped hx _ ih =>
      rcases hdumped with ⟨dumps, rfl⟩
      exact ih.trans hx.maxMessageSize

theorem Transfers.made (h : Transfers slot s xs t) :
    forall x, x ∈ xs -> x.Made (capacity t.reader.maxMessageSize) := by
  induction h with
  | nothing _ => exact fun _ hmem => (List.not_mem_nil hmem).elim
  | next hdumped hx hxs ih =>
      intro y hmem
      cases List.mem_cons.mp hmem with
      | inl heq =>
          rw [heq, hxs.maxMessageSize, hx.maxMessageSize]
          exact hx.made
      | inr hrest => exact ih y hrest

theorem ifdCardXfer_ensures (card : IfdCard) {apdu : Buffer} (h : apdu.Wf)
    (hshort : apdu.contents.length ≤ 260) (s : Host σ) :
    (ifdCardXfer card (some apdu)).Ensures s fun outcome t =>
      exists x : CardXfer, x.Runs card.slot s t ∧ x.apdu = apdu.contents ∧
        x.outcome = cardResult outcome := by
  have hruns := ifdCardXfer_runs card h s
  rcases hruns.exchange with ⟨calls, reached, last, hcalls, hproper, hexchange⟩
  exact ⟨⟨apdu.contents, calls.map ApduCall.of, _⟩,
    ⟨⟨calls, hcalls, fun call hmem => (hproper call hmem).apdu, rfl⟩,
      ⟨reached, last, hexchange⟩, hshort, hruns.sameReader.maxMessageSize⟩, rfl, rfl⟩

/-!
What the exchanges add to the record: one command for each APDU.
-/

theorem ccidReaderApduXfer_adds (slot : Nat) {apdu : Buffer} (h : apdu.Wf)
    (hshort : apdu.contents.length ≤ 260) (s : Host σ) :
    (ccidReaderApduXfer slot apdu).Ensures s fun _ t =>
      exists y, s.Adds t [y] ∧ packetApdu y.packet = some apdu.contents := by
  refine (ccidReaderApduXfer_ensures slot h s).mono ?_
  intro outcome t hxfer
  cases hxfer with
  | tooLong hlong hsame => lia
  | dumped hlong hsame => lia
  | exchanged hcmd hexchanged =>
      refine ⟨_, hexchanged.adds, ?_⟩
      dsimp only
      rw [hcmd, packetApdu_ccidPacket, if_pos rfl]

theorem calls_add {calls : List (Buffer × Outcome (Option Buffer))}
    (h : Process.Calls (ccidReaderApduXfer slot) s calls t)
    (hwf : forall call, call ∈ calls ->
      call.1.Wf ∧ call.1.contents.length ≤ 260) :
    exists sent, s.Adds t sent ∧
      (sent.map fun y => packetApdu y.packet) =
        calls.map fun call => some call.1.contents := by
  induction h with
  | nil s => exact ⟨[], Host.Adds.nil rfl, rfl⟩
  | @returned s t u apdu value calls hcall hrest ih =>
      rcases hwf (apdu, .done value) List.mem_cons_self with ⟨hapdu, hshort⟩
      rcases ih (fun call hmem => hwf call (List.mem_cons_of_mem _ hmem)) with
        ⟨sent, hadds, hapdus⟩
      rcases (ccidReaderApduXfer_adds slot hapdu hshort s).apply hcall with
        ⟨y, hfirst, hy⟩
      refine ⟨y :: sent, hfirst.append hadds, ?_⟩
      rw [List.map_cons, List.map_cons, hy, hapdus]
  | @stopped s t apdu outcome hcall hstop =>
      rcases hwf (apdu, outcome) List.mem_cons_self with ⟨hapdu, hshort⟩
      rcases (ccidReaderApduXfer_adds slot hapdu hshort s).apply hcall with
        ⟨y, hfirst, hy⟩
      exact ⟨[y], hfirst, by rw [List.map_singleton, List.map_singleton, hy]⟩

theorem CardExchange.round_cases {size : Nat} {first : List UInt8}
    {calls : List ApduCall} {outcome : Outcome (Option (List UInt8 × Nat))}
    {reached : List ReplyApdu} {last : Outcome (Option (List UInt8))}
    (h : CardExchange size [] first calls outcome reached last) {round : ApduCall}
    (hmem : round ∈ calls) :
    round.apdu = first ∨ exists p, p ∈ reached ∧ round.apdu = getResponseApdu p := by
  have hapdu : round.apdu ∈ first :: reached.map getResponseApdu := by
    rw [← h.apdus]
    exact List.mem_map_of_mem hmem
  cases List.mem_cons.mp hapdu with
  | inl heq => exact Or.inl heq
  | inr hrest =>
      rcases List.mem_map.mp hrest with ⟨p, hp, heq⟩
      exact Or.inr ⟨p, hp, heq.symm⟩

theorem CardXfer.Runs.adds (h : x.Runs slot s t) :
    exists sent, s.Adds t sent ∧
      (sent.map fun y => packetApdu y.packet) =
        x.rounds.map fun round => some round.apdu := by
  rcases h.calls with ⟨calls, hcalls, hwf, hrounds⟩
  rcases h.made with ⟨reached, last, hexchange⟩
  have hshort : forall call, call ∈ calls -> call.1.contents.length ≤ 260 := by
    intro call hmem
    have hround : ApduCall.of call ∈ x.rounds := by
      rw [← hrounds]
      exact List.mem_map_of_mem hmem
    change (ApduCall.of call).apdu.length ≤ 260
    rcases hexchange.round_cases hround with heq | ⟨p, _, heq⟩
    · rw [heq]
      exact h.short
    · rw [heq, getResponseApdu_length]
      decide
  rcases calls_add hcalls (fun call hmem => ⟨hwf call hmem, hshort call hmem⟩) with
    ⟨sent, hadds, hapdus⟩
  refine ⟨sent, hadds, ?_⟩
  rw [hapdus, ← hrounds, List.map_map]
  rfl

/-- All APDUs of some exchanges, with their replies. -/
def cardRounds (xfers : List CardXfer) : List ApduCall :=
  xfers.flatMap CardXfer.rounds

theorem Transfers.adds (h : Transfers slot s xs t) :
    exists sent, s.Adds t sent ∧
      (sent.map fun y => packetApdu y.packet) =
        (cardRounds xs).map fun round => some round.apdu := by
  induction h with
  | nothing hdumped =>
      rcases hdumped with ⟨dumps, rfl⟩
      exact ⟨[], Host.Adds.nil rfl, rfl⟩
  | next hdumped hx _ ih =>
      rcases hdumped with ⟨dumps, rfl⟩
      rcases hx.adds with ⟨first, hfirst, hapdus⟩
      rcases ih with ⟨rest, hrest, hothers⟩
      have hlog : Host.Adds _ _ (first ++ rest) := hfirst.append hrest
      refine ⟨first ++ rest, ⟨hlog.log, hlog.answers⟩, ?_⟩
      rw [List.map_append, hapdus, hothers, cardRounds, cardRounds, List.flatMap_cons,
        List.map_append]

theorem Transfers.sentApdus (h : Transfers slot s xs t) :
    sentApdus t.log = sentApdus s.log ++ (cardRounds xs).map ApduCall.apdu := by
  rcases h.adds with ⟨sent, hadds, hapdus⟩
  rw [hadds.sentApdus]
  congr 1
  have hall := congrArg (List.filterMap id) hapdus
  rw [List.filterMap_map, List.filterMap_map] at hall
  change sent.filterMap (fun y => packetApdu y.packet) = _ at hall
  rw [hall]
  exact congrFun (List.filterMap_eq_map (f := ApduCall.apdu)) (cardRounds xs)

end

end UtokenDecrypt
