import UtokenDecrypt.Card.Phases
import UtokenDecrypt.Card.Slots
import UtokenDecrypt.Ccid.Session
import UtokenDecrypt.Foundation.Monitor

/-!
# The commands of a run

What a run of the program puts on the wire, command by command.  A session with the
reader asks for the status of the slot, powers the card on if there is one, and talks
to it once it is powered; each command carries the number behind those sent before it.
`sessionStep` is this protocol, and every run obeys it.
-/

namespace UtokenDecrypt

open Foundation
open Usb

/-!
## The protocol
-/

/-- Where a session stands.  Behind the status of the slot there are the voltages that
have not been tried. -/
inductive SessionPhase where
  | created
  | selected (plan : List UInt8)
  | powered
  | absent
deriving DecidableEq

structure Session where
  seq : UInt8
  phase : SessionPhase
deriving DecidableEq

def voltageBits (supported : Nat) (bits : List Nat) : List UInt8 :=
  (bits.filter fun i => supported.testBit i).map fun i => UInt8.ofNat (i + 1)

/-- The voltages that are to be tried: first the one the reader chooses, then those it
supports. -/
def voltagePlan (auto : Bool) (supported : Nat) : List UInt8 :=
  (if auto then [0] else []) ++ voltageBits supported [0, 1, 2]

namespace CcidSent

def reportsCard (x : CcidSent) : Bool :=
  (x.response ccidRespSlotstat).any fun packet => packet.getD 7 0 &&& 0x3 != 2

def answered (x : CcidSent) : Bool :=
  (x.response ccidRespData).isSome

def voltage (x : CcidSent) : UInt8 :=
  x.packet.getD 7 0

def seq (x : CcidSent) : UInt8 :=
  x.packet.getD 6 0

end CcidSent

/-- The number behind a command, which counts only if it was sent. -/
def Session.advance (q : Session) (x : CcidSent) (phase : SessionPhase) : Session where
  seq := if x.rv then q.seq + 1 else q.seq
  phase := phase

/-- The commands a session with a slot may go on with. -/
def sessionStep (slot : UInt8) (plan : List UInt8) : Monitor Session CcidSent :=
  fun q x =>
    match q.phase with
    | .created =>
        if x.packet = ccidPacket ccidCmdGetslotstat slot q.seq {} [] then
          some (q.advance x (if x.reportsCard then .selected plan else .absent))
        else none
    | .selected [] => none
    | .selected (voltage :: rest) =>
        if x.packet = ccidPacket ccidCmdIccpoweron slot q.seq { ctl1 := voltage } [] then
          some (q.advance x (if x.answered then .powered else .selected rest))
        else none
    | .powered =>
        if x.packet = ccidPacket ccidCmdXfrblock slot q.seq {}
            (x.packet.drop ccidHdrSize) then
          some (q.advance x .powered)
        else none
    | .absent => none

/-!
What the protocol means for the list of all commands.
-/

/-- What is sent to power the card on, and behind it. -/
structure PoweringParts (slot : UInt8) (plan : List UInt8)
    (power blocks : List CcidSent) : Prop where
  power_packet : forall x, x ∈ power ->
    x.packet = ccidPacket ccidCmdIccpoweron slot x.seq { ctl1 := x.voltage } []
  blocks_packet : forall x, x ∈ blocks ->
    x.packet = ccidPacket ccidCmdXfrblock slot x.seq {} (x.packet.drop ccidHdrSize)
  voltages : power.map CcidSent.voltage <+: plan
  refused : forall front x back, power = front ++ x :: back -> back ≠ [] ->
    x.answered = false
  powered : blocks ≠ [] -> exists front x, power = front ++ [x] ∧ x.answered = true

/-- The commands of a session: which there are, in which order and how often, and what
stands in them. -/
structure SessionParts (slot : UInt8) (plan : List UInt8)
    (status power blocks : List CcidSent) : Prop where
  status_le : status.length ≤ 1
  status_packet : forall x, x ∈ status ->
    x.packet = ccidPacket ccidCmdGetslotstat slot x.seq {} []
  present : power ≠ [] -> exists x, x ∈ status ∧ x.reportsCard = true
  powering : PoweringParts slot plan power blocks
  numbered : forall i x, (status ++ (power ++ blocks))[i]? = some x ->
    x.seq = UInt8.ofNat (((status ++ (power ++ blocks)).take i).countP CcidSent.rv)

section

variable {slot : UInt8} {plan : List UInt8} {q next : Session} {x : CcidSent}
  {sent : List CcidSent}

theorem seq_ccidPacket {type seq : UInt8} {ctl : CcidCtl} {payload : List UInt8}
    (h : x.packet = ccidPacket type slot seq ctl payload) :
    x.seq = seq ∧ x.voltage = ctl.ctl1 := by
  rw [CcidSent.seq, CcidSent.voltage, h]
  exact ⟨ccidPacket_seq _ _ _ _ _, ccidPacket_ctl1 _ _ _ _ _⟩

/-- The ways a session goes on. -/
theorem sessionStep_cases (h : sessionStep slot plan q x = some next) :
    (q.phase = .created ∧ x.packet = ccidPacket ccidCmdGetslotstat slot q.seq {} [] ∧
      next = q.advance x (if x.reportsCard then .selected plan else .absent)) ∨
    (exists voltage rest, q.phase = .selected (voltage :: rest) ∧
      x.packet = ccidPacket ccidCmdIccpoweron slot q.seq { ctl1 := voltage } [] ∧
      next = q.advance x (if x.answered then .powered else .selected rest)) ∨
    (q.phase = .powered ∧
      x.packet = ccidPacket ccidCmdXfrblock slot q.seq {} (x.packet.drop ccidHdrSize) ∧
      next = q.advance x .powered) := by
  unfold sessionStep at h
  split at h
  · rename_i hphase
    split at h
    · rename_i hpacket
      injection h with h
      exact Or.inl ⟨hphase, hpacket, h.symm⟩
    · cases h
  · cases h
  · rename_i voltage rest hphase
    split at h
    · rename_i hpacket
      injection h with h
      exact Or.inr (Or.inl ⟨voltage, rest, hphase, hpacket, h.symm⟩)
    · cases h
  · rename_i hphase
    split at h
    · rename_i hpacket
      injection h with h
      exact Or.inr (Or.inr ⟨hphase, hpacket, h.symm⟩)
    · cases h
  · cases h

theorem sessionStep_seq (h : sessionStep slot plan q x = some next) :
    x.seq = q.seq ∧ next.seq = if x.rv then q.seq + 1 else q.seq := by
  rcases sessionStep_cases h with ⟨_, hpacket, rfl⟩ | ⟨voltage, rest, _, hpacket, rfl⟩ |
    ⟨_, hpacket, rfl⟩
  · exact ⟨(seq_ccidPacket hpacket).1, rfl⟩
  · exact ⟨(seq_ccidPacket hpacket).1, rfl⟩
  · exact ⟨(seq_ccidPacket hpacket).1, rfl⟩

theorem session_numbered (h : (sessionStep slot plan).run q sent = some next) {i : Nat}
    (hx : sent[i]? = some x) :
    x.seq = q.seq + UInt8.ofNat ((sent.take i).countP CcidSent.rv) := by
  induction sent generalizing q i with
  | nil => cases hx
  | cons y rest ih =>
      rcases Option.bind_eq_some_iff.mp h with ⟨mid, hmid, hrest⟩
      rcases sessionStep_seq hmid with ⟨hseq, hnext⟩
      cases i with
      | zero =>
          injection hx with hx
          rw [← hx, hseq]
          simp
      | succ i =>
          rw [ih hrest hx, hnext, List.take_succ_cons, List.countP_cons]
          cases y.rv with
          | false => simp
          | true =>
              rw [if_pos rfl, if_pos rfl, UInt8.ofNat_add, UInt8.add_assoc]
              congr 1
              exact UInt8.add_comm _ _

theorem session_powered (h : (sessionStep slot plan).run q sent = some next)
    (hphase : q.phase = .powered) :
    next.phase = .powered ∧ forall x, x ∈ sent ->
      x.packet = ccidPacket ccidCmdXfrblock slot x.seq {}
        (x.packet.drop ccidHdrSize) := by
  induction sent generalizing q with
  | nil =>
      injection h with h
      rw [← h]
      exact ⟨hphase, fun _ hmem => (List.not_mem_nil hmem).elim⟩
  | cons y rest ih =>
      rcases Option.bind_eq_some_iff.mp h with ⟨mid, hmid, hrest⟩
      rcases sessionStep_cases hmid with ⟨hbad, _⟩ | ⟨_, _, hbad, _⟩ | ⟨_, hpacket, rfl⟩
      · rw [hphase] at hbad
        cases hbad
      · rw [hphase] at hbad
        cases hbad
      · rcases ih hrest rfl with ⟨hlast, hall⟩
        refine ⟨hlast, ?_⟩
        intro x hmem
        cases List.mem_cons.mp hmem with
        | inl heq =>
            rw [heq, (seq_ccidPacket hpacket).1]
            exact hpacket
        | inr hrestMem => exact hall x hrestMem

theorem PoweringParts.nothing : PoweringParts slot plan [] [] where
  power_packet := fun _ hmem => (List.not_mem_nil hmem).elim
  blocks_packet := fun _ hmem => (List.not_mem_nil hmem).elim
  voltages := List.nil_prefix
  refused := fun _ _ _ hsplit => eq_nil_of_split_nil hsplit
  powered := fun hbad => absurd rfl hbad

theorem PoweringParts.last {voltage : UInt8} {rest : List UInt8} {y : CcidSent}
    {blocks : List CcidSent}
    (hpacket : y.packet = ccidPacket ccidCmdIccpoweron slot y.seq { ctl1 := voltage } [])
    (hanswered : y.answered = true)
    (hblocks : forall x, x ∈ blocks ->
      x.packet = ccidPacket ccidCmdXfrblock slot x.seq {} (x.packet.drop ccidHdrSize)) :
    PoweringParts slot (voltage :: rest) [y] blocks where
  power_packet := by
    intro x hmem
    rw [List.mem_singleton.mp hmem, (seq_ccidPacket hpacket).2]
    exact hpacket
  blocks_packet := hblocks
  voltages := by
    rw [List.map_singleton, (seq_ccidPacket hpacket).2]
    exact List.prefix_append [voltage] rest
  refused := by
    intro front x back hsplit hback
    rcases List.cons_eq_append_iff.mp hsplit with ⟨_, heq⟩ | ⟨_, _, heq⟩
    · injection heq with _ heq
      exact absurd heq hback
    · exact eq_nil_of_split_nil heq
  powered := fun _ => ⟨[], y, rfl, hanswered⟩

/-- A voltage the card does not answer to, in front of the others. -/
theorem PoweringParts.cons {voltage : UInt8} {rest : List UInt8} {y : CcidSent}
    {power blocks : List CcidSent}
    (hpacket : y.packet = ccidPacket ccidCmdIccpoweron slot y.seq { ctl1 := voltage } [])
    (hanswered : y.answered = false) (h : PoweringParts slot rest power blocks) :
    PoweringParts slot (voltage :: rest) (y :: power) blocks where
  power_packet := by
    intro x hmem
    cases List.mem_cons.mp hmem with
    | inl heq =>
        rw [heq, (seq_ccidPacket hpacket).2]
        exact hpacket
    | inr hrest => exact h.power_packet x hrest
  blocks_packet := h.blocks_packet
  voltages := by
    rw [List.map_cons, (seq_ccidPacket hpacket).2]
    exact List.cons_prefix_cons.mpr ⟨rfl, h.voltages⟩
  refused := by
    intro front x back hsplit hback
    rcases List.cons_eq_append_iff.mp hsplit with ⟨_, heq⟩ | ⟨front', _, heq⟩
    · injection heq with heq _
      rw [heq]
      exact hanswered
    · exact h.refused front' x back heq hback
  powered := by
    intro hne
    rcases h.powered hne with ⟨front, x, rfl, hx⟩
    exact ⟨y :: front, x, rfl, hx⟩

def Session.TriedAll (q : Session) : Prop :=
  forall voltage rest, q.phase ≠ .selected (voltage :: rest)

theorem session_selected {voltages : List UInt8}
    (h : (sessionStep slot plan).run q sent = some next)
    (hphase : q.phase = .selected voltages) :
    exists power blocks, sent = power ++ blocks ∧
      PoweringParts slot voltages power blocks ∧
      (next.TriedAll -> (exists x, x ∈ power ∧ x.answered = true) ∨
        power.map CcidSent.voltage = voltages) := by
  induction sent generalizing q voltages with
  | nil =>
      injection h with h
      refine ⟨[], [], rfl, PoweringParts.nothing, ?_⟩
      intro htried
      cases voltages with
      | nil => exact Or.inr rfl
      | cons voltage rest =>
          rw [← h] at htried
          exact absurd hphase (htried voltage rest)
  | cons y rest ih =>
      rcases Option.bind_eq_some_iff.mp h with ⟨mid, hmid, hrest⟩
      rcases sessionStep_cases hmid with ⟨hbad, _⟩ |
        ⟨voltage, others, hvoltages, hpacket, rfl⟩ | ⟨hbad, _⟩
      · rw [hphase] at hbad
        cases hbad
      · rw [hphase] at hvoltages
        injection hvoltages with hvoltages
        rw [hvoltages]
        have hseq := (seq_ccidPacket hpacket).1
        rw [← hseq] at hpacket
        cases hanswered : y.answered with
        | true =>
            rw [hanswered, if_pos rfl] at hrest
            have hblocks := (session_powered hrest rfl).2
            exact ⟨[y], rest, rfl, PoweringParts.last hpacket hanswered hblocks,
              fun _ => Or.inl ⟨y, List.mem_singleton_self y, hanswered⟩⟩
        | false =>
            rw [hanswered, if_neg (by decide)] at hrest
            rcases ih hrest rfl with ⟨power, blocks, rfl, hparts, hgave⟩
            refine ⟨y :: power, blocks, rfl, hparts.cons hpacket hanswered, ?_⟩
            intro htried
            rcases hgave htried with ⟨x, hmem, hx⟩ | hvoltage
            · exact Or.inl ⟨x, List.mem_cons_of_mem _ hmem, hx⟩
            · refine Or.inr ?_
              rw [List.map_cons, (seq_ccidPacket hpacket).2, hvoltage]
      · rw [hphase] at hbad
        cases hbad

theorem session_created (h : (sessionStep slot plan).run ⟨0, .created⟩ sent = some next) :
    exists status power blocks, sent = status ++ (power ++ blocks) ∧
      SessionParts slot plan status power blocks ∧
      (next.TriedAll -> (exists x, x ∈ status ∧ x.reportsCard = true) ->
        (exists x, x ∈ power ∧ x.answered = true) ∨
          power.map CcidSent.voltage = plan) := by
  have hnumbered : forall i x, sent[i]? = some x ->
      x.seq = UInt8.ofNat ((sent.take i).countP CcidSent.rv) := by
    intro i x hx
    rw [session_numbered h hx]
    exact UInt8.zero_add _
  cases sent with
  | nil =>
      refine ⟨[], [], [], rfl, ⟨Nat.zero_le 1, fun _ hmem => (List.not_mem_nil hmem).elim,
        fun hbad => absurd rfl hbad, PoweringParts.nothing, hnumbered⟩, ?_⟩
      intro _ hreports
      rcases hreports with ⟨_, hmem, _⟩
      exact (List.not_mem_nil hmem).elim
  | cons y rest =>
      rcases Option.bind_eq_some_iff.mp h with ⟨mid, hmid, hrest⟩
      rcases sessionStep_cases hmid with ⟨_, hpacket, rfl⟩ | ⟨_, _, hbad, _⟩ | ⟨hbad, _⟩
      · have hstatus : forall x, x ∈ [y] ->
            x.packet = ccidPacket ccidCmdGetslotstat slot x.seq {} [] := by
          intro x hmem
          rw [List.mem_singleton.mp hmem, (seq_ccidPacket hpacket).1]
          exact hpacket
        cases hcard : y.reportsCard with
        | true =>
            rw [hcard, if_pos rfl] at hrest
            rcases session_selected hrest rfl with ⟨power, blocks, rfl, hparts, hgave⟩
            exact ⟨[y], power, blocks, rfl, ⟨Nat.le_refl 1, hstatus,
              fun _ => ⟨y, List.mem_singleton_self y, hcard⟩, hparts, hnumbered⟩,
              fun htried _ => hgave htried⟩
        | false =>
            rw [hcard, if_neg (by decide)] at hrest
            -- no command is allowed without a card
            have hnil : rest = [] := by
              cases rest with
              | nil => rfl
              | cons z more => cases hrest
            rw [hnil] at hnumbered ⊢
            refine ⟨[y], [], [], rfl, ⟨Nat.le_refl 1, hstatus, fun hbad => absurd rfl hbad,
              PoweringParts.nothing, hnumbered⟩, ?_⟩
            intro _ hreports
            rcases hreports with ⟨x, hmem, hx⟩
            rw [List.mem_singleton.mp hmem, hcard] at hx
            cases hx
      · cases hbad
      · cases hbad

end

/-!
## The program obeys it
-/

section

variable {σ : Type}

/-- Commands as they are added to the record. -/
def commandRecorder : Recorder (Host σ) CcidSent where
  adds := fun s sent t => s.Adds t sent
  nil := fun _ => Host.Adds.nil rfl
  append := Host.Adds.append

/-- The counter of the reader is that of the session, and the voltages it supports are
those of the plan. -/
structure SessionAt (auto : Bool) (supported : Nat) (phase : SessionPhase) (q : Session)
    (s : Host σ) : Prop where
  seq : q.seq = UInt8.ofNat s.reader.ccidSeq
  phase : q.phase = phase
  autoVoltage : s.reader.autoVoltage = auto
  supportedVoltages : s.reader.supportedVoltages = supported

/-- Only the counter changes. -/
def Host.Counted (s t : Host σ) (rv : Bool) : Prop :=
  t.reader = { s.reader with
    ccidSeq := if rv then (UInt8.ofNat s.reader.ccidSeq).toNat + 1 else s.reader.ccidSeq }

variable {auto : Bool} {supported : Nat} {phase other : SessionPhase} {q next : Session}
  {s t : Host σ} {x : CcidSent}

theorem SessionAt.advance (h : SessionAt auto supported phase q s)
    (hcounted : s.Counted t x.rv) :
    SessionAt auto supported other (q.advance x other) t := by
  rw [Host.Counted] at hcounted
  refine ⟨?_, rfl, ?_, ?_⟩
  · rw [hcounted, Session.advance, h.seq]
    cases x.rv with
    | false => rfl
    | true =>
        rw [if_pos rfl, if_pos rfl, ofNat_succ_congr rfl, UInt8.ofNat_add]
        rfl
  · rw [hcounted]
    exact h.autoVoltage
  · rw [hcounted]
    exact h.supportedVoltages

variable [Usbfs σ]

/-- A command is sent once, unless it is too long. -/
theorem ccidXferBuilt_counted (slot type : UInt8) (ctl : Option CcidCtl)
    (payload : List UInt8) (expected : UInt8) (s : Host σ) :
    (ccidXferBuilt (ccidBuildCommand s.reader slot type ctl payload payload.length)
      expected).Ensures s fun _ t =>
        (2 ^ 32 - 42 < payload.length ∧ s.Dumped t) ∨
        exists x : CcidSent, s.Adds t [x] ∧ s.Counted t x.rv ∧
          x.packet = ccidPacket type slot (UInt8.ofNat s.reader.ccidSeq)
            (ctl.getD {}) payload := by
  cases hbuild : ccidBuildCommand s.reader slot type ctl payload payload.length with
  | none =>
      have hlong := ccidBuildCommand_eq_none_iff.mp hbuild
      exact Or.inl ⟨by lia, Host.Dumped.rfl⟩
  | some cmd =>
      rcases ccidBuildCommand_spec hbuild with ⟨_, hseq, hwf, hcontents⟩
      refine (ccidXfer_ensures cmd expected hwf s).mono ?_
      intro outcome t hxfer
      rcases hxfer with ⟨hlong, _, hdumped⟩ | ⟨rv, answers, hx⟩
      · rw [hcontents, ccidPacket_length] at hlong
        exact Or.inl ⟨by lia, hdumped⟩
      · refine Or.inr ⟨_, hx.adds, ?_, hcontents⟩
        rw [Host.Counted, ← hseq]
        exact hx.reader

/-- What is accepted for a command without payload is returned. -/
theorem ccidXferBuilt_sent (slot type : UInt8) (ctl : Option CcidCtl) (expected : UInt8)
    (s : Host σ) :
    (ccidXferBuilt (ccidBuildCommand s.reader slot type ctl [] 0) expected).Ensures s
      fun outcome t => exists x : CcidSent, s.Adds t [x] ∧ s.Counted t x.rv ∧
        x.packet = ccidPacket type slot (UInt8.ofNat s.reader.ccidSeq) (ctl.getD {}) [] ∧
        ((exists packet resp, x.response expected = some packet ∧
            outcome = .done (some resp) ∧ resp.ctl.ctl1 = packet.getD 7 0) ∨
          x.response expected = none ∧ forall resp, outcome ≠ .done (some resp)) := by
  rcases hrun : ccidXferBuilt (ccidBuildCommand s.reader slot type ctl [] 0) expected s with
    ⟨outcome, t⟩
  unfold Process.Ensures
  rw [hrun]
  have hcases := (ccidXferBuilt_response s.reader slot type ctl expected s).apply hrun
  rcases (ccidXferBuilt_counted slot type ctl [] expected s).apply hrun with
    ⟨hlong, _⟩ | ⟨x, hadds, hcounted, hpacket⟩
  · exact absurd hlong (by decide)
  · refine ⟨x, hadds, hcounted, hpacket, ?_⟩
    rcases hcases.2 with ⟨hlog, _⟩ | ⟨y, hother, _, _, hy⟩
    · have hlength := congrArg List.length hadds.log
      rw [hlog] at hlength
      simp [CcidSent.events] at hlength
    · have hsame := hother.unique hadds
      injection hsame with hsame
      rw [← hsame]
      exact hy

def CcidSent.Returns (x : CcidSent) (expected : UInt8) (resp : Option CcidResponse) :
    Prop :=
  (exists packet got, x.response expected = some packet ∧ resp = some got ∧
    got.ctl.ctl1 = packet.getD 7 0) ∨ x.response expected = none ∧ resp = none

theorem obeys_ccidXferBuilt {slot type : UInt8} {plan : List UInt8}
    (ctl : Option CcidCtl) {expected : UInt8} (h : SessionAt auto supported phase q s)
    {behind : CcidSent -> SessionPhase}
    (hstep : forall x : CcidSent,
      x.packet = ccidPacket type slot q.seq (ctl.getD {}) [] ->
      sessionStep slot plan q x = some (q.advance x (behind x))) :
    Obeys commandRecorder (sessionStep slot plan) q s
      (ccidXferBuilt (ccidBuildCommand s.reader slot type ctl [] 0) expected)
      fun resp next t => exists x : CcidSent, x.Returns expected resp ∧
        SessionAt auto supported (behind x) next t := by
  refine Process.Ensures.mono (ccidXferBuilt_sent slot type ctl expected s) ?_
  intro outcome t hsent
  rcases hsent with ⟨x, hadds, hcounted, hpacket, hresponse⟩
  rw [← h.seq] at hpacket
  refine ⟨_, ⟨[x], hadds, Monitor.run_single (hstep x hpacket)⟩, ?_⟩
  intro resp hdone
  refine ⟨x, ?_, h.advance hcounted⟩
  rcases hresponse with ⟨packet, got, hpacket, hgot, hctl⟩ | ⟨hnone, hnever⟩
  · rw [hdone] at hgot
    injection hgot with hgot
    exact Or.inl ⟨packet, got, hpacket, hgot, hctl⟩
  · cases resp with
    | none => exact Or.inr ⟨hnone, rfl⟩
    | some got => exact absurd hdone (hnever got)

theorem obeys_ccidGetSlotStatus {slot : Nat} {plan : List UInt8}
    (h : SessionAt auto supported .created q s) :
    Obeys commandRecorder (sessionStep (UInt8.ofNat slot) plan) q s
      (ccidGetSlotStatus slot) fun status next t =>
        SessionAt auto supported
          (if status.getD 0 = 0 then .absent else .selected plan) next t := by
  refine Process.ensures_bind_of_run (Process.read_apply s) ?_
  have hstep : forall x : CcidSent,
      x.packet = ccidPacket ccidCmdGetslotstat (UInt8.ofNat slot) q.seq {} [] ->
      sessionStep (UInt8.ofNat slot) plan q x =
        some (q.advance x (if x.reportsCard then .selected plan else .absent)) := by
    intro x hpacket
    rw [sessionStep, h.phase]
    exact if_pos hpacket
  refine (obeys_ccidXferBuilt none h hstep).bind ?_
  intro resp next t hreturned
  rcases hreturned with ⟨x, ⟨packet, got, hpacket, rfl, hctl⟩ | ⟨hnone, rfl⟩, hat⟩
  · refine obeys_pure ?_
    rw [CcidSent.reportsCard, hpacket, Option.any_some, ← hctl] at hat
    rw [Option.map_some, Option.getD_some]
    by_cases hno : got.ctl.ctl1 &&& 0x3 = 2
    · rw [if_pos hno, if_pos rfl]
      rw [hno] at hat
      exact hat
    · rw [if_neg hno, if_neg (by decide)]
      rw [if_pos (bne_iff_ne.mpr hno)] at hat
      exact hat
  · refine obeys_pure ?_
    rw [CcidSent.reportsCard, hnone] at hat
    exact hat

theorem obeys_ccidReaderSelectSlot (slot : Nat) {plan : List UInt8}
    (h : SessionAt auto supported .created q s)
    (hother : slotUnsigned s.reader.currentSlot ≠ slot) :
    Obeys commandRecorder (sessionStep (UInt8.ofNat slot) plan) q s
      (ccidReaderSelectSlot slot) fun selected next t =>
        SessionAt auto supported (if selected then .selected plan else .absent)
          next t := by
  refine Process.ensures_bind_of_run (Process.read_apply s) ?_
  rw [if_neg hother]
  refine (obeys_ccidGetSlotStatus h).bind ?_
  intro status next t hat
  cases status with
  | none => exact obeys_pure hat
  | some status =>
      rw [Option.getD_some] at hat
      dsimp only
      split
      · rename_i hzero
        rw [if_pos hzero] at hat
        exact obeys_pure hat
      · rename_i hzero
        rw [if_neg hzero] at hat
        refine Obeys.bind (obeys_of_run (Process.update_apply _ _)
          ⟨[], Host.Adds.nil rfl, rfl⟩ ?_) fun _ _ _ hat => obeys_pure hat
        exact ⟨hat.seq, hat.phase, hat.autoVoltage, hat.supportedVoltages⟩

theorem obeys_ccidCardPoweron {slot : Nat} {plan rest : List UInt8} {voltage : UInt8}
    (h : SessionAt auto supported (.selected (voltage :: rest)) q s) :
    Obeys commandRecorder (sessionStep (UInt8.ofNat slot) plan) q s
      (ccidCardPoweron slot voltage) fun atr next t =>
        SessionAt auto supported (if atr.isSome then .powered else .selected rest)
          next t := by
  refine Process.ensures_bind_of_run (Process.read_apply s) ?_
  have hstep : forall x : CcidSent,
      x.packet = ccidPacket ccidCmdIccpoweron (UInt8.ofNat slot) q.seq
        { ctl1 := voltage } [] ->
      sessionStep (UInt8.ofNat slot) plan q x =
        some (q.advance x (if x.answered then .powered else .selected rest)) := by
    intro x hpacket
    rw [sessionStep, h.phase]
    exact if_pos hpacket
  refine (obeys_ccidXferBuilt (some { ctl1 := voltage }) h hstep).bind ?_
  intro resp next t hreturned
  rcases hreturned with ⟨x, ⟨packet, got, hpacket, rfl, _⟩ | ⟨hnone, rfl⟩, hat⟩
  · rw [CcidSent.answered, hpacket] at hat
    exact obeys_pure hat
  · rw [CcidSent.answered, hnone] at hat
    exact obeys_pure hat

/-- The voltages are tried as they come in the plan. -/
theorem obeys_ccidTryVoltages {slot : Nat} {plan : List UInt8} {bits : List Nat}
    (h : SessionAt auto supported (.selected (voltageBits supported bits)) q s) :
    Obeys commandRecorder (sessionStep (UInt8.ofNat slot) plan) q s
      (ccidTryVoltages slot bits) fun atr next t =>
        SessionAt auto supported (if atr.isSome then .powered else .selected [])
          next t := by
  induction bits generalizing q s with
  | nil => exact obeys_pure h
  | cons i rest ih =>
      refine Process.ensures_bind_of_run (Process.read_apply s) ?_
      rw [h.supportedVoltages]
      cases hbit : supported.testBit i with
      | true =>
          rw [if_pos rfl]
          have hplan : voltageBits supported (i :: rest) =
              UInt8.ofNat (i + 1) :: voltageBits supported rest := by
            rw [voltageBits, List.filter_cons_of_pos hbit, List.map_cons, voltageBits]
          rw [hplan] at h
          refine (obeys_ccidCardPoweron h).bind ?_
          intro atr next t hat
          cases atr with
          | some atr => exact obeys_pure hat
          | none => exact ih hat
      | false =>
          rw [if_neg (by decide)]
          rw [voltageBits, List.filter_cons_of_neg (by rw [hbit]; decide)] at h
          exact ih h

theorem obeys_ccidResetCard {slot : Nat}
    (h : SessionAt auto supported (.selected (voltagePlan auto supported)) q s)
    (plan : List UInt8) :
    Obeys commandRecorder (sessionStep (UInt8.ofNat slot) plan) q s
      (ccidResetCard slot) fun atr next t =>
        SessionAt auto supported (if atr.isSome then .powered else .selected [])
          next t := by
  refine Process.ensures_bind_of_run (Process.read_apply s) ?_
  rw [h.autoVoltage]
  cases auto with
  | true =>
      rw [if_pos rfl]
      refine (obeys_ccidCardPoweron h).bind ?_
      intro atr next t hat
      cases atr with
      | some atr => exact obeys_pure hat
      | none => exact obeys_ccidTryVoltages hat
  | false =>
      rw [if_neg (by decide)]
      exact obeys_ccidTryVoltages h

theorem obeys_ccidReaderIdentifyCard {slot : Nat}
    (h : SessionAt auto supported (.selected (voltagePlan auto supported)) q s)
    (hcurrent : slotUnsigned s.reader.currentSlot = slot) (plan : List UInt8) :
    Obeys commandRecorder (sessionStep (UInt8.ofNat slot) plan) q s
      (ccidReaderIdentifyCard slot) fun card next t => next.TriedAll ∧
        (card.isSome -> SessionAt auto supported .powered next t) := by
  refine Process.ensures_bind_of_run (Process.read_apply s) ?_
  rw [if_neg (fun hne => hne hcurrent.symm)]
  refine (obeys_ccidResetCard h plan).bind ?_
  intro atr next t hat
  refine obeys_pure ?_
  cases atr with
  | none =>
      constructor
      · intro voltage rest hbad
        rw [hat.phase] at hbad
        cases hbad
      · intro hbad
        cases hbad
  | some atr =>
      constructor
      · intro voltage rest hbad
        rw [hat.phase] at hbad
        cases hbad
      · exact fun _ => hat

/-!
Behind the card, there are only exchanges with it.
-/

section

variable {slot : Nat} {plan : List UInt8}

/-- The session may go on from `s` to `t`, and then again. -/
def StaysPowered (auto : Bool) (supported : Nat) (slot : Nat) (plan : List UInt8)
    (s t : Host σ) : Prop :=
  forall q, SessionAt auto supported .powered q s -> exists next,
    commandRecorder.Allowed (sessionStep (UInt8.ofNat slot) plan) q s next t ∧
      SessionAt auto supported .powered next t

omit [Usbfs σ] in
theorem StaysPowered.dumped (h : s.Dumped t) :
    StaysPowered auto supported slot plan s t := by
  rcases h with ⟨dumps, rfl⟩
  intro q hq
  exact ⟨q, ⟨[], Host.Adds.nil rfl, rfl⟩,
    ⟨hq.seq, hq.phase, hq.autoVoltage, hq.supportedVoltages⟩⟩

omit [Usbfs σ] in
theorem StaysPowered.trans {u : Host σ} (h1 : StaysPowered auto supported slot plan s t)
    (h2 : StaysPowered auto supported slot plan t u) :
    StaysPowered auto supported slot plan s u := by
  intro q hq
  rcases h1 q hq with ⟨mid, hmid, hq1⟩
  rcases h2 mid hq1 with ⟨next, hnext, hq2⟩
  exact ⟨next, hmid.trans hnext, hq2⟩

theorem staysPowered_ccidReaderApduXfer {apdu : Buffer} (hwf : apdu.Wf)
    {outcome : Outcome (Option Buffer)}
    (hcall : ccidReaderApduXfer slot apdu s = (outcome, t)) :
    StaysPowered auto supported slot plan s t := by
  rw [ccidReaderApduXfer, Process.bind_done (Process.read_apply s),
    Process.bind_pure_apply, ccidBuildCommand_contents hwf] at hcall
  have hcounted := ccidXferBuilt_counted (UInt8.ofNat slot) ccidCmdXfrblock none
    apdu.contents ccidRespData s
  unfold Process.Ensures at hcounted
  rw [(Prod.mk.inj hcall).2] at hcounted
  rcases hcounted with ⟨_, hdumped⟩ | ⟨x, hadds, hcount, hpacket⟩
  · exact .dumped hdumped
  · intro q hq
    have hdrop : x.packet.drop ccidHdrSize = apdu.contents := by
      rw [hpacket, ccidPacket, List.drop_left']
      simp [ccidHdrSize, CcidCtl.bytes]
    refine ⟨q.advance x .powered, ⟨[x], hadds, Monitor.run_single ?_⟩, hq.advance hcount⟩
    rw [sessionStep, hq.phase]
    refine if_pos ?_
    rw [hdrop, hq.seq]
    exact hpacket

theorem staysPowered_calls {calls : List (Buffer × Outcome (Option Buffer))}
    (h : Process.Calls (ccidReaderApduXfer slot) s calls t)
    (hwf : forall call, call ∈ calls -> call.1.Wf) :
    StaysPowered auto supported slot plan s t := by
  induction h with
  | nil s => exact .dumped Host.Dumped.rfl
  | @returned s t u apdu value calls hcall _ ih =>
      have hfirst := hwf (apdu, .done value) List.mem_cons_self
      exact (staysPowered_ccidReaderApduXfer hfirst hcall).trans
        (ih fun call hmem => hwf call (List.mem_cons_of_mem _ hmem))
  | @stopped s t apdu outcome hcall _ =>
      exact staysPowered_ccidReaderApduXfer (hwf (apdu, outcome) List.mem_cons_self) hcall

theorem Transfers.staysPowered {xs : List CardXfer} (h : Transfers slot s xs t) :
    StaysPowered auto supported slot plan s t := by
  induction h with
  | nothing hdumped => exact .dumped hdumped
  | next hdumped hx _ ih =>
      rcases hx.calls with ⟨calls, hcalls, hwf, _⟩
      exact (StaysPowered.dumped hdumped).trans ((staysPowered_calls hcalls hwf).trans ih)

theorem obeys_transfers (slot : Nat) {α : Type} {proc : Process (Host σ) α}
    {rel : Outcome α -> Host σ -> Prop} (h : SessionAt auto supported .powered q s)
    (hproc : proc.Ensures s rel)
    (hrel : forall outcome t, rel outcome t -> exists xs, Transfers slot s xs t) :
    Obeys commandRecorder (sessionStep (UInt8.ofNat slot) plan) q s proc
      fun value next t => SessionAt auto supported .powered next t ∧
        rel (.done value) t := by
  refine Obeys.and ?_ hproc
  refine Process.Ensures.mono hproc ?_
  intro outcome t hends
  rcases hrel outcome t hends with ⟨xs, hxs⟩
  rcases hxs.staysPowered q h with ⟨next, hallowed, hat⟩
  exact ⟨next, hallowed, fun _ _ => hat⟩

end

/-!
## The whole run
-/

omit [Usbfs σ] in
theorem SessionAt.triedAll (h : SessionAt auto supported phase q s)
    (hphase : forall voltage rest, phase ≠ .selected (voltage :: rest)) : q.TriedAll := by
  intro voltage rest hbad
  rw [h.phase] at hbad
  exact hphase voltage rest hbad

theorem obeys_doitUse (pin : Option CString) (ciphertext : Buffer) {card : IfdCard}
    (hslot : card.slot = 0) (plan : List UInt8)
    (h : SessionAt auto supported .powered q s) :
    Obeys commandRecorder (sessionStep 0 plan) q s
      ((doitVerify pin card).thenSome fun card => yubikeyDecipher card ciphertext)
      fun _ next _ => next.TriedAll := by
  have hpowered : forall {next : Session} {t : Host σ},
      SessionAt auto supported .powered next t -> next.TriedAll := by
    intro next t hat
    exact hat.triedAll fun _ _ hbad => by cases hbad
  have hdecipher : forall {q : Session} {s : Host σ}, SessionAt auto supported .powered q s ->
      Obeys commandRecorder (sessionStep 0 plan) q s (yubikeyDecipher card ciphertext)
        fun _ next _ => next.TriedAll := by
    intro q s hat
    have hproc := yubikeyDecipher_ensures card ciphertext s
    rw [hslot] at hproc
    refine (obeys_transfers _ hat hproc ?_).mono fun _ _ _ hafter => hpowered hafter.1
    intro _ t ht
    rcases ht with ⟨xs, hxs, _⟩
    exact ⟨xs, hxs⟩
  cases pin with
  | none => exact hdecipher h
  | some pin =>
      have hproc := yubikeyVerify_ensures card (some pin) s
      rw [hslot] at hproc
      rw [doitVerify, Option.elim, Process.bind_thenSome]
      refine (obeys_transfers _ h hproc ?_).bind ?_
      · intro _ t ht
        rcases ht with ⟨xs, hxs, _⟩
        exact ⟨xs, hxs⟩
      · intro verified next t hafter
        cases hrv : verified.rv with
        | false => exact obeys_pure (hpowered hafter.1)
        | true => exact hdecipher hafter.1

theorem obeys_doitSession (pin : Option CString) (ciphertext : Buffer)
    (cardopts : List CString) (h : SessionAt auto supported .created q s)
    (hnew : s.reader.currentSlot = -1) :
    Obeys commandRecorder (sessionStep 0 (voltagePlan auto supported)) q s
      (((doitConnectCard cardopts).thenSome (doitVerify pin)).thenSome fun card =>
        yubikeyDecipher card ciphertext) fun _ next _ => next.TriedAll := by
  have hother : slotUnsigned s.reader.currentSlot ≠ 0 := by
    rw [hnew]
    decide
  rw [Process.thenSome_assoc, doitConnectCard, Process.bind_thenSome]
  refine ((obeys_ccidReaderSelectSlot 0 h hother).and
    (ccidReaderSelectSlot_other hother)).bind ?_
  intro selected q1 t1 hselected
  cases selected with
  | false => exact obeys_pure (hselected.1.triedAll fun _ _ hbad => by cases hbad)
  | true =>
      rcases hselected with ⟨hat, _, _, _, ⟨_, hcurrent⟩ | ⟨_, hbad, _⟩⟩
      · have hzero : slotUnsigned t1.reader.currentSlot = 0 := by
          rw [hcurrent]
          decide
        rw [if_pos rfl, Process.bind_thenSome]
        refine ((obeys_ccidReaderIdentifyCard hat hzero _).and
          (ccidReaderIdentifyCard_ensures 0 t1)).bind ?_
        intro card q2 t2 hcard
        cases hoptions : card.bind fun card => ifdCardSetOptions card cardopts with
        | none => exact obeys_pure hcard.1.1
        | some written =>
            rcases Option.bind_eq_some_iff.mp hoptions with ⟨found, hfound, hset⟩
            have hslot : written.slot = 0 :=
              (ifdCardSetOptions_slot hset).trans (hcard.2.2 found (by rw [hfound]))
            have hpowered := hcard.1.2 (by rw [hfound]; rfl)
            have hconnect := yubikeyConnect_ensures written t2
            rw [hslot] at hconnect
            refine (obeys_transfers 0 hpowered hconnect ?_).bind ?_
            · intro _ t ht
              rcases ht with ⟨xs, hxs, _⟩
              exact ⟨xs, hxs⟩
            · intro connected q3 t3 hconnected
              cases connected with
              | none =>
                  exact obeys_pure (hconnected.1.triedAll fun _ _ hbad => by cases hbad)
              | some card3 =>
                  rcases hconnected with ⟨hat3, _, _, _, _, hcards⟩
                  exact obeys_doitUse pin ciphertext (hcards card3 rfl).1 _ hat3
      · exact absurd rfl hbad

theorem ccidReaderCreate_seq (s : Host σ) :
    ccidReaderCreate.Ensures s fun outcome t =>
      outcome = .done true -> t.reader.ccidSeq = 0 := by
  rcases selectsOnly_uusbDevSelect s with ⟨ccid, t, hrun, _⟩
  refine Process.ensures_bind_of_run hrun ?_
  have hnone : (pure false : Process (Host σ) Bool).Ensures t fun outcome u =>
      outcome = .done true -> u.reader.ccidSeq = 0 := by
    intro htrue
    cases htrue
  cases ccid with
  | none => exact hnone
  | some ccid =>
      dsimp only
      split
      · exact hnone
      · split
        · exact hnone
        · exact fun _ => rfl

/-- The commands of a run, from the creation of the reader on.  There is one for the
status of the slot; if it shows a card, the card is powered on with one voltage after the
other until it answers; then come the APDUs.  All are for slot 0, and each is numbered
by the commands sent before it.  A run that returns has powered the card, or has tried
all voltages. -/
theorem doit_wire (pin : Option CString) (ciphertext : Buffer) (cardopts : List CString)
    (s : Host σ) :
    (doit pin ciphertext cardopts).Ensures s fun outcome t =>
      exists ok created, ccidReaderCreate s = (.done ok, created) ∧
        exists status power blocks, s.Adds t (status ++ (power ++ blocks)) ∧
          SessionParts 0 (voltagePlan created.reader.autoVoltage
            created.reader.supportedVoltages) status power blocks ∧
          (forall value, outcome = .done value ->
            (exists x, x ∈ status ∧ x.reportsCard = true) ->
            (exists x, x ∈ power ∧ x.answered = true) ∨
              power.map CcidSent.voltage = voltagePlan created.reader.autoVoltage
                created.reader.supportedVoltages) := by
  rcases hcreate : ccidReaderCreate s with ⟨outcome, created⟩
  rcases (ccidReaderCreate_ensures s).apply hcreate with ⟨⟨ok, rfl⟩, hlog, _⟩
  rw [doit_eq, Process.thenSome_assoc, doitConnect, Process.bind_thenSome]
  refine Process.ensures_bind_of_run hcreate ?_
  cases ok with
  | false =>
      refine ⟨false, created, rfl, [], [], [], Host.Adds.nil hlog, ?_, ?_⟩
      · exact ⟨Nat.zero_le 1, fun _ hmem => (List.not_mem_nil hmem).elim,
          fun hbad => absurd rfl hbad, PoweringParts.nothing, fun _ _ hbad => by cases hbad⟩
      · intro _ _ hreports
        rcases hreports with ⟨_, hmem, _⟩
        exact (List.not_mem_nil hmem).elim
  | true =>
      have hnew := (ccidReaderCreate_currentSlot s).apply hcreate rfl
      have hseq := (ccidReaderCreate_seq s).apply hcreate rfl
      have hat : SessionAt created.reader.autoVoltage created.reader.supportedVoltages
          .created ⟨0, .created⟩ created := ⟨by rw [hseq]; rfl, rfl, rfl, rfl⟩
      have hobeys := obeys_doitSession pin ciphertext cardopts hat hnew
      rw [Process.thenSome_assoc] at hobeys
      refine Process.Ensures.mono hobeys ?_
      intro outcome t hends
      rcases hends with ⟨next, ⟨sent, hadds, hrun⟩, htried⟩
      rcases session_created hrun with ⟨status, power, blocks, rfl, hparts, hgave⟩
      refine ⟨true, created, rfl, status, power, blocks, ?_, hparts, ?_⟩
      · exact (Host.Adds.nil hlog).append hadds
      · intro value hdone
        exact hgave (htried value hdone)

end

end UtokenDecrypt
