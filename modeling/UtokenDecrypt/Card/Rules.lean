import UtokenDecrypt.Card.Phases
import UtokenDecrypt.Foundation.Keeps

/-!
# Properties of every part of a run

Most of a run is one command after the other.  What sequencing keeps and what the
exchange of a command has is had by all that the run is made of, whatever the property
is, so that one walk through the source is enough for all such properties.
-/

namespace UtokenDecrypt

open Foundation

section

variable {σ : Type} [Usbfs σ]

/-- A property of processes that sequencing keeps, and that the exchange of a well-formed
command has, as short as the commands of a run are. -/
structure RunRules (P : forall {α : Type}, Process (Host σ) α -> Prop) : Prop where
  pure : forall {α : Type} (value : α), P (pure value : Process (Host σ) α)
  bind : forall {α β : Type} {first : Process (Host σ) α} {next : α -> Process (Host σ) β},
    P first -> (forall value, P (next value)) -> P (first >>= next)
  read : P (Process.read : Process (Host σ) (Host σ))
  reader : forall f : CcidReader -> CcidReader,
    P (Process.update fun s : Host σ => { s with reader := f s.reader })
  create : P (ccidReaderCreate : Process (Host σ) Bool)
  xfer : forall (cmd : CcidCommand) (expected : UInt8), cmd.pkt.Wf ->
    cmd.pkt.contents.length ≤ 270 -> P (ccidXfer cmd expected)

/-- The exchange of a well-formed APDU, however many parts its reply has, has the
property too. -/
structure CardRules (P : forall {α : Type}, Process (Host σ) α -> Prop) : Prop
    extends RunRules P where
  cardXfer : forall (card : IfdCard) {apdu : Buffer}, apdu.Wf ->
    apdu.contents.length ≤ 260 -> P (ifdCardXfer card (some apdu))

variable {P : forall {α : Type}, Process (Host σ) α -> Prop}

/-!
## The reader
-/

namespace RunRules

variable (h : RunRules P)

include h

theorem thenSome {α β : Type} {first : Process (Host σ) (Option α)}
    {next : α -> Process (Host σ) (Option β)} (hfirst : P first)
    (hnext : forall value, P (next value)) : P (first.thenSome next) := by
  refine h.bind hfirst fun got => ?_
  cases got with
  | none => exact h.pure none
  | some value => exact hnext value

/-- A command without a payload. -/
theorem ccidXferBuilt (reader : CcidReader) (slot type : UInt8) (ctl : Option CcidCtl)
    (expected : UInt8) :
    P (ccidXferBuilt (σ := σ) (ccidBuildCommand reader slot type ctl [] 0) expected) := by
  cases hbuild : ccidBuildCommand reader slot type ctl [] 0 with
  | none => exact h.pure none
  | some cmd =>
      rcases ccidBuildCommand_spec hbuild with ⟨_, _, hwf, hcontents⟩
      refine h.xfer cmd expected hwf ?_
      rw [hcontents, ccidPacket_length]
      exact Nat.le_add_right 10 260

theorem ccidReaderApduXfer (slot : Nat) {apdu : Buffer} (hwf : apdu.Wf)
    (hshort : apdu.contents.length ≤ 260) :
    P (ccidReaderApduXfer (σ := σ) slot apdu) := by
  refine h.bind h.read fun s => ?_
  rw [ccidBuildCommand_contents hwf]
  refine h.bind ?_ fun _ => h.pure _
  cases hbuild : ccidBuildCommand s.reader (UInt8.ofNat slot) ccidCmdXfrblock none
    apdu.contents apdu.contents.length with
  | none => exact h.pure none
  | some cmd =>
      rcases ccidBuildCommand_spec hbuild with ⟨_, _, hcmdWf, hcontents⟩
      refine h.xfer cmd ccidRespData hcmdWf ?_
      rw [hcontents, ccidPacket_length]
      exact Nat.add_le_add_left hshort 10

theorem ccidReaderSelectSlot (slot : Nat) : P (ccidReaderSelectSlot (σ := σ) slot) := by
  refine h.bind h.read fun s => ?_
  split
  · exact h.pure true
  · have hstatus : P (ccidGetSlotStatus (σ := σ) slot) :=
      h.bind h.read fun _ => h.bind (h.ccidXferBuilt _ _ _ _ _) fun _ => h.pure _
    refine h.bind hstatus fun status => ?_
    cases status with
    | none => exact h.pure false
    | some status =>
        dsimp only
        split
        · exact h.pure false
        · exact h.bind (h.reader fun reader =>
            { reader with currentSlot := signed32 slot }) fun _ => h.pure true

theorem ccidCardPoweron (slot : Nat) (voltage : UInt8) :
    P (ccidCardPoweron (σ := σ) slot voltage) :=
  h.bind h.read fun _ => h.bind (h.ccidXferBuilt _ _ _ _ _) fun _ => h.pure _

theorem ccidTryVoltages (slot : Nat) (voltages : List Nat) :
    P (ccidTryVoltages (σ := σ) slot voltages) := by
  induction voltages with
  | nil => exact h.pure none
  | cons i rest ih =>
      refine h.bind h.read fun s => ?_
      split
      · refine h.bind (h.ccidCardPoweron slot _) fun atr => ?_
        cases atr with
        | none => exact ih
        | some atr => exact h.pure _
      · exact ih

theorem ccidReaderIdentifyCard (slot : Nat) :
    P (ccidReaderIdentifyCard (σ := σ) slot) := by
  refine h.bind h.read fun s => ?_
  split
  · exact h.pure none
  · have hreset : P (ccidResetCard (σ := σ) slot) := by
      refine h.bind h.read fun s => ?_
      split
      · refine h.bind (h.ccidCardPoweron slot 0) fun atr => ?_
        cases atr with
        | none => exact h.ccidTryVoltages slot [0, 1, 2]
        | some atr => exact h.pure _
      · exact h.ccidTryVoltages slot [0, 1, 2]
    exact h.bind hreset fun _ => h.pure _

/-!
## The card
-/

theorem ifdCardApdu (card : IfdCard) {apdu : Buffer} (hwf : apdu.Wf)
    (hshort : apdu.contents.length ≤ 260) :
    P (ifdCardApdu (σ := σ) card (some apdu)) := by
  refine h.bind (h.ccidReaderApduXfer card.slot hwf hshort) fun rapdu => ?_
  cases rapdu with
  | none => exact h.pure none
  | some rapdu =>
      dsimp only
      split
      · exact h.pure none
      · exact h.pure _

/-- The APDU for the next part can always be built. -/
theorem ifdCardXferLoop (hhang : forall {α : Type}, P (Process.hang : Process (Host σ) α))
    (card : IfdCard) (fuel : Nat) (rapdu : Buffer) (sw : Nat) :
    P (ifdCardXferLoop (σ := σ) card fuel rapdu sw) := by
  induction fuel generalizing rapdu sw with
  | zero => exact hhang
  | succ fuel ih =>
      rw [UtokenDecrypt.ifdCardXferLoop]
      split
      · rcases ifdBuildApdu_none 0 ifdInsGetResponseApdu 0 0
          (Nat.le_of_lt_succ (UInt8.ofNat (sw &&& 0xFF)).toNat_lt) with
          ⟨apdu, hbuild, hwf, hcontents⟩
        have hshort : apdu.contents.length ≤ 260 := by
          rw [hcontents]
          exact Nat.le_add_right 5 255
        dsimp only
        rw [hbuild]
        refine h.bind (h.ifdCardApdu card hwf hshort) fun got => ?_
        cases got with
        | none => exact h.pure none
        | some got =>
            dsimp only
            generalize (if UInt8.ofNat (sw &&& 0xFF) = 0 then 0x100
              else (UInt8.ofNat (sw &&& 0xFF)).toNat) = len
            split
            · exact h.pure none
            · split
              · exact h.pure none
              · exact ih _ _
      · exact h.pure _

/-- A property that a process without an end has, too. -/
theorem cardRules (hhang : forall {α : Type}, P (Process.hang : Process (Host σ) α)) :
    CardRules P where
  toRunRules := h
  cardXfer := by
    intro card apdu hwf hshort
    refine h.bind (h.ifdCardApdu card hwf hshort) fun got => ?_
    cases got with
    | none => exact h.pure none
    | some got => exact h.ifdCardXferLoop hhang card _ _ _

end RunRules

/-!
## The YubiKey
-/

namespace CardRules

variable (h : CardRules P)

include h

theorem yubikeyVerify (card : IfdCard) (pin : Option CString) :
    P (yubikeyVerify (σ := σ) card pin) := by
  rw [UtokenDecrypt.yubikeyVerify]
  split
  · exact h.pure _
  · rename_i hshort
    rcases yubikeyVerifyApdu_eq (Nat.not_lt.mp hshort) with ⟨apdu, hbuild, hwf, _, hlength⟩
    rw [hbuild]
    refine h.bind (h.cardXfer card hwf hlength) fun got => ?_
    cases got with
    | none => exact h.pure _
    | some result =>
        dsimp only
        split
        · exact h.pure _
        · exact h.pure _

theorem yubikeyConnect (card : IfdCard) : P (yubikeyConnect (σ := σ) card) := by
  have hselect : P (yubikeySelectApplication (σ := σ) card pivAid) := by
    rcases ifdBuildApdu_some 0x00 ykpivInsSelectApplication 0x04 0x00
      (by decide : pivAid.length ≤ 0xFF) (Nat.le_refl pivAid.length) with
      ⟨apdu, hbuild, hwf, hcontents⟩
    have hlength : apdu.contents.length ≤ 260 := by
      rw [hcontents]
      decide
    rw [yubikeySelectApplication, hbuild]
    refine h.bind (h.cardXfer card hwf hlength) fun got => ?_
    cases got with
    | none => exact h.pure false
    | some result => exact h.pure _
  refine h.bind hselect fun selected => ?_
  cases selected with
  | false => exact h.pure none
  | true => exact h.bind (h.yubikeyVerify _ none) fun _ => h.pure _

theorem doitConnect (cardopts : List CString) : P (doitConnect (σ := σ) cardopts) := by
  refine h.bind h.create fun created => ?_
  cases created with
  | false => exact h.pure none
  | true =>
      refine h.bind (h.ccidReaderSelectSlot 0) fun selected => ?_
      cases selected with
      | false => exact h.pure none
      | true =>
          refine h.bind (h.ccidReaderIdentifyCard 0) fun card => ?_
          cases card.bind fun card => ifdCardSetOptions card cardopts with
          | none => exact h.pure none
          | some card => exact h.yubikeyConnect card

/-- All that a run does in front of the deciphering. -/
theorem verified (pin : Option CString) (cardopts : List CString) :
    P ((UtokenDecrypt.doitConnect (σ := σ) cardopts).thenSome (doitVerify pin)) := by
  refine h.thenSome (h.doitConnect cardopts) fun card => ?_
  cases pin with
  | none => exact h.pure _
  | some pin => exact h.bind (h.yubikeyVerify card (some pin)) fun _ => h.pure _

theorem yubikeyDecipherChunks
    (hhang : forall {α : Type}, P (Process.hang : Process (Host σ) α)) (card : IfdCard)
    (algorithm : UInt8) (fuel : Nat) {data : Buffer} (hwf : data.Wf)
    (rapdu : Option Buffer) :
    P (yubikeyDecipherChunks (σ := σ) card algorithm fuel data rapdu) := by
  induction fuel generalizing data rapdu with
  | zero => exact hhang
  | succ fuel ih =>
      rw [UtokenDecrypt.yubikeyDecipherChunks]
      split
      · exact h.pure _
      · have hfits : min (bufferAvailable data) 0xFF ≤ data.contents.length := by
          rw [bufferAvailable_eq hwf]
          exact Nat.min_le_left _ _
        rcases ifdBuildApdu_some (if bufferAvailable data > 0xFF then 0x10 else 0x00)
          ykpivInsAuthenticate algorithm card.keySlot (Nat.min_le_right _ 0xFF)
          (Nat.le_trans hfits (contents_length_le hwf)) with
          ⟨apdu, hbuild, happdu, hcontents⟩
        have hlength : apdu.contents.length ≤ 260 := by
          rw [hcontents, apduBytes_length]
          exact Nat.add_le_add_left (Nat.le_trans (List.length_take_le _ _)
            (Nat.min_le_right _ 0xFF)) 5
        dsimp only
        rw [hbuild]
        refine h.bind (h.cardXfer card happdu hlength) fun got => ?_
        cases got with
        | none => exact h.pure none
        | some got =>
            dsimp only
            split
            · rw [bufferSkip_eq_some hwf hfits, Option.getD_some]
              exact ih (bufferSkip_wf hwf hfits) _
            · exact h.pure none

/-- The arguments can always be built, and there is something to send. -/
theorem yubikeyReply (card : IfdCard) {ciphertext : Buffer}
    (hdump : P (whenDebug2 (σ := σ)
      (dump (bufferReadPointer ciphertext) (bufferAvailable ciphertext))))
    (hchunks : forall algorithm {data : Buffer}, data.Wf -> bufferAvailable data ≠ 0 ->
      P (UtokenDecrypt.yubikeyDecipherChunks (σ := σ) card algorithm
        (bufferAvailable data + 1) data none >>= fun sent =>
          sent.elim (pure none) fun rapdu =>
            rapdu.elim Process.crash fun rapdu => pure (some rapdu))) :
    P (UtokenDecrypt.yubikeyReply (σ := σ) card ciphertext) := by
  refine h.bind hdump fun _ => ?_
  cases halgorithm : yubikeyAlgorithm (bufferAvailable ciphertext) with
  | none => exact h.pure none
  | some algorithm =>
      rcases yubikeyEncodeDecipherArgs_eq
          (Nat.le_trans (yubikeyAlgorithm_length halgorithm) (by decide)) with
        ⟨data, hdata, hwf, hcontents⟩
      have hsome : bufferAvailable data ≠ 0 := by
        rw [bufferAvailable_eq hwf, hcontents]
        exact Nat.succ_ne_zero _
      rw [hdata]
      exact hchunks algorithm hwf hsome

end CardRules

/-!
## Relations
-/

/-- A relation that each exchange with the reader keeps, and all else that changes the
state up to the reply to the last command. -/
structure RunRelation (ciphertext : Buffer) (R : Host σ -> Host σ -> Prop) : Prop where
  closed : Process.Closed R
  select : forall {s t}, s.SameButUsb t -> R s t
  reader : forall s reader, R s { s with reader := reader }
  xfer : forall cmd expected, cmd.pkt.Wf -> Process.Keeps R (ccidXfer cmd expected)
  ciphertext : Process.Keeps R
    (whenDebug2 (dump (bufferReadPointer ciphertext) (bufferAvailable ciphertext)))

variable {ciphertext : Buffer} {R : Host σ -> Host σ -> Prop}

namespace RunRelation

open Process

variable (h : RunRelation ciphertext R)

include h

theorem ccidReaderCreate : Keeps R (ccidReaderCreate (σ := σ)) := by
  have hselect : Keeps R (uusbDevSelectCcidInterface (σ := σ)) := by
    intro s
    rcases selectsOnly_uusbDevSelect s with ⟨ccid, t, hrun, hsame⟩
    rw [hrun]
    exact h.select hsame
  refine Keeps.bind h.closed hselect fun ccid => ?_
  cases ccid with
  | none => exact .pure h.closed false
  | some ccid =>
      dsimp only
      split
      · exact .pure h.closed false
      · split
        · exact .pure h.closed false
        · exact .bind h.closed (.update fun s => h.reader s _) fun _ => .pure h.closed true

theorem rules : RunRules (σ := σ) (Keeps R) where
  pure := Keeps.pure h.closed
  bind := Keeps.bind h.closed
  read := Keeps.read h.closed
  reader := fun f => Keeps.update fun s => h.reader s (f s.reader)
  create := h.ccidReaderCreate
  xfer := fun cmd expected hwf _ => h.xfer cmd expected hwf

theorem cardRules : CardRules (σ := σ) (Keeps R) :=
  h.rules.cardRules (Keeps.hang h.closed)

theorem yubikeyReply (card : IfdCard) : Keeps R (yubikeyReply (σ := σ) card ciphertext) := by
  refine h.cardRules.yubikeyReply card h.ciphertext fun algorithm data hwf _ => ?_
  refine .bind h.closed (h.cardRules.yubikeyDecipherChunks (Keeps.hang h.closed) card
    algorithm _ hwf none) fun sent => ?_
  cases sent with
  | none => exact .pure h.closed none
  | some rapdu =>
      cases rapdu with
      | none => exact .crash h.closed
      | some rapdu => exact .pure h.closed _

/-- The relation holds across everything up to the reply. -/
theorem doitReply (pin : Option CString) (cardopts : List CString) :
    Keeps R (doitReply (σ := σ) pin ciphertext cardopts) :=
  h.rules.thenSome (h.cardRules.verified pin cardopts) fun card => h.yubikeyReply card

end RunRelation

end

end UtokenDecrypt
