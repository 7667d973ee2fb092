import Mathlib.Algebra.Order.Group.Multiset
import Mathlib.Tactic.Abel
import UtokenDecrypt.Alloc.Blocks
import UtokenDecrypt.Usb.Script

/-!
# The exchanges, block by block

The functions of `reader.c` on blocks refine the ones on values.  Up to
`ccid_reader_apdu_xfer` nothing is lost: what a function allocates it frees, but
for the packet it returns, and what it is given is there afterwards.
-/

namespace UtokenDecrypt
namespace Alloc

open Foundation

/-!
## The blocks of a value
-/

/-- A command is two blocks. -/
def commandCells (cmd pkt : Nat) (c : CcidCommand) : Owned Block :=
  (cmd, .command { slot := c.slot, seq := c.seq, pkt := some pkt }) ::ₘ
    {(pkt, .buffer c.pkt)}

/-- The structure of a response with its payload in a buffer. -/
def responseBlock (pkt : Nat) (r : CcidResponse) : ResponseBlock where
  type := r.type
  slot := r.slot
  seq := r.seq
  ctl := r.ctl
  payload := some pkt

def responseCells (resp pkt : Nat) (r : CcidResponse) : Owned Block :=
  (resp, .response (responseBlock pkt r)) ::ₘ {(pkt, .buffer r.payload)}

section

variable {σ α γ ω : Type} {pre others : Owned Block}

/-!
## Buffers
-/

theorem refines_putting (bp : Nat) (b : Buffer) (op : Buffer -> Option Buffer)
    (others : Owned Block) :
    Refines ((bp, .buffer b) ::ₘ others) (putting (σ := σ) bp op) (pure (op b))
      (Both (fun _ last got => got = (bp, .buffer last) ::ₘ others)
        (fun got => got = (bp, .buffer b) ::ₘ others)) := by
  refine Refines.loadAs_bind (Multiset.mem_cons_self _ _) rfl ?_
  cases op b with
  | none => exact refines_pure rfl
  | some last => exact Refines.store_bind (refines_pure rfl)

theorem refines_getting (bp : Nat) (b : Buffer) (op : Buffer -> Option (ω × Buffer))
    (others : Owned Block) :
    Refines ((bp, .buffer b) ::ₘ others) (getting (σ := σ) bp op) (pure (op b))
      (Both (fun x y got => x = y.1 ∧ got = (bp, .buffer y.2) ::ₘ others)
        (fun got => got = (bp, .buffer b) ::ₘ others)) := by
  refine Refines.loadAs_bind (Multiset.mem_cons_self _ _) rfl ?_
  cases op b with
  | none => exact refines_pure rfl
  | some last => exact Refines.store_bind (refines_pure ⟨rfl, rfl⟩)

/-- A buffer that is filled, or left partly filled. -/
theorem refines_putLast {bp : Nat} {b : Buffer} {op : Buffer -> Option Buffer} :
    Refines ((bp, .buffer b) ::ₘ others) (putting (σ := σ) bp op) (pure (op b))
      (Both (fun _ last got => got = (bp, .buffer last) ::ₘ others)
        (fun got => exists last, got = (bp, .buffer last) ::ₘ others)) := by
  refine (refines_putting bp b op others).mono fun x y got hboth => ?_
  exact hboth.mono (fun _ _ hgot => hgot) fun hgot => ⟨b, hgot⟩

/-- Some writes into a buffer, one after the other; the ones in front of one that
fails are not undone. -/
theorem refines_putThen {bp : Nat} {b : Buffer} {op next : Buffer -> Option Buffer}
    {low : Prog σ (Option Unit)}
    (h : forall last, Refines ((bp, .buffer last) ::ₘ others) low (pure (next last))
      (Both (fun _ last got => got = (bp, .buffer last) ::ₘ others)
        (fun got => exists last, got = (bp, .buffer last) ::ₘ others))) :
    Refines ((bp, .buffer b) ::ₘ others) ((putting bp op).thenSome fun _ => low)
      (pure ((op b).bind next))
      (Both (fun _ last got => got = (bp, .buffer last) ::ₘ others)
        (fun got => exists last, got = (bp, .buffer last) ::ₘ others)) := by
  rw [← Process.thenSome_pure]
  refine (refines_putting bp b op others).thenSome ?_ fun got hgot => ⟨b, hgot⟩
  rintro _ last _ rfl
  exact h last

/-- What is done under `if (opt_debug > 1)`. -/
theorem refines_whenDebug2 {low : Prog σ Unit} {high : Process (Host σ) Unit}
    (h : Refines pre low high fun _ _ got => got = pre) :
    Refines pre (whenDebug2 low) (UtokenDecrypt.whenDebug2 high) fun _ _ got =>
      got = pre := by
  intro m rest hlive
  unfold whenDebug2 UtokenDecrypt.whenDebug2
  split
  · exact h m rest hlive
  · exact Matches.done rfl hlive rfl

/-!
## Commands
-/

theorem triple_ccidCommandFree (cmd pkt : Nat) (c : CcidCommand) (others : Owned Block) :
    Triple (commandCells cmd pkt c + others) (ccidCommandFree (σ := σ) cmd)
      fun _ got => got = others := by
  have hcells : commandCells cmd pkt c + others =
      (pkt, .buffer c.pkt) ::ₘ
        (cmd, .command { slot := c.slot, seq := c.seq, pkt := some pkt }) ::ₘ others := by
    simp only [commandCells, Multiset.cons_add, Multiset.singleton_add]
    exact Multiset.cons_swap _ _ _
  rw [hcells]
  refine Triple.loadAs_bind (Multiset.mem_cons_of_mem (Multiset.mem_cons_self _ _)) rfl ?_
  exact Triple.free_bind (triple_free _ _ _)

/-- The writes of `ccid_build_command`, on a buffer as a value. -/
def ccidFilled (seq slot cmd : UInt8) (ctlData : Option CcidCtl) (payload : List UInt8)
    (payloadLen : Nat) (bp : Buffer) : Option Buffer :=
  (bufferPutU8 bp cmd).bind fun bp =>
  (bufferPutU32le bp payloadLen).bind fun bp =>
  (bufferPutU8 bp slot).bind fun bp =>
  (bufferPutU8 bp seq).bind fun bp =>
  (bufferPut bp (ctlData.getD {}).bytes).bind fun bp =>
  ccidPutPayload bp payload payloadLen

theorem ccidBuildCommand_eq_map (reader : CcidReader) (slot cmd : UInt8)
    (ctlData : Option CcidCtl) (payload : List UInt8) (payloadLen : Nat) :
    UtokenDecrypt.ccidBuildCommand reader slot cmd ctlData payload payloadLen =
      (ccidFilled (UInt8.ofNat reader.ccidSeq) slot cmd ctlData payload payloadLen
        (UtokenDecrypt.bufferAllocWrite (wrap32 (16 + payloadLen)))).map
          (UtokenDecrypt.ccidCommandCreate (UInt8.ofNat reader.ccidSeq) slot) := by
  simp only [UtokenDecrypt.ccidBuildCommand, ccidFilled, Option.bind_eq_bind,
    Option.map_eq_bind, Function.comp_def, Option.bind_assoc]

theorem refines_ccidFillCommand (bp : Nat) (seq slot cmd : UInt8)
    (ctlData : Option CcidCtl) (payload : List UInt8) (payloadLen : Nat) (b : Buffer) :
    Refines ((bp, .buffer b) ::ₘ others)
      (ccidFillCommand (σ := σ) bp seq slot cmd ctlData payload payloadLen)
      (pure (ccidFilled seq slot cmd ctlData payload payloadLen b))
      (Both (fun _ last got => got = (bp, .buffer last) ::ₘ others)
        (fun got => exists last, got = (bp, .buffer last) ::ₘ others)) :=
  refines_putThen fun _ => refines_putThen fun _ => refines_putThen fun _ =>
    refines_putThen fun _ => refines_putThen fun _ => refines_putLast

/-- A command is built in a fresh buffer, or nothing is left. -/
theorem refines_ccidBuildCommand {reader : Nat} (slot cmd : UInt8)
    (ctlData : Option CcidCtl) (payload : List UInt8) (payloadLen : Nat)
    (hreader : (reader, Block.reader) ∈ pre) :
    Refines pre (ccidBuildCommand (σ := σ) reader slot cmd ctlData payload payloadLen)
      (Process.read >>= fun s => pure
        (UtokenDecrypt.ccidBuildCommand s.reader slot cmd ctlData payload payloadLen))
      (Both (fun addr c got => exists pkt, got = commandCells addr pkt c + pre)
        (fun got => got = pre)) := by
  refine Refines.loadAs_bind hreader rfl (Refines.onHost_bind fun s => ?_)
  refine Refines.malloc_bind fun bp => ?_
  rw [ccidBuildCommand_eq_map]
  refine (refines_ccidFillCommand bp _ slot cmd ctlData payload payloadLen _).bindBoth_value
    ?_ ?_
  · rintro _ last _ hlast rfl
    rw [hlast]
    refine Refines.malloc_bind fun addr => refines_pure ⟨bp, ?_⟩
    rw [commandCells, Multiset.cons_add, Multiset.singleton_add]
    rfl
  · rintro _ hnone ⟨last, rfl⟩
    rw [hnone]
    exact Refines.free_bind (refines_pure rfl)

/-!
## Responses
-/

/-- A read from a buffer, and what is done with it. -/
theorem refines_getThen {bp : Nat} {b : Buffer} {op : Buffer -> Option (ω × Buffer)}
    {low : ω -> Prog σ (Option α)} {next : ω × Buffer -> Option γ}
    {some_ : α -> γ -> Owned Block -> Prop}
    (h : forall value last, Refines ((bp, .buffer last) ::ₘ others) (low value)
      (pure (next (value, last)))
      (Both some_ (fun got => exists last, got = (bp, .buffer last) ::ₘ others))) :
    Refines ((bp, .buffer b) ::ₘ others) ((getting bp op).thenSome low)
      (pure ((op b).bind next))
      (Both some_ (fun got => exists last, got = (bp, .buffer last) ::ₘ others)) := by
  rw [← Process.thenSome_pure]
  refine (refines_getting bp b op others).thenSome ?_ fun got hgot => ⟨b, hgot⟩
  rintro value ⟨_, last⟩ _ ⟨rfl, rfl⟩
  exact h value last

/-- The fields of a response, read from a packet. -/
theorem refines_ccidResponseRead (pkt : Nat) (b : Buffer)
    (hlen : ¬ bufferAvailable b < 10) :
    Refines ((pkt, .buffer b) ::ₘ others) (ccidResponseRead (σ := σ) pkt)
      (pure (UtokenDecrypt.ccidResponseCreate b))
      (Both (fun x r got => { x with payload := some pkt } = responseBlock pkt r ∧
          got = (pkt, .buffer r.payload) ::ₘ others)
        (fun got => exists last, got = (pkt, .buffer last) ::ₘ others)) := by
  rw [UtokenDecrypt.ccidResponseCreate, if_neg hlen]
  refine refines_getThen fun type _ => refines_getThen fun payloadLen _ =>
    refines_getThen fun slot _ => refines_getThen fun seq _ =>
    refines_getThen fun ctl _ => ?_
  rw [Option.bind_eq_bind, ← Process.thenSome_pure]
  refine (refines_putting pkt _ _ others).thenSome ?_ fun got hgot => ⟨_, hgot⟩
  rintro _ last _ rfl
  exact refines_pure ⟨rfl, rfl⟩

/-- A response is made around its packet, or the packet is left alone. -/
theorem refines_ccidResponseCreate (pkt : Nat) (b : Buffer) :
    Refines ((pkt, .buffer b) ::ₘ others) (ccidResponseCreate (σ := σ) pkt)
      (pure (UtokenDecrypt.ccidResponseCreate b))
      (Both (fun resp r got => got = responseCells resp pkt r + others)
        (fun got => exists last, got = (pkt, .buffer last) ::ₘ others)) := by
  refine Refines.loadAs_bind (Multiset.mem_cons_self _ _) rfl ?_
  by_cases hlen : bufferAvailable b < 10
  · rw [if_pos hlen, UtokenDecrypt.ccidResponseCreate, if_pos hlen]
    exact refines_pure ⟨b, rfl⟩
  · rw [if_neg hlen]
    refine Refines.malloc_bind fun resp => ?_
    rw [Multiset.cons_swap]
    refine (refines_ccidResponseRead pkt b hlen).bindBoth_value ?_ ?_
    · rintro block r _ hr ⟨hblock, rfl⟩
      rw [hr, Multiset.cons_swap]
      refine Refines.store_bind (refines_pure ?_)
      change _ = responseCells resp pkt r + others
      rw [hblock, responseCells, Multiset.cons_add, Multiset.singleton_add]
    · rintro _ hnone ⟨last, rfl⟩
      rw [hnone, Multiset.cons_swap]
      exact Refines.free_bind (refines_pure ⟨last, rfl⟩)

/-- The blocks of a response, if there is one: with its payload, or with that taken
out. -/
inductive Remains : Option Nat -> Owned Block -> Prop where
  | absent : Remains none 0
  | whole (resp pkt : Nat) (r : CcidResponse) :
      Remains (some resp) (responseCells resp pkt r)
  | taken (resp : Nat) (block : ResponseBlock) (hpkt : block.pkt = none)
      (hpayload : block.payload = none) : Remains (some resp) {(resp, .response block)}

/-- `if (resp) ccid_response_free(resp);` -/
theorem triple_ccidResponseFree {resp : Option Nat} {left : Owned Block}
    (h : Remains resp left) (others : Owned Block) :
    Triple (left + others)
      (resp.elim (pure ()) fun resp => ccidResponseFree (σ := σ) (some resp))
      fun _ got => got = others := by
  cases h with
  | absent => exact triple_pure (Multiset.zero_add others)
  | whole resp pkt r =>
      have hcells : responseCells resp pkt r + others =
          (pkt, .buffer r.payload) ::ₘ
            (resp, .response (responseBlock pkt r)) ::ₘ others := by
        rw [responseCells, Multiset.cons_add, Multiset.singleton_add]
        exact Multiset.cons_swap _ _ _
      rw [hcells]
      refine Triple.loadAs_bind (Multiset.mem_cons_of_mem (Multiset.mem_cons_self _ _)) rfl ?_
      exact Triple.free_bind (triple_free _ _ _)
  | taken resp block hpkt hpayload =>
      rw [Multiset.singleton_add]
      refine Triple.loadAs_bind (Multiset.mem_cons_self _ _) rfl ?_
      rw [hpkt, hpayload]
      exact triple_free _ _ _

/-!
## Receiving
-/

variable [Usbfs σ]

theorem uusbRecv_eq (maxlen : Nat) :
    UtokenDecrypt.uusbRecv (σ := σ) maxlen =
      uusbRecvBytes maxlen >>= fun got => pure (got.map (uusbRecvFilled maxlen)) := rfl

theorem refines_uusbRecv (maxlen : Nat) :
    Refines pre (uusbRecv (σ := σ) maxlen) (UtokenDecrypt.uusbRecv maxlen)
      (Both (fun pkt bp got => got = (pkt, .buffer bp) ::ₘ pre) (fun got => got = pre)) := by
  refine Refines.malloc_bind fun pkt => ?_
  refine Refines.loadAs_bind (Multiset.mem_cons_self _ _) rfl ?_
  refine Refines.store_bind ?_
  rw [uusbRecv_eq]
  refine Refines.onHost_bind fun got => ?_
  cases got with
  | none => exact Refines.free_bind (refines_pure rfl)
  | some bytes =>
      refine Refines.loadAs_bind (Multiset.mem_cons_self _ _) rfl ?_
      exact Refines.store_bind (refines_pure rfl)

/-!
## Exchanging
-/

/-- What an exchange makes of the heap: there is a response, or nothing new. -/
def Answered (pre : Owned Block) : Option Nat -> Option CcidResponse -> Owned Block -> Prop :=
  Both (fun resp r got => exists pkt, got = responseCells resp pkt r + pre)
    (fun got => got = pre)

omit [Usbfs σ] in
theorem refines_ccidXferAnswer {cmd pkt rbuf : Nat} (c : CcidCommand) (expected : UInt8)
    (b : Buffer) {again : Prog σ (Option Nat)}
    {highAgain : Process (Host σ) (Option CcidResponse)}
    (hcmd : (cmd, .command { slot := c.slot, seq := c.seq, pkt := some pkt }) ∈ pre)
    (hagain : Refines pre again highAgain (Answered pre)) :
    Refines ((rbuf, .buffer b) ::ₘ pre) (ccidXferAnswer cmd expected rbuf again)
      (UtokenDecrypt.ccidXferAnswer c expected b highAgain) (Answered pre) := by
  refine (refines_ccidResponseCreate rbuf b).bindBoth_value ?_ ?_
  · rintro resp r _ hr rfl
    rw [UtokenDecrypt.ccidXferAnswer, hr]
    have hfree := triple_ccidResponseFree (σ := σ) (Remains.whole resp rbuf r) pre
    refine Refines.loadAs_bind (Multiset.mem_add.mpr (Or.inl (Multiset.mem_cons_self _ _)))
      rfl ?_
    refine Refines.loadAs_bind (Multiset.mem_add.mpr (Or.inr hcmd)) rfl ?_
    -- the response is freed on every way on but the one that returns it
    have hagain : Refines (responseCells resp rbuf r + pre)
        (ccidResponseFree (some resp) >>= fun _ => again) highAgain (Answered pre) :=
      Refines.step hfree fun _ _ hown => hown ▸ hagain
    have hdrop : Refines (responseCells resp rbuf r + pre)
        (ccidResponseFree (some resp) >>= fun _ => pure none) (pure none) (Answered pre) :=
      Refines.step hfree fun _ _ hown => hown ▸ refines_pure rfl
    refine Refines.ite (fun _ => ?_) fun _ => hagain
    refine Refines.ite (fun _ => hdrop) fun _ => ?_
    refine Refines.ite (fun _ => refines_pure ⟨rbuf, rfl⟩) fun _ => ?_
    exact Refines.ite (fun _ => hagain) fun _ => hdrop
  · rintro _ hnone ⟨last, rfl⟩
    rw [UtokenDecrypt.ccidXferAnswer, hnone]
    refine Refines.free_bind ?_
    exact refines_crash

theorem refines_ccidXferLoop {reader cmd pkt : Nat} (c : CcidCommand) (expected : UInt8)
    (retries : Nat) (hreader : (reader, Block.reader) ∈ pre)
    (hcmd : (cmd, .command { slot := c.slot, seq := c.seq, pkt := some pkt }) ∈ pre) :
    Refines pre (ccidXferLoop (σ := σ) reader cmd expected retries)
      (UtokenDecrypt.ccidXferLoop c expected retries) (Answered pre) := by
  induction retries with
  | zero => exact refines_pure rfl
  | succ retries ih =>
      refine Refines.loadAs_bind hreader rfl (Refines.onHost_bind fun s => ?_)
      refine (refines_uusbRecv s.reader.maxMessageSize).bindBoth ?_ ?_
      · rintro rbuf b _ rfl
        refine (refines_whenDebug2 ?_).bind fun _ _ got hgot => ?_
        · refine Refines.loadAs_bind (Multiset.mem_cons_self _ _) rfl ?_
          exact (refines_onHost _).mono fun _ _ _ hsame => hsame.2
        · rw [hgot]
          exact refines_ccidXferAnswer c expected b hcmd ih
      · rintro _ rfl
        exact refines_pure rfl

theorem refines_ccidXfer {reader cmd pkt : Nat} (c : CcidCommand) (expected : UInt8)
    (hreader : (reader, Block.reader) ∈ pre)
    (hcmd : (cmd, .command { slot := c.slot, seq := c.seq, pkt := some pkt }) ∈ pre)
    (hpkt : (pkt, .buffer c.pkt) ∈ pre) :
    Refines pre (ccidXfer (σ := σ) reader cmd expected)
      (UtokenDecrypt.ccidXfer c expected) (Answered pre) := by
  refine Refines.loadAs_bind hcmd rfl ?_
  refine (refines_whenDebug2 ?_).bind fun _ _ got hgot => ?_
  · refine Refines.loadAs_bind hpkt rfl ?_
    exact (refines_onHost _).mono fun _ _ _ hsame => hsame.2
  · rw [hgot]
    refine Refines.loadAs_bind hreader rfl ?_
    refine Refines.loadAs_bind hpkt rfl (Refines.onHost_bind fun rv => ?_)
    refine Refines.ite (fun _ => ?_) fun _ => refines_pure rfl
    refine Refines.loadAs_bind hreader rfl (Refines.onHost_bind fun _ => ?_)
    exact refines_ccidXferLoop c expected 6 hreader hcmd

/-!
## Commands and their responses
-/

omit [Usbfs σ] in
theorem triple_ccidFreeBoth {cmd pkt : Nat} {c : CcidCommand} {resp : Option Nat}
    {left : Owned Block} (h : Remains resp left) (others : Owned Block) :
    Triple (commandCells cmd pkt c + (left + others))
      (ccidFreeBoth (σ := σ) (some cmd) resp) fun _ got => got = others :=
  (triple_ccidCommandFree cmd pkt c _).bind fun _ _ hown =>
    hown ▸ triple_ccidResponseFree h others

/-- A command that is sent, and its response, are gone afterwards; what is taken out
of the response is kept. -/
theorem refines_ccidXferBuilt {reader : Nat} (expected : UInt8)
    {build : Prog σ (Option Nat)} {highBuild : Process (Host σ) (Option CcidCommand)}
    {look : Nat -> Prog σ (Option ω)} {f : CcidResponse -> γ}
    (kept : ω -> γ -> Owned Block -> Prop) (hreader : (reader, Block.reader) ∈ pre)
    (hbuild : Refines pre build highBuild
      (Both (fun cmd c got => exists pkt, got = commandCells cmd pkt c + pre)
        (fun got => got = pre)))
    (hlook : forall resp pkt r others, Triple (responseCells resp pkt r + others) (look resp)
      fun x got => exists value left own, x = some value ∧ got = left + (own + others) ∧
        Remains (some resp) left ∧ kept value (f r) own) :
    Refines pre (ccidXferBuilt reader expected build look)
      (highBuild >>= fun cmd => UtokenDecrypt.ccidXferBuilt cmd expected >>= fun resp =>
        pure (resp.map f))
      (Both (fun x y got => exists own, got = own + pre ∧ kept x y own)
        (fun got => got = pre)) := by
  refine hbuild.bindBoth ?_ ?_
  · rintro cmd c _ ⟨pkt, rfl⟩
    have hxfer : Refines (commandCells cmd pkt c + pre) (ccidXfer (σ := σ) reader cmd expected)
        (UtokenDecrypt.ccidXfer c expected) (Answered (commandCells cmd pkt c + pre)) :=
      refines_ccidXfer c expected (Multiset.mem_add.mpr (Or.inr hreader))
        (Multiset.mem_add.mpr (Or.inl (Multiset.mem_cons_self _ _)))
        (Multiset.mem_add.mpr (Or.inl
          (Multiset.mem_cons_of_mem (Multiset.mem_singleton_self _))))
    refine hxfer.bindBoth ?_ ?_
    · rintro resp r _ ⟨rbuf, rfl⟩
      refine Refines.step (hlook resp rbuf r _) ?_
      rintro _ _ ⟨value, left, own, rfl, rfl, hleft, hkept⟩
      have hcells : left + (own + (commandCells cmd pkt c + pre)) =
          commandCells cmd pkt c + (left + (own + pre)) := by
        abel
      rw [hcells]
      refine Refines.step (triple_ccidFreeBoth hleft (own + pre)) ?_
      rintro _ _ rfl
      exact refines_pure ⟨own, rfl, hkept⟩
    · rintro _ rfl
      have hfree : Triple (commandCells cmd pkt c + (0 + pre))
          (ccidFreeBoth (σ := σ) (some cmd) none) fun _ got => got = pre :=
        triple_ccidFreeBoth Remains.absent pre
      rw [Multiset.zero_add] at hfree
      change Refines _ (ccidFreeBoth (some cmd) none >>= fun _ => pure (none : Option ω)) _ _
      refine Refines.step hfree ?_
      rintro _ _ rfl
      exact refines_pure rfl
  · rintro _ rfl
    exact refines_pure rfl

/-!
## The reader
-/

/-- Nothing is taken out of a response that is only looked at. -/
theorem refines_ccidXferLook {reader : Nat} (expected slot cmd : UInt8)
    (ctlData : Option CcidCtl) {look : Nat -> Prog σ (Option ω)} {f : CcidResponse -> ω}
    (hreader : (reader, Block.reader) ∈ pre)
    (hlook : forall resp pkt r others, Triple (responseCells resp pkt r + others) (look resp)
      fun x got => x = some (f r) ∧ got = responseCells resp pkt r + others) :
    Refines pre
      (ccidXferBuilt reader expected (ccidBuildCommand reader slot cmd ctlData [] 0) look)
      (do
        let s ← Process.read
        let resp ← UtokenDecrypt.ccidXferBuilt
          (UtokenDecrypt.ccidBuildCommand s.reader slot cmd ctlData [] 0) expected
        pure (resp.map f))
      (fun x y got => x = y ∧ got = pre) := by
  have hbuilt := refines_ccidXferBuilt (f := f) expected (fun x y own => x = y ∧ own = 0)
    hreader (refines_ccidBuildCommand slot cmd ctlData [] 0 hreader)
    fun resp pkt r others => (hlook resp pkt r others).mono fun x got hgot =>
      ⟨f r, _, 0, hgot.1, by rw [hgot.2, Multiset.zero_add], Remains.whole resp pkt r, rfl, rfl⟩
  refine hbuilt.mono fun x y got hboth => ?_
  cases x with
  | none =>
      cases y with
      | none => exact ⟨rfl, hboth⟩
      | some y => cases hboth
  | some x =>
      cases y with
      | none => cases hboth
      | some y =>
          rcases hboth with ⟨own, hgot, hx, hown⟩
          exact ⟨congrArg some hx, by rw [hgot, hown, Multiset.zero_add]⟩

theorem refines_ccidGetSlotStatus {reader : Nat} (slot : Nat)
    (hreader : (reader, Block.reader) ∈ pre) :
    Refines pre (ccidGetSlotStatus (σ := σ) reader slot)
      (UtokenDecrypt.ccidGetSlotStatus slot) fun x y got => x = y ∧ got = pre := by
  refine refines_ccidXferLook ccidRespSlotstat _ ccidCmdGetslotstat none hreader ?_
  intro resp pkt r others
  refine Triple.loadAs_bind (Multiset.mem_add.mpr (Or.inl (Multiset.mem_cons_self _ _))) rfl ?_
  exact triple_pure ⟨rfl, rfl⟩

theorem refines_ccidCardPoweron {reader : Nat} (slot : Nat) (voltage : UInt8)
    (hreader : (reader, Block.reader) ∈ pre) :
    Refines pre (ccidCardPoweron (σ := σ) reader slot voltage)
      (UtokenDecrypt.ccidCardPoweron slot voltage) fun x y got => x = y ∧ got = pre := by
  refine refines_ccidXferLook ccidRespData _ ccidCmdIccpoweron _ hreader ?_
  intro resp pkt r others
  refine Triple.loadAs_bind (Multiset.mem_add.mpr (Or.inl (Multiset.mem_cons_self _ _))) rfl ?_
  refine Triple.loadAs_bind (Multiset.mem_add.mpr (Or.inl
    (Multiset.mem_cons_of_mem (Multiset.mem_singleton_self _)))) rfl ?_
  exact triple_pure ⟨rfl, rfl⟩

theorem refines_ccidTryVoltages {reader : Nat} (slot : Nat) (voltages : List Nat)
    (hreader : (reader, Block.reader) ∈ pre) :
    Refines pre (ccidTryVoltages (σ := σ) reader slot voltages)
      (UtokenDecrypt.ccidTryVoltages slot voltages) fun x y got => x = y ∧ got = pre := by
  induction voltages with
  | nil => exact refines_pure ⟨rfl, rfl⟩
  | cons i rest ih =>
      refine Refines.loadAs_bind hreader rfl (Refines.onHost_bind fun s => ?_)
      refine Refines.ite (fun _ => ?_) fun _ => ih
      refine Refines.bindSame (refines_ccidCardPoweron slot _ hreader) fun atr => ?_
      cases atr with
      | none => exact ih
      | some atr => exact refines_pure ⟨rfl, rfl⟩

theorem refines_ccidResetCard {reader : Nat} (slot : Nat)
    (hreader : (reader, Block.reader) ∈ pre) :
    Refines pre (ccidResetCard (σ := σ) reader slot) (UtokenDecrypt.ccidResetCard slot)
      fun x y got => x = y ∧ got = pre := by
  have hvoltages := refines_ccidTryVoltages (σ := σ) slot [0, 1, 2] hreader
  refine Refines.loadAs_bind hreader rfl (Refines.onHost_bind fun s => ?_)
  refine Refines.ite (fun _ => ?_) fun _ => hvoltages
  refine Refines.bindSame (refines_ccidCardPoweron slot 0 hreader) fun atr => ?_
  cases atr with
  | none => exact hvoltages
  | some atr => exact refines_pure ⟨rfl, rfl⟩

theorem refines_ccidReaderSelectSlot {reader : Nat} (slot : Nat)
    (hreader : (reader, Block.reader) ∈ pre) :
    Refines pre (ccidReaderSelectSlot (σ := σ) reader slot)
      (UtokenDecrypt.ccidReaderSelectSlot slot) fun x y got => x = y ∧ got = pre := by
  refine Refines.loadAs_bind hreader rfl (Refines.onHost_bind fun s => ?_)
  refine Refines.ite (fun _ => refines_pure ⟨rfl, rfl⟩) fun _ => ?_
  refine Refines.bindSame (refines_ccidGetSlotStatus slot hreader) fun status => ?_
  cases status with
  | none => exact refines_pure ⟨rfl, rfl⟩
  | some status =>
      refine Refines.ite (fun _ => refines_pure ⟨rfl, rfl⟩) fun _ => ?_
      refine Refines.loadAs_bind hreader rfl (Refines.onHost_bind fun _ => ?_)
      exact refines_pure ⟨rfl, rfl⟩

/-- The card that was found is a new block. -/
theorem refines_ccidReaderIdentifyCard {reader : Nat} (slot : Nat)
    (hreader : (reader, Block.reader) ∈ pre) :
    Refines pre (ccidReaderIdentifyCard (σ := σ) reader slot)
      (UtokenDecrypt.ccidReaderIdentifyCard slot)
      (Both (fun addr card got => got = (addr, .card card reader) ::ₘ pre)
        (fun got => got = pre)) := by
  refine Refines.loadAs_bind hreader rfl (Refines.onHost_bind fun s => ?_)
  refine Refines.ite (fun _ => refines_pure rfl) fun _ => ?_
  refine Refines.bindSame (refines_ccidResetCard slot hreader) fun atr => ?_
  cases atr with
  | none => exact refines_pure rfl
  | some atr =>
      change Refines pre (ifdCreateCard atr reader slot)
        (pure (UtokenDecrypt.ifdCreateCard atr slot)) _
      unfold ifdCreateCard
      cases UtokenDecrypt.ifdCreateCard atr slot with
      | none => exact refines_pure rfl
      | some card => exact Refines.malloc_bind fun addr => refines_pure rfl

/-- The packet that holds the response is all that is new. -/
theorem refines_ccidReaderApduXfer {reader apdu : Nat} (slot : Nat) (b : Buffer)
    (hreader : (reader, Block.reader) ∈ pre) (hapdu : (apdu, .buffer b) ∈ pre) :
    Refines pre (ccidReaderApduXfer (σ := σ) reader slot (some apdu))
      (UtokenDecrypt.ccidReaderApduXfer slot b)
      (Both (fun rapdu r got => got = (rapdu, .buffer r) ::ₘ pre) (fun got => got = pre)) := by
  refine Refines.loadAs_bind hapdu rfl ?_
  refine Refines.mono (refines_ccidXferBuilt (f := CcidResponse.payload) ccidRespData
    (fun rapdu r own => own = {(rapdu, .buffer r)}) hreader
    (refines_ccidBuildCommand (UInt8.ofNat slot) ccidCmdXfrblock none (bufferReadPointer b)
      (bufferAvailable b) hreader) ?_) ?_
  · intro resp pkt r others
    refine Triple.loadAs_bind (Multiset.mem_add.mpr (Or.inl (Multiset.mem_cons_self _ _)))
      rfl ?_
    rw [responseCells, Multiset.cons_add]
    refine Triple.store_bind (triple_pure ⟨pkt, _, _, rfl, ?_,
      Remains.taken resp { responseBlock pkt r with payload := none } rfl rfl, rfl⟩)
    rw [Multiset.singleton_add, Multiset.singleton_add]
  · rintro x y got hboth
    refine hboth.mono ?_ fun hgot => hgot
    rintro rapdu r ⟨own, hgot, hown⟩
    rw [hgot, hown, Multiset.singleton_add]

/-- A reader that lacks a feature is left behind. -/
theorem refines_ccidReaderCreate :
    Refines pre (ccidReaderCreate (σ := σ)) UtokenDecrypt.ccidReaderCreate
      fun x y got => (exists reader, x = some reader ∧ y = true ∧
          got = (reader, .reader) ::ₘ pre) ∨
        (x = none ∧ y = false ∧ exists left : Owned Block, got = left + pre ∧ left.card ≤ 1) := by
  refine Refines.onHost_bind fun ccid => ?_
  cases ccid with
  | none => exact refines_pure (Or.inr ⟨rfl, rfl, 0, by simp⟩)
  | some ccid =>
      refine Refines.ite (fun _ => refines_pure (Or.inr ⟨rfl, rfl, 0, by simp⟩)) fun _ => ?_
      refine Refines.malloc_bind fun reader => ?_
      cases ccidReaderSetFeatures ccid with
      | none =>
          refine refines_pure (Or.inr ⟨rfl, rfl, {(reader, .reader)}, ?_, ?_⟩)
          · rw [Multiset.singleton_add]
          · rw [Multiset.card_singleton]
      | some autoVoltage =>
          refine Refines.loadAs_bind (Multiset.mem_cons_self _ _) rfl
            (Refines.onHost_bind fun _ => ?_)
          exact refines_pure (Or.inl ⟨reader, rfl, rfl, rfl⟩)

/-- The operations of the reader leave the heap as they found it, but for the packet
that holds the response to an APDU. -/
theorem reader_tidy {reader : Nat} (slot : Nat) {m : Machine (Host σ) Block}
    (hreader : (reader, Block.reader) ∈ m.heap.live) :
    (forall selected t, ccidReaderSelectSlot reader slot m = (.done selected, t) ->
      t.heap.live = m.heap.live) ∧
    (forall atr t, ccidResetCard reader slot m = (.done atr, t) ->
      t.heap.live = m.heap.live) ∧
    (forall apdu b, (apdu, .buffer b) ∈ m.heap.live -> forall t,
      (forall rapdu, ccidReaderApduXfer reader slot (some apdu) m = (.done (some rapdu), t) ->
        exists r, t.heap.live = (rapdu, .buffer r) ::ₘ m.heap.live) ∧
      (ccidReaderApduXfer reader slot (some apdu) m = (.done none, t) ->
        t.heap.live = m.heap.live)) := by
  refine ⟨?_, ?_, ?_⟩
  · intro selected t hrun
    rcases (refines_ccidReaderSelectSlot slot hreader).returned hrun with ⟨_, _, hlive⟩
    exact hlive
  · intro atr t hrun
    rcases (refines_ccidResetCard slot hreader).returned hrun with ⟨_, _, hlive⟩
    exact hlive
  · intro apdu b hapdu t
    constructor
    · intro rapdu hrun
      rcases (refines_ccidReaderApduXfer slot b hreader hapdu).returned hrun with ⟨y, hends⟩
      cases y with
      | none => cases hends
      | some r => exact ⟨r, hends⟩
    · intro hrun
      rcases (refines_ccidReaderApduXfer slot b hreader hapdu).returned hrun with ⟨y, hends⟩
      cases y with
      | none => exact hends
      | some r => cases hends

end

/-- A reader and an APDU, and a device with this answer. -/
def readerMachine (answer : ScriptAnswer) : Machine (Host Script) Block where
  host := {
    usb := { answers := [answer] }
    dev := slotToken
    reader := { maxMessageSize := 271, supportedVoltages := 1 } }
  heap := (Heap.empty.alloc .reader).alloc (.buffer (bufferInitRead [0x00, 0xa4]))

theorem reader_tidy_answered :
    (exists t, ccidReaderSelectSlot 0 0 (readerMachine (.response ccidRespSlotstat [])) =
        (.done true, t) ∧
      t.heap.live = (readerMachine (.response ccidRespSlotstat [])).heap.live) ∧
    (exists t, ccidResetCard 0 0 (readerMachine (.response ccidRespData atrYubikey4)) =
        (.done (some atrYubikey4), t) ∧
      t.heap.live = (readerMachine (.response ccidRespData atrYubikey4)).heap.live) ∧
    exists rapdu r t,
      ccidReaderApduXfer 0 0 (some 1) (readerMachine (.response ccidRespData [0x90, 0x00])) =
        (.done (some rapdu), t) ∧
      t.heap.live = (rapdu, .buffer r) ::ₘ
        (readerMachine (.response ccidRespData [0x90, 0x00])).heap.live := by
  have hreader : forall answer, (0, Block.reader) ∈ (readerMachine answer).heap.live :=
    fun _ => Multiset.mem_cons_of_mem (Multiset.mem_singleton_self _)
  refine ⟨?_, ?_, ?_⟩
  · have hselected : (ccidReaderSelectSlot 0 0
        (readerMachine (.response ccidRespSlotstat []))).1 = .done true := by decide +kernel
    rcases hrun : ccidReaderSelectSlot 0 0 (readerMachine (.response ccidRespSlotstat [])) with
      ⟨outcome, t⟩
    rw [hrun] at hselected
    cases hselected
    exact ⟨t, rfl, (reader_tidy 0 (hreader _)).1 true t hrun⟩
  · have hpowered : (ccidResetCard 0 0
        (readerMachine (.response ccidRespData atrYubikey4))).1 =
          .done (some atrYubikey4) := by decide +kernel
    rcases hrun : ccidResetCard 0 0 (readerMachine (.response ccidRespData atrYubikey4)) with
      ⟨outcome, t⟩
    rw [hrun] at hpowered
    cases hpowered
    exact ⟨t, rfl, (reader_tidy 0 (hreader _)).2.1 _ t hrun⟩
  · have hreply : (ccidReaderApduXfer 0 0 (some 1)
        (readerMachine (.response ccidRespData [0x90, 0x00]))).1 = .done (some 4) := by
      decide +kernel
    rcases hrun : ccidReaderApduXfer 0 0 (some 1)
      (readerMachine (.response ccidRespData [0x90, 0x00])) with ⟨outcome, t⟩
    rw [hrun] at hreply
    cases hreply
    have happdu : (1, Block.buffer (bufferInitRead [0x00, 0xa4])) ∈
        (readerMachine (.response ccidRespData [0x90, 0x00])).heap.live :=
      Multiset.mem_coe.mpr List.mem_cons_self
    rcases ((reader_tidy 0 (hreader _)).2.2 1 _ happdu t).1 4 hrun with ⟨r, hlive⟩
    exact ⟨4, r, t, rfl, hlive⟩

end Alloc
end UtokenDecrypt
