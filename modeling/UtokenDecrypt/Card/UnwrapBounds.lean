import UtokenDecrypt.Card.Phases
import UtokenDecrypt.Card.Unwrap

/-!
# Unwrapping stays inside the receive buffer

`yubikey_decode_decipher_resp` and `pkcs1_type2_padding_remove` look at bytes of a
reply without checking that there are any.  How far they look is bounded, and a
receive buffer is never smaller than that: one of the same size has held the
answer to reset of a registered card, behind a header of ten bytes.
-/

namespace UtokenDecrypt

open Foundation

/-- Both functions look only at the block of the reply, whatever it holds. -/
structure UnwrapsInside (rapdu : Buffer) : Prop where
  decode : forall mem p, p ∈ (yubikeyDecodeDecipherResp rapdu).reads mem -> p < rapdu.size
  remove : forall mem padded, (yubikeyDecodeDecipherResp rapdu).value mem = (true, padded) ->
    forall p, p ∈ (pkcs1Type2PaddingRemove padded).reads mem -> p < rapdu.size

/-- A receive buffer that has room for ten more bytes behind its header. -/
theorem IsReply.unwrapsInside {size : Nat} {bp : Buffer} (h : IsReply size bp)
    (hsize : 20 ≤ size) : UnwrapsInside bp := by
  have hrpos := h.rpos_eq
  have hwpos := h.wf.wpos_le
  rw [← h.size_eq] at hsize
  refine ⟨?_, ?_⟩
  · intro mem p hp
    rcases yubikeyDecodeDecipherResp_span mem bp with ⟨span, hspan, _, hreads⟩
    have hlt := hreads p hp
    lia
  · intro mem padded hsome p hp
    rcases yubikeyDecodeDecipherResp_rpos_le h.wf hsome with ⟨hwf, hle, hend⟩
    rcases pkcs1Type2PaddingRemove_reads_lt hwf hp with hlt | hlt
    · lia
    · lia

/-!
## The answer to reset
-/

theorem ifdCreateCard_atr {atr : IfdAtrbuf} {slot : Nat} {card : IfdCard}
    (h : ifdCreateCard atr slot = some card) : 18 ≤ atr.length := by
  have hall : forall reg, reg ∈ ifdCardDrivers -> 18 ≤ reg.atr.length := by decide
  rcases Option.map_eq_some_iff.mp h with ⟨reg, hfind, _⟩
  have hsame : decide (atr = reg.atr) = true := by simpa using List.find?_some hfind
  rw [of_decide_eq_true hsame]
  exact hall reg (List.mem_of_find?_eq_some hfind)

section

variable {σ : Type} [Usbfs σ]

omit [Usbfs σ] in
/-- The receive buffers keep their size, and something is known of the value in
terms of that size. -/
def KeepsSize {α : Type} (fits : Nat -> α -> Prop) (proc : Process (Host σ) α)
    (s : Host σ) : Prop :=
  proc.Ensures s fun outcome t =>
    t.reader.maxMessageSize = s.reader.maxMessageSize ∧
      forall value, outcome = .done value -> fits (capacity s.reader.maxMessageSize) value

omit [Usbfs σ] in
/-- The same of a value that may be missing. -/
def KeepsSizeSome {α : Type} (fits : Nat -> α -> Prop)
    (proc : Process (Host σ) (Option α)) (s : Host σ) : Prop :=
  KeepsSize (fun size got => got.elim True (fits size)) proc s

section

variable {α β : Type} {mid : Nat -> α -> Prop} {fits : Nat -> β -> Prop} {s : Host σ}

omit [Usbfs σ] in
theorem KeepsSize.returns {value : β} (h : fits (capacity s.reader.maxMessageSize) value) :
    KeepsSize fits (pure value) s := by
  refine ⟨rfl, ?_⟩
  intro other hvalue
  injection hvalue with hvalue
  rw [← hvalue]
  exact h

omit [Usbfs σ] in
theorem KeepsSizeSome.nothing : KeepsSizeSome fits (pure none) s :=
  KeepsSize.returns trivial

omit [Usbfs σ] in
theorem KeepsSizeSome.known {proc : Process (Host σ) (Option β)}
    (h : KeepsSizeSome fits proc s) : proc.Ensures s fun outcome t =>
      t.reader.maxMessageSize = s.reader.maxMessageSize ∧
        forall value, outcome = .done (some value) ->
          fits (capacity s.reader.maxMessageSize) value :=
  ⟨h.1, fun value hvalue => h.2 (some value) hvalue⟩

omit [Usbfs σ] in
theorem KeepsSize.bind {first : Process (Host σ) α} {next : α -> Process (Host σ) β}
    (h : KeepsSize mid first s)
    (hnext : forall value t, t.reader.maxMessageSize = s.reader.maxMessageSize ->
      mid (capacity s.reader.maxMessageSize) value -> KeepsSize fits (next value) t) :
    KeepsSize fits (first >>= next) s := by
  refine Process.Ensures.bind h ?_ ?_ ?_
  · intro value t ht
    refine (hnext value t ht.1 (ht.2 value rfl)).mono ?_
    intro outcome u hu
    rw [ht.1] at hu
    exact hu
  · exact fun t ht => ⟨ht.1, fun value hvalue => by cases hvalue⟩
  · exact fun t ht => ⟨ht.1, fun value hvalue => by cases hvalue⟩

omit [Usbfs σ] in
theorem KeepsSize.read_bind {next : Host σ -> Process (Host σ) β}
    (h : KeepsSize fits (next s) s) : KeepsSize fits (Process.read >>= next) s := h

omit [Usbfs σ] in
/-- Trying again, if there is no value. -/
theorem KeepsSizeSome.retry {first : Process (Host σ) (Option β)}
    {go : Option β -> Process (Host σ) (Option β)} (h : KeepsSizeSome fits first s)
    (hsome : forall value, go (some value) = pure (some value))
    (hnone : forall t, KeepsSizeSome fits (go none) t) :
    KeepsSizeSome fits (first >>= go) s := by
  refine KeepsSize.bind h ?_
  intro got t ht hgot
  cases got with
  | none => exact hnone t
  | some value =>
      rw [hsome]
      refine KeepsSize.returns ?_
      rw [ht]
      exact hgot

end

/-!
## Setting up
-/

/-- A response has its payload in a receive buffer. -/
theorem keepsSize_ccidXferBuilt (reader : CcidReader) (slot type : UInt8)
    (ctl : Option CcidCtl) (expected : UInt8) (s : Host σ) :
    KeepsSizeSome (fun size resp => IsReply size resp.payload)
      (ccidXferBuilt (ccidBuildCommand reader slot type ctl [] 0) expected) s := by
  cases hbuild : ccidBuildCommand reader slot type ctl [] 0 with
  | none => exact .nothing
  | some cmd =>
      have hwf := (ccidBuildCommand_spec hbuild).2.2.1
      change KeepsSize _ (ccidXfer cmd expected) s
      refine (ccidXfer_ensures cmd expected hwf s).mono ?_
      intro outcome t h
      rcases h with ⟨_, hhang, dumps, rfl⟩ | ⟨rv, answers, h⟩
      · refine ⟨rfl, ?_⟩
        intro got hgot
        rw [hhang] at hgot
        cases hgot
      · refine ⟨by rw [h.reader], ?_⟩
        intro got hgot
        cases got with
        | none => trivial
        | some resp =>
            rw [hgot] at h
            exact h.isReply

/-- An answer to reset has fitted behind the header of a response. -/
theorem keepsSize_ccidCardPoweron (slot : Nat) (voltage : UInt8) (s : Host σ) :
    KeepsSizeSome (fun size atr => 10 + atr.length ≤ size)
      (ccidCardPoweron slot voltage) s := by
  refine KeepsSize.read_bind ((keepsSize_ccidXferBuilt _ _ _ _ _ s).bind ?_)
  intro resp t ht hresp
  refine KeepsSize.returns ?_
  rw [ht]
  cases resp with
  | none => trivial
  | some resp =>
      have hfits : 10 + resp.payload.contents.length ≤ _ := IsReply.fits hresp
      have havailable := bufferAvailable_eq (IsReply.wf hresp)
      refine Nat.le_trans (Nat.add_le_add_left ?_ 10) hfits
      refine Nat.le_trans (List.length_take_le _ _) ?_
      rw [havailable]
      exact Nat.min_le_left _ _

theorem keepsSize_ccidTryVoltages (slot : Nat) (voltages : List Nat) (s : Host σ) :
    KeepsSizeSome (fun size atr => 10 + atr.length ≤ size)
      (ccidTryVoltages slot voltages) s := by
  induction voltages generalizing s with
  | nil => exact .nothing
  | cons i rest ih =>
      refine KeepsSize.read_bind ?_
      split
      · exact KeepsSizeSome.retry (keepsSize_ccidCardPoweron slot _ s) (fun _ => rfl) ih
      · exact ih s

theorem keepsSize_ccidResetCard (slot : Nat) (s : Host σ) :
    KeepsSizeSome (fun size atr => 10 + atr.length ≤ size) (ccidResetCard slot) s := by
  refine KeepsSize.read_bind ?_
  split
  · exact KeepsSizeSome.retry (keepsSize_ccidCardPoweron slot 0 s) (fun _ => rfl)
      (keepsSize_ccidTryVoltages slot [0, 1, 2])
  · exact keepsSize_ccidTryVoltages slot [0, 1, 2] s

/-- A card that was identified has sent the answer to reset of a driver. -/
theorem keepsSize_ccidReaderIdentifyCard (slot : Nat) (s : Host σ) :
    KeepsSizeSome (fun size _ => 28 ≤ size) (ccidReaderIdentifyCard slot) s := by
  refine KeepsSize.read_bind ?_
  split
  · exact KeepsSizeSome.nothing
  · refine (keepsSize_ccidResetCard slot s).bind ?_
    intro atr t ht hatr
    refine KeepsSize.returns ?_
    rw [ht]
    cases atr with
    | none => trivial
    | some atr =>
        dsimp only [Option.bind_some, Option.elim_some] at hatr ⊢
        cases hcreate : ifdCreateCard atr slot with
        | none => trivial
        | some card =>
            have hlength := ifdCreateCard_atr hcreate
            change 28 ≤ _
            lia

theorem keepsSize_ccidReaderSelectSlot (slot : Nat) (s : Host σ) :
    KeepsSize (fun _ _ => True) (ccidReaderSelectSlot slot) s := by
  refine KeepsSize.read_bind ?_
  split
  · exact .returns trivial
  · have hstatus : KeepsSize (fun _ _ => True) (ccidGetSlotStatus slot) s :=
      KeepsSize.read_bind ((keepsSize_ccidXferBuilt _ _ _ _ _ s).bind fun _ _ _ _ =>
        .returns trivial)
    refine hstatus.bind ?_
    intro status t _ _
    cases status with
    | none => exact .returns trivial
    | some status =>
        dsimp only
        split
        · exact .returns trivial
        · exact ⟨rfl, fun _ _ => trivial⟩

/-!
## The whole run
-/

theorem Transfers.keepsSize {α : Type} {proc : Process (Host σ) α} {s : Host σ}
    {slot : Nat} {xs : List CardXfer} (h : Transfers slot s xs (proc s).2) :
    KeepsSize (fun _ _ => True) proc s :=
  ⟨h.maxMessageSize, fun _ _ => trivial⟩

theorem keepsSize_doitConnectCard (cardopts : List CString) (s : Host σ) :
    KeepsSizeSome (fun size _ => 28 ≤ size) (doitConnectCard cardopts) s := by
  refine (keepsSize_ccidReaderSelectSlot 0 s).bind ?_
  intro selected t _ _
  split
  · refine KeepsSize.bind (keepsSize_ccidReaderIdentifyCard 0 t) ?_
    intro card u hu hcard
    cases card with
    | none => exact KeepsSizeSome.nothing
    | some card =>
        rw [Option.bind_some]
        cases ifdCardSetOptions card cardopts with
        | none => exact KeepsSizeSome.nothing
        | some card =>
            rw [Option.elim_some]
            rcases yubikeyConnect_ensures card u with ⟨xs, hxs, _⟩
            refine ⟨hxs.maxMessageSize, ?_⟩
            intro got _
            cases got with
            | none => trivial
            | some card =>
                rw [hu]
                exact hcard
  · exact KeepsSizeSome.nothing

/-- Once a card is connected, its answer to reset has fitted. -/
theorem doitConnect_size (cardopts : List CString) (s : Host σ) :
    (doitConnect cardopts).Ensures s fun outcome t =>
      forall card, outcome = .done (some card) ->
        28 ≤ capacity t.reader.maxMessageSize := by
  refine (ccidReaderCreate_ensures s).bind ?_ (fun _ _ _ hbad => by cases hbad)
    (fun _ _ _ hbad => by cases hbad)
  intro created t _
  cases created with
  | false => exact fun _ hbad => by cases hbad
  | true =>
      rw [if_pos rfl]
      refine (keepsSize_doitConnectCard cardopts t).known.mono ?_
      intro outcome u hu card hcard
      rw [hu.1]
      exact hu.2 card hcard

theorem keepsSize_doitVerify (pin : Option CString) (card : IfdCard) (s : Host σ) :
    KeepsSize (fun _ _ => True) (doitVerify pin card) s := by
  cases pin with
  | none => exact KeepsSize.returns trivial
  | some pin =>
      rcases yubikeyVerify_ensures card (some pin) s with ⟨xs, hxs, _⟩
      exact KeepsSize.bind hxs.keepsSize fun _ _ _ _ => KeepsSize.returns trivial

/-- The replies of some calls of `ifd_card_xfer`. -/
theorem calls_isReply (card : IfdCard) {s t : Host σ} {calls : List XferCall}
    (h : Process.Calls (fun apdu => ifdCardXfer card (some apdu)) s calls t)
    (hwf : forall call, call ∈ calls -> call.1.Wf) :
    t.reader.maxMessageSize = s.reader.maxMessageSize ∧
      forall call, call ∈ calls -> forall reply sw, call.2 = .done (some (reply, sw)) ->
        IsReply (capacity s.reader.maxMessageSize) reply := by
  induction h with
  | nil s => exact ⟨rfl, fun _ hmem => (List.not_mem_nil hmem).elim⟩
  | @returned s t u apdu value calls hcall _ ih =>
      have hruns := ifdCardXfer_runs card (hwf _ List.mem_cons_self) s
      rw [hcall] at hruns
      have hsize := hruns.sameReader.maxMessageSize
      rcases ih (fun call hmem => hwf call (List.mem_cons_of_mem _ hmem)) with
        ⟨hrest, hreplies⟩
      refine ⟨hrest.trans hsize, ?_⟩
      intro call hmem reply sw hreply
      cases List.mem_cons.mp hmem with
      | inl heq =>
          rw [heq] at hreply
          exact hruns.isReply reply sw hreply
      | inr hin =>
          have hfound := hreplies call hin reply sw hreply
          rw [hsize] at hfound
          exact hfound
  | @stopped s t apdu outcome hcall hstop =>
      have hruns := ifdCardXfer_runs card (hwf _ List.mem_cons_self) s
      rw [hcall] at hruns
      refine ⟨hruns.sameReader.maxMessageSize, ?_⟩
      intro call hmem reply sw hreply
      rw [List.mem_singleton.mp hmem] at hreply
      exact hruns.isReply reply sw hreply

/-- The last response of the loop is one of the replies. -/
theorem yubikeyDecipherChunks_isReply (card : IfdCard) (algorithm : UInt8) {data : Buffer}
    (h : data.Wf) (s : Host σ) :
    KeepsSize (fun size sent => forall rapdu, sent = some (some rapdu) -> IsReply size rapdu)
      (yubikeyDecipherChunks card algorithm (bufferAvailable data + 1) data none) s := by
  rw [bufferAvailable_eq h]
  rcases yubikeyDecipherChunks_chained card algorithm h none s
    (Nat.lt_succ_self data.contents.length) with
    ⟨calls, chunks, rest, hcalls, hchained, _⟩
  rcases calls_isReply card hcalls hchained.proper with ⟨hsize, hreplies⟩
  refine ⟨hsize, ?_⟩
  intro sent hsent rapdu hrapdu
  rw [hrapdu] at hsent
  rcases List.eq_nil_or_concat' calls with rfl | ⟨front, last, rfl⟩
  · rw [hchained.nothing rfl] at hsent
    cases hsent
  · by_cases hsucceeded : CallSucceeded last
    · rcases hsucceeded with ⟨reply, hreply⟩
      rw [hchained.returned last reply List.getLast?_concat hreply] at hsent
      have hmem := List.mem_append_right front (List.mem_singleton_self last)
      cases hsent
      exact hreplies last hmem rapdu _ hreply
    · have hfailed := (hchained.failed front last [] rfl hsucceeded).2
      rw [hfailed] at hsent
      cases hlast : last.2 with
      | done got =>
          rw [hlast] at hsent
          cases hsent
      | crash =>
          rw [hlast] at hsent
          cases hsent
      | hang =>
          rw [hlast] at hsent
          cases hsent

theorem yubikeyReply_isReply (card : IfdCard) (ciphertext : Buffer) (s : Host σ) :
    KeepsSizeSome IsReply (yubikeyReply card ciphertext) s := by
  have hdump : KeepsSize (fun _ _ => True) (whenDebug2 (dump (bufferReadPointer ciphertext)
      (bufferAvailable ciphertext))) s := by
    rcases whenDebug2_dump (bufferReadPointer ciphertext) (bufferAvailable ciphertext) s with
      ⟨dumps, hdumps⟩
    exact ⟨by rw [hdumps], fun _ _ => trivial⟩
  refine hdump.bind ?_
  intro _ t _ _
  cases halgorithm : yubikeyAlgorithm (bufferAvailable ciphertext) with
  | none => exact KeepsSizeSome.nothing
  | some algorithm =>
      have hlen := yubikeyAlgorithm_length halgorithm
      rcases yubikeyEncodeDecipherArgs_eq (Nat.le_trans hlen (by decide)) with
        ⟨data, hdata, hwf, _⟩
      rw [hdata]
      refine (yubikeyDecipherChunks_isReply card algorithm hwf t).bind ?_
      intro sent u hu hsent
      cases sent with
      | none => exact KeepsSizeSome.nothing
      | some rapdu =>
          cases rapdu with
          | none => exact ⟨rfl, fun _ hvalue => by cases hvalue⟩
          | some rapdu =>
              refine .returns ?_
              rw [hu]
              exact hsent rapdu rfl

/-- Whatever a run of `doit` unwraps, it looks at no byte outside the buffer. -/
theorem doitReply_unwrapsInside (pin : Option CString) (ciphertext : Buffer)
    (cardopts : List CString) (s : Host σ) :
    (doitReply pin ciphertext cardopts).Ensures s fun outcome _ =>
      forall rapdu, outcome = .done (some rapdu) -> UnwrapsInside rapdu := by
  have hconnected : ((doitConnect cardopts).thenSome (doitVerify pin)).Ensures s
      fun outcome t => forall card, outcome = .done (some card) ->
        28 ≤ capacity t.reader.maxMessageSize := by
    refine (doitConnect_size cardopts s).bind ?_ (fun _ _ _ hbad => by cases hbad)
      (fun _ _ _ hbad => by cases hbad)
    intro got t hsize
    cases got with
    | none => exact fun _ hbad => by cases hbad
    | some card =>
        refine (keepsSize_doitVerify pin card t).mono ?_
        intro outcome u hu _ _
        rw [hu.1]
        exact hsize card rfl
  refine hconnected.bind ?_ (fun _ _ _ hbad => by cases hbad) (fun _ _ _ hbad => by cases hbad)
  intro got t hsize
  cases got with
  | none => exact fun _ hbad => by cases hbad
  | some card =>
      change (yubikeyReply card ciphertext).Ensures t _
      refine (yubikeyReply_isReply card ciphertext t).known.mono ?_
      intro outcome u hu rapdu hrapdu
      exact (hu.2 rapdu hrapdu).unwrapsInside (Nat.le_trans (by decide) (hsize card rfl))

end

/-- A run that unwraps a reply without a body. -/
example : ((doitReply none (bufferInitRead (List.replicate 128 0x55)) []
    { usb := { answers := [.response ccidRespSlotstat [],
        .response ccidRespData atrYubikey5, .response ccidRespData [0x90, 0x00],
        .response ccidRespData [0x63, 0xc3], .response ccidRespData [0x90, 0x00]] }
      dev := slotToken : Host Script }).1.map (Option.map Buffer.contents)) =
    .done (some []) := by decide +kernel

end UtokenDecrypt
