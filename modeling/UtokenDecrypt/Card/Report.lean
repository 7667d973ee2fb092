import UtokenDecrypt.Card.Answers
import UtokenDecrypt.Card.Phases

/-!
# The report of a wrong PIN

When `ifd_card_verify` fails, `doit` prints how many attempts are left, from a
variable that only one of the ways to fail assigns.
-/

namespace UtokenDecrypt

open Foundation

/-- The status word that says how many attempts are left. -/
def IsWrongPin (sw : Nat) : Prop :=
  sw &&& 0xFF00 = 0x6300

/-!
## The answer of the card is determined
-/

section

variable {σ : Type} [Usbfs σ] {slot size : Nat} {parts prior : List ReplyApdu}
  {last : Outcome (Option (List UInt8))}
  {outcome other : Outcome (Option (List UInt8 × Nat))}

omit [Usbfs σ] in
theorem CardEnd.unique (h : CardEnd size parts last outcome)
    (hother : CardEnd size parts last other) : other = outcome := by
  cases h with
  | @finished p hjoined hlast => exact (hother.of_joined hjoined).2
  | @refused reply hrefused =>
      cases hother with
      | finished hjoined _ => exact absurd hjoined (hrefused _ rfl)
      | refused _ => rfl
  | crashed =>
      cases hother
      rfl
  | hung =>
      cases hother
      rfl

/-- The transfer depends on the bytes of the APDU only. -/
theorem ccidReaderApduXfer_congr (slot : Nat) {first second : Buffer} (h : first.Wf)
    (hsecond : second.Wf) (hsame : first.contents = second.contents) :
    ccidReaderApduXfer (σ := σ) slot first = ccidReaderApduXfer slot second := by
  unfold ccidReaderApduXfer
  simp only [ccidBuildCommand_contents h, ccidBuildCommand_contents hsecond, hsame]

omit [Usbfs σ] in
theorem CardEnd.not_joined {p : ReplyApdu} (h : CardEnd size parts (.done (some p.bytes)) outcome)
    (hmore : p.sw1 = 0x61) : ¬ Joined size (parts ++ [p]) :=
  fun hjoined => (h.of_joined hjoined).1 hmore

/-- Two exchanges that start in one state with one APDU end alike. -/
theorem CardExchange.unique {apdu : List UInt8} {s t u : Host σ}
    {calls otherCalls : List (Buffer × Outcome (Option Buffer))}
    {reached otherReached : List ReplyApdu} {otherLast : Outcome (Option (List UInt8))}
    (hcalls : Process.Calls (ccidReaderApduXfer slot) s calls t)
    (hwf : forall call, call ∈ calls -> call.1.Wf)
    (h : CardExchange size prior apdu (calls.map ApduCall.of) outcome reached last)
    (hotherCalls : Process.Calls (ccidReaderApduXfer slot) s otherCalls u)
    (hotherWf : forall call, call ∈ otherCalls -> call.1.Wf)
    (hother : CardExchange size prior apdu (otherCalls.map ApduCall.of) other
      otherReached otherLast) :
    other = outcome := by
  induction calls generalizing prior apdu s reached otherCalls otherReached with
  | nil => cases h.apdus
  | cons call rest ih =>
      cases otherCalls with
      | nil => cases hother.apdus
      | cons second otherRest =>
          have hfirst : call.1.contents = apdu := (List.cons.inj h.apdus).1
          have hsecond : second.1.contents = apdu := (List.cons.inj hother.apdus).1
          rcases hcalls.head with ⟨mid, hcall, hrest⟩
          rcases hotherCalls.head with ⟨mid2, hcall2, hrest2⟩
          rw [ccidReaderApduXfer_congr slot (hotherWf second List.mem_cons_self)
            (hwf call List.mem_cons_self) (hsecond.trans hfirst.symm), hcall] at hcall2
          rcases Prod.mk.inj hcall2 with ⟨hreply, rfl⟩
          have hsame : (ApduCall.of second).reply = (ApduCall.of call).reply := by
            rw [ApduCall.of, ApduCall.of, hreply]
          rcases h.head_cases with ⟨_, hend⟩ | ⟨p, later, rfl, hp, hmore, hjoined⟩
          · rcases hother.head_cases with ⟨_, hend2⟩ | ⟨q, later2, rfl, hq, hmore, hjoined⟩
            · rw [hsame] at hend2
              exact hend.unique hend2
            · rw [← hsame, hq] at hend
              exact absurd hjoined (hend.not_joined hmore)
          · rcases hother.head_cases with ⟨_, hend2⟩ | ⟨q, later2, rfl, hq, _, _⟩
            · rw [hsame, hp] at hend2
              exact absurd hjoined (hend2.not_joined hmore)
            · rw [hsame, hp] at hq
              injection hq with hq
              rw [← ReplyApdu.bytes_injective (Option.some.inj hq)] at hother
              exact ih hrest (fun call hmem => hwf call (List.mem_cons_of_mem _ hmem)) h.tail
                hrest2 (fun call hmem => hotherWf call (List.mem_cons_of_mem _ hmem))
                hother.tail

theorem CardXfer.Runs.outcome_unique {s t u : Host σ} {x y : CardXfer}
    (h : x.Runs slot s t) (hother : y.Runs slot s u) (hsame : y.apdu = x.apdu) :
    y.outcome = x.outcome := by
  rcases h.calls with ⟨calls, hcalls, hwf, hrounds⟩
  rcases hother.calls with ⟨otherCalls, hotherCalls, hotherWf, hotherRounds⟩
  rcases h.made with ⟨reached, last, hexchange⟩
  rcases hother.made with ⟨otherReached, otherLast, hotherExchange⟩
  rw [← hrounds] at hexchange
  rw [← hotherRounds, hsame] at hotherExchange
  exact hexchange.unique hcalls hwf hotherCalls hotherWf hotherExchange

/-!
## Verification
-/

/-- The number that is reported is that of the status word with which the card
answered the PIN. -/
def BackedByCard (slot : Nat) (pin : CString) (s t : Host σ) (triesLeft : Option Nat) :
    Prop :=
  exists (x : CardXfer) (bytes : List UInt8) (sw : Nat), x.Runs slot s t ∧
    x.apdu = verifyApdu (some pin) ∧ x.outcome = .done (some (bytes, sw)) ∧
    IsWrongPin sw ∧ triesLeft = some (sw &&& 0x000F)

/-- Whenever verification fails in `doit`, a number can be reported. -/
def ReportsBacked (pin : CString) (cardopts : List CString) (s : Host σ) : Prop :=
  forall card t result u, doitConnect cardopts s = (.done (some card), t) ->
    yubikeyVerify card (some pin) t = (.done result, u) -> result.rv = false ->
      BackedByCard card.slot pin t u result.triesLeft

/-- The card that is connected takes the PIN, and if the transfer of the PIN
returns, the card has answered that it is right or wrong. -/
def AnswersPin (pin : CString) (cardopts : List CString) (s : Host σ) : Prop :=
  forall card t, doitConnect cardopts s = (.done (some card), t) ->
    pin.bytes.length ≤ 8 ∧
      forall (x : CardXfer) u, x.Runs card.slot t u -> x.apdu = verifyApdu (some pin) ->
        forall answer, x.outcome = .done answer ->
          exists bytes sw, answer = some (bytes, sw) ∧ (sw = ykpivSuccess ∨ IsWrongPin sw)

/-- What `yubikey_verify` makes of an answer of the card. -/
def verifyResult : Option (List UInt8 × Nat) -> VerifyResult
  | none => { rv := false }
  | some (_, sw) =>
      if sw &&& 0xFF00 = 0x6300 then { rv := false, triesLeft := some (sw &&& 0x000F) }
      else { rv := sw == ykpivSuccess }

theorem yubikeyVerify_transfers (card : IfdCard) {pin : CString}
    (h : pin.bytes.length ≤ 8) (s : Host σ) :
    (yubikeyVerify card (some pin)).Ensures s fun outcome t =>
      exists x : CardXfer, x.Runs card.slot s t ∧ x.apdu = verifyApdu (some pin) ∧
        outcome = x.outcome.map verifyResult := by
  have hshort : ((some pin).elim 0 fun pin => pin.bytes.length) ≤ 8 := h
  rcases yubikeyVerifyApdu_eq hshort with ⟨apdu, hbuild, hwf, hapdu, hle⟩
  rw [yubikeyVerify, if_neg (Nat.not_lt.mpr hshort), hbuild]
  refine (ifdCardXfer_ensures card hwf hle s).bind ?_ ?_ ?_
  · rintro got t ⟨x, hruns, hx, houtcome⟩
    cases got with
    | none =>
        refine ⟨x, hruns, hx.trans hapdu, ?_⟩
        rw [houtcome]
        rfl
    | some result =>
        rcases result with ⟨reply, sw⟩
        have hresult : x.outcome.map verifyResult =
            .done (verifyResult (some (reply.contents, sw))) := by
          rw [houtcome]
          rfl
        rw [verifyResult] at hresult
        dsimp only
        split at hresult
        · rename_i hwrong
          rw [if_pos hwrong]
          exact ⟨x, hruns, hx.trans hapdu, hresult.symm⟩
        · rename_i hother
          rw [if_neg hother]
          exact ⟨x, hruns, hx.trans hapdu, hresult.symm⟩
  · rintro t ⟨x, hruns, hx, houtcome⟩
    refine ⟨x, hruns, hx.trans hapdu, ?_⟩
    rw [houtcome]
    rfl
  · rintro t ⟨x, hruns, hx, houtcome⟩
    refine ⟨x, hruns, hx.trans hapdu, ?_⟩
    rw [houtcome]
    rfl

theorem yubikeyVerify_long (card : IfdCard) {pin : CString} (h : 8 < pin.bytes.length)
    (s : Host σ) : yubikeyVerify card (some pin) s = (.done { rv := false }, s) := by
  have hlong : 8 < ((some pin).elim 0 fun pin => pin.bytes.length) := h
  rw [yubikeyVerify, if_pos hlong]
  rfl

omit [Usbfs σ] in
theorem verifyResult_wrongPin (bytes : List UInt8) {sw : Nat} (h : IsWrongPin sw) :
    verifyResult (some (bytes, sw)) =
      { rv := false, triesLeft := some (sw &&& 0x000F) } :=
  if_pos h

omit [Usbfs σ] in
theorem verifyResult_other (bytes : List UInt8) {sw : Nat} (h : ¬ IsWrongPin sw) :
    verifyResult (some (bytes, sw)) = { rv := sw == ykpivSuccess } :=
  if_neg h

omit [Usbfs σ] in
theorem verifyResult_verified {answer : Option (List UInt8 × Nat)}
    (h : (verifyResult answer).rv = true) :
    exists bytes, answer = some (bytes, ykpivSuccess) := by
  cases answer with
  | none => cases h
  | some got =>
      rcases got with ⟨bytes, sw⟩
      by_cases hwrong : IsWrongPin sw
      · rw [verifyResult_wrongPin bytes hwrong] at h
        cases h
      · rw [verifyResult_other bytes hwrong] at h
        exact ⟨bytes, by rw [eq_of_beq h]⟩

omit [Usbfs σ] in
/-- Only the status word of a wrong PIN gives a number. -/
theorem verifyResult_backed {answer : Option (List UInt8 × Nat)}
    (hfailed : (verifyResult answer).rv = false)
    (h : exists bytes sw, answer = some (bytes, sw) ∧ (sw = ykpivSuccess ∨ IsWrongPin sw)) :
    exists bytes sw, answer = some (bytes, sw) ∧ IsWrongPin sw ∧
      (verifyResult answer).triesLeft = some (sw &&& 0x000F) := by
  rcases h with ⟨bytes, sw, rfl, hsw⟩
  cases hsw with
  | inl hsuccess =>
      have hright : ¬ IsWrongPin ykpivSuccess := by
        unfold IsWrongPin
        decide
      rw [hsuccess, verifyResult_other bytes hright] at hfailed
      cases hfailed
  | inr hwrong =>
      refine ⟨bytes, sw, rfl, hwrong, ?_⟩
      rw [verifyResult_wrongPin bytes hwrong]

/-- The number that is reported is backed by the card in exactly the runs in which
the card is sent the PIN and, if the transfer returns, answers that it is right or
how many attempts are left. -/
theorem doit_reportsBacked_iff (pin : CString) (cardopts : List CString) (s : Host σ) :
    ReportsBacked pin cardopts s ↔ AnswersPin pin cardopts s := by
  constructor
  · intro hbacked card t hconnect
    have hlength : pin.bytes.length ≤ 8 := by
      by_contra hlong
      rcases hbacked card t _ t hconnect (yubikeyVerify_long card (Nat.lt_of_not_le hlong) t)
        rfl with ⟨_, _, _, _, _, _, _, hnone⟩
      cases hnone
    refine ⟨hlength, ?_⟩
    intro x u hruns hx answer hanswer
    rcases hverify : yubikeyVerify card (some pin) t with ⟨outcome, v⟩
    rcases (yubikeyVerify_transfers card hlength t).apply hverify with
      ⟨y, hyruns, hy, houtcome⟩
    have hsame := hruns.outcome_unique hyruns (hy.trans hx.symm)
    rw [hsame, hanswer, Outcome.map_done] at houtcome
    rw [houtcome] at hverify
    cases hrv : (verifyResult answer).rv with
    | true =>
        rcases verifyResult_verified hrv with ⟨bytes, hright⟩
        exact ⟨bytes, ykpivSuccess, hright, Or.inl rfl⟩
    | false =>
        rcases hbacked card t _ v hconnect hverify hrv with
          ⟨z, bytes, sw, hzruns, hz, hzoutcome, hwrong, _⟩
        rw [hruns.outcome_unique hzruns (hz.trans hx.symm), hanswer] at hzoutcome
        injection hzoutcome with hfound
        exact ⟨bytes, sw, hfound, Or.inr hwrong⟩
  · intro hanswers card t result u hconnect hverify hfailed
    rcases hanswers card t hconnect with ⟨hlength, hcard⟩
    rcases (yubikeyVerify_transfers card hlength t).apply hverify with
      ⟨x, hruns, hx, houtcome⟩
    cases hresult : x.outcome with
    | crash =>
        rw [hresult] at houtcome
        cases houtcome
    | hang =>
        rw [hresult] at houtcome
        cases houtcome
    | done answer =>
        rw [hresult, Outcome.map_done] at houtcome
        injection houtcome with houtcome
        rw [houtcome] at hfailed
        rcases verifyResult_backed hfailed (hcard x u hruns hx answer hresult) with
          ⟨bytes, sw, hanswer, hwrong, htries⟩
        rw [hanswer] at hresult
        rw [houtcome]
        exact ⟨x, bytes, sw, hruns, hx, hresult, hwrong, htries⟩

end

/-- A token with a card that needs a PIN; nothing more is sent to it. -/
def pinHost : Host Script where
  usb := { answers := [.response ccidRespSlotstat [], .response ccidRespData atrYubikey5,
    .response ccidRespData [0x90, 0x00], .response ccidRespData [0x63, 0xc3]] }
  dev := slotToken

def longPin : CString where
  bytes := [0x31, 0x32, 0x33, 0x34, 0x35, 0x36, 0x37, 0x38, 0x39]
  noNul := by decide

theorem not_reportsBacked_longPin :
    ¬ forall (pin : CString) (cardopts : List CString) (s : Host Script),
      ReportsBacked pin cardopts s := by
  intro h
  have hconnects : ((doitConnect [] pinHost).1.map Option.isSome) = .done true := by
    decide +kernel
  rcases hrun : doitConnect [] pinHost with ⟨outcome, t⟩
  rw [hrun] at hconnects
  cases outcome with
  | crash => cases hconnects
  | hang => cases hconnects
  | done got =>
      cases got with
      | none => cases hconnects
      | some card =>
          rcases h longPin [] pinHost card t _ t hrun
            (yubikeyVerify_long card (by decide) t) rfl with ⟨_, _, _, _, _, _, _, hnone⟩
          cases hnone

end UtokenDecrypt
