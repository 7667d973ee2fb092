import UtokenDecrypt.Ccid.Exchange
import UtokenDecrypt.Usb.Script

/-!
# The first decisive packet decides

An exchange sends its command once and receives at most six packets, and the
first one that is not to be skipped decides its outcome.  The source means to
skip truncated packets as well, but its common path to the next packet reads
through the response that such a packet did not give.  The main result says
exactly when an exchange is decided as intended.
-/

namespace UtokenDecrypt

open Foundation

section

variable {σ : Type} [Usbfs σ]

/-- The exchange returns, and what it returns is decided by the first packet
that is not skipped. -/
def CcidXferDecided (cmd : CcidCommand) (expected : UInt8) (s : Host σ) : Prop :=
  exists rv answers resp t,
    ccidXfer cmd expected s = (.done resp, t) ∧
    t.log = s.log ++ .send cmd.pkt.contents rv :: answers.map Event.recv ∧
    answers.length ≤ 6 ∧
    (rv = false -> answers = [] ∧ resp = none) ∧
    (rv = true ->
      CcidDecided cmd expected 6 answers ∧
      resp.map (fun resp => resp.payload.contents) =
        (ccidDecision cmd expected answers).map ccidPayload)

theorem ccidXferDecided_of_returns (cmd : CcidCommand) (expected : UInt8)
    (h : cmd.pkt.Wf) (s : Host σ) {resp : Option CcidResponse}
    (hdone : (ccidXfer cmd expected s).1 = .done resp) :
    CcidXferDecided cmd expected s := by
  have hensures := ccidXfer_ensures cmd expected h s
  unfold Process.Ensures at hensures
  rcases hrun : ccidXfer cmd expected s with ⟨outcome, t⟩
  rw [hrun] at hensures hdone
  cases hdone
  cases hensures with
  | inl hstuck => cases hstuck.2.1
  | inr hexchanged =>
      rcases hexchanged with ⟨rv, answers, hx⟩
      refine ⟨rv, answers, resp, t, hrun, hx.log, hx.length_le, ?_, ?_⟩
      · intro hrv
        rcases hx.failed hrv with ⟨hnone, hresp⟩
        cases hresp
        exact ⟨hnone, rfl⟩
      · intro hrv
        rcases hx.result hrv with ⟨hdecided, hresp⟩
        refine ⟨hdecided, ?_⟩
        rw [hresp, Option.map_map]
        cases hdecision : ccidDecision cmd expected answers with
        | none => rfl
        | some packet =>
            rcases ccidDecision_mem hdecision with ⟨hmem, haccept⟩
            exact congrArg some
              (ccidAccepted_spec (hx.fits packet hmem).1 haccept).contents

theorem ccidXfer_decided_iff (cmd : CcidCommand) (expected : UInt8)
    (h : cmd.pkt.Wf) (s : Host σ) :
    CcidXferDecided cmd expected s ↔
      (s.optDebug ≤ 1 ∨ cmd.pkt.contents.length ≤ 2 ^ 32 - 32) ∧
      ((uusbSendBulk s.dev cmd.pkt s.usb).1 = true ->
        CcidWholeUntilDecided cmd expected s.dev s.reader.maxMessageSize 6
          (uusbSendBulk s.dev cmd.pkt s.usb).2) := by
  rw [← ccidXfer_returns_iff cmd expected h s]
  constructor
  · intro hdecided
    rcases hdecided with ⟨_, _, resp, t, hrun, _⟩
    exact ⟨resp, by rw [hrun]⟩
  · intro hreturns
    rcases hreturns with ⟨resp, hdone⟩
    exact ccidXferDecided_of_returns cmd expected h s hdone

end

/-- An empty `PC_to_RDR_XfrBlock` for slot 0. -/
def emptyBlock : CcidCommand :=
  ccidCommandCreate 0 0 (bufferInitRead (ccidPacket 0x6f 0 0 {} []))

/-- A reader with room for 16 bytes, and a device with these answers. -/
def scriptHost (answers : List ScriptAnswer) : Host Script where
  usb := { answers := answers }
  reader := { maxMessageSize := 16 }

/-- A packet for another slot is skipped, and the answer behind it returned. -/
theorem ccidXfer_decided_foreign :
    CcidXferDecided emptyBlock ccidRespData
      (scriptHost [.raw (ccidPacket 0x80 1 0 {} []), .response 0x80 [0x90, 0x00]]) :=
  (ccidXfer_decided_iff emptyBlock ccidRespData (bufferInitRead_wf (by decide))
    _).mpr ⟨Or.inl (by decide), fun _ =>
      ⟨by decide, fun _ => ⟨by decide, fun h => absurd h (by decide)⟩⟩⟩

/-- A packet without a header in front of the answer stops the program. -/
theorem not_ccidXferDecided_short :
    ¬ CcidXferDecided emptyBlock ccidRespData
      (scriptHost [.raw [], .response 0x80 [0x90, 0x00]]) := by
  intro hdecided
  rcases hdecided with ⟨_, _, resp, t, hrun, _⟩
  have hreturns := (ccidXfer_returns_iff emptyBlock ccidRespData
    (bufferInitRead_wf (by decide))
    (scriptHost [.raw [], .response 0x80 [0x90, 0x00]])).mp
    ⟨resp, congrArg Prod.fst hrun⟩
  have hwhole := (hreturns.2 rfl).1
  exact absurd hwhole (by decide)

end UtokenDecrypt
