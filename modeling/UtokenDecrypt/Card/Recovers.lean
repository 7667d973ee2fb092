import UtokenDecrypt.Card.Ready

/-!
# A token that deciphers

When a token does its part, from the reader to the padded message, the program does not
need more of it than a reply that fits behind a header in a receive buffer.
-/

namespace UtokenDecrypt

open Foundation
open Usb

section

variable {σ : Type} [Usbfs σ]

/-- The token is ready, and its card deciphers with the key in the slot of the options. -/
structure TokenServes (start : Host σ) (pin : Option CString) (cardopts : List CString)
    (ciphertext : Buffer) (ws : TokenWires σ) (padding message reply : List UInt8)
    (chunks : List (List UInt8)) : Prop extends TokenReady start pin ws where
  deciphers : forall (card : IfdCard) (t : Host σ), card.slot = 0 ->
    KeySlotChosen cardopts card.keySlot -> t.At (start.port 0) ws.shown ->
    CardDecrypts card ciphertext t padding message reply chunks

variable {s start : Host σ} {pin : Option CString} {cardopts : List CString}
  {ciphertext : Buffer} {ws : TokenWires σ} {padding message reply : List UInt8}
  {chunks : List (List UInt8)}

/-- A message is shorter than the key. -/
theorem TokenServes.message_lt
    (h : TokenServes start pin cardopts ciphertext ws padding message reply chunks)
    (hcreate : ccidReaderCreate s = (.done true, start))
    (hopts : forall option, option ∈ cardopts -> OptionTaken option) :
    message.length < 2 ^ 31 := by
  rcases h.verified hcreate hopts with ⟨card, t, hverified, hat⟩
  rcases (doitReady pin cardopts s).apply hverified with ⟨hslot, hkey, _⟩
  have hcard := h.deciphers card t hslot hkey hat
  have hlength := hcard.length_eq
  rcases hcard.key with hsize | hsize
  · lia
  · lia

theorem TokenServes.runs
    (h : TokenServes start pin cardopts ciphertext ws padding message reply chunks)
    (hcreate : ccidReaderCreate s = (.done true, start))
    (hopts : forall option, option ∈ cardopts -> OptionTaken option) :
    (10 + reply.length ≤ capacity start.reader.maxMessageSize ->
      Decrypted message (doit pin ciphertext cardopts s)) ∧
    (capacity start.reader.maxMessageSize < 10 + reply.length ->
      (doit pin ciphertext cardopts s).1 = .done none) := by
  rcases h.verified hcreate hopts with ⟨card, t, hverified, hat⟩
  rcases (doitReady pin cardopts s).apply hverified with ⟨hslot, hkey, _⟩
  have hruns := (h.deciphers card t hslot hkey hat).runs
  have hdoit : doit pin ciphertext cardopts s = yubikeyDecipher card ciphertext t := by
    rw [doit_eq, Process.thenSome, Process.bind_done hverified, Option.elim_some]
  have hmax : t.reader.maxMessageSize = start.reader.maxMessageSize := hat.maxMessageSize
  rw [hdoit, ← hmax]
  exact hruns

/-- A token that does its part is enough exactly when its whole reply fits behind a header
in a receive buffer; otherwise the run ends without a message. -/
theorem doit_recovers_iff
    (h : TokenServes start pin cardopts ciphertext ws padding message reply chunks)
    (hcreate : ccidReaderCreate s = (.done true, start))
    (hopts : forall option, option ∈ cardopts -> OptionTaken option) :
    (Decrypted message (doit pin ciphertext cardopts s) ↔
      10 + reply.length ≤ capacity start.reader.maxMessageSize) ∧
    ((doit pin ciphertext cardopts s).1 = .done none ↔
      capacity start.reader.maxMessageSize < 10 + reply.length) := by
  have hruns := h.runs hcreate hopts
  constructor
  · constructor
    · intro hdecrypted
      rcases hdecrypted with ⟨result, hresult, _⟩
      by_contra hfull
      rw [hruns.2 (by lia)] at hresult
      cases hresult
    · exact hruns.1
  · constructor
    · intro hnone
      by_contra hroom
      rcases hruns.1 (by lia) with ⟨result, hresult, _⟩
      rw [hnone] at hresult
      cases hresult
    · exact hruns.2

end

/-- A token that answers the PIN, and then with the reply in one part. -/
theorem script_serves {start : Host Script} {cardopts : List CString}
    (hsize : start.reader.maxMessageSize = 271)
    (hplan : voltagePlan start.reader.autoVoltage start.reader.supportedVoltages = [1])
    (h : start.usb.answers = answeringHost.usb.answers) :
    exists ws, TokenServes start (some somePin) cardopts (someCiphertext 128) ws
      (somePadding 128) someMessage (someReply 128) [someReply 128] := by
  have hready : exists ws, TokenReady start (some somePin) ws ∧
      ws.shown.usb.answers = scriptParts [someReply 128] := by
    refine script_ready (p := ⟨[], 0x63, 0xc3⟩) hplan (by decide +kernel) (by decide)
      (Nat.zero_le _) ?_ ?_ ?_ h
    · rw [hsize]
      decide
    · rw [hsize]
      decide
    · rw [hsize]
      decide
  rcases hready with ⟨ws, hready, hanswers⟩
  refine ⟨ws, hready, fun card t _ _ hat => ?_⟩
  have hmax : t.reader.maxMessageSize = 271 := hat.maxMessageSize.trans hsize
  refine cardDecrypts_script card (.inl ⟨rfl, rfl⟩) List.flatten_singleton ?_ ?_ ?_ ?_
  · intro chunk hmem
    rw [List.mem_singleton.mp hmem, someReply_length.1]
    decide
  · rw [hmax]
    decide
  · rw [hmax]
    decide
  · have husb : t.usb = ws.shown.usb := congrArg Wire.usb hat.wire
    rw [husb, hanswers]
    rfl

theorem doit_recovers_answered :
    Decrypted someMessage (doit (some somePin) (someCiphertext 128) [] answeringHost) := by
  let start := (ccidReaderCreate answeringHost).2
  have hsize : start.reader.maxMessageSize = 271 := rfl
  rcases @script_serves start [] hsize (by decide +kernel) rfl with
    ⟨ws, hserves⟩
  refine (doit_recovers_iff hserves (Prod.ext rfl rfl)
    (fun _ hmem => (List.not_mem_nil hmem).elim)).1.mpr ?_
  rw [hsize, someReply_length.1]
  decide

end UtokenDecrypt
