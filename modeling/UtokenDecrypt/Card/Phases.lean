import UtokenDecrypt.Card.Run
import UtokenDecrypt.Foundation.Search

/-!
# The phases of a run

`doit` connects to the card, verifies the PIN, has the card decipher, and unwraps
the reply.  The equations cut it where one of these is left and the next one
begins, so that the states in between can be spoken about.
-/

namespace UtokenDecrypt

open Foundation

section

variable {σ : Type} [Usbfs σ]

/-- What `doit` does with a reader, up to the connection to the card. -/
def doitConnectCard (cardopts : List CString) : Process (Host σ) (Option IfdCard) := do
  let selected ← ccidReaderSelectSlot 0
  if selected then do
    let card ← ccidReaderIdentifyCard 0
    (card.bind fun card => ifdCardSetOptions card cardopts).elim (pure none)
      yubikeyConnect
  else pure none

/-- `doit` up to the connection to the card. -/
def doitConnect (cardopts : List CString) : Process (Host σ) (Option IfdCard) := do
  let created ← ccidReaderCreate
  if created then doitConnectCard cardopts else pure none

/-- What `doit` does in front of the deciphering, if a PIN was given. -/
def doitVerify (pin : Option CString) (card : IfdCard) :
    Process (Host σ) (Option IfdCard) :=
  pin.elim (pure (some card)) fun pin => do
    let verified ← yubikeyVerify card (some pin)
    pure (if verified.rv then some card else none)

/-- `yubikey_decipher` up to the last response. -/
def yubikeyReply (card : IfdCard) (ciphertext : Buffer) :
    Process (Host σ) (Option Buffer) := do
  let inLen := bufferAvailable ciphertext
  whenDebug2 (dump (bufferReadPointer ciphertext) inLen)
  (yubikeyAlgorithm inLen).elim (pure none) fun algorithm => do
    let data ← Process.ofOutcome
      (yubikeyEncodeDecipherArgs ((bufferReadPointer ciphertext).take inLen))
    data.elim Process.crash fun data => do
      let sent ← yubikeyDecipherChunks card algorithm (bufferAvailable data + 1) data none
      sent.elim (pure none) fun rapdu =>
        rapdu.elim Process.crash fun rapdu => pure (some rapdu)

/-- `doit` up to the reply that is unwrapped. -/
def doitReply (pin : Option CString) (ciphertext : Buffer) (cardopts : List CString) :
    Process (Host σ) (Option Buffer) :=
  ((doitConnect cardopts).thenSome (doitVerify pin)).thenSome fun card =>
    yubikeyReply card ciphertext

theorem yubikeyDecipher_eq (card : IfdCard) (ciphertext : Buffer) :
    yubikeyDecipher (σ := σ) card ciphertext =
      (yubikeyReply card ciphertext).thenSome yubikeyUnwrap := by
  rw [yubikeyDecipher, yubikeyReply, Process.bind_thenSome]
  congr 1
  funext _
  cases yubikeyAlgorithm (bufferAvailable ciphertext) with
  | none => rfl
  | some algorithm =>
      dsimp only [Option.elim]
      rw [Process.bind_thenSome]
      congr 1
      funext data
      cases data with
      | none => rfl
      | some data =>
          dsimp only [yubikeyDecipherArgs, Option.elim]
          rw [Process.bind_thenSome]
          congr 1
          funext sent
          cases sent with
          | none => rfl
          | some rapdu => cases rapdu <;> rfl

/-- A run of `doit` is one of its phases after the other. -/
theorem doit_eq (pin : Option CString) (ciphertext : Buffer) (cardopts : List CString) :
    doit (σ := σ) pin ciphertext cardopts =
      ((doitConnect cardopts).thenSome (doitVerify pin)).thenSome fun card =>
        yubikeyDecipher card ciphertext := by
  rw [Process.thenSome_assoc, doit, doitConnect, Process.bind_thenSome]
  congr 1
  funext created
  cases created with
  | false => rfl
  | true =>
      rw [if_pos rfl, if_pos rfl, doitConnectCard, Process.bind_thenSome]
      congr 1
      funext selected
      cases selected with
      | false => rfl
      | true =>
          rw [if_pos rfl, if_pos rfl, Process.bind_thenSome]
          congr 1
          funext card
          cases (card.bind fun card => ifdCardSetOptions card cardopts) with
          | none => rfl
          | some card =>
              dsimp only [Option.elim]
              rw [Process.thenSome]
              congr 1
              funext connected
              cases connected with
              | none => rfl
              | some card =>
                  cases pin with
                  | none => rfl
                  | some pin =>
                      dsimp only [doitVerify, Option.elim]
                      rw [Process.bind_thenSome]
                      congr 1
                      funext verified
                      cases verified.rv <;> rfl

theorem doit_eq_unwrap (pin : Option CString) (ciphertext : Buffer)
    (cardopts : List CString) :
    doit (σ := σ) pin ciphertext cardopts =
      (doitReply pin ciphertext cardopts).thenSome yubikeyUnwrap := by
  rw [doit_eq, doitReply, Process.thenSome_assoc _ _ yubikeyUnwrap]
  congr 1
  funext card
  exact yubikeyDecipher_eq card ciphertext

end

end UtokenDecrypt
