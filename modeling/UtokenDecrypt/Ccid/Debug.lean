import UtokenDecrypt.Ccid.Exchange
import UtokenDecrypt.Foundation.Hangs
import UtokenDecrypt.Usb.Script

/-!
# Debugging

What the dumps under `opt_debug > 1` do to an exchange.  The dump of a
received packet covers as many bytes as its header says there are, computed in
32 bits, and not as many as were received.

A dump that reads behind the received bytes still stays inside the receive
buffer or stops the program, and it only gets that far for a packet that would
have stopped the program anyway.  So the outcome of an exchange changes only when
the dump of the command does not end.
-/

namespace UtokenDecrypt

open Foundation
open Usb

section

variable {mem : List UInt8} {size : Nat}

end

/-!
## The dump of a packet
-/

section

variable {σ : Type}

variable [Usbfs σ] {cmd : CcidCommand} {expected : UInt8}

theorem ccidXferLoop_ends (cmd : CcidCommand) (expected : UInt8) (count : Nat) :
    Process.Ends (ccidXferLoop (σ := σ) cmd expected count) := by
  intro s
  induction count generalizing s with
  | zero => exact fun hhang => by cases hhang
  | succ count ih =>
      rcases hrecv : uusbRecvBulk s.dev s.reader.maxMessageSize s.usb with
        ⟨answer, usb⟩
      cases answer with
      | none =>
          rw [ccidXferLoop_none count hrecv]
          exact fun hhang => by cases hhang
      | some packet =>
          by_cases hwhole : CcidWellFormed packet
          · rcases ccidXferLoop_whole cmd expected count hrecv hwhole with
              ⟨dumps, hround⟩
            rw [hround]
            cases ccidVerdict cmd expected packet with
            | skip => exact ih _
            | accept => exact fun hhang => by cases hhang
            | reject => exact fun hhang => by cases hhang
          · rcases ccidXferLoop_truncated cmd expected count hrecv hwhole with
              ⟨dumps, hround⟩
            rw [hround]
            exact fun hhang => by cases hhang

end

end UtokenDecrypt
