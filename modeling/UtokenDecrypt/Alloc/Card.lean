import UtokenDecrypt.Alloc.CardBlocks
import UtokenDecrypt.Alloc.Ccid
import UtokenDecrypt.Card.Chaining

/-!
# APDUs and the card, block by block

The functions of `scard.c` and `yubikey.c` on blocks refine the ones on values.
Here some blocks are lost: a reply that is too short to have a status word, and
the reply to a part of the arguments that is not the last.
-/

namespace UtokenDecrypt
namespace Alloc

open Foundation

/-!
## Lost buffers
-/

/-- Besides the blocks there were, at most so many buffers. -/
def Lost (count : Nat) (pre got : Owned Block) : Prop :=
  exists left : Owned Block, got = left + pre ∧ left.card ≤ count ∧
    forall cell, cell ∈ left -> exists bp, cell.2 = .buffer bp

section

variable {pre mid got : Owned Block} {count more : Nat}

theorem Lost.none (count : Nat) (pre : Owned Block) : Lost count pre pre := by
  refine ⟨0, (Multiset.zero_add pre).symm, Nat.zero_le _, ?_⟩
  intro cell hmem
  cases Multiset.notMem_zero cell hmem

theorem Lost.buffer (addr : Nat) (bp : Buffer) (h : 1 ≤ count) (pre : Owned Block) :
    Lost count pre ((addr, .buffer bp) ::ₘ pre) := by
  refine ⟨{(addr, .buffer bp)}, (Multiset.singleton_add _ _).symm, h, ?_⟩
  intro cell hmem
  rw [Multiset.mem_singleton.mp hmem]
  exact ⟨bp, rfl⟩

theorem Lost.mono (h : Lost count pre got) (hle : count ≤ more) : Lost more pre got := by
  rcases h with ⟨left, hgot, hcard, hbuffers⟩
  exact ⟨left, hgot, Nat.le_trans hcard hle, hbuffers⟩

theorem Lost.trans (h : Lost more mid got) (hmid : Lost count pre mid) :
    Lost (more + count) pre got := by
  rcases h with ⟨late, hgot, hlate, hlateBuffers⟩
  rcases hmid with ⟨early, hearly, hcard, hbuffers⟩
  refine ⟨late + early, by rw [hgot, hearly, Multiset.add_assoc], ?_, ?_⟩
  · rw [Multiset.card_add]
    lia
  · intro cell hmem
    cases Multiset.mem_add.mp hmem with
    | inl hl => exact hlateBuffers cell hl
    | inr hr => exact hbuffers cell hr

theorem Lost.mem {cell : Nat × Block} (h : Lost count pre got) (hmem : cell ∈ pre) :
    cell ∈ got := by
  rcases h with ⟨left, hgot, _, _⟩
  rw [hgot]
  exact Multiset.mem_add.mpr (Or.inr hmem)

/-- A block in front of what is lost, or behind it. -/
theorem Lost.cons {cell : Nat × Block} (h : Lost count (cell ::ₘ pre) got) :
    exists others, got = cell ::ₘ others ∧ Lost count pre others := by
  rcases h with ⟨left, hgot, hcard, hbuffers⟩
  exact ⟨left + pre, by rw [hgot, Multiset.add_cons], left, rfl, hcard, hbuffers⟩

end

section

variable {σ : Type} {pre others : Owned Block}

/-!
## Building APDUs
-/

/-- The writes of `ifd_build_apdu`, on a buffer as a value. -/
def ifdFilled (cla ins p1 p2 : UInt8) (data : Option (List UInt8)) (len : Nat)
    (apdu : Buffer) : Option Buffer :=
  (bufferPutU8 apdu cla).bind fun apdu =>
  (bufferPutU8 apdu ins).bind fun apdu =>
  (bufferPutU8 apdu p1).bind fun apdu =>
  (bufferPutU8 apdu p2).bind fun apdu =>
  (bufferPutU8 apdu (UInt8.ofNat len)).bind fun apdu =>
  data.elim (some apdu) fun data => bufferPut apdu (data.take len)

theorem ifdBuildApdu_eq_filled (cla ins p1 p2 : UInt8) (data : Option (List UInt8))
    {len : Nat} (hlen : len ≤ 0xFF) :
    UtokenDecrypt.ifdBuildApdu cla ins p1 p2 data len =
      ifdFilled cla ins p1 p2 data len (UtokenDecrypt.bufferAllocWrite (5 + len)) := by
  rw [UtokenDecrypt.ifdBuildApdu, if_neg (by lia)]
  cases data <;> rfl

/-- An APDU of at most 255 bytes of data is always built. -/
theorem ifdBuildApdu_isSome (cla ins p1 p2 : UInt8) (data : Option (List UInt8))
    {len : Nat} (hlen : len ≤ 0xFF) :
    (UtokenDecrypt.ifdBuildApdu cla ins p1 p2 data len).isSome := by
  rcases ifdBuildApdu_put cla ins p1 p2 hlen with
    ⟨header, hwf, _, hwpos, hsize, hsome, hnone⟩
  cases data with
  | none =>
      rw [hnone]
      rfl
  | some data =>
      have htake := List.length_take_le len data
      rw [hsome, bufferPut_isSome_iff hwf]
      lia

theorem refines_ifdFillApdu (apdu : Nat) (cla ins p1 p2 : UInt8)
    (data : Option (List UInt8)) (len : Nat) (b : Buffer) :
    Refines ((apdu, .buffer b) ::ₘ others)
      (ifdFillApdu (σ := σ) apdu cla ins p1 p2 data len)
      (pure (ifdFilled cla ins p1 p2 data len b))
      (Both (fun _ last got => got = (apdu, .buffer last) ::ₘ others)
        (fun got => exists last, got = (apdu, .buffer last) ::ₘ others)) := by
  refine refines_putThen fun _ => refines_putThen fun _ => refines_putThen fun _ =>
    refines_putThen fun _ => refines_putThen fun _ => ?_
  cases data with
  | none => exact refines_pure rfl
  | some data => exact refines_putLast

theorem refines_ifdBuildApdu (cla ins p1 p2 : UInt8) (data : Option (List UInt8))
    (len : Nat) :
    Refines pre (ifdBuildApdu (σ := σ) cla ins p1 p2 data len)
      (pure (UtokenDecrypt.ifdBuildApdu cla ins p1 p2 data len))
      (Both (fun apdu b got => got = (apdu, .buffer b) ::ₘ pre) (fun got => got = pre)) := by
  unfold ifdBuildApdu
  by_cases hlen : len > 0xFF
  · rw [if_pos hlen, UtokenDecrypt.ifdBuildApdu, if_pos hlen]
    exact refines_pure rfl
  · have hle : len ≤ 0xFF := by lia
    rw [if_neg hlen]
    refine Refines.malloc_bind fun apdu => ?_
    have hbuilt := ifdBuildApdu_isSome cla ins p1 p2 data hle
    rw [ifdBuildApdu_eq_filled cla ins p1 p2 data hle] at hbuilt ⊢
    refine (refines_ifdFillApdu apdu cla ins p1 p2 data len _).bindBoth_value ?_ ?_
    · rintro _ last _ hlast rfl
      rw [hlast]
      exact refines_pure rfl
    · intro got hnone
      rw [hnone] at hbuilt
      cases hbuilt

/-!
## Exchanging APDUs
-/

variable [Usbfs σ]

/-- What the exchange of an APDU makes of the heap: there is a reply, or nothing new
but at most one reply that was lost. -/
def Replied (pre : Owned Block) :
    Option (Nat × Nat) -> Option (Buffer × Nat) -> Owned Block -> Prop :=
  Both (fun x y got => x.2 = y.2 ∧ got = (x.1, .buffer y.1) ::ₘ pre) (Lost 1 pre)

/-- The pointer to an APDU, or a null pointer for one that was not built. -/
def ApduAt (pre : Owned Block) : Option Nat -> Option Buffer -> Prop
  | some apdu, some b => (apdu, .buffer b) ∈ pre
  | none, none => True
  | _, _ => False

omit [Usbfs σ] in
/-- An APDU is gone when it was exchanged. -/
theorem refines_sendAndFree {build : Prog σ (Option Nat)} {value : Option Buffer}
    {send : Option Nat -> Prog σ (Option (Nat × Nat))}
    {highSend : Option Buffer -> Process (Host σ) (Option (Buffer × Nat))}
    (hbuild : Refines pre build (pure value)
      (Both (fun apdu b got => got = (apdu, .buffer b) ::ₘ pre) (fun got => got = pre)))
    (hsend : forall apdu b others, pre ⊆ others -> ApduAt others apdu b ->
      Refines others (send apdu) (highSend b) (Replied others)) :
    Refines pre (sendAndFree build send) (highSend value) (Replied pre) := by
  refine hbuild.bindBoth_value ?_ ?_
  · rintro apdu b _ hvalue rfl
    rw [hvalue]
    refine (hsend (some apdu) (some b) _ (Multiset.subset_cons _ _)
      (Multiset.mem_cons_self _ _)).andThen fun x y got hreplied => ?_
    cases x with
    | none =>
        cases y with
        | some y => cases hreplied
        | none =>
            rcases Lost.cons hreplied with ⟨others, rfl, hothers⟩
            exact Triple.free_bind (triple_pure hothers)
    | some x =>
        cases y with
        | none => cases hreplied
        | some y =>
            rcases hreplied with ⟨hsw, rfl⟩
            rw [Multiset.cons_swap]
            exact Triple.free_bind (triple_pure ⟨hsw, rfl⟩)
  · rintro _ hvalue rfl
    rw [hvalue]
    exact (hsend none none _ (fun _ hmem => hmem) trivial).andThen fun _ _ _ hreplied =>
      triple_pure hreplied

theorem refines_ifdCardApdu {card reader : Nat} {c : IfdCard} {apdu : Option Nat}
    {b : Option Buffer} (hcard : (card, .card c reader) ∈ pre)
    (hreader : (reader, Block.reader) ∈ pre) (hapdu : ApduAt pre apdu b) :
    Refines pre (ifdCardApdu (σ := σ) card apdu) (UtokenDecrypt.ifdCardApdu c b)
      (Replied pre) := by
  refine Refines.loadAs_bind hcard rfl ?_
  cases apdu with
  | none =>
      cases b with
      | none => exact refines_crash
      | some b => cases hapdu
  | some apdu =>
      cases b with
      | none => cases hapdu
      | some b =>
          refine (refines_ccidReaderApduXfer c.slot b hreader hapdu).bindBoth ?_ ?_
          · rintro rapdu r _ rfl
            refine Refines.loadAs_bind (Multiset.mem_cons_self _ _) rfl ?_
            refine Refines.ite (fun _ => refines_pure ?_) fun _ => ?_
            · exact Lost.buffer rapdu r (Nat.le_refl 1) pre
            · exact Refines.store_bind (refines_pure ⟨rfl, rfl⟩)
          · rintro _ rfl
            exact refines_pure (Lost.none 1 _)

theorem refines_ifdCardXferLoop {card reader rapdu : Nat} {c : IfdCard} (b : Buffer)
    (sw fuel : Nat) (hcard : (card, .card c reader) ∈ pre)
    (hreader : (reader, Block.reader) ∈ pre) :
    Refines ((rapdu, .buffer b) ::ₘ pre) (ifdCardXferLoop (σ := σ) card fuel rapdu sw)
      (UtokenDecrypt.ifdCardXferLoop c fuel b sw) (Replied pre) := by
  induction fuel generalizing b sw with
  | zero => exact refines_hang
  | succ fuel ih =>
      refine Refines.ite (fun _ => ?_) fun _ => refines_pure ⟨rfl, rfl⟩
      have hsent : Refines ((rapdu, .buffer b) ::ₘ pre)
          (sendAndFree (ifdBuildApdu 0 ifdInsGetResponseApdu 0 0 none
            (UInt8.ofNat (sw &&& 0xFF)).toNat) (ifdCardApdu (σ := σ) card))
          (UtokenDecrypt.ifdCardApdu c (UtokenDecrypt.ifdBuildApdu 0 ifdInsGetResponseApdu
            0 0 none (UInt8.ofNat (sw &&& 0xFF)).toNat))
          (Replied ((rapdu, .buffer b) ::ₘ pre)) :=
        refines_sendAndFree (refines_ifdBuildApdu _ _ _ _ _ _) fun apdu b2 others hsub hapdu =>
          refines_ifdCardApdu (hsub (Multiset.mem_cons_of_mem hcard))
            (hsub (Multiset.mem_cons_of_mem hreader)) hapdu
      refine hsent.bindBoth ?_ ?_
      · rintro ⟨rapdu2, sw2⟩ ⟨b2, sw'⟩ _ ⟨rfl, rfl⟩
        refine Refines.loadAs_bind (Multiset.mem_cons_self _ _) rfl ?_
        refine Refines.ite (fun _ => ?_) fun _ => ?_
        · exact Refines.free_bind (Refines.free_bind (refines_pure (Lost.none 1 pre)))
        · dsimp only
          rw [Multiset.cons_swap]
          refine (refines_putting rapdu b _ _).bindBoth_value ?_ ?_
          · rintro _ last _ hlast rfl
            rw [hlast, Multiset.cons_swap]
            exact Refines.free_bind (ih last sw2)
          · rintro _ hnone rfl
            rw [hnone, Multiset.cons_swap]
            exact Refines.free_bind (Refines.free_bind (refines_pure (Lost.none 1 pre)))
      · intro got hlost
        rcases Lost.cons hlost with ⟨others, rfl, hothers⟩
        exact Refines.free_bind (refines_pure hothers)

theorem refines_ifdCardXfer {card reader : Nat} {c : IfdCard} {apdu : Option Nat}
    {b : Option Buffer} (hcard : (card, .card c reader) ∈ pre)
    (hreader : (reader, Block.reader) ∈ pre) (hapdu : ApduAt pre apdu b) :
    Refines pre (ifdCardXfer (σ := σ) card apdu) (UtokenDecrypt.ifdCardXfer c b)
      (Replied pre) := by
  refine (refines_ifdCardApdu hcard hreader hapdu).bindBoth ?_ ?_
  · rintro ⟨rapdu, sw⟩ ⟨r, sw'⟩ _ ⟨rfl, rfl⟩
    refine Refines.loadAs_bind (Multiset.mem_cons_self _ _) rfl ?_
    exact refines_ifdCardXferLoop r sw _ hcard hreader
  · intro got hlost
    exact refines_pure hlost

/-- An APDU and the reply to it are gone. -/
theorem refines_xferAndFree {card reader apdu : Nat} {c : IfdCard} (b : Buffer)
    (hcard : (card, .card c reader) ∈ pre) (hreader : (reader, Block.reader) ∈ pre) :
    Refines ((apdu, .buffer b) ::ₘ pre) (xferAndFree (σ := σ) card (some apdu))
      (UtokenDecrypt.ifdCardXfer c (some b))
      (fun x y got => x = y.map Prod.snd ∧ Lost (if x.isSome then 0 else 1) pre got) := by
  have hapdu : ApduAt ((apdu, .buffer b) ::ₘ pre) (some apdu) (some b) :=
    Multiset.mem_cons_self _ _
  refine (refines_ifdCardXfer (Multiset.mem_cons_of_mem hcard)
    (Multiset.mem_cons_of_mem hreader) hapdu).andThen ?_
  intro x y got hreplied
  cases x with
  | none =>
      cases y with
      | some y => cases hreplied
      | none =>
          rcases Lost.cons hreplied with ⟨others, rfl, hothers⟩
          exact Triple.free_bind (triple_pure ⟨rfl, hothers⟩)
  | some x =>
      cases y with
      | none => cases hreplied
      | some y =>
          rcases hreplied with ⟨hsw, rfl⟩
          rw [Multiset.cons_swap]
          refine Triple.free_bind (Triple.free_bind (triple_pure ⟨?_, Lost.none 0 pre⟩))
          exact congrArg some hsw

/-!
## Connecting and verifying
-/

theorem refines_yubikeySelectApplication {card reader : Nat} {c : IfdCard}
    (aid : List UInt8) (hcard : (card, .card c reader) ∈ pre)
    (hreader : (reader, Block.reader) ∈ pre) :
    Refines pre (yubikeySelectApplication (σ := σ) card aid)
      (UtokenDecrypt.yubikeySelectApplication c aid)
      (fun x y got => x = y ∧ Lost (if x then 0 else 1) pre got) := by
  unfold UtokenDecrypt.yubikeySelectApplication
  refine (refines_ifdBuildApdu _ _ _ _ _ _).bindBoth_value ?_ ?_
  · rintro apdu b _ hb rfl
    rw [hb]
    refine (refines_xferAndFree b hcard hreader).bind ?_
    rintro _ y got ⟨rfl, hlost⟩
    cases y with
    | none => exact refines_pure ⟨rfl, hlost⟩
    | some y => exact refines_pure ⟨rfl, hlost.mono (Nat.zero_le _)⟩
  · rintro _ hnone rfl
    rw [hnone]
    exact refines_pure ⟨rfl, Lost.none _ _⟩

theorem refines_yubikeyVerify {card reader : Nat} {c : IfdCard} (pin : Option CString)
    (hcard : (card, .card c reader) ∈ pre) (hreader : (reader, Block.reader) ∈ pre) :
    Refines pre (yubikeyVerify (σ := σ) card pin) (UtokenDecrypt.yubikeyVerify c pin)
      (fun x y got => x = y ∧ Lost (if x.rv then 0 else 1) pre got) := by
  refine Refines.ite (fun _ => refines_pure ⟨rfl, Lost.none _ _⟩) fun _ => ?_
  have hbuild : Refines pre (yubikeyVerifyApdu (σ := σ) pin)
      (pure (UtokenDecrypt.yubikeyVerifyApdu pin))
      (Both (fun apdu b got => got = (apdu, .buffer b) ::ₘ pre) (fun got => got = pre)) := by
    cases pin with
    | none => exact refines_ifdBuildApdu _ _ _ _ _ _
    | some pin => exact refines_ifdBuildApdu _ _ _ _ _ _
  refine hbuild.bindBoth_value ?_ ?_
  · rintro apdu b _ hb rfl
    rw [hb]
    refine (refines_xferAndFree b hcard hreader).bind ?_
    rintro _ y got ⟨rfl, hlost⟩
    cases y with
    | none => exact refines_pure ⟨rfl, hlost⟩
    | some y =>
        refine Refines.ite (fun _ => refines_pure ⟨rfl, hlost.mono (Nat.zero_le _)⟩) fun _ => ?_
        exact refines_pure ⟨rfl, hlost.mono (Nat.zero_le _)⟩
  · rintro _ hnone rfl
    rw [hnone]
    exact refines_pure ⟨rfl, Lost.none _ _⟩

/-- What a function that writes to the card leaves: the new card in the block of the
old one, and some buffers that are lost. -/
def CardWritten (card reader : Nat) (count : Nat) (others : Owned Block) (ok : Bool)
    (new : Option IfdCard) (got : Owned Block) : Prop :=
  ok = new.isSome ∧ exists c left, got = (card, .card c reader) ::ₘ left ∧
    Lost count others left ∧ forall written, new = some written -> c = written

omit [Usbfs σ] in
theorem triple_writeCard (card reader : Nat) (c : IfdCard) (needed : IfdCard -> Bool)
    (f : IfdCard -> IfdCard) (others : Owned Block) :
    Triple ((card, .card c reader) ::ₘ others) (writeCard (σ := σ) card needed f)
      fun _ got => got = (card, .card (if needed c then f c else c) reader) ::ₘ others := by
  refine Triple.loadAs_bind (Multiset.mem_cons_self _ _) rfl ?_
  cases hneeded : needed c with
  | false =>
      dsimp only
      rw [hneeded]
      exact triple_pure rfl
  | true =>
      dsimp only
      rw [hneeded]
      exact triple_store _ _ _ _

theorem refines_yubikeyConnect {card reader : Nat} (c : IfdCard)
    (hreader : (reader, Block.reader) ∈ others) :
    Refines ((card, .card c reader) ::ₘ others) (yubikeyConnect (σ := σ) card)
      (UtokenDecrypt.yubikeyConnect c) (CardWritten card reader 1 others) := by
  refine (refines_yubikeySelectApplication pivAid (Multiset.mem_cons_self _ _)
    (Multiset.mem_cons_of_mem hreader)).bind ?_
  rintro selected _ got ⟨rfl, hlost⟩
  rcases Lost.cons hlost with ⟨others', rfl, hothers⟩
  cases selected with
  | false =>
      exact refines_pure ⟨rfl, c, others', rfl, hothers, fun _ hbad => by cases hbad⟩
  | true =>
      have hreader' : (reader, Block.reader) ∈ others' := hothers.mem hreader
      refine Refines.step (triple_writeCard card reader c _ _ others') ?_
      rintro _ _ rfl
      simp only [decide_eq_true_eq]
      refine (refines_yubikeyVerify none (Multiset.mem_cons_self _ _)
        (Multiset.mem_cons_of_mem hreader')).bind ?_
      rintro verified _ got ⟨rfl, hlost2⟩
      rcases Lost.cons hlost2 with ⟨others2, rfl, hothers2⟩
      refine Refines.step (triple_writeCard card reader _ _ _ others2) ?_
      rintro _ _ rfl
      refine refines_pure ⟨rfl, _, others2, rfl, ?_, ?_⟩
      · exact (hothers2.trans hothers).mono (by split <;> simp)
      · rintro written ⟨rfl⟩
        rfl

end

end Alloc
end UtokenDecrypt
