import UtokenDecrypt.Alloc.Card
import UtokenDecrypt.Card.Encode
import UtokenDecrypt.Card.Result

/-!
# A run, block by block

Card options, deciphering, and `doit` on blocks.  The run on blocks ends as the
one on values does, and no block is used after it was freed, or freed twice.  What is
left in the heap behind it is the reader, the card, the cleartext, and at most three
buffers.
-/

namespace UtokenDecrypt
namespace Alloc

open Foundation

/-!
## Card options
-/

section

variable {bytes key value rest : List UInt8}

theorem stringAt_append (front : List UInt8) (h : (0 : UInt8) ∉ bytes) :
    stringAt (front ++ (bytes ++ 0 :: rest)) front.length = bytes := by
  have hall : forall byte, byte ∈ bytes -> (byte != 0) = true := by
    intro byte hmem
    rw [bne_iff_ne]
    intro heq
    exact h (heq ▸ hmem)
  rw [stringAt, List.drop_left, List.takeWhile_append_of_pos hall]
  simp

/-- A string that is all of its block. -/
theorem stringAt_zero (h : (0 : UInt8) ∉ bytes) : stringAt (bytes ++ 0 :: rest) 0 = bytes :=
  stringAt_append [] h

theorem findIdx?_separator_eq_none (hbyte : (0x3d : UInt8) ∉ bytes) :
    bytes.findIdx? (· == 0x3d) = none := by
  rw [List.findIdx?_eq_none_iff]
  intro byte hmem
  rw [beq_eq_false_iff_ne]
  intro heq
  exact hbyte (heq ▸ hmem)

theorem strchr_eq_none (h : (0 : UInt8) ∉ bytes) (hbyte : (0x3d : UInt8) ∉ bytes) :
    strchr (bytes ++ [0]) 0x3d = none := by
  rw [strchr, stringAt_zero h, findIdx?_separator_eq_none hbyte]

theorem strchr_eq_some (h : (0 : UInt8) ∉ key ++ 0x3d :: value)
    (hkey : (0x3d : UInt8) ∉ key) :
    strchr (key ++ 0x3d :: value ++ [0]) 0x3d = some key.length := by
  rw [strchr, stringAt_zero h, List.findIdx?_append, findIdx?_separator_eq_none hkey]
  simp [List.findIdx?_cons]

theorem set_separator :
    (key ++ 0x3d :: value ++ [0]).set key.length 0 = key ++ 0 :: (value ++ [0]) := by
  rw [List.append_assoc, List.set_append_right _ _ (Nat.le_refl _), Nat.sub_self]
  rfl

end

section

variable {σ : Type} {pre others : Owned Block}

theorem refines_yubikeySetCardOption (card reader copy : Nat) (c : IfdCard)
    (bytes : List UInt8) (value : Option Nat) (others : Owned Block) :
    Refines ((card, .card c reader) ::ₘ (copy, .string bytes) ::ₘ others)
      (yubikeySetCardOption (σ := σ) card copy value)
      (pure (UtokenDecrypt.yubikeySetCardOption c (stringAt bytes 0)
        (value.map (stringAt bytes))))
      (CardWritten card reader 0 ((copy, .string bytes) ::ₘ others)) := by
  refine Refines.loadAs_bind (Multiset.mem_cons_of_mem (Multiset.mem_cons_self _ _)) rfl ?_
  refine Refines.loadAs_bind (Multiset.mem_cons_self _ _) rfl ?_
  dsimp only
  cases UtokenDecrypt.yubikeySetCardOption c (stringAt bytes 0) (value.map (stringAt bytes)) with
  | none =>
      exact refines_pure ⟨rfl, c, _, rfl, Lost.none _ _, fun _ hbad => by cases hbad⟩
  | some written =>
      refine Refines.store_bind (refines_pure ⟨rfl, written, _, rfl, Lost.none _ _, ?_⟩)
      rintro _ ⟨rfl⟩
      rfl

/-- The copy of an option is freed behind the driver. -/
theorem triple_freeCopy {card reader copy count : Nat} {bytes : List UInt8} {ok : Bool}
    {new : Option IfdCard} {got : Owned Block}
    (h : CardWritten card reader count ((copy, .string bytes) ::ₘ others) ok new got) :
    Triple got (Machine.free (S := Host σ) copy >>= fun _ => pure ok)
      fun ok got => CardWritten card reader count others ok new got := by
  rcases h with ⟨hok, c, left, rfl, hlost, hnew⟩
  rcases Lost.cons hlost with ⟨others', rfl, hothers⟩
  rw [Multiset.cons_swap]
  exact Triple.free_bind (triple_pure ⟨hok, c, others', rfl, hothers, hnew⟩)

/-- The strings the driver is given are those of the option. -/
theorem refines_ifdCardSetOption {card reader : Nat} (c : IfdCard) (option : CString) :
    Refines ((card, .card c reader) ::ₘ others) (ifdCardSetOption (σ := σ) card option)
      (pure (UtokenDecrypt.ifdCardSetOption c option)) (CardWritten card reader 0 others) := by
  rcases option with ⟨bytes, hnul⟩
  refine Refines.malloc_bind fun copy => ?_
  refine Refines.loadAs_bind (Multiset.mem_cons_self _ _) rfl ?_
  unfold UtokenDecrypt.ifdCardSetOption
  dsimp only
  by_cases hbyte : (0x3d : UInt8) ∈ bytes
  · rcases List.eq_append_cons_of_mem hbyte with ⟨key, value, rfl, hkey⟩
    have hkeyNul : (0 : UInt8) ∉ key := fun hmem => hnul (List.mem_append_left _ hmem)
    have hvalueNul : (0 : UInt8) ∉ value := fun hmem =>
      hnul (List.mem_append_right _ (List.mem_cons_of_mem _ hmem))
    have hvalue : stringAt (key ++ 0 :: (value ++ [0])) (key.length + 1) = value := by
      have hstring : stringAt ((key ++ [0]) ++ (value ++ 0 :: [])) (key ++ [0]).length = value :=
        stringAt_append (key ++ [0]) hvalueNul
      rw [List.length_append, List.append_assoc] at hstring
      exact hstring
    rw [strchr_eq_some hnul hkey, takeWhile_separator hkey, tail?_dropWhile_separator hkey]
    dsimp only
    rw [set_separator]
    refine Refines.store_bind ?_
    rw [Multiset.cons_swap]
    have hset := refines_yubikeySetCardOption (σ := σ) card reader copy c
      (key ++ 0 :: (value ++ [0])) (some (key.length + 1)) others
    rw [stringAt_zero hkeyNul, Option.map_some, hvalue] at hset
    exact hset.andThen fun _ _ _ hwritten => triple_freeCopy hwritten
  · rw [strchr_eq_none hnul hbyte]
    dsimp only
    rw [Multiset.cons_swap]
    have hset := refines_yubikeySetCardOption (σ := σ) card reader copy c
      (bytes ++ [0]) none others
    rw [stringAt_zero hnul, Option.map_none] at hset
    have hno : forall byte, byte ∈ bytes -> (byte != 0x3d) = true := by
      intro byte hmem
      rw [bne_iff_ne]
      intro heq
      exact hbyte (heq ▸ hmem)
    rw [List.takeWhile_eq_self_iff.mpr hno, List.dropWhile_eq_nil_iff.mpr hno]
    exact hset.andThen fun _ _ _ hwritten => triple_freeCopy hwritten

theorem refines_ifdCardSetOptions {card reader : Nat} (c : IfdCard)
    (options : List CString) :
    Refines ((card, .card c reader) ::ₘ others) (ifdCardSetOptions (σ := σ) card options)
      (pure (UtokenDecrypt.ifdCardSetOptions c options))
      (CardWritten card reader 0 others) := by
  induction options generalizing c others with
  | nil =>
      refine refines_pure ⟨rfl, c, others, rfl, Lost.none _ _, ?_⟩
      rintro _ ⟨rfl⟩
      rfl
  | cons option rest ih =>
      refine (refines_ifdCardSetOption c option).bind_value ?_
      rintro ok _ ⟨hok, c', left, rfl, hlost, hnew⟩
      rw [UtokenDecrypt.ifdCardSetOptions]
      cases hset : UtokenDecrypt.ifdCardSetOption c option with
      | none =>
          rw [hok, hset]
          exact refines_pure ⟨rfl, c', left, rfl, hlost, fun _ hbad => by cases hbad⟩
      | some written =>
          rw [hok, hset, hnew written hset]
          refine (ih written).mono ?_
          rintro x y _ ⟨hx, c2, left2, rfl, hlost2, hnew2⟩
          exact ⟨hx, c2, left2, rfl, (hlost2.trans hlost).mono (Nat.le_refl 0), hnew2⟩

/-!
## Deciphering
-/

theorem refines_yubikeyEncodeDecipherArgs (ciphertext : List UInt8) :
    Refines pre (yubikeyEncodeDecipherArgs (σ := σ) ciphertext)
      (Process.ofOutcome (UtokenDecrypt.yubikeyEncodeDecipherArgs ciphertext))
      (Both (fun addr b got => got = (addr, .buffer b) ::ₘ pre ∧
          UtokenDecrypt.yubikeyEncodeDecipherArgs ciphertext = .done (some b))
        (fun got => got = pre)) := by
  unfold yubikeyEncodeDecipherArgs UtokenDecrypt.yubikeyEncodeDecipherArgs
  by_cases hlen : encodedSize < wrap32 (ciphertext.length + 32)
  · rw [if_pos hlen, if_pos hlen]
    exact refines_pure rfl
  · rw [if_neg hlen, if_neg hlen]
    rcases yubikeyEncodeArgs ciphertext
      { encoded := List.replicate encodedSize 0, pos := encodedSize } with ⟨outcome, e⟩
    cases outcome with
    | crash => exact refines_crash
    | hang => exact refines_hang
    | done value =>
        refine Refines.malloc_bind fun result => ?_
        refine (refines_putting result _ _ pre).bindBoth_value ?_ ?_
        · rintro _ last _ hlast rfl
          dsimp only
          rw [hlast]
          exact refines_pure ⟨rfl, rfl⟩
        · rintro _ hnone rfl
          dsimp only
          rw [hnone]
          exact refines_pure ⟨rfl, rfl⟩

theorem refines_yubikeyUnwrap {rapdu : Nat} (b : Buffer) :
    Refines ((rapdu, .buffer b) ::ₘ others) (yubikeyUnwrap (σ := σ) rapdu)
      (UtokenDecrypt.yubikeyUnwrap b)
      (fun x y got => x = y.isSome ∧ exists last, got = (rapdu, .buffer last) ::ₘ others ∧
        forall cleartext, y = some cleartext -> last = cleartext) := by
  refine Refines.loadAs_bind (Multiset.mem_cons_self _ _) rfl
    (Refines.onHost_bind fun decoded => Refines.store_bind ?_)
  rcases decoded with ⟨okay, padded⟩
  cases okay with
  | false => exact refines_pure ⟨rfl, padded, rfl, fun _ hbad => by cases hbad⟩
  | true =>
      refine Refines.onHost_bind fun removed => Refines.store_bind ?_
      rcases removed with ⟨okay, cleartext⟩
      cases okay with
      | false => exact refines_pure ⟨rfl, cleartext, rfl, fun _ hbad => by cases hbad⟩
      | true =>
          refine Refines.onHost_bind fun _ => refines_pure ?_
          refine ⟨rfl, cleartext, rfl, ?_⟩
          rintro _ ⟨rfl⟩
          rfl

variable [Usbfs σ]

/-- The buffer of the last response, if there is one. -/
def responseAt (rapdu : Option Nat) (r : Option Buffer) : Owned Block :=
  match rapdu, r with
  | some rapdu, some r => {(rapdu, .buffer r)}
  | _, _ => 0

/-- How many responses are lost at most, with so many parts left to be sent. -/
def lostReplies (parts : Nat) (previous : Option Buffer) : Nat :=
  if parts = 0 then 0 else previous.toList.length + (parts - 1)

/-- What the loop over the chunks leaves: the arguments, the last response, and what
was lost. -/
def ChunksSent (data lost : Nat) (others : Owned Block) (x : Bool × Option Nat)
    (y : Option (Option Buffer)) (got : Owned Block) : Prop :=
  x.1 = y.isSome ∧ exists last r left, x.2.isSome = r.isSome ∧
    got = (data, .buffer last) ::ₘ (responseAt x.2 r + left) ∧
    Lost (if x.1 then lost else lost + 1) others left ∧
    forall result, y = some result -> r = result

omit [Usbfs σ] in
/-- A response that is not looked at again is lost. -/
theorem lost_responseAt (rapdu : Option Nat) (r : Option Buffer) (others : Owned Block) :
    Lost r.toList.length others (responseAt rapdu r + others) := by
  cases rapdu with
  | none =>
      change Lost _ others (0 + others)
      rw [Multiset.zero_add]
      exact Lost.none _ _
  | some rapdu =>
      cases r with
      | none =>
          change Lost _ others (0 + others)
          rw [Multiset.zero_add]
          exact Lost.none _ _
      | some r =>
          change Lost 1 others ({(rapdu, .buffer r)} + others)
          rw [Multiset.singleton_add]
          exact Lost.buffer rapdu r (Nat.le_refl 1) others

theorem lostReplies_some_le (parts : Nat) (r : Buffer) :
    lostReplies parts (some r) ≤ parts := by
  unfold lostReplies
  split
  · exact Nat.zero_le _
  · rw [Option.toList_some, List.length_singleton]
    lia

/-- What is left behind a chunk is a chunk less. -/
theorem chunk_rest_length {d : Buffer} (hd : d.Wf) {parts : Nat}
    (hparts : d.contents.length ≤ 255 * parts) :
    ({ d with rpos := d.rpos + min (bufferAvailable d) 0xFF } : Buffer).contents.length ≤
      255 * (parts - 1) := by
  rw [bufferSkip_contents, List.length_drop, bufferAvailable_eq hd]
  lia

theorem refines_yubikeyDecipherChunks {card reader data : Nat} {c : IfdCard}
    (algorithm : UInt8) (fuel parts : Nat) {d : Buffer} (hd : d.Wf)
    (hparts : d.contents.length ≤ 255 * parts) (rapdu : Option Nat) (r : Option Buffer)
    (hr : rapdu.isSome = r.isSome)
    (hcard : (card, .card c reader) ∈ others) (hreader : (reader, Block.reader) ∈ others) :
    Refines ((data, .buffer d) ::ₘ (responseAt rapdu r + others))
      (yubikeyDecipherChunks (σ := σ) card algorithm c.keySlot fuel data rapdu)
      (UtokenDecrypt.yubikeyDecipherChunks c algorithm fuel d r)
      (ChunksSent data (lostReplies parts r) others) := by
  induction fuel generalizing parts d rapdu r others with
  | zero => exact refines_hang
  | succ fuel ih =>
      refine Refines.loadAs_bind (Multiset.mem_cons_self _ _) rfl ?_
      refine Refines.ite (fun _ => ?_) fun hmore => ?_
      · refine refines_pure ⟨rfl, d, r, others, hr, rfl, Lost.none _ _, ?_⟩
        rintro _ ⟨rfl⟩
        rfl
      · rw [bufferAvailable_eq hd] at hmore
        have hheld := lost_responseAt rapdu r others
        have hone : lostReplies parts r = r.toList.length + (parts - 1) :=
          if_neg (by lia)
        have hcard' : (card, .card c reader) ∈
            (data, .buffer d) ::ₘ (responseAt rapdu r + others) :=
          Multiset.mem_cons_of_mem (Multiset.mem_add.mpr (Or.inr hcard))
        have hreader' : (reader, Block.reader) ∈
            (data, .buffer d) ::ₘ (responseAt rapdu r + others) :=
          Multiset.mem_cons_of_mem (Multiset.mem_add.mpr (Or.inr hreader))
        refine (refines_sendAndFree (refines_ifdBuildApdu _ _ _ _ _ _)
          fun apdu b _ hsub hapdu =>
            refines_ifdCardXfer (hsub hcard') (hsub hreader') hapdu).bindBoth ?_ ?_
        · rintro ⟨rapdu2, sw⟩ ⟨r2, sw'⟩ _ ⟨rfl, rfl⟩
          dsimp only
          rw [Multiset.cons_swap]
          refine Refines.ite (fun _ => ?_) fun _ => ?_
          · have hle : min (bufferAvailable d) 0xFF ≤ d.contents.length := by
              rw [bufferAvailable_eq hd]
              exact Nat.min_le_left _ _
            have hskip := bufferSkip_eq_some hd hle
            refine (refines_putting data d _ _).bindBoth_value ?_ fun _ hnone _ => ?_
            · rintro _ last _ hlast rfl
              rw [hskip] at hlast ⊢
              cases hlast
              refine (ih (parts - 1) (bufferSkip_wf hd hle) (chunk_rest_length hd hparts)
                (some rapdu2) (some r2) rfl (hheld.mem hcard) (hheld.mem hreader)).mono ?_
              rintro x y _ ⟨hx, last, r3, left, hr3, rfl, hlost, hy⟩
              refine ⟨hx, last, r3, left, hr3, rfl, (hlost.trans hheld).mono ?_, hy⟩
              have hnext := lostReplies_some_le (parts - 1) r2
              rw [hone]
              split <;> lia
            · rw [hskip] at hnone
              cases hnone
          · refine refines_pure ⟨rfl, d, some r2, responseAt rapdu r + others, rfl, rfl, ?_, ?_⟩
            · exact hheld.mono (by rw [if_neg (by simp), hone]; lia)
            · intro _ hbad
              cases hbad
        · intro got hlost
          rcases Lost.cons hlost with ⟨left, rfl, hleft⟩
          refine refines_pure ⟨rfl, d, none, left, rfl, ?_, ?_, fun _ hbad => by cases hbad⟩
          · exact congrArg _ (Multiset.zero_add left).symm
          · exact (hleft.trans hheld).mono (by rw [if_neg (by simp), hone]; lia)

/-- What deciphering makes of the heap: there is the cleartext, or nothing new; some
replies may be lost. -/
def Deciphered (lost : Nat) (pre : Owned Block) :
    Option Nat -> Option Buffer -> Owned Block -> Prop :=
  Both (fun addr cleartext got => exists left,
      got = (addr, .buffer cleartext) ::ₘ left ∧ Lost lost pre left)
    (Lost (lost + 1) pre)

omit [Usbfs σ] in
/-- A last response that is not the cleartext is freed. -/
theorem triple_freeResponse {rapdu : Option Nat} {r : Option Buffer} {left : Owned Block}
    (hr : rapdu.isSome = r.isSome) :
    Triple (responseAt rapdu r + left)
      (Machine.freePointer (S := Host σ) rapdu >>= fun _ => pure (none : Option Nat))
      fun x got => x = none ∧ got = left := by
  cases rapdu with
  | none =>
      refine triple_pure ⟨rfl, ?_⟩
      change 0 + left = left
      exact Multiset.zero_add left
  | some rapdu =>
      cases r with
      | none => cases hr
      | some r => exact Triple.free_bind (triple_pure ⟨rfl, rfl⟩)

omit [Usbfs σ] in
/-- The steps behind the loop: the last response is unwrapped, the arguments are freed,
and so is the response if it is not the cleartext. -/
theorem refines_unwrapSent {data lost : Nat} {sent : Option (Option Buffer)}
    {x : Bool × Option Nat} {pre : Owned Block}
    (h : ChunksSent data lost others x sent pre) :
    Refines pre
      (do
        let clear ← unwrapSent (σ := σ) x.1 x.2
        bufferFree data
        if clear then pure x.2
        else do
          Machine.freePointer x.2
          pure none)
      (sent.elim (pure none) fun rapdu => rapdu.elim Process.crash UtokenDecrypt.yubikeyUnwrap)
      (Deciphered lost others) := by
  rcases x with ⟨ok, rapdu⟩
  rcases h with ⟨hok, last, r, left, hr, rfl, hlost, hresult⟩
  cases sent with
  | none =>
      rw [show ok = false from hok] at hlost ⊢
      refine Refines.free_bind ((triple_freeResponse hr).refines ?_)
      rintro _ _ ⟨rfl, rfl⟩
      exact hlost
  | some result =>
      rw [show ok = true from hok] at hlost ⊢
      rw [hresult result rfl] at hr ⊢
      cases rapdu with
      | none =>
          cases result with
          | none => exact refines_crash
          | some r => cases hr
      | some rapdu =>
          cases result with
          | none => cases hr
          | some r =>
              change Refines ((data, .buffer last) ::ₘ (rapdu, .buffer r) ::ₘ left)
                (yubikeyUnwrap rapdu >>= _) (UtokenDecrypt.yubikeyUnwrap r) _
              rw [Multiset.cons_swap]
              refine (refines_yubikeyUnwrap r).andThen ?_
              rintro clear cleartext _ ⟨rfl, final, rfl, hfinal⟩
              rw [Multiset.cons_swap]
              refine Triple.free_bind ?_
              cases cleartext with
              | none =>
                  refine Triple.free_bind (triple_pure ?_)
                  exact hlost.mono (Nat.le_succ _)
              | some cleartext =>
                  rw [hfinal cleartext rfl]
                  exact triple_pure ⟨left, rfl, hlost⟩

theorem refines_yubikeyDecipherArgs {card reader : Nat} {c : IfdCard}
    (algorithm : UInt8) (parts : Nat) {data : Option Nat} {d : Option Buffer}
    {got : Owned Block}
    (hdata : Both (fun addr b got => got = (addr, .buffer b) ::ₘ others ∧ b.Wf ∧
      b.contents.length ≤ 255 * parts) (fun got => got = others) data d got)
    (hcard : (card, .card c reader) ∈ others) (hreader : (reader, Block.reader) ∈ others) :
    Refines got (yubikeyDecipherArgs (σ := σ) card algorithm c.keySlot data)
      (UtokenDecrypt.yubikeyDecipherArgs c algorithm d)
      (Deciphered (lostReplies parts none) others) := by
  cases data with
  | none =>
      cases d with
      | none => exact refines_crash
      | some d => cases hdata
  | some data =>
      cases d with
      | none => cases hdata
      | some d =>
          rcases hdata with ⟨rfl, hd, hparts⟩
          refine Refines.loadAs_bind (Multiset.mem_cons_self _ _) rfl ?_
          have hchunks : Refines ((data, .buffer d) ::ₘ (responseAt none none + others))
              (yubikeyDecipherChunks (σ := σ) card algorithm c.keySlot
                (bufferAvailable d + 1) data none) _ _ :=
            refines_yubikeyDecipherChunks algorithm _ parts hd hparts none none rfl hcard
              hreader
          rw [show responseAt none none + others = others from Multiset.zero_add others]
            at hchunks
          refine hchunks.bind ?_
          rintro x sent got hsent
          have htail := refines_unwrapSent (σ := σ) hsent
          cases sent with
          | none => exact htail
          | some rapdu =>
              cases rapdu with
              | none => exact htail
              | some rapdu => exact htail

/-- At most the reply to the first of two parts is lost where there is a cleartext. -/
theorem refines_yubikeyDecipher {card reader ciphertext : Nat} {c : IfdCard} (b : Buffer)
    (hciphertext : (ciphertext, .buffer b) ∈ pre)
    (hcard : (card, .card c reader) ∈ pre) (hreader : (reader, Block.reader) ∈ pre) :
    Refines pre (yubikeyDecipher (σ := σ) card ciphertext) (UtokenDecrypt.yubikeyDecipher c b)
      (Deciphered 1 pre) := by
  refine Refines.loadAs_bind hcard rfl ?_
  refine Refines.loadAs_bind hciphertext rfl ?_
  refine (refines_whenDebug2 ((refines_onHost _).mono fun _ _ _ hsame => hsame.2)).bind ?_
  rintro _ _ _ rfl
  cases halgorithm : yubikeyAlgorithm (bufferAvailable b) with
  | none => exact refines_pure (Lost.none _ _)
  | some algorithm =>
      have hlen : bufferAvailable b ≤ 256 := by
        unfold yubikeyAlgorithm at halgorithm
        grind
      refine (refines_yubikeyEncodeDecipherArgs _).bind ?_
      intro data d got hargs
      refine refines_yubikeyDecipherArgs algorithm 2 (hargs.mono ?_ fun hgot => hgot) hcard
        hreader
      rintro addr b' ⟨rfl, hb'⟩
      have htake := List.length_take_le (bufferAvailable b) (bufferReadPointer b)
      have hfits : ((bufferReadPointer b).take (bufferAvailable b)).length ≤ 992 := by lia
      rcases yubikeyEncodeDecipherArgs_eq hfits with ⟨d', hd', hwf, hcontents⟩
      have hargsLen := decipherArgsBytes_length_le ((bufferReadPointer b).take
        (bufferAvailable b))
      rw [hb'] at hd'
      cases hd'
      exact ⟨rfl, hwf, by rw [hcontents]; lia⟩

/-!
## The whole run
-/

/-- What a run makes of the heap.  The cleartext is there, if there is one; behind it
are the reader, the card and at most two buffers, and where there is no cleartext, no
more than five blocks. -/
def RunEnds (pre : Owned Block) : Option Nat -> Option Buffer -> Owned Block -> Prop :=
  Both (fun addr cleartext got => exists reader card c left,
      got = (addr, .buffer cleartext) ::ₘ (card, .card c reader) ::ₘ
        (reader, .reader) ::ₘ left ∧ Lost 2 pre left)
    (fun got => exists left : Owned Block, got = left + pre ∧ left.card ≤ 5)

omit [Usbfs σ] in
theorem runEnds_none {card reader : Nat} {c : IfdCard} {left : Owned Block}
    (h : Lost 3 ((reader, .reader) ::ₘ pre) left) :
    RunEnds pre none none ((card, .card c reader) ::ₘ left) := by
  rcases Lost.cons h with ⟨left', rfl, lost, rfl, hcard, _⟩
  refine ⟨(card, .card c reader) ::ₘ (reader, .reader) ::ₘ lost, ?_, ?_⟩
  · rw [Multiset.cons_add, Multiset.cons_add]
  · rw [Multiset.card_cons, Multiset.card_cons]
    lia

theorem refines_doitDecipher {card reader ciphertext : Nat} {c : IfdCard} (b : Buffer)
    {left : Owned Block} (hciphertext : (ciphertext, .buffer b) ∈ pre)
    (hlost : Lost 1 ((reader, .reader) ::ₘ pre) left) :
    Refines ((card, .card c reader) ::ₘ left) (yubikeyDecipher (σ := σ) card ciphertext)
      (UtokenDecrypt.yubikeyDecipher c b) (RunEnds pre) := by
  have hreader : (reader, Block.reader) ∈ left := hlost.mem (Multiset.mem_cons_self _ _)
  have htext : (ciphertext, .buffer b) ∈ left :=
    hlost.mem (Multiset.mem_cons_of_mem hciphertext)
  refine (refines_yubikeyDecipher b (Multiset.mem_cons_of_mem htext)
    (Multiset.mem_cons_self _ _) (Multiset.mem_cons_of_mem hreader)).mono ?_
  intro x y got hdeciphered
  cases x with
  | none =>
      cases y with
      | some y => cases hdeciphered
      | none =>
          rcases Lost.cons hdeciphered with ⟨left', rfl, hleft'⟩
          exact runEnds_none (hleft'.trans hlost)
  | some x =>
      cases y with
      | none => cases hdeciphered
      | some y =>
          rcases hdeciphered with ⟨got', rfl, hgot'⟩
          rcases Lost.cons hgot' with ⟨left', rfl, hleft'⟩
          rcases Lost.cons (hleft'.trans hlost) with ⟨others', rfl, hothers'⟩
          exact ⟨reader, card, c, others', rfl, hothers'⟩

/-- The run behind the connection to the card. -/
theorem refines_doitVerify {card reader ciphertext : Nat} {c : IfdCard}
    (pin : Option CString) (b : Buffer) {left : Owned Block}
    (hciphertext : (ciphertext, .buffer b) ∈ pre)
    (hlost : Lost 1 ((reader, .reader) ::ₘ pre) left) :
    Refines ((card, .card c reader) ::ₘ left)
      (pin.elim (yubikeyDecipher (σ := σ) card ciphertext) fun pin => do
        let verified ← yubikeyVerify card (some pin)
        if verified.rv then yubikeyDecipher card ciphertext else pure none)
      (pin.elim (UtokenDecrypt.yubikeyDecipher c b) fun pin => do
        let verified ← UtokenDecrypt.yubikeyVerify c (some pin)
        if verified.rv then UtokenDecrypt.yubikeyDecipher c b else pure none)
      (RunEnds pre) := by
  cases pin with
  | none => exact refines_doitDecipher b hciphertext hlost
  | some pin =>
      have hreader : (reader, Block.reader) ∈ left := hlost.mem (Multiset.mem_cons_self _ _)
      refine (refines_yubikeyVerify (some pin) (Multiset.mem_cons_self _ _)
        (Multiset.mem_cons_of_mem hreader)).bind ?_
      rintro verified _ got ⟨rfl, hverify⟩
      rcases Lost.cons hverify with ⟨left', rfl, hleft'⟩
      refine Refines.ite (fun hrv => ?_) fun hrv => ?_
      · rw [if_pos hrv] at hleft'
        exact refines_doitDecipher b hciphertext (hleft'.trans hlost)
      · rw [if_neg hrv] at hleft'
        exact refines_pure (runEnds_none ((hleft'.trans hlost).mono (by simp)))

theorem refines_doit (pin : Option CString) {ciphertext : Nat} (b : Buffer)
    (cardopts : List CString) (hciphertext : (ciphertext, .buffer b) ∈ pre) :
    Refines pre (doit (σ := σ) pin ciphertext cardopts)
      (UtokenDecrypt.doit pin b cardopts) (RunEnds pre) := by
  refine refines_ccidReaderCreate.bind ?_
  rintro x y got (⟨reader, rfl, rfl, rfl⟩ | ⟨rfl, rfl, left, rfl, hleft⟩)
  · have hreader : (reader, Block.reader) ∈ (reader, .reader) ::ₘ pre :=
      Multiset.mem_cons_self _ _
    refine Refines.bindSame (refines_ccidReaderSelectSlot 0 hreader) fun selected => ?_
    -- what is left when the run ends before there is a card
    have hend : RunEnds pre none none ((reader, .reader) ::ₘ pre) :=
      ⟨{(reader, .reader)}, (Multiset.singleton_add _ _).symm, by simp⟩
    refine Refines.ite (fun _ => ?_) fun _ => refines_pure hend
    refine (refines_ccidReaderIdentifyCard 0 hreader).bindBoth ?_ ?_
    · rintro card c _ rfl
      refine (refines_ifdCardSetOptions c cardopts).bind_value ?_
      rintro set _ ⟨hset, c', left, rfl, hlost, hc'⟩
      rw [Option.bind_some]
      cases hoptions : UtokenDecrypt.ifdCardSetOptions c cardopts with
      | none =>
          rw [hset, hoptions]
          exact refines_pure (runEnds_none (hlost.mono (Nat.zero_le _)))
      | some written =>
          rw [hset, hoptions, hc' written hoptions]
          refine (refines_yubikeyConnect written
            (hlost.mem (Multiset.mem_cons_self _ _))).bind ?_
          rintro connected y _ ⟨hconnected, c2, left2, rfl, hlost2, hc2⟩
          have hall := hlost2.trans hlost
          cases y with
          | none =>
              rw [hconnected]
              exact refines_pure (runEnds_none (hall.mono (by simp)))
          | some card2 =>
              rw [hconnected, hc2 card2 rfl]
              cases pin with
              | none => exact refines_doitVerify none b hciphertext hall
              | some pin => exact refines_doitVerify (some pin) b hciphertext hall
    · rintro _ rfl
      exact refines_pure hend
  · exact refines_pure ⟨left, rfl, by lia⟩

/-- The buffer that a pointer points to. -/
def bufferAt (m : Machine (Host σ) Block) (addr : Nat) : Option Buffer :=
  (m.heap.find addr).bind Block.buffer?

/-- A run on blocks makes no fault, whatever the device does: it never uses or frees a
block that is not there.  It ends in the way and in the state in which the run on values
ends, and the pointer it returns points to the cleartext. -/
theorem doit_memorySafe (pin : Option CString) (cardopts : List CString) {ciphertext : Nat}
    {b : Buffer} {m : Machine (Host σ) Block}
    (h : (ciphertext, .buffer b) ∈ m.heap.live) :
    exists outcome t, doit pin ciphertext cardopts m = (outcome, t) ∧ t.faults = m.faults ∧
      UtokenDecrypt.doit pin b cardopts m.host =
        (outcome.map fun returned => returned.bind (bufferAt t), t.host) := by
  have hmatches := refines_doit pin b cardopts h m 0 (Multiset.add_zero _).symm
  rcases hlow : doit pin ciphertext cardopts m with ⟨outcome, t⟩
  rcases hhigh : UtokenDecrypt.doit pin b cardopts m.host with ⟨other, s⟩
  rw [hlow, hhigh] at hmatches
  refine ⟨outcome, t, rfl, ?_⟩
  cases hmatches with
  | crash hfaults => exact ⟨hfaults, rfl⟩
  | hang hfaults => exact ⟨hfaults, rfl⟩
  | @done x y _ got hends hlive hfaults =>
      refine ⟨hfaults, ?_⟩
      cases x with
      | none =>
          cases y with
          | none => rfl
          | some y => cases hends
      | some x =>
          cases y with
          | none => cases hends
          | some y =>
              rcases hends with ⟨reader, card, c, left, rfl, _⟩
              have hfind : t.heap.find x = some (.buffer y) :=
                Heap.find_of_mem (hlive ▸ Multiset.mem_add.mpr
                  (Or.inl (Multiset.mem_cons_self _ _)))
              rw [Outcome.map_done, Option.bind_some, bufferAt, hfind]
              rfl

/-- What a run that returns leaves behind, besides what was there before: with a
cleartext the reader, the card and at most two buffers, and otherwise at most five
blocks. -/
theorem doit_leaves (pin : Option CString) (cardopts : List CString) {ciphertext : Nat}
    {b : Buffer} {m : Machine (Host σ) Block}
    (h : (ciphertext, .buffer b) ∈ m.heap.live) :
    (forall addr t, doit pin ciphertext cardopts m = (.done (some addr), t) ->
      exists cleartext reader card c, exists left : Owned Block,
        t.heap.live = (addr, .buffer cleartext) ::ₘ (card, .card c reader) ::ₘ
          (reader, .reader) ::ₘ (left + m.heap.live) ∧
        left.card ≤ 2 ∧ forall cell, cell ∈ left -> exists bp, cell.2 = .buffer bp) ∧
    (forall t, doit pin ciphertext cardopts m = (.done none, t) ->
      exists left : Owned Block, t.heap.live = left + m.heap.live ∧ left.card ≤ 5) := by
  have hrefines := refines_doit (σ := σ) pin b cardopts h
  constructor
  · intro addr t hrun
    rcases hrefines.returned hrun with ⟨cleartext, hends⟩
    cases cleartext with
    | none => cases hends
    | some cleartext =>
        rcases hends with ⟨reader, card, c, left, hlive, lost, rfl, hcount, hbuffers⟩
        exact ⟨cleartext, reader, card, c, lost, hlive, hcount, hbuffers⟩
  · intro t hrun
    rcases hrefines.returned hrun with ⟨cleartext, hends⟩
    cases cleartext with
    | none => exact hends
    | some cleartext => cases hends

end

/-!
## A run with a card that decrypts
-/

/-- The program in front of `doit`, with a token that answers. -/
def answeringMachine : Machine (Host Script) Block where
  host := answeringHost
  heap := Heap.empty.alloc (.buffer (someCiphertext 128))

theorem doit_memorySafe_answered :
    exists addr t, doit (some somePin) 0 [] answeringMachine = (.done (some addr), t) ∧
      t.faults = answeringMachine.faults ∧
      UtokenDecrypt.doit (some somePin) (someCiphertext 128) [] answeringHost =
        (.done (bufferAt t addr), t.host) := by
  have hreturns : (UtokenDecrypt.doit (some somePin) (someCiphertext 128) []
      answeringHost).1.map Option.isSome = .done true := by decide +kernel
  rcases doit_memorySafe (some somePin) [] (m := answeringMachine)
    (Multiset.mem_singleton_self _) with ⟨outcome, t, hrun, hfaults, hvalue⟩
  have hsame : answeringMachine.host = answeringHost := rfl
  rw [hsame] at hvalue
  rw [hvalue] at hreturns
  cases outcome with
  | crash => cases hreturns
  | hang => cases hreturns
  | done returned =>
      cases returned with
      | none => cases hreturns
      | some addr => exact ⟨addr, t, hrun, hfaults, hvalue⟩

theorem doit_leaves_answered :
    exists addr t cleartext reader card c, exists left : Owned Block,
      doit (some somePin) 0 [] answeringMachine = (.done (some addr), t) ∧
      t.heap.live = (addr, .buffer cleartext) ::ₘ (card, .card c reader) ::ₘ
        (reader, .reader) ::ₘ (left + answeringMachine.heap.live) ∧
      left.card ≤ 2 ∧ forall cell, cell ∈ left -> exists bp, cell.2 = .buffer bp := by
  have hreturns : (doit (some somePin) 0 [] answeringMachine).1.map Option.isSome =
      .done true := by decide +kernel
  rcases hrun : doit (some somePin) 0 [] answeringMachine with ⟨outcome, t⟩
  rw [hrun] at hreturns
  cases outcome with
  | crash => cases hreturns
  | hang => cases hreturns
  | done returned =>
      cases returned with
      | none => cases hreturns
      | some addr =>
          rcases (doit_leaves (some somePin) [] (m := answeringMachine)
            (Multiset.mem_singleton_self _)).1 addr t hrun with
            ⟨cleartext, reader, card, c, left, hlive, hcount, hbuffers⟩
          exact ⟨addr, t, cleartext, reader, card, c, left, rfl, hlive, hcount, hbuffers⟩

end Alloc
end UtokenDecrypt
