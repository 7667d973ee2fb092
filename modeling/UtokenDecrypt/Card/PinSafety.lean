import UtokenDecrypt.Card.Run

/-!
# PIN safety

A card counts the wrong PINs it is given, and locks itself.  The main result is
about all APDUs a run of `doit` sends to it, whatever the device answers:
there is at most one that carries a PIN, and the key is not used before the card
has said that all is well.
-/

namespace UtokenDecrypt

open Foundation

/-!
## Kinds of APDUs
-/

def IsSelect (apdu : List UInt8) : Bool :=
  apdu.getD 1 0 == ykpivInsSelectApplication

/-- A `VERIFY` with a data field. -/
def IsPinVerify (apdu : List UInt8) : Bool :=
  apdu.getD 1 0 == ykpivInsVerify && decide (5 < apdu.length)

def IsGetResponse (apdu : List UInt8) : Bool :=
  apdu.getD 1 0 == ifdInsGetResponseApdu

/-- An APDU of the kind is sent in the exchange. -/
def CardXfer.Sends (x : CardXfer) (kind : List UInt8 -> Bool) : Prop :=
  exists round, round ∈ x.rounds ∧ kind round.apdu = true

/-- What holds of the exchanges of a run, in their order. -/
structure PinSafe (pin : Option CString) (xfers : List CardXfer) : Prop where
  onePin : (((cardRounds xfers).map ApduCall.apdu).filter IsPinVerify).length ≤ 1
  padded : forall round, round ∈ cardRounds xfers -> IsPinVerify round.apdu = true ->
    exists given, pin = some given ∧ given.bytes.length ≤ 8 ∧
      round.apdu.drop 5 = paddedPin given.bytes
  allowed : forall front x back, xfers = front ++ x :: back -> x.Sends IsAuthenticate ->
    (exists y, y ∈ front ∧ y.Sends IsSelect ∧ y.Succeeded) ∧
    forall given, pin = some given ->
      exists y, y ∈ front ∧ y.Sends IsPinVerify ∧ y.Succeeded
  stops : forall front x back, xfers = front ++ x :: back -> x.Sends IsAuthenticate ->
    ¬ x.Succeeded -> back = []
  asked : forall front round back, cardRounds xfers = front ++ round :: back ->
    IsGetResponse round.apdu = true ->
      exists before prev p, front = before ++ [prev] ∧
        prev.reply = .done (some (ReplyApdu.bytes p)) ∧ p.sw1 = 0x61 ∧
        round.apdu.getD 4 0 = p.sw2

/-!
## Safety
-/

theorem CardXfer.Made.round_cases {size : Nat} {x : CardXfer} (h : x.Made size)
    {kind : List UInt8 -> Bool} (hkind : forall p, kind (getResponseApdu p) = false)
    {round : ApduCall} (hmem : round ∈ x.rounds) (hround : kind round.apdu = true) :
    round.apdu = x.apdu := by
  rcases h with ⟨reached, last, hexchange⟩
  rcases hexchange.round_cases hmem with heq | ⟨p, _, heq⟩
  · exact heq
  · rw [heq, hkind] at hround
    cases hround

theorem CardXfer.Made.sends_iff {size : Nat} {x : CardXfer} (h : x.Made size)
    {kind : List UInt8 -> Bool} (hkind : forall p, kind (getResponseApdu p) = false) :
    x.Sends kind ↔ kind x.apdu = true := by
  constructor
  · intro hsends
    rcases hsends with ⟨round, hmem, hround⟩
    rw [← h.round_cases hkind hmem hround]
    exact hround
  · intro hfirst
    rcases h with ⟨reached, last, hexchange⟩
    have hmem : x.apdu ∈ x.rounds.map ApduCall.apdu := by
      rw [hexchange.apdus]
      exact List.mem_cons_self
    rcases List.mem_map.mp hmem with ⟨round, hround, heq⟩
    exact ⟨round, hround, by rw [heq]; exact hfirst⟩

theorem filter_cardRounds {size : Nat} {xs : List CardXfer}
    (h : forall x, x ∈ xs -> x.Made size) {kind : List UInt8 -> Bool}
    (hkind : forall p, kind (getResponseApdu p) = false) :
    ((cardRounds xs).map ApduCall.apdu).filter kind =
      (xs.map CardXfer.apdu).filter kind := by
  induction xs with
  | nil => rfl
  | cons x xs ih =>
      rcases h x List.mem_cons_self with ⟨reached, last, hexchange⟩
      have hrest := ih fun y hmem => h y (List.mem_cons_of_mem _ hmem)
      rw [cardRounds] at hrest
      rw [cardRounds, List.flatMap_cons, List.map_append, List.filter_append, hrest,
        filter_exchange hexchange kind hkind, ← List.filter_append]
      rfl

/-- Where a `GET RESPONSE` is sent the reply before asked for it. -/
theorem CardExchange.asked {size : Nat} {first : List UInt8}
    {calls : List ApduCall} {outcome : Outcome (Option (List UInt8 × Nat))}
    {reached : List ReplyApdu} {last : Outcome (Option (List UInt8))}
    (h : CardExchange size [] first calls outcome reached last)
    (hfirst : IsGetResponse first = false) {front back : List ApduCall}
    {round : ApduCall} (hsplit : calls = front ++ round :: back)
    (hround : IsGetResponse round.apdu = true) :
    exists before prev p, front = before ++ [prev] ∧
      prev.reply = .done (some (ReplyApdu.bytes p)) ∧ p.sw1 = 0x61 ∧
      round.apdu.getD 4 0 = p.sw2 := by
  rcases List.eq_nil_or_concat front with hnil | ⟨before, prev, hfront⟩
  · have hapdus := h.apdus
    rw [hsplit, hnil, List.nil_append, List.map_cons] at hapdus
    rw [(List.cons.inj hapdus).1, hfirst] at hround
    cases hround
  · rw [List.concat_eq_append] at hfront
    have hapdu := congrArg (fun xs => xs[before.length + 1]?) h.apdus
    have hreply := congrArg (fun xs => xs[before.length]?) h.replies
    rw [hsplit, hfront] at hapdu hreply
    simp only [List.append_assoc, List.singleton_append, List.map_append, List.map_cons,
      List.getElem?_cons_succ] at hapdu hreply
    rw [List.getElem?_append_right (by simp)] at hapdu hreply
    simp only [List.length_map, Nat.add_sub_cancel_left, Nat.sub_self,
      List.getElem?_cons_succ, List.getElem?_cons_zero] at hapdu hreply
    rcases List.getElem?_eq_some_iff.mp hapdu.symm with ⟨hlt, hget⟩
    rw [List.length_map] at hlt
    rw [List.getElem_map] at hget
    rw [List.getElem?_append_left (by rw [List.length_map]; exact hlt),
      List.getElem?_map, List.getElem?_eq_getElem hlt, Option.map_some] at hreply
    refine ⟨before, prev, reached[before.length], hfront, ?_,
      h.more _ (List.getElem_mem hlt), ?_⟩
    · injection hreply
    · rw [← hget]
      rfl

/-- A member of a kind is not in front of those that are not. -/
theorem split_behind {α : Type} {first second front back : List α} {x : α}
    (h : first ++ second = front ++ x :: back) (hx : x ∉ first) :
    exists mid, front = first ++ mid ∧ second = mid ++ x :: back := by
  rcases List.append_eq_append_iff.mp h with ⟨mid, hfront, hsecond⟩ | ⟨mid, hfirst, hback⟩
  · exact ⟨mid, hfront, hsecond⟩
  · cases mid with
    | nil =>
        rw [List.append_nil] at hfirst
        rw [List.nil_append] at hback
        exact ⟨[], by rw [hfirst, List.append_nil], hback.symm⟩
    | cons y mid =>
        rw [List.cons_append] at hback
        rw [hfirst, (List.cons.inj hback).1] at hx
        exact absurd (List.mem_append_right _ List.mem_cons_self) hx

theorem cardRounds_asked {size : Nat} {xs : List CardXfer}
    (h : forall x, x ∈ xs -> x.Made size ∧ IsGetResponse x.apdu = false)
    {front back : List ApduCall} {round : ApduCall}
    (hsplit : cardRounds xs = front ++ round :: back)
    (hround : IsGetResponse round.apdu = true) :
    exists before prev p, front = before ++ [prev] ∧
      prev.reply = .done (some (ReplyApdu.bytes p)) ∧ p.sw1 = 0x61 ∧
      round.apdu.getD 4 0 = p.sw2 := by
  induction xs generalizing front with
  | nil => exact eq_nil_of_split_nil hsplit
  | cons x xs ih =>
      rw [cardRounds, List.flatMap_cons] at hsplit
      rcases h x List.mem_cons_self with ⟨⟨reached, last, hexchange⟩, hfirst⟩
      rcases List.append_eq_append_iff.mp hsplit with
        ⟨mid, hfront, hrest⟩ | ⟨mid, hrounds, hback⟩
      · rcases ih (fun y hmem => h y (List.mem_cons_of_mem _ hmem)) hrest with
          ⟨before, prev, p, hmid, hprev⟩
        exact ⟨x.rounds ++ before, prev, p,
          by rw [hfront, hmid, List.append_assoc], hprev⟩
      · cases mid with
        | nil =>
            rw [List.append_nil] at hrounds
            rw [List.nil_append] at hback
            rcases ih (fun y hmem => h y (List.mem_cons_of_mem _ hmem))
              (hback.symm.trans (List.nil_append _).symm) with ⟨before, prev, p, hnil, _⟩
            exact absurd hnil.symm (List.append_ne_nil_of_right_ne_nil _ (List.cons_ne_nil _ _))
        | cons y mid =>
            rw [List.cons_append] at hback
            rw [← (List.cons.inj hback).1] at hrounds
            exact hexchange.asked hfirst hrounds hround

/-!
Each part of a run has its own kinds of APDUs.
-/

section

variable {pin : Option CString} {connect verify decipher : List CardXfer}

theorem RunParts.connect_kinds (h : RunParts pin connect verify decipher)
    {x : CardXfer} (hx : x ∈ connect) :
    IsPinVerify x.apdu = false ∧ IsAuthenticate x.apdu = false ∧
      IsGetResponse x.apdu = false := by
  cases h.connects x hx with
  | inl hselect =>
      rw [hselect]
      decide
  | inr hverify =>
      rw [hverify]
      decide

theorem UseParts.verify_kinds (h : UseParts pin verify decipher) {x : CardXfer}
    (hx : x ∈ verify) :
    IsPinVerify x.apdu = true ∧ IsAuthenticate x.apdu = false ∧
      IsGetResponse x.apdu = false := by
  rcases h.verifies x hx with ⟨given, hpin, hle, hapdu⟩
  have hlength := paddedPin_length hle
  rw [hapdu, hpin]
  refine ⟨?_, rfl, rfl⟩
  simp [IsPinVerify, verifyApdu, hlength]
  rfl

theorem UseParts.decipher_kinds (h : UseParts pin verify decipher) {x : CardXfer}
    (hx : x ∈ decipher) :
    IsPinVerify x.apdu = false ∧ IsGetResponse x.apdu = false := by
  have hins := eq_of_beq (h.deciphers x hx)
  unfold IsPinVerify IsGetResponse
  rw [hins]
  exact ⟨rfl, rfl⟩

/-- An `AUTHENTICATE` has the parts before it behind it. -/
theorem RunParts.authenticate_behind (h : RunParts pin connect verify decipher)
    {front back : List CardXfer} {x : CardXfer}
    (hsplit : connect ++ (verify ++ decipher) = front ++ x :: back)
    (hauth : IsAuthenticate x.apdu = true) :
    exists mid, front = connect ++ verify ++ mid ∧ decipher = mid ++ x :: back := by
  rw [← List.append_assoc] at hsplit
  apply split_behind hsplit
  intro hx
  cases List.mem_append.mp hx with
  | inl hconnect =>
      rw [(h.connect_kinds hconnect).2.1] at hauth
      cases hauth
  | inr hverify =>
      rw [(h.use.verify_kinds hverify).2.1] at hauth
      cases hauth

theorem RunParts.pinSafe {size : Nat} (h : RunParts pin connect verify decipher)
    (hmade : forall x, x ∈ connect ++ (verify ++ decipher) -> x.Made size) :
    PinSafe pin (connect ++ (verify ++ decipher)) where
  onePin := by
    have hconnect : (connect.map CardXfer.apdu).filter IsPinVerify = [] := by
      rw [List.filter_eq_nil_iff]
      intro apdu hmem
      rcases List.mem_map.mp hmem with ⟨x, hx, rfl⟩
      rw [(h.connect_kinds hx).1]
      exact Bool.false_ne_true
    have hdecipher : (decipher.map CardXfer.apdu).filter IsPinVerify = [] := by
      rw [List.filter_eq_nil_iff]
      intro apdu hmem
      rcases List.mem_map.mp hmem with ⟨x, hx, rfl⟩
      rw [(h.use.decipher_kinds hx).1]
      exact Bool.false_ne_true
    rw [filter_cardRounds hmade (fun _ => rfl), List.map_append, List.map_append,
      List.filter_append, List.filter_append, hconnect, hdecipher, List.nil_append,
      List.append_nil]
    refine Nat.le_trans (List.length_filter_le _ _) ?_
    rw [List.length_map]
    exact h.use.verify_le
  padded := by
    intro round hmem hround
    rcases List.mem_flatMap.mp hmem with ⟨x, hx, hrounds⟩
    have hapdu := (hmade x hx).round_cases (fun _ => rfl) hrounds hround
    rw [hapdu] at hround ⊢
    cases List.mem_append.mp hx with
    | inl hconnect =>
        rw [(h.connect_kinds hconnect).1] at hround
        cases hround
    | inr hrest =>
        cases List.mem_append.mp hrest with
        | inl hverify =>
            rcases h.use.verifies x hverify with ⟨given, hpin, hle, heq⟩
            refine ⟨given, hpin, hle, ?_⟩
            rw [heq, hpin]
            rfl
        | inr hdecipher =>
            rw [(h.use.decipher_kinds hdecipher).1] at hround
            cases hround
  allowed := by
    intro front x back hsplit hsends
    have hauth := ((hmade x (by rw [hsplit]; simp)).sends_iff (fun _ => rfl)).mp hsends
    rcases h.authenticate_behind hsplit hauth with ⟨mid, hfront, hdecipher⟩
    have hne : decipher ≠ [] := by
      rw [hdecipher]
      simp
    rw [hfront]
    constructor
    · rcases h.selected hne with ⟨y, hy, hselect, hsucceeded⟩
      refine ⟨y, by simp [hy], ?_, hsucceeded⟩
      rw [(hmade y (List.mem_append_left _ hy)).sends_iff (fun _ => rfl), hselect]
      rfl
    · intro given hpin
      rcases h.use.verified hne given hpin with ⟨y, hy, hsucceeded⟩
      refine ⟨y, by simp [hy], ?_, hsucceeded⟩
      rw [(hmade y (by simp [hy])).sends_iff (fun _ => rfl)]
      exact (h.use.verify_kinds hy).1
  stops := by
    intro front x back hsplit hsends hfail
    have hauth := ((hmade x (by rw [hsplit]; simp)).sends_iff (fun _ => rfl)).mp hsends
    rcases h.authenticate_behind hsplit hauth with ⟨mid, _, hdecipher⟩
    exact h.use.stops mid x back hdecipher hfail
  asked := by
    intro front round back hsplit hround
    refine cardRounds_asked (fun x hx => ⟨hmade x hx, ?_⟩) hsplit hround
    cases List.mem_append.mp hx with
    | inl hconnect => exact (h.connect_kinds hconnect).2.2
    | inr hrest =>
        cases List.mem_append.mp hrest with
        | inl hverify => exact (h.use.verify_kinds hverify).2.2
        | inr hdecipher => exact (h.use.decipher_kinds hdecipher).2

end

section

variable {σ : Type} [Usbfs σ]

/-- Whatever the device answers: setting up sends nothing to the card, then come
the exchanges of a run, and these are safe. -/
theorem doit_pinSafe (pin : Option CString) (ciphertext : Buffer)
    (cardopts : List CString) (s : Host σ) :
    exists start xfers,
      SetsUp 5 s start ∧
      Transfers 0 start xfers (doit pin ciphertext cardopts s).2 ∧
      sentApdus (doit pin ciphertext cardopts s).2.log =
        sentApdus s.log ++ (cardRounds xfers).map ApduCall.apdu ∧
      PinSafe pin xfers := by
  rcases doit_ensures pin ciphertext cardopts s with
    ⟨start, connect, verify, decipher, hstart, hxfers, hparts⟩
  refine ⟨start, connect ++ (verify ++ decipher), hstart, hxfers, ?_,
    hparts.pinSafe hxfers.made⟩
  rw [hxfers.sentApdus, hstart.sentApdus]

end

end UtokenDecrypt
