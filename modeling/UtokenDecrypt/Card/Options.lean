import UtokenDecrypt.Card.Yubikey
import UtokenDecrypt.Foundation.Attempt

/-!
# The key slot option

`yubikey_set_card_option` and `ifd_card_set_option` as they work on the card
they are given.  The key slot is read as an `unsigned long`, cut to an
`unsigned int`, checked and then kept in a byte: a number of more than 32 bits
is checked by its low half only.
-/

namespace UtokenDecrypt

open Foundation

/-!
## The code, statement by statement
-/

namespace IfdCard

/-- The card is not touched before all tests have been passed. -/
def yubikeySetCardOption (key : List UInt8) (value : Option (List UInt8)) :
    Attempt IfdCard :=
  match value with
  | none => Attempt.refuse fun _ => true
  | some value =>
      if key = "key-slot".toUTF8.toList then
        let got := strtoul16 value
        let keySlot := wrap32 got.1
        (Attempt.refuse fun _ => decide (got.2 ≠ [])).andThen
        ((Attempt.refuse fun _ => decide (keySlot = 0 ∨ keySlot ≥ 0xFF)).andThen
        (Attempt.assign fun card => { card with keySlot := UInt8.ofNat keySlot }))
      else Attempt.refuse fun _ => true

def ifdCardSetOption (option : CString) : Attempt IfdCard :=
  let key := option.bytes.takeWhile (· != 0x3d)
  let value := (option.bytes.dropWhile (· != 0x3d)).tail?
  yubikeySetCardOption key value

end IfdCard

/-!
## What it is for
-/

def keySlotPrefix : List UInt8 :=
  "key-slot=".toUTF8.toList

/-- The option gives a key slot, and `v` is the number that is written there. -/
def GivesKeySlot (option : CString) (v : Int) : Prop :=
  exists value, option.bytes = keySlotPrefix ++ value ∧ hexNumber? value = some v

/-- The option is taken exactly if it gives a key slot that there can be, which
is then the one of the card; any other leaves the card alone. -/
structure SetsKeySlot (card : IfdCard) (option : CString) : Prop where
  accepts : (IfdCard.ifdCardSetOption option card).1 = true ↔
    exists v, GivesKeySlot option v ∧ 1 ≤ v ∧ v ≤ 0xFE
  sets : (IfdCard.ifdCardSetOption option card).1 = true ->
    forall v, GivesKeySlot option v ->
      (IfdCard.ifdCardSetOption option card).2 = { card with keySlot := UInt8.ofNat v.toNat }
  unchanged : (IfdCard.ifdCardSetOption option card).1 = false ->
    (IfdCard.ifdCardSetOption option card).2 = card

/-- A number that is not a key slot does not look like one when it is cut to 32
bits either, unless it has more than 64 bits. -/
def KeySlotFits (option : CString) : Prop :=
  forall v, GivesKeySlot option v -> v.natAbs < 2 ^ 64 ->
    1 ≤ v % 2 ^ 32 -> v % 2 ^ 32 ≤ 0xFE -> 1 ≤ v ∧ v ≤ 0xFE

/-!
## When an option is taken
-/

theorem wrap32_ulongOfInt (v : Int) :
    wrap32 (ulongOfInt v) =
      if 2 ^ 64 ≤ v.natAbs then 2 ^ 32 - 1 else (v % 2 ^ 32).toNat := by
  unfold wrap32 ulongOfInt
  split <;> lia

theorem keySlotPrefix_eq : keySlotPrefix = "key-slot".toUTF8.toList ++ [0x3d] := by
  decide +kernel

theorem not_mem_keySlot : (0x3d : UInt8) ∉ "key-slot".toUTF8.toList := by
  decide +kernel

/-- The tests on the value of a key slot. -/
theorem yubikeySetCardOption_value (value : List UInt8) (card : IfdCard) :
    IfdCard.yubikeySetCardOption "key-slot".toUTF8.toList (some value) card =
      if (strtoul16 value).2 ≠ [] ∨ wrap32 (strtoul16 value).1 = 0 ∨
          wrap32 (strtoul16 value).1 ≥ 0xFF then (false, card)
      else (true,
        { card with keySlot := UInt8.ofNat (wrap32 (strtoul16 value).1) }) := by
  have hatomic := ((Attempt.atomic_assign fun card : IfdCard =>
    { card with keySlot := UInt8.ofNat (wrap32 (strtoul16 value).1) }).refuse_first
      fun _ => decide (wrap32 (strtoul16 value).1 = 0 ∨
        wrap32 (strtoul16 value).1 ≥ 0xFF)).refuse_andThen
          fun _ => decide ((strtoul16 value).2 ≠ [])
  have hcard := hatomic card
  simp only [Bool.or_eq_true, decide_eq_true_iff] at hcard
  unfold IfdCard.yubikeySetCardOption
  dsimp only
  rw [if_pos rfl]
  exact hcard

/-- The functional model of the option is the one of the statements. -/
theorem ifdCardSetOption_eq (option : CString) (card : IfdCard) :
    IfdCard.ifdCardSetOption option card =
      (UtokenDecrypt.ifdCardSetOption card option).elim (false, card) fun after =>
        (true, after) := by
  unfold IfdCard.ifdCardSetOption UtokenDecrypt.ifdCardSetOption
  cases (option.bytes.dropWhile (· != 0x3d)).tail? with
  | none => rfl
  | some value =>
      by_cases hkey : option.bytes.takeWhile (· != 0x3d) = "key-slot".toUTF8.toList
      · dsimp only
        rw [hkey, yubikeySetCardOption_value, UtokenDecrypt.yubikeySetCardOption]
        dsimp only
        rw [if_pos rfl]
        by_cases hrest : (strtoul16 value).2 ≠ []
        · rw [if_pos (Or.inl hrest), if_pos hrest]
          rfl
        · rw [if_neg hrest]
          simp only [hrest, false_or]
          split <;> rfl
      · simp only [IfdCard.yubikeySetCardOption, UtokenDecrypt.yubikeySetCardOption,
          if_neg hkey]
        rfl

/-- An option without that key, or without a value. -/
theorem ifdCardSetOption_refused {option : CString}
    (h : forall value, option.bytes ≠ keySlotPrefix ++ value) (card : IfdCard) :
    IfdCard.ifdCardSetOption option card = (false, card) := by
  unfold IfdCard.ifdCardSetOption IfdCard.yubikeySetCardOption
  cases hvalue : (option.bytes.dropWhile (· != 0x3d)).tail? with
  | none => rfl
  | some value =>
      have hsplit := eq_append_of_separator hvalue
      have hkey : option.bytes.takeWhile (· != 0x3d) ≠ "key-slot".toUTF8.toList := by
        intro hkey
        rw [hkey] at hsplit
        refine h value ?_
        rw [hsplit, keySlotPrefix_eq, List.append_assoc]
        rfl
      dsimp only
      rw [if_neg hkey]
      rfl

theorem ifdCardSetOption_value {option : CString} {value : List UInt8}
    (h : option.bytes = keySlotPrefix ++ value) (card : IfdCard) :
    IfdCard.ifdCardSetOption option card =
      if (strtoul16 value).2 ≠ [] ∨ wrap32 (strtoul16 value).1 = 0 ∨
          wrap32 (strtoul16 value).1 ≥ 0xFF then (false, card)
      else (true,
        { card with keySlot := UInt8.ofNat (wrap32 (strtoul16 value).1) }) := by
  have hbytes : option.bytes = "key-slot".toUTF8.toList ++ 0x3d :: value := by
    rw [h, keySlotPrefix_eq, List.append_assoc]
    rfl
  rw [IfdCard.ifdCardSetOption, hbytes, takeWhile_separator not_mem_keySlot,
    tail?_dropWhile_separator not_mem_keySlot]
  exact yubikeySetCardOption_value value card

/-- A key slot that is given is cut to 32 bits before it is checked. -/
theorem ifdCardSetOption_given {option : CString} {v : Int}
    (h : GivesKeySlot option v) (card : IfdCard) :
    IfdCard.ifdCardSetOption option card =
      if v.natAbs < 2 ^ 64 ∧ 1 ≤ v % 2 ^ 32 ∧ v % 2 ^ 32 ≤ 0xFE then
        (true, { card with keySlot := UInt8.ofNat (v % 2 ^ 32).toNat })
      else (false, card) := by
  rcases h with ⟨value, hbytes, hnumber⟩
  rw [ifdCardSetOption_value hbytes, strtoul16_of_hexNumber hnumber]
  dsimp only
  rw [wrap32_ulongOfInt]
  by_cases hbig : 2 ^ 64 ≤ v.natAbs
  · rw [if_pos hbig, if_pos (by decide), if_neg (by lia)]
  · rw [if_neg hbig]
    by_cases hok : v.natAbs < 2 ^ 64 ∧ 1 ≤ v % 2 ^ 32 ∧ v % 2 ^ 32 ≤ 0xFE
    · rw [if_pos hok, if_neg]
      simp only [ne_eq, not_true_eq_false, false_or]
      lia
    · rw [if_neg hok, if_pos]
      simp only [ne_eq, not_true_eq_false, false_or]
      lia

theorem ifdCardSetOption_no_number {option : CString} {value : List UInt8}
    (h : option.bytes = keySlotPrefix ++ value) (hnone : hexNumber? value = none)
    (card : IfdCard) : IfdCard.ifdCardSetOption option card = (false, card) := by
  rw [ifdCardSetOption_value h, if_pos]
  by_cases hempty : value = []
  · rw [hempty]
    exact Or.inr (Or.inl rfl)
  · exact Or.inl (strtoul16_rest_ne_nil hnone hempty)

theorem GivesKeySlot.unique {option : CString} {v w : Int}
    (h1 : GivesKeySlot option v) (h2 : GivesKeySlot option w) : v = w := by
  rcases h1 with ⟨first, hfirst, hv⟩
  rcases h2 with ⟨second, hsecond, hw⟩
  rw [hfirst] at hsecond
  have hsame := List.append_cancel_left hsecond
  rw [← hsame, hv] at hw
  injection hw

theorem ifdCardSetOption_not_given {option : CString}
    (h : forall v, ¬ GivesKeySlot option v) (card : IfdCard) :
    IfdCard.ifdCardSetOption option card = (false, card) := by
  by_cases hprefix : exists value, option.bytes = keySlotPrefix ++ value
  · rcases hprefix with ⟨value, hbytes⟩
    cases hnumber : hexNumber? value with
    | none => exact ifdCardSetOption_no_number hbytes hnumber card
    | some v => exact absurd ⟨value, hbytes, hnumber⟩ (h v)
  · exact ifdCardSetOption_refused (fun value hbytes => hprefix ⟨value, hbytes⟩) card

/-!
## Several options
-/

/-- An option that gives a key slot, as far as it is looked at. -/
def OptionTaken (option : CString) : Prop :=
  exists v, GivesKeySlot option v ∧ v.natAbs < 2 ^ 64 ∧ 1 ≤ v % 2 ^ 32 ∧ v % 2 ^ 32 ≤ 0xFE

theorem ifdCardSetOption_isSome_iff (card : IfdCard) (option : CString) :
    (ifdCardSetOption card option).isSome ↔ OptionTaken option := by
  have hrun := ifdCardSetOption_eq option card
  by_cases hgives : exists v, GivesKeySlot option v
  · rcases hgives with ⟨v, hgiven⟩
    rw [ifdCardSetOption_given hgiven card] at hrun
    cases hset : ifdCardSetOption card option with
    | none =>
        rw [hset, Option.elim_none] at hrun
        refine iff_of_false Bool.false_ne_true fun htaken => ?_
        rcases htaken with ⟨w, hw, hbounds⟩
        rw [hw.unique hgiven] at hbounds
        rw [if_pos hbounds] at hrun
        cases (Prod.mk.inj hrun).1
    | some written =>
        rw [hset, Option.elim_some] at hrun
        refine iff_of_true rfl ⟨v, hgiven, ?_⟩
        by_contra hbounds
        rw [if_neg hbounds] at hrun
        cases (Prod.mk.inj hrun).1
  · rw [ifdCardSetOption_not_given (fun v hv => hgives ⟨v, hv⟩) card] at hrun
    cases hset : ifdCardSetOption card option with
    | none =>
        refine iff_of_false Bool.false_ne_true fun htaken => ?_
        rcases htaken with ⟨v, hv, _⟩
        exact hgives ⟨v, hv⟩
    | some written =>
        rw [hset, Option.elim_some] at hrun
        cases (Prod.mk.inj hrun).1

theorem ifdCardSetOptions_isSome_iff (card : IfdCard) (options : List CString) :
    (ifdCardSetOptions card options).isSome ↔
      forall option, option ∈ options -> OptionTaken option := by
  induction options generalizing card with
  | nil => exact iff_of_true rfl fun _ hmem => (List.not_mem_nil hmem).elim
  | cons option rest ih =>
      rw [List.forall_mem_cons, ← ifdCardSetOption_isSome_iff card option]
      change ((ifdCardSetOption card option).bind fun next =>
        ifdCardSetOptions next rest).isSome ↔ _
      cases ifdCardSetOption card option with
      | none => exact iff_of_false Bool.false_ne_true fun hall => Bool.false_ne_true hall.1
      | some next =>
          rw [Option.bind_some, ih next]
          exact (and_iff_right rfl).symm

/-!
## One option
-/

/-- The key slot is set as the option says if and only if no other number is
taken for one. -/
theorem ifdCardSetOption_setsKeySlot_iff (card : IfdCard) (option : CString) :
    SetsKeySlot card option ↔ KeySlotFits option := by
  constructor
  · intro h v hgiven habs hlow hhigh
    have hrun := ifdCardSetOption_given hgiven card
    rw [if_pos ⟨habs, hlow, hhigh⟩] at hrun
    rcases h.accepts.mp (by rw [hrun]) with ⟨w, hw, hbounds⟩
    rw [hgiven.unique hw]
    exact hbounds
  · intro h
    by_cases hgives : exists v, GivesKeySlot option v
    · rcases hgives with ⟨v, hgiven⟩
      have hrun := ifdCardSetOption_given hgiven card
      have hiff : (exists w, GivesKeySlot option w ∧ 1 ≤ w ∧ w ≤ 0xFE) ↔
          1 ≤ v ∧ v ≤ 0xFE := by
        constructor
        · intro hw
          rcases hw with ⟨w, hw, hbounds⟩
          rw [hgiven.unique hw]
          exact hbounds
        · exact fun hbounds => ⟨v, hgiven, hbounds⟩
      by_cases hok : v.natAbs < 2 ^ 64 ∧ 1 ≤ v % 2 ^ 32 ∧ v % 2 ^ 32 ≤ 0xFE
      · have hbounds := h v hgiven hok.1 hok.2.1 hok.2.2
        rw [if_pos hok] at hrun
        refine ⟨?_, ?_, ?_⟩
        · rw [hrun, hiff]
          simp only [true_iff]
          exact hbounds
        · intro _ w hw
          rw [hrun, hw.unique hgiven, Int.emod_eq_of_lt (by lia) (by lia)]
        · intro hfalse
          rw [hrun] at hfalse
          cases hfalse
      · rw [if_neg hok] at hrun
        refine ⟨?_, ?_, fun _ => by rw [hrun]⟩
        · rw [hrun, hiff]
          simp only [Bool.false_eq_true, false_iff]
          lia
        · intro htrue
          rw [hrun] at htrue
          cases htrue
    · have hrun := ifdCardSetOption_not_given (fun v hv => hgives ⟨v, hv⟩) card
      refine ⟨?_, ?_, fun _ => by rw [hrun]⟩
      · rw [hrun]
        simp only [Bool.false_eq_true, false_iff]
        intro hw
        rcases hw with ⟨w, hw, _⟩
        exact hgives ⟨w, hw⟩
      · intro htrue
        rw [hrun] at htrue
        cases htrue

/-- Nine digits, the low eight of which are a key slot. -/
def longKeySlot : CString where
  bytes := "key-slot=100000001".toUTF8.toList
  noNul := by decide +kernel

theorem not_setsKeySlot_long :
    ¬ forall (card : IfdCard) (option : CString), SetsKeySlot card option := by
  intro h
  have hgiven : GivesKeySlot longKeySlot 0x100000001 :=
    ⟨"100000001".toUTF8.toList, by decide +kernel, by decide +kernel⟩
  let card := ifdCardAlloc atrYubikey4 "YubiKey 4" .yubikey4 0
  have hrun : (IfdCard.ifdCardSetOption longKeySlot card).1 = true := by
    decide +kernel
  rcases (h card longKeySlot).accepts.mp hrun with ⟨v, hv, _, hle⟩
  rw [hv.unique hgiven] at hle
  exact absurd hle (by decide)

end UtokenDecrypt
