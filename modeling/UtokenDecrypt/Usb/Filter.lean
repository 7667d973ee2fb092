import UtokenDecrypt.Foundation.Slice
import UtokenDecrypt.Foundation.Strtoul

/-!
# The device filter

`usb_parse_type` and `usb_match_type` of `usb.c`, with the reading of a
hexadecimal attribute from sysfs.  A vendor and a product number are kept in 16
bits each, and 0 stands for any.  What is read for them is an `unsigned long`,
and nothing looks at its size, nor at whether there was a number at all.
-/

namespace UtokenDecrypt
namespace Usb

open Foundation

/-!
## The code
-/

structure UusbType where
  idVendor : UInt16
  idProduct : UInt16
deriving DecidableEq

/-- The text before the first colon, and the one after it. -/
def filterVendor (string : List UInt8) : List UInt8 :=
  string.takeWhile (· != 0x3a)

def filterProduct (string : List UInt8) : Option (List UInt8) :=
  (string.dropWhile (· != 0x3a)).tail?

def usbParseType (string : List UInt8) : Option UusbType :=
  let vendor := strtoul16 (filterVendor string)
  if vendor.2 ≠ [] then none
  else
    match filterProduct string with
    | none => some { idVendor := UInt16.ofNat vendor.1, idProduct := 0 }
    | some text =>
        let product := strtoul16 text
        if product.2 ≠ [] then none
        else some {
          idVendor := UInt16.ofNat vendor.1
          idProduct := UInt16.ofNat product.1 }

/-- The first line of an attribute file, if it can be read: `fgets` takes 1023
bytes at most, and a NUL ends the string. -/
def sysfsReadLine (file : Option (List UInt8)) : Option (List UInt8) :=
  match file with
  | none => none
  | some [] => none
  | some content =>
      some ((content.take 1023).takeWhile fun c => c != 0x0a && c != 0x0d && c != 0)

def sysfsReadHexadecimal (file : Option (List UInt8)) : Nat :=
  match sysfsReadLine file with
  | none => 0xFFFFFFFF
  | some line =>
      let result := strtoul16 line
      if result.2 ≠ [] ∨ result.1 ≥ 0xFFFFFFFF then 0xFFFFFFFF
      else result.1

/-- The attribute files of a device. -/
structure SysfsDir where
  idVendor : Option (List UInt8)
  idProduct : Option (List UInt8)

def usbMatchType (sysfsDir : SysfsDir) (type : UusbType) : Bool :=
  if type.idVendor ≠ 0 ∧ type.idVendor.toNat ≠ sysfsReadHexadecimal sysfsDir.idVendor then
    false
  else if type.idProduct ≠ 0 ∧
      type.idProduct.toNat ≠ sysfsReadHexadecimal sysfsDir.idProduct then
    false
  else true

/-!
## Devices
-/

/-- The numbers of a device, where they can be read. -/
structure UsbIds where
  idVendor : Option UInt16
  idProduct : Option UInt16

/-- The hexadecimal digit of a number below 16. -/
def hexChar (d : Nat) : UInt8 :=
  if d < 10 then UInt8.ofNat (0x30 + d) else UInt8.ofNat (0x57 + d)

/-- An attribute as the kernel prints it, with four digits and a newline. -/
def idAttribute (id : UInt16) : List UInt8 :=
  [hexChar (id.toNat / 4096), hexChar (id.toNat / 256 % 16),
    hexChar (id.toNat / 16 % 16), hexChar (id.toNat % 16), 0x0a]

def UsbIds.sysfsDir (ids : UsbIds) : SysfsDir where
  idVendor := ids.idVendor.map idAttribute
  idProduct := ids.idProduct.map idAttribute

/-!
## What a filter means
-/

/-- A text that spells a number of 16 bits. -/
def SpellsId (text : List UInt8) (v : Int) : Prop :=
  hexNumber? text = some v ∧ 0 ≤ v ∧ v ≤ 0xFFFF

/-- A number that is written in a filter lets an identifier through. -/
def LetsThrough (v : Int) (id : Option UInt16) : Prop :=
  v = 0 ∨ exists n, id = some n ∧ v = n.toNat

/-- A filter that is taken is made of numbers of 16 bits, and accepts the
devices that have these numbers. -/
structure FilterMeans (string : List UInt8) : Prop where
  vendor : forall type, usbParseType string = some type ->
    exists v, SpellsId (filterVendor string) v
  product : forall type text, usbParseType string = some type ->
    filterProduct string = some text -> exists v, SpellsId text v
  accepts : forall type (ids : UsbIds) v, usbParseType string = some type ->
    hexNumber? (filterVendor string) = some v ->
    (usbMatchType ids.sysfsDir type = true ↔
      LetsThrough v ids.idVendor ∧
        forall text p, filterProduct string = some text -> hexNumber? text = some p ->
          LetsThrough p ids.idProduct)

/-- The text could be a number for the code: it is empty, or spells one. -/
def Readable (text : List UInt8) : Prop :=
  text = [] ∨ exists v, hexNumber? text = some v

/-- If both texts of the filter are readable, neither of them is empty, negative
or too large. -/
def FilterFits (string : List UInt8) : Prop :=
  Readable (filterVendor string) ->
    (forall text, filterProduct string = some text -> Readable text) ->
      (exists v, SpellsId (filterVendor string) v) ∧
        forall text, filterProduct string = some text -> exists v, SpellsId text v

/-!
## Reading an attribute
-/

theorem hexDigit?_hexChar :
    forall d, d < 16 -> hexDigit? (hexChar d) = some d := by
  decide

theorem isHexDigit_hexChar {d : Nat} (h : d < 16) : isHexDigit (hexChar d) = true := by
  rw [isHexDigit, hexDigit?_hexChar d h]
  rfl

theorem hexChar_in_line :
    forall d, d < 16 ->
      (hexChar d != 0x0a && hexChar d != 0x0d && hexChar d != 0) = true := by
  decide

/-- The digits of an identifier. -/
def idDigits (id : UInt16) : List UInt8 :=
  [hexChar (id.toNat / 4096), hexChar (id.toNat / 256 % 16),
    hexChar (id.toNat / 16 % 16), hexChar (id.toNat % 16)]

theorem sysfsReadLine_idAttribute (id : UInt16) :
    sysfsReadLine (some (idAttribute id)) = some (idDigits id) := by
  have hid := id.toNat_lt
  simp only [sysfsReadLine, idAttribute, idDigits, List.take_succ_cons, List.take_nil,
    List.takeWhile_cons, hexChar_in_line _ (by lia : id.toNat / 4096 < 16),
    hexChar_in_line _ (by lia : id.toNat / 256 % 16 < 16),
    hexChar_in_line _ (by lia : id.toNat / 16 % 16 < 16),
    hexChar_in_line _ (by lia : id.toNat % 16 < 16)]
  rfl

theorem hexNumber?_idDigits (id : UInt16) :
    hexNumber? (idDigits id) = some (id.toNat : Int) := by
  have hid := id.toNat_lt
  have hvalue : hexValue (idDigits id) = id.toNat := by
    simp only [hexValue, idDigits, List.foldl_cons, List.foldl_nil,
      hexDigit?_hexChar _ (by lia : id.toNat / 4096 < 16),
      hexDigit?_hexChar _ (by lia : id.toNat / 256 % 16 < 16),
      hexDigit?_hexChar _ (by lia : id.toNat / 16 % 16 < 16),
      hexDigit?_hexChar _ (by lia : id.toNat % 16 < 16), Option.getD_some]
    lia
  rw [hexNumber?_digits (by simp [idDigits]), hvalue]
  intro c hmem
  simp only [idDigits, List.mem_cons, List.not_mem_nil, or_false] at hmem
  rcases hmem with h | h | h | h <;> rw [h] <;> exact isHexDigit_hexChar (by lia)

theorem ulongOfInt_natCast {n : Nat} (h : n < 2 ^ 64) : ulongOfInt n = n := by
  unfold ulongOfInt
  rw [if_neg (by lia)]
  lia

/-- An attribute is read as the identifier, or as a number no identifier has. -/
theorem sysfsReadHexadecimal_map (id : Option UInt16) :
    sysfsReadHexadecimal (id.map idAttribute) =
      id.elim 0xFFFFFFFF fun n => n.toNat := by
  cases id with
  | none => rfl
  | some n =>
      have hn := n.toNat_lt
      have hread := strtoul16_of_hexNumber (hexNumber?_idDigits n)
      rw [ulongOfInt_natCast (by lia)] at hread
      rw [Option.map_some, sysfsReadHexadecimal, sysfsReadLine_idAttribute]
      simp only [hread]
      rw [if_neg (by
        simp only [ne_eq, not_true_eq_false, false_or]
        lia)]
      rfl

theorem toNat_eq_sysfsRead_iff (n : UInt16) (id : Option UInt16) :
    n.toNat = sysfsReadHexadecimal (id.map idAttribute) ↔ id = some n := by
  have hn := n.toNat_lt
  rw [sysfsReadHexadecimal_map]
  cases id with
  | none =>
      simp only [Option.elim_none, reduceCtorEq, iff_false]
      lia
  | some m =>
      simp only [Option.elim_some, Option.some.injEq, UInt16.toNat_inj]
      exact eq_comm

theorem usbMatchType_iff (ids : UsbIds) (type : UusbType) :
    usbMatchType ids.sysfsDir type = true ↔
      (type.idVendor = 0 ∨ ids.idVendor = some type.idVendor) ∧
        (type.idProduct = 0 ∨ ids.idProduct = some type.idProduct) := by
  have hvendor := toNat_eq_sysfsRead_iff type.idVendor ids.idVendor
  have hproduct := toNat_eq_sysfsRead_iff type.idProduct ids.idProduct
  unfold usbMatchType UsbIds.sysfsDir
  dsimp only
  simp only [ne_eq, hvendor, hproduct]
  split
  · rename_i h
    simp only [Bool.false_eq_true, false_iff]
    intro hboth
    cases hboth.1 with
    | inl hzero => exact h.1 hzero
    | inr hsame => exact h.2 hsame
  · rename_i hfirst
    split
    · rename_i h
      simp only [Bool.false_eq_true, false_iff]
      intro hboth
      cases hboth.2 with
      | inl hzero => exact h.1 hzero
      | inr hsame => exact h.2 hsame
    · rename_i hsecond
      simp only [true_iff]
      exact ⟨by tauto, by tauto⟩

/-!
## Parsing a filter
-/

/-- The number that is kept for a text. -/
def keptId (text : List UInt8) : UInt16 :=
  UInt16.ofNat (strtoul16 text).1

theorem usbParseType_eq_some_iff (string : List UInt8) (type : UusbType) :
    usbParseType string = some type ↔
      Readable (filterVendor string) ∧
        (forall text, filterProduct string = some text -> Readable text) ∧
        type = { idVendor := keptId (filterVendor string)
                 idProduct := (filterProduct string).elim 0 keptId } := by
  have hreadable : forall text, Readable text ↔ (strtoul16 text).2 = [] :=
    fun text => (strtoul16_whole_iff text).symm
  unfold usbParseType
  dsimp only
  by_cases hvendor : (strtoul16 (filterVendor string)).2 = []
  · rw [if_neg (by simpa using hvendor)]
    cases hproduct : filterProduct string with
    | none =>
        simp only [hreadable, hvendor, Option.some.injEq, Option.elim_none, true_and,
          reduceCtorEq, false_implies, implies_true]
        exact eq_comm
    | some text =>
        by_cases htext : (strtoul16 text).2 = []
        · simp only [hreadable, hvendor, htext, ne_eq, not_true_eq_false, if_false,
            Option.some.injEq, Option.elim_some, true_and, forall_eq']
          exact eq_comm
        · simp only [hreadable, htext, ne_eq, not_false_eq_true, if_true, reduceCtorEq,
            Option.some.injEq, forall_eq', false_and, and_false]
  · rw [if_pos hvendor]
    simp only [hreadable, hvendor, reduceCtorEq, false_and]

theorem keptId_eq {text : List UInt8} {v : Int} (h : SpellsId text v) :
    (keptId text).toNat = v.toNat := by
  rcases h with ⟨hnumber, hlow, hhigh⟩
  rw [keptId, strtoul16_of_hexNumber hnumber]
  change (UInt16.ofNat (ulongOfInt v)).toNat = v.toNat
  rw [UInt16.toNat_ofNat', ulongOfInt, if_neg (by lia)]
  lia

/-- What a kept number lets through. -/
theorem letsThrough_iff {text : List UInt8} {v : Int} (h : SpellsId text v)
    (id : Option UInt16) :
    LetsThrough v id ↔ keptId text = 0 ∨ id = some (keptId text) := by
  have hkept := keptId_eq h
  have hlow := h.2.1
  have hzero : v = 0 ↔ keptId text = 0 := by
    rw [← UInt16.toNat_inj, hkept]
    change v = 0 ↔ v.toNat = 0
    lia
  rw [LetsThrough, hzero]
  apply or_congr Iff.rfl
  constructor
  · intro hid
    rcases hid with ⟨n, hn, hv⟩
    rw [hn, Option.some.injEq, ← UInt16.toNat_inj, hkept]
    lia
  · intro hid
    exact ⟨keptId text, hid, by lia⟩

/-- A filter means what it says if and only if no other text is taken for a
number of 16 bits. -/
theorem filterMeans_iff (string : List UInt8) :
    FilterMeans string ↔ FilterFits string := by
  constructor
  · intro h hvendor hproduct
    have hparse := (usbParseType_eq_some_iff string _).mpr ⟨hvendor, hproduct, rfl⟩
    exact ⟨h.vendor _ hparse, fun text htext => h.product _ text hparse htext⟩
  · intro h
    have hspells : forall type, usbParseType string = some type ->
        (exists v, SpellsId (filterVendor string) v) ∧
          forall text, filterProduct string = some text -> exists v, SpellsId text v := by
      intro type hparse
      rcases (usbParseType_eq_some_iff string type).mp hparse with ⟨hv, hp, _⟩
      exact h hv hp
    refine ⟨fun type hparse => (hspells type hparse).1,
      fun type text hparse htext => (hspells type hparse).2 text htext, ?_⟩
    intro type ids v hparse hnumber
    rcases hspells type hparse with ⟨⟨w, hw⟩, hproduct⟩
    have hsame : w = v := by
      have hboth := hw.1
      rw [hnumber] at hboth
      injection hboth with hboth
      exact hboth.symm
    subst hsame
    rcases (usbParseType_eq_some_iff string type).mp hparse with ⟨_, _, htype⟩
    rw [usbMatchType_iff, htype, letsThrough_iff hw]
    apply and_congr Iff.rfl
    cases htext : filterProduct string with
    | none =>
        simp only [Option.elim_none, true_or, reduceCtorEq, false_implies, implies_true]
    | some text =>
        rcases hproduct text htext with ⟨p, hp⟩
        rw [Option.elim_some]
        constructor
        · intro hkept other q hother hq
          injection hother with hother
          rw [← hother, hp.1] at hq
          injection hq with hq
          rw [← hq, letsThrough_iff hp]
          exact hkept
        · intro hall
          exact (letsThrough_iff hp _).mp (hall text p rfl hp.1)

/-- A vendor number of 17 bits, whose low 16 bits are 0. -/
theorem not_filterMeans_wide : ¬ forall string, FilterMeans string := by
  intro h
  have hparse : usbParseType "10000".toUTF8.toList = some { idVendor := 0, idProduct := 0 } := by
    decide +kernel
  rcases (h _).vendor _ hparse with ⟨v, hv, _, hle⟩
  have hnumber : hexNumber? (filterVendor "10000".toUTF8.toList) = some 0x10000 := by
    decide +kernel
  rw [hnumber] at hv
  injection hv with hv
  rw [← hv] at hle
  exact absurd hle (by decide)

end Usb
end UtokenDecrypt
