import Mathlib.Data.Nat.Digits.Lemmas
import UtokenDecrypt.Foundation.Calls
import UtokenDecrypt.Foundation.Slice
import UtokenDecrypt.Usb.Filter
import UtokenDecrypt.Util

/-!
# Octets as text

What the functions of `util.c` and `scard.c` print for bytes, and the
function of `util.c` that reads such a text.  The texts are put together in arrays
of `char`, and a write outside of them stops the program.
-/

namespace UtokenDecrypt

open Foundation
open Usb

/-!
## Reading octets
-/

/-- A digit at `*pos`, where a zero stands behind the string.  What follows and `*ret`
are returned also for a character that is not a digit. -/
def parseHexdigit (pos : List UInt8) (ret : UInt8) : Bool × List UInt8 × UInt8 :=
  match hexDigit? (pos.headD 0) with
  | none => (false, pos.tail, ret)
  | some octet => (true, pos.tail, ret <<< 4 ||| UInt8.ofNat octet)

def parseOctet (pos : List UInt8) (ret : UInt8) : Bool × List UInt8 × UInt8 :=
  let first := parseHexdigit pos ret
  if first.1 then parseHexdigit first.2.1 first.2.2 else first

structure OctetParser where
  string : List UInt8
  buffer : List UInt8
  i : Nat := 0

def parseOctetStringStep (bufsz : Nat) (st : OctetParser) :
    Round OctetParser (Outcome (Nat × List UInt8)) :=
  if st.string = [] then .finish (.done (st.i, st.buffer))
  else if st.i ≥ bufsz then .finish (.done (0, st.buffer))
  else if st.buffer.length ≤ st.i then .finish .crash
  else
    let octet := parseOctet st.string (st.buffer.getD st.i 0)
    let buffer := st.buffer.set st.i octet.2.2
    if octet.1 then
      .again { string := octet.2.1, buffer := buffer, i := wrap32 (st.i + 1) }
    else .finish (.done (0, buffer))

/-- The number of octets, and the buffer.  Each round that goes on takes two digits. -/
def parseOctetString (string buffer : List UInt8) (bufsz : Nat) :
    Outcome (Nat × List UInt8) :=
  (Loop.run (parseOctetStringStep bufsz) (string.length + 1)
    { string := string, buffer := buffer }).getD .hang

/-!
## Printing octets
-/

/-- `%02x` -/
def octetDigits (octet : UInt8) : List UInt8 :=
  [hexChar (octet.toNat / 16), hexChar (octet.toNat % 16)]

/-- `%04x` -/
def hexText4 (n : Nat) : List UInt8 :=
  let digits := (Nat.digits 16 n).reverse.map hexChar
  List.replicate (4 - digits.length) 0x30 ++ digits

/-- A text written to an array, with the zero behind it. -/
def sprintfAt (array : List UInt8) (pos : Nat) (text : List UInt8) : Option (List UInt8) :=
  if pos + text.length < array.length then some (overwrite array pos (text ++ [0])) else none

/-- One text behind the other. -/
def sprintfAll (array : List UInt8) (pos : Nat) : List (List UInt8) -> Option (List UInt8)
  | [] => some array
  | text :: rest => do
      let array ← sprintfAt array pos text
      sprintfAll array (pos + text.length) rest

def cText (array : List UInt8) : List UInt8 :=
  array.takeWhile (· != 0)

/-!
## The text of a dump
-/

/-- The column of an octet. -/
def octetColumn (bytes : List UInt8) (j : Nat) : List UInt8 :=
  if j < bytes.length then 0x20 :: octetDigits (bytes.getD j 0) else [0x20, 0x20, 0x20]

/-- `isalnum(cc) || ispunct(cc)` -/
def isGraphic (cc : UInt8) : Bool :=
  0x21 ≤ cc && cc ≤ 0x7e

def asciiColumn (cc : UInt8) : List UInt8 :=
  [if isGraphic cc then cc else 0x2e]

/-- `"%*.*s%04x %-96s %-s\n"` -/
def hexdumpLine (indent i : Nat) (octets ascii : List UInt8) : List UInt8 :=
  List.replicate indent 0x20 ++ hexText4 i ++
    0x20 :: (octets ++ List.replicate (96 - octets.length) 0x20) ++ 0x20 :: ascii ++ [0x0a]

structure HexdumpText where
  i : Nat := 0
  octets : List UInt8
  ascii : List UInt8
  lines : List (List UInt8) := []

def hexdumpTextStep (mem : List UInt8) (size indent : Nat) (st : HexdumpText) :
    Round HexdumpText (Outcome (List (List UInt8))) :=
  if st.i < size then
    let bytesPerLine := min 32 (wrap32 (size - st.i))
    if mem.length < st.i + bytesPerLine then .finish .crash
    else
      let bytes := slice mem st.i (st.i + bytesPerLine)
      match sprintfAll st.octets 0 ((List.range 32).map (octetColumn bytes)),
          sprintfAll st.ascii 0 (bytes.map asciiColumn) with
      | some octets, some ascii =>
          .again {
            i := wrap32 (st.i + 32)
            octets := octets
            ascii := ascii
            lines := st.lines ++ [hexdumpLine indent st.i (cText octets) (cText ascii)] }
      | _, _ => .finish .crash
  else .finish (.done st.lines)

/-- The arrays of `hexdump` as the caller's stack leaves them. -/
structure HexdumpArrays where
  octets : List UInt8
  ascii : List UInt8
  octets_length : octets.length = 32 * 3 + 1
  ascii_length : ascii.length = 32 + 1

/-- The call `hexdump(mem, size, print_fn, indent)`, with what `print_fn` is given. -/
def hexdumpText (mem : List UInt8) (size indent : Nat) (arrays : HexdumpArrays) :
    Outcome (List (List UInt8)) :=
  (Loop.run (hexdumpTextStep mem size indent) hexdumpLines
    { octets := arrays.octets, ascii := arrays.ascii }).getD .hang

/-!
## Texts in arrays
-/

theorem sprintfAt_prefix {array front text : List UInt8} (h : front <+: array)
    (hroom : front.length + text.length < array.length) :
    exists after, sprintfAt array front.length text = some after ∧
      after.length = array.length ∧ front ++ text ++ [0] <+: after := by
  refine ⟨_, if_pos hroom, ?_, ?_⟩
  · rw [overwrite_length]
    rw [List.length_append, List.length_singleton]
    lia
  · rw [overwrite, List.prefix_iff_eq_take.mp h |>.symm]
    exact ⟨_, by rw [List.append_assoc front]⟩

/-- Texts that are written behind a text that ends there. -/
theorem sprintfAll_prefix {array front : List UInt8} {texts : List (List UInt8)}
    (h : front ++ [0] <+: array)
    (hroom : front.length + texts.flatten.length < array.length) :
    exists after, sprintfAll array front.length texts = some after ∧
      after.length = array.length ∧ front ++ texts.flatten ++ [0] <+: after := by
  induction texts generalizing array front with
  | nil => exact ⟨array, rfl, rfl, by rw [List.flatten_nil, List.append_nil]; exact h⟩
  | cons text rest ih =>
      rw [List.flatten_cons, List.length_append] at hroom
      rcases sprintfAt_prefix ((List.prefix_append front [0]).trans h)
        (by lia : front.length + text.length < array.length) with
        ⟨mid, hmid, hlength, hprefix⟩
      rcases ih hprefix (by rw [hlength, List.length_append]; lia) with
        ⟨after, hafter, hlast, hall⟩
      refine ⟨after, ?_, hlast.trans hlength, ?_⟩
      · rw [sprintfAll, hmid, ← hafter, List.length_append]
        rfl
      · rw [List.flatten_cons, ← List.append_assoc front]
        exact hall

theorem cText_eq {array text : List UInt8} (h : text ++ [0] <+: array)
    (hzero : (0 : UInt8) ∉ text) : cText array = text := by
  rcases h with ⟨rest, rfl⟩
  rw [cText, List.append_assoc, List.takeWhile_append_of_pos]
  · exact List.append_nil text
  · intro c hmem
    exact bne_iff_ne.mpr fun heq => hzero (heq ▸ hmem)

/-- The texts that are written to an array from its start are the string in it. -/
theorem sprintfAll_cText {array : List UInt8} {texts : List (List UInt8)}
    (hne : texts ≠ []) (hroom : texts.flatten.length < array.length)
    (hzero : (0 : UInt8) ∉ texts.flatten) :
    exists after, sprintfAll array 0 texts = some after ∧ after.length = array.length ∧
      cText after = texts.flatten := by
  cases texts with
  | nil => exact absurd rfl hne
  | cons text rest =>
      rw [List.flatten_cons, List.length_append] at hroom
      rcases sprintfAt_prefix (List.nil_prefix (l := array))
        (by rw [List.length_nil]; lia : ([] : List UInt8).length + text.length < array.length)
        with ⟨mid, hmid, hlength, hprefix⟩
      rw [List.nil_append] at hprefix
      rw [← hlength] at hroom
      rcases sprintfAll_prefix hprefix hroom with ⟨after, hafter, hlast, hall⟩
      refine ⟨after, ?_, hlast.trans hlength, cText_eq hall hzero⟩
      rw [List.length_nil] at hmid
      rw [sprintfAll, hmid, ← hafter, Nat.zero_add]
      rfl

/-!
## Digits
-/

theorem hexChar_plain :
    forall d, d < 16 -> hexChar d ≠ 0 ∧ hexChar d ≠ 0x20 ∧ hexChar d ≠ 0x3a := by
  decide

theorem octetDigits_plain {octet c : UInt8} (h : c ∈ octetDigits octet) :
    c ≠ 0 ∧ c ≠ 0x20 ∧ c ≠ 0x3a := by
  have hlt := octet.toNat_lt
  rcases List.mem_pair.mp h with rfl | rfl
  · exact hexChar_plain _ (by lia)
  · exact hexChar_plain _ (by lia)

theorem hexText4_plain (n : Nat) {c : UInt8} (h : c ∈ hexText4 n) : c ≠ 0x20 := by
  rcases List.mem_append.mp h with hzero | hdigit
  · rw [List.eq_of_mem_replicate hzero]
    decide
  · rcases List.mem_map.mp hdigit with ⟨d, hmem, rfl⟩
    exact (hexChar_plain d (Nat.digits_lt_base (by decide) (List.mem_reverse.mp hmem))).2.1

/-- A digit is taken into the octet. -/
theorem parseHexdigit_hexChar {d : Nat} (h : d < 16) (rest : List UInt8) (ret : UInt8) :
    parseHexdigit (hexChar d :: rest) ret = (true, rest, ret <<< 4 ||| UInt8.ofNat d) := by
  rw [parseHexdigit, List.headD_cons, hexDigit?_hexChar d h]
  rfl

/-- Two digits push out what was there before. -/
theorem octet_of_halves (octet ret : UInt8) :
    (ret <<< 4 ||| UInt8.ofNat (octet.toNat / 16)) <<< 4 |||
      UInt8.ofNat (octet.toNat % 16) = octet := by
  have hlt := octet.toNat_lt
  have hlow : octet.toNat % 16 < 2 ^ 4 := Nat.mod_lt _ (by decide)
  have hgone : (ret.toNat <<< 4 % 2 ^ 8) <<< 4 % 2 ^ 8 = 0 := by
    rw [Nat.shiftLeft_eq, Nat.shiftLeft_eq]
    lia
  have hhigh : (octet.toNat / 16 % 2 ^ 8) <<< 4 % 2 ^ 8 = (octet.toNat / 16) <<< 4 := by
    rw [Nat.shiftLeft_eq, Nat.shiftLeft_eq]
    lia
  apply UInt8.toNat_inj.mp
  calc ((ret.toNat <<< 4 % 2 ^ 8 ||| octet.toNat / 16 % 2 ^ 8) <<< 4 % 2 ^ 8) |||
        octet.toNat % 16 % 2 ^ 8
      = (octet.toNat / 16) <<< 4 ||| octet.toNat % 16 := by
        rw [Nat.shiftLeft_or_distrib, Nat.or_mod_two_pow, hgone, hhigh, Nat.zero_or,
          Nat.mod_eq_of_lt (by lia : octet.toNat % 16 < 2 ^ 8)]
    _ = octet.toNat := by
        rw [← Nat.shiftLeft_add_eq_or_of_lt hlow, Nat.shiftLeft_eq]
        lia

/-- The digits of an octet are read as that octet. -/
theorem parseOctet_octetDigits (octet : UInt8) (rest : List UInt8) (ret : UInt8) :
    parseOctet (octetDigits octet ++ rest) ret = (true, rest, octet) := by
  have hlt := octet.toNat_lt
  rw [parseOctet, octetDigits, List.cons_append, List.cons_append, List.nil_append,
    parseHexdigit_hexChar (by lia)]
  dsimp only
  rw [if_pos rfl, parseHexdigit_hexChar (by lia), octet_of_halves]

theorem parseOctetStringStep_octet {octet : UInt8} {rest buffer : List UInt8}
    {bufsz i : Nat} (hi : i < bufsz) (hbufsz : bufsz ≤ buffer.length)
    (hlt : buffer.length < 2 ^ 32) :
    parseOctetStringStep bufsz
        { string := octetDigits octet ++ rest, buffer := buffer, i := i } =
      .again { string := rest, buffer := buffer.set i octet, i := i + 1 } := by
  have hne : octetDigits octet ++ rest ≠ [] :=
    List.append_ne_nil_of_left_ne_nil (List.cons_ne_nil _ _) rest
  rw [parseOctetStringStep]
  dsimp only
  rw [if_neg hne, if_neg (by lia), if_neg (by lia), parseOctet_octetDigits,
    wrap32_of_lt (by lia)]
  exact if_pos rfl

theorem parseOctetStringStep_end (bufsz i : Nat) (buffer : List UInt8) :
    parseOctetStringStep bufsz { string := [], buffer := buffer, i := i } =
      .finish (.done (i, buffer)) :=
  if_pos rfl

/-- The digits of octets are read as these, one behind the other. -/
theorem parseOctetString_octets {octets front rest : List UInt8} {bufsz : Nat}
    (hbufsz : front.length + octets.length ≤ bufsz)
    (hlength : bufsz = front.length + rest.length) (hlt : bufsz < 2 ^ 32) :
    Loop.run (parseOctetStringStep bufsz) (octets.length + 1)
        { string := octets.flatMap octetDigits, buffer := front ++ rest
          i := front.length } =
      some (.done (front.length + octets.length,
        front ++ octets ++ rest.drop octets.length)) := by
  induction octets generalizing front rest with
  | nil =>
      rw [List.flatMap_nil, List.append_nil, List.length_nil, List.drop_zero]
      exact Loop.run_finish (parseOctetStringStep_end bufsz front.length _) 0
  | cons octet more ih =>
      cases rest with
      | nil =>
          rw [List.length_cons] at hbufsz
          rw [List.length_nil] at hlength
          lia
      | cons byte rest =>
          have hbuffer : (front ++ byte :: rest).length = bufsz := by
            rw [List.length_append, hlength]
          have hset : (front ++ byte :: rest).set front.length octet =
              (front ++ [octet]) ++ rest := by
            rw [List.set_append_right front.length octet (Nat.le_refl _), Nat.sub_self,
              List.set_cons_zero, List.append_assoc, List.singleton_append]
          have hfront : (front ++ [octet]).length = front.length + 1 := by
            rw [List.length_append, List.length_singleton]
          rw [List.length_cons] at hbufsz hlength
          rw [List.flatMap_cons, List.length_cons, Loop.run_again
            (parseOctetStringStep_octet (by lia) (by lia) (by lia)), hset, ← hfront,
            ih (by lia) (by lia), hfront, List.drop_succ_cons]
          congr 3
          · lia
          · rw [List.append_assoc front, List.singleton_append]

theorem parseOctetString_digits {octets buffer : List UInt8}
    (hroom : octets.length ≤ buffer.length) (hlt : buffer.length < 2 ^ 32) :
    parseOctetString (octets.flatMap octetDigits) buffer buffer.length =
      .done (octets.length, octets ++ buffer.drop octets.length) := by
  have hdigits : (octets.flatMap octetDigits).length = 2 * octets.length := by
    rw [List.length_flatMap]
    simp [octetDigits, Nat.mul_comm]
  have hrun := parseOctetString_octets (by rw [List.length_nil]; lia :
    ([] : List UInt8).length + octets.length ≤ buffer.length) (Nat.zero_add _).symm hlt
  rw [List.length_nil, List.nil_append, List.nil_append, Nat.zero_add] at hrun
  rw [parseOctetString, Loop.run_mono hrun (by lia)]
  rfl

/-!
## The lines of a dump
-/

/-- The columns of the octets, and then blank ones. -/
theorem octetColumns_eq {bytes : List UInt8} (h : bytes.length ≤ 32) :
    (List.range 32).map (octetColumn bytes) =
      (bytes.map fun octet => 0x20 :: octetDigits octet) ++
        List.replicate (32 - bytes.length) [0x20, 0x20, 0x20] := by
  apply List.ext_getElem
  · simp only [List.length_map, List.length_range, List.length_append, List.length_replicate]
    lia
  · intro j h1 h2
    rw [List.getElem_map, List.getElem_range, octetColumn]
    split
    · rename_i hj
      rw [List.getElem_append_left (by rw [List.length_map]; exact hj), List.getElem_map,
        List.getD_eq_getElem _ _ hj]
    · rename_i hj
      rw [List.getElem_append_right (by rw [List.length_map]; lia), List.getElem_replicate]

def octetsText (bytes : List UInt8) : List UInt8 :=
  ((List.range 32).map (octetColumn bytes)).flatten

theorem octetsText_length (bytes : List UInt8) : (octetsText bytes).length = 96 := by
  have hcolumn : forall j, (octetColumn bytes j).length = 3 := by
    intro j
    rw [octetColumn]
    split <;> rfl
  rw [octetsText, List.length_flatten, List.map_map]
  have hconst : List.length ∘ octetColumn bytes = fun _ => 3 := funext hcolumn
  rw [hconst]
  rfl

theorem octetsText_nonzero (bytes : List UInt8) : (0 : UInt8) ∉ octetsText bytes := by
  intro hmem
  rcases List.mem_flatten.mp hmem with ⟨text, htext, hzero⟩
  rcases List.mem_map.mp htext with ⟨j, _, rfl⟩
  rw [octetColumn] at hzero
  split at hzero
  · rcases List.mem_cons.mp hzero with hbad | hdigit
    · cases hbad
    · exact (octetDigits_plain hdigit).1 rfl
  · exact absurd hzero (by decide)

/-- Without the blanks the digits are left. -/
theorem octetsText_filter {bytes : List UInt8} (h : bytes.length ≤ 32) :
    (octetsText bytes).filter (· != 0x20) = bytes.flatMap octetDigits := by
  have hdigits : forall octet, (octetDigits octet).filter (· != 0x20) = octetDigits octet :=
    fun octet => List.filter_eq_self.mpr fun c hmem =>
      bne_iff_ne.mpr (octetDigits_plain hmem).2.1
  have hblank : (List.replicate (32 - bytes.length) [(0x20 : UInt8), 0x20, 0x20]).flatten.filter
      (· != 0x20) = [] := by
    refine List.filter_eq_nil_iff.mpr fun c hmem => ?_
    rcases List.mem_flatten.mp hmem with ⟨text, htext, hc⟩
    rw [List.eq_of_mem_replicate htext] at hc
    rw [List.eq_of_mem_replicate (n := 3) hc]
    decide
  rw [octetsText, octetColumns_eq h, List.flatten_append, List.filter_append, hblank,
    List.append_nil, ← List.flatMap_def, List.filter_flatMap]
  exact congrArg (bytes.flatMap ·) (funext hdigits)

def asciiText (bytes : List UInt8) : List UInt8 :=
  (bytes.map asciiColumn).flatten

theorem asciiText_length (bytes : List UInt8) : (asciiText bytes).length = bytes.length := by
  rw [asciiText, List.length_flatten, List.map_map]
  have hconst : List.length ∘ asciiColumn = fun _ => 1 := rfl
  rw [hconst]
  simp

theorem asciiText_nonzero (bytes : List UInt8) : (0 : UInt8) ∉ asciiText bytes := by
  intro hmem
  rcases List.mem_flatten.mp hmem with ⟨text, htext, hzero⟩
  rcases List.mem_map.mp htext with ⟨cc, _, rfl⟩
  have hshown := List.mem_singleton.mp hzero
  split at hshown
  · rename_i hgraphic
    rw [← hshown] at hgraphic
    exact absurd hgraphic (by decide)
  · cases hshown

/-- Both texts fit into their arrays. -/
theorem sprintfAll_octets {array : List UInt8} (h : array.length = 97) (bytes : List UInt8) :
    exists after, sprintfAll array 0 ((List.range 32).map (octetColumn bytes)) = some after ∧
      after.length = 97 ∧ cText after = octetsText bytes := by
  have hne : (List.range 32).map (octetColumn bytes) ≠ [] :=
    List.map_eq_nil_iff.not.mpr (by decide)
  have hroom : (octetsText bytes).length < array.length := by
    rw [octetsText_length, h]
    decide
  rw [← h]
  exact sprintfAll_cText hne hroom (octetsText_nonzero bytes)

theorem sprintfAll_ascii {array bytes : List UInt8} (h : array.length = 33) (hne : bytes ≠ [])
    (hle : bytes.length ≤ 32) :
    exists after, sprintfAll array 0 (bytes.map asciiColumn) = some after ∧
      after.length = 33 ∧ cText after = asciiText bytes := by
  have hroom : (asciiText bytes).length < array.length := by
    rw [asciiText_length, h]
    lia
  rw [← h]
  exact sprintfAll_cText (List.map_eq_nil_iff.not.mpr hne) hroom (asciiText_nonzero bytes)

def dumpLine (mem : List UInt8) (size indent i : Nat) : List UInt8 :=
  let bytes := slice mem i (min (i + 32) size)
  hexdumpLine indent i (octetsText bytes) (asciiText bytes)

def dumpText (mem : List UInt8) (size indent : Nat) : List (List UInt8) :=
  (List.range ((size + 31) / 32)).map fun k => dumpLine mem size indent (32 * k)

section

variable {mem : List UInt8} {size : Nat}

/-- The arrays have the room they are declared with. -/
structure HexdumpText.Sized (st : HexdumpText) : Prop where
  octets : st.octets.length = 97
  ascii : st.ascii.length = 33

theorem hexdumpTextStep_done (indent : Nat) {st : HexdumpText} (h : size ≤ st.i) :
    hexdumpTextStep mem size indent st = .finish (.done st.lines) :=
  if_neg (Nat.not_lt.mpr h)

/-- Bytes that are missing are read before anything of their line is printed. -/
theorem hexdumpTextStep_crash (indent : Nat) {st : HexdumpText} (h : st.i < size)
    (hsize : size < 2 ^ 32) (hmem : mem.length < min (st.i + 32) size) :
    hexdumpTextStep mem size indent st = .finish .crash := by
  rw [hexdumpTextStep, if_pos h]
  dsimp only
  rw [hexdump_line_end h hsize, if_pos hmem]

theorem hexdumpTextStep_line (indent : Nat) {st : HexdumpText} (hsized : st.Sized)
    (h : st.i < size) (hsize : size < 2 ^ 32) (hmem : min (st.i + 32) size ≤ mem.length) :
    exists next, hexdumpTextStep mem size indent st = .again next ∧ next.Sized ∧
      next.i = wrap32 (st.i + 32) ∧ next.lines = st.lines ++ [dumpLine mem size indent st.i] := by
  have hlength : (slice mem st.i (min (st.i + 32) size)).length =
      min (st.i + 32) size - st.i := slice_length hmem
  rcases sprintfAll_octets hsized.octets (slice mem st.i (min (st.i + 32) size)) with
    ⟨octets, hoctets, hsize97, hoctetsText⟩
  rcases sprintfAll_ascii hsized.ascii (List.length_pos_iff.mp (by rw [hlength]; lia) :
    slice mem st.i (min (st.i + 32) size) ≠ []) (by rw [hlength]; lia) with
    ⟨ascii, hascii, hsize33, hasciiText⟩
  let next : HexdumpText := {
    i := wrap32 (st.i + 32)
    octets := octets
    ascii := ascii
    lines := st.lines ++ [dumpLine mem size indent st.i] }
  refine ⟨next, ?_, ⟨hsize97, hsize33⟩, rfl, rfl⟩
  rw [hexdumpTextStep, if_pos h]
  dsimp only
  rw [hexdump_line_end h hsize, if_neg (Nat.not_lt.mpr hmem), hoctets, hascii]
  dsimp only
  rw [hoctetsText, hasciiText]
  rfl

/-- Printing makes no difference to how a dump ends. -/
theorem hexdumpTextStep_run (indent : Nat) (hsize : size < 2 ^ 32) (fuel : Nat)
    {st : HexdumpText} (hsized : st.Sized) :
    (Loop.run (hexdumpTextStep mem size indent) fuel st).map (Outcome.map fun _ => ()) =
      Loop.run (hexdumpStep mem size) fuel st.i := by
  induction fuel generalizing st with
  | zero => rfl
  | succ fuel ih =>
      by_cases h : st.i < size
      · have hline := hexdumpStep_line mem h hsize
        by_cases hmem : mem.length < min (st.i + 32) size
        · rw [if_pos hmem] at hline
          rw [Loop.run_finish hline, Loop.run_finish (hexdumpTextStep_crash indent h hsize hmem)]
          rfl
        · rw [if_neg hmem] at hline
          rcases hexdumpTextStep_line indent hsized h hsize
            (Nat.not_lt.mp hmem) with ⟨next, hstep, hnext, hi, _⟩
          rw [Loop.run_again hline, Loop.run_again hstep, ih hnext, hi]
      · have hend := Nat.not_lt.mp h
        rw [Loop.run_finish (hexdumpStep_done hend),
          Loop.run_finish (hexdumpTextStep_done indent hend)]
        rfl

theorem hexdumpTextStep_lines (indent : Nat) (hsize : size ≤ 2 ^ 32 - 32)
    (hmem : size ≤ mem.length) {rounds : Nat} {st : HexdumpText} (hsized : st.Sized)
    (hi : st.i ≤ size + 31)
    (hrounds : (size + 31 - st.i) / 32 = rounds) :
    Loop.run (hexdumpTextStep mem size indent) (rounds + 1) st =
      some (.done (st.lines ++
        (List.range rounds).map fun k => dumpLine mem size indent (st.i + 32 * k))) := by
  induction rounds generalizing st with
  | zero =>
      rw [List.range_zero, List.map_nil, List.append_nil]
      exact Loop.run_finish (hexdumpTextStep_done indent (by lia)) 0
  | succ rounds ih =>
      have hthere : min (st.i + 32) size ≤ mem.length := by lia
      rcases hexdumpTextStep_line indent hsized (by lia : st.i < size) (by lia) hthere with
        ⟨next, hstep, hnext, hnextI, hlines⟩
      rw [wrap32_of_lt (by lia)] at hnextI
      rw [Loop.run_again hstep, ih hnext (by lia) (by lia), hlines, hnextI, List.append_assoc,
        List.range_succ_eq_map, List.map_cons, List.map_map]
      have hnumbers : forall k, st.i + 32 + 32 * k = st.i + 32 * (k + 1) := fun k => by lia
      simp only [hnumbers]
      rfl

end

/-!
## Reading a dump
-/

/-- The digits in a line: what is not blank in the columns behind the number of the
line. -/
def dumpDigits (indent : Nat) (line : List UInt8) : List UInt8 :=
  ((((line.drop indent).dropWhile (· != 0x20)).drop 1).take 96).filter (· != 0x20)

/-- The octets of a text, as `parse_octet_string` reads them. -/
def octetsOf (room : Nat) (digits : List UInt8) : List UInt8 :=
  (parseOctetString digits (List.replicate room 0) room).value?.elim [] fun got =>
    got.2.take got.1

def readDump (indent : Nat) (lines : List (List UInt8)) : List UInt8 :=
  lines.flatMap fun line => octetsOf 32 (dumpDigits indent line)

theorem octetsOf_digits {octets : List UInt8} {room : Nat} (h : octets.length ≤ room)
    (hlt : room < 2 ^ 32) : octetsOf room (octets.flatMap octetDigits) = octets := by
  have hlength : (List.replicate room (0 : UInt8)).length = room := List.length_replicate
  have hparse := parseOctetString_digits (by rw [hlength]; exact h :
    octets.length ≤ (List.replicate room (0 : UInt8)).length) (by rw [hlength]; exact hlt)
  rw [hlength] at hparse
  rw [octetsOf, hparse]
  exact List.take_left' rfl

theorem dumpDigits_hexdumpLine (indent i : Nat) {octets : List UInt8}
    (h : octets.length = 96) (ascii : List UInt8) :
    dumpDigits indent (hexdumpLine indent i octets ascii) = octets.filter (· != 0x20) := by
  have hnumber : forall c, c ∈ hexText4 i -> (c != 0x20) = true :=
    fun c hmem => bne_iff_ne.mpr (hexText4_plain i hmem)
  have hpad : List.replicate (96 - octets.length) (0x20 : UInt8) = [] := by
    rw [h]
    rfl
  rw [dumpDigits, hexdumpLine, hpad, List.append_nil]
  simp only [List.append_assoc, List.cons_append]
  rw [List.drop_left' List.length_replicate, List.dropWhile_append_of_pos hnumber,
    List.dropWhile_cons_of_neg (by decide), List.drop_succ_cons, List.drop_zero,
    List.take_left' h]

theorem flatMap_slices (mem : List UInt8) (size n : Nat) :
    ((List.range n).flatMap fun k => slice mem (32 * k) (min (32 * k + 32) size)) =
      slice mem 0 (min (32 * n) size) := by
  induction n with
  | zero => simp [slice]
  | succ n ih =>
      rw [List.range_succ, List.flatMap_append, ih, List.flatMap_singleton]
      cases Nat.lt_or_ge size (32 * n) with
      | inl hend =>
          have hempty : slice mem (32 * n) (min (32 * n + 32) size) = [] := by
            rw [slice, Nat.sub_eq_zero_of_le (by lia), List.take_zero]
          rw [hempty, List.append_nil]
          congr 1
          lia
      | inr hmore =>
          rw [Nat.min_eq_left hmore, slice_append_slice (Nat.zero_le _) (by lia)]
          rfl

/-- A dump that is read gives the bytes back. -/
theorem readDump_dumpText (mem : List UInt8) (size indent : Nat) :
    readDump indent (dumpText mem size indent) = mem.take size := by
  have hline : forall k, octetsOf 32 (dumpDigits indent (dumpLine mem size indent (32 * k))) =
      slice mem (32 * k) (min (32 * k + 32) size) := by
    intro k
    have hle : (slice mem (32 * k) (min (32 * k + 32) size)).length ≤ 32 := by
      rw [slice, List.length_take]
      lia
    rw [dumpLine, dumpDigits_hexdumpLine indent _ (octetsText_length _),
      octetsText_filter hle, octetsOf_digits hle (by decide)]
  rw [readDump, dumpText, List.flatMap_map]
  simp only [hline]
  rw [flatMap_slices, Nat.min_eq_right (by lia), slice, List.drop_zero, Nat.sub_zero]

/-- A dump ends as if nothing was printed, and if it returns it has printed its text. -/
theorem hexdumpText_eq (mem : List UInt8) {size : Nat} (hsize : size < 2 ^ 32) (indent : Nat)
    (arrays : HexdumpArrays) :
    hexdumpText mem size indent arrays =
      (hexdump mem size).map fun _ => dumpText mem size indent := by
  have hsized : HexdumpText.Sized { octets := arrays.octets, ascii := arrays.ascii } :=
    ⟨arrays.octets_length, arrays.ascii_length⟩
  have hsame : (hexdumpText mem size indent arrays).map (fun _ => ()) = hexdump mem size := by
    have hrun : _ = Loop.run (hexdumpStep mem size) hexdumpLines 0 :=
      hexdumpTextStep_run indent hsize hexdumpLines hsized
    rw [hexdump, hexdumpText, ← hrun]
    cases Loop.run (hexdumpTextStep mem size indent) hexdumpLines
      { octets := arrays.octets, ascii := arrays.ascii } <;> rfl
  rw [← hsame]
  cases hdone : hexdumpText mem size indent arrays with
  | crash => rfl
  | hang => rfl
  | done lines =>
      rw [hdone, hexdump_eq hsize, Outcome.map_done] at hsame
      have hreturns : size ≤ mem.length ∧ size ≤ 2 ^ 32 - 32 := by
        split_ifs at hsame with hmem hends
        exact ⟨hmem, hends⟩
      have hrun := hexdumpTextStep_lines indent hreturns.2 hreturns.1 hsized (Nat.zero_le _)
        rfl
      rw [hexdumpText, Loop.run_mono hrun (by unfold hexdumpLines; dsimp only; lia)] at hdone
      rw [← hdone, List.nil_append]
      simp only [Nat.zero_add]
      rfl

/-- A dump never writes outside of its arrays, and ends as if nothing was printed.  If it
returns, the bytes can be read from its text again. -/
theorem hexdump_prints (mem : List UInt8) {size : Nat} (hsize : size < 2 ^ 32) (indent : Nat)
    (arrays : HexdumpArrays) :
    (hexdumpText mem size indent arrays).map (fun _ => ()) = hexdump mem size ∧
      forall lines, hexdumpText mem size indent arrays = .done lines ->
        readDump indent lines = mem.take size := by
  rw [hexdumpText_eq mem hsize indent arrays]
  cases hexdump mem size with
  | crash => exact ⟨rfl, fun _ hbad => by cases hbad⟩
  | hang => exact ⟨rfl, fun _ hbad => by cases hbad⟩
  | done value =>
      refine ⟨rfl, fun lines hdone => ?_⟩
      injection hdone with hdone
      rw [← hdone, readDump_dumpText]

def someArrays : HexdumpArrays where
  octets := List.replicate 97 0xAA
  ascii := List.replicate 33 0xAA
  octets_length := List.length_replicate
  ascii_length := List.length_replicate

/-- Two lines, of which the second one has one byte. -/
theorem hexdump_prints_lines : exists lines,
    hexdumpText (List.replicate 33 0x5a) 33 4 someArrays = .done lines ∧ lines.length = 2 ∧
      readDump 4 lines = List.replicate 33 0x5a := by
  have hprints := hexdump_prints (List.replicate 33 0x5a) (by decide : 33 < 2 ^ 32) 4 someArrays
  have hdone : hexdumpText (List.replicate 33 0x5a) 33 4 someArrays =
      .done (dumpText (List.replicate 33 0x5a) 33 4) := by
    rw [hexdumpText_eq _ (by decide), hexdump_eq (by decide), if_pos (by decide),
      if_pos (by decide)]
    rfl
  exact ⟨_, hdone, rfl, (hprints.2 _ hdone).trans (by decide)⟩

end UtokenDecrypt
