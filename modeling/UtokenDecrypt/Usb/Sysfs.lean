import UtokenDecrypt.Foundation.Process
import UtokenDecrypt.Foundation.Slice
import UtokenDecrypt.Usb.Descriptors

/-!
# Descriptors read from sysfs

`sysfs_read_buffer` and `__uusb_process_descriptors` of `usb.c`.  The kernel
answers each `read` with some bytes, none of them at the end of the file, or
with an error.

Every `read` is given the start of the buffer as its destination, so that a
second one writes over what the first one delivered.
-/

namespace UtokenDecrypt
namespace Usb

open Foundation

/-!
## The code
-/

/-- A file and the kernel's answers to the calls of `read` on it, by the number
of the call and the number of bytes asked for. -/
structure SysfsFile where
  opens : Bool
  stSize : Option Nat
  read : Nat -> Nat -> Option (List UInt8)
  read_le : forall {i room : Nat} {bytes : List UInt8},
    read i room = some bytes -> bytes.length ≤ room

structure SysfsRead where
  result : List UInt8
  count : Nat := 0
  calls : Nat := 0
deriving DecidableEq

/-- One round of the loop of `sysfs_read_buffer`.  What `read` returns is put in
an `int`, and so is the sum, whose overflow is undefined. -/
def sysfsReadStep (file : SysfsFile) (size : Nat) (st : SysfsRead) :
    Round SysfsRead (Outcome (Option (List UInt8 × Nat))) :=
  match file.read st.calls (sub64 size st.count) with
  | none => .finish (.done none)
  | some bytes =>
      let result := overwrite st.result 0 bytes
      let r := signed32 bytes.length
      if r = 0 then .finish (.done (some (result, st.count)))
      else if r < 0 then .finish (.done none)
      else if st.count + r.toNat ≥ 2 ^ 31 then .finish .crash
      else
        .again
          { result := result
            count := st.count + r.toNat
            calls := st.calls + 1 }

/-- The buffer and the number of bytes in it; `fresh` is what `malloc` leaves in
the buffer. -/
def sysfsReadBuffer (file : SysfsFile) (fresh : List UInt8) (fuel : Nat) :
    Option (Outcome (Option (List UInt8 × Nat))) :=
  if !file.opens then some (.done none)
  else
    match file.stSize with
    | none => some (.done none)
    | some size => Loop.run (sysfsReadStep file size) fuel { result := fresh }

def UusbParseEnd.outcome : UusbParseEnd -> Outcome (Bool × UusbDev)
  | .returned value st => .done (value, st.dev)
  | .outOfArray _ => .crash

def uusbProcessDescriptors (file : SysfsFile) (fresh : List UInt8)
    (beyond : Nat -> UInt8) (fuel : Nat) : Option (Outcome (Bool × UusbDev)) :=
  match sysfsReadBuffer file fresh fuel with
  | none => none
  | some .crash => some .crash
  | some .hang => some .hang
  | some (.done none) => some (.done (false, {}))
  | some (.done (some (data, len))) =>
      (uusbParseDescriptors (memoryOf data beyond) len fuel).map
        UusbParseEnd.outcome

/-!
## What the parser is given
-/

/-- The kernel delivers a file of `size` bytes at most in non-empty pieces, one
for each call that has room for it, and then the end of the file. -/
structure Delivers (file : SysfsFile) (size : Nat) (pieces : List (List UInt8)) :
    Prop where
  opens : file.opens = true
  stSize : file.stSize = some size
  nonempty : forall piece, piece ∈ pieces -> piece ≠ []
  atMost : pieces.flatten.length ≤ size
  piece : forall i piece room, pieces[i]? = some piece -> piece.length ≤ room ->
    file.read i room = some piece
  ends : forall i room, pieces.length ≤ i -> file.read i room = some []

/-- Whatever the buffer and the memory behind it held, the buffer starts with the
pieces in order, their number of bytes is reported, and it is these bytes that
the parser is given. -/
def AssemblesPieces (file : SysfsFile) (size : Nat) (pieces : List (List UInt8)) :
    Prop :=
  forall (fresh : List UInt8) (beyond : Nat -> UInt8), fresh.length = size ->
    exists rounds data behind,
      sysfsReadBuffer file fresh rounds =
        some (.done (some (data, pieces.flatten.length))) ∧
      data.take pieces.flatten.length = pieces.flatten ∧
      forall fuel, rounds ≤ fuel ->
        uusbProcessDescriptors file fresh beyond fuel =
          (uusbParseDescriptors (memoryOf pieces.flatten behind)
            pieces.flatten.length fuel).map UusbParseEnd.outcome

section

variable {file : SysfsFile} {size : Nat} {pieces : List (List UInt8)}
  {st : SysfsRead}

theorem sysfsReadStep_some {bytes : List UInt8}
    (h : file.read st.calls (sub64 size st.count) = some bytes) :
    sysfsReadStep file size st =
      if signed32 bytes.length = 0 then
        .finish (.done (some (overwrite st.result 0 bytes, st.count)))
      else if signed32 bytes.length < 0 then .finish (.done none)
      else if st.count + (signed32 bytes.length).toNat ≥ 2 ^ 31 then .finish .crash
      else
        .again
          { result := overwrite st.result 0 bytes
            count := st.count + (signed32 bytes.length).toNat
            calls := st.calls + 1 } := by
  rw [sysfsReadStep, h]

theorem sysfsReadStep_end (h : Delivers file size pieces) (st : SysfsRead)
    (hcalls : pieces.length ≤ st.calls) :
    sysfsReadStep file size st = .finish (.done (some (st.result, st.count))) := by
  rw [sysfsReadStep_some (h.ends _ _ hcalls), List.length_nil, if_pos (by decide)]
  rfl

theorem sysfsReadStep_piece (h : Delivers file size pieces) (st : SysfsRead)
    {front rest : List (List UInt8)} {piece : List UInt8}
    (hsplit : pieces = front ++ piece :: rest) (hcalls : st.calls = front.length)
    (hcount : st.count ≤ front.flatten.length) :
    file.read st.calls (sub64 size st.count) = some piece := by
  have hroom := h.atMost
  rw [hsplit, List.flatten_append, List.flatten_cons, List.length_append,
    List.length_append] at hroom
  apply h.piece
  · rw [hsplit, hcalls, List.getElem?_append_right (Nat.le_refl _), Nat.sub_self,
      List.getElem?_cons_zero]
  · rw [sub64_of_le (by lia)]
    lia

/-- No more bytes are counted than the pieces have, and as many only if each of
them is short enough for an `int`.  Behind the longest piece nothing is ever
written. -/
theorem sysfsRead_run (h : Delivers file size pieces)
    {front rest : List (List UInt8)} (hsplit : pieces = front ++ rest)
    (hcalls : st.calls = front.length) (hcount : st.count ≤ front.flatten.length)
    {fuel n : Nat} {data : List UInt8}
    (hrun : Loop.run (sysfsReadStep file size) fuel st =
      some (.done (some (data, n)))) :
    n ≤ st.count + rest.flatten.length ∧
      (n = st.count + rest.flatten.length ->
        forall piece, piece ∈ rest -> piece.length < 2 ^ 31) ∧
      forall i, (forall piece, piece ∈ rest -> piece.length ≤ i) ->
        data[i]? = st.result[i]? := by
  induction rest generalizing front st fuel with
  | nil =>
      cases fuel with
      | zero => cases hrun
      | succ fuel =>
          rw [List.append_nil] at hsplit
          rw [Loop.run_finish (sysfsReadStep_end h st (by rw [hsplit, hcalls]))] at hrun
          cases hrun
          refine ⟨by simp, ?_, fun _ _ => rfl⟩
          intro _ piece hmem
          cases hmem
  | cons piece rest ih =>
      cases fuel with
      | zero => cases hrun
      | succ fuel =>
          have hstep := sysfsReadStep_some (sysfsReadStep_piece h st hsplit hcalls
            hcount)
          have hpos : 0 < piece.length := List.length_pos_iff.mpr
            (h.nonempty piece (by rw [hsplit]; simp))
          have hle := signed32_le piece.length
          rw [List.flatten_cons, List.length_append]
          split_ifs at hstep with hzero hneg hover
          · -- a multiple of 2^32 bytes looks like the end of the file
            rw [Loop.run_finish hstep] at hrun
            cases hrun
            refine ⟨by lia, fun heq => by lia, ?_⟩
            intro i hall
            exact getElem?_overwrite_zero (hall piece List.mem_cons_self)
          · rw [Loop.run_finish hstep] at hrun
            cases hrun
          · rw [Loop.run_finish hstep] at hrun
            cases hrun
          · rw [Loop.run_again hstep] at hrun
            have hnext : pieces = (front ++ [piece]) ++ rest := by
              rw [hsplit, List.append_cons]
            have htotal : (front ++ [piece]).flatten.length =
                front.flatten.length + piece.length := by
              rw [List.flatten_append, List.length_append, List.flatten_singleton]
            rcases ih hnext (by simp [hcalls]) (by simp only; lia) hrun with
              ⟨hbound, hshort, hbehind⟩
            simp only at hbound hshort hbehind
            refine ⟨by lia, ?_, ?_⟩
            · intro heq other hmem
              have hself : signed32 piece.length = piece.length := by lia
              cases List.mem_cons.mp hmem with
              | inl hfirst =>
                  rw [hfirst]
                  exact (signed32_eq_self_iff _).mp hself
              | inr hrest => exact hshort (by lia) other hrest
            · intro i hall
              rw [hbehind i fun other hmem => hall other (List.mem_cons_of_mem _ hmem)]
              exact getElem?_overwrite_zero (hall piece List.mem_cons_self)

theorem sysfsReadBuffer_of_delivers (h : Delivers file size pieces)
    (fresh : List UInt8) (fuel : Nat) :
    sysfsReadBuffer file fresh fuel =
      Loop.run (sysfsReadStep file size) fuel { result := fresh } := by
  rw [sysfsReadBuffer, h.opens, h.stSize]
  rfl

theorem uusbProcessDescriptors_of_read (h : Delivers file size pieces)
    {fresh data : List UInt8} {len rounds fuel : Nat} (beyond : Nat -> UInt8)
    (hrun : sysfsReadBuffer file fresh rounds = some (.done (some (data, len))))
    (hfuel : rounds ≤ fuel) :
    uusbProcessDescriptors file fresh beyond fuel =
      (uusbParseDescriptors (memoryOf data beyond) len fuel).map
        UusbParseEnd.outcome := by
  have hmore : sysfsReadBuffer file fresh fuel =
      some (.done (some (data, len))) := by
    rw [sysfsReadBuffer_of_delivers h] at hrun ⊢
    exact Loop.run_mono hrun hfuel
  rw [uusbProcessDescriptors, hmore]

/-- A buffer that starts with some bytes is these bytes with others behind. -/
theorem memoryOf_take (data : List UInt8) (len : Nat) (beyond : Nat -> UInt8) :
    memoryOf data beyond = memoryOf (data.take len) (memoryOf data beyond) := by
  funext i
  by_cases hi : i < (data.take len).length
  · have hdata : i < data.length := by
      rw [List.length_take] at hi
      lia
    simp only [memoryOf, List.getD_eq_getElem _ _ hi,
      List.getD_eq_getElem _ _ hdata, List.getElem_take]
  · simp only [memoryOf, List.getD_eq_default (data.take len) _ (Nat.not_lt.mp hi)]

theorem length_lt_flatten (hmany : 1 < pieces.length)
    (hnonempty : forall piece, piece ∈ pieces -> piece ≠ []) {piece : List UInt8}
    (hmem : piece ∈ pieces) : piece.length < pieces.flatten.length := by
  rcases List.mem_iff_append.mp hmem with ⟨front, back, hsplit⟩
  have hother : exists other, other ∈ front ++ back := by
    cases hrest : front ++ back with
    | nil =>
        have hlength := congrArg List.length hrest
        rw [hsplit, List.length_append, List.length_cons] at hmany
        rw [List.length_append, List.length_nil] at hlength
        lia
    | cons other rest => exact ⟨other, List.mem_cons_self⟩
  rcases hother with ⟨other, hother⟩
  have hpos : 0 < other.length := by
    apply List.length_pos_iff.mpr
    apply hnonempty
    rw [hsplit]
    rcases List.mem_append.mp hother with hfront | hback
    · exact List.mem_append_left _ hfront
    · exact List.mem_append_right _ (List.mem_cons_of_mem _ hback)
  have hle : other.length ≤ (front ++ back).flatten.length :=
    (List.sublist_flatten_of_mem hother).length_le
  rw [hsplit, List.flatten_append, List.flatten_cons, List.length_append,
    List.length_append]
  rw [List.flatten_append, List.length_append] at hle
  lia

/-- What has not been written to keeps the value `malloc` left there, so a
buffer in which every byte is right was filled by one piece. -/
theorem AssemblesPieces.single (h : Delivers file size pieces)
    (hall : AssemblesPieces file size pieces) :
    pieces.length ≤ 1 ∧ forall piece, piece ∈ pieces -> piece.length < 2 ^ 31 := by
  have hroom := h.atMost
  cases hlast : pieces.flatten.getLast? with
  | none =>
      have hnil : pieces = [] := by
        cases hpieces : pieces with
        | nil => rfl
        | cons piece rest =>
            have hempty := List.getLast?_eq_none_iff.mp hlast
            rw [hpieces, List.flatten_cons, List.append_eq_nil_iff] at hempty
            exact absurd hempty.1 (h.nonempty piece (by rw [hpieces]; simp))
      rw [hnil]
      exact ⟨Nat.zero_le 1, fun _ hmem => by cases hmem⟩
  | some last =>
      rcases hall (List.replicate size (last + 1)) (fun _ => 0) List.length_replicate
        with ⟨rounds, data, behind, hrun, htake, _⟩
      rw [sysfsReadBuffer_of_delivers h] at hrun
      rcases sysfsRead_run h (List.nil_append pieces).symm rfl (Nat.le_refl 0) hrun
        with ⟨_, hshort, hbehind⟩
      refine ⟨?_, hshort (Nat.zero_add _).symm⟩
      rw [← Nat.not_lt]
      intro hmany
      have hstale := hbehind (pieces.flatten.length - 1) (by
        intro piece hmem
        exact Nat.le_sub_one_of_lt (length_lt_flatten hmany h.nonempty hmem))
      rw [List.getLast?_eq_getElem?] at hlast
      have hlt := (List.getElem?_eq_some_iff.mp hlast).1
      have hat : (data.take pieces.flatten.length)[pieces.flatten.length - 1]? =
          some last := by
        rw [htake]
        exact hlast
      rw [List.getElem?_take_of_lt (by lia), hstale,
        List.getElem?_replicate_of_lt (by lia)] at hat
      injection hat with hsame
      exact absurd hsame (by simp)

theorem assemblesPieces_of_single (h : Delivers file size pieces)
    (hlen : pieces.length ≤ 1)
    (hshort : forall piece, piece ∈ pieces -> piece.length < 2 ^ 31) :
    AssemblesPieces file size pieces := by
  intro fresh beyond hfresh
  have hread : exists rounds data,
      sysfsReadBuffer file fresh rounds =
        some (.done (some (data, pieces.flatten.length))) ∧
      data.take pieces.flatten.length = pieces.flatten := by
    simp only [sysfsReadBuffer_of_delivers h]
    cases hpieces : pieces with
    | nil =>
        have hend := sysfsReadStep_end h { result := fresh } (by rw [hpieces]; simp)
        exact ⟨1, fresh, Loop.run_finish hend 0, rfl⟩
    | cons piece rest =>
        have hrest : rest = [] := by
          rw [hpieces, List.length_cons] at hlen
          exact List.length_eq_zero_iff.mp (by lia)
        subst hrest
        have hroom := h.atMost
        have hlt := hshort piece (by rw [hpieces]; exact List.mem_cons_self)
        have hpos : 0 < piece.length := List.length_pos_iff.mpr
          (h.nonempty piece (by rw [hpieces]; exact List.mem_cons_self))
        have hself := (signed32_eq_self_iff _).mpr hlt
        have hsplit : pieces = [] ++ [piece] := hpieces
        have hstep := sysfsReadStep_some
          (sysfsReadStep_piece h { result := fresh } hsplit rfl (Nat.le_refl 0))
        rw [hself, if_neg (by lia), if_neg (by lia), if_neg (by lia),
          Int.toNat_natCast, Nat.zero_add] at hstep
        have hend := sysfsReadStep_end h
          { result := overwrite fresh 0 piece, count := piece.length, calls := 1 }
          (by rw [hpieces]; exact Nat.le_refl 1)
        refine ⟨2, overwrite fresh 0 piece, ?_, ?_⟩
        · rw [Loop.run_again hstep, List.flatten_singleton]
          exact Loop.run_finish hend 0
        · rw [List.flatten_singleton, overwrite, List.take_zero, List.nil_append,
            List.take_left]
  rcases hread with ⟨rounds, data, hrun, htake⟩
  refine ⟨rounds, data, memoryOf data beyond, hrun, htake, ?_⟩
  intro fuel hfuel
  have hsame := memoryOf_take data pieces.flatten.length beyond
  rw [htake] at hsame
  rw [uusbProcessDescriptors_of_read h beyond hrun hfuel]
  exact congrArg (fun mem => (uusbParseDescriptors mem _ fuel).map _) hsame

end

/-- The pieces are assembled exactly if there is only one. -/
theorem assemblesPieces_iff {file : SysfsFile} {size : Nat}
    {pieces : List (List UInt8)} (h : Delivers file size pieces) :
    AssemblesPieces file size pieces ↔
      pieces.length ≤ 1 ∧ forall piece, piece ∈ pieces -> piece.length < 2 ^ 31 := by
  constructor
  · intro hall
    exact hall.single h
  · intro hsingle
    exact assemblesPieces_of_single h hsingle.1 hsingle.2

def pieceFile (size : Nat) (pieces : List (List UInt8)) : SysfsFile where
  opens := true
  stSize := some size
  read i room :=
    match pieces[i]? with
    | none => some []
    | some piece => if piece.length ≤ room then some piece else none
  read_le := by
    intro i room bytes h
    split at h
    · cases h
      exact Nat.zero_le room
    · split at h
      · rename_i hroom
        cases h
        exact hroom
      · cases h

theorem pieceFile_delivers {size : Nat} {pieces : List (List UInt8)}
    (hnonempty : forall piece, piece ∈ pieces -> piece ≠ [])
    (hroom : pieces.flatten.length ≤ size) :
    Delivers (pieceFile size pieces) size pieces where
  opens := rfl
  stSize := rfl
  nonempty := hnonempty
  atMost := hroom
  piece := by
    intro i piece room hpiece hle
    simp only [pieceFile, hpiece, if_pos hle]
  ends := by
    intro i room hi
    simp only [pieceFile, List.getElem?_eq_none hi]

/-- A device descriptor in one piece. -/
def deviceDescriptor : List UInt8 :=
  [0x12, 0x01, 0x00, 0x02, 0x00, 0x00, 0x00, 0x40, 0x50, 0x10, 0x07, 0x04, 0x00,
    0x01, 0x00, 0x00, 0x00, 0x01]

theorem assemblesPieces_iff_onePiece :
    AssemblesPieces (pieceFile 18 [deviceDescriptor]) 18 [deviceDescriptor] :=
  (assemblesPieces_iff (pieceFile_delivers (by decide) (by decide))).mpr
    ⟨by decide, by decide⟩

/-- Delivered as eight bytes and then ten, the descriptor starts with its last
ten bytes. -/
theorem not_assemblesPieces_twoPieces :
    Delivers (pieceFile 18 [deviceDescriptor.take 8, deviceDescriptor.drop 8]) 18
        [deviceDescriptor.take 8, deviceDescriptor.drop 8] ∧
      ¬ AssemblesPieces (pieceFile 18 [deviceDescriptor.take 8, deviceDescriptor.drop 8])
        18 [deviceDescriptor.take 8, deviceDescriptor.drop 8] := by
  refine ⟨pieceFile_delivers (by decide) (by decide), ?_⟩
  intro hall
  rcases hall (List.replicate 18 0) (fun _ => 0) rfl with
    ⟨rounds, data, _, hrun, htake, _⟩
  have hthree : sysfsReadBuffer
      (pieceFile 18 [deviceDescriptor.take 8, deviceDescriptor.drop 8])
      (List.replicate 18 0) 3 =
        some (.done (some (deviceDescriptor.drop 8 ++ List.replicate 8 0, 18))) := by
    decide
  have h1 := Loop.run_mono hrun (Nat.le_max_left rounds 3)
  have h2 := Loop.run_mono hthree (Nat.le_max_right rounds 3)
  rw [h1] at h2
  injection h2 with h2
  injection h2 with h2
  injection h2 with h2
  injection h2 with hdata hcount
  rw [hdata] at htake
  exact absurd htake (by decide)

end Usb
end UtokenDecrypt
