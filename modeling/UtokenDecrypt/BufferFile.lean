import UtokenDecrypt.Buffer
import UtokenDecrypt.Foundation.Loop

/-!
# Buffers written to a file

`buffer_write_file` of `bufparser.c`.  The kernel takes as many of the bytes
offered as it likes, and the read position of the buffer is all that the loop
knows of what has been taken.
-/

namespace UtokenDecrypt

open Foundation

/-- A file and the kernel's answers to the calls of `write` on it, by the number
of the call and the number of bytes offered. -/
structure OutputFile where
  opens : Bool
  write : Nat -> Nat -> Option Nat

/-- A call of `write`: the memory at the pointer it was given, the number of
bytes offered and what it returned. -/
structure WriteCall where
  buf : List UInt8
  count : Nat
  result : Nat
deriving DecidableEq

def WriteCall.accepted (call : WriteCall) : List UInt8 :=
  call.buf.take call.result

structure WriteFile where
  bp : Buffer
  written : Nat := 0
  calls : List WriteCall := []
deriving DecidableEq

inductive WriteEnd where
  | returned (value : Bool) (st : WriteFile)
  | fatal (st : WriteFile)
deriving DecidableEq

/-- An `int` passed where a `size_t` is expected. -/
def sizeOfInt (n : Int) : Nat :=
  (n % 2 ^ 64).toNat

/-- One round of the loop.  The number of bytes offered and the number taken
are in the same `int`. -/
def bufferWriteStep (file : OutputFile) (st : WriteFile) : Round WriteFile WriteEnd :=
  let n := signed32 (bufferAvailable st.bp)
  if n = 0 then .finish (.returned true st)
  else
    match file.write st.calls.length (sizeOfInt n) with
    | none => .finish (.fatal st)
    | some result =>
        let calls := st.calls ++ [⟨bufferReadPointer st.bp, sizeOfInt n, result⟩]
        let n := signed32 result
        if n < 0 then .finish (.fatal { st with calls := calls })
        else
          .again
            { bp := (bufferSkip st.bp n.toNat).getD st.bp
              written := wrap32 (st.written + n.toNat)
              calls := calls }

/-- A file without a name, or with a dash for one, is the standard output. -/
def isStdout : Option (List UInt8) -> Bool
  | none => true
  | some filename => filename == [0x2d]

def bufferWriteFile (filename : Option (List UInt8)) (file : OutputFile) (bp : Buffer)
    (fuel : Nat) : Option WriteEnd :=
  if !isStdout filename && !file.opens then some (.fatal { bp := bp })
  else Loop.run (bufferWriteStep file) fuel { bp := bp }

/-!
## Partial writes
-/

def OutputFile.Takes (file : OutputFile) : Prop :=
  forall i count, 0 < count ->
    exists result, file.write i count = some result ∧ 1 ≤ result ∧ result ≤ count

section

variable {file : OutputFile} {st : WriteFile}

theorem sizeOfInt_ofNat {n : Nat} (h : n < 2 ^ 64) : sizeOfInt n = n := by
  unfold sizeOfInt
  lia

theorem bufferWriteStep_end (file : OutputFile) (hwf : st.bp.Wf)
    (hempty : st.bp.contents = []) :
    bufferWriteStep file st = .finish (.returned true st) := by
  have hzero : signed32 (bufferAvailable st.bp) = 0 := by
    rw [bufferAvailable_eq hwf, hempty]
    decide
  rw [bufferWriteStep]
  exact if_pos hzero

theorem bufferWriteStep_part (htakes : file.Takes) (hwf : st.bp.Wf)
    (hne : st.bp.contents ≠ []) (hlen : st.bp.contents.length < 2 ^ 31) :
    exists result next, 1 ≤ result ∧ result ≤ st.bp.contents.length ∧
      bufferWriteStep file st = .again next ∧
      next.bp = { st.bp with rpos := st.bp.rpos + result } ∧
      next.calls = st.calls ++
        [⟨bufferReadPointer st.bp, st.bp.contents.length, result⟩] := by
  have hpos : 0 < st.bp.contents.length := List.length_pos_iff.mpr hne
  rcases htakes st.calls.length st.bp.contents.length hpos with
    ⟨result, hwrite, hone, hle⟩
  have hint : signed32 st.bp.contents.length = st.bp.contents.length :=
    (signed32_eq_self_iff _).mpr hlen
  have hresult : signed32 result = result :=
    (signed32_eq_self_iff _).mpr (Nat.lt_of_le_of_lt hle hlen)
  let next : WriteFile := {
    bp := { st.bp with rpos := st.bp.rpos + result }
    written := wrap32 (st.written + result)
    calls := st.calls ++ [⟨bufferReadPointer st.bp, st.bp.contents.length, result⟩] }
  refine ⟨result, next, hone, hle, ?_, rfl, rfl⟩
  have hsize : sizeOfInt (st.bp.contents.length : Int) = st.bp.contents.length :=
    sizeOfInt_ofNat (by lia)
  simp only [bufferWriteStep, bufferAvailable_eq hwf, hint, hsize, hwrite, hresult]
  rw [if_neg (by lia), if_neg (by lia), Int.toNat_natCast,
    bufferSkip_eq_some hwf hle, Option.getD_some]

/-- The bytes taken so far and those still there are always the same bytes. -/
theorem bufferWriteStep_run (htakes : file.Takes) (hwf : st.bp.Wf)
    (hlen : st.bp.contents.length < 2 ^ 31) :
    exists last, Loop.run (bufferWriteStep file) (st.bp.contents.length + 1) st =
        some (.returned true last) ∧
      last.bp.Wf ∧ last.bp.contents = [] ∧
      last.calls.flatMap WriteCall.accepted =
        st.calls.flatMap WriteCall.accepted ++ st.bp.contents := by
  induction hn : st.bp.contents.length using Nat.strong_induction_on generalizing st with
  | _ n ih =>
      by_cases hempty : st.bp.contents = []
      · refine ⟨st, Loop.run_finish (bufferWriteStep_end file hwf hempty) n, hwf,
          hempty, ?_⟩
        rw [hempty, List.append_nil]
      · rcases bufferWriteStep_part htakes hwf hempty hlen with
          ⟨result, next, hone, hle, hstep, hbp, hcalls⟩
        have hskip : next.bp.contents = st.bp.contents.drop result := by
          rw [hbp, bufferSkip_contents]
        have hshort : next.bp.contents.length = n - result := by
          rw [hskip, List.length_drop, hn]
        have hnext : next.bp.Wf := by
          rw [hbp]
          exact bufferSkip_wf hwf hle
        rcases ih (n - result) (by lia) hnext (by lia) hshort with
          ⟨last, hrun, hlast, hdone, hbytes⟩
        refine ⟨last, ?_, hlast, hdone, ?_⟩
        · rw [Loop.run_again hstep]
          exact Loop.run_mono hrun (by lia)
        · rw [hbytes, hcalls, List.flatMap_append, List.append_assoc]
          have htaken : [(⟨bufferReadPointer st.bp, st.bp.contents.length, result⟩ :
              WriteCall)].flatMap WriteCall.accepted = st.bp.contents.take result := by
            rw [List.flatMap_singleton, WriteCall.accepted,
              bufferReadPointer_take hwf hle]
          rw [htaken, hskip, List.take_append_drop]

end

/-- Everything is written once and in order, however little is taken at a time. -/
theorem bufferWriteFile_whole {file : OutputFile} {bp : Buffer}
    (filename : Option (List UInt8)) (hopen : isStdout filename = true ∨ file.opens = true)
    (htakes : file.Takes) (hwf : bp.Wf) (hlen : bufferAvailable bp < 2 ^ 31) :
    exists rounds last,
      (forall fuel, rounds ≤ fuel ->
        bufferWriteFile filename file bp fuel = some (.returned true last)) ∧
      last.calls.flatMap WriteCall.accepted = bp.contents ∧
      bufferAvailable last.bp = 0 := by
  rw [bufferAvailable_eq hwf] at hlen
  have hstart : ({ bp := bp } : WriteFile).bp.Wf := hwf
  rcases bufferWriteStep_run htakes hstart hlen with ⟨last, hrun, hlast, hdone, hbytes⟩
  refine ⟨bp.contents.length + 1, last, ?_, hbytes, ?_⟩
  · intro fuel hfuel
    have hopened : ¬ ((!isStdout filename && !file.opens) = true) := by
      cases hopen with
      | inl h => simp [h]
      | inr h => simp [h]
    rw [bufferWriteFile, if_neg hopened]
    exact Loop.run_mono hrun hfuel
  · rw [bufferAvailable_eq hlast, hdone]
    rfl

theorem bufferWriteFile_whole_slow :
    exists rounds last,
      (forall fuel, rounds ≤ fuel ->
        bufferWriteFile none ⟨false, fun _ _ => some 1⟩ (bufferInitRead [1, 2, 3]) fuel =
          some (.returned true last)) ∧
      last.calls.flatMap WriteCall.accepted = [1, 2, 3] ∧
      bufferAvailable last.bp = 0 :=
  bufferWriteFile_whole none (Or.inl rfl)
    (fun _ _ h => ⟨1, rfl, Nat.le_refl 1, h⟩)
    (bufferInitRead_wf (by decide)) (by decide)

/-!
## Writing that may fail
-/

/-- The kernel takes no more bytes than it is offered, and refuses a number that is
negative as an `ssize_t`. -/
def OutputFile.Honest (file : OutputFile) : Prop :=
  forall {i count result : Nat}, file.write i count = some result ->
    result ≤ count ∧ count < 2 ^ 63

/-- It takes something when it does not fail. -/
def OutputFile.Progresses (file : OutputFile) : Prop :=
  forall {i count : Nat}, file.write i count = some 0 -> count = 0

def WriteEnd.st : WriteEnd -> WriteFile
  | .returned _ st => st
  | .fatal st => st

def WriteFile.accepted (st : WriteFile) : List UInt8 :=
  st.calls.flatMap WriteCall.accepted

section

variable {file : OutputFile} {st : WriteFile}

/-- A round of a kernel that is honest: nothing is left, writing fails, or the bytes
taken are skipped. -/
theorem bufferWriteStep_cases (h : file.Honest) (hwf : st.bp.Wf) :
    (st.bp.contents = [] ∧ bufferWriteStep file st = .finish (.returned true st)) ∨
    (bufferWriteStep file st = .finish (.fatal st) ∧
      (2 ^ 31 ≤ st.bp.contents.length ∨ exists i count, count < 2 ^ 31 ∧
        file.write i count = none)) ∨
    exists i count result next, file.write i count = some result ∧
      st.bp.contents.length = count ∧ 0 < count ∧ result ≤ count ∧
      bufferWriteStep file st = .again next ∧ next.bp.Wf ∧
      next.bp.contents = st.bp.contents.drop result ∧
      next.accepted = st.accepted ++ st.bp.contents.take result := by
  by_cases hempty : st.bp.contents = []
  · exact Or.inl ⟨hempty, bufferWriteStep_end file hwf hempty⟩
  · have hpos : 0 < st.bp.contents.length := List.length_pos_iff.mpr hempty
    have hlt := hwf.contents_lt
    have havailable := bufferAvailable_eq hwf
    by_cases hint : st.bp.contents.length < 2 ^ 31
    · have hn : signed32 st.bp.contents.length = st.bp.contents.length :=
        (signed32_eq_self_iff _).mpr hint
      have hsize : sizeOfInt (st.bp.contents.length : Int) = st.bp.contents.length :=
        sizeOfInt_ofNat (by lia)
      cases hwrite : file.write st.calls.length st.bp.contents.length with
      | none =>
          refine Or.inr (Or.inl ⟨?_, Or.inr ⟨_, _, hint, hwrite⟩⟩)
          simp only [bufferWriteStep, havailable, hn, hsize, hwrite]
          rw [if_neg (by lia)]
      | some result =>
          have hle := (h hwrite).1
          have hresult : signed32 result = result :=
            (signed32_eq_self_iff _).mpr (Nat.lt_of_le_of_lt hle hint)
          refine Or.inr (Or.inr ⟨_, _, result, {
            bp := { st.bp with rpos := st.bp.rpos + result }
            written := wrap32 (st.written + result)
            calls := st.calls ++
              [⟨bufferReadPointer st.bp, st.bp.contents.length, result⟩] }, hwrite, rfl,
            hpos, hle, ?_, bufferSkip_wf hwf hle, bufferSkip_contents st.bp result, ?_⟩)
          · simp only [bufferWriteStep, havailable, hn, hsize, hwrite, hresult]
            rw [if_neg (by lia), if_neg (by lia), Int.toNat_natCast,
              bufferSkip_eq_some hwf hle, Option.getD_some]
          · rw [WriteFile.accepted, List.flatMap_append, List.flatMap_singleton,
              WriteCall.accepted, bufferReadPointer_take hwf hle]
            rfl
    · -- the `int` is negative, and no kernel takes so many bytes
      have hn : signed32 st.bp.contents.length = st.bp.contents.length - 2 ^ 32 := by
        rw [signed32, wrap32_of_lt hlt, if_neg hint]
      cases hwrite : file.write st.calls.length
          (sizeOfInt (signed32 st.bp.contents.length)) with
      | none =>
          refine Or.inr (Or.inl ⟨?_, Or.inl (Nat.not_lt.mp hint)⟩)
          simp only [bufferWriteStep, havailable, hwrite]
          rw [if_neg (by lia)]
      | some result =>
          have hbound := (h hwrite).2
          rw [hn, sizeOfInt] at hbound
          lia

theorem bufferWriteStep_prefix (h : file.Honest) (hwf : st.bp.Wf) {fuel : Nat}
    {ending : WriteEnd} (hrun : Loop.run (bufferWriteStep file) fuel st = some ending) :
    (exists rest, ending.st.accepted ++ rest = st.accepted ++ st.bp.contents) ∧
      forall value last, ending = .returned value last ->
        value = true ∧ last.accepted = st.accepted ++ st.bp.contents := by
  induction fuel generalizing st with
  | zero => cases hrun
  | succ fuel ih =>
      rcases bufferWriteStep_cases h hwf with ⟨hempty, hstep⟩ | ⟨hstep, _⟩ |
        ⟨_, _, result, next, _, _, _, _, hstep, hnext, hrest, haccepted⟩
      · rw [Loop.run_finish hstep] at hrun
        cases hrun
        rw [hempty, List.append_nil]
        refine ⟨⟨[], List.append_nil _⟩, fun value last heq => ?_⟩
        cases heq
        exact ⟨rfl, rfl⟩
      · rw [Loop.run_finish hstep] at hrun
        cases hrun
        exact ⟨⟨st.bp.contents, rfl⟩, fun value last heq => by cases heq⟩
      · rw [Loop.run_again hstep] at hrun
        have hall := ih hnext hrun
        rw [haccepted, hrest, List.append_assoc, List.take_append_drop] at hall
        exact hall

theorem bufferWriteStep_returned (h : file.Honest)
    (hworks : forall i count, count < 2 ^ 31 -> file.write i count ≠ none) (hwf : st.bp.Wf)
    (hshort : st.bp.contents.length < 2 ^ 31) {fuel : Nat} {ending : WriteEnd}
    (hrun : Loop.run (bufferWriteStep file) fuel st = some ending) :
    exists last, ending = .returned true last := by
  induction fuel generalizing st with
  | zero => cases hrun
  | succ fuel ih =>
      rcases bufferWriteStep_cases h hwf with ⟨_, hstep⟩ | ⟨_, hlong | hfails⟩ |
        ⟨_, _, result, next, _, _, _, _, hstep, hnext, hrest, _⟩
      · rw [Loop.run_finish hstep] at hrun
        cases hrun
        exact ⟨st, rfl⟩
      · lia
      · rcases hfails with ⟨i, count, hcount, hnone⟩
        exact absurd hnone (hworks i count hcount)
      · rw [Loop.run_again hstep] at hrun
        exact ih hnext (by rw [hrest, List.length_drop]; lia) hrun

theorem bufferWriteStep_ends (h : file.Honest) (hprogress : file.Progresses)
    (hwf : st.bp.Wf) : exists fuel ending,
      Loop.run (bufferWriteStep file) fuel st = some ending := by
  induction hn : st.bp.contents.length using Nat.strong_induction_on generalizing st with
  | _ n ih =>
      rcases bufferWriteStep_cases h hwf with ⟨_, hstep⟩ | ⟨hstep, _⟩ |
        ⟨i, count, result, next, hwrite, hcount, hpos, hle, hstep, hnext, hrest, _⟩
      · exact ⟨1, _, Loop.run_finish hstep 0⟩
      · exact ⟨1, _, Loop.run_finish hstep 0⟩
      · have htaken : result ≠ 0 := by
          intro hzero
          rw [hzero] at hwrite
          exact absurd (hprogress hwrite) (by lia)
        rcases ih next.bp.contents.length (by rw [hrest, List.length_drop]; lia) hnext rfl
          with ⟨fuel, ending, hrun⟩
        exact ⟨fuel + 1, ending, by rw [Loop.run_again hstep, hrun]⟩

end

/-- What `buffer_write_file` has written is the front of the buffer, and all of it if it
returns. -/
theorem bufferWriteFile_prefix {file : OutputFile} (h : file.Honest) {bp : Buffer}
    (hwf : bp.Wf) {filename : Option (List UInt8)} {fuel : Nat} {ending : WriteEnd}
    (hrun : bufferWriteFile filename file bp fuel = some ending) :
    ending.st.accepted <+: bp.contents ∧
      forall value last, ending = .returned value last ->
        value = true ∧ last.accepted = bp.contents := by
  rw [bufferWriteFile] at hrun
  split at hrun
  · cases hrun
    exact ⟨List.nil_prefix, fun _ _ heq => by cases heq⟩
  · have hstart : ({ bp := bp } : WriteFile).bp.Wf := hwf
    rcases bufferWriteStep_prefix h hstart hrun with
      ⟨⟨rest, hrest⟩, hreturned⟩
    exact ⟨⟨rest, hrest⟩, hreturned⟩

theorem bufferWriteFile_ends {file : OutputFile} (h : file.Honest)
    (hprogress : file.Progresses) {bp : Buffer} (hwf : bp.Wf)
    (filename : Option (List UInt8)) : exists enough ending, forall fuel, enough ≤ fuel ->
      bufferWriteFile filename file bp fuel = some ending := by
  by_cases hopens : (!isStdout filename && !file.opens) = true
  · refine ⟨0, .fatal { bp := bp }, fun fuel _ => ?_⟩
    rw [bufferWriteFile, if_pos hopens]
  · have hstart : ({ bp := bp } : WriteFile).bp.Wf := hwf
    rcases bufferWriteStep_ends h hprogress hstart with
      ⟨enough, ending, hrun⟩
    refine ⟨enough, ending, fun fuel hfuel => ?_⟩
    rw [bufferWriteFile, if_neg hopens]
    exact Loop.run_mono hrun hfuel

/-- It can be opened, and writing to it does not fail. -/
structure OutputFile.Works (file : OutputFile) (filename : Option (List UInt8)) : Prop where
  opens : isStdout filename = true ∨ file.opens = true
  writes : forall i count, count < 2 ^ 31 -> file.write i count ≠ none

theorem bufferWriteFile_returned {file : OutputFile} (h : file.Honest)
    (hprogress : file.Progresses) {filename : Option (List UInt8)}
    (hworks : file.Works filename) {bp : Buffer} (hwf : bp.Wf)
    (hshort : bp.contents.length < 2 ^ 31) :
    exists enough last, last.accepted = bp.contents ∧ forall fuel, enough ≤ fuel ->
      bufferWriteFile filename file bp fuel = some (.returned true last) := by
  rcases bufferWriteFile_ends h hprogress hwf filename with ⟨enough, ending, hends⟩
  have hstart : ({ bp := bp } : WriteFile).bp.Wf := hwf
  have hopened : ¬ ((!isStdout filename && !file.opens) = true) := by
    cases hworks.opens with
    | inl hstdout => simp [hstdout]
    | inr hopens => simp [hopens]
  have hrun := hends enough (Nat.le_refl enough)
  have hloop := hrun
  rw [bufferWriteFile, if_neg hopened] at hloop
  rcases bufferWriteStep_returned h hworks.writes hstart hshort hloop with ⟨last, rfl⟩
  have hfront := bufferWriteFile_prefix h hwf hrun
  exact ⟨enough, last, (hfront.2 true last rfl).2, hends⟩

/-!
## Reading a file
-/

/-- A file and the kernel's answer to the one call of `read` on it. -/
structure InputFile where
  opens : Bool
  stSize : Option Nat
  read : Nat -> Option (List UInt8)
  read_le : forall {count : Nat} {bytes : List UInt8},
    read count = some bytes -> bytes.length ≤ count

def isStdin : Option (List UInt8) -> Bool
  | none => true
  | some filename => filename == [0x2d]

/-- Without a result the program is stopped with a message.  What `read` returns is put
in an `int`, and compared with an `off_t`. -/
def bufferReadFile (filename : Option (List UInt8)) (file : InputFile) : Option Buffer :=
  if !isStdin filename && !file.opens then none
  else
    match file.stSize with
    | none => none
    | some stSize =>
        let bp := bufferAllocWrite stSize
        match file.read stSize with
        | none => none
        | some bytes =>
            let count := signed32 bytes.length
            if count < 0 then none
            else if count ≠ stSize then none
            else some { bp with data := overwrite bp.data 0 bytes, wpos := count.toNat }

theorem bufferReadFile_some {filename : Option (List UInt8)} {file : InputFile}
    {bp : Buffer} (h : bufferReadFile filename file = some bp) :
    exists stSize, file.stSize = some stSize ∧ file.read stSize = some bp.contents ∧
      bp.contents.length = stSize ∧ stSize < 2 ^ 31 ∧ bp.Wf := by
  unfold bufferReadFile at h
  split at h
  · cases h
  · split at h
    · cases h
    · rename_i stSize hsize
      dsimp only at h
      split at h
      · cases h
      · rename_i bytes hread
        split at h
        · cases h
        · split at h
          · cases h
          · rename_i hnonneg hcount
            have hle := file.read_le hread
            have hsame := Decidable.not_not.mp hcount
            have hbelow := signed32_le bytes.length
            have hlength : bytes.length = stSize := by lia
            have hint : signed32 bytes.length = bytes.length := by lia
            have hlt := (signed32_eq_self_iff _).mp hint
            have hroom : stSize ≤ capacity stSize := le_capacity (by lia)
            injection h with h
            have hwpos : bp.wpos = bytes.length := by
              rw [← h, hint]
              rfl
            have hdata : (bufferAllocWrite stSize).data.length = capacity stSize :=
              List.length_replicate
            have hcontents : bp.contents = bytes := by
              rw [Buffer.contents, hwpos, ← h]
              exact (congrArg (slice _ 0) (Nat.zero_add bytes.length).symm).trans
                (slice_overwrite_self (Nat.zero_le _))
            refine ⟨stSize, hsize, by rw [hcontents, hread], by rw [hcontents, hlength], ?_⟩
            refine ⟨by rw [← hlength]; exact hlt, ?_, ?_, ?_, ?_⟩
            · rw [← h]
              exact Nat.zero_le _
            · rw [hwpos, ← h, bufferAllocWrite_size]
              lia
            · rw [← h]
              exact capacity_lt stSize
            · rw [← h]
              dsimp only
              rw [overwrite_length (by lia), hdata, bufferAllocWrite_size]

end UtokenDecrypt
