import UtokenDecrypt.BufferMemory
import UtokenDecrypt.Foundation.Log

/-!
# Buffers as bounded byte logs

What a buffer is for: a log of bytes of bounded capacity, with a cursor that
reads the bytes last written.  The calls of the functions do on buffers what
the operations of the logs say, in whatever order they come.
-/

namespace UtokenDecrypt

open Foundation

/-!
## The same calls on logs
-/

/-- Logs instead of buffers. -/
structure LogMemory (ι κ : Type) where
  logs : ι -> CursorLog UInt8
  areas : κ -> List UInt8
  ints : κ -> Nat

namespace LogMemory

variable {ι κ : Type} [DecidableEq ι] [DecidableEq κ]

def setLog (t : LogMemory ι κ) (i : ι) (log : CursorLog UInt8) : LogMemory ι κ :=
  { t with logs := Function.update t.logs i log }

def setArea (t : LogMemory ι κ) (dest : κ) (bytes : List UInt8) : LogMemory ι κ :=
  { t with areas := Function.update t.areas dest (overwrite (t.areas dest) 0 bytes) }

def setInt (t : LogMemory ι κ) (dest : κ) (value : Nat) : LogMemory ι κ :=
  { t with ints := Function.update t.ints dest value }

/-- Change a log, or fail and leave everything as it is. -/
def change (i : ι) (f : CursorLog UInt8 -> Option (CursorLog UInt8)) :
    Attempt (LogMemory ι κ) :=
  fun t => (f (t.logs i)).elim (false, t) fun log => (true, t.setLog i log)

def get (i : ι) (dest : κ) (count : Nat) : Attempt (LogMemory ι κ) :=
  fun t => ((t.logs i).read count).elim (false, t) fun got =>
    (true, (t.setArea dest got.1).setLog i got.2)

def getInt (bytes : Nat) (i : ι) (dest : κ) : Attempt (LogMemory ι κ) :=
  fun t => ((t.logs i).read bytes).elim (false, t) fun got =>
    (true, ((t.setArea dest got.1).setLog i got.2).setInt dest (leValue got.1))

/-- What is read from one log is appended to the other. -/
def copy (src : ι) (count : Nat) (dst : ι) : Attempt (LogMemory ι κ) :=
  fun t =>
    (((t.logs src).read count).bind fun got =>
      ((t.logs dst).append got.1).map fun log => (got.2, log)).elim (false, t)
    fun both => (true, (t.setLog src both.1).setLog dst both.2)

end LogMemory

section

variable {ι κ : Type} [DecidableEq ι] [DecidableEq κ]

def BufferOp.spec : BufferOp ι κ -> Attempt (LogMemory ι κ)
  | put i src => LogMemory.change i fun log => log.append src
  | putU8 i value => LogMemory.change i fun log => log.append [value]
  | putU16le i value => LogMemory.change i fun log => log.append (leBytes 2 value.toNat)
  | putU32le i value => LogMemory.change i fun log => log.append (leBytes 4 value.toNat)
  | putU64le i value => LogMemory.change i fun log => log.append (leBytes 8 value.toNat)
  | get i dest count => LogMemory.get i dest count
  | getU8 i dest => LogMemory.getInt 1 i dest
  | getU16le i dest => LogMemory.getInt 2 i dest
  | getU32le i dest => LogMemory.getInt 4 i dest
  | getU64le i dest => LogMemory.getInt 8 i dest
  | skip i count => LogMemory.change i fun log => log.moveTo (log.cursor + count)
  | seekRead i newPos => LogMemory.change i fun log => log.moveTo newPos
  | truncate i len => LogMemory.change i fun log => log.cut len
  | copy src count dst _ => LogMemory.copy src count dst

end

/-!
## A buffer that shows a log
-/

/-- The positions are those of the log, and the memory up to the write
position holds the bytes last written there. -/
structure Buffer.Shows (bp : Buffer) (log : CursorLog UInt8) : Prop where
  wf : bp.Wf
  rpos_eq : bp.rpos = log.cursor
  wpos_eq : bp.wpos = log.length
  size_eq : bp.size = log.capacity
  data_eq : forall pos, pos < bp.wpos -> log.last pos = bp.data[pos]?

namespace Buffer

variable {bp : Buffer} {log : CursorLog UInt8}

theorem Shows.moveTo (h : bp.Shows log) {pos : Nat} (hpos : pos ≤ bp.wpos) :
    exists after, log.moveTo pos = some after ∧
      ({ bp with rpos := pos } : Buffer).Shows after := by
  have hlog : pos ≤ log.length := h.wpos_eq ▸ hpos
  exact ⟨_, dif_pos hlog, ⟨hpos, h.wf.wpos_le, h.wf.size_lt, h.wf.length_eq⟩,
    rfl, h.wpos_eq, h.size_eq, h.data_eq⟩

theorem Shows.moveTo_none (h : bp.Shows log) {pos : Nat} (hpos : bp.wpos < pos) :
    log.moveTo pos = none := by
  have hlog : ¬ pos ≤ log.length := by
    rw [← h.wpos_eq]
    lia
  exact dif_neg hlog

theorem Shows.cut (h : bp.Shows log) {len : Nat} (hlen : bp.rpos + len ≤ bp.wpos) :
    exists after, log.cut len = some after ∧
      ({ bp with wpos := bp.rpos + len } : Buffer).Shows after := by
  have hlog : log.cursor + len ≤ log.length := by
    rw [← h.rpos_eq, ← h.wpos_eq]
    exact hlen
  refine ⟨_, dif_pos hlog, wf_of_shorter h.wf hlen, h.rpos_eq, ?_, h.size_eq, ?_⟩
  · exact congrArg (· + len) h.rpos_eq
  · intro pos hpos
    exact h.data_eq pos (Nat.lt_of_lt_of_le hpos hlen)

theorem Shows.cut_none (h : bp.Shows log) {len : Nat}
    (hlen : bp.wpos < bp.rpos + len) : log.cut len = none := by
  have hlog : ¬ log.cursor + len ≤ log.length := by
    rw [← h.rpos_eq, ← h.wpos_eq]
    lia
  exact dif_neg hlog

/-- Reading at the cursor gives the bytes behind the read pointer. -/
theorem Shows.read (h : bp.Shows log) {count : Nat}
    (hcount : bp.rpos + count ≤ bp.wpos) :
    exists after, log.read count =
        some ((bufferReadPointer bp).take count, after) ∧
      ({ bp with rpos := bp.rpos + count } : Buffer).Shows after := by
  have hwpos := h.wf.wpos_le
  have hlen := h.wf.length_eq
  rcases h.moveTo hcount with ⟨after, hmove, hshows⟩
  have hbytes : log.elements log.cursor count =
      (bufferReadPointer bp).take count := by
    rw [← h.rpos_eq]
    have hslice : log.elements bp.rpos count =
        slice bp.data bp.rpos (bp.rpos + count) :=
      CursorLog.elements_eq_slice (by lia) fun pos hpos => h.data_eq pos (by lia)
    rw [hslice, slice, Nat.add_sub_cancel_left, bufferReadPointer]
  refine ⟨after, ?_, hshows⟩
  rw [h.rpos_eq] at hmove
  rw [CursorLog.read, hmove, hbytes]
  rfl

theorem Shows.read_none (h : bp.Shows log) {count : Nat}
    (hcount : bp.wpos < bp.rpos + count) : log.read count = none := by
  rw [CursorLog.read, ← h.rpos_eq, h.moveTo_none hcount]
  rfl

/-- Writing at the write pointer appends to the log. -/
theorem Shows.append (h : bp.Shows log) {src : List UInt8}
    (hsrc : bp.wpos + src.length ≤ bp.size) :
    exists after, log.append src = some after ∧
      ({ bp with
        data := overwrite bp.data bp.wpos src
        wpos := bp.wpos + src.length } : Buffer).Shows after := by
  have hlen := h.wf.length_eq
  have hlog : log.length + src.length ≤ log.capacity := by
    rw [← h.wpos_eq, ← h.size_eq]
    exact hsrc
  have hroom : src.length ≤ bp.size - bp.wpos := by lia
  have hput := bufferPut_eq_some h.wf hroom
  refine ⟨_, dif_pos hlog, (bufferPut_spec h.wf hput).1, h.rpos_eq, ?_, h.size_eq, ?_⟩
  · exact congrArg (· + src.length) h.wpos_eq
  · intro pos hpos
    change pos < bp.wpos + src.length at hpos
    change log.lastAfter src pos = (overwrite bp.data bp.wpos src)[pos]?
    have hfront : (bp.data.take bp.wpos).length = bp.wpos :=
      List.length_take_of_le (by lia)
    rw [CursorLog.lastAfter, ← h.wpos_eq, overwrite, List.append_assoc]
    by_cases hold : pos < bp.wpos
    · rw [if_pos hold, h.data_eq pos hold, List.getElem?_append_left (by lia),
        List.getElem?_take_of_lt hold]
    · rw [if_neg hold, List.getElem?_append_right (by lia), hfront,
        List.getElem?_append_left (by lia), List.getElem?_eq_getElem (by lia)]
      rfl

theorem Shows.append_none (h : bp.Shows log) {src : List UInt8}
    (hsrc : bp.size < bp.wpos + src.length) : log.append src = none := by
  have hlog : ¬ log.length + src.length ≤ log.capacity := by
    rw [← h.wpos_eq, ← h.size_eq]
    lia
  exact dif_neg hlog

end Buffer

/-!
## The calls simulate those on logs
-/

section

variable {ι κ : Type}

structure ShowsLogs (s : BufferMemory ι κ) (t : LogMemory ι κ) : Prop where
  buffers : forall i, (s.buffers i).Shows (t.logs i)
  areas_eq : s.areas = t.areas
  ints_eq : s.ints = t.ints

/-- Two calls end alike, and in memories that agree. -/
def SameEnd (first : Bool × BufferMemory ι κ) (second : Bool × LogMemory ι κ) : Prop :=
  first.1 = second.1 ∧ ShowsLogs first.2 second.2

variable {s : BufferMemory ι κ} {t : LogMemory ι κ} [DecidableEq ι]

theorem ShowsLogs.setBuffer (h : ShowsLogs s t) {i : ι} {bp : Buffer}
    {log : CursorLog UInt8} (hshows : bp.Shows log) :
    ShowsLogs (s.setBuffer i bp) (t.setLog i log) := by
  refine ⟨?_, h.areas_eq, h.ints_eq⟩
  intro k
  by_cases hk : k = i
  · subst hk
    simpa [BufferMemory.setBuffer, LogMemory.setLog] using hshows
  · simpa [BufferMemory.setBuffer, LogMemory.setLog, hk] using h.buffers k

/-- A function that changes one buffer as a function of logs does. -/
theorem ShowsLogs.change (h : ShowsLogs s t) {i : ι}
    {f : CursorLog UInt8 -> Option (CursorLog UInt8)}
    {attempt : Attempt (BufferMemory ι κ)} {bad : BufferMemory ι κ -> Bool}
    {after : BufferMemory ι κ -> Buffer}
    (hatomic : attempt.Atomic bad fun s => s.setBuffer i (after s))
    (hbad : bad s = true -> f (t.logs i) = none)
    (hgood : bad s = false ->
      exists log, f (t.logs i) = some log ∧ (after s).Shows log) :
    SameEnd (attempt s) (LogMemory.change i f t) := by
  cases hcase : bad s with
  | true =>
      rw [hatomic.of_bad hcase, LogMemory.change, hbad hcase]
      exact ⟨rfl, h⟩
  | false =>
      rcases hgood hcase with ⟨log, hlog, hshows⟩
      rw [hatomic.of_good hcase, LogMemory.change, hlog]
      exact ⟨rfl, h.setBuffer hshows⟩

theorem ShowsLogs.put (h : ShowsLogs s t) [DecidableEq κ] (i : ι)
    (src : List UInt8) :
    SameEnd (BufferMemory.bufferPut i src s)
      (LogMemory.change i (fun log => log.append src) t) := by
  have hwf := (h.buffers i).wf
  have hwpos := hwf.wpos_le
  apply h.change (BufferMemory.bufferPut_atomic i src)
  · intro hbad
    rw [decide_eq_true_iff, hwf.room] at hbad
    exact (h.buffers i).append_none (by lia)
  · intro hgood
    rw [decide_eq_false_iff_not, hwf.room] at hgood
    exact (h.buffers i).append (by lia)

theorem ShowsLogs.skip (h : ShowsLogs s t) (i : ι) (count : Nat) :
    SameEnd (BufferMemory.bufferSkip i count s)
      (LogMemory.change i (fun log => log.moveTo (log.cursor + count)) t) := by
  have hshows := h.buffers i
  have hrpos := hshows.wf.rpos_le
  apply h.change (BufferMemory.bufferSkip_atomic i count)
  · intro hbad
    rw [decide_eq_true_iff, sub64_of_le hrpos] at hbad
    rw [← hshows.rpos_eq]
    exact hshows.moveTo_none (by lia)
  · intro hgood
    rw [decide_eq_false_iff_not, sub64_of_le hrpos] at hgood
    rw [← hshows.rpos_eq]
    exact hshows.moveTo (by lia)

theorem ShowsLogs.seekRead (h : ShowsLogs s t) (i : ι) (newPos : Nat) :
    SameEnd (BufferMemory.bufferSeekRead i newPos s)
      (LogMemory.change i (fun log => log.moveTo newPos) t) := by
  apply h.change (BufferMemory.bufferSeekRead_atomic i newPos)
  · intro hbad
    rw [decide_eq_true_iff] at hbad
    exact (h.buffers i).moveTo_none hbad
  · intro hgood
    rw [decide_eq_false_iff_not] at hgood
    exact (h.buffers i).moveTo (by lia)

theorem ShowsLogs.truncate (h : ShowsLogs s t) (i : ι) (len : Nat) :
    SameEnd (BufferMemory.bufferTruncate i len s)
      (LogMemory.change i (fun log => log.cut len) t) := by
  have hwf := (h.buffers i).wf
  have hrpos := hwf.rpos_le
  have hlen := hwf.contents_length
  apply h.change (BufferMemory.bufferTruncate_atomic i len)
  · intro hbad
    rw [decide_eq_true_iff, bufferAvailable_eq hwf] at hbad
    exact (h.buffers i).cut_none (by lia)
  · intro hgood
    rw [decide_eq_false_iff_not, bufferAvailable_eq hwf] at hgood
    exact (h.buffers i).cut (by lia)

variable [DecidableEq κ]

omit [DecidableEq ι] in
theorem ShowsLogs.setInt (h : ShowsLogs s t) (dest : κ) (value : Nat) :
    ShowsLogs (s.setInt dest value) (t.setInt dest value) :=
  ⟨h.buffers, h.areas_eq, by
    simp only [BufferMemory.setInt, LogMemory.setInt, h.ints_eq]⟩

/-- Both sides once the bytes are at their destination. -/
theorem ShowsLogs.got (h : ShowsLogs s t) {i : ι} {dest : κ} {count : Nat}
    {log : CursorLog UInt8}
    (hafter : ({ s.buffers i with rpos := (s.buffers i).rpos + count } : Buffer).Shows log) :
    ShowsLogs
      ((s.copied i (.area dest) count).setRpos i
        (((s.copied i (.area dest) count).buffers i).rpos + count))
      ((t.setArea dest ((bufferReadPointer (s.buffers i)).take count)).setLog i log) := by
  have hcopied : ShowsLogs (s.copied i (.area dest) count)
      (t.setArea dest ((bufferReadPointer (s.buffers i)).take count)) := by
    refine ⟨h.buffers, ?_, h.ints_eq⟩
    simp only [BufferMemory.copied, BufferMemory.memcpy, LogMemory.setArea, h.areas_eq]
  exact hcopied.setBuffer hafter

theorem ShowsLogs.get (h : ShowsLogs s t) (i : ι) (dest : κ) (count : Nat) :
    SameEnd (BufferMemory.bufferGet i (.area dest) count s)
      (LogMemory.get i dest count t) := by
  have hshows := h.buffers i
  have hrpos := hshows.wf.rpos_le
  have hatomic := BufferMemory.bufferGet_atomic i (.area dest : Dest ι κ) count
  cases Nat.lt_or_ge (s.buffers i).wpos ((s.buffers i).rpos + count) with
  | inl hshort =>
      rw [hatomic.of_bad (by
        rw [decide_eq_true_iff, sub64_of_le hrpos]
        lia), LogMemory.get, hshows.read_none hshort]
      exact ⟨rfl, h⟩
  | inr hthere =>
      rcases hshows.read hthere with ⟨log, hread, hafter⟩
      rw [hatomic.of_good (by
        rw [decide_eq_false_iff_not, sub64_of_le hrpos]
        lia), LogMemory.get, hread]
      exact ⟨rfl, h.got hafter⟩

theorem ShowsLogs.getInt (h : ShowsLogs s t) (bytes : Nat) (i : ι) (dest : κ) :
    SameEnd (BufferMemory.bufferGetInt bytes i dest s)
      (LogMemory.getInt bytes i dest t) := by
  have hshows := h.buffers i
  have hrpos := hshows.wf.rpos_le
  have hwpos := hshows.wf.wpos_le
  have hlen := hshows.wf.length_eq
  have hatomic := (BufferMemory.bufferGet_atomic i (.area dest : Dest ι κ)
    bytes).andThen_assign fun s => s.setInt dest (leValue ((s.areas dest).take bytes))
  change (BufferMemory.bufferGetInt bytes i dest).Atomic _ _ at hatomic
  cases Nat.lt_or_ge (s.buffers i).wpos ((s.buffers i).rpos + bytes) with
  | inl hshort =>
      rw [hatomic.of_bad (by
        rw [decide_eq_true_iff, sub64_of_le hrpos]
        lia), LogMemory.getInt, hshows.read_none hshort]
      exact ⟨rfl, h⟩
  | inr hthere =>
      have hgot : ((bufferReadPointer (s.buffers i)).take bytes).length = bytes := by
        rw [bufferReadPointer, List.length_take_of_le]
        rw [List.length_drop]
        lia
      have hback := take_overwrite_zero (s.areas dest)
        ((bufferReadPointer (s.buffers i)).take bytes)
      rw [hgot] at hback
      have hint : ((((s.copied i (.area dest) bytes).setRpos i
          (((s.copied i (.area dest) bytes).buffers i).rpos + bytes)).areas
            dest).take bytes) = (bufferReadPointer (s.buffers i)).take bytes := by
        simp only [BufferMemory.setRpos, BufferMemory.setBuffer, BufferMemory.copied,
          BufferMemory.memcpy, Function.update_self, hback]
      rcases hshows.read hthere with ⟨log, hread, hafter⟩
      rw [hatomic.of_good (by
        rw [decide_eq_false_iff_not, sub64_of_le hrpos]
        lia), LogMemory.getInt, hread, hint]
      exact ⟨rfl, (h.got hafter).setInt dest _⟩

theorem ShowsLogs.copy (h : ShowsLogs s t) {src dst : ι} (hne : src ≠ dst)
    (count : Nat) :
    SameEnd (BufferMemory.bufferCopy src count dst s)
      (LogMemory.copy src count dst t) := by
  have hsrc := h.buffers src
  have hdst := h.buffers dst
  have hrpos := hsrc.wf.rpos_le
  have hwpos := hsrc.wf.wpos_le
  have hlen := hsrc.wf.length_eq
  have htail := hdst.wf.wpos_le
  have hatomic := BufferMemory.bufferCopy_atomic hne count (κ := κ)
  cases Nat.lt_or_ge (s.buffers src).wpos ((s.buffers src).rpos + count) with
  | inl hshort =>
      rw [hatomic.of_bad (by
        rw [Bool.or_eq_true, decide_eq_true_iff, decide_eq_true_iff, sub64_of_le hrpos]
        lia), LogMemory.copy, hsrc.read_none hshort]
      exact ⟨rfl, h⟩
  | inr hthere =>
      have hgot : ((bufferReadPointer (s.buffers src)).take count).length = count := by
        rw [bufferReadPointer, List.length_take_of_le]
        rw [List.length_drop]
        lia
      rcases hsrc.read hthere with ⟨log, hread, hafter⟩
      cases Nat.lt_or_ge (s.buffers dst).size ((s.buffers dst).wpos + count) with
      | inl hfull =>
          rw [hatomic.of_bad (by
            rw [Bool.or_eq_true, decide_eq_true_iff, decide_eq_true_iff,
              bufferTailroom_eq hdst.wf]
            lia), LogMemory.copy, hread, Option.bind_some,
            hdst.append_none (by rw [hgot]; exact hfull)]
          exact ⟨rfl, h⟩
      | inr hroom =>
          rw [← hgot] at hroom
          rcases hdst.append hroom with ⟨longer, happend, hlonger⟩
          rw [hgot] at hlonger hroom
          rw [hatomic.of_good (by
            rw [Bool.or_eq_false_iff, decide_eq_false_iff_not, decide_eq_false_iff_not,
              bufferTailroom_eq hdst.wf, sub64_of_le hrpos]
            lia), LogMemory.copy, hread, Option.bind_some, happend]
          exact ⟨rfl, (h.setBuffer hafter).setBuffer hlonger⟩

/-- Every call on buffers ends as the call on logs does. -/
theorem bufferOp_simulates :
    Attempt.Simulates (BufferOp.exec (ι := ι) (κ := κ)) BufferOp.spec ShowsLogs := by
  intro op s t h
  cases op with
  | put i src => exact h.put i src
  | putU8 i value => exact h.put i [value]
  | putU16le i value => exact h.put i (leBytes 2 value.toNat)
  | putU32le i value => exact h.put i (leBytes 4 value.toNat)
  | putU64le i value => exact h.put i (leBytes 8 value.toNat)
  | get i dest count => exact h.get i dest count
  | getU8 i dest => exact h.getInt 1 i dest
  | getU16le i dest => exact h.getInt 2 i dest
  | getU32le i dest => exact h.getInt 4 i dest
  | getU64le i dest => exact h.getInt 8 i dest
  | skip i count => exact h.skip i count
  | seekRead i newPos => exact h.seekRead i newPos
  | truncate i len => exact h.truncate i len
  | copy src count dst hne => exact h.copy hne count

end

/-!
## Runs of calls
-/

def bufferInitWriteAt (data : List UInt8) (len : Nat) : Buffer where
  rpos := 0
  wpos := 0
  size := wrap32 len
  data := data

/-- The ways to come by a buffer, each with the bytes in its data area.  The
allocator's memory holds whatever it held before. -/
inductive BufferMade where
  | initRead (data : List UInt8) (hlen : data.length < 2 ^ 32)
  | initWrite (data : List UInt8) (hlen : data.length < 2 ^ 32)
  | allocWrite (size : Nat) (data : List UInt8) (hlen : data.length = capacity size)

namespace BufferMade

def buffer : BufferMade -> Buffer
  | initRead data _ => bufferInitRead data
  | initWrite data _ => bufferInitWriteAt data data.length
  | allocWrite size data _ => { bufferAllocWrite size with data := data }

def log : BufferMade -> CursorLog UInt8
  | initRead data _ => CursorLog.full data
  | initWrite data _ => CursorLog.empty data.length
  | allocWrite size _ _ => CursorLog.empty (capacity size)

theorem shows (made : BufferMade) : made.buffer.Shows made.log := by
  cases made with
  | initRead data hlen =>
      have hsize : wrap32 data.length = data.length := wrap32_of_lt hlen
      exact ⟨bufferInitRead_wf hlen, rfl, hsize, hsize, fun _ _ => rfl⟩
  | initWrite data hlen =>
      have hsize : wrap32 data.length = data.length := wrap32_of_lt hlen
      exact ⟨⟨Nat.le_refl 0, Nat.zero_le _, wrap32_lt _, hsize.symm⟩, rfl, rfl, hsize,
        fun pos hpos => absurd hpos (Nat.not_lt_zero pos)⟩
  | allocWrite size data hlen =>
      exact ⟨⟨Nat.le_refl 0, Nat.zero_le _, wrap32_lt _, hlen⟩, rfl, rfl, rfl,
        fun pos hpos => absurd hpos (Nat.not_lt_zero pos)⟩

end BufferMade

section

variable {ι κ : Type}

def BufferMemory.fresh (made : ι -> BufferMade) (areas : κ -> List UInt8)
    (ints : κ -> Nat) : BufferMemory ι κ where
  buffers := fun i => (made i).buffer
  areas := areas
  ints := ints

def LogMemory.fresh (made : ι -> BufferMade) (areas : κ -> List UInt8)
    (ints : κ -> Nat) : LogMemory ι κ where
  logs := fun i => (made i).log
  areas := areas
  ints := ints

theorem showsLogs_fresh (made : ι -> BufferMade) (areas : κ -> List UInt8)
    (ints : κ -> Nat) :
    ShowsLogs (BufferMemory.fresh made areas ints)
      (LogMemory.fresh made areas ints) :=
  ⟨fun i => (made i).shows, rfl, rfl⟩

theorem ShowsLogs.sound {s : BufferMemory ι κ} {t : LogMemory ι κ}
    (h : ShowsLogs s t) : s.Sound :=
  fun i => (h.buffers i).wf

end

/-!
## Written and read back
-/

section

variable {ι κ : Type} [DecidableEq ι]

theorem LogMemory.change_last {i k : ι} {t : LogMemory ι κ}
    {f : CursorLog UInt8 -> Option (CursorLog UInt8)} {pos : Nat}
    (hf : forall log, f (t.logs i) = some log -> pos < (t.logs i).length ->
      log.last pos = (t.logs i).last pos)
    (hpos : pos < (t.logs k).length) :
    ((change i f t).2.logs k).last pos = (t.logs k).last pos := by
  unfold change
  cases hlog : f (t.logs i) with
  | none => rfl
  | some log =>
      by_cases hk : k = i
      · subst hk
        simpa [setLog] using hf log hlog hpos
      · simp [setLog, hk]

theorem LogMemory.setLog_last {t : LogMemory ι κ} {i k : ι} {log : CursorLog UInt8}
    {pos : Nat} (h : log.last pos = (t.logs i).last pos) :
    ((t.setLog i log).logs k).last pos = (t.logs k).last pos := by
  by_cases hk : k = i
  · subst hk
    simpa [setLog] using h
  · simp [setLog, hk]

variable [DecidableEq κ]

/-- No call writes at a position that is in the log already. -/
theorem BufferOp.spec_last (op : BufferOp ι κ) (t : LogMemory ι κ) (k : ι) {pos : Nat}
    (hpos : pos < (t.logs k).length) :
    ((op.spec t).2.logs k).last pos = (t.logs k).last pos := by
  have happend : forall (i : ι) (src : List UInt8),
      ((LogMemory.change i (fun log => log.append src) t).2.logs k).last pos =
        (t.logs k).last pos := fun i src =>
    LogMemory.change_last (fun _ h hlt => CursorLog.last_append h hlt) hpos
  have hmove : forall (i : ι) (target : CursorLog UInt8 -> Nat),
      ((LogMemory.change i (fun log => log.moveTo (target log)) t).2.logs k).last pos =
        (t.logs k).last pos := fun i target =>
    LogMemory.change_last (fun _ h _ => by rw [CursorLog.last_moveTo h]) hpos
  have hint : forall (bytes : Nat) (i : ι) (dest : κ),
      ((LogMemory.getInt bytes i dest t).2.logs k).last pos = (t.logs k).last pos := by
    intro bytes i dest
    unfold LogMemory.getInt
    cases hread : (t.logs i).read bytes with
    | none => rfl
    | some got =>
        exact LogMemory.setLog_last (t := t.setArea dest got.1)
          (by rw [CursorLog.last_read hread]; rfl)
  cases op with
  | put i src => exact happend i src
  | putU8 i value => exact happend i [value]
  | putU16le i value => exact happend i (leBytes 2 value.toNat)
  | putU32le i value => exact happend i (leBytes 4 value.toNat)
  | putU64le i value => exact happend i (leBytes 8 value.toNat)
  | get i dest count =>
      change ((LogMemory.get i dest count t).2.logs k).last pos = _
      unfold LogMemory.get
      cases hread : (t.logs i).read count with
      | none => rfl
      | some got =>
          exact LogMemory.setLog_last (t := t.setArea dest got.1)
            (by rw [CursorLog.last_read hread]; rfl)
  | getU8 i dest => exact hint 1 i dest
  | getU16le i dest => exact hint 2 i dest
  | getU32le i dest => exact hint 4 i dest
  | getU64le i dest => exact hint 8 i dest
  | skip i count => exact hmove i fun log => log.cursor + count
  | seekRead i newPos => exact hmove i fun _ => newPos
  | truncate i len =>
      exact LogMemory.change_last (fun _ h _ => by rw [CursorLog.last_cut h]) hpos
  | copy src count dst hne =>
      change ((LogMemory.copy src count dst t).2.logs k).last pos = _
      unfold LogMemory.copy
      cases hread : (t.logs src).read count with
      | none => rfl
      | some got =>
          cases hlonger : (t.logs dst).append got.1 with
          | none =>
              rw [Option.bind_some, hlonger]
              rfl
          | some longer =>
              rw [Option.bind_some, hlonger]
              change (((t.setLog src got.2).setLog dst longer).logs k).last pos = _
              by_cases hk : k = dst
              · subst hk
                simpa [LogMemory.setLog] using CursorLog.last_append hlonger hpos
              · have hother : ((t.setLog src got.2).setLog dst longer).logs k =
                    (t.setLog src got.2).logs k := by
                  simp [LogMemory.setLog, hk]
                rw [hother]
                exact LogMemory.setLog_last (by rw [CursorLog.last_read hread])

/-- During the calls the write position never gets below the bound. -/
def BufferMemory.KeepsWritten (i : ι) (bound : Nat) :
    BufferMemory ι κ -> List (BufferOp ι κ) -> Prop
  | s, [] => bound ≤ (s.buffers i).wpos
  | s, op :: rest =>
      bound ≤ (s.buffers i).wpos ∧ KeepsWritten i bound (op.exec s).2 rest

section

variable {s : BufferMemory ι κ} {t : LogMemory ι κ} {i : ι} {bound : Nat}
  {ops : List (BufferOp ι κ)}

theorem BufferMemory.KeepsWritten.last (hkeeps : s.KeepsWritten i bound ops) :
    bound ≤ ((Attempt.run BufferOp.exec ops s).buffers i).wpos := by
  induction ops generalizing s with
  | nil => exact hkeeps
  | cons op rest ih => exact ih hkeeps.2

/-- What is below the bound stays last written. -/
theorem BufferMemory.KeepsWritten.last_eq (hkeeps : s.KeepsWritten i bound ops)
    (h : ShowsLogs s t) {pos : Nat} (hpos : pos < bound) :
    ((Attempt.run BufferOp.spec ops t).logs i).last pos = (t.logs i).last pos := by
  induction ops generalizing s t with
  | nil => rfl
  | cons op rest ih =>
      have hlog : pos < (t.logs i).length := by
        rw [← (h.buffers i).wpos_eq]
        exact Nat.lt_of_lt_of_le hpos hkeeps.1
      rw [Attempt.run_cons, ih hkeeps.2 (bufferOp_simulates op s t h).2]
      exact op.spec_last t i hlog

end

/-- An integer that could be written is read when the cursor is where the write
position was, whatever calls come in between without taking it back. -/
def BufferOp.ReadsBack (s : BufferMemory ι κ) (i : ι) (put get : BufferOp ι κ)
    (dest : κ) (value : Nat) : Prop :=
  (put.exec s).1 = true ->
  forall ops, (put.exec s).2.KeepsWritten i ((put.exec s).2.buffers i).wpos ops ->
    ((Attempt.run exec ops (put.exec s).2).buffers i).rpos = (s.buffers i).wpos ->
      (get.exec (Attempt.run exec ops (put.exec s).2)).1 = true ∧
      (get.exec (Attempt.run exec ops (put.exec s).2)).2.ints dest = value

omit [DecidableEq κ] in
theorem LogMemory.change_succeeds {i : ι} {t : LogMemory ι κ}
    {f : CursorLog UInt8 -> Option (CursorLog UInt8)}
    (h : (change i f t).1 = true) :
    exists log, f (t.logs i) = some log ∧ (change i f t).2 = t.setLog i log := by
  unfold change at h ⊢
  cases hlog : f (t.logs i) with
  | none =>
      rw [hlog] at h
      cases h
  | some log => exact ⟨log, rfl, rfl⟩

theorem ShowsLogs.readsBack {s : BufferMemory ι κ} {t : LogMemory ι κ}
    (h : ShowsLogs s t) {i : ι} {dest : κ} {put get : BufferOp ι κ}
    (bytes : Nat) {value : Nat}
    (hput : put.exec = BufferMemory.bufferPut i (leBytes bytes value))
    (hget : get.exec = BufferMemory.bufferGetInt bytes i dest)
    (hvalue : value < 256 ^ bytes) : put.ReadsBack s i get dest value := by
  intro hok ops hkeeps hcursor
  have hwritten := h.put i (leBytes bytes value)
  rw [← hput] at hwritten
  rcases LogMemory.change_succeeds (hwritten.1 ▸ hok) with ⟨longer, happend, hchange⟩
  have hshows := hwritten.2
  rw [hchange] at hshows
  have hlonger : (t.setLog i longer).logs i = longer := by
    simp [LogMemory.setLog]
  have hlength : ((put.exec s).2.buffers i).wpos = (t.logs i).length + bytes := by
    rw [(hshows.buffers i).wpos_eq, hlonger, (CursorLog.append_eq_some happend).2.2.1,
      leBytes_length]
  have hafter := bufferOp_simulates.run_rel ops hshows
  have hbuf := hafter.buffers i
  have hwpos := hkeeps.last
  have hpos : (t.logs i).length = (s.buffers i).wpos := (h.buffers i).wpos_eq.symm
  have hthere : ((Attempt.run BufferOp.exec ops (put.exec s).2).buffers i).rpos + bytes ≤
      ((Attempt.run BufferOp.exec ops (put.exec s).2).buffers i).wpos := by
    rw [hcursor]
    lia
  rcases hbuf.read hthere with ⟨log, hread, _⟩
  have hgot := CursorLog.read_eq_some hread
  rw [← hbuf.rpos_eq, hcursor, ← hpos] at hgot
  have hbytes : (bufferReadPointer ((Attempt.run BufferOp.exec ops
      (put.exec s).2).buffers i)).take bytes = leBytes bytes value := by
    have hback := CursorLog.elements_append happend
    rw [leBytes_length] at hback
    rw [hgot, ← hback]
    apply CursorLog.elements_congr
    intro pos hlt
    rw [hkeeps.last_eq hshows (by lia), hlonger]
  have hend := hafter.getInt bytes i dest
  rw [← hget] at hend
  rw [hbytes] at hread
  have hint : LogMemory.getInt bytes i dest
      (Attempt.run BufferOp.spec ops (t.setLog i longer)) =
      (true, (((Attempt.run BufferOp.spec ops (t.setLog i longer)).setArea dest
        (leBytes bytes value)).setLog i log).setInt dest value) := by
    rw [LogMemory.getInt, hread, Option.elim_some, leValue_leBytes_of_lt hvalue]
  rw [hint] at hend
  refine ⟨hend.1, ?_⟩
  rw [hend.2.ints_eq]
  simp [LogMemory.setInt]

/-!
## The whole
-/

/-- The buffers are logs: they show the logs on which the same calls were made,
and the next call does to them what it does to the logs. -/
structure BufferMemory.IsLogs (s : BufferMemory ι κ) (t : LogMemory ι κ) : Prop where
  shows : ShowsLogs s t
  inOrder : forall i, (s.buffers i).rpos ≤ (s.buffers i).wpos ∧
    (s.buffers i).wpos ≤ (s.buffers i).size
  fails : forall op : BufferOp ι κ, (op.exec s).1 = false ↔ op.Exceeds s
  unchanged : forall op : BufferOp ι κ, (op.exec s).1 = false -> (op.exec s).2 = s
  next : forall op : BufferOp ι κ, SameEnd (op.exec s) (op.spec t)
  readsBackU8 : forall i dest (value : UInt8),
    (BufferOp.putU8 i value).ReadsBack s i (.getU8 i dest) dest value.toNat
  readsBackU16le : forall i dest (value : UInt16),
    (BufferOp.putU16le i value).ReadsBack s i (.getU16le i dest) dest value.toNat
  readsBackU32le : forall i dest (value : UInt32),
    (BufferOp.putU32le i value).ReadsBack s i (.getU32le i dest) dest value.toNat
  readsBackU64le : forall i dest (value : UInt64),
    (BufferOp.putU64le i value).ReadsBack s i (.getU64le i dest) dest value.toNat

/-- Whatever calls are made on buffers of any making, in any order. -/
theorem bufferRun_isLogs (made : ι -> BufferMade) (areas : κ -> List UInt8)
    (ints : κ -> Nat) (ops : List (BufferOp ι κ)) :
    BufferMemory.IsLogs
      (Attempt.run BufferOp.exec ops (BufferMemory.fresh made areas ints))
      (Attempt.run BufferOp.spec ops (LogMemory.fresh made areas ints)) := by
  have h := bufferOp_simulates.run_rel ops (showsLogs_fresh made areas ints)
  refine {
    shows := h
    inOrder := fun i => ⟨(h.sound i).rpos_le, (h.sound i).wpos_le⟩
    fails := fun op => op.exec_failsAs.iff_exceeds _ h.sound
    unchanged := fun op => op.exec_failsAs.unchanged _
    next := fun op => bufferOp_simulates op _ _ h
    readsBackU8 := ?_
    readsBackU16le := fun i dest value =>
      h.readsBack 2 rfl rfl value.toNat_lt
    readsBackU32le := fun i dest value =>
      h.readsBack 4 rfl rfl value.toNat_lt
    readsBackU64le := fun i dest value =>
      h.readsBack 8 rfl rfl value.toNat_lt }
  intro i dest value
  have hbyte : [value] = leBytes 1 value.toNat := by
    simp [leBytes]
  refine h.readsBack 1 ?_ rfl value.toNat_lt
  rw [← hbyte]
  rfl

end

end UtokenDecrypt
