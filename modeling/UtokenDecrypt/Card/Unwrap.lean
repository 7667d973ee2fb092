import UtokenDecrypt.Card.Lengths

/-!
# Unwrapping a response

What `yubikey_decode_decipher_resp` and `pkcs1_type2_padding_remove`
accept and what they leave.  Both look at bytes without checking that there are
any, so everything here is about a memory that shows the available bytes of a
buffer and has arbitrary bytes everywhere else.

The lengths in a response are read and thrown away, and the padding may have any
length.
-/

namespace UtokenDecrypt

open Foundation

/-- The memory has the available bytes of the buffer where they belong. -/
def MemoryShows (mem : Nat -> UInt8) (bp : Buffer) : Prop :=
  bytesAt mem bp.rpos bp.contents.length = bp.contents

/-- The bytes are `7c L1 82 L2 v`, with any two length fields. -/
def DecipherResponse (bytes v : List UInt8) : Prop :=
  exists field1 len1 field2 len2, LengthEncoding field1 len1 ∧
    LengthEncoding field2 len2 ∧
    bytes = 0x7c :: (field1 ++ 0x82 :: (field2 ++ v))

/-- The bytes are `00 02 PS 00 M`, with no zero in `PS`. -/
def Pkcs1Type2 (bytes message : List UInt8) : Prop :=
  exists padding, (0 : UInt8) ∉ padding ∧
    bytes = 0x00 :: 0x02 :: (padding ++ 0x00 :: message)

/-- Only the read position has moved, inside the available bytes. -/
def OnlySkipped (bp after : Buffer) : Prop :=
  exists count, count ≤ bp.contents.length ∧
    after = { bp with rpos := bp.rpos + count }

section

variable {mem : Nat -> UInt8} {bp after : Buffer}

theorem OnlySkipped.wf (h : OnlySkipped bp after) (hwf : bp.Wf) : after.Wf := by
  rcases h with ⟨count, hcount, rfl⟩
  exact bufferSkip_wf hwf hcount

theorem OnlySkipped.wpos (h : OnlySkipped bp after) : after.wpos = bp.wpos := by
  rcases h with ⟨count, _, rfl⟩
  rfl

/-- A skip that succeeds leaves what is behind the skipped bytes. -/
theorem bufferSkip_eq_some_iff (h : bp.Wf) {count : Nat} :
    bufferSkip bp count = some after ↔
      count ≤ bp.contents.length ∧ after = { bp with rpos := bp.rpos + count } := by
  cases Nat.lt_or_ge bp.contents.length count with
  | inl hshort =>
      rw [bufferSkip_eq_none h hshort]
      simp only [reduceCtorEq, false_iff, not_and]
      lia
  | inr hfits =>
      rw [bufferSkip_eq_some h hfits, Option.some_inj]
      simp only [hfits, true_and, eq_comm]

theorem bufferTrySkip_of_le (h : bp.Wf) {count : Nat}
    (hfits : count ≤ bp.contents.length) :
    bufferTrySkip bp count = (true, { bp with rpos := bp.rpos + count }) := by
  rw [bufferTrySkip, bufferSkip_eq_some h hfits]
  rfl

theorem bufferTrySkip_eq_true_iff (h : bp.Wf) {count : Nat} :
    bufferTrySkip bp count = (true, after) ↔
      count ≤ bp.contents.length ∧ after = { bp with rpos := bp.rpos + count } := by
  rw [← bufferSkip_eq_some_iff h, bufferTrySkip]
  cases bufferSkip bp count with
  | none => simp
  | some found => simp

theorem bufferTrySkip_false {count : Nat} (h : (bufferTrySkip bp count).1 = false) :
    bufferTrySkip bp count = (false, bp) := by
  unfold bufferTrySkip at h ⊢
  cases hskip : bufferSkip bp count with
  | none => rfl
  | some found =>
      rw [hskip] at h
      cases h

theorem bytesAt_getD (data : List UInt8) {pos count : Nat}
    (h : pos + count ≤ data.length) :
    bytesAt (fun pos => data.getD pos 0) pos count =
      slice data pos (pos + count) := by
  induction count generalizing pos with
  | zero => simp [bytesAt]
  | succ count ih =>
      have hpos : pos < data.length := by lia
      rw [bytesAt, ih (by lia), List.getD_eq_getElem _ _ hpos]
      simp only [slice]
      rw [List.drop_eq_getElem_cons hpos, Nat.add_sub_cancel_left,
        Nat.add_sub_cancel_left, List.take_succ_cons]

theorem memoryShows_data (h : bp.Wf) :
    MemoryShows (fun pos => bp.data.getD pos 0) bp := by
  have hlen := h.contents_length
  have hrpos := h.rpos_le
  have hwpos := h.wpos_le
  rw [MemoryShows, bytesAt_getD _ (by rw [h.length_eq]; lia), hlen,
    Nat.add_sub_cancel' hrpos]
  rfl

theorem MemoryShows.skip (h : MemoryShows mem bp) {count : Nat}
    (hcount : count ≤ bp.contents.length) :
    MemoryShows mem { bp with rpos := bp.rpos + count } := by
  have hcontents := bufferSkip_contents bp count
  have hsplit := bytesAt_append mem bp.rpos count (bp.contents.length - count)
  rw [Nat.add_sub_cancel' hcount, h] at hsplit
  have hdrop := congrArg (List.drop count) hsplit
  rw [List.drop_left' (bytesAt_length _ _ _)] at hdrop
  rw [MemoryShows, hcontents, List.length_drop]
  exact hdrop.symm

theorem OnlySkipped.shows (h : OnlySkipped bp after) (hmem : MemoryShows mem bp) :
    MemoryShows mem after := by
  rcases h with ⟨count, hcount, rfl⟩
  exact hmem.skip hcount

/-!
## The response
-/

/-- The two tags decide, and then the room for the fields. -/
theorem yubikeyDecodeDecipherResp_value {len1 pos1 len2 pos2 : Nat}
    (houter : (decodeLength (bp.rpos + 1)).value mem = (len1, pos1))
    (hinner : (decodeLength (pos1 + 1)).value mem = (len2, pos2)) :
    (yubikeyDecodeDecipherResp bp).value mem =
      if mem bp.rpos = 0x7c ∧ mem pos1 = 0x82 then
        bufferTrySkip bp (pos2 - bp.rpos)
      else (false, bp) := by
  unfold yubikeyDecodeDecipherResp
  by_cases htag : mem bp.rpos = 0x7c
  · by_cases htag2 : mem pos1 = 0x82
    · simp [houter, hinner, htag, htag2]
    · simp [houter, htag, htag2]
  · simp [htag]

/-- The response is accepted behind any two length fields that fit. -/
theorem yubikeyDecodeDecipherResp_eq_true_iff (h : bp.Wf)
    (hmem : MemoryShows mem bp) :
    (yubikeyDecodeDecipherResp bp).value mem = (true, after) ↔
      exists v, DecipherResponse bp.contents v ∧
        after = { bp with rpos := bp.rpos + (bp.contents.length - v.length) } := by
  constructor
  · intro hsome
    rcases decodeLength_exists mem (bp.rpos + 1) with ⟨field1, len1, hfield1, hat1, _⟩
    have houter := decodeLength_value hfield1 hat1
    rcases decodeLength_exists mem (bp.rpos + 1 + field1.length + 1) with
      ⟨field2, len2, hfield2, hat2, _⟩
    have hinner := decodeLength_value hfield2 hat2
    rw [yubikeyDecodeDecipherResp_value houter hinner] at hsome
    split at hsome
    · rename_i htags
      rcases (bufferTrySkip_eq_true_iff h).mp hsome with ⟨hfits, hafter⟩
      have hskip : bp.rpos + 1 + field1.length + 1 + field2.length - bp.rpos =
          2 + field1.length + field2.length := by lia
      rw [hskip] at hfits hafter
      -- the available bytes are the tags, the fields and what is left
      have hrest := bytesAt_length mem
        (bp.rpos + 1 + field1.length + 1 + field2.length)
        (bp.contents.length - (2 + field1.length + field2.length))
      have hbytes : bp.contents = 0x7c :: (field1 ++ 0x82 :: (field2 ++
          bytesAt mem (bp.rpos + 1 + field1.length + 1 + field2.length)
            (bp.contents.length - (2 + field1.length + field2.length)))) := by
        rw [MemoryShows] at hmem
        refine hmem.symm.trans ?_
        simp only [bytesAt_eq_cons_iff, bytesAt_eq_append_iff, bytesAt_length,
          List.length_cons, List.length_append]
        exact ⟨by lia, htags.1, trivial, hat1, by lia, htags.2, trivial, hat2, trivial⟩
      refine ⟨_, ⟨field1, len1, field2, len2, hfield1, hfield2, hbytes⟩, ?_⟩
      rw [hafter, hrest]
      congr 2
      lia
    · cases hsome
  · intro hexists
    rcases hexists with ⟨v, ⟨field1, len1, field2, len2, hfield1, hfield2, hbytes⟩, rfl⟩
    have hlen := congrArg List.length hbytes
    simp only [List.length_cons, List.length_append] at hlen
    have hall := hmem
    rw [MemoryShows, hbytes] at hall
    rcases bytesAt_eq_cons_iff.mp hall with ⟨_, htag, hall⟩
    rcases bytesAt_eq_append_iff.mp hall with ⟨_, hat1, hall⟩
    rcases bytesAt_eq_cons_iff.mp hall with ⟨_, htag2, hall⟩
    rcases bytesAt_eq_append_iff.mp hall with ⟨_, hat2, _⟩
    have hskip : bp.rpos + 1 + field1.length + 1 + field2.length - bp.rpos =
        bp.contents.length - v.length := by lia
    rw [yubikeyDecodeDecipherResp_value (decodeLength_value hfield1 hat1)
      (decodeLength_value hfield2 hat2), if_pos ⟨htag, htag2⟩, hskip]
    exact bufferTrySkip_of_le h (by lia)

/-- The bytes behind a prefix, once the prefix is skipped. -/
theorem skipped_contents (front : List UInt8) {v : List UInt8}
    (hbytes : bp.contents = front ++ v) :
    ({ bp with rpos := bp.rpos + (bp.contents.length - v.length) } : Buffer).contents =
      v := by
  have hlen : bp.contents.length - v.length = front.length := by
    rw [hbytes, List.length_append, Nat.add_sub_cancel]
  rw [bufferSkip_contents, hlen, hbytes, List.drop_left]

theorem DecipherResponse.skipped {v : List UInt8}
    (h : DecipherResponse bp.contents v) :
    ({ bp with rpos := bp.rpos + (bp.contents.length - v.length) } : Buffer).contents =
      v := by
  rcases h with ⟨field1, len1, field2, len2, _, _, hbytes⟩
  exact skipped_contents (0x7c :: (field1 ++ 0x82 :: field2))
    (by simpa using hbytes)

/-- Two tags and two length fields have at most eight bytes.  No others are looked
at, and at most these are skipped. -/
theorem yubikeyDecodeDecipherResp_span (mem : Nat -> UInt8) (bp : Buffer) :
    exists span, span ≤ 8 ∧
      ((yubikeyDecodeDecipherResp bp).value mem = bufferTrySkip bp span ∨
        (yubikeyDecodeDecipherResp bp).value mem = (false, bp)) ∧
      forall p, p ∈ (yubikeyDecodeDecipherResp bp).reads mem -> p < bp.rpos + span := by
  rcases decodeLength_exists mem (bp.rpos + 1) with
    ⟨field1, len1, hfield1, hat1, hreads1⟩
  have houter := decodeLength_value hfield1 hat1
  rcases decodeLength_exists mem (bp.rpos + 1 + field1.length + 1) with
    ⟨field2, len2, hfield2, hat2, hreads2⟩
  have hvalue := yubikeyDecodeDecipherResp_value houter (decodeLength_value hfield2 hat2)
  have hle1 := hfield1.length_le
  have hle2 := hfield2.length_le
  refine ⟨bp.rpos + 1 + field1.length + 1 + field2.length - bp.rpos, by lia, ?_, ?_⟩
  · rw [hvalue]
    split
    · exact Or.inl rfl
    · exact Or.inr rfl
  · intro p hp
    by_cases htag : mem bp.rpos = 0x7c
    · by_cases htag2 : mem (bp.rpos + 1 + field1.length) = 0x82
      · simp only [yubikeyDecodeDecipherResp, Peek.reads_bind, Peek.reads_byte,
          Peek.value_byte, ne_eq, htag, htag2, not_true_eq_false, if_false, houter,
          Peek.reads_pure, List.append_nil, List.mem_append, List.mem_singleton] at hp
        rcases hp with hp | hp | hp | hp
        · lia
        · have hlt := hreads1 p hp
          lia
        · lia
        · have hlt := hreads2 p hp
          lia
      · simp only [yubikeyDecodeDecipherResp, Peek.reads_bind, Peek.reads_byte,
          Peek.value_byte, ne_eq, htag, htag2, not_true_eq_false, not_false_eq_true,
          if_false, if_true, houter, Peek.reads_pure, List.append_nil, List.mem_append,
          List.mem_singleton] at hp
        rcases hp with hp | hp | hp
        · lia
        · have hlt := hreads1 p hp
          lia
        · lia
    · simp only [yubikeyDecodeDecipherResp, Peek.reads_bind, Peek.reads_byte,
        Peek.value_byte, ne_eq, htag, not_false_eq_true, if_true, Peek.reads_pure,
        List.append_nil, List.mem_singleton] at hp
      lia

/-- A response that is accepted was only looked at inside its available
bytes. -/
theorem yubikeyDecodeDecipherResp_reads (h : bp.Wf)
    (hsome : (yubikeyDecodeDecipherResp bp).value mem = (true, after)) {p : Nat}
    (hp : p ∈ (yubikeyDecodeDecipherResp bp).reads mem) : p < bp.wpos := by
  rcases yubikeyDecodeDecipherResp_span mem bp with ⟨span, _, hvalue, hreads⟩
  have hlt := hreads p hp
  rw [hsome] at hvalue
  cases hvalue with
  | inl hskip =>
      have hfits := ((bufferTrySkip_eq_true_iff h).mp hskip.symm).1
      rw [h.contents_length] at hfits
      have hrpos := h.rpos_le
      lia
  | inr hnone => cases hnone

theorem yubikeyDecodeDecipherResp_rpos_le (h : bp.Wf)
    (hsome : (yubikeyDecodeDecipherResp bp).value mem = (true, after)) :
    after.Wf ∧ after.rpos ≤ bp.rpos + 8 ∧ after.wpos = bp.wpos := by
  rcases yubikeyDecodeDecipherResp_span mem bp with ⟨span, hspan, hvalue, _⟩
  rw [hsome] at hvalue
  cases hvalue with
  | inl hskip =>
      rcases (bufferTrySkip_eq_true_iff h).mp hskip.symm with ⟨hfits, rfl⟩
      exact ⟨bufferSkip_wf h hfits, Nat.add_le_add_left hspan _, rfl⟩
  | inr hnone => cases hnone

theorem yubikeyDecodeDecipherResp_contents_iff (h : bp.Wf)
    (hmem : MemoryShows mem bp) (v : List UInt8) :
    (exists after, (yubikeyDecodeDecipherResp bp).value mem = (true, after) ∧
      after.contents = v) ↔ DecipherResponse bp.contents v := by
  constructor
  · rintro ⟨after, htrue, rfl⟩
    rcases (yubikeyDecodeDecipherResp_eq_true_iff h hmem).mp htrue with ⟨w, hw, rfl⟩
    rw [hw.skipped]
    exact hw
  · intro hv
    exact ⟨_, (yubikeyDecodeDecipherResp_eq_true_iff h hmem).mpr ⟨v, hv, rfl⟩,
      hv.skipped⟩

theorem onlySkipped_of_decode (h : bp.Wf) (hmem : MemoryShows mem bp)
    (htrue : (yubikeyDecodeDecipherResp bp).value mem = (true, after)) :
    OnlySkipped bp after := by
  rcases (yubikeyDecodeDecipherResp_eq_true_iff h hmem).mp htrue with ⟨v, _, rfl⟩
  exact ⟨_, Nat.sub_le _ _, rfl⟩

theorem yubikeyDecodeDecipherResp_false
    (h : ((yubikeyDecodeDecipherResp bp).value mem).1 = false) :
    (yubikeyDecodeDecipherResp bp).value mem = (false, bp) := by
  rcases yubikeyDecodeDecipherResp_span mem bp with ⟨span, _, hskip | hfalse, _⟩
  · rw [hskip] at h ⊢
    exact bufferTrySkip_false h
  · exact hfalse

/-- The response parser accepts exactly the responses with two length fields in
the right places, whatever these say, and leaves the value.  It leaves all others
as they are. -/
theorem yubikeyDecodeDecipherResp_accepts_iff (h : bp.Wf)
    (hmem : MemoryShows mem bp) :
    (forall v, (exists after, (yubikeyDecodeDecipherResp bp).value mem = (true, after) ∧
        after.contents = v) ↔ DecipherResponse bp.contents v) ∧
      (forall after, (yubikeyDecodeDecipherResp bp).value mem = (true, after) ->
        OnlySkipped bp after) ∧
      ((forall v, ¬ DecipherResponse bp.contents v) ->
        (yubikeyDecodeDecipherResp bp).value mem = (false, bp)) := by
  refine ⟨yubikeyDecodeDecipherResp_contents_iff h hmem,
    fun _ htrue => onlySkipped_of_decode h hmem htrue, fun hnone => ?_⟩
  apply yubikeyDecodeDecipherResp_false
  cases hvalue : (yubikeyDecodeDecipherResp bp).value mem with
  | mk okay after =>
      cases okay with
      | false => rfl
      | true =>
          exact absurd ((yubikeyDecodeDecipherResp_contents_iff h hmem _).mp
            ⟨after, hvalue, rfl⟩) (hnone _)

theorem yubikeyDecodeDecipherResp_accepts_short :
    exists after, (yubikeyDecodeDecipherResp
        (bufferInitRead [0x7c, 0x03, 0x82, 0x01, 0x55])).value
        (fun pos => [0x7c, 0x03, 0x82, 0x01, 0x55].getD pos 0) = (true, after) ∧
      after.contents = [0x55] :=
  ((yubikeyDecodeDecipherResp_accepts_iff (bufferInitRead_wf (by decide))
    (memoryShows_data (bufferInitRead_wf (by decide)))).1 [0x55]).mpr
    ⟨[0x03], _, [0x01], _, LengthEncoding.single (by decide) (by decide),
      LengthEncoding.single (by decide) (by decide), by decide⟩

/-- The lengths are not compared with anything: this response says that
nothing follows its first length field. -/
theorem not_decipherResp_lengthsChecked :
    ¬ forall (bp : Buffer) (mem : Nat -> UInt8), bp.Wf -> MemoryShows mem bp ->
      (((yubikeyDecodeDecipherResp bp).value mem).1 = true ↔
        exists field1 len1 field2 len2 v, LengthEncoding field1 len1 ∧
          LengthEncoding field2 len2 ∧
          bp.contents = 0x7c :: (field1 ++ 0x82 :: (field2 ++ v)) ∧
          len1 = (0x82 :: (field2 ++ v)).length ∧ len2 = v.length) := by
  intro hclaim
  have hwf : (bufferInitRead [0x7c, 0x00, 0x82, 0x00, 0x55]).Wf :=
    bufferInitRead_wf (by decide)
  have hiff := hclaim (bufferInitRead [0x7c, 0x00, 0x82, 0x00, 0x55])
    (fun pos => [0x7c, 0x00, 0x82, 0x00, 0x55].getD pos 0) hwf (memoryShows_data hwf)
  rcases hiff.mp (by decide) with
    ⟨field1, len1, field2, len2, v, hfield1, _, hbytes, hlen1, _⟩
  have hcontents : (bufferInitRead [0x7c, 0x00, 0x82, 0x00, 0x55]).contents =
      [0x7c, 0x00, 0x82, 0x00, 0x55] := bufferInitRead_contents (by decide)
  rw [hcontents] at hbytes
  -- the first length field is the single zero byte
  cases hfield1 with
  | single h81 h82 =>
      injection hbytes with _ hbytes
      injection hbytes with hzero _
      rw [← hzero] at hlen1
      cases hlen1
  | oneByte byte =>
      injection hbytes with _ hbytes
      injection hbytes with hzero _
      cases hzero
  | twoBytes high low =>
      injection hbytes with _ hbytes
      injection hbytes with hzero _
      cases hzero

/-!
## The padding
-/

theorem pkcs1FindSeparator_eq_true_iff (h : bp.Wf) {count i : Nat}
    (hend : i + count ≤ bp.contents.length) :
    (pkcs1FindSeparator bp count i).value mem = (true, after) ↔
      exists padding message, (0 : UInt8) ∉ padding ∧
        bytesAt mem (bp.rpos + i) count = padding ++ 0x00 :: message ∧
        after = { bp with rpos := bp.rpos + (i + padding.length + 1) } := by
  induction count generalizing i with
  | zero => simp [pkcs1FindSeparator, bytesAt]
  | succ count ih =>
      rw [bytesAt]
      by_cases hzero : mem (bp.rpos + i) = 0
      · have hskip := bufferTrySkip_of_le h (by lia : i + 1 ≤ bp.contents.length)
        have hvalue : (pkcs1FindSeparator bp (count + 1) i).value mem =
            (true, { bp with rpos := bp.rpos + (i + 1) }) := by
          simp [pkcs1FindSeparator, hzero, hskip]
        rw [hvalue, hzero]
        constructor
        · intro hsome
          cases hsome
          exact ⟨[], bytesAt mem (bp.rpos + i + 1) count, by simp, rfl, rfl⟩
        · rintro ⟨padding, message, hnonzero, hbytes, rfl⟩
          cases padding with
          | nil => rfl
          | cons byte rest =>
              cases (List.cons.inj hbytes).1
              exact absurd List.mem_cons_self hnonzero
      · have hvalue : (pkcs1FindSeparator bp (count + 1) i).value mem =
            (pkcs1FindSeparator bp count (i + 1)).value mem := by
          simp [pkcs1FindSeparator, hzero]
        rw [hvalue, ih (by lia), Nat.add_assoc bp.rpos i 1]
        constructor
        · rintro ⟨padding, message, hnonzero, hbytes, rfl⟩
          refine ⟨mem (bp.rpos + i) :: padding, message, ?_, ?_, ?_⟩
          · rw [List.mem_cons, not_or]
            exact ⟨fun heq => hzero heq.symm, hnonzero⟩
          · rw [hbytes, List.cons_append]
          · rw [List.length_cons]
            congr 1
            lia
        · rintro ⟨padding, message, hnonzero, hbytes, rfl⟩
          cases padding with
          | nil => exact absurd (List.cons.inj hbytes).1 hzero
          | cons byte rest =>
              refine ⟨rest, message, ?_, (List.cons.inj hbytes).2, ?_⟩
              · exact fun hmem => hnonzero (List.mem_cons_of_mem _ hmem)
              · rw [List.length_cons]
                congr 1
                lia

theorem pkcs1FindSeparator_reads {count i p : Nat}
    (hp : p ∈ (pkcs1FindSeparator bp count i).reads mem) :
    p < bp.rpos + i + count := by
  induction count generalizing i with
  | zero => simp [pkcs1FindSeparator] at hp
  | succ count ih =>
      by_cases hzero : mem (bp.rpos + i) = 0
      · simp [pkcs1FindSeparator, hzero] at hp
        lia
      · simp [pkcs1FindSeparator, hzero] at hp
        rcases hp with hp | hp
        · lia
        · have hlt := ih hp
          lia

/-- The two leading bytes decide, and then the search. -/
theorem pkcs1Type2PaddingRemove_value :
    (pkcs1Type2PaddingRemove bp).value mem =
      if mem bp.rpos = 0x00 ∧ mem (bp.rpos + 1) = 0x02 then
        (pkcs1FindSeparator bp (bufferAvailable bp - 2) 2).value mem
      else (false, bp) := by
  unfold pkcs1Type2PaddingRemove
  by_cases hfirst : mem bp.rpos = 0x00
  · by_cases hsecond : mem (bp.rpos + 1) = 0x02
    · simp [hfirst, hsecond]
    · simp [hfirst, hsecond]
  · simp [hfirst]

theorem Pkcs1Type2.skipped {message : List UInt8}
    (h : Pkcs1Type2 bp.contents message) :
    ({ bp with rpos := bp.rpos + (bp.contents.length - message.length) } :
      Buffer).contents = message := by
  rcases h with ⟨padding, _, hbytes⟩
  exact skipped_contents (0x00 :: 0x02 :: (padding ++ [0x00]))
    (by simpa using hbytes)

theorem pkcs1Type2PaddingRemove_eq_true_iff (h : bp.Wf)
    (hmem : MemoryShows mem bp) :
    (pkcs1Type2PaddingRemove bp).value mem = (true, after) ↔
      exists message, Pkcs1Type2 bp.contents message ∧
        after = { bp with
          rpos := bp.rpos + (bp.contents.length - message.length) } := by
  rw [pkcs1Type2PaddingRemove_value, bufferAvailable_eq h]
  cases Nat.lt_or_ge bp.contents.length 2 with
  | inl hshort =>
      -- nothing is left to search, and too little for the form
      rw [Nat.sub_eq_zero_of_le (Nat.le_of_lt hshort)]
      constructor
      · intro hsome
        split at hsome <;> cases hsome
      · rintro ⟨message, ⟨padding, _, hbytes⟩, _⟩
        have hlen := congrArg List.length hbytes
        simp only [List.length_cons, List.length_append] at hlen
        lia
  | inr hlong =>
      have hbytes : bp.contents = mem bp.rpos :: mem (bp.rpos + 1) ::
          bytesAt mem (bp.rpos + 2) (bp.contents.length - 2) := by
        refine hmem.symm.trans ?_
        simp only [bytesAt_eq_cons_iff, bytesAt_length, List.length_cons]
        exact ⟨by lia, trivial, by lia, trivial, trivial⟩
      have hfind : (pkcs1FindSeparator bp (bp.contents.length - 2) 2).value mem =
          (true, after) ↔ _ := pkcs1FindSeparator_eq_true_iff h (by lia)
      constructor
      · intro hsome
        split at hsome
        · rename_i hleading
          rcases hfind.mp hsome with ⟨padding, message, hnonzero, hrest, rfl⟩
          rw [hleading.1, hleading.2, hrest] at hbytes
          refine ⟨message, ⟨padding, hnonzero, hbytes⟩, ?_⟩
          have hlen := congrArg List.length hbytes
          simp only [List.length_cons, List.length_append] at hlen
          congr 1
          lia
        · cases hsome
      · rintro ⟨message, ⟨padding, hnonzero, hform⟩, rfl⟩
        rw [hbytes] at hform
        injection hform with hfirst hform
        injection hform with hsecond hrest
        rw [if_pos ⟨hfirst, hsecond⟩]
        refine hfind.mpr ⟨padding, message, hnonzero, hrest, ?_⟩
        have hlen := congrArg List.length hrest
        simp only [bytesAt_length, List.length_cons, List.length_append] at hlen
        congr 1
        lia

/-- The two leading bytes are looked at, and then only bytes that are there. -/
theorem pkcs1Type2PaddingRemove_reads_lt (h : bp.Wf) {p : Nat}
    (hp : p ∈ (pkcs1Type2PaddingRemove bp).reads mem) :
    p < bp.rpos + 2 ∨ p < bp.wpos := by
  have hlen := h.contents_length
  have hrpos := h.rpos_le
  by_cases hleading : mem bp.rpos = 0x00 ∧ mem (bp.rpos + 1) = 0x02
  · simp only [pkcs1Type2PaddingRemove, Peek.reads_bind, Peek.reads_byte,
      Peek.value_byte, hleading.1, hleading.2, ne_eq, not_true_eq_false, or_self,
      if_false, bufferAvailable_eq h, List.mem_append, List.mem_singleton] at hp
    rcases hp with hp | hp | hp
    · lia
    · lia
    · have hlt := pkcs1FindSeparator_reads hp
      lia
  · simp only [pkcs1Type2PaddingRemove, Peek.reads_bind, Peek.reads_byte,
      Peek.value_byte, ne_eq, ← not_and_or, hleading, not_false_eq_true, if_true,
      Peek.reads_pure, List.append_nil, List.mem_append, List.mem_singleton] at hp
    lia

/-- A body whose padding is removed was only looked at inside its available
bytes. -/
theorem pkcs1Type2PaddingRemove_reads (h : bp.Wf)
    (hsome : (pkcs1Type2PaddingRemove bp).value mem = (true, after)) {p : Nat}
    (hp : p ∈ (pkcs1Type2PaddingRemove bp).reads mem) : p < bp.wpos := by
  have hlong : 2 < bp.contents.length := by
    rw [pkcs1Type2PaddingRemove_value, bufferAvailable_eq h] at hsome
    by_contra hshort
    rw [Nat.sub_eq_zero_of_le (by lia)] at hsome
    split at hsome <;> cases hsome
  rw [h.contents_length] at hlong
  cases pkcs1Type2PaddingRemove_reads_lt h hp with
  | inl hlt => lia
  | inr hlt => exact hlt

theorem pkcs1Type2PaddingRemove_contents_iff (h : bp.Wf)
    (hmem : MemoryShows mem bp) (message : List UInt8) :
    (exists after, (pkcs1Type2PaddingRemove bp).value mem = (true, after) ∧
      after.contents = message) ↔ Pkcs1Type2 bp.contents message := by
  constructor
  · rintro ⟨after, htrue, rfl⟩
    rcases (pkcs1Type2PaddingRemove_eq_true_iff h hmem).mp htrue with
      ⟨found, hfound, rfl⟩
    rw [hfound.skipped]
    exact hfound
  · intro hmessage
    exact ⟨_, (pkcs1Type2PaddingRemove_eq_true_iff h hmem).mpr
      ⟨message, hmessage, rfl⟩, hmessage.skipped⟩

theorem pkcs1FindSeparator_false {count i : Nat}
    (h : ((pkcs1FindSeparator bp count i).value mem).1 = false) :
    (pkcs1FindSeparator bp count i).value mem = (false, bp) := by
  induction count generalizing i with
  | zero => rfl
  | succ count ih =>
      by_cases hzero : mem (bp.rpos + i) = 0
      · simp [pkcs1FindSeparator, hzero] at h
      · have hvalue : (pkcs1FindSeparator bp (count + 1) i).value mem =
            (pkcs1FindSeparator bp count (i + 1)).value mem := by
          simp [pkcs1FindSeparator, hzero]
        rw [hvalue] at h ⊢
        exact ih h

theorem pkcs1Type2PaddingRemove_false
    (h : ((pkcs1Type2PaddingRemove bp).value mem).1 = false) :
    (pkcs1Type2PaddingRemove bp).value mem = (false, bp) := by
  rw [pkcs1Type2PaddingRemove_value] at h ⊢
  split at h
  · rename_i hleading
    rw [if_pos hleading]
    exact pkcs1FindSeparator_false h
  · rename_i hleading
    rw [if_neg hleading]

/-- The padding is removed exactly when it is a run of non-zero bytes of any
length, between `00 02` and a zero, and what is behind that is left.  Anything else
is left as it is. -/
theorem pkcs1Type2PaddingRemove_accepts_iff (h : bp.Wf)
    (hmem : MemoryShows mem bp) :
    (forall message,
        (exists after, (pkcs1Type2PaddingRemove bp).value mem = (true, after) ∧
          after.contents = message) ↔ Pkcs1Type2 bp.contents message) ∧
      (forall after, (pkcs1Type2PaddingRemove bp).value mem = (true, after) ->
        OnlySkipped bp after) ∧
      ((forall message, ¬ Pkcs1Type2 bp.contents message) ->
        (pkcs1Type2PaddingRemove bp).value mem = (false, bp)) := by
  refine ⟨pkcs1Type2PaddingRemove_contents_iff h hmem, ?_, fun hnone => ?_⟩
  · intro after htrue
    rcases (pkcs1Type2PaddingRemove_eq_true_iff h hmem).mp htrue with
      ⟨message, _, rfl⟩
    exact ⟨_, Nat.sub_le _ _, rfl⟩
  · apply pkcs1Type2PaddingRemove_false
    cases hvalue : (pkcs1Type2PaddingRemove bp).value mem with
    | mk okay after =>
        cases okay with
        | false => rfl
        | true =>
            exact absurd ((pkcs1Type2PaddingRemove_contents_iff h hmem _).mp
              ⟨after, hvalue, rfl⟩) (hnone _)

theorem pkcs1Type2PaddingRemove_accepts_short :
    exists after, (pkcs1Type2PaddingRemove
        (bufferInitRead [0x00, 0x02, 0x01, 0x00, 0x55])).value
        (fun pos => [0x00, 0x02, 0x01, 0x00, 0x55].getD pos 0) = (true, after) ∧
      after.contents = [0x55] :=
  ((pkcs1Type2PaddingRemove_accepts_iff (bufferInitRead_wf (by decide))
    (memoryShows_data (bufferInitRead_wf (by decide)))).1 [0x55]).mpr
    ⟨[0x01], by decide, by decide⟩

/-- A separator right behind the two leading bytes is accepted. -/
theorem not_pkcs1PaddingLong :
    ¬ forall (bp : Buffer) (mem : Nat -> UInt8), bp.Wf -> MemoryShows mem bp ->
      (((pkcs1Type2PaddingRemove bp).value mem).1 = true ↔
        exists padding message, 8 ≤ padding.length ∧ (0 : UInt8) ∉ padding ∧
          bp.contents = 0x00 :: 0x02 :: (padding ++ 0x00 :: message)) := by
  intro hclaim
  have hwf : (bufferInitRead [0x00, 0x02, 0x00]).Wf :=
    bufferInitRead_wf (by decide)
  have hiff := hclaim (bufferInitRead [0x00, 0x02, 0x00])
    (fun pos => [0x00, 0x02, 0x00].getD pos 0) hwf (memoryShows_data hwf)
  rcases hiff.mp (by decide) with ⟨padding, message, hlong, _, hbytes⟩
  have hlen := congrArg List.length hbytes
  rw [bufferInitRead_contents (by decide)] at hlen
  simp only [List.length_cons, List.length_append, List.length_nil] at hlen
  lia

/-!
## Both together
-/

/-- The two functions in a row, with the verdict of each and the buffer it leaves;
the second one is not called behind a refusal. -/
def decodeThenRemovePadding (resp : Buffer) :
    Peek ((Bool × Buffer) × (Bool × Buffer)) := do
  let decoded ← yubikeyDecodeDecipherResp resp
  if decoded.1 then do
    let removed ← pkcs1Type2PaddingRemove decoded.2
    pure (decoded, removed)
  else pure (decoded, (false, decoded.2))

/-- The verdict, and the bytes that are left. -/
def verdictAndBytes (result : Bool × Buffer) : Bool × List UInt8 :=
  (result.1, result.2.contents)

/-- The verdict and the bytes left are the same where the same is accepted and
nothing is changed otherwise. -/
theorem verdictAndBytes_eq {a b : Buffer} {x y : Bool × Buffer}
    (hsame : a.contents = b.contents)
    (hiff : forall v, (exists after, x = (true, after) ∧ after.contents = v) ↔
      exists after, y = (true, after) ∧ after.contents = v)
    (hx : x.1 = false -> x = (false, a)) (hy : y.1 = false -> y = (false, b)) :
    verdictAndBytes x = verdictAndBytes y := by
  rcases x with ⟨_ | _, left⟩
  · rcases y with ⟨_ | _, right⟩
    · have hleft := (Prod.mk.inj (hx rfl)).2
      have hright := (Prod.mk.inj (hy rfl)).2
      rw [hleft, hright, verdictAndBytes, verdictAndBytes, hsame]
    · rcases (hiff right.contents).mpr ⟨right, rfl, rfl⟩ with ⟨_, hbad, _⟩
      cases hbad
  · rcases (hiff left.contents).mp ⟨left, rfl, rfl⟩ with ⟨after, rfl, hbytes⟩
    rw [verdictAndBytes, verdictAndBytes, hbytes]

end

/-- What the memory holds outside the available bytes has no influence on the
verdicts or on what is left, and a run that looks there is rejected. -/
theorem decodeThenRemovePadding_noStaleBytes {a b : Buffer} {memA memB : Nat -> UInt8}
    (ha : a.Wf) (hb : b.Wf) (hsame : a.contents = b.contents)
    (hmemA : MemoryShows memA a) (hmemB : MemoryShows memB b) :
    verdictAndBytes ((decodeThenRemovePadding a).value memA).1 =
        verdictAndBytes ((decodeThenRemovePadding b).value memB).1 ∧
      verdictAndBytes ((decodeThenRemovePadding a).value memA).2 =
        verdictAndBytes ((decodeThenRemovePadding b).value memB).2 ∧
      ((exists p, p ∈ (decodeThenRemovePadding a).reads memA ∧ a.wpos ≤ p) ->
        ((decodeThenRemovePadding a).value memA).2.1 = false) := by
  have hdecoded : verdictAndBytes ((yubikeyDecodeDecipherResp a).value memA) =
      verdictAndBytes ((yubikeyDecodeDecipherResp b).value memB) := by
    apply verdictAndBytes_eq hsame _ yubikeyDecodeDecipherResp_false
      yubikeyDecodeDecipherResp_false
    intro v
    rw [yubikeyDecodeDecipherResp_contents_iff ha hmemA,
      yubikeyDecodeDecipherResp_contents_iff hb hmemB, hsame]
  rcases hA : (yubikeyDecodeDecipherResp a).value memA with ⟨okayA, paddedA⟩
  rcases hB : (yubikeyDecodeDecipherResp b).value memB with ⟨okayB, paddedB⟩
  rw [hA, hB] at hdecoded
  have hokay : okayA = okayB := congrArg Prod.fst hdecoded
  have hbytes : paddedA.contents = paddedB.contents := congrArg Prod.snd hdecoded
  subst hokay
  cases okayA with
  | false => simp [decodeThenRemovePadding, hA, hB, verdictAndBytes, hbytes]
  | true =>
      have hskipA := onlySkipped_of_decode ha hmemA hA
      have hskipB := onlySkipped_of_decode hb hmemB hB
      have hremoved : verdictAndBytes ((pkcs1Type2PaddingRemove paddedA).value memA) =
          verdictAndBytes ((pkcs1Type2PaddingRemove paddedB).value memB) := by
        apply verdictAndBytes_eq hbytes _ pkcs1Type2PaddingRemove_false
          pkcs1Type2PaddingRemove_false
        intro message
        rw [pkcs1Type2PaddingRemove_contents_iff (hskipA.wf ha) (hskipA.shows hmemA),
          pkcs1Type2PaddingRemove_contents_iff (hskipB.wf hb) (hskipB.shows hmemB),
          hbytes]
      have hvalueA : (decodeThenRemovePadding a).value memA =
          ((true, paddedA), (pkcs1Type2PaddingRemove paddedA).value memA) := by
        simp [decodeThenRemovePadding, hA]
      have hvalueB : (decodeThenRemovePadding b).value memB =
          ((true, paddedB), (pkcs1Type2PaddingRemove paddedB).value memB) := by
        simp [decodeThenRemovePadding, hB]
      rw [hvalueA, hvalueB]
      refine ⟨hdecoded, hremoved, ?_⟩
      rintro ⟨p, hp, hbehind⟩
      -- a position behind the body cannot be one of a successful step
      rcases hC : (pkcs1Type2PaddingRemove paddedA).value memA with ⟨okay, cleartext⟩
      cases okay with
      | false => rfl
      | true =>
          simp only [decodeThenRemovePadding, Peek.reads_bind, hA, if_true,
            Peek.reads_pure, List.append_nil, List.mem_append] at hp
          cases hp with
          | inl hp =>
              have hlt := yubikeyDecodeDecipherResp_reads ha hA hp
              lia
          | inr hp =>
              have hlt := pkcs1Type2PaddingRemove_reads (hskipA.wf ha) hC hp
              rw [hskipA.wpos] at hlt
              lia

/-- A body that ends in front of its second length field, with two different
bytes behind it. -/
theorem decodeThenRemovePadding_noStaleBytes_truncated :
    let body := fun stale : UInt8 =>
      ({ rpos := 0, wpos := 3, size := 4, data := [0x7c, 0x00, 0x82, stale] } : Buffer)
    let memory := fun stale : UInt8 => fun pos => (body stale).data.getD pos 0
    verdictAndBytes ((decodeThenRemovePadding (body 0x00)).value (memory 0x00)).1 =
        verdictAndBytes ((decodeThenRemovePadding (body 0x81)).value (memory 0x81)).1 ∧
      verdictAndBytes ((decodeThenRemovePadding (body 0x00)).value (memory 0x00)).2 =
        verdictAndBytes ((decodeThenRemovePadding (body 0x81)).value (memory 0x81)).2 ∧
      ((exists p, p ∈ (decodeThenRemovePadding (body 0x00)).reads (memory 0x00) ∧
          3 ≤ p) ->
        ((decodeThenRemovePadding (body 0x00)).value (memory 0x00)).2.1 = false) := by
  have hwf : forall stale : UInt8,
      ({ rpos := 0, wpos := 3, size := 4, data := [0x7c, 0x00, 0x82, stale] } :
        Buffer).Wf :=
    fun _ => ⟨Nat.zero_le 3, Nat.le_succ 3, by simp, rfl⟩
  exact decodeThenRemovePadding_noStaleBytes (hwf 0x00) (hwf 0x81) rfl
    (memoryShows_data (hwf 0x00)) (memoryShows_data (hwf 0x81))

end UtokenDecrypt
