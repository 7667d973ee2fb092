import UtokenDecrypt.Card.Lengths

/-!
# Encoding the arguments

`yubikey_encode_decipher_args` fills its array from the end.  The invariant
is that the bytes behind the write position are the ones pushed so far, the last
one pushed in front.
-/

namespace UtokenDecrypt

open Foundation

/-- The bytes pushed so far are those behind the write position. -/
structure Encoder.Holds (e : Encoder) (bytes : List UInt8) : Prop where
  length_eq : e.encoded.length = encodedSize
  room : e.pos + bytes.length = encodedSize
  drop_eq : e.encoded.drop e.pos = bytes

section

variable {e : Encoder} {bytes : List UInt8}

theorem Encoder.Holds.pos_le (h : e.Holds bytes) : e.pos ≤ e.encoded.length := by
  have hroom := h.room
  rw [h.length_eq]
  lia

/-- Pushing bytes there is room for puts them in front. -/
theorem Encoder.Holds.push (h : e.Holds bytes) {data : List UInt8}
    (hdata : data.length ≤ e.pos) :
    ({ encoded := overwrite e.encoded (e.pos - data.length) data
       pos := e.pos - data.length } : Encoder).Holds (data ++ bytes) where
  length_eq := by
    have hpos := h.pos_le
    change (overwrite e.encoded (e.pos - data.length) data).length = encodedSize
    rw [overwrite_length (by lia), h.length_eq]
  room := by
    have hroom := h.room
    change e.pos - data.length + (data ++ bytes).length = encodedSize
    rw [List.length_append]
    lia
  drop_eq := by
    have hpos := h.pos_le
    have hfront : (e.encoded.take (e.pos - data.length)).length =
        e.pos - data.length := List.length_take_of_le (by lia)
    change (overwrite e.encoded (e.pos - data.length) data).drop
      (e.pos - data.length) = data ++ bytes
    rw [overwrite, List.append_assoc, List.drop_left' hfront,
      Nat.sub_add_cancel hdata, h.drop_eq]

theorem encPush_holds (h : e.Holds bytes) {data : List UInt8}
    (hdata : data.length + bytes.length ≤ encodedSize) :
    exists after, encPush data e = (.done (), after) ∧ after.Holds (data ++ bytes) := by
  have hroom := h.room
  have hpush := h.push (by lia : data.length ≤ e.pos)
  refine ⟨_, ?_, hpush⟩
  rw [encPush, Process.update_apply, if_neg (by lia)]

theorem encPushByte_holds (h : e.Holds bytes) (byte : UInt8)
    (hbytes : bytes.length < encodedSize) :
    exists after, encPushByte byte e = (.done (), after) ∧
      after.Holds (byte :: bytes) := by
  have hroom := h.room
  have hpos := h.pos_le
  have hpush := h.push
    (by rw [List.length_singleton]; lia : [byte].length ≤ e.pos)
  refine ⟨_, ?_, hpush⟩
  have hset : e.encoded.set (e.pos - 1) byte =
      overwrite e.encoded (e.pos - 1) [byte] := by
    rw [overwrite, List.length_singleton, Nat.sub_add_cancel (by lia),
      List.set_eq_take_append_cons_drop, if_pos (by lia), List.append_assoc,
      List.singleton_append, Nat.sub_add_cancel (by lia)]
  rw [encPushByte, if_neg (by lia), hset]
  rfl

theorem encPushLength_holds (h : e.Holds bytes) (len : Nat)
    (hbytes : bytes.length + 3 ≤ encodedSize) :
    exists after, encPushLength len e = (.done (), after) ∧
      after.Holds (lengthBytes len ++ bytes) := by
  rcases encPushByte_holds h (UInt8.ofNat len) (by lia) with ⟨first, hfirst, hheld1⟩
  rw [encPushLength, Process.bind_done hfirst, lengthBytes]
  by_cases hshort : len < 0x80
  · rw [if_pos hshort, if_pos hshort]
    exact ⟨first, rfl, hheld1⟩
  · rw [if_neg hshort, if_neg hshort]
    by_cases hbyte : len < 0x100
    · rw [if_pos hbyte, if_pos hbyte]
      exact encPushByte_holds hheld1 0x81 (by rw [List.length_cons]; lia)
    · rw [if_neg hbyte, if_neg hbyte]
      rcases encPushByte_holds hheld1 (UInt8.ofNat (len >>> 8))
        (by rw [List.length_cons]; lia) with ⟨second, hsecond, hheld2⟩
      rw [Process.bind_done hsecond]
      exact encPushByte_holds hheld2 0x82
        (by rw [List.length_cons, List.length_cons]; lia)

end

/-- What is behind the outer length field. -/
def decipherArgsBody (ciphertext : List UInt8) : List UInt8 :=
  0x82 :: 0x00 :: 0x81 :: (lengthBytes ciphertext.length ++ ciphertext)

def decipherArgsBytes (ciphertext : List UInt8) : List UInt8 :=
  0x7c :: (lengthBytes (decipherArgsBody ciphertext).length ++
    decipherArgsBody ciphertext)

theorem decipherArgsBody_length_le (ciphertext : List UInt8) :
    (decipherArgsBody ciphertext).length ≤ ciphertext.length + 6 := by
  have hlen := lengthBytes_length_le ciphertext.length
  simp only [decipherArgsBody, List.length_cons, List.length_append]
  lia

theorem decipherArgsBytes_length_le (ciphertext : List UInt8) :
    (decipherArgsBytes ciphertext).length ≤ ciphertext.length + 10 := by
  have hbody := decipherArgsBody_length_le ciphertext
  have hlen := lengthBytes_length_le (decipherArgsBody ciphertext).length
  simp only [decipherArgsBytes, List.length_cons, List.length_append]
  lia

theorem length_lt_decipherArgsBytes (ciphertext : List UInt8) :
    ciphertext.length < (decipherArgsBytes ciphertext).length := by
  simp only [decipherArgsBytes, decipherArgsBody, List.length_cons, List.length_append]
  lia

theorem yubikeyEncodeArgs_holds {ciphertext : List UInt8}
    (h : ciphertext.length ≤ 992) {e : Encoder} (hempty : e.Holds []) :
    exists after, yubikeyEncodeArgs ciphertext e = (.done (), after) ∧
      after.Holds (decipherArgsBytes ciphertext) := by
  have hsize : encodedSize = 1024 := rfl
  have hlen1 := lengthBytes_length_le ciphertext.length
  have hlen2 := decipherArgsBody_length_le ciphertext
  rcases encPush_holds hempty
    (by rw [List.length_nil]; lia : ciphertext.length + [].length ≤ encodedSize) with
    ⟨e1, h1, hheld1⟩
  rw [List.append_nil] at hheld1
  rcases encPushLength_holds hheld1 ciphertext.length (by lia) with ⟨e2, h2, hheld2⟩
  rcases encPushByte_holds hheld2 0x81
    (by rw [List.length_append]; lia) with ⟨e3, h3, hheld3⟩
  rcases encPushByte_holds hheld3 0x00
    (by simp only [List.length_cons, List.length_append]; lia) with ⟨e4, h4, hheld4⟩
  rcases encPushByte_holds hheld4 0x82
    (by simp only [List.length_cons, List.length_append]; lia) with ⟨e5, h5, hheld5⟩
  -- what has been pushed by now is the body of the arguments
  change e5.Holds (decipherArgsBody ciphertext) at hheld5
  have hcount : encodedSize - e5.pos = (decipherArgsBody ciphertext).length := by
    have hroom := hheld5.room
    lia
  rcases encPushLength_holds hheld5 (decipherArgsBody ciphertext).length
    (by lia) with ⟨e6, h6, hheld6⟩
  have hlen3 := lengthBytes_length_le (decipherArgsBody ciphertext).length
  rcases encPushByte_holds hheld6 0x7c
    (by rw [List.length_append]; lia) with ⟨e7, h7, hheld7⟩
  refine ⟨e7, ?_, hheld7⟩
  rw [yubikeyEncodeArgs, Process.bind_done h1, Process.bind_done h2,
    Process.bind_done h3, Process.bind_done h4, Process.bind_done h5,
    Process.bind_done (Process.read_apply e5), hcount, Process.bind_done h6, h7]

/-- The returned buffer holds the encoded arguments. -/
theorem yubikeyEncodeDecipherArgs_eq {ciphertext : List UInt8}
    (h : ciphertext.length ≤ 992) :
    exists data, yubikeyEncodeDecipherArgs ciphertext = .done (some data) ∧
      data.Wf ∧ data.contents = decipherArgsBytes ciphertext := by
  have hsize : encodedSize = 1024 := rfl
  have hempty : ({ encoded := List.replicate encodedSize 0, pos := encodedSize } :
      Encoder).Holds [] := by
    refine ⟨List.length_replicate, rfl, ?_⟩
    exact List.drop_eq_nil_of_le (Nat.le_of_eq List.length_replicate)
  rcases yubikeyEncodeArgs_holds h hempty with ⟨after, hrun, hheld⟩
  have hlen := decipherArgsBytes_length_le ciphertext
  have hcap : capacity 1024 = 1024 := by
    rw [capacity_of_le (by lia)]
  have hput := (bufferPut_isSome_iff (bufferAllocWrite_wf 1024)
    (decipherArgsBytes ciphertext)).mpr (by
      change 0 + _ ≤ capacity 1024
      lia)
  rcases Option.isSome_iff_exists.mp hput with ⟨data, hdata⟩
  rcases bufferPut_spec (bufferAllocWrite_wf 1024) hdata with ⟨hwf, hcontents, _⟩
  refine ⟨data, ?_, hwf, by rw [hcontents, bufferAllocWrite_contents, List.nil_append]⟩
  rw [yubikeyEncodeDecipherArgs, wrap32_of_lt (by lia), if_neg (by lia), hrun]
  simp only [hheld.drop_eq, hdata, Option.getD_some]

/-- Wherever the field is in memory, `decode_length` finds the length. -/
def ReadsAsLength (field : List UInt8) (len : Nat) : Prop :=
  forall (mem : Nat -> UInt8) (pos : Nat), bytesAt mem pos field.length = field ->
    (decodeLength pos).value mem = (len, pos + field.length)

theorem readsAsLength_lengthBytes {len : Nat} (h : len < 0x10000) :
    ReadsAsLength (lengthBytes len) len := by
  intro mem pos hmem
  exact decodeLength_value (lengthBytes_shortest h).1.encoding hmem

/-- The layout of the arguments: `7c outer 82 00 81 inner ciphertext`, where
each of the two length fields is a shortest one and is read as the number of
bytes behind it. -/
def DecipherArgsLayout (ciphertext bytes : List UInt8) : Prop :=
  exists outer inner body,
    bytes = 0x7c :: (outer ++ body) ∧
    body = 0x82 :: 0x00 :: 0x81 :: (inner ++ ciphertext) ∧
    ShortestLength outer body.length ∧ ReadsAsLength outer body.length ∧
    ShortestLength inner ciphertext.length ∧
    ReadsAsLength inner ciphertext.length

theorem decipherArgsBytes_layout {ciphertext : List UInt8}
    (h : ciphertext.length ≤ 992) :
    DecipherArgsLayout ciphertext (decipherArgsBytes ciphertext) := by
  have hbody := decipherArgsBody_length_le ciphertext
  have houter : (decipherArgsBody ciphertext).length < 0x10000 := by lia
  have hinner : ciphertext.length < 0x10000 := by lia
  exact ⟨lengthBytes (decipherArgsBody ciphertext).length,
    lengthBytes ciphertext.length, decipherArgsBody ciphertext, rfl, rfl,
    lengthBytes_shortest houter, readsAsLength_lengthBytes houter,
    lengthBytes_shortest hinner, readsAsLength_lengthBytes hinner⟩

/-- The encoded arguments are well-formed for every ciphertext that fits, and
there is no result for the others. -/
theorem yubikeyEncodeDecipherArgs_wellFormed (ciphertext : List UInt8) :
    (ciphertext.length ≤ 992 ->
      exists data, yubikeyEncodeDecipherArgs ciphertext = .done (some data) ∧
        data.Wf ∧ DecipherArgsLayout ciphertext data.contents) ∧
    (992 < ciphertext.length -> ciphertext.length < 2 ^ 32 - 32 ->
      yubikeyEncodeDecipherArgs ciphertext = .done none) := by
  constructor
  · intro h
    rcases yubikeyEncodeDecipherArgs_eq h with ⟨data, hrun, hwf, hcontents⟩
    refine ⟨data, hrun, hwf, ?_⟩
    rw [hcontents]
    exact decipherArgsBytes_layout h
  · intro hlong hsmall
    have hsize : encodedSize = 1024 := rfl
    rw [yubikeyEncodeDecipherArgs, wrap32_of_lt (by lia), if_pos (by lia)]

/-- A ciphertext for a key of 2048 bits, and one that is too long. -/
theorem yubikeyEncodeDecipherArgs_wellFormed_rsa2048 :
    (exists data, yubikeyEncodeDecipherArgs (List.replicate 256 0x55) = .done (some data) ∧
      data.Wf ∧ DecipherArgsLayout (List.replicate 256 0x55) data.contents) ∧
    yubikeyEncodeDecipherArgs (List.replicate 1000 0x55) = .done none :=
  ⟨(yubikeyEncodeDecipherArgs_wellFormed (List.replicate 256 0x55)).1
      (by rw [List.length_replicate]; decide),
    (yubikeyEncodeDecipherArgs_wellFormed (List.replicate 1000 0x55)).2
      (by rw [List.length_replicate]; decide) (by rw [List.length_replicate]; decide)⟩

end UtokenDecrypt
