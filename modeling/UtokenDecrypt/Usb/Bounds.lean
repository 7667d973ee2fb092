import UtokenDecrypt.Usb.Walk

/-!
# What the descriptor walk looks at

Every access the walk and its field parsers record is to be inside the data,
and inside the descriptor a field parser was set up on.  The bytes left to a
parser are the length byte less two, so a length of zero or one wraps to more
than the descriptor has; and next to the largest lengths the position wraps.
Behind a slot outside its array there is no telling what is looked at.  The result
here says which states that happens in.
-/

namespace UtokenDecrypt
namespace Usb

open Foundation

/-- The access stays inside `len` bytes of data and inside its descriptor. -/
def Access.InBounds (len : Nat) : Access -> Prop
  | .header lengthAt typeAt => lengthAt < len ∧ typeAt < len
  | .left _ dtLen n => n ≤ dtLen
  | .bytes base dtLen first count =>
      base ≤ first ∧ first + count ≤ base + dtLen ∧ first + count ≤ len

def AllInBounds (len : Nat) (seen : List Access) : Prop :=
  forall access, access ∈ seen -> access.InBounds len

def UusbParseEnd.state : UusbParseEnd -> UusbParse
  | .returned _ st => st
  | .outOfArray st => st

/-- Nothing the walk has looked at is out of bounds, in any of its states and
when it ends; and it does not end by taking a slot outside an array, behind which
nothing is known of what the program looks at. -/
structure BoundsKept (mem : Nat -> UInt8) (len : Nat) : Prop where
  states : forall st, UusbParseReaches mem len st -> AllInBounds len st.seen
  ends : forall st value, UusbParseReaches mem len st ->
    uusbParseStep mem len st = .finish value -> AllInBounds len value.state.seen
  inside : forall st after, UusbParseReaches mem len st ->
    uusbParseStep mem len st ≠ .finish (.outOfArray after)

@[simp] theorem allInBounds_append {len : Nat} {xs ys : List Access} :
    AllInBounds len (xs ++ ys) ↔ AllInBounds len xs ∧ AllInBounds len ys := by
  simp only [AllInBounds, List.mem_append, or_imp, forall_and]

@[simp] theorem allInBounds_nil {len : Nat} : AllInBounds len [] := by
  simp [AllInBounds]

@[simp] theorem allInBounds_cons {len : Nat} {access : Access} {seen : List Access} :
    AllInBounds len (access :: seen) ↔
      access.InBounds len ∧ AllInBounds len seen := by
  simp [AllInBounds]

/-!
## What a chain of fields looks at

Only the size of a field matters here, and whether its bytes are read.
-/

def DtField.shape {D : Type} (field : DtField D) : Nat × Bool :=
  (field.size, field.reads)

/-- The accesses a parser makes on its way through the fields. -/
def fieldAccesses (base len : Nat) : List (Nat × Bool) -> Nat -> Nat -> List Access
  | [], _, _ => []
  | (size, reads) :: rest, p, left =>
      if size ≤ left then
        (if reads then [.bytes base len p size] else []) ++
          [.left base len (left - size)] ++
          fieldAccesses base len rest (p + size) (left - size)
      else [.left base len 0]

/-- Where the last byte ends that a parser reads on its way. -/
def readEnd : List (Nat × Bool) -> Nat -> Nat -> Nat
  | [], _, _ => 0
  | (size, reads) :: rest, p, left =>
      if size ≤ left then
        max (if reads then p + size else 0) (readEnd rest (p + size) (left - size))
      else 0

theorem readEnd_le (shapes : List (Nat × Bool)) (p left : Nat) :
    readEnd shapes p left ≤ p + left := by
  induction shapes generalizing p left with
  | nil => exact Nat.zero_le _
  | cons shape rest ih =>
      rcases shape with ⟨size, reads⟩
      rw [readEnd]
      by_cases h : size ≤ left
      · have hrest := ih (p + size) (left - size)
        rw [if_pos h]
        apply Nat.max_le.mpr
        constructor
        · cases reads with
          | true => exact Nat.add_le_add_left h p
          | false => exact Nat.zero_le _
        · lia
      · rw [if_neg h]
        exact Nat.zero_le _

section

variable (mem : Nat -> UInt8) {D : Type}

theorem DtField.behind_seen (field : DtField D) (dtp : UusbDtParser) :
    (field.behind dtp).seen = dtp.seen ++
      ((if field.reads then [.bytes dtp.base dtp.len dtp.data field.size] else []) ++
        [.left dtp.base dtp.len (dtp.left - field.size)]) := by
  unfold behind
  cases field.reads with
  | true => simp [UusbDtParser.advance, UusbDtParser.note]
  | false => simp [UusbDtParser.advance]

theorem parseFields_seen {dtp : UusbDtParser} (hokay : dtp.okay = true)
    (fields : List (DtField D)) (target : D) :
    (parseFields mem fields dtp target).2.1.seen =
      dtp.seen ++ fieldAccesses dtp.base dtp.len (fields.map DtField.shape)
        dtp.data dtp.left := by
  induction fields generalizing dtp target with
  | nil => simp [parseFields, fieldAccesses]
  | cons field rest ih =>
      rw [List.map_cons, DtField.shape, fieldAccesses]
      by_cases h : field.size ≤ dtp.left
      · rw [if_pos h, parseFields, DtField.parse_of_le mem hokay h]
        simp only
        rw [ih (by simpa using hokay), DtField.behind_seen, DtField.behind_base,
          DtField.behind_len, DtField.behind_data, DtField.behind_left,
          List.append_assoc]
      · have hfail := DtField.parse_of_lt mem target (Nat.not_le.mp h)
        rw [if_neg h, parseFields]
        rcases hparse : field.parse mem dtp target with ⟨ok, after, stored⟩
        rw [hparse] at hfail
        simp only at hfail
        rw [hfail.1, hfail.2]
        rfl

end

/-- A parser set up inside its descriptor stays inside it, and stays inside the
data when the last byte it reads does. -/
theorem allInBounds_fieldAccesses {base dtLen len p left : Nat}
    (hfirst : base ≤ p) (hlast : p + left ≤ base + dtLen)
    (shapes : List (Nat × Bool)) :
    AllInBounds len (fieldAccesses base dtLen shapes p left) ↔
      readEnd shapes p left ≤ len := by
  induction shapes generalizing p left with
  | nil => simp [fieldAccesses, readEnd]
  | cons shape rest ih =>
      rcases shape with ⟨size, reads⟩
      rw [fieldAccesses, readEnd]
      by_cases h : size ≤ left
      · rw [if_pos h, if_pos h, Nat.max_le, allInBounds_append, allInBounds_append,
          ih (by lia) (by lia)]
        have hleft : AllInBounds len [.left base dtLen (left - size)] := by
          rw [allInBounds_cons]
          refine ⟨?_, allInBounds_nil⟩
          show left - size ≤ dtLen
          lia
        cases reads with
        | true =>
            have hbytes : AllInBounds len [.bytes base dtLen p size] ↔
                p + size ≤ len := by
              rw [allInBounds_cons]
              constructor
              · intro hin
                exact hin.1.2.2
              · intro hle
                exact ⟨⟨hfirst, by lia, hle⟩, allInBounds_nil⟩
            rw [if_pos rfl, if_pos rfl, hbytes]
            constructor
            · intro hall
              exact ⟨hall.1.1, hall.2⟩
            · intro hall
              exact ⟨⟨hall.1, hleft⟩, hall.2⟩
        | false =>
            constructor
            · intro hall
              exact ⟨Nat.zero_le _, hall.2⟩
            · intro hall
              exact ⟨⟨allInBounds_nil, hleft⟩, hall.2⟩
      · rw [if_neg h, if_neg h, allInBounds_cons]
        constructor
        · intro _
          exact Nat.zero_le _
        · intro _
          exact ⟨Nat.zero_le _, allInBounds_nil⟩

/-!
## What a round looks at
-/

/-- The fields the code parses in the descriptor at the current position. -/
def shapesAt (mem : Nat -> UInt8) (st : UusbParse) : List (Nat × Bool) :=
  if st.pos = 0 then
    if dtTypeAt mem st = usbDtDevice then
      uusbParseDeviceDescriptor.map DtField.shape
    else []
  else if dtTypeAt mem st = usbDtDevice then []
  else if dtTypeAt mem st = usbDtConfig then
    if st.dev.numConfigs ≤ st.dev.descriptor.bNumConfigurations.toNat ∧
        st.dev.numConfigs < uusbMaxConfigs then
      uusbParseConfigDescriptor.map DtField.shape
    else []
  else if dtTypeAt mem st = usbDtInterface then
    match st.config with
    | none => []
    | some ci =>
        let config := st.dev.getConfig ci
        if config.numInterfaces ≤ config.descriptor.bNumInterfaces.toNat ∧
            config.numInterfaces < uusbMaxInterfaces then
          uusbParseInterfaceDescriptor.map DtField.shape
        else []
  else if dtTypeAt mem st = usbDtEndpoint then
    match st.interface with
    | none => []
    | some at_ =>
        let interface := st.dev.getInterface at_
        if interface.numEndpoints ≤ interface.descriptor.bNumEndpoints.toNat ∧
            interface.numEndpoints < uusbMaxEndpoints then
          uusbParseEndpointDescriptor.map DtField.shape
        else []
  else
    match st.interface with
    | none => []
    | some at_ =>
        if (st.dev.getInterface at_).handler = some .uusbHandleCcidDescriptor then
          ccidParseUsbDescriptor.map DtField.shape
        else []

/-- Where the last byte ends that is parsed in the descriptor at the current
position. -/
def parsedEnd (mem : Nat -> UInt8) (st : UusbParse) : Nat :=
  readEnd (shapesAt mem st) (st.pos + 2) (sub32 (dtLenAt mem st) 2)

/-- A round that only looks inside the data: its length and type bytes are
there, and a descriptor it handles has a length of two or more and no parsed
byte behind the end of the data. -/
structure LooksInside (mem : Nat -> UInt8) (len : Nat) (st : UusbParse) : Prop where
  header : st.pos < len ∧ wrap32 (st.pos + 1) < len
  length : ¬ dtTooLong mem len st -> 2 ≤ dtLenAt mem st
  fields : ¬ dtTooLong mem len st -> parsedEnd mem st ≤ len

/-- A round that stays inside the data, and takes no slot outside an array. -/
structure StaysInside (mem : Nat -> UInt8) (len : Nat) (st : UusbParse) : Prop where
  looks : LooksInside mem len st
  slot : ¬ dtTooLong mem len st -> ¬ SlotOutside mem st

section

variable {mem : Nat -> UInt8} {len : Nat} {st : UusbParse}

/-- Behind setting up its parser, handling a descriptor looks at the fields it
parses; the CCID parser is set up once more before that. -/
def LooksAtFields (mem : Nat -> UInt8) (st : UusbParse) (outcome : DtCase) : Prop :=
  exists restart,
    (forall access, access ∈ restart ->
      access = .left st.pos (dtLenAt mem st) (sub32 (dtLenAt mem st) 2)) ∧
    outcome.state.seen = (dtHead mem st).seen ++ restart ++
      fieldAccesses st.pos (dtLenAt mem st) (shapesAt mem st) (st.pos + 2)
        (sub32 (dtLenAt mem st) 2)

theorem dtGot_seen {D : Type} (fields : List (DtField D)) (target : D) :
    (dtGot mem st fields target).1.seen = (dtHead mem st).seen ++
      fieldAccesses st.pos (dtLenAt mem st) (fields.map DtField.shape) (st.pos + 2)
        (sub32 (dtLenAt mem st) 2) :=
  parseFields_seen mem (dtParserAt_okay mem st) fields target

theorem ccidGot_seen :
    (ccidGot mem st).1.seen = (dtHead mem st).seen ++
      [.left st.pos (dtLenAt mem st) (sub32 (dtLenAt mem st) 2)] ++
      fieldAccesses st.pos (dtLenAt mem st)
        (ccidParseUsbDescriptor.map DtField.shape) (st.pos + 2)
        (sub32 (dtLenAt mem st) 2) :=
  parseFields_seen mem rfl ccidParseUsbDescriptor {}

theorem looksAtFields_none {outcome : DtCase} (hshapes : shapesAt mem st = [])
    (hseen : outcome.state.seen = (dtHead mem st).seen) :
    LooksAtFields mem st outcome := by
  refine ⟨[], by simp, ?_⟩
  rw [hshapes, hseen, fieldAccesses, List.append_nil, List.append_nil]

theorem looksAtFields_got {D : Type} {fields : List (DtField D)} {target : D}
    {outcome : DtCase} (hshapes : shapesAt mem st = fields.map DtField.shape)
    (hseen : outcome.state.seen = (dtGot mem st fields target).1.seen) :
    LooksAtFields mem st outcome := by
  refine ⟨[], by simp, ?_⟩
  rw [hshapes, hseen, dtGot_seen, List.append_nil]

theorem shapesAt_config (hpos : st.pos ≠ 0) (htype : dtTypeAt mem st = usbDtConfig) :
    shapesAt mem st =
      if st.dev.numConfigs ≤ st.dev.descriptor.bNumConfigurations.toNat ∧
          st.dev.numConfigs < uusbMaxConfigs then
        uusbParseConfigDescriptor.map DtField.shape
      else [] := by
  rw [shapesAt, if_neg hpos, htype]
  rfl

theorem shapesAt_interface (hpos : st.pos ≠ 0)
    (htype : dtTypeAt mem st = usbDtInterface) {ci : Nat}
    (hci : st.config = some ci) :
    shapesAt mem st =
      if (st.dev.getConfig ci).numInterfaces ≤
            (st.dev.getConfig ci).descriptor.bNumInterfaces.toNat ∧
          (st.dev.getConfig ci).numInterfaces < uusbMaxInterfaces then
        uusbParseInterfaceDescriptor.map DtField.shape
      else [] := by
  rw [shapesAt, if_neg hpos, htype, hci]
  rfl

theorem shapesAt_endpoint (hpos : st.pos ≠ 0)
    (htype : dtTypeAt mem st = usbDtEndpoint) {at_ : Nat × Nat}
    (hat : st.interface = some at_) :
    shapesAt mem st =
      if (st.dev.getInterface at_).numEndpoints ≤
            (st.dev.getInterface at_).descriptor.bNumEndpoints.toNat ∧
          (st.dev.getInterface at_).numEndpoints < uusbMaxEndpoints then
        uusbParseEndpointDescriptor.map DtField.shape
      else [] := by
  rw [shapesAt, if_neg hpos, htype, hat]
  rfl

theorem shapesAt_other (hpos : st.pos ≠ 0) (htype : IsOther (dtTypeAt mem st))
    {at_ : Nat × Nat} (hat : st.interface = some at_) :
    shapesAt mem st =
      if (st.dev.getInterface at_).handler = some .uusbHandleCcidDescriptor then
        ccidParseUsbDescriptor.map DtField.shape
      else [] := by
  rw [shapesAt, if_neg hpos, if_neg htype.1, if_neg htype.2.1, if_neg htype.2.2.1,
    if_neg htype.2.2.2, hat]

theorem shapesAt_device (hpos : st.pos = 0) (htype : dtTypeAt mem st = usbDtDevice) :
    shapesAt mem st = uusbParseDeviceDescriptor.map DtField.shape := by
  rw [shapesAt, if_pos hpos, if_pos htype]

theorem Handling.looks {outcome : DtCase} (h : Handling mem st outcome) :
    LooksAtFields mem st outcome := by
  cases h with
  | notDevice hpos htype =>
      apply looksAtFields_none _ rfl
      rw [shapesAt, if_pos hpos, if_neg htype]
  | deviceShort hpos htype => exact looksAtFields_got (shapesAt_device hpos htype) rfl
  | deviceCount hpos htype => exact looksAtFields_got (shapesAt_device hpos htype) rfl
  | device hpos htype => exact looksAtFields_got (shapesAt_device hpos htype) rfl
  | secondDevice hpos htype =>
      apply looksAtFields_none _ rfl
      rw [shapesAt, if_neg hpos, if_pos htype]
  | tooManyConfigs hpos htype hmany =>
      apply looksAtFields_none _ rfl
      rw [shapesAt_config hpos htype, if_neg]
      exact fun hno => Nat.not_lt.mpr hno.1 hmany
  | configOutside hpos htype _ hfull =>
      apply looksAtFields_none _ rfl
      rw [shapesAt_config hpos htype, if_neg]
      exact fun hno => Nat.not_lt.mpr hfull hno.2
  | configShort hpos htype hdeclared hfree =>
      refine looksAtFields_got ?_ rfl
      rw [shapesAt_config hpos htype, if_pos ⟨hdeclared, hfree⟩]
  | config hpos htype hdeclared hfree =>
      refine looksAtFields_got ?_ rfl
      rw [shapesAt_config hpos htype, if_pos ⟨hdeclared, hfree⟩]
  | noConfig hpos htype hnone =>
      apply looksAtFields_none _ rfl
      rw [shapesAt, if_neg hpos, htype, hnone]
      rfl
  | tooManyInterfaces hpos htype hci hmany =>
      apply looksAtFields_none _ rfl
      rw [shapesAt_interface hpos htype hci, if_neg]
      exact fun hno => Nat.not_lt.mpr hno.1 hmany
  | interfaceOutside hpos htype hci _ hfull =>
      apply looksAtFields_none _ rfl
      rw [shapesAt_interface hpos htype hci, if_neg]
      exact fun hno => Nat.not_lt.mpr hfull hno.2
  | interfaceShort hpos htype hci hdeclared hfree =>
      refine looksAtFields_got ?_ rfl
      rw [shapesAt_interface hpos htype hci, if_pos ⟨hdeclared, hfree⟩]
  | interface hpos htype hci hdeclared hfree =>
      refine looksAtFields_got ?_ rfl
      rw [shapesAt_interface hpos htype hci, if_pos ⟨hdeclared, hfree⟩]
  | noInterface hpos htype hnone =>
      apply looksAtFields_none _ rfl
      rw [shapesAt, if_neg hpos, htype, hnone]
      rfl
  | tooManyEndpoints hpos htype hat hmany =>
      apply looksAtFields_none _ rfl
      rw [shapesAt_endpoint hpos htype hat, if_neg]
      exact fun hno => Nat.not_lt.mpr hno.1 hmany
  | endpointOutside hpos htype hat _ hfull =>
      apply looksAtFields_none _ rfl
      rw [shapesAt_endpoint hpos htype hat, if_neg]
      exact fun hno => Nat.not_lt.mpr hfull hno.2
  | endpointShort hpos htype hat hdeclared hfree =>
      refine looksAtFields_got ?_ rfl
      rw [shapesAt_endpoint hpos htype hat, if_pos ⟨hdeclared, hfree⟩]
  | endpoint hpos htype hat hdeclared hfree =>
      refine looksAtFields_got ?_ rfl
      rw [shapesAt_endpoint hpos htype hat, if_pos ⟨hdeclared, hfree⟩]
  | unclaimed hpos htype hnone =>
      apply looksAtFields_none _ rfl
      rw [shapesAt, if_neg hpos, if_neg htype.1, if_neg htype.2.1,
        if_neg htype.2.2.1, if_neg htype.2.2.2, hnone]
  | ignored hpos htype hat hhandler =>
      apply looksAtFields_none _ rfl
      rw [shapesAt_other hpos htype hat, hhandler]
      rfl
  | ccidShort hpos htype hat hhandler =>
      refine ⟨[.left st.pos (dtLenAt mem st) (sub32 (dtLenAt mem st) 2)],
        by simp, ?_⟩
      rw [shapesAt_other hpos htype hat, if_pos hhandler]
      exact ccidGot_seen
  | ccid hpos htype hat hhandler =>
      refine ⟨[.left st.pos (dtLenAt mem st) (sub32 (dtLenAt mem st) 2)],
        by simp, ?_⟩
      rw [shapesAt_other hpos htype hat, if_pos hhandler]
      exact ccidGot_seen

theorem sub32_two_le_iff (n : Nat) : sub32 n 2 ≤ n ↔ 2 ≤ n := by
  unfold sub32
  split <;> lia

/-- A handled descriptor leaves no access out of bounds exactly when there was
none and the round looks inside. -/
theorem Handling.allInBounds_iff {outcome : DtCase} (h : Handling mem st outcome) :
    AllInBounds len outcome.state.seen ↔
      AllInBounds len st.seen ∧ (st.pos < len ∧ wrap32 (st.pos + 1) < len) ∧
        2 ≤ dtLenAt mem st ∧ parsedEnd mem st ≤ len := by
  have hhead : AllInBounds len (dtHead mem st).seen ↔
      AllInBounds len st.seen ∧ (st.pos < len ∧ wrap32 (st.pos + 1) < len) ∧
        2 ≤ dtLenAt mem st := by
    have hseen : (dtHead mem st).seen = st.seen ++
        [.header st.pos (wrap32 (st.pos + 1))] ++
        [.left st.pos (dtLenAt mem st) (sub32 (dtLenAt mem st) 2)] := rfl
    rw [hseen, allInBounds_append, allInBounds_append, allInBounds_cons,
      allInBounds_cons, ← sub32_two_le_iff _]
    simp only [allInBounds_nil, and_true, and_assoc, Access.InBounds]
  rcases h.looks with ⟨restart, hrestart, hseen⟩
  rw [hseen, allInBounds_append, allInBounds_append, hhead]
  constructor
  · intro hall
    rcases hall with ⟨⟨⟨hst, hheader, htwo⟩, _⟩, hfields⟩
    refine ⟨hst, hheader, htwo, ?_⟩
    apply (allInBounds_fieldAccesses (Nat.le_add_right _ 2) _ _).mp hfields
    rw [sub32_of_le htwo]
    lia
  · intro hall
    rcases hall with ⟨hst, hheader, htwo, hend⟩
    refine ⟨⟨⟨hst, hheader, htwo⟩, ?_⟩, ?_⟩
    · intro access hmem
      rw [hrestart access hmem]
      exact (sub32_two_le_iff _).mpr htwo
    · apply (allInBounds_fieldAccesses (Nat.le_add_right _ 2) _ _).mpr hend
      rw [sub32_of_le htwo]
      lia

/-!
## The walk
-/

/-- What a round leaves: the state at the head of the next one, or the one the
walk ends in. -/
def roundState : Round UusbParse UusbParseEnd -> UusbParse
  | .again next => next
  | .finish value => value.state

theorem roundState_allInBounds (hguard : uusbParseGuard len st) :
    AllInBounds len (roundState (uusbParseStep mem len st)).seen ↔
      AllInBounds len st.seen ∧ LooksInside mem len st := by
  by_cases hlong : dtTooLong mem len st
  · rw [uusbParseStep_of_tooLong hguard hlong]
    have hseen : (roundState (.finish (.returned false (seenHeader st)))).seen =
        st.seen ++ [.header st.pos (wrap32 (st.pos + 1))] := rfl
    rw [hseen, allInBounds_append, allInBounds_cons]
    constructor
    · intro hall
      exact ⟨hall.1, hall.2.1, fun hno => absurd hlong hno, fun hno => absurd hlong hno⟩
    · intro hall
      exact ⟨hall.1, hall.2.header, allInBounds_nil⟩
  · have hstate : (roundState (uusbParseStep mem len st)).seen =
        (uusbParseCase mem st).state.seen := by
      rw [uusbParseStep_of_handles ⟨hguard, hlong⟩]
      cases uusbParseCase mem st <;> rfl
    rw [hstate, (uusbParseCase_handling mem st).allInBounds_iff]
    constructor
    · intro hall
      exact ⟨hall.1, hall.2.1, fun _ => hall.2.2.1, fun _ => hall.2.2.2⟩
    · intro hall
      exact ⟨hall.1, hall.2.header, hall.2.length hlong, hall.2.fields hlong⟩

theorem boundsKept_iff_staysInside :
    BoundsKept mem len ↔
      forall st, UusbParseReaches mem len st -> uusbParseGuard len st ->
        StaysInside mem len st := by
  constructor
  · intro h st hst hguard
    have hround : AllInBounds len (roundState (uusbParseStep mem len st)).seen := by
      cases hstep : uusbParseStep mem len st with
      | again next => exact h.states next (hst.tail hstep)
      | finish value => exact h.ends st value hst hstep
    refine ⟨((roundState_allInBounds hguard).mp hround).2, ?_⟩
    intro hshort hslot
    rcases uusbParseCase_outOfArray_iff.mpr hslot with ⟨after, hcase⟩
    have hstep := uusbParseStep_of_handles ⟨hguard, hshort⟩
    rw [hcase] at hstep
    exact h.inside st after hst hstep
  · intro h
    have hstates : forall st, UusbParseReaches mem len st ->
        AllInBounds len st.seen := by
      intro st hst
      induction hst with
      | refl => exact allInBounds_nil
      | tail hst hstep ih =>
          have hguard := (uusbParseStep_again hstep).1.1
          have hround := (roundState_allInBounds hguard).mpr ⟨ih, (h _ hst hguard).looks⟩
          rw [hstep] at hround
          exact hround
    refine ⟨hstates, ?_, ?_⟩
    · intro st value hst hstep
      by_cases hguard : uusbParseGuard len st
      · have hround := (roundState_allInBounds hguard).mpr
          ⟨hstates st hst, (h st hst hguard).looks⟩
        rw [hstep] at hround
        exact hround
      · rw [uusbParseStep_of_end hguard] at hstep
        injection hstep with hvalue
        rw [← hvalue]
        exact hstates st hst
    · intro st after hst hstep
      rcases uusbParseStep_outOfArray hstep with ⟨hhandles, hslot⟩
      exact (h st hst hhandles.1).slot hhandles.2 hslot

/-- On all but the longest inputs only a length of zero or one leads outside. -/
theorem looksInside_iff_length (hlen : len + 255 ≤ 2 ^ 32)
    (hst : UusbParseReaches mem len st) (hguard : uusbParseGuard len st) :
    LooksInside mem len st ↔ (¬ dtTooLong mem len st -> 2 ≤ dtLenAt mem st) := by
  have hpos := pos_le hst
  have hbyte : dtLenAt mem st < 256 := (mem st.pos).toNat_lt
  unfold uusbParseGuard wrap32 at hguard
  constructor
  · intro h
    exact h.length
  · intro h
    refine ⟨⟨by lia, by unfold wrap32; lia⟩, h, ?_⟩
    intro hshort
    have htwo := h hshort
    have hend := readEnd_le (shapesAt mem st) (st.pos + 2) (sub32 (dtLenAt mem st) 2)
    rw [sub32_of_le htwo] at hend
    unfold dtTooLong wrap32 at hshort
    unfold parsedEnd
    rw [sub32_of_le htwo]
    lia

/-- The walk stays inside exactly when every round does; on all but the longest inputs
that means that every descriptor handled has a length of two or more, and a slot. -/
theorem boundsKept_iff :
    (BoundsKept mem len ↔
      forall st, UusbParseReaches mem len st -> uusbParseGuard len st ->
        StaysInside mem len st) ∧
    (len + 255 ≤ 2 ^ 32 ->
      (BoundsKept mem len ↔
        forall st, UusbParseReaches mem len st -> Handles mem len st ->
          2 ≤ dtLenAt mem st ∧ ¬ SlotOutside mem st)) := by
  refine ⟨boundsKept_iff_staysInside, ?_⟩
  intro hlen
  rw [boundsKept_iff_staysInside]
  constructor
  · intro h st hst hhandles
    have hinside := h st hst hhandles.1
    exact ⟨hinside.looks.length hhandles.2, hinside.slot hhandles.2⟩
  · intro h st hst hguard
    refine ⟨?_, fun hshort => (h st hst ⟨hguard, hshort⟩).2⟩
    rw [looksInside_iff_length hlen hst hguard]
    exact fun hshort => (h st hst ⟨hguard, hshort⟩).1

end

/-- A device descriptor with a length byte of one, which leaves its parser
2^32 - 1 bytes. -/
def lengthOne : List UInt8 :=
  [1, 1, 0, 2, 0, 0, 0, 64, 0x50, 0x10, 7, 4, 0, 1, 0, 0, 0, 1]

theorem not_boundsKept_lengthOne :
    ¬ BoundsKept (memoryOf lengthOne fun _ => 0) lengthOne.length := by
  intro h
  have hhandles : Handles (memoryOf lengthOne fun _ => 0) lengthOne.length {} :=
    ⟨by decide, by decide⟩
  have hinside := boundsKept_iff_staysInside.mp h {} Loop.Reaches.refl hhandles.1
  exact absurd (hinside.looks.length hhandles.2) (by decide)

end Usb
end UtokenDecrypt
