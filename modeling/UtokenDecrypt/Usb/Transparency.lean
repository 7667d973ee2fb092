import UtokenDecrypt.Usb.CcidRecord

/-!
# Descriptors of other types

A descriptor of a type `uusb_parse_descriptors` does not list is handed to the
handler of the current interface, and the only handler there is takes it for a
CCID descriptor.  Whether such a descriptor makes a difference depends on the
current interface, and on what the descriptors behind it do to the CCID record.
-/

namespace UtokenDecrypt
namespace Usb

open Foundation

/-!
## What a record changes in the end
-/

/-- What is seen of a walk from outside: its value, if it has one, and the tree. -/
def Handled.result : Handled -> Option Bool × UusbDev
  | taken b => (some true, b.dev)
  | refused dev => (some false, dev)
  | outside dev => (none, dev)

/-- The tree has the interface, and the walk is past it. -/
structure Past (at_ : Nat × Nat) (b : Build) : Prop where
  has : b.dev.Has at_
  behind : b.interface ≠ some at_

section

variable {b next : Build} {dt : AnyDt} {at_ : Nat × Nat} {ccid : Option CcidDescriptor}

/-- A walk does not come back to an interface it has left. -/
theorem Takes.interface_ne (h : Takes b dt next) (hhas : b.dev.Has at_)
    (hleft : b.interface ≠ some at_ ∨ dt.dtType = usbDtConfig ∨
      dt.dtType = usbDtInterface) : next.interface ≠ some at_ := by
  have hkept : dt.dtType ≠ usbDtConfig -> dt.dtType ≠ usbDtInterface ->
      b.interface ≠ some at_ := by
    intro hconfig hinterface
    exact hleft.resolve_right (not_or.mpr ⟨hconfig, hinterface⟩)
  cases h with
  | config => exact fun hbad => by cases hbad
  | interface =>
      intro heq
      injection heq with heq
      have hlt := hhas.interface
      rw [← heq] at hlt
      exact Nat.lt_irrefl _ hlt
  | endpoint htype =>
      rw [htype] at hkept
      exact hkept (by decide) (by decide)
  | passed htype => exact hkept htype.2.1 htype.2.2.1
  | ccid htype => exact hkept htype.2.1 htype.2.2.1

theorem Takes.past (h : Takes b dt next) (hpast : Past at_ b) : Past at_ next :=
  ⟨h.has hpast.has, h.interface_ne hpast.has (Or.inl hpast.behind)⟩

theorem Handled.setCcid_result_iff {handled : Handled} (h : handled.dev.Has at_) :
    (handled.setCcid at_ ccid).result = handled.result ↔
      (handled.dev.getInterface at_).ccid = ccid := by
  rw [← setCcid_eq_self_iff h]
  cases handled with
  | taken b =>
      change (some true, b.dev.setCcid at_ ccid) = (some true, b.dev) ↔ _
      rw [Prod.mk.injEq]
      exact and_iff_right rfl
  | refused dev =>
      change (some false, dev.setCcid at_ ccid) = (some false, dev) ↔ _
      rw [Prod.mk.injEq]
      exact and_iff_right rfl
  | outside dev =>
      change (none, dev.setCcid at_ ccid) = (none, dev) ↔ _
      rw [Prod.mk.injEq]
      exact and_iff_right rfl

theorem Build.setCcid_self (h : b.dev.Has at_) :
    b.setCcid at_ (b.dev.getInterface at_).ccid = b := by
  rw [Build.setCcid, Usb.setCcid_self h]

/-- What commutes with setting the record leaves the record alone. -/
theorem ccid_of_setCcid {handled : Handled} (h : handled.dev.Has at_)
    (hself : handled.setCcid at_ ccid = handled) :
    (handled.dev.getInterface at_).ccid = ccid :=
  (Handled.setCcid_result_iff h).mp (congrArg Handled.result hself)

theorem handle_has (hvalid : b.Valid) (h : b.dev.Has at_) (dt : AnyDt) :
    (b.handle dt).dev.Has at_ := by
  cases hcase : b.handle dt with
  | taken next => exact (takes_of_handle hcase).has h
  | refused dev =>
      change dev.Has at_
      rcases handle_refused hvalid hcase with hsame | hmore
      · rw [hsame.2]
        exact h
      · exact hmore.2 at_ h
  | outside dev =>
      change dev.Has at_
      rw [handle_outside hcase]
      exact h

theorem walk_past (hvalid : b.Valid) (h : Past at_ b) (dts : List AnyDt)
    (ccid : Option CcidDescriptor) :
    (b.setCcid at_ ccid).walk dts = (b.walk dts).setCcid at_ ccid ∧
      (b.walk dts).dev.Has at_ := by
  induction dts generalizing b with
  | nil => exact ⟨rfl, h.has⟩
  | cons dt dts ih =>
      have hkept : ¬ Overwrites b at_ dt := fun hbad => h.behind hbad.current
      have hhas := handle_has hvalid h.has dt
      rw [Build.walk, Build.walk, handle_setCcid h.has ccid hkept]
      cases hcase : b.handle dt with
      | taken next =>
          have htakes := takes_of_handle hcase
          exact ih (htakes.valid hvalid) (htakes.past h)
      | refused dev =>
          rw [hcase] at hhas
          exact ⟨rfl, hhas⟩
      | outside dev =>
          rw [hcase] at hhas
          exact ⟨rfl, hhas⟩

/-- A record the walk is past makes a difference exactly if it differs. -/
theorem walk_past_result_iff (hvalid : b.Valid) (h : Past at_ b) (dts : List AnyDt)
    (ccid : Option CcidDescriptor) :
    ((b.setCcid at_ ccid).walk dts).result = (b.walk dts).result ↔
      (b.dev.getInterface at_).ccid = ccid := by
  have hwalk := walk_past hvalid h dts ccid
  have hself := (walk_past hvalid h dts (b.dev.getInterface at_).ccid).1
  rw [Build.setCcid_self h.has] at hself
  rw [hwalk.1, Handled.setCcid_result_iff hwalk.2,
    ccid_of_setCcid hwalk.2 hself.symm]

theorem handle_ccid (hvalid : b.Valid) (h : b.dev.Has at_)
    (hkept : ¬ Overwrites b at_ dt) :
    ((b.handle dt).dev.getInterface at_).ccid = (b.dev.getInterface at_).ccid := by
  have hself := handle_setCcid h (b.dev.getInterface at_).ccid hkept
  rw [Build.setCcid_self h] at hself
  exact ccid_of_setCcid (handle_has hvalid h dt) hself.symm

/-!
The record of the current interface is overwritten by the next descriptor that
is taken for a CCID descriptor, unless the walk leaves the interface before.
-/

/-- The endpoints fit into the interface, behind those it has. -/
def EndpointsTaken (interface : UusbInterface) (endpoints : List AnyDt) : Prop :=
  (forall dt, dt ∈ endpoints -> dt.dtType = usbDtEndpoint ∧
    dt.Holds uusbParseEndpointDescriptor) ∧
  (endpoints = [] ∨
    (interface.numEndpoints + endpoints.length ≤
        interface.descriptor.bNumEndpoints.toNat + 1 ∧
      interface.numEndpoints + endpoints.length ≤ uusbMaxEndpoints))

def OverwrittenLater (interface : UusbInterface) (dts : List AnyDt) : Prop :=
  exists endpoints dt rest, dts = endpoints ++ dt :: rest ∧
    EndpointsTaken interface endpoints ∧ IsOther dt.dtType ∧
    dt.Holds ccidParseUsbDescriptor

theorem not_overwrittenLater_nil (interface : UusbInterface) :
    ¬ OverwrittenLater interface [] := by
  intro h
  rcases h with ⟨endpoints, dt, rest, hsplit, _⟩
  exact absurd (List.append_eq_nil_iff.mp hsplit.symm).2 (List.cons_ne_nil _ _)

/-- The next descriptor overwrites the record, or is an endpoint that is taken in
front of the one that does. -/
theorem overwrittenLater_cons_iff {interface : UusbInterface} {rest : List AnyDt}
    (ed : UusbEndpointDescriptor) :
    OverwrittenLater interface (dt :: rest) ↔
      (IsOther dt.dtType ∧ dt.Holds ccidParseUsbDescriptor) ∨
      (dt.dtType = usbDtEndpoint ∧ dt.Holds uusbParseEndpointDescriptor ∧
        interface.numEndpoints ≤ interface.descriptor.bNumEndpoints.toNat ∧
        interface.numEndpoints < uusbMaxEndpoints ∧
        OverwrittenLater
          { interface with endpoint := interface.endpoint ++ [{ descriptor := ed }] }
          rest) := by
  have hnumber : ({ interface with
      endpoint := interface.endpoint ++ [{ descriptor := ed }] } :
      UusbInterface).numEndpoints = interface.numEndpoints + 1 := by
    simp [UusbInterface.numEndpoints]
  constructor
  · intro h
    rcases h with ⟨endpoints, last, behind, hsplit, hendpoints, hother, hholds⟩
    cases endpoints with
    | nil =>
        rw [List.nil_append] at hsplit
        rw [← (List.cons.inj hsplit).1] at hother hholds
        exact Or.inl ⟨hother, hholds⟩
    | cons first endpoints =>
        rw [List.cons_append] at hsplit
        have hroom := hendpoints.2.resolve_left (List.cons_ne_nil _ _)
        rw [List.length_cons] at hroom
        have hfirst := hendpoints.1 first List.mem_cons_self
        rw [← (List.cons.inj hsplit).1] at hfirst
        refine Or.inr ⟨hfirst.1, hfirst.2, by lia, by lia, endpoints, last, behind,
          (List.cons.inj hsplit).2, ⟨?_, Or.inr ?_⟩, hother, hholds⟩
        · exact fun other hmem => hendpoints.1 other (List.mem_cons_of_mem _ hmem)
        · rw [hnumber]
          lia
  · intro h
    rcases h with ⟨hother, hholds⟩ | ⟨htype, hfits, hdeclared, harray, hlater⟩
    · exact ⟨[], dt, rest, rfl, ⟨fun _ hmem => (List.not_mem_nil hmem).elim, Or.inl rfl⟩,
        hother, hholds⟩
    · rcases hlater with ⟨endpoints, last, behind, hsplit, hendpoints, hother, hholds⟩
      refine ⟨dt :: endpoints, last, behind, by rw [hsplit, List.cons_append],
        ⟨?_, Or.inr ?_⟩, hother, hholds⟩
      · intro other hmem
        cases List.mem_cons.mp hmem with
        | inl heq =>
            rw [heq]
            exact ⟨htype, hfits⟩
        | inr hrest => exact hendpoints.1 other hrest
      · rw [List.length_cons]
        rcases hendpoints.2 with hnil | hroom
        · rw [hnil, List.length_nil]
          lia
        · rw [hnumber] at hroom
          lia

/-- A descriptor that is refused, or finds no slot, is not one that overwrites the
record, and no endpoint that is taken in front of it. -/
theorem not_overwrittenLater_of_ended (hcurrent : b.interface = some at_)
    (hhandler : (b.dev.getInterface at_).handler ≠ none)
    (hended : forall next, b.handle dt ≠ .taken next) (rest : List AnyDt) :
    ¬ OverwrittenLater (b.dev.getInterface at_) (dt :: rest) := by
  rw [overwrittenLater_cons_iff {}]
  intro h
  rcases h with ⟨hother, hholds⟩ | ⟨htype, hfits, hdeclared, harray, _⟩
  · exact hended _ (Overwrites.handle ⟨hother, hcurrent, hhandler, hholds⟩)
  · have htaken : b.handle dt = .taken { b with
        dev := b.dev.addEndpoint at_
          (loadPrefix uusbParseEndpointDescriptor dt.body {}) } := by
      rw [Build.handle, htype, if_neg (by decide), if_neg (by decide),
        if_neg (by decide), if_pos rfl, Build.handleEndpoint, hcurrent]
      exact (if_neg (Nat.not_lt.mpr hdeclared)).trans
        ((if_neg (Nat.not_le.mpr harray)).trans (if_pos hfits))
    exact hended _ htaken

/-- Behind a new configuration or interface the record of the one before is final. -/
theorem walk_left_result_iff {dt : AnyDt} {next : Build} (htakes : Takes b dt next)
    (hvalid : b.Valid) (hhas : b.dev.Has at_)
    (htype : dt.dtType = usbDtConfig ∨ dt.dtType = usbDtInterface)
    (hfirst : next.dev.Has at_)
    (hkept : (next.dev.getInterface at_).ccid = (b.dev.getInterface at_).ccid)
    (dts : List AnyDt) (ccid : Option CcidDescriptor) :
    ((next.setCcid at_ ccid).walk dts).result = (next.walk dts).result ↔
      (b.dev.getInterface at_).ccid = ccid ∨
        OverwrittenLater (b.dev.getInterface at_) (dt :: dts) := by
  have hpast : Past at_ next := ⟨hfirst, htakes.interface_ne hhas (Or.inr htype)⟩
  have hlater : ¬ OverwrittenLater (b.dev.getInterface at_) (dt :: dts) := by
    rw [overwrittenLater_cons_iff {}]
    intro h
    rcases h with ⟨hother, _⟩ | ⟨hendpoint, _⟩
    · exact htype.elim hother.2.1 hother.2.2.1
    · rw [hendpoint] at htype
      exact absurd htype (by decide)
  rw [or_iff_left hlater, ← hkept]
  exact walk_past_result_iff (htakes.valid hvalid) hpast dts ccid

/-- Another record of the current interface makes no difference exactly if it is
the same, or is overwritten. -/
theorem walk_setCcid_result_iff (hvalid : b.Valid) (hcurrent : b.interface = some at_)
    (hhandler : (b.dev.getInterface at_).handler ≠ none) (dts : List AnyDt)
    (ccid : Option CcidDescriptor) :
    ((b.setCcid at_ ccid).walk dts).result = (b.walk dts).result ↔
      (b.dev.getInterface at_).ccid = ccid ∨
        OverwrittenLater (b.dev.getInterface at_) dts := by
  have hhas := hvalid.interface at_ hcurrent
  induction dts generalizing b with
  | nil =>
      rw [or_iff_left (not_overwrittenLater_nil _)]
      have hend : (Handled.taken b).dev.Has at_ := hhas
      exact Handled.setCcid_result_iff hend
  | cons dt dts ih =>
      rw [Build.walk, Build.walk]
      by_cases hover : Overwrites b at_ dt
      · rw [hover.handle_setCcid hhas, overwrittenLater_cons_iff {}]
        exact iff_of_true rfl (Or.inr (Or.inl ⟨hover.other, hover.holds⟩))
      · have hfirst := handle_has hvalid hhas dt
        have hkept := handle_ccid hvalid hhas hover
        rw [handle_setCcid hhas ccid hover]
        have hended (hnone : forall next, b.handle dt ≠ .taken next) :
            ((b.handle dt).setCcid at_ ccid).result = (b.handle dt).result ↔
              (b.dev.getInterface at_).ccid = ccid ∨
                OverwrittenLater (b.dev.getInterface at_) (dt :: dts) := by
          rw [or_iff_left (not_overwrittenLater_of_ended hcurrent hhandler hnone dts),
            ← hkept]
          exact Handled.setCcid_result_iff hfirst
        cases hcase : b.handle dt with
        | refused dev =>
            rw [hcase] at hended
            exact hended fun next hbad => by cases hbad
        | outside dev =>
            rw [hcase] at hended
            exact hended fun next hbad => by cases hbad
        | taken next =>
            rw [hcase] at hfirst hkept
            have htakes := takes_of_handle hcase
            have hnext := htakes.valid hvalid
            have hleft := fun htype =>
              walk_left_result_iff htakes hvalid hhas htype hfirst hkept dts ccid
            change ((next.setCcid at_ ccid).walk dts).result = (next.walk dts).result ↔ _
            cases htakes with
            | config htype => exact hleft (Or.inl htype)
            | interface htype => exact hleft (Or.inr htype)
            | endpoint htype hat hdeclared harray hfits ed =>
                rw [hcurrent] at hat
                injection hat with hat
                subst hat
                have hget : (b.dev.addEndpoint at_ ed).getInterface at_ =
                    { b.dev.getInterface at_ with
                      endpoint := (b.dev.getInterface at_).endpoint ++
                        [{ descriptor := ed }] } :=
                  getInterface_modifyInterface hhas.config hhas.interface _
                rw [overwrittenLater_cons_iff ed, ← hget, ← hkept]
                have hrest := ih hnext hcurrent (by
                  change ((b.dev.addEndpoint at_ ed).getInterface at_).handler ≠ none
                  rw [hget]
                  exact hhandler) hfirst
                have hnot : ¬ (IsOther dt.dtType ∧ dt.Holds ccidParseUsbDescriptor) := by
                  rw [htype]
                  exact fun hbad => absurd hbad.1 (by decide)
                rw [or_iff_right hnot, and_iff_right htype, and_iff_right hfits,
                  and_iff_right hdeclared, and_iff_right harray]
                exact hrest
            | passed htype hnone => exact absurd (hnone at_ hcurrent) hhandler
            | ccid htype hat _ hholds =>
                exact absurd ⟨htype, hcurrent, hhandler, hholds⟩ hover

/-!
Where the walk is to end with false at once, it has to do so later, with the tree
as it is now.
-/

/-- The record an interface has behind descriptors that are taken for CCID
descriptors. -/
def recordAfter (ccid : Option CcidDescriptor) (dts : List AnyDt) :
    Option CcidDescriptor :=
  dts.foldl (fun _ dt => some dt.ccid) ccid

def RefusedLater (b : Build) (interface : UusbInterface)
    (ccid : Option CcidDescriptor) (dts : List AnyDt) : Prop :=
  exists records dt rest, dts = records ++ dt :: rest ∧
    (forall record, record ∈ records -> IsOther record.dtType ∧
      record.Holds ccidParseUsbDescriptor) ∧
    recordAfter ccid records = interface.ccid ∧ RefusedAtOnce b dt

theorem refusedLater_cons_iff {interface : UusbInterface} {rest : List AnyDt} :
    RefusedLater b interface ccid (dt :: rest) ↔
      (ccid = interface.ccid ∧ RefusedAtOnce b dt) ∨
      (IsOther dt.dtType ∧ dt.Holds ccidParseUsbDescriptor ∧
        RefusedLater b interface (some dt.ccid) rest) := by
  constructor
  · intro h
    rcases h with ⟨records, last, behind, hsplit, hrecords, hafter, hrefused⟩
    cases records with
    | nil =>
        rw [List.nil_append] at hsplit
        rw [← (List.cons.inj hsplit).1] at hrefused
        exact Or.inl ⟨hafter, hrefused⟩
    | cons first records =>
        rw [List.cons_append] at hsplit
        have hfirst := hrecords first List.mem_cons_self
        rw [recordAfter, List.foldl_cons] at hafter
        rw [← (List.cons.inj hsplit).1] at hfirst hafter
        exact Or.inr ⟨hfirst.1, hfirst.2, records, last, behind,
          (List.cons.inj hsplit).2,
          fun record hmem => hrecords record (List.mem_cons_of_mem _ hmem), hafter,
          hrefused⟩
  · intro h
    rcases h with ⟨hccid, hrefused⟩ | ⟨hother, hholds, hlater⟩
    · exact ⟨[], dt, rest, rfl, fun _ hmem => (List.not_mem_nil hmem).elim, hccid,
        hrefused⟩
    · rcases hlater with ⟨records, last, behind, hsplit, hrecords, hafter, hrefused⟩
      refine ⟨dt :: records, last, behind, by rw [hsplit, List.cons_append], ?_, hafter,
        hrefused⟩
      intro record hmem
      cases List.mem_cons.mp hmem with
      | inl heq =>
          rw [heq]
          exact ⟨hother, hholds⟩
      | inr hrest => exact hrecords record hrest

theorem recorded_setCcid {dev : UusbDev} (h : dev.Has at_) :
    (dev.setCcid at_ ccid).recorded = dev.recorded := by
  have hsame := recorded_modifyInterface h.config h.interface
    fun interface => { interface with ccid := ccid }
  simp only [UusbInterface.recorded, UusbInterface.numEndpoints] at hsame
  exact Nat.add_right_cancel hsame

theorem Build.Valid.setCcid (h : b.Valid) (at_ : Nat × Nat)
    (ccid : Option CcidDescriptor) : (b.setCcid at_ ccid).Valid := by
  constructor
  · intro ci hci
    change ci < (b.dev.modifyConfig _ _).numConfigs
    rw [modifyConfig_numConfigs]
    exact h.config ci hci
  · intro other hother
    exact (h.interface other hother).modifyInterface _ _

theorem Handled.result_snd (handled : Handled) : handled.result.2 = handled.dev := by
  cases handled <;> rfl

/-- A descriptor that is taken without overwriting the record is recorded in the tree. -/
theorem Takes.recorded_of_not_overwrites {dt : AnyDt} {next : Build} (h : Takes b dt next)
    (hvalid : b.Valid) (hcurrent : b.interface = some at_)
    (hhandler : (b.dev.getInterface at_).handler ≠ none) (hover : ¬ Overwrites b at_ dt) :
    next.dev.recorded = b.dev.recorded + 1 := by
  rcases h.recorded hvalid with ⟨hother, _⟩ | hmore
  · cases h with
    | config htype => exact absurd htype hother.2.1
    | interface htype => exact absurd htype hother.2.2.1
    | endpoint htype => exact absurd htype hother.2.2.2
    | passed _ hnone => exact absurd (hnone at_ hcurrent) hhandler
    | ccid _ _ _ hholds => exact absurd ⟨hother, hcurrent, hhandler, hholds⟩ hover
  · exact hmore

/-- The tree does not become again what it was before something was recorded. -/
theorem walk_setCcid_ne {next : Build} (hvalid : next.Valid) (hhas : next.dev.Has at_)
    {dev : UusbDev} (hmore : dev.recorded < next.dev.recorded) (dts : List AnyDt)
    (rv : Option Bool) : ((next.setCcid at_ ccid).walk dts).result ≠ (rv, dev) := by
  intro h
  have hle := walk_recorded_le (hvalid.setCcid at_ ccid) dts
  have hdev := congrArg Prod.snd h
  rw [Handled.result_snd] at hdev
  rw [hdev] at hle
  change (next.dev.setCcid at_ ccid).recorded ≤ _ at hle
  rw [recorded_setCcid hhas] at hle
  lia

/-- A refusal leaves the tree as it is now exactly if nothing of the descriptor is
recorded, and the record is the one that is there. -/
theorem refused_setCcid_eq_iff (hvalid : b.Valid) (hhas : b.dev.Has at_) {dt : AnyDt}
    {dev : UusbDev} (hcase : b.handle dt = .refused dev) (hdevHas : dev.Has at_) :
    dev.setCcid at_ ccid = b.dev ↔
      ccid = (b.dev.getInterface at_).ccid ∧ RefusedAtOnce b dt := by
  rcases handle_refused hvalid hcase with ⟨hrefused, hsame⟩ | ⟨hmore, _⟩
  · rw [hsame, setCcid_eq_self_iff hhas, and_iff_left hrefused]
    exact eq_comm
  · refine iff_of_false ?_ ?_
    · intro hdev
      have hrecorded := congrArg UusbDev.recorded hdev
      rw [recorded_setCcid hdevHas] at hrecorded
      lia
    · intro h
      have honce := h.2.handle
      rw [hcase] at honce
      injection honce with hdev
      rw [hdev] at hmore
      lia

/-- The walk ends with the tree as it is now exactly if it is refused by a
descriptor of which nothing is recorded, behind descriptors that leave the record
as it is now. -/
theorem walk_refused_iff (hvalid : b.Valid) (hcurrent : b.interface = some at_)
    (hhandler : (b.dev.getInterface at_).handler ≠ none) (dts : List AnyDt)
    (ccid : Option CcidDescriptor) :
    ((b.setCcid at_ ccid).walk dts).result = (some false, b.dev) ↔
      RefusedLater b (b.dev.getInterface at_) ccid dts := by
  have hhas := hvalid.interface at_ hcurrent
  induction dts generalizing ccid with
  | nil =>
      constructor
      · intro h
        cases (Prod.mk.inj h).1
      · intro h
        rcases h with ⟨records, dt, rest, hsplit, _⟩
        exact absurd (List.append_eq_nil_iff.mp hsplit.symm).2 (List.cons_ne_nil _ _)
  | cons dt dts ih =>
      rw [Build.walk, refusedLater_cons_iff]
      by_cases hover : Overwrites b at_ dt
      · have hnot : ¬ RefusedAtOnce b dt := by
          intro hrefused
          have htaken := hover.handle
          rw [hrefused.handle] at htaken
          cases htaken
        rw [hover.handle_setCcid hhas, hover.handle,
          or_iff_right (fun hbad => hnot hbad.2), and_iff_right hover.other,
          and_iff_right hover.holds]
        exact ih (some dt.ccid)
      · have hnot : ¬ (IsOther dt.dtType ∧ dt.Holds ccidParseUsbDescriptor ∧
            RefusedLater b (b.dev.getInterface at_) (some dt.ccid) dts) :=
          fun hbad => hover ⟨hbad.1, hcurrent, hhandler, hbad.2.1⟩
        rw [handle_setCcid hhas ccid hover, or_iff_left hnot]
        have hfirst := handle_has hvalid hhas dt
        have honly : RefusedAtOnce b dt -> b.handle dt = .refused b.dev :=
          fun hrefused => hrefused.handle
        cases hcase : b.handle dt with
        | refused dev =>
            rw [hcase] at hfirst
            change (some false, dev.setCcid at_ ccid) = (some false, b.dev) ↔ _
            rw [Prod.mk.injEq, and_iff_right rfl]
            exact refused_setCcid_eq_iff hvalid hhas hcase hfirst
        | outside dev =>
            rw [hcase] at honly
            refine iff_of_false ?_ ?_
            · intro h
              cases (Prod.mk.inj h).1
            · intro h
              cases honly h.2
        | taken next =>
            rw [hcase] at hfirst honly
            have htakes := takes_of_handle hcase
            have hmore := htakes.recorded_of_not_overwrites hvalid hcurrent hhandler hover
            refine iff_of_false ?_ ?_
            · exact walk_setCcid_ne (htakes.valid hvalid) hfirst (by lia) dts _
            · intro h
              cases honly h.2

end

/-!
## Harmless descriptors
-/

/-- A descriptor of another type, in front of some others, makes no difference
where the walk stands.  The cases from `sameRecord` on are for an interface with a
handler. -/
inductive Harmless (b : Build) (dt : AnyDt) (back : List AnyDt) : Prop where
  | noInterface (hnone : b.interface = none)
  | noHandler {at_ : Nat × Nat} (hat : b.interface = some at_)
      (hnone : (b.dev.getInterface at_).handler = none)
  | sameRecord {at_ : Nat × Nat} (hat : b.interface = some at_)
      (hholds : dt.Holds ccidParseUsbDescriptor)
      (hsame : (b.dev.getInterface at_).ccid = some dt.ccid)
  | overwritten {at_ : Nat × Nat} (hat : b.interface = some at_)
      (hholds : dt.Holds ccidParseUsbDescriptor)
      (hlater : OverwrittenLater (b.dev.getInterface at_) back)
  | refusedAnyway {at_ : Nat × Nat} (hat : b.interface = some at_)
      (hshort : ¬ dt.Holds ccidParseUsbDescriptor)
      (hlater : RefusedLater b (b.dev.getInterface at_)
        (b.dev.getInterface at_).ccid back)

section

variable {b : Build} {dt : AnyDt}

theorem handle_other (htype : IsOther dt.dtType) : b.handle dt = b.handleOther dt := by
  rw [Build.handle, if_neg htype.1, if_neg htype.2.1, if_neg htype.2.2.1,
    if_neg htype.2.2.2]

theorem harmless_iff (hvalid : b.Valid) (htype : IsOther dt.dtType)
    (back : List AnyDt) :
    (b.walk (dt :: back)).result = (b.walk back).result ↔ Harmless b dt back := by
  rw [Build.walk]
  cases hat : b.interface with
  | none =>
      refine iff_of_true ?_ (.noInterface hat)
      rw [handle_other htype, Build.handleOther, hat]
      rfl
  | some at_ =>
      have hhas := hvalid.interface at_ hat
      by_cases hhandler : (b.dev.getInterface at_).handler = none
      · refine iff_of_true ?_ (.noHandler hat hhandler)
        rw [handle_other htype, Build.handleOther, hat]
        simp only [if_pos hhandler]
        rfl
      · have hsame : forall {other : Nat × Nat}, b.interface = some other ->
            at_ = other := by
          intro other hother
          rw [hat] at hother
          injection hother
        by_cases hholds : dt.Holds ccidParseUsbDescriptor
        · have hover : Overwrites b at_ dt := ⟨htype, hat, hhandler, hholds⟩
          rw [hover.handle]
          refine (walk_setCcid_result_iff hvalid hat hhandler back _).trans ?_
          constructor
          · intro h
            exact h.elim (.sameRecord hat hholds) (.overwritten hat hholds)
          · intro h
            cases h with
            | noInterface hnone =>
                rw [hat] at hnone
                cases hnone
            | noHandler hother hnone =>
                rw [← hsame hother] at hnone
                exact absurd hnone hhandler
            | sameRecord hother _ hrecord =>
                rw [← hsame hother] at hrecord
                exact Or.inl hrecord
            | overwritten hother _ hlater =>
                rw [← hsame hother] at hlater
                exact Or.inr hlater
            | refusedAnyway _ hshort _ => exact absurd hholds hshort
        · have hrefused : RefusedAtOnce b dt := .record htype hat hhandler hholds
          have hiff := walk_refused_iff hvalid hat hhandler back
            (b.dev.getInterface at_).ccid
          rw [Build.setCcid_self hhas] at hiff
          rw [hrefused.handle]
          refine eq_comm.trans (hiff.trans ?_)
          constructor
          · exact .refusedAnyway hat hholds
          · intro h
            cases h with
            | noInterface hnone =>
                rw [hat] at hnone
                cases hnone
            | noHandler hother hnone =>
                rw [← hsame hother] at hnone
                exact absurd hnone hhandler
            | sameRecord _ hbad _ => exact absurd hbad hholds
            | overwritten _ hbad _ => exact absurd hbad hholds
            | refusedAnyway hother _ hlater =>
                rw [← hsame hother] at hlater
                exact hlater

end

/-!
## Inserted descriptors
-/

theorem UusbParseEnd.handled_result (value : UusbParseEnd) :
    value.handled.result = value.result := by
  cases value with
  | returned okay st =>
      cases okay with
      | true => rfl
      | false => rfl
  | outOfArray st => rfl

/-- The parser comes to an end on the descriptors, with the result. -/
def WalksTo (dts : List AnyDt) (beyond : Nat -> UInt8)
    (result : Option Bool × UusbDev) : Prop :=
  exists fuel value,
    uusbParseDescriptors (dtsMemory dts beyond) (dtsLength dts) fuel = some value ∧
      value.result = result

/-- The result is that of the walk over the descriptors. -/
theorem Sequence.walksTo_iff {dts : List AnyDt} (h : Sequence dts)
    (beyond : Nat -> UInt8) (result : Option Bool × UusbDev) :
    WalksTo dts beyond result ↔ (walkDts dts).result = result := by
  rcases h.parse beyond with ⟨fuel, value, hrun, hvalue⟩
  rw [← hvalue, value.handled_result]
  constructor
  · intro hwalks
    rcases hwalks with ⟨more, other, hother, hresult⟩
    have hmax := Loop.run_mono hrun (Nat.le_max_left fuel more)
    rw [Loop.run_mono hother (Nat.le_max_right fuel more)] at hmax
    injection hmax with hsame
    rw [← hsame]
    exact hresult
  · intro hresult
    exact ⟨fuel, value, hrun, hresult⟩

/-- A type that is none of those of device, configuration, interface, endpoint and
CCID descriptors. -/
structure Unlisted (dtType : UInt8) : Prop where
  other : IsOther dtType
  notCcid : dtType ≠ 0x21

/-- A descriptor of an unlisted type, and a place for it among others, somewhere
behind the device descriptor they start with. -/
structure Insertion where
  front : List AnyDt
  dt : AnyDt
  back : List AnyDt
  device : exists first rest, front = first :: rest ∧ first.dtType = usbDtDevice
  unlisted : Unlisted dt.dtType
  sequence : Sequence (front ++ dt :: back)

namespace Insertion

def without (ins : Insertion) : List AnyDt :=
  ins.front ++ ins.back

def inserted (ins : Insertion) : List AnyDt :=
  ins.front ++ ins.dt :: ins.back

/-- The parser returns with the descriptor what it returns without it, and leaves the
same tree.  A walk that leaves its arrays does not return. -/
def Transparent (ins : Insertion) : Prop :=
  forall beyond beyond', exists rv dev,
    WalksTo ins.without beyond (some rv, dev) ∧
      WalksTo ins.inserted beyond' (some rv, dev)

/-- The parse without the descriptor takes no slot outside an array. -/
def StaysInArrays (ins : Insertion) : Prop :=
  forall beyond st,
    UusbParseReaches (dtsMemory ins.without beyond) (dtsLength ins.without) st ->
    Handles (dtsMemory ins.without beyond) (dtsLength ins.without) st ->
    ¬ SlotOutside (dtsMemory ins.without beyond) st

/-- Where the parse without the descriptor gets to its place, it is harmless. -/
def HarmlessThere (ins : Insertion) : Prop :=
  forall beyond st,
    UusbParseReaches (dtsMemory ins.without beyond) (dtsLength ins.without) st ->
    st.pos = dtsLength ins.front -> Harmless st.build ins.dt ins.back

section

variable (ins : Insertion)

theorem front_ne_nil : ins.front ≠ [] := by
  rcases ins.device with ⟨first, rest, hfront, _⟩
  rw [hfront]
  exact List.cons_ne_nil _ _

theorem sequence_without : Sequence ins.without := by
  constructor
  · intro dt hmem
    apply ins.sequence.long dt
    cases List.mem_append.mp hmem with
    | inl hfront => exact List.mem_append_left _ hfront
    | inr hback => exact List.mem_append_right _ (List.mem_cons_of_mem _ hback)
  · have hsmall := ins.sequence.small
    change dtsLength _ + 2 < 2 ^ 32 at hsmall
    change dtsLength _ + 2 < 2 ^ 32
    have hmore : dtsLength ins.back ≤ dtsLength (ins.dt :: ins.back) := by
      rw [← List.singleton_append, dtsLength_append]
      exact Nat.le_add_left _ _
    rw [dtsLength_append] at hsmall
    rw [without, dtsLength_append]
    lia

theorem transparent_iff_walks :
    ins.Transparent ↔ (walkDts ins.without).result.1 ≠ none ∧
      (walkDts ins.inserted).result = (walkDts ins.without).result := by
  have hwithout := ins.sequence_without.walksTo_iff
  have hinserted : forall beyond result, WalksTo ins.inserted beyond result ↔ _ :=
    ins.sequence.walksTo_iff
  simp only [Transparent, hwithout, hinserted]
  constructor
  · intro h
    rcases h (fun _ => 0) (fun _ => 0) with ⟨rv, dev, hplain, hlonger⟩
    refine ⟨?_, hlonger.trans hplain.symm⟩
    rw [hplain]
    exact Option.some_ne_none rv
  · intro h _ _
    rcases Option.ne_none_iff_exists'.mp h.1 with ⟨rv, hrv⟩
    exact ⟨rv, _, Prod.ext hrv rfl, h.2.trans (Prod.ext hrv rfl)⟩

theorem staysInArrays_iff :
    ins.StaysInArrays ↔ (walkDts ins.without).result.1 ≠ none := by
  have hends : forall beyond,
      (forall st,
        UusbParseReaches (dtsMemory ins.without beyond) (dtsLength ins.without) st ->
        Handles (dtsMemory ins.without beyond) (dtsLength ins.without) st ->
        ¬ SlotOutside (dtsMemory ins.without beyond) st) ↔
        (walkDts ins.without).result.1 ≠ none := by
    intro beyond
    rcases ins.sequence_without.parse beyond with ⟨fuel, value, hrun, hvalue⟩
    rw [slotsInside_iff hrun, ← hvalue, value.handled_result]
    cases value with
    | returned rv st =>
        exact iff_of_true (fun _ hbad => by cases hbad) (Option.some_ne_none rv)
    | outOfArray st =>
        exact iff_of_false (fun h => h st rfl) fun h => h rfl
  constructor
  · intro h
    exact (hends fun _ => 0).mp (h fun _ => 0)
  · intro h beyond
    exact (hends beyond).mpr h

/-- In the states at the place of the descriptor the walk has taken those in front
of it. -/
theorem taken_of_reaches {beyond : Nat -> UInt8} {st : UusbParse}
    (hst : UusbParseReaches (dtsMemory ins.without beyond) (dtsLength ins.without) st)
    (hpos : st.pos = dtsLength ins.front) :
    walkDts ins.front = .taken st.build ∧ st.build.Valid := by
  rcases ins.sequence_without.reached beyond hst with
    ⟨front, back, hsplit, hlength, htaken, _⟩
  have hfront : ins.front = front := front_unique hsplit (hpos.symm.trans hlength)
  have hcursors := (walkInv_reaches hst).cursors
  rw [hfront]
  refine ⟨htaken, hcursors.config, ?_⟩
  intro at_ hat
  have hvalid := hcursors.interface at_ hat
  exact ⟨hvalid.1, hvalid.2⟩

theorem walks_eq_iff :
    (walkDts ins.inserted).result = (walkDts ins.without).result ↔
      ins.HarmlessThere := by
  rw [inserted, without, walkDts_append ins.front_ne_nil,
    walkDts_append ins.front_ne_nil]
  cases hfront : walkDts ins.front with
  | taken b =>
      rcases ins.sequence_without.reaches (fun _ => 0) hfront with
        ⟨there, hreach, hbuild, hpos, _⟩
      have hvalid := (ins.taken_of_reaches hreach hpos).2
      rw [hbuild] at hvalid
      refine (harmless_iff hvalid ins.unlisted.other ins.back).trans ?_
      constructor
      · intro h beyond st hst hplace
        have htaken := (ins.taken_of_reaches hst hplace).1
        rw [hfront] at htaken
        injection htaken with hsame
        rw [← hsame]
        exact h
      · intro h
        rw [← hbuild]
        exact h _ there hreach hpos
  | refused dev =>
      refine iff_of_true rfl ?_
      intro beyond st hst hplace
      have htaken := (ins.taken_of_reaches hst hplace).1
      rw [hfront] at htaken
      cases htaken
  | outside dev =>
      refine iff_of_true rfl ?_
      intro beyond st hst hplace
      have htaken := (ins.taken_of_reaches hst hplace).1
      rw [hfront] at htaken
      cases htaken

/-- The descriptor is transparent exactly if the parse without it stays inside its
arrays, and it is harmless where it stands. -/
theorem transparent_iff :
    ins.Transparent ↔ ins.StaysInArrays ∧ ins.HarmlessThere := by
  rw [transparent_iff_walks, staysInArrays_iff, walks_eq_iff]

end

end Insertion

/-- A token with a CCID interface, and the companion descriptor of its endpoint. -/
def companionInserted : Insertion where
  front :=
    [{ dtType := 0x01
       body := [0x00, 0x03, 0x00, 0x00, 0x00, 0x09, 0x50, 0x10, 0x07, 0x04, 0x00, 0x01,
         0x00, 0x00, 0x00, 0x01]
       short := by decide },
     { dtType := 0x02
       body := [0x1f, 0x00, 0x01, 0x01, 0x00, 0x80, 0x0f]
       short := by decide },
     { dtType := 0x04
       body := [0x00, 0x00, 0x01, 0x0b, 0x00, 0x00, 0x00]
       short := by decide },
     { dtType := 0x05
       body := [0x81, 0x02, 0x00, 0x04, 0x00]
       short := by decide }]
  dt :=
    { dtType := 0x30
      body := [0x00, 0x00, 0x00, 0x00]
      short := by decide }
  back := []
  device := ⟨_, _, rfl, rfl⟩
  unlisted := ⟨by unfold IsOther; decide, by decide⟩
  sequence := ⟨by decide, by decide⟩

theorem not_transparent_companionInserted : ¬ companionInserted.Transparent := by
  rw [Insertion.transparent_iff_walks]
  intro h
  have hplain : (walkDts companionInserted.without).result.1 = some true := by decide
  have hlonger : (walkDts companionInserted.inserted).result.1 = some false := by decide
  rw [h.2, hplain] at hlonger
  cases hlonger

end Usb
end UtokenDecrypt
