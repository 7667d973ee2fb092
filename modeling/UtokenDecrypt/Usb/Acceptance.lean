import UtokenDecrypt.Usb.Chain

/-!
# What an accepted device sends

The loop of `uusb_parse_descriptors` goes on while more than two bytes are left,
so that up to two bytes behind the last descriptor it looks at are accepted
whatever they are, and so is data of no more than two bytes.  A length byte of
less than two is not noticed either.  What it does look at is in order.
-/

namespace UtokenDecrypt
namespace Usb

open Foundation

/-!
## Descriptors in order
-/

/-- The types end in an interface of the current configuration, or in what
belongs to one. -/
def InInterface (types : List UInt8) : Prop :=
  exists earlier between, types = earlier ++ usbDtInterface :: between ∧
    usbDtConfig ∉ between

/-- A descriptor of the type may stand behind descriptors of the types before
it. -/
structure DtInOrder (before : List UInt8) (dtType : UInt8) : Prop where
  device : dtType = usbDtDevice ↔ before = []
  interface : dtType = usbDtInterface -> usbDtConfig ∈ before
  endpoint : dtType = usbDtEndpoint -> InInterface before

def InOrder (before : List UInt8) (dts : List AnyDt) : Prop :=
  forall front dt back, dts = front ++ dt :: back ->
    DtInOrder (before ++ front.map AnyDt.dtType) dt.dtType

/-- The data is a sequence of descriptors in order, and nothing else. -/
def SplitsInOrder (data : List UInt8) : Prop :=
  exists dts, dts ≠ [] ∧ data = dts.flatMap AnyDt.bytes ∧ InOrder [] dts

def Accepts (data : List UInt8) (beyond : Nat -> UInt8) : Prop :=
  exists fuel st, uusbParseDescriptors (memoryOf data beyond) data.length fuel =
    some (.returned true st)

/-!
## Cutting data into descriptors
-/

/-- The descriptor at the start of the data. -/
def takeDt : List UInt8 -> Option (AnyDt × List UInt8)
  | dtLen :: dtType :: tail =>
      if h : 2 ≤ dtLen.toNat ∧ dtLen.toNat ≤ 2 + tail.length then
        some
          ({ dtType := dtType
             body := tail.take (dtLen.toNat - 2)
             short := by
               have hbyte := dtLen.toNat_lt
               rw [ShortBody, List.length_take]
               lia },
            tail.drop (dtLen.toNat - 2))
      else none
  | _ => none

/-- The descriptors at the start of the data, taken off as long as more than two
bytes are left, and what is left behind them. -/
def cutDts : Nat -> List UInt8 -> List AnyDt × List UInt8
  | 0, data => ([], data)
  | fuel + 1, data =>
      if data.length ≤ 2 then ([], data)
      else
        match takeDt data with
        | none => ([], data)
        | some (dt, tail) => (dt :: (cutDts fuel tail).1, (cutDts fuel tail).2)

/-- What is left behind the descriptors is nothing, or a descriptor of two bytes
that may stand there. -/
def CutsClean (data : List UInt8) : Prop :=
  ((cutDts data.length data).2 = [] ∧ (cutDts data.length data).1 ≠ []) ∨
    exists dtType, (cutDts data.length data).2 = [2, dtType] ∧
      DtInOrder ((cutDts data.length data).1.map AnyDt.dtType) dtType

theorem takeDt_bytes (dt : AnyDt) (tail : List UInt8) :
    takeDt (dt.bytes ++ tail) = some (dt, tail) := by
  have hshort := dt.short
  unfold ShortBody at hshort
  have hlen : (UInt8.ofNat (2 + dt.body.length)).toNat - 2 = dt.body.length := by
    rw [UInt8.toNat_ofNat', Nat.mod_eq_of_lt (by lia)]
    lia
  have hfits : 2 ≤ (UInt8.ofNat (2 + dt.body.length)).toNat ∧
      (UInt8.ofNat (2 + dt.body.length)).toNat ≤ 2 + (dt.body ++ tail).length := by
    rw [UInt8.toNat_ofNat', Nat.mod_eq_of_lt (by lia), List.length_append]
    lia
  change takeDt (UInt8.ofNat (2 + dt.body.length) :: dt.dtType :: (dt.body ++ tail)) = _
  rw [takeDt, dif_pos hfits]
  simp only [hlen, List.take_left, List.drop_left]

theorem takeDt_eq_some {data tail : List UInt8} {dt : AnyDt}
    (h : takeDt data = some (dt, tail)) : data = dt.bytes ++ tail := by
  unfold takeDt at h
  split at h
  · rename_i dtLen dtType bytes
    split at h
    · rename_i hfits
      cases h
      have hlen : 2 + (bytes.take (dtLen.toNat - 2)).length = dtLen.toNat := by
        rw [List.length_take]
        lia
      rw [AnyDt.bytes, dtBytes, hlen, UInt8.ofNat_toNat, List.cons_append,
        List.cons_append, List.take_append_drop]
    · cases h
  · cases h

theorem cutDts_eq (fuel : Nat) (data : List UInt8) :
    data = (cutDts fuel data).1.flatMap AnyDt.bytes ++ (cutDts fuel data).2 := by
  induction fuel generalizing data with
  | zero => rfl
  | succ fuel ih =>
      rw [cutDts]
      split
      · rfl
      · cases htake : takeDt data with
        | none => rfl
        | some taken =>
            rcases taken with ⟨dt, tail⟩
            simp only [List.flatMap_cons, List.append_assoc]
            rw [← ih tail]
            exact takeDt_eq_some htake

theorem cutDts_more (fuel : Nat) (data : List UInt8) {front back : List AnyDt}
    (hsplit : (cutDts fuel data).1 = front ++ back) (hback : back ≠ []) :
    2 < (back.flatMap AnyDt.bytes ++ (cutDts fuel data).2).length := by
  induction fuel generalizing data front with
  | zero =>
      have hempty := (List.append_eq_nil_iff.mp hsplit.symm).2
      exact absurd hempty hback
  | succ fuel ih =>
      rw [cutDts] at hsplit ⊢
      split at hsplit
      · exact absurd (List.append_eq_nil_iff.mp hsplit.symm).2 hback
      · rename_i hlong
        rw [if_neg hlong]
        cases htake : takeDt data with
        | none =>
            rw [htake] at hsplit
            exact absurd (List.append_eq_nil_iff.mp hsplit.symm).2 hback
        | some taken =>
            rcases taken with ⟨dt, tail⟩
            rw [htake] at hsplit
            simp only at hsplit ⊢
            cases front with
            | nil =>
                rw [List.nil_append] at hsplit
                rw [← hsplit, List.flatMap_cons, List.append_assoc, ← cutDts_eq,
                  ← takeDt_eq_some htake]
                exact Nat.not_le.mp hlong
            | cons first front =>
                rw [List.cons_append] at hsplit
                exact ih tail (List.cons.inj hsplit).2

/-- A sequence of descriptors is cut where its descriptors meet; the last one is
left if it has two bytes. -/
theorem cutDts_flatMap (dts : List AnyDt) {fuel : Nat}
    (hfuel : (dts.flatMap AnyDt.bytes).length ≤ fuel) :
    cutDts fuel (dts.flatMap AnyDt.bytes) = (dts, []) ∨
      exists front last, dts = front ++ [last] ∧ last.body = [] ∧
        cutDts fuel (dts.flatMap AnyDt.bytes) = (front, last.bytes) := by
  induction dts generalizing fuel with
  | nil =>
      refine Or.inl ?_
      cases fuel <;> rfl
  | cons dt rest ih =>
      have hlength := dt.bytes_length
      rw [List.flatMap_cons] at hfuel ⊢
      rw [List.length_append] at hfuel
      cases fuel with
      | zero => lia
      | succ fuel =>
          rw [cutDts, List.length_append]
          by_cases hlong : dt.bytes.length + (rest.flatMap AnyDt.bytes).length ≤ 2
          · have hnil : rest = [] := by
              cases rest with
              | nil => rfl
              | cons other more =>
                  have hother := other.bytes_length
                  rw [List.flatMap_cons, List.length_append] at hlong
                  lia
            refine Or.inr ⟨[], dt, by rw [hnil, List.nil_append],
              List.length_eq_zero_iff.mp (by lia), ?_⟩
            rw [if_pos hlong, hnil, List.flatMap_nil, List.append_nil]
          · rw [if_neg hlong, takeDt_bytes]
            simp only
            rcases ih (by lia : (rest.flatMap AnyDt.bytes).length ≤ fuel) with
              hclean | ⟨front, last, hrest, hempty, hcut⟩
            · exact Or.inl (by rw [hclean])
            · exact Or.inr ⟨dt :: front, last, by rw [hrest, List.cons_append], hempty,
                by rw [hcut]⟩

/-!
## What the walk has taken
-/

/-- What the walk has taken before it got to a state. -/
structure Context (before : List UInt8) (st : UusbParse) : Prop where
  pos : st.pos = 0 ↔ before = []
  config : st.config ≠ none -> usbDtConfig ∈ before
  interface : st.interface ≠ none -> InInterface before

theorem InInterface.append {types : List UInt8} (h : InInterface types)
    {dtType : UInt8} (htype : dtType ≠ usbDtConfig) :
    InInterface (types ++ [dtType]) := by
  rcases h with ⟨earlier, between, hsplit, hnone⟩
  refine ⟨earlier, between ++ [dtType], ?_, ?_⟩
  · rw [hsplit, List.append_assoc, List.cons_append]
  · rw [List.mem_append, List.mem_singleton, not_or]
    exact ⟨hnone, htype.symm⟩

section

variable {mem : Nat -> UInt8} {len : Nat} {st next : UusbParse} {dt : AnyDt}
  {dts : List AnyDt} {before rest : List UInt8}

theorem Context.first (h : Context before st) (hpos : st.pos = 0)
    (htaken : st.build.handleDevice dt = .taken next.build) (hnext : next.pos ≠ 0) :
    DtInOrder before dt.dtType ∧ Context (before ++ [dt.dtType]) next := by
  have hnil := h.pos.mp hpos
  have hconfig : st.config = none := by
    by_contra hsome
    have hmem := h.config hsome
    rw [hnil] at hmem
    cases hmem
  have hinterface : st.interface = none := by
    by_contra hsome
    rcases h.interface hsome with ⟨earlier, between, hsplit, _⟩
    rw [hnil] at hsplit
    exact absurd (List.append_eq_nil_iff.mp hsplit.symm).2 (List.cons_ne_nil _ _)
  unfold Build.handleDevice at htaken
  split at htaken
  · rename_i htype
    simp only at htaken
    split at htaken
    · split at htaken
      · cases htaken
      · injection htaken with hbuild
        have hconfigNext : next.config = none :=
          (congrArg Build.config hbuild).symm.trans hconfig
        have hinterfaceNext : next.interface = none :=
          (congrArg Build.interface hbuild).symm.trans hinterface
        rw [hnil, htype]
        constructor
        · exact ⟨by simp, fun hbad => absurd hbad (by decide),
            fun hbad => absurd hbad (by decide)⟩
        · exact ⟨by simp [hnext], fun hsome => absurd hconfigNext hsome,
            fun hsome => absurd hinterfaceNext hsome⟩
    · cases htaken
  · cases htaken

/-- A descriptor that is taken behind the first one may stand there. -/
theorem Context.behind (h : Context before st) (hpos : st.pos ≠ 0)
    (htaken : Takes st.build dt next.build) (hnext : next.pos ≠ 0) :
    DtInOrder before dt.dtType ∧ Context (before ++ [dt.dtType]) next := by
  have hne : before ≠ [] := fun hnil => hpos (h.pos.mpr hnil)
  have horder : dt.dtType ≠ usbDtDevice ->
      (dt.dtType = usbDtInterface -> usbDtConfig ∈ before) ->
      (dt.dtType = usbDtEndpoint -> InInterface before) ->
      DtInOrder before dt.dtType := by
    intro hdevice hinterface hendpoint
    exact ⟨⟨fun heq => absurd heq hdevice, fun hnil => absurd hnil hne⟩, hinterface,
      hendpoint⟩
  have hkept : dt.dtType ≠ usbDtConfig -> next.build.config = st.build.config ->
      next.build.interface = st.build.interface ->
      Context (before ++ [dt.dtType]) next := by
    intro htype hconfig hinterface
    change next.config = st.config at hconfig
    change next.interface = st.interface at hinterface
    refine ⟨by simp [hnext], ?_, ?_⟩
    · intro hsome
      rw [hconfig] at hsome
      exact List.mem_append_left _ (h.config hsome)
    · intro hsome
      rw [hinterface] at hsome
      exact (h.interface hsome).append htype
  generalize hbuild : next.build = b at htaken hkept
  cases htaken with
  | config htype cd =>
      rw [htype] at horder ⊢
      refine ⟨horder (by decide) (fun hbad => absurd hbad (by decide))
        (fun hbad => absurd hbad (by decide)), by simp [hnext], by simp, ?_⟩
      intro hsome
      exact absurd (congrArg Build.interface hbuild) hsome
  | @interface htype ci hci id =>
      have hconfig : usbDtConfig ∈ before := by
        apply h.config
        change st.config = some ci at hci
        rw [hci]
        exact Option.some_ne_none ci
      rw [htype] at horder ⊢
      refine ⟨horder (by decide) (fun _ => hconfig)
        (fun hbad => absurd hbad (by decide)), by simp [hnext],
        fun _ => List.mem_append_left _ hconfig, fun _ => ?_⟩
      exact ⟨before, [], rfl, by simp⟩
  | @endpoint htype at_ hat _ _ _ ed =>
      have hinside : InInterface before := by
        apply h.interface
        change st.interface = some at_ at hat
        rw [hat]
        exact Option.some_ne_none at_
      refine ⟨horder (by rw [htype]; decide) (fun hbad => ?_) (fun _ => hinside),
        hkept (by rw [htype]; decide) rfl rfl⟩
      rw [htype] at hbad
      exact absurd hbad (by decide)
  | passed htype _ =>
      exact ⟨horder htype.1 (fun hbad => absurd hbad htype.2.2.1)
        (fun hbad => absurd hbad htype.2.2.2), hkept htype.2.1 rfl rfl⟩
  | ccid htype _ _ _ =>
      exact ⟨horder htype.1 (fun hbad => absurd hbad htype.2.2.1)
        (fun hbad => absurd hbad htype.2.2.2), hkept htype.2.1 rfl rfl⟩

theorem Ahead.taken (h : Ahead mem len st (dt :: dts) rest) {fuel : Nat}
    {last : UusbParse}
    (hrun : Loop.run (uusbParseStep mem len) fuel st = some (.returned true last)) :
    exists b, (uusbParseCase mem st).handled = .taken b := by
  by_contra hnone
  have hended : forall b, (uusbParseCase mem st).handled ≠ .taken b :=
    fun b hb => hnone ⟨b, hb⟩
  rcases h.step_ended rfl hended with ⟨value, hstep, hvalue⟩
  cases fuel with
  | zero => cases hrun
  | succ fuel =>
      rw [Loop.run_finish hstep] at hrun
      cases hrun
      exact hended last.build hvalue.symm

theorem inOrder_of_accepted (hst : UusbParseReaches mem len st)
    (hahead : Ahead mem len st dts rest) (hcontext : Context before st) {fuel : Nat}
    {last : UusbParse}
    (hrun : Loop.run (uusbParseStep mem len) fuel st = some (.returned true last)) :
    InOrder before dts := by
  induction dts generalizing st before fuel with
  | nil =>
      intro front dt back hsplit
      exact absurd (List.append_eq_nil_iff.mp hsplit.symm).2 (List.cons_ne_nil _ _)
  | cons dt dts ih =>
      rcases hahead.taken hrun with ⟨b, htaken⟩
      rcases hahead.step_taken htaken with ⟨next, hstep, hbuild, hpos, hrest⟩
      have hnext : next.pos ≠ 0 := by
        have hlength := dt.bytes_length
        lia
      rw [← hbuild] at htaken
      have hfirst : DtInOrder before dt.dtType ∧ Context (before ++ [dt.dtType]) next := by
        by_cases hzero : st.pos = 0
        · rw [hahead.at.handled_device hzero] at htaken
          exact hcontext.first hzero htaken hnext
        · rw [hahead.at.handled hzero (walkInv_reaches hst).cursors] at htaken
          exact hcontext.behind hzero (takes_of_handle htaken) hnext
      cases fuel with
      | zero => cases hrun
      | succ fuel =>
          rw [Loop.run_again hstep] at hrun
          have hbehind := ih (hst.tail hstep) hrest hfirst.2 hrun
          intro front other back hsplit
          cases front with
          | nil =>
              rw [List.nil_append] at hsplit
              rw [← (List.cons.inj hsplit).1, List.map_nil, List.append_nil]
              exact hfirst.1
          | cons first front =>
              rw [List.cons_append] at hsplit
              have horder := hbehind front other back (List.cons.inj hsplit).2
              rw [← (List.cons.inj hsplit).1, List.map_cons, List.append_cons]
              exact horder

end

/-!
## Acceptance
-/

/-- The walk gets to a state in which the loop's condition fails. -/
def LoopEnds (data : List UInt8) (beyond : Nat -> UInt8) : Prop :=
  exists st, UusbParseReaches (memoryOf data beyond) data.length st ∧
    ¬ uusbParseGuard data.length st

theorem accepts_iff_loopEnds (data : List UInt8) (beyond : Nat -> UInt8) :
    Accepts data beyond ↔ LoopEnds data beyond := by
  constructor
  · intro h
    rcases h with ⟨fuel, last, hrun⟩
    rcases Loop.run_last hrun with ⟨st, hreach, hstep⟩
    refine ⟨st, hreach, ?_⟩
    intro hguard
    by_cases hlong : dtTooLong (memoryOf data beyond) data.length st
    · rw [uusbParseStep_of_tooLong hguard hlong] at hstep
      cases hstep
    · rw [uusbParseStep_of_handles ⟨hguard, hlong⟩] at hstep
      split at hstep
      · cases hstep
      · cases hstep
      · cases hstep
  · intro h
    rcases h with ⟨st, hreach, hend⟩
    rcases Loop.run_of_reaches hreach (uusbParseStep_of_end hend) with ⟨fuel, hrun⟩
    exact ⟨fuel, st, hrun⟩

/-- Data of 4 GiB is not accepted, as `pos + 2` is always less. -/
theorem Accepts.length_lt {data : List UInt8} {beyond : Nat -> UInt8}
    (h : Accepts data beyond) : data.length < 2 ^ 32 := by
  rcases (accepts_iff_loopEnds data beyond).mp h with ⟨st, _, hend⟩
  exact Nat.lt_of_le_of_lt (Nat.not_lt.mp hend) (wrap32_lt _)

theorem InOrder.append {before : List UInt8} {dts : List AnyDt}
    (h : InOrder before dts) (dt : AnyDt)
    (hdt : DtInOrder (before ++ dts.map AnyDt.dtType) dt.dtType) :
    InOrder before (dts ++ [dt]) := by
  intro front other back hsplit
  rcases List.eq_nil_or_concat back with hnil | ⟨inner, last, hback⟩
  · rw [hnil] at hsplit
    have hparts := List.append_inj_right' hsplit rfl
    rw [← (List.cons.inj hparts).1, ← List.append_inj_left' hsplit rfl]
    exact hdt
  · rw [hback, List.concat_eq_append, ← List.cons_append, ← List.append_assoc] at hsplit
    exact h front other inner (List.append_inj_left' hsplit rfl)

theorem SplitsInOrder.cutsClean {data : List UInt8} (h : SplitsInOrder data) :
    CutsClean data := by
  rcases h with ⟨dts, hne, rfl, horder⟩
  unfold CutsClean
  rcases cutDts_flatMap dts (Nat.le_refl _) with hclean | ⟨front, last, hdts, hempty, hcut⟩
  · rw [hclean]
    exact Or.inl ⟨rfl, hne⟩
  · rw [hcut]
    refine Or.inr ⟨last.dtType, ?_, horder front last [] hdts⟩
    rw [AnyDt.bytes, hempty]
    rfl

theorem Accepts.splitsInOrder {data : List UInt8} {beyond : Nat -> UInt8}
    (h : Accepts data beyond) (hclean : CutsClean data) : SplitsInOrder data := by
  have hdata := cutDts_eq data.length data
  have horder : InOrder [] (cutDts data.length data).1 := by
    have hsmall := h.length_lt
    rcases h with ⟨fuel, last, hrun⟩
    have hahead : Ahead (memoryOf data beyond) data.length {}
        (cutDts data.length data).1 (cutDts data.length data).2 := by
      refine ⟨Nat.zero_le _, ?_, fun _ _ => cutDts_more _ _, hsmall⟩
      rw [← hdata]
      exact bytesAt_memoryOf data beyond (Nat.zero_add _)
    exact inOrder_of_accepted Loop.Reaches.refl hahead ⟨by simp, by simp, by simp⟩ hrun
  rcases hclean with ⟨hrest, hne⟩ | ⟨dtType, hrest, htype⟩
  · refine ⟨_, hne, ?_, horder⟩
    rw [hrest, List.append_nil] at hdata
    exact hdata
  · have hlast := horder.append { dtType := dtType, body := [], short := by decide } htype
    refine ⟨_, by simp, ?_, hlast⟩
    rw [hrest] at hdata
    rw [List.flatMap_append]
    exact hdata

/-- The walk takes no slot outside an array, and what is accepted is in order. -/
structure AcceptsInOrder (data : List UInt8) (beyond : Nat -> UInt8) : Prop where
  inside : forall st, UusbParseReaches (memoryOf data beyond) data.length st ->
    Handles (memoryOf data beyond) data.length st ->
    ¬ SlotOutside (memoryOf data beyond) st
  inOrder : Accepts data beyond -> SplitsInOrder data

/-- No descriptor behind a chain overruns an array, and where a chain ends the data
is cut without a rest. -/
structure ChainsClean (data : List UInt8) (beyond : Nat -> UInt8) : Prop where
  inside : forall before p, Chain (memoryOf data beyond) data.length before p ->
    StartsAt (memoryOf data beyond) data.length p ->
    ¬ Overruns (memoryOf data beyond) before p
  clean : forall before p, Chain (memoryOf data beyond) data.length before p ->
    ¬ MoreLeft data.length p -> CutsClean data

theorem loopEnds_iff_chain (data : List UInt8) (beyond : Nat -> UInt8) :
    LoopEnds data beyond ↔ exists before p,
      Chain (memoryOf data beyond) data.length before p ∧ ¬ MoreLeft data.length p := by
  constructor
  · rintro ⟨st, hst, hend⟩
    rcases chain_of_reaches hst with ⟨before, hchain, _⟩
    exact ⟨before, st.pos, hchain, hend⟩
  · rintro ⟨before, p, hchain, hend⟩
    rcases reaches_of_chain hchain with ⟨st, hst, rfl, _⟩
    exact ⟨st, hst, hend⟩

theorem inside_iff_chain {mem : Nat -> UInt8} {len : Nat} :
    (forall st, UusbParseReaches mem len st -> Handles mem len st ->
        ¬ SlotOutside mem st) ↔
      forall before p, Chain mem len before p -> StartsAt mem len p ->
        ¬ Overruns mem before p := by
  constructor
  · intro h before p hchain hstarts hoverruns
    rcases reaches_of_chain hchain with ⟨st, hst, rfl, hstands⟩
    exact h st hst ⟨hstarts.1, Nat.not_lt.mpr hstarts.2⟩
      ((slotOutside_iff hstands (walkInv_reaches hst)).mpr hoverruns)
  · intro h st hst hhandles hslot
    rcases chain_of_reaches hst with ⟨before, hchain, hstands⟩
    exact h before st.pos hchain ⟨hhandles.1, Nat.not_lt.mp hhandles.2⟩
      ((slotOutside_iff hstands (walkInv_reaches hst)).mp hslot)

/-- Acceptance is sound exactly on the data whose chains overrun no array, and end
where nothing is left that is not a descriptor in order. -/
theorem accepts_sound_iff (data : List UInt8) (beyond : Nat -> UInt8) :
    AcceptsInOrder data beyond ↔ ChainsClean data beyond := by
  constructor
  · intro h
    refine ⟨inside_iff_chain.mp h.inside, fun before p hchain hend => ?_⟩
    have haccepts := (accepts_iff_loopEnds data beyond).mpr
      ((loopEnds_iff_chain data beyond).mpr ⟨before, p, hchain, hend⟩)
    exact (h.inOrder haccepts).cutsClean
  · intro h
    refine ⟨inside_iff_chain.mpr h.inside, fun haccepts => ?_⟩
    rcases (loopEnds_iff_chain data beyond).mp
      ((accepts_iff_loopEnds data beyond).mp haccepts) with ⟨before, p, hchain, hend⟩
    exact haccepts.splitsInOrder (h.clean before p hchain hend)

def truncatedDescriptors : List UInt8 :=
  [0x12, 0x01, 0x00, 0x02, 0x00, 0x00, 0x00, 0x40, 0x50, 0x10, 0x07, 0x04, 0x00,
    0x01, 0x00, 0x00, 0x00, 0x01, 0x09]

theorem not_splitsInOrder_truncated :
    Accepts truncatedDescriptors (fun _ => 0) ∧
      ¬ SplitsInOrder truncatedDescriptors := by
  constructor
  · have hvalue : ((uusbParseDescriptors (memoryOf truncatedDescriptors fun _ => 0)
        truncatedDescriptors.length 2).map fun value => value.result.1) =
          some (some true) := by decide
    cases hrun : uusbParseDescriptors (memoryOf truncatedDescriptors fun _ => 0)
        truncatedDescriptors.length 2 with
    | none =>
        rw [hrun] at hvalue
        cases hvalue
    | some value =>
        rw [hrun] at hvalue
        cases value with
        | returned okay st =>
            injection hvalue with hvalue
            injection hvalue with hvalue
            rw [hvalue] at hrun
            exact ⟨2, st, hrun⟩
        | outOfArray st => cases hvalue
  · intro h
    have hrest : (cutDts truncatedDescriptors.length truncatedDescriptors).2 =
        [0x09] := by decide
    have hclean := h.cutsClean
    rw [CutsClean, hrest] at hclean
    rcases hclean with ⟨hnil, _⟩ | ⟨dtType, htwo, _⟩
    · cases hnil
    · cases htwo

end Usb
end UtokenDecrypt
