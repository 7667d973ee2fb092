import UtokenDecrypt.Foundation.Search
import UtokenDecrypt.Usb.Transport

/-!
# Which interface is selected

`uusb_dev_select_ccid_interface` is a search through the interfaces of the
device, configuration by configuration.  Trying an interface sets the endpoints
and may make ioctls, also when it ends without success.  The ioctls are seen
through a device that keeps a record of them.
-/

namespace UtokenDecrypt

open Foundation
open Usb

/-!
## Devices with a record
-/

inductive SelectIoctl where
  | setConfiguration (value : UInt8)
  | claimInterface (number : UInt8)
deriving DecidableEq

/-- A device, with the ioctls that were made to select an interface and whether
they succeeded. -/
structure Recorded (σ : Type) where
  usb : σ
  ioctls : List (SelectIoctl × Bool) := []

section

variable {σ : Type}

def Recorded.forward {α : Type} (request : σ -> α × σ) (r : Recorded σ) :
    α × Recorded σ :=
  ((request r.usb).1, { r with usb := (request r.usb).2 })

def Recorded.select (ioctl : SelectIoctl) (request : σ -> Bool × σ) (r : Recorded σ) :
    Bool × Recorded σ :=
  ((request r.usb).1,
    { usb := (request r.usb).2, ioctls := r.ioctls ++ [(ioctl, (request r.usb).1)] })

instance [Usbfs σ] : Usbfs (Recorded σ) where
  bulkOut r ep data := r.forward fun usb => Usbfs.bulkOut usb ep data
  bulkIn r ep room := r.forward fun usb => Usbfs.bulkIn usb ep room
  setConfiguration r value :=
    r.select (.setConfiguration value) fun usb => Usbfs.setConfiguration usb value
  claimInterface r number :=
    r.select (.claimInterface number) fun usb => Usbfs.claimInterface usb number
  bulkIn_le := Usbfs.bulkIn_le

/-- The state without the record. -/
def Host.forget (s : Host (Recorded σ)) : Host σ :=
  { usb := s.usb.usb, dev := s.dev, reader := s.reader, optDebug := s.optDebug,
    log := s.log, dumps := s.dumps }

/-- The state with an empty record. -/
def Host.recorded (s : Host σ) : Host (Recorded σ) :=
  { usb := { usb := s.usb }, dev := s.dev, reader := s.reader, optDebug := s.optDebug,
    log := s.log, dumps := s.dumps }

theorem Host.forget_recorded (s : Host σ) : s.recorded.forget = s := rfl

end

/-!
## Selecting an interface
-/

/-- An interface together with the configuration it belongs to. -/
structure Candidate where
  config : UusbConfig
  interface : UusbInterface

/-- The interfaces in the order of the search. -/
def configCandidates (config : UusbConfig) : List Candidate :=
  config.interface.map fun interface => { config := config, interface := interface }

def deviceCandidates (dev : UusbDev) : List Candidate :=
  dev.config.flatMap configCandidates

def IsBulkIn (ep : UusbEndpoint) : Bool :=
  ep.descriptor.bmAttributes &&& uusbEndpointTypeMask == uusbEndpointTypeBulk &&
    ep.descriptor.bEndpointAddress &&& uusbEndpointDirMask == uusbEndpointIn

def IsBulkOut (ep : UusbEndpoint) : Bool :=
  ep.descriptor.bmAttributes &&& uusbEndpointTypeMask == uusbEndpointTypeBulk &&
    ep.descriptor.bEndpointAddress &&& uusbEndpointDirMask != uusbEndpointIn

def IsInterruptIn (ep : UusbEndpoint) : Bool :=
  ep.descriptor.bmAttributes &&& uusbEndpointTypeMask == uusbEndpointTypeInterrupt &&
    ep.descriptor.bEndpointAddress &&& uusbEndpointDirMask == uusbEndpointIn

/-- The address of the last endpoint of a kind, and -1 if there is none. -/
def lastAddress (kind : UusbEndpoint -> Bool) (endpoints : List UusbEndpoint) : Int :=
  (endpoints.filter kind).getLast?.elim (-1) fun ep => ep.descriptor.bEndpointAddress.toNat

/-- The interface has a bulk endpoint in either direction. -/
def HasPipes (interface : UusbInterface) : Prop :=
  (exists ep, ep ∈ interface.endpoint ∧ IsBulkIn ep = true) ∧
    exists ep, ep ∈ interface.endpoint ∧ IsBulkOut ep = true

/-- The ioctls that select an interface of a device. -/
def selectIoctls (dev : UusbDev) (candidate : Candidate) : List SelectIoctl :=
  (if 1 < dev.descriptor.bNumConfigurations then
    [.setConfiguration candidate.config.descriptor.bConfigurationValue] else []) ++
  (if candidate.interface.descriptor.bInterfaceNumber ≠ 0 then
    [.claimInterface candidate.interface.descriptor.bInterfaceNumber] else [])

/-- The record of ioctls that are made in order, up to the first that fails. -/
inductive Made : List SelectIoctl -> List (SelectIoctl × Bool) -> Bool -> Prop where
  | all : Made [] [] true
  | next {ioctl : SelectIoctl} {rest : List SelectIoctl}
      {record : List (SelectIoctl × Bool)} {rv : Bool} (h : Made rest record rv) :
      Made (ioctl :: rest) ((ioctl, true) :: record) rv
  | failed (ioctl : SelectIoctl) (rest : List SelectIoctl) :
      Made (ioctl :: rest) [(ioctl, false)] false

/-- Why a candidate is not taken, and the ioctls that were made for it. -/
inductive PassedOver (dev : UusbDev) (candidate : Candidate) :
    List (SelectIoctl × Bool) -> Prop where
  | noRecord (h : candidate.interface.ccid = none) : PassedOver dev candidate []
  | noPipes (h : ¬ HasPipes candidate.interface) : PassedOver dev candidate []
  | refused {record : List (SelectIoctl × Bool)}
      (h : Made (selectIoctls dev candidate) record false) :
      PassedOver dev candidate record

/-- The interfaces that were claimed, and the configurations that were set. -/
def claimed (record : List (SelectIoctl × Bool)) : List UInt8 :=
  record.filterMap fun
    | (.claimInterface number, true) => some number
    | _ => none

def configured (record : List (SelectIoctl × Bool)) : List UInt8 :=
  record.filterMap fun
    | (.setConfiguration value, true) => some value
    | _ => none

/-- The candidate is the first that can be selected, and it is selected. -/
structure Selected (dev : UusbDev) (candidate : Candidate) (ccid : CcidDescriptor)
    (after : UusbDev) (record : List (SelectIoctl × Bool)) : Prop where
  ccid_eq : candidate.interface.ccid = some ccid
  pipes : HasPipes candidate.interface
  first : exists front back records, deviceCandidates dev = front ++ candidate :: back ∧
    List.Forall₂ (PassedOver dev) front records ∧
    record = records.flatten ++ (selectIoctls dev candidate).map fun ioctl => (ioctl, true)
  epI : after.endpoints.epI = lastAddress IsBulkIn candidate.interface.endpoint
  epO : after.endpoints.epO = lastAddress IsBulkOut candidate.interface.endpoint
  epIntr : after.endpoints.epIntr = lastAddress IsInterruptIn candidate.interface.endpoint
  configured_last : 1 < dev.descriptor.bNumConfigurations ->
    (configured record).getLast? = some candidate.config.descriptor.bConfigurationValue
  claimed_only : claimed record =
    if candidate.interface.descriptor.bInterfaceNumber ≠ 0 then
      [candidate.interface.descriptor.bInterfaceNumber] else []

/-- No candidate can be selected, and none is claimed. -/
structure NoneSelected (dev : UusbDev) (record : List (SelectIoctl × Bool)) : Prop where
  all : exists records, List.Forall₂ (PassedOver dev) (deviceCandidates dev) records ∧
    record = records.flatten
  claimed_none : claimed record = []

/-- What a call of `uusb_dev_select_ccid_interface` leads to. -/
def Selects (dev : UusbDev) (found : Option CcidDescriptor) (after : UusbDev)
    (record : List (SelectIoctl × Bool)) : Prop :=
  after = { dev with endpoints := after.endpoints } ∧
    found.elim (NoneSelected dev record) fun ccid =>
      exists candidate, Selected dev candidate ccid after record

/-!
## The ioctls of a candidate
-/

theorem Made.of_true {ioctls : List SelectIoctl} {record : List (SelectIoctl × Bool)}
    {rv : Bool} (h : Made ioctls record rv) (hrv : rv = true) :
    record = ioctls.map fun ioctl => (ioctl, true) := by
  induction h with
  | all => rfl
  | next _ ih => rw [ih hrv, List.map_cons]
  | failed => cases hrv

theorem Made.append {front back : List SelectIoctl}
    {first second : List (SelectIoctl × Bool)} {rv : Bool} (h : Made front first true)
    (hback : Made back second rv) : Made (front ++ back) (first ++ second) rv := by
  rw [h.of_true rfl]
  clear h
  induction front with
  | nil => exact hback
  | cons ioctl rest ih => exact .next ih

theorem Made.append_failed {front : List SelectIoctl} {record : List (SelectIoctl × Bool)}
    {rv : Bool} (h : Made front record rv) (hrv : rv = false) (back : List SelectIoctl) :
    Made (front ++ back) record rv := by
  induction h with
  | all => cases hrv
  | next _ ih => exact .next (ih hrv)
  | failed ioctl rest => exact .failed ioctl (rest ++ back)

theorem claimed_append (front back : List (SelectIoctl × Bool)) :
    claimed (front ++ back) = claimed front ++ claimed back :=
  List.filterMap_append

theorem configured_append (front back : List (SelectIoctl × Bool)) :
    configured (front ++ back) = configured front ++ configured back :=
  List.filterMap_append

/-- The claim is the last of the ioctls, so that nothing fails behind it. -/
theorem PassedOver.claimed_eq {dev : UusbDev} {candidate : Candidate}
    {record : List (SelectIoctl × Bool)} (h : PassedOver dev candidate record) :
    claimed record = [] := by
  cases h with
  | noRecord h => rfl
  | noPipes h => rfl
  | refused h =>
      unfold selectIoctls at h
      split_ifs at h
      · cases h with
        | next h =>
            cases h with
            | next h => cases h
            | failed => rfl
        | failed => rfl
      · cases h with
        | next h => cases h
        | failed => rfl
      · cases h with
        | next h => cases h
        | failed => rfl
      · cases h

theorem claimed_flatten {dev : UusbDev} {candidates : List Candidate}
    {records : List (List (SelectIoctl × Bool))}
    (h : List.Forall₂ (PassedOver dev) candidates records) :
    claimed records.flatten = [] := by
  induction h with
  | nil => rfl
  | cons hfirst _ ih =>
      rw [List.flatten_cons, claimed_append, hfirst.claimed_eq, ih, List.append_nil]

theorem claimed_selectIoctls (dev : UusbDev) (candidate : Candidate) :
    claimed ((selectIoctls dev candidate).map fun ioctl => (ioctl, true)) =
      if candidate.interface.descriptor.bInterfaceNumber ≠ 0 then
        [candidate.interface.descriptor.bInterfaceNumber] else [] := by
  unfold selectIoctls
  split_ifs <;> rfl

theorem configured_selectIoctls {dev : UusbDev} (candidate : Candidate)
    (h : 1 < dev.descriptor.bNumConfigurations) :
    configured ((selectIoctls dev candidate).map fun ioctl => (ioctl, true)) =
      [candidate.config.descriptor.bConfigurationValue] := by
  unfold selectIoctls
  rw [if_pos h]
  split_ifs <;> rfl

/-!
## The endpoints of a candidate
-/

theorem lastAddress_concat (kind : UusbEndpoint -> Bool) (front : List UusbEndpoint)
    (ep : UusbEndpoint) : lastAddress kind (front ++ [ep]) =
      if kind ep then (ep.descriptor.bEndpointAddress.toNat : Int)
      else lastAddress kind front := by
  unfold lastAddress
  rw [List.filter_append]
  split_ifs with hkind
  · rw [List.filter_cons_of_pos hkind, List.filter_nil, List.getLast?_concat]
    rfl
  · rw [List.filter_cons_of_neg hkind, List.filter_nil, List.append_nil]

/-- The endpoints `uusb_set_endpoints` stores. -/
def pipesOf (endpoints : List UusbEndpoint) : UusbEndpoints where
  epO := lastAddress IsBulkOut endpoints
  epI := lastAddress IsBulkIn endpoints
  epIntr := lastAddress IsInterruptIn endpoints

theorem uusbSetEndpoint_pipesOf (front : List UusbEndpoint) (ep : UusbEndpoint) :
    uusbSetEndpoint (pipesOf front) ep = pipesOf (front ++ [ep]) := by
  unfold pipesOf uusbSetEndpoint
  rw [lastAddress_concat, lastAddress_concat, lastAddress_concat]
  have hinterrupt : uusbEndpointTypeInterrupt ≠ uusbEndpointTypeBulk := by decide
  by_cases hbulk : ep.descriptor.bmAttributes &&& uusbEndpointTypeMask =
      uusbEndpointTypeBulk
  · by_cases hin : ep.descriptor.bEndpointAddress &&& uusbEndpointDirMask = uusbEndpointIn
    · simp [IsBulkIn, IsBulkOut, IsInterruptIn, hbulk, hin, hinterrupt.symm]
    · simp [IsBulkIn, IsBulkOut, IsInterruptIn, hbulk, hin, hinterrupt.symm]
  · by_cases hintr : ep.descriptor.bmAttributes &&& uusbEndpointTypeMask =
        uusbEndpointTypeInterrupt ∧
        ep.descriptor.bEndpointAddress &&& uusbEndpointDirMask = uusbEndpointIn
    · simp [IsBulkIn, IsBulkOut, IsInterruptIn, hintr, hinterrupt]
    · simp [IsBulkIn, IsBulkOut, IsInterruptIn, hbulk, hintr]

theorem foldl_uusbSetEndpoint (front rest : List UusbEndpoint) :
    rest.foldl uusbSetEndpoint (pipesOf front) = pipesOf (front ++ rest) := by
  induction rest generalizing front with
  | nil => rw [List.foldl_nil, List.append_nil]
  | cons ep rest ih =>
      rw [List.foldl_cons, uusbSetEndpoint_pipesOf, ih, List.append_assoc,
        List.singleton_append]

theorem lastAddress_nonneg_iff (kind : UusbEndpoint -> Bool)
    (endpoints : List UusbEndpoint) : 0 ≤ lastAddress kind endpoints ↔
      exists ep, ep ∈ endpoints ∧ kind ep = true := by
  unfold lastAddress
  cases hlast : (endpoints.filter kind).getLast? with
  | none =>
      rw [List.getLast?_eq_none_iff, List.filter_eq_nil_iff] at hlast
      refine iff_of_false (by decide) ?_
      rintro ⟨ep, hmem, hkind⟩
      exact hlast ep hmem hkind
  | some ep =>
      have hmem := List.mem_filter.mp (List.mem_of_getLast? hlast)
      exact iff_of_true (Int.natCast_nonneg _) ⟨ep, hmem.1, hmem.2⟩

/-!
## One attempt
-/

section

variable {σ : Type} [Usbfs σ]

/-- The body of the inner loop. -/
def tryCandidate (candidate : Candidate) : Process (Host σ) (Option CcidDescriptor) :=
  candidate.interface.ccid.elim (pure none) fun ccid => do
    let selected ← uusbTryInterface candidate.config candidate.interface
    if selected then pure (some ccid) else pure none

theorem uusbConfigSelect_firstOf (config : UusbConfig) (interfaces : List UusbInterface) :
    uusbConfigSelectCcidInterface (σ := σ) config interfaces =
      Process.firstOf tryCandidate (interfaces.map fun interface =>
        { config := config, interface := interface }) := by
  induction interfaces with
  | nil => rfl
  | cons interface rest ih =>
      rw [uusbConfigSelectCcidInterface, List.map_cons, Process.firstOf_cons, ← ih]
      funext s
      rw [Process.orElse_apply, tryCandidate]
      cases interface.ccid with
      | none => rfl
      | some ccid =>
          dsimp only [Option.elim]
          rw [Process.bind_apply, Process.bind_apply]
          rcases uusbTryInterface config interface s with ⟨outcome, t⟩
          cases outcome with
          | done selected => cases selected <;> rfl
          | crash => rfl
          | hang => rfl

theorem uusbConfigsSelect_firstOf (configs : List UusbConfig) :
    uusbConfigsSelectCcidInterface (σ := σ) configs =
      Process.firstOf tryCandidate (configs.flatMap configCandidates) := by
  rw [Process.firstOf_flatMap]
  induction configs with
  | nil => rfl
  | cons config rest ih =>
      rw [uusbConfigsSelectCcidInterface, Process.firstOf_cons, ← ih,
        uusbConfigSelect_firstOf]
      exact Process.bind_eq_orElse (fun _ => rfl) rfl

/-- The two loops are one search through the interfaces. -/
theorem uusbDevSelect_apply (s : Host σ) :
    uusbDevSelectCcidInterface s =
      Process.firstOf tryCandidate (deviceCandidates s.dev) s := by
  rw [uusbDevSelectCcidInterface, Process.bind_done (Process.read_apply s),
    uusbConfigsSelect_firstOf]
  rfl

/-!
## The record changes nothing
-/

omit [Usbfs σ] in
theorem forgetsTo_usbIoctl (needed : Bool) {request : Recorded σ -> Bool × Recorded σ}
    {bare : σ -> Bool × σ} (h : forall r, bare r.usb = ((request r).1, (request r).2.usb)) :
    Process.ForgetsTo Host.forget (usbIoctl needed request) (usbIoctl needed bare) := by
  intro s
  unfold usbIoctl
  split
  · have husb : bare s.forget.usb = _ := h s.usb
    rw [husb]
    rfl
  · rfl

theorem forgetsTo_uusbTryInterface (config : UusbConfig) (interface : UusbInterface) :
    Process.ForgetsTo Host.forget
      (uusbTryInterface (σ := Recorded σ) config interface)
      (uusbTryInterface config interface) := by
  have hset : Process.ForgetsTo Host.forget (uusbSetEndpoints (σ := Recorded σ) interface)
      (uusbSetEndpoints interface) := fun _ => rfl
  refine hset.bind ?_
  intro found
  split
  · refine .read_bind ?_
    intro s
    refine (forgetsTo_usbIoctl _ fun _ => rfl).bind ?_
    intro configured
    split
    · exact forgetsTo_usbIoctl _ fun _ => rfl
    · exact .pure false
  · exact .pure false

theorem forgetsTo_tryCandidate (candidate : Candidate) :
    Process.ForgetsTo Host.forget (tryCandidate (σ := Recorded σ) candidate)
      (tryCandidate candidate) := by
  unfold tryCandidate
  cases candidate.interface.ccid with
  | none => exact .pure none
  | some ccid =>
      refine (forgetsTo_uusbTryInterface _ _).bind ?_
      intro selected
      split
      · exact .pure _
      · exact .pure none

theorem uusbDevSelect_forgets :
    Process.ForgetsTo Host.forget (uusbDevSelectCcidInterface (σ := Recorded σ))
      uusbDevSelectCcidInterface := by
  intro s
  rw [uusbDevSelect_apply, uusbDevSelect_apply]
  exact Process.ForgetsTo.firstOf forgetsTo_tryCandidate _ s

/-!
## What an attempt does
-/

omit [Usbfs σ] in
theorem uusbSetEndpoints_apply (interface : UusbInterface) (s : Host σ) :
    exists found, (found = true ↔ HasPipes interface) ∧
      uusbSetEndpoints interface s = (.done found,
        { s with dev := { s.dev with endpoints := pipesOf interface.endpoint } }) := by
  have hfold : interface.endpoint.foldl uusbSetEndpoint { epO := -1, epI := -1, epIntr := -1 } =
      pipesOf interface.endpoint := foldl_uusbSetEndpoint [] interface.endpoint
  refine ⟨decide (0 ≤ (pipesOf interface.endpoint).epO ∧ 0 ≤ (pipesOf interface.endpoint).epI),
    ?_, ?_⟩
  · rw [decide_eq_true_iff]
    exact (and_congr (lastAddress_nonneg_iff IsBulkOut _)
      (lastAddress_nonneg_iff IsBulkIn _)).trans And.comm
  · rw [uusbSetEndpoints, hfold]

omit [Usbfs σ] in
theorem usbIoctl_made (needed : Bool) (ioctl : SelectIoctl)
    (request : Recorded σ -> Bool × Recorded σ)
    (h : forall r, (request r).2.ioctls = r.ioctls ++ [(ioctl, (request r).1)])
    (s : Host (Recorded σ)) : exists rv t record,
      usbIoctl needed request s = (.done rv, t) ∧ t.dev = s.dev ∧
      t.usb.ioctls = s.usb.ioctls ++ record ∧
      Made (if needed then [ioctl] else []) record rv := by
  unfold usbIoctl
  cases needed with
  | false => exact ⟨true, s, [], rfl, rfl, (List.append_nil _).symm, .all⟩
  | true =>
      refine ⟨_, _, [(ioctl, (request s.usb).1)], rfl, rfl, h s.usb, ?_⟩
      change Made [ioctl] [(ioctl, (request s.usb).1)] (request s.usb).1
      cases (request s.usb).1 with
      | true => exact .next .all
      | false => exact .failed ioctl []

theorem uusbSelectInterface_made (candidate : Candidate) (s : Host (Recorded σ)) :
    exists rv t record,
      uusbSelectInterface candidate.config candidate.interface s = (.done rv, t) ∧
      t.dev = s.dev ∧ t.usb.ioctls = s.usb.ioctls ++ record ∧
      Made (selectIoctls s.dev candidate) record rv := by
  rw [uusbSelectInterface, Process.bind_done (Process.read_apply s)]
  rcases usbIoctl_made (decide (1 < s.dev.descriptor.bNumConfigurations))
    (.setConfiguration candidate.config.descriptor.bConfigurationValue)
    (fun usb => Usbfs.setConfiguration usb candidate.config.descriptor.bConfigurationValue)
    (fun _ => rfl) s with ⟨set, t, first, hset, hdev, hioctls, hmade⟩
  unfold selectIoctls
  simp only [decide_eq_true_eq] at hmade
  rw [Process.bind_done hset]
  cases set with
  | false =>
      exact ⟨false, t, first, rfl, hdev, hioctls, hmade.append_failed rfl _⟩
  | true =>
      rcases usbIoctl_made (candidate.interface.descriptor.bInterfaceNumber != 0)
        (.claimInterface candidate.interface.descriptor.bInterfaceNumber)
        (fun usb => Usbfs.claimInterface usb candidate.interface.descriptor.bInterfaceNumber)
        (fun _ => rfl) t with ⟨rv, u, second, hclaim, hdev', hioctls', hmade'⟩
      simp only [bne_iff_ne] at hmade'
      refine ⟨rv, u, first ++ second, hclaim, hdev'.trans hdev, ?_, hmade.append hmade'⟩
      rw [hioctls', hioctls, List.append_assoc]

/-- The device as it was, but for the endpoints. -/
def SameTree (dev : UusbDev) (s : Host (Recorded σ)) : Prop :=
  s.dev = { dev with endpoints := s.dev.endpoints }

/-- What an attempt leads to. -/
def Tries (dev : UusbDev) (candidate : Candidate) (got : Option CcidDescriptor)
    (after : UusbDev) (record : List (SelectIoctl × Bool)) : Prop :=
  got.elim (PassedOver dev candidate record) fun ccid =>
    candidate.interface.ccid = some ccid ∧ HasPipes candidate.interface ∧
      after.endpoints = pipesOf candidate.interface.endpoint ∧
      Made (selectIoctls dev candidate) record true

theorem tryCandidate_tries {dev : UusbDev} {s : Host (Recorded σ)} (h : SameTree dev s)
    (candidate : Candidate) : exists got t record,
      tryCandidate candidate s = (.done got, t) ∧ SameTree dev t ∧
      t.usb.ioctls = s.usb.ioctls ++ record ∧ Tries dev candidate got t.dev record := by
  have hnothing := (List.append_nil s.usb.ioctls).symm
  rw [tryCandidate]
  cases hccid : candidate.interface.ccid with
  | none => exact ⟨none, s, [], rfl, h, hnothing, .noRecord hccid⟩
  | some ccid =>
      rcases uusbSetEndpoints_apply candidate.interface s with ⟨found, hfound, hset⟩
      have hpipes : SameTree dev { s with
          dev := { s.dev with endpoints := pipesOf candidate.interface.endpoint } } := by
        unfold SameTree at h ⊢
        rw [h]
      dsimp only [Option.elim]
      cases found with
      | false =>
          have hnot : ¬ HasPipes candidate.interface := by
            intro hp
            cases hfound.mpr hp
          have htry : uusbTryInterface candidate.config candidate.interface s =
              (.done false, _) := Process.bind_done hset
          exact ⟨none, _, [], Process.bind_done htry, hpipes, hnothing, .noPipes hnot⟩
      | true =>
          rcases uusbSelectInterface_made candidate { s with
            dev := { s.dev with endpoints := pipesOf candidate.interface.endpoint } } with
            ⟨rv, t, record, hselect, hdev, hioctls, hmade⟩
          have htry : uusbTryInterface candidate.config candidate.interface s =
              (.done rv, t) := (Process.bind_done hset).trans hselect
          have ht : SameTree dev t := by
            unfold SameTree at hpipes ⊢
            rw [hdev]
            exact hpipes
          have hsame : selectIoctls { s.dev with
              endpoints := pipesOf candidate.interface.endpoint } candidate =
              selectIoctls dev candidate := by
            rw [h]
            rfl
          rw [hsame] at hmade
          cases rv with
          | false => exact ⟨none, t, record, Process.bind_done htry, ht, hioctls, .refused hmade⟩
          | true =>
              refine ⟨some ccid, t, record, Process.bind_done htry, ht, hioctls, hccid,
                hfound.mp rfl, ?_, hmade⟩
              rw [hdev]

/-!
## The selection
-/

/-- The selection, with the ioctls it made. -/
theorem uusbDevSelectCcidInterface_selects (s : Host σ) :
    exists found t,
      uusbDevSelectCcidInterface s.recorded = (.done found, t) ∧
      uusbDevSelectCcidInterface s = (.done found, t.forget) ∧
      Selects s.dev found t.dev t.usb.ioctls := by
  have hreturns : forall candidate (u : Host (Recorded σ)), exists got t,
      tryCandidate candidate u = (.done got, t) := by
    intro candidate u
    have hself : SameTree u.dev u := rfl
    rcases tryCandidate_tries hself candidate with ⟨got, t, _, hrun, _⟩
    exact ⟨got, t, hrun⟩
  have hpassed : forall candidate (u t : Host (Recorded σ)), SameTree s.dev u ->
      tryCandidate candidate u = (.done none, t) -> SameTree s.dev t ∧
      exists part, t.usb.ioctls = u.usb.ioctls ++ part ∧ PassedOver s.dev candidate part := by
    intro candidate u t hu hrun
    rcases tryCandidate_tries hu candidate with ⟨got, v, record, hgot, hv, hioctls, htries⟩
    rw [hrun] at hgot
    cases hgot
    exact ⟨hv, record, hioctls, htries⟩
  rcases Process.firstOf_searched hreturns (deviceCandidates s.dev) s.recorded with
    ⟨found, t, hrun, hsearched⟩
  have hselect := (uusbDevSelect_apply s.recorded).trans hrun
  refine ⟨found, t, hselect, ?_, ?_⟩
  · have hforget := uusbDevSelect_forgets s.recorded
    rw [hselect, Host.forget_recorded] at hforget
    exact hforget
  · cases hsearched with
    | exhausted hall =>
        rcases hall.adds hpassed rfl with ⟨ht, records, hioctls, hrecords⟩
        have hrecord : t.usb.ioctls = records.flatten := hioctls
        refine ⟨ht, ⟨records, hrecords, hrecord⟩, ?_⟩
        rw [hrecord, claimed_flatten hrecords]
    | @found front back candidate mid _ ccid hsplit hfront hcandidate =>
        rcases hfront.adds hpassed rfl with ⟨hmid, records, hioctls, hrecords⟩
        rcases tryCandidate_tries hmid candidate with
          ⟨got, u, record, hgot, hu, hrest, htries⟩
        rw [hcandidate] at hgot
        cases hgot
        rcases htries with ⟨hccid, hpipes, hendpoints, hmade⟩
        have hrecord : t.usb.ioctls = records.flatten ++
            (selectIoctls s.dev candidate).map fun ioctl => (ioctl, true) := by
          rw [hrest, hioctls, hmade.of_true rfl]
          rfl
        refine ⟨hu, candidate, hccid, hpipes, ⟨front, back, records, hsplit, hrecords, hrecord⟩,
          congrArg UusbEndpoints.epI hendpoints, congrArg UusbEndpoints.epO hendpoints,
          congrArg UusbEndpoints.epIntr hendpoints, ?_, ?_⟩
        · intro hmany
          rw [hrecord, configured_append, configured_selectIoctls candidate hmany,
            List.getLast?_concat]
        · rw [hrecord, claimed_append, claimed_flatten hrecords, List.nil_append,
            claimed_selectIoctls]

end

end UtokenDecrypt
