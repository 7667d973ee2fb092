import UtokenDecrypt.Usb.Builder

/-!
# Parsing a serialised tree

The walk over serialised descriptors does to the device what the builder does,
so a serialised tree is parsed into the tree it came from.
-/

namespace UtokenDecrypt
namespace Usb

open Foundation

/-!
## One descriptor
-/

def UusbParse.build (st : UusbParse) : Build where
  dev := st.dev
  config := st.config
  interface := st.interface

section

variable {mem : Nat -> UInt8} {len : Nat} {st : UusbParse}

/-- The walk is at a descriptor that lies inside the data, and there are more
than the two bytes that make it go on. -/
structure AtDt (mem : Nat -> UInt8) (len : Nat) (st : UusbParse)
    (dtType : UInt8) (body : List UInt8) : Prop where
  bytes : bytesAt mem st.pos (2 + body.length) = dtBytes dtType body
  short : ShortBody body
  inside : st.pos + (2 + body.length) ≤ len
  more : st.pos + 2 < len
  small : len < 2 ^ 32

variable {dtType : UInt8} {body : List UInt8}

theorem AtDt.len_eq (h : AtDt mem len st dtType body) :
    dtLenAt mem st = 2 + body.length := by
  have hbytes := h.bytes
  have hshort := h.short
  unfold ShortBody at hshort
  rw [Nat.add_comm 2, bytesAt, dtBytes] at hbytes
  injection hbytes with hhead _
  unfold dtLenAt
  rw [hhead, UInt8.toNat_ofNat']
  exact Nat.mod_eq_of_lt (by lia)

theorem AtDt.type_eq (h : AtDt mem len st dtType body) :
    dtTypeAt mem st = dtType := by
  have hbytes := h.bytes
  have hmore := h.more
  have hsmall := h.small
  rw [Nat.add_comm 2, bytesAt, bytesAt, dtBytes] at hbytes
  injection hbytes with _ htail
  injection htail with htype _
  unfold dtTypeAt
  rw [wrap32_of_lt (by lia), htype]

theorem AtDt.body_eq (h : AtDt mem len st dtType body) :
    bytesAt mem (st.pos + 2) body.length = body := by
  have hbytes := h.bytes
  rw [Nat.add_comm 2, bytesAt, bytesAt, dtBytes] at hbytes
  injection hbytes with _ htail
  injection htail with _ hbody

theorem AtDt.handles (h : AtDt mem len st dtType body) : Handles mem len st := by
  have hinside := h.inside
  have hmore := h.more
  have hsmall := h.small
  constructor
  · unfold uusbParseGuard
    rw [wrap32_of_lt (by lia)]
    exact hmore
  · unfold dtTooLong
    rw [h.len_eq, wrap32_of_lt (by lia)]
    lia

theorem AtDt.fits (h : AtDt mem len st dtType body) {D : Type}
    {fields : List (DtField D)} (hsize : fieldsSize fields ≤ body.length) :
    DtFits mem st fields := by
  unfold DtFits
  rw [h.len_eq, sub32_of_le (Nat.le_add_right 2 _), Nat.add_sub_cancel_left]
  exact hsize

theorem AtDt.got_eq (h : AtDt mem len st dtType body) {D : Type}
    {fields : List (DtField D)} (hsize : fieldsSize fields ≤ body.length)
    (target : D) :
    (dtGot mem st fields target).2 = loadFields fields body target := by
  rw [dtGot_snd (h.fits hsize), storeFields_eq mem hsize, h.body_eq]

theorem AtDt.ccid_eq (h : AtDt mem len st dtType body)
    (hsize : fieldsSize ccidParseUsbDescriptor ≤ body.length) :
    (ccidGot mem st).2 = loadFields ccidParseUsbDescriptor body {} := by
  have hgot : (ccidGot mem st).2 =
      storeFields mem ccidParseUsbDescriptor (st.pos + 2) {} :=
    parseFields_target mem rfl (h.fits hsize)
  rw [hgot, storeFields_eq mem hsize, h.body_eq]

/-- The round at a descriptor, when its case goes on. -/
theorem AtDt.step (h : AtDt mem len st dtType body) {after : UusbParse}
    (hcase : uusbParseCase mem st = .next after) :
    exists next, uusbParseStep mem len st = .again next ∧
      next.build = after.build ∧ next.pos = st.pos + (2 + body.length) := by
  have hstep := uusbParseStep_of_handles h.handles
  have hinside := h.inside
  have hsmall := h.small
  rw [hcase] at hstep
  refine ⟨advancePos mem st after, hstep, rfl, ?_⟩
  show wrap32 (st.pos + dtLenAt mem st) = _
  rw [h.len_eq, wrap32_of_lt (by lia)]

/-!
The walk does to the device what the builder does.
-/

theorem modifyInterface_const {dev : UusbDev} {at_ : Nat × Nat}
    (hci : at_.1 < dev.numConfigs)
    (hii : at_.2 < (dev.getConfig at_.1).numInterfaces)
    (f : UusbInterface -> UusbInterface) :
    dev.modifyInterface at_ f =
      dev.modifyInterface at_ fun _ => f (dev.getInterface at_) := by
  unfold UusbDev.modifyInterface UusbDev.modifyConfig
  congr 1
  rw [List.modify_eq_take_cons_drop hci, List.modify_eq_take_cons_drop hci,
    ← getConfig_eq hci, List.modify_eq_take_cons_drop hii,
    List.modify_eq_take_cons_drop hii, ← getInterface_eq hii]

theorem AtDt.device (h : AtDt mem len st usbDtDevice body) (hpos : st.pos = 0)
    {dt : DeviceDt} (hbody : body = dt.body)
    (hpositive : 0 < dt.descriptor.bNumConfigurations.toNat)
    (hatMost : dt.descriptor.bNumConfigurations.toNat ≤ uusbMaxConfigs) :
    exists after, uusbParseCase mem st = .next after ∧
      after.build = { st.build with
        dev := { st.dev with descriptor := dt.descriptor } } := by
  have hsize : fieldsSize uusbParseDeviceDescriptor ≤ body.length := by
    rw [hbody]
    exact Nat.le_add_left _ dt.trailing.length
  have hgot : (dtGot mem st uusbParseDeviceDescriptor st.dev.descriptor).2 =
      dt.descriptor := by
    rw [h.got_eq hsize, hbody, dt.load]
  have hnonzero : dt.descriptor.bNumConfigurations ≠ 0 := by
    intro hzero
    rw [hzero] at hpositive
    exact absurd hpositive (by decide)
  refine ⟨afterDevice mem st, ?_, ?_⟩
  · apply uusbParseCase_deviceNext hpos h.type_eq (h.fits hsize)
    · change (dtGot mem st uusbParseDeviceDescriptor
        st.dev.descriptor).2.bNumConfigurations ≠ 0
      rw [hgot]
      exact hnonzero
    · change (dtGot mem st uusbParseDeviceDescriptor
        st.dev.descriptor).2.bNumConfigurations.toNat ≤ _
      rw [hgot]
      exact hatMost
  · show Build.mk { st.dev with descriptor := (dtGot mem st _ _).2 } _ _ = _
    rw [hgot]
    rfl

theorem AtDt.config (h : AtDt mem len st usbDtConfig body) (hpos : st.pos ≠ 0)
    {dt : ConfigDt} (hbody : body = dt.body) {b : Build}
    (hadd : st.build.addConfig dt = some b) :
    exists after, uusbParseCase mem st = .next after ∧ after.build = b := by
  have hsize : fieldsSize uusbParseConfigDescriptor ≤ body.length := by
    rw [hbody]
    exact Nat.le_add_left _ dt.trailing.length
  have hgot : (dtGot mem st uusbParseConfigDescriptor {}).2 = dt.descriptor := by
    rw [h.got_eq hsize, hbody, dt.load]
  unfold Build.addConfig at hadd
  split_ifs at hadd with hroom
  injection hadd with hadd
  have hdeclared := Nat.lt_of_lt_of_le hroom (Nat.min_le_left _ _)
  have harray := Nat.lt_of_lt_of_le hroom (Nat.min_le_right _ _)
  refine ⟨{ afterConfig mem st with interface := none }, ?_, ?_⟩
  · rw [uusbParseCase_config hpos h.type_eq, uusbConfigCase_eq (dtParserAt_okay mem st)]
    exact (if_neg (Nat.not_lt.mpr (Nat.le_of_lt hdeclared))).trans
      ((if_neg (Nat.not_le.mpr harray)).trans (if_pos (h.fits hsize)))
  · rw [← hadd]
    show Build.mk { st.dev with
      config := st.dev.config ++ [{ descriptor := (dtGot mem st _ _).2 }] } _ _ = _
    rw [hgot]
    rfl

theorem AtDt.interface (h : AtDt mem len st usbDtInterface body) (hpos : st.pos ≠ 0)
    {dt : InterfaceDt} (hbody : body = dt.body) {b : Build}
    (hadd : st.build.addInterface dt = some b) :
    exists after, uusbParseCase mem st = .next after ∧ after.build = b := by
  have hsize : fieldsSize uusbParseInterfaceDescriptor ≤ body.length := by
    rw [hbody]
    exact Nat.le_add_left _ dt.trailing.length
  have hgot : (dtGot mem st uusbParseInterfaceDescriptor {}).2 = dt.descriptor := by
    rw [h.got_eq hsize, hbody, dt.load]
  unfold Build.addInterface at hadd
  cases hci : st.config with
  | none =>
      simp only [UusbParse.build, hci] at hadd
      cases hadd
  | some ci =>
      simp only [UusbParse.build, hci] at hadd
      split_ifs at hadd with hroom
      injection hadd with hadd
      have hdeclared := Nat.lt_of_lt_of_le hroom (Nat.min_le_left _ _)
      have harray := Nat.lt_of_lt_of_le hroom (Nat.min_le_right _ _)
      refine ⟨afterInterface mem st ci (uusbFindInterfaceType
        (dtGot mem st uusbParseInterfaceDescriptor {}).2.bInterface), ?_, ?_⟩
      · rw [uusbParseCase_interface hpos h.type_eq,
          uusbInterfaceCase_some (dtParserAt_okay mem st)
            (show (dtHead mem st).config = some ci from hci)]
        exact (if_neg (Nat.not_lt.mpr (Nat.le_of_lt hdeclared))).trans
          ((if_neg (Nat.not_le.mpr harray)).trans (if_pos (h.fits hsize)))
      · rw [← hadd]
        unfold afterInterface
        simp only [hgot]
        unfold UusbParse.addInterface UusbParse.build
        simp only [hci]

theorem AtDt.endpoint (h : AtDt mem len st usbDtEndpoint body) (hpos : st.pos ≠ 0)
    {dt : EndpointDt} (hbody : body = dt.body) {at_ : Nat × Nat}
    (hat : st.interface = some at_)
    (hroom : (st.dev.getInterface at_).numEndpoints <
      min (st.dev.getInterface at_).descriptor.bNumEndpoints.toNat uusbMaxEndpoints) :
    exists after, uusbParseCase mem st = .next after ∧
      after.build = { st.build with
        dev := st.dev.modifyInterface at_ fun interface =>
          { interface with
            endpoint := interface.endpoint ++ [{ descriptor := dt.descriptor }] } } := by
  have hsize : fieldsSize uusbParseEndpointDescriptor ≤ body.length := by
    rw [hbody]
    exact Nat.le_add_left _ dt.trailing.length
  have hgot : (dtGot mem st uusbParseEndpointDescriptor {}).2 = dt.descriptor := by
    rw [h.got_eq hsize, hbody, dt.load]
  have hdeclared := Nat.lt_of_lt_of_le hroom (Nat.min_le_left _ _)
  have harray := Nat.lt_of_lt_of_le hroom (Nat.min_le_right _ _)
  refine ⟨afterEndpoint mem st at_, ?_, ?_⟩
  · rw [uusbParseCase_endpoint hpos h.type_eq,
      uusbEndpointCase_some (dtParserAt_okay mem st)
        (show (dtHead mem st).interface = some at_ from hat)]
    exact (if_neg (Nat.not_lt.mpr (Nat.le_of_lt hdeclared))).trans
      ((if_neg (Nat.not_le.mpr harray)).trans (if_pos (h.fits hsize)))
  · unfold afterEndpoint
    simp only [hgot]
    rfl

theorem build_afterOther {at_ : Nat × Nat} (hat : st.interface = some at_)
    (interface : UusbInterface) (seen : List Access) :
    (afterOther st at_ interface seen).build = { st.build with
      dev := st.dev.modifyInterface at_ fun _ => interface } := by
  unfold afterOther UusbParse.build
  simp only [hat]

theorem AtDt.item {entry : Item} (h : AtDt mem len st entry.dtType entry.body)
    (hpos : st.pos ≠ 0) (hother : entry.endpoint? = none -> IsOther entry.dtType)
    (hcursors : CursorsValid st) {b : Build} (hadd : st.build.addItem entry = some b) :
    exists after, uusbParseCase mem st = .next after ∧ after.build = b := by
  unfold Build.addItem at hadd
  cases hat : st.interface with
  | none =>
      simp only [UusbParse.build, hat] at hadd
      cases hadd
  | some at_ =>
      simp only [UusbParse.build, hat] at hadd
      cases entry with
      | endpoint dt =>
          by_cases hroom : (st.dev.getInterface at_).numEndpoints <
              min (st.dev.getInterface at_).descriptor.bNumEndpoints.toNat
                uusbMaxEndpoints
          · rw [Item.add, if_pos hroom] at hadd
            injection hadd with hadd
            rcases AtDt.endpoint h hpos rfl hat hroom with ⟨after, hcase, hbuild⟩
            have hvalid := hcursors.interface at_ hat
            refine ⟨after, hcase, ?_⟩
            rw [hbuild, ← hadd, modifyInterface_const hvalid.1 hvalid.2]
            simp only [UusbParse.build, hat]
          · rw [Item.add, if_neg hroom] at hadd
            cases hadd
      | ccid dt =>
          by_cases hhandler : (st.dev.getInterface at_).handler =
              some .uusbHandleCcidDescriptor
          · rw [Item.add, if_pos hhandler] at hadd
            injection hadd with hadd
            have hsize : fieldsSize ccidParseUsbDescriptor ≤ dt.body.length :=
              Nat.le_add_left _ dt.trailing.length
            have htype := hother rfl
            rw [← h.type_eq] at htype
            have hgot : (ccidGot mem st).2 = dt.descriptor :=
              (h.ccid_eq hsize).trans dt.load
            refine ⟨_, (uusbParseCase_handled hpos htype hat hhandler).1
              (h.fits hsize), ?_⟩
            rw [build_afterOther hat, hgot, ← hadd]
            simp only [UusbParse.build, hat]
          · rw [Item.add, if_neg hhandler] at hadd
            cases hadd
      | other dt =>
          by_cases hhandler : (st.dev.getInterface at_).handler = none
          · rw [Item.add, if_pos hhandler] at hadd
            injection hadd with hadd
            have htype := hother rfl
            rw [← h.type_eq] at htype
            refine ⟨_, uusbParseCase_ignored hpos htype hat hhandler, ?_⟩
            rw [build_afterOther hat, ← hadd]
            simp only [UusbParse.build, hat]
          · rw [Item.add, if_neg hhandler] at hadd
            cases hadd

/-- Descriptors under an interface are of no type the parser knows, endpoints
apart. -/
def Dt.WellTyped : Dt -> Prop
  | .config _ => True
  | .interface _ => True
  | .item entry => entry.endpoint? = none -> IsOther entry.dtType

/-- The round at a descriptor the builder takes. -/
theorem AtDt.add {dt : Dt} (h : AtDt mem len st dt.dtType dt.body)
    (hpos : st.pos ≠ 0) (htyped : dt.WellTyped) (hcursors : CursorsValid st)
    {b : Build} (hadd : st.build.add dt = some b) :
    exists next, uusbParseStep mem len st = .again next ∧ next.build = b ∧
      next.pos = st.pos + dt.bytes.length := by
  have hcase : exists after, uusbParseCase mem st = .next after ∧ after.build = b := by
    cases dt with
    | config dt => exact AtDt.config h hpos rfl hadd
    | interface dt => exact AtDt.interface h hpos rfl hadd
    | item entry => exact AtDt.item h hpos htyped hcursors hadd
  rcases hcase with ⟨after, hcase, hbuild⟩
  rcases h.step hcase with ⟨next, hstep, hnext, hnextPos⟩
  refine ⟨next, hstep, hnext.trans hbuild, ?_⟩
  rw [hnextPos, Dt.bytes, dtBytes, List.length_cons, List.length_cons]
  lia

/-!
## A list of descriptors
-/

theorem Dt.bytes_length (dt : Dt) : dt.bytes.length = 2 + dt.body.length := by
  rw [Dt.bytes, dtBytes, List.length_cons, List.length_cons]
  lia

/-- Only a descriptor of another type can be without any bytes behind its type,
and the builder does nothing with it. -/
theorem Build.add_empty {dt : Dt} (hbody : dt.body = []) {b : Build}
    (hcursors : CursorsValid st) (hadd : st.build.add dt = some b) :
    b.dev = st.dev := by
  have hlength : dt.body.length = 0 := by rw [hbody, List.length_nil]
  cases dt with
  | config dt => simp [Dt.body, ConfigDt.body] at hlength
  | interface dt => simp [Dt.body, InterfaceDt.body] at hlength
  | item entry =>
      cases entry with
      | endpoint dt => simp [Dt.body, Item.body, EndpointDt.body] at hlength
      | ccid dt => simp [Dt.body, Item.body, CcidDt.body] at hlength
      | other dt =>
          unfold Build.add Build.addItem at hadd
          cases hat : st.interface with
          | none =>
              simp only [UusbParse.build, hat] at hadd
              cases hadd
          | some at_ =>
              have hvalid := hcursors.interface at_ hat
              simp only [UusbParse.build, hat, Item.add] at hadd
              by_cases hhandler : (st.dev.getInterface at_).handler = none
              · rw [if_pos hhandler] at hadd
                injection hadd with hadd
                have hself := modifyInterface_const hvalid.1 hvalid.2 id
                rw [← hadd]
                show (st.dev.modifyInterface at_ fun _ => st.dev.getInterface at_) = _
                rw [show (fun _ => st.dev.getInterface at_) =
                  fun _ => id (st.dev.getInterface at_) from rfl, ← hself]
                simp only [UusbDev.modifyInterface, UusbDev.modifyConfig,
                  List.modify_id]
                exact congrArg (fun config => { st.dev with config := config })
                  (List.modify_id _ st.dev.config)
              · rw [if_neg hhandler] at hadd
                cases hadd

/-- The walk over descriptors the builder takes gets to the end of the data, or
stops in front of a last descriptor of two bytes. -/
theorem walk_dts (hsmall : len + 2 ≤ 2 ^ 32) {dts : List Dt} {b : Build}
    (hst : UusbParseReaches mem len st) (hpos : st.pos ≠ 0) (hle : st.pos ≤ len)
    (hbytes : bytesAt mem st.pos (len - st.pos) = dts.flatMap Dt.bytes)
    (hshort : forall dt, dt ∈ dts -> ShortBody dt.body ∧ dt.WellTyped)
    (hadd : dts.foldlM Build.add st.build = some b) :
    exists last, UusbParseReaches mem len last ∧ last.dev = b.dev ∧
      (last.pos = len ∨ (last.pos + 2 = len ∧ exists dt, dt ∈ dts ∧ dt.body = [])) := by
  induction dts generalizing st with
  | nil =>
      have hlength := congrArg List.length hbytes
      rw [bytesAt_length] at hlength
      have hdone : len - st.pos = 0 := hlength
      injection hadd with hadd
      exact ⟨st, hst, by rw [← hadd]; rfl, Or.inl (by lia)⟩
  | cons dt rest ih =>
      have hlength := congrArg List.length hbytes
      rw [bytesAt_length, List.flatMap_cons, List.length_append, dt.bytes_length]
        at hlength
      rw [List.foldlM_cons] at hadd
      cases hfirst : st.build.add dt with
      | none =>
          rw [hfirst] at hadd
          cases hadd
      | some mid =>
          rw [hfirst] at hadd
          have hdt := hshort dt List.mem_cons_self
          by_cases hmore : st.pos + 2 < len
          · have hsplit : bytesAt mem st.pos (len - st.pos) =
                bytesAt mem st.pos (2 + dt.body.length) ++
                  bytesAt mem (st.pos + (2 + dt.body.length))
                    (len - (st.pos + (2 + dt.body.length))) := by
              rw [← bytesAt_append]
              congr 1
              lia
            rw [hsplit, List.flatMap_cons] at hbytes
            have hparts := List.append_inj hbytes (by
              rw [bytesAt_length, dt.bytes_length])
            have hat : AtDt mem len st dt.dtType dt.body :=
              ⟨hparts.1, hdt.1, by lia, hmore, by lia⟩
            rcases hat.add hpos hdt.2 (walkInv_reaches hst).cursors hfirst with
              ⟨next, hstep, hbuild, hnext⟩
            rw [dt.bytes_length] at hnext
            have hrest := ih (hst.tail hstep) (by lia) (by lia)
              (by rw [hnext]; exact hparts.2)
              (fun other hmem => hshort other (List.mem_cons_of_mem dt hmem))
              (by rw [hbuild]; exact hadd)
            rcases hrest with ⟨last, hlast, hdev, hend⟩
            refine ⟨last, hlast, hdev, hend.imp id ?_⟩
            intro hshortEnd
            rcases hshortEnd with ⟨htwo, other, hmem, hempty⟩
            exact ⟨htwo, other, List.mem_cons_of_mem dt hmem, hempty⟩
          · have hempty : dt.body = [] := List.length_eq_zero_iff.mp (by lia)
            have hnone : rest = [] := by
              cases rest with
              | nil => rfl
              | cons other more =>
                  rw [List.flatMap_cons, List.length_append, other.bytes_length]
                    at hlength
                  lia
            rw [hnone] at hadd
            injection hadd with hadd
            have hdev := Build.add_empty hempty (walkInv_reaches hst).cursors hfirst
            refine ⟨st, hst, by rw [← hadd, hdev], Or.inr ⟨by lia, dt, ?_, hempty⟩⟩
            exact List.mem_cons_self

/-!
## A whole tree
-/

theorem Item.Allowed.wellTyped {ccid : Prop} {entry : Item}
    (h : entry.Allowed ccid) : (Dt.item entry).WellTyped := by
  intro hnone
  cases entry with
  | endpoint dt => cases hnone
  | ccid dt => exact h.2
  | other dt => exact h.2

theorem DeviceTree.Fits.wellTyped {tree : DeviceTree} (h : tree.Fits) {dt : Dt}
    (hmem : dt ∈ tree.dts) : ShortBody dt.body ∧ dt.WellTyped := by
  rcases List.mem_flatMap.mp hmem with ⟨config, hconfig, hmem⟩
  have hconfigFits := h.configs config hconfig
  rcases List.mem_cons.mp hmem with hfirst | hmem
  · rw [hfirst]
    exact ⟨hconfigFits.short, trivial⟩
  · rcases List.mem_flatMap.mp hmem with ⟨interface, hinterface, hmem⟩
    have hinterfaceFits := hconfigFits.interfaces interface hinterface
    rcases List.mem_cons.mp hmem with hfirst | hmem
    · rw [hfirst]
      exact ⟨hinterfaceFits.short, trivial⟩
    · rcases List.mem_map.mp hmem with ⟨entry, hentry, heq⟩
      rw [← heq]
      have hfits := hinterfaceFits.items entry hentry
      exact ⟨hfits.1, hfits.2.wellTyped⟩

theorem bytesAt_memoryOf (bytes : List UInt8) (beyond : Nat -> UInt8) {p n : Nat}
    (h : p + n = bytes.length) : bytesAt (memoryOf bytes beyond) p n = bytes.drop p := by
  induction n generalizing p with
  | zero =>
      rw [bytesAt, List.drop_eq_nil_of_le (by lia)]
  | succ n ih =>
      have hp : p < bytes.length := by lia
      rw [bytesAt, ih (by lia), List.drop_eq_getElem_cons hp]
      simp only [memoryOf, List.getD_eq_getElem _ _ hp]

/-- The walk over a serialised tree builds the tree and gets to the end. -/
theorem DeviceTree.walk {tree : DeviceTree} (h : tree.Fits)
    (hsmall : tree.bytes.length + 2 ≤ 2 ^ 32) (beyond : Nat -> UInt8) :
    exists last,
      UusbParseReaches (memoryOf tree.bytes beyond) tree.bytes.length last ∧
      last.dev = tree.dev ∧
      (last.pos = tree.bytes.length ∨
        (last.pos + 2 = tree.bytes.length ∧ exists dt, dt ∈ tree.dts ∧ dt.body = [])) := by
  have hfirst : (dtBytes usbDtDevice tree.dt.body).length = 2 + tree.dt.body.length := by
    rw [dtBytes, List.length_cons, List.length_cons]
    lia
  have hlength : tree.bytes.length =
      2 + tree.dt.body.length + (tree.dts.flatMap Dt.bytes).length := by
    rw [DeviceTree.bytes, List.length_append, hfirst]
  have hbody : 0 < tree.dt.body.length := by
    simp [DeviceDt.body]
  have hall := bytesAt_memoryOf tree.bytes beyond (p := 0) (Nat.zero_add _)
  have hsplit := hall
  rw [hlength, bytesAt_append, List.drop_zero] at hsplit
  have hparts := List.append_inj hsplit (by rw [bytesAt_length, hfirst])
  have hat : AtDt (memoryOf tree.bytes beyond) tree.bytes.length {} usbDtDevice
      tree.dt.body :=
    ⟨hparts.1, h.short, by simp only; lia, by simp only; lia, by lia⟩
  rcases hat.device rfl rfl h.positive h.atMost with ⟨after, hcase, hbuild⟩
  rcases hat.step hcase with ⟨next, hstep, hnext, hpos⟩
  rcases DeviceTree.build h with ⟨result, hadd, hdev⟩
  have hpos' : next.pos = 2 + tree.dt.body.length := by
    rw [hpos]
    exact Nat.zero_add _
  have hrest : bytesAt (memoryOf tree.bytes beyond) next.pos
      (tree.bytes.length - next.pos) = tree.dts.flatMap Dt.bytes := by
    rw [hpos', hlength, Nat.add_sub_cancel_left]
    have htail := hparts.2
    rw [Nat.zero_add] at htail
    exact htail
  rcases walk_dts hsmall (Loop.Reaches.refl.tail hstep) (by lia) (by lia) hrest
    (fun dt hmem => h.wellTyped hmem)
    (by rw [hnext, hbuild]; exact hadd) with ⟨last, hlast, hlastDev, hend⟩
  exact ⟨last, hlast, hlastDev.trans hdev, hend⟩

/-- Parsing returns true with a device. -/
def ParsesTo (mem : Nat -> UInt8) (len : Nat) (dev : UusbDev) : Prop :=
  exists fuel st,
    uusbParseDescriptors mem len fuel = some (.returned true st) ∧ st.dev = dev

theorem parse_bytes {tree : DeviceTree} (h : tree.Fits)
    (hlen : tree.bytes.length + 2 < 2 ^ 32) (beyond : Nat -> UInt8) :
    ParsesTo (memoryOf tree.bytes beyond) tree.bytes.length tree.dev := by
  rcases DeviceTree.walk h (Nat.le_of_lt hlen) beyond with ⟨last, hlast, hdev, hend⟩
  have hle := pos_le hlast
  have hguard : ¬ uusbParseGuard tree.bytes.length last := by
    unfold uusbParseGuard
    rw [wrap32_of_lt (by lia)]
    rcases hend with hend | hend
    · lia
    · lia
  rcases Loop.run_of_reaches hlast (uusbParseStep_of_end hguard) with ⟨fuel, hrun⟩
  exact ⟨fuel, last, hrun, hdev⟩

end

/-- A token with a keyboard interface and a CCID interface. -/
def tokenTree : DeviceTree where
  dt := { descriptor := { idVendor := 0x1050, bNumConfigurations := 1 } }
  configs :=
    [{ dt := { descriptor := { bNumInterfaces := 2, bConfigurationValue := 1 } }
       interfaces :=
        [{ dt :=
            { descriptor :=
              { bInterface := { cls := 3, subclass := 1, protocol := 1 }
                bNumEndpoints := 1 } }
           items :=
            [ .other { dtType := 0x21, body := [0x11, 0x01] },
              .endpoint { descriptor := { bEndpointAddress := 0x84, bmAttributes := 3 } } ] },
         { dt :=
            { descriptor :=
              { bInterface := { cls := 11 }, bInterfaceNumber := 1, bNumEndpoints := 2 } }
           items :=
            [ .ccid { dtType := 0x21, descriptor := { dwMaxCCIDMessageLength := 3072 } },
              .endpoint { descriptor := { bEndpointAddress := 0x02, bmAttributes := 2 } },
              .endpoint { descriptor := { bEndpointAddress := 0x81, bmAttributes := 2 } } ] }] }]

theorem parse_bytes_tokenTree :
    ParsesTo (memoryOf tokenTree.bytes fun _ => 0) tokenTree.bytes.length
      tokenTree.dev :=
  parse_bytes (by decide : tokenTree.Fits) (by decide +kernel) fun _ => 0

/-!
At a length of 2^32 - 2 the position behind the last descriptor wraps to the
start in the loop condition, and the walk looks for one more descriptor behind
the data.
-/

/-- An ignored descriptor of a length. -/
def filler (length : Nat) : Item :=
  .other { dtType := 0x21, body := List.replicate (length - 2) 0 }

/-- A device whose one interface is followed by ignored descriptors. -/
def longTree (count : Nat) : DeviceTree where
  dt := { descriptor := { bNumConfigurations := 1 } }
  configs :=
    [{ dt := { descriptor := { bNumInterfaces := 1 } }
       interfaces :=
        [{ dt := { descriptor := { bInterface := { cls := 0xFE } } }
           items := List.replicate count (filler 255) ++ [filler 218] }] }]

theorem filler_body_length (length : Nat) :
    (filler length).body.length = length - 2 :=
  List.length_replicate

theorem longTree_dts (count : Nat) :
    (longTree count).dts =
      .config { descriptor := { bNumInterfaces := 1 } } ::
        .interface { descriptor := { bInterface := { cls := 0xFE } } } ::
        (List.replicate count (.item (filler 255)) ++ [.item (filler 218)]) := by
  simp [DeviceTree.dts, ConfigTree.dts, InterfaceTree.dts, longTree]

theorem longTree_length (count : Nat) :
    (longTree count).bytes.length = 254 + 255 * count := by
  have hfillers : ((List.replicate count (Dt.item (filler 255))).flatMap
      Dt.bytes).length = 255 * count := by
    induction count with
    | zero => rfl
    | succ count ih =>
        rw [List.replicate_succ, List.flatMap_cons, List.length_append, ih,
          Dt.bytes_length, Dt.body, filler_body_length]
        lia
  have hlast : (Dt.item (filler 218)).bytes.length = 218 := by
    rw [Dt.bytes_length, Dt.body, filler_body_length]
  have hdevice : (dtBytes usbDtDevice (longTree count).dt.body).length = 18 := rfl
  have hconfig : (Dt.config { descriptor := { bNumInterfaces := 1 } }).bytes.length = 9 :=
    rfl
  have hinterface : (Dt.interface
      { descriptor := { bInterface := { cls := 0xFE } } }).bytes.length = 9 := rfl
  rw [DeviceTree.bytes, longTree_dts, List.flatMap_cons, List.flatMap_cons,
    List.flatMap_append, List.flatMap_cons, List.flatMap_nil, List.append_nil]
  simp only [List.length_append, hfillers, hlast, hdevice, hconfig, hinterface]
  lia

theorem longTree_fits (count : Nat) : (longTree count).Fits := by
  have hmem : forall entry, entry ∈ List.replicate count (filler 255) ++ [filler 218] ->
      entry = filler 255 ∨ entry = filler 218 := by
    intro entry hentry
    rcases List.mem_append.mp hentry with hentry | hentry
    · exact Or.inl (List.eq_of_mem_replicate hentry)
    · exact Or.inr (List.mem_singleton.mp hentry)
  have hnone : forall {α : Type} (f : Item -> Option α), f (filler 255) = none ->
      f (filler 218) = none ->
      (List.replicate count (filler 255) ++ [filler 218]).filterMap f = [] := by
    intro α f h1 h2
    apply List.filterMap_eq_nil_iff.mpr
    intro entry hentry
    rcases hmem entry hentry with heq | heq
    · rw [heq, h1]
    · rw [heq, h2]
  have hdevice : ShortBody
      (DeviceDt.body { descriptor := { bNumConfigurations := 1 } }) := by decide
  have hconfigDt : ShortBody
      (ConfigDt.body { descriptor := { bNumInterfaces := 1 } }) := by decide
  have hinterfaceDt : ShortBody (InterfaceDt.body
      { descriptor := { bInterface := { cls := 0xFE } } }) := by decide
  refine ⟨hdevice, ?_, Nat.le_refl 1, Nat.le_add_left 1 7, Nat.le_refl 1⟩
  intro config hconfig
  rw [List.mem_singleton.mp hconfig]
  refine ⟨hconfigDt, ?_, Nat.le_refl 1⟩
  intro interface hinterface
  rw [List.mem_singleton.mp hinterface]
  refine ⟨hinterfaceDt, ?_, ?_, ?_⟩
  · intro entry hentry
    have hother : ¬ IsCcid { descriptor := { bInterface := { cls := 0xFE } } } := by
      decide
    rcases hmem entry hentry with heq | heq
    · rw [heq]
      refine ⟨?_, hother, by decide⟩
      rw [ShortBody, filler_body_length]
    · rw [heq]
      refine ⟨?_, hother, by decide⟩
      rw [ShortBody, filler_body_length]
      decide
  · rw [hnone Item.ccid? rfl rfl]
    exact Nat.zero_le 1
  · rw [hnone Item.endpoint? rfl rfl]
    exact Nat.zero_le _

theorem not_parsesTo_longTree :
    (longTree 16843008).Fits ∧
      ¬ ParsesTo (memoryOf (longTree 16843008).bytes fun _ => 1)
        (longTree 16843008).bytes.length (longTree 16843008).dev := by
  refine ⟨longTree_fits _, ?_⟩
  intro h
  generalize hcount : 16843008 = count at h
  have hlength : (longTree count).bytes.length = 2 ^ 32 - 2 := by
    rw [longTree_length, ← hcount]
    lia
  rcases DeviceTree.walk (longTree_fits count) (by lia) fun _ => 1 with
    ⟨last, hlast, _, hend⟩
  have hpos : last.pos = (longTree count).bytes.length := by
    rcases hend with hend | ⟨_, dt, hdt, hempty⟩
    · exact hend
    · rw [longTree_dts] at hdt
      have hbody : 0 < dt.body.length := by
        simp only [List.mem_cons, List.mem_append, List.not_mem_nil, or_false] at hdt
        rcases hdt with heq | heq | heq | heq
        · rw [heq]
          decide
        · rw [heq]
          decide
        · rw [List.eq_of_mem_replicate heq, Dt.body, filler_body_length]
          decide
        · rw [heq, Dt.body, filler_body_length]
          decide
      rw [hempty] at hbody
      cases hbody
  have hbyte : dtLenAt (memoryOf (longTree count).bytes fun _ => 1) last = 1 := by
    unfold dtLenAt memoryOf
    rw [List.getD_eq_default _ _ (by rw [hpos])]
    rfl
  have hguard : uusbParseGuard (longTree count).bytes.length last := by
    unfold uusbParseGuard
    rw [hpos, hlength]
    decide
  have hlong : dtTooLong (memoryOf (longTree count).bytes fun _ => 1)
      (longTree count).bytes.length last := by
    unfold dtTooLong
    rw [hbyte, hpos, hlength]
    decide
  rcases Loop.run_of_reaches hlast (uusbParseStep_of_tooLong hguard hlong) with
    ⟨fuel, hrun⟩
  rcases h with ⟨other, st, hother, _⟩
  have h1 := Loop.run_mono hrun (Nat.le_max_left fuel other)
  have h2 := Loop.run_mono hother (Nat.le_max_right fuel other)
  rw [h1] at h2
  cases h2

end Usb
end UtokenDecrypt
