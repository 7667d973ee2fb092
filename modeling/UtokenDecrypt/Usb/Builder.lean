import UtokenDecrypt.Usb.Serialize

/-!
# Building a tree from its descriptors

A builder that takes descriptors one at a time and knows no bytes, and the tree
it makes of a tree's own descriptors.
-/

namespace UtokenDecrypt
namespace Usb

open Foundation

/-!
## The builder
-/

/-- The device under construction, and where in it the next descriptor goes. -/
structure Build where
  dev : UusbDev
  config : Option Nat
  interface : Option (Nat × Nat)

def Build.addConfig (b : Build) (dt : ConfigDt) : Option Build :=
  if b.dev.numConfigs <
      min b.dev.descriptor.bNumConfigurations.toNat uusbMaxConfigs then
    some
      { dev := { b.dev with
          config := b.dev.config ++ [{ descriptor := dt.descriptor }] }
        config := some b.dev.numConfigs
        interface := none }
  else none

def Build.addInterface (b : Build) (dt : InterfaceDt) : Option Build :=
  match b.config with
  | none => none
  | some ci =>
      let config := b.dev.getConfig ci
      if config.numInterfaces <
          min config.descriptor.bNumInterfaces.toNat uusbMaxInterfaces then
        let interface : UusbInterface :=
          { descriptor := dt.descriptor
            type := uusbFindInterfaceType dt.descriptor.bInterface }
        some
          { b with
            dev := b.dev.modifyConfig ci fun config =>
              { config with interface := config.interface ++ [interface] }
            interface := some (ci, config.numInterfaces) }
      else none

/-- What a descriptor under an interface adds to the interface. -/
def Item.add (entry : Item) (interface : UusbInterface) : Option UusbInterface :=
  match entry with
  | .endpoint dt =>
      if interface.numEndpoints <
          min interface.descriptor.bNumEndpoints.toNat uusbMaxEndpoints then
        some { interface with
          endpoint := interface.endpoint ++ [{ descriptor := dt.descriptor }] }
      else none
  | .ccid dt =>
      if interface.handler = some .uusbHandleCcidDescriptor then
        some { interface with ccid := some dt.descriptor }
      else none
  | .other _ => if interface.handler = none then some interface else none

def Build.addItem (b : Build) (entry : Item) : Option Build :=
  match b.interface with
  | none => none
  | some at_ =>
      (entry.add (b.dev.getInterface at_)).map fun interface =>
        { b with dev := b.dev.modifyInterface at_ fun _ => interface }

def Build.add (b : Build) : Dt -> Option Build
  | .config dt => b.addConfig dt
  | .interface dt => b.addInterface dt
  | .item entry => b.addItem entry

/-!
## An interface
-/

/-- The ccid type is the only one with a function for class descriptors. -/
theorem handler_find (classproto : UusbClassproto) :
    (uusbFindInterfaceType classproto).bind UusbIntfType.handleDescriptor =
      if uusbFindInterfaceType classproto = some uusbIntfTypeCcid then
        some .uusbHandleCcidDescriptor
      else none := by
  have hmem : forall type, uusbFindInterfaceType classproto = some type ->
      type ∈ uusbIntfTypeList := by
    intro type htype
    exact List.mem_of_find?_eq_some htype
  cases hfind : uusbFindInterfaceType classproto with
  | none => rfl
  | some type =>
      have htype := hmem type hfind
      simp only [uusbIntfTypeList, List.mem_cons, List.not_mem_nil, or_false] at htype
      rcases htype with rfl | rfl | rfl
      · rfl
      · rfl
      · rfl

theorem addItems (interface : UusbInterface) {ccid : Prop} {items : List Item}
    (hallowed : forall entry, entry ∈ items -> entry.Allowed ccid)
    (hccid : ccid -> interface.handler = some .uusbHandleCcidDescriptor)
    (hother : ¬ ccid -> interface.handler = none)
    (hroom : interface.numEndpoints + (items.filterMap Item.endpoint?).length ≤
      min interface.descriptor.bNumEndpoints.toNat uusbMaxEndpoints) :
    items.foldlM (fun interface entry => entry.add interface) interface =
      some { interface with
        endpoint := interface.endpoint ++ items.filterMap Item.endpoint?
        ccid := (items.filterMap Item.ccid?).getLast?.or interface.ccid } := by
  induction items generalizing interface with
  | nil => simp
  | cons entry rest ih =>
      have hentry := hallowed entry List.mem_cons_self
      have hrest : forall other, other ∈ rest -> other.Allowed ccid :=
        fun other hmem => hallowed other (List.mem_cons_of_mem entry hmem)
      rw [List.foldlM_cons]
      cases entry with
      | endpoint dt =>
          simp only [List.filterMap_cons, Item.endpoint?, List.length_cons] at hroom
          rw [Item.add, if_pos (by lia)]
          show List.foldlM _ _ rest = _
          rw [ih { interface with
            endpoint := interface.endpoint ++ [{ descriptor := dt.descriptor }] }
            hrest hccid hother (by
              simp only [UusbInterface.numEndpoints, List.length_append,
                List.length_cons, List.length_nil] at hroom ⊢
              lia)]
          simp [List.filterMap_cons, Item.endpoint?, Item.ccid?]
      | ccid dt =>
          simp only [List.filterMap_cons, Item.endpoint?] at hroom
          rw [Item.add, if_pos (hccid hentry.1)]
          show List.foldlM _ _ rest = _
          rw [ih { interface with ccid := some dt.descriptor } hrest hccid hother hroom]
          simp [List.filterMap_cons, Item.endpoint?, Item.ccid?, List.getLast?_cons,
            Option.or_some]
      | other dt =>
          simp only [List.filterMap_cons, Item.endpoint?] at hroom
          rw [Item.add, if_pos (hother hentry.1)]
          show List.foldlM _ _ rest = _
          rw [ih interface hrest hccid hother hroom]
          simp [List.filterMap_cons, Item.endpoint?, Item.ccid?]

theorem getLast?_eq_head? {α : Type} {xs : List α} (h : xs.length ≤ 1) :
    xs.getLast? = xs.head? := by
  cases xs with
  | nil => rfl
  | cons x rest =>
      have hrest : rest = [] := List.length_eq_zero_iff.mp (by
        rw [List.length_cons] at h
        lia)
      rw [hrest]
      rfl

/-- The interface an interface descriptor adds. -/
def InterfaceDt.interface (dt : InterfaceDt) : UusbInterface where
  descriptor := dt.descriptor
  type := uusbFindInterfaceType dt.descriptor.bInterface

/-- What follows an interface descriptor turns the new interface into the
tree's. -/
theorem InterfaceTree.add_items {tree : InterfaceTree} (h : tree.Fits) :
    tree.items.foldlM (fun interface entry => entry.add interface)
      tree.dt.interface = some tree.interface := by
  have hhandler := handler_find tree.dt.descriptor.bInterface
  have hroom : tree.dt.interface.numEndpoints +
      (tree.items.filterMap Item.endpoint?).length ≤
      min tree.dt.interface.descriptor.bNumEndpoints.toNat uusbMaxEndpoints := by
    simpa [UusbInterface.numEndpoints, InterfaceDt.interface] using h.endpoints
  rw [addItems tree.dt.interface (fun entry hmem => (h.items entry hmem).2)
    (fun hccid => hhandler.trans (if_pos hccid))
    (fun hother => hhandler.trans (if_neg hother)) hroom, getLast?_eq_head? h.ccid]
  simp [InterfaceTree.interface, InterfaceDt.interface]

/-!
## The cursors of the builder

The builder always works on the last configuration and on its last interface.
-/

theorem modify_append_cons {α : Type} (xs : List α) (x : α) (f : α -> α) :
    (xs ++ [x]).modify xs.length f = xs ++ [f x] := by
  rw [List.modify_eq_take_cons_drop (by simp)]
  simp

structure Build.InConfig (b : Build) (dd : UusbDeviceDescriptor)
    (before : List UusbConfig) (config : UusbConfig) : Prop where
  dev : b.dev = { descriptor := dd, config := before ++ [config] }
  config : b.config = some before.length

structure Build.InInterface (b : Build) (dd : UusbDeviceDescriptor)
    (before : List UusbConfig) (cd : UusbConfigDescriptor)
    (siblings : List UusbInterface) (interface : UusbInterface) : Prop where
  dev : b.dev =
    { descriptor := dd
      config := before ++
        [{ descriptor := cd, interface := siblings ++ [interface] }] }
  config : b.config = some before.length
  interface : b.interface = some (before.length, siblings.length)

section

variable {b : Build} {dd : UusbDeviceDescriptor} {before : List UusbConfig}
variable {cd : UusbConfigDescriptor} {siblings : List UusbInterface}
variable {interface : UusbInterface}

theorem Build.InInterface.getInterface
    (h : b.InInterface dd before cd siblings interface) :
    b.dev.getInterface (before.length, siblings.length) = interface := by
  rw [h.dev]
  simp [UusbDev.getInterface, UusbDev.getConfig]

theorem Build.InInterface.addItems
    (h : b.InInterface dd before cd siblings interface) {items : List Item}
    {result : UusbInterface}
    (hadd : items.foldlM (fun interface entry => entry.add interface) interface =
      some result) :
    exists after, (items.map Dt.item).foldlM Build.add b = some after ∧
      after.InInterface dd before cd siblings result := by
  induction items generalizing b interface with
  | nil =>
      injection hadd with hadd
      subst hadd
      exact ⟨b, rfl, h⟩
  | cons entry rest ih =>
      rw [List.foldlM_cons] at hadd
      cases hentry : entry.add interface with
      | none =>
          rw [hentry] at hadd
          cases hadd
      | some next =>
          rw [hentry] at hadd
          have hnext : b.addItem entry = some { b with
              dev := b.dev.modifyInterface (before.length, siblings.length)
                fun _ => next } := by
            unfold Build.addItem
            rw [h.interface]
            simp only [h.getInterface, hentry, Option.map_some]
          have hin : ({ b with
              dev := b.dev.modifyInterface (before.length, siblings.length)
                fun _ => next } : Build).InInterface dd before cd siblings next := by
            refine ⟨?_, h.config, h.interface⟩
            show UusbDev.modifyInterface _ _ _ = _
            rw [h.dev]
            simp only [UusbDev.modifyInterface, UusbDev.modifyConfig,
              modify_append_cons]
          rcases ih hin hadd with ⟨after, hafter, hresult⟩
          refine ⟨after, ?_, hresult⟩
          rw [List.map_cons, List.foldlM_cons, Build.add, hnext]
          exact hafter

/-- Adding one part after the other, each of which finds room. -/
theorem Build.addAll {ι κ : Type} {dts : ι -> List Dt} {part : ι -> κ} {room : Nat}
    {trees : List ι} {front : List κ} (holds : Build -> List κ -> Prop)
    (hadd : forall tree b front, tree ∈ trees -> holds b front -> front.length < room ->
      exists after, (dts tree).foldlM Build.add b = some after ∧
        holds after (front ++ [part tree]))
    (hb : holds b front) (hroom : front.length + trees.length ≤ room) :
    exists after, (trees.flatMap dts).foldlM Build.add b = some after ∧
      holds after (front ++ trees.map part) := by
  induction trees generalizing b front with
  | nil =>
      refine ⟨b, rfl, ?_⟩
      rw [List.map_nil, List.append_nil]
      exact hb
  | cons tree rest ih =>
      rw [List.length_cons] at hroom
      rcases hadd tree b front List.mem_cons_self hb (by lia) with ⟨mid, hmid, hin⟩
      rcases ih (fun other b front hmem => hadd other b front (List.mem_cons_of_mem tree hmem))
        hin (by rw [List.length_append, List.length_singleton]; lia) with
        ⟨after, hafter, hresult⟩
      refine ⟨after, ?_, ?_⟩
      · rw [List.flatMap_cons, List.foldlM_append, hmid]
        exact hafter
      · rw [List.map_cons, ← List.singleton_append, ← List.append_assoc]
        exact hresult

/-- Adding an interface and what follows it to the last configuration. -/
theorem InterfaceTree.add {tree : InterfaceTree} (h : tree.Fits)
    (hb : b.InConfig dd before { descriptor := cd, interface := siblings })
    (hroom : siblings.length < min cd.bNumInterfaces.toNat uusbMaxInterfaces) :
    exists after, tree.dts.foldlM Build.add b = some after ∧
      after.InConfig dd before
        { descriptor := cd, interface := siblings ++ [tree.interface] } := by
  have hget : b.dev.getConfig before.length =
      { descriptor := cd, interface := siblings } := by
    rw [hb.dev]
    simp [UusbDev.getConfig]
  have hfirst : b.addInterface tree.dt = some { b with
      dev := b.dev.modifyConfig before.length fun config =>
        { config with interface := config.interface ++ [tree.dt.interface] }
      interface := some (before.length, siblings.length) } := by
    unfold Build.addInterface
    rw [hb.config]
    simp only [hget, UusbConfig.numInterfaces]
    exact if_pos hroom
  have hin : ({ b with
      dev := b.dev.modifyConfig before.length fun config =>
        { config with interface := config.interface ++ [tree.dt.interface] }
      interface := some (before.length, siblings.length) } : Build).InInterface
      dd before cd siblings tree.dt.interface := by
    refine ⟨?_, hb.config, rfl⟩
    show UusbDev.modifyConfig _ _ _ = _
    rw [hb.dev]
    simp only [UusbDev.modifyConfig, modify_append_cons]
  rcases hin.addItems (InterfaceTree.add_items h) with ⟨after, hafter, hresult⟩
  refine ⟨after, ?_, hresult.dev, hresult.config⟩
  rw [InterfaceTree.dts, List.foldlM_cons, Build.add, hfirst]
  exact hafter

theorem InterfaceTree.add_all {trees : List InterfaceTree}
    (h : forall tree, tree ∈ trees -> tree.Fits)
    (hb : b.InConfig dd before { descriptor := cd, interface := siblings })
    (hroom : siblings.length + trees.length ≤
      min cd.bNumInterfaces.toNat uusbMaxInterfaces) :
    exists after, (trees.flatMap InterfaceTree.dts).foldlM Build.add b = some after ∧
      after.InConfig dd before
        { descriptor := cd
          interface := siblings ++ trees.map InterfaceTree.interface } := by
  refine Build.addAll
    (fun b interface => b.InConfig dd before { descriptor := cd, interface := interface })
    ?_ hb hroom
  intro tree b siblings hmem hb hroom
  exact InterfaceTree.add (h tree hmem) hb hroom

/-- Adding a configuration and its interfaces to the device. -/
theorem ConfigTree.add {tree : ConfigTree} (h : tree.Fits)
    (hb : b.dev = { descriptor := dd, config := before })
    (hroom : before.length < min dd.bNumConfigurations.toNat uusbMaxConfigs) :
    exists after, tree.dts.foldlM Build.add b = some after ∧
      after.dev = { descriptor := dd, config := before ++ [tree.config] } := by
  have hfirst : b.addConfig tree.dt = some
      { dev := { b.dev with
          config := b.dev.config ++ [{ descriptor := tree.dt.descriptor }] }
        config := some b.dev.numConfigs
        interface := none } := by
    apply if_pos
    rw [hb]
    exact hroom
  have hin : (Build.mk { b.dev with
      config := b.dev.config ++ [{ descriptor := tree.dt.descriptor }] }
      (some b.dev.numConfigs) none).InConfig dd before
      { descriptor := tree.dt.descriptor, interface := [] } := by
    constructor
    · show UusbDev.mk _ _ _ = _
      rw [hb]
    · show some b.dev.numConfigs = _
      rw [hb]
      rfl
  have hnumber := h.number
  rcases InterfaceTree.add_all h.interfaces hin (by
    rw [List.length_nil, Nat.zero_add]
    exact hnumber) with ⟨after, hafter, hresult⟩
  refine ⟨after, ?_, hresult.dev⟩
  rw [ConfigTree.dts, List.foldlM_cons, Build.add, hfirst]
  exact hafter

theorem ConfigTree.add_all {trees : List ConfigTree}
    (h : forall tree, tree ∈ trees -> tree.Fits)
    (hb : b.dev = { descriptor := dd, config := before })
    (hroom : before.length + trees.length ≤
      min dd.bNumConfigurations.toNat uusbMaxConfigs) :
    exists after, (trees.flatMap ConfigTree.dts).foldlM Build.add b = some after ∧
      after.dev =
        { descriptor := dd, config := before ++ trees.map ConfigTree.config } := by
  refine Build.addAll (fun b config => b.dev = { descriptor := dd, config := config })
    ?_ hb hroom
  intro tree b before hmem hb hroom
  exact ConfigTree.add (h tree hmem) hb hroom

end

/-- The builder makes the tree of the tree's own descriptors. -/
theorem DeviceTree.build {tree : DeviceTree} (h : tree.Fits) :
    exists after, tree.dts.foldlM Build.add
      { dev := { descriptor := tree.dt.descriptor }
        config := none
        interface := none } = some after ∧ after.dev = tree.dev := by
  have hnumber := h.number
  have hatMost := h.atMost
  rcases ConfigTree.add_all (b := { dev := { descriptor := tree.dt.descriptor }
                                    config := none
                                    interface := none })
    h.configs rfl (by rw [List.length_nil]; lia) with ⟨after, hafter, hdev⟩
  exact ⟨after, hafter, hdev⟩

end Usb
end UtokenDecrypt
