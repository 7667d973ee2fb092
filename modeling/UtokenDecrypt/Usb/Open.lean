import Mathlib.Data.List.Find
import UtokenDecrypt.Foundation.Calls
import UtokenDecrypt.Foundation.Decimal
import UtokenDecrypt.Usb.Filter
import UtokenDecrypt.Usb.RoundTrip
import UtokenDecrypt.Usb.Sysfs

/-!
# Opening a device

`usb_open_type` of `usb.c` and what it calls: the search through the
directories of sysfs, and the functions that attach, identify and parse the device
found there.  The device node is the one that the bus and device numbers in sysfs
lead to, and it is opened only if it has the numbers that sysfs gives for it.

A bus of devices, shown in sysfs the way the kernel prints it, is at the end: the
first device that passes the filter is opened, with the tree of its descriptors.
-/

namespace UtokenDecrypt
namespace Usb

open Foundation

/-!
## The code
-/

structure SysfsDevice extends SysfsDir where
  busnum : Option (List UInt8)
  devnum : Option (List UInt8)
  dev : Option (List UInt8)
  descriptors : SysfsFile

structure Stat where
  isChr : Bool
  stRdev : Nat

/-- The directories in `/sys/bus/usb/devices` in the order of `readdir`, if it can be
opened, what is in them, and the nodes in `/dev`. -/
structure UsbSystem where
  entries : Option (List (List UInt8))
  directory : List UInt8 -> SysfsDevice
  stat : List UInt8 -> Option Stat
  opens : List UInt8 -> Bool

def usbFindDevice (matchFn : List UInt8 -> Bool) : List (List UInt8) -> Option (List UInt8)
  | [] => none
  | name :: rest =>
      if name.head? = some 0x2e then usbFindDevice matchFn rest
      else if matchFn name then some name
      else usbFindDevice matchFn rest

def sysfsReadDecimal (file : Option (List UInt8)) : Nat :=
  match sysfsReadLine file with
  | none => 0xFFFFFFFF
  | some line =>
      let result := strtoulIn 10 line
      if result.2 ≠ [] ∨ result.1 ≥ 0xFFFFFFFF then 0xFFFFFFFF
      else result.1

/-- `makedev` of the C library: the low bits of both numbers, and then the others. -/
def makedev (major minor : Nat) : Nat :=
  minor % 0x100 + major % 0x1000 * 2 ^ 8 + minor / 0x100 * 2 ^ 20 +
    major / 0x1000 * 2 ^ 44

/-- `strtok` passes over separators in front of the first number; the second one is
all that follows the separator behind it. -/
def sysfsGetDevT (file : Option (List UInt8)) : Option Nat :=
  match sysfsReadLine file with
  | none => none
  | some line =>
      let majmin := line.dropWhile (· == 0x3a)
      let minor := (majmin.dropWhile (· != 0x3a)).drop 1
      if majmin = [] then none
      else if minor = [] then none
      else some (makedev (wrap32 (strtoul0 (majmin.takeWhile (· != 0x3a))).1)
        (wrap32 (strtoul0 minor).1))

structure UusbDevaddr where
  bus : UInt16
  dev : UInt16
deriving DecidableEq

/-- `/dev/bus/usb/%03u/%03u` -/
def devPath (devaddr : UusbDevaddr) : List UInt8 :=
  "/dev/bus/usb/".toUTF8.toList ++ decimalText3 devaddr.bus.toNat ++
    0x2f :: decimalText3 devaddr.dev.toNat

def uusbAttachDevice (sys : UsbSystem) (sysfsDir : List UInt8) : Option UusbDevaddr :=
  let dir := sys.directory sysfsDir
  let devaddr : UusbDevaddr := {
    bus := UInt16.ofNat (sysfsReadDecimal dir.busnum)
    dev := UInt16.ofNat (sysfsReadDecimal dir.devnum) }
  match sysfsGetDevT dir.dev with
  | none => none
  | some linuxdev =>
      match sys.stat (devPath devaddr) with
      | none => none
      | some stb => if !stb.isChr ∨ stb.stRdev ≠ linuxdev then none else some devaddr

def uusbIdentifyDevice (dir : SysfsDevice) : UusbType where
  idVendor := UInt16.ofNat (sysfsReadHexadecimal dir.idVendor)
  idProduct := UInt16.ofNat (sysfsReadHexadecimal dir.idProduct)

structure UsbOpened where
  sysfsDir : List UInt8
  devPath : List UInt8
  type : UusbType
  devaddr : UusbDevaddr
  dev : UusbDev
deriving DecidableEq

/-- `__usb_open`; `fresh` and `beyond` are what memory holds where the descriptors are
read to. -/
def usbOpen (sys : UsbSystem) (sysfsDir : List UInt8) (fresh : List UInt8)
    (beyond : Nat -> UInt8) (fuel : Nat) : Option (Outcome (Option UsbOpened)) :=
  match uusbAttachDevice sys sysfsDir with
  | none => some (.done none)
  | some devaddr =>
      let dir := sys.directory sysfsDir
      (uusbProcessDescriptors dir.descriptors fresh beyond fuel).map fun outcome =>
        outcome.map fun got =>
          if got.1 = true ∧ sys.opens (devPath devaddr) = true then
            some {
              sysfsDir := sysfsDir
              devPath := devPath devaddr
              type := uusbIdentifyDevice dir
              devaddr := devaddr
              dev := got.2 }
          else none

def usbOpenType (sys : UsbSystem) (type : UusbType) (fresh : List UInt8)
    (beyond : Nat -> UInt8) (fuel : Nat) : Option (Outcome (Option UsbOpened)) :=
  match sys.entries with
  | none => some (.done none)
  | some names =>
      match usbFindDevice (fun name => usbMatchType (sys.directory name).toSysfsDir type)
          names with
      | none => some (.done none)
      | some sysfsDir => usbOpen sys sysfsDir fresh beyond fuel

/-!
## A bus of devices
-/

/-- A device on the bus, with its descriptors and what one `read` after the other
delivers of them. -/
structure UsbDevice where
  type : UusbType
  devaddr : UusbDevaddr
  major : UInt32
  minor : UInt32
  tree : DeviceTree
  pieces : List (List UInt8)

/-- A device as the kernel shows it. -/
def UsbDevice.sysfs (d : UsbDevice) (size : Nat) : SysfsDevice where
  idVendor := some (idAttribute d.type.idVendor)
  idProduct := some (idAttribute d.type.idProduct)
  busnum := some (decimalText d.devaddr.bus.toNat ++ [0x0a])
  devnum := some (decimalText d.devaddr.dev.toNat ++ [0x0a])
  dev := some (decimalText d.major.toNat ++ 0x3a :: decimalText d.minor.toNat ++ [0x0a])
  descriptors := pieceFile size d.pieces

/-- A directory that is not one of a device, such as that of an interface. -/
def noDevice : SysfsDevice where
  idVendor := none
  idProduct := none
  busnum := none
  devnum := none
  dev := none
  descriptors := pieceFile 0 []

structure DevNode where
  isChr : Bool
  major : UInt32
  minor : UInt32
  opens : Bool
deriving DecidableEq

def DevNode.stat (node : DevNode) : Stat where
  isChr := node.isChr
  stRdev := makedev node.major.toNat node.minor.toNat

/-- The directories, each with its device if it is one of a device, and the nodes. -/
structure UsbBus where
  entries : List (List UInt8 × Option UsbDevice)
  nodup : (entries.map Prod.fst).Nodup
  node : List UInt8 -> Option DevNode

/-- The system in front of the code.  The files of the descriptors are of `size`
bytes. -/
def UsbBus.system (bus : UsbBus) (size : Nat) : UsbSystem where
  entries := some (bus.entries.map Prod.fst)
  directory name :=
    ((bus.entries.lookup name).join.map fun d => d.sysfs size).getD noDevice
  stat path := (bus.node path).map DevNode.stat
  opens path := (bus.node path).any DevNode.opens

/-- The code has room for the descriptors, and one call of `read` delivers all of
them. -/
structure UsbDevice.Readable (d : UsbDevice) (size : Nat) : Prop where
  fits : d.tree.Fits
  pieces : d.pieces = [d.tree.bytes]
  room : d.tree.bytes.length ≤ size

/-- None of the devices is one that the code cannot read. -/
structure UsbBus.Readable (bus : UsbBus) (size : Nat) : Prop where
  size_lt : size < 2 ^ 31
  devices : forall name d, (name, some d) ∈ bus.entries -> d.Readable size

/-- A filter accepts any number, or one. -/
def UusbType.passes (type : UusbType) (device : Option UsbDevice) : Bool :=
  (type.idVendor == 0 || (device.map fun d => d.type.idVendor) == some type.idVendor) &&
    (type.idProduct == 0 || (device.map fun d => d.type.idProduct) == some type.idProduct)

/-- The first entry that is not hidden and passes the filter. -/
def UsbBus.chosen (bus : UsbBus) (type : UusbType) :
    Option (List UInt8 × Option UsbDevice) :=
  bus.entries.find? fun entry => entry.1.head? != some 0x2e && type.passes entry.2

def DevNode.serves (node : DevNode) (d : UsbDevice) : Bool :=
  node.isChr && node.major == d.major && node.minor == d.minor && node.opens

/-- A device is opened if it has its node. -/
def UsbBus.openedAs (bus : UsbBus) (name : List UInt8) (d : UsbDevice) :
    Option UsbOpened :=
  if (bus.node (devPath d.devaddr)).any (fun node => node.serves d) then
    some {
      sysfsDir := name
      devPath := devPath d.devaddr
      type := d.type
      devaddr := d.devaddr
      dev := d.tree.dev }
  else none

/-- It is the entry chosen that is opened, and none if that is not a device. -/
def UsbBus.opened (bus : UsbBus) (type : UusbType) : Option UsbOpened :=
  (bus.chosen type).bind fun entry => entry.2.bind fun d => bus.openedAs entry.1 d

/-!
## Reading the attributes
-/

theorem length_decimalText {n : Nat} (h : n < 2 ^ 32) : (decimalText n).length ≤ 10 := by
  unfold decimalText
  split
  · decide
  · rw [List.length_map, List.length_reverse]
    exact Nat.digits_length_le_iff (by decide) n |>.mpr (by lia)

/-- The digits of a number are all in one line. -/
theorem decimalText_in_line (n : Nat) :
    forall c, c ∈ decimalText n -> (c != 0x0a && c != 0x0d && c != 0) = true := by
  intro c hmem
  have hdigit := isDigitIn_decimalText n c hmem
  unfold isDigitIn at hdigit
  rw [Bool.and_eq_true, decide_eq_true_eq, decide_eq_true_eq] at hdigit
  have hnot : forall d : UInt8, d.toNat < 0x30 -> (c != d) = true := by
    intro d hlt
    apply bne_iff_ne.mpr
    intro heq
    rw [heq] at hdigit
    lia
  rw [hnot 0x0a (by decide), hnot 0x0d (by decide), hnot 0 (by decide)]
  rfl

theorem sysfsReadLine_line {line : List UInt8} (hlen : line.length ≤ 1023)
    (hall : forall c, c ∈ line -> (c != 0x0a && c != 0x0d && c != 0) = true) :
    sysfsReadLine (some (line ++ [0x0a])) = some line := by
  have hcontent : sysfsReadLine (some (line ++ [0x0a])) =
      some (((line ++ [0x0a]).take 1023).takeWhile
        fun c => c != 0x0a && c != 0x0d && c != 0) := by
    cases line <;> rfl
  rw [hcontent, List.take_append, List.take_of_length_le hlen,
    List.takeWhile_append_of_pos hall]
  cases 1023 - line.length with
  | zero => rw [List.take_zero, List.takeWhile_nil, List.append_nil]
  | succ n =>
      rw [List.take_succ_cons, List.takeWhile_cons_of_neg (by decide), List.append_nil]

theorem sysfsReadDecimal_decimalText {n : Nat} (h : n < 0xFFFFFFFF) :
    sysfsReadDecimal (some (decimalText n ++ [0x0a])) = n := by
  have hlen := length_decimalText (n := n) (by lia)
  rw [sysfsReadDecimal, sysfsReadLine_line (by lia) (decimalText_in_line n)]
  dsimp only
  rw [strtoulIn_decimalText (by lia), if_neg (by
    simp only [ne_eq, not_true_eq_false, false_or]
    lia)]

theorem decimalText_no_colon (n : Nat) :
    forall c, c ∈ decimalText n -> (c != 0x3a) = true := by
  intro c hmem
  have hdigit := isDigitIn_decimalText n c hmem
  apply bne_iff_ne.mpr
  intro heq
  rw [heq] at hdigit
  exact absurd hdigit (by decide)

theorem sysfsGetDevT_decimalText {major minor : Nat} (hmajor : major < 2 ^ 32)
    (hminor : minor < 2 ^ 32) :
    sysfsGetDevT (some (decimalText major ++ 0x3a :: decimalText minor ++ [0x0a])) =
      some (makedev major minor) := by
  have hline : forall c, c ∈ decimalText major ++ 0x3a :: decimalText minor ->
      (c != 0x0a && c != 0x0d && c != 0) = true := by
    intro c hmem
    rcases List.mem_append.mp hmem with hmem | hmem
    · exact decimalText_in_line major c hmem
    · rcases List.mem_cons.mp hmem with heq | hmem
      · rw [heq]
        decide
      · exact decimalText_in_line minor c hmem
  have hlen : (decimalText major ++ 0x3a :: decimalText minor).length ≤ 1023 := by
    have h1 := length_decimalText hmajor
    have h2 := length_decimalText hminor
    rw [List.length_append, List.length_cons]
    lia
  have hfront : (decimalText major ++ 0x3a :: decimalText minor).dropWhile (· == 0x3a) =
      decimalText major ++ 0x3a :: decimalText minor := by
    cases hdigits : decimalText major with
    | nil => exact absurd hdigits (decimalText_ne_nil major)
    | cons c rest =>
        have hc := decimalText_no_colon major c (by rw [hdigits]; exact List.mem_cons_self)
        rw [List.cons_append, List.dropWhile_cons_of_neg (by
          rw [beq_iff_eq]
          exact bne_iff_ne.mp hc)]
  have htake : (decimalText major ++ 0x3a :: decimalText minor).takeWhile (· != 0x3a) =
      decimalText major := by
    rw [List.takeWhile_append_of_pos (decimalText_no_colon major),
      List.takeWhile_cons_of_neg (by decide), List.append_nil]
  have hdrop : ((decimalText major ++ 0x3a :: decimalText minor).dropWhile
      (· != 0x3a)).drop 1 = decimalText minor := by
    rw [List.dropWhile_append_of_pos (decimalText_no_colon major),
      List.dropWhile_cons_of_neg (by decide), List.drop_succ_cons, List.drop_zero]
  simp only [sysfsGetDevT, sysfsReadLine_line hlen hline]
  rw [hfront, hdrop, htake, if_neg (by simp), if_neg (decimalText_ne_nil minor),
    strtoul0_decimalText (by lia), strtoul0_decimalText (by lia), wrap32_of_lt hmajor,
    wrap32_of_lt hminor]

theorem makedev_inj_iff (a b c d : UInt32) :
    makedev a.toNat b.toNat = makedev c.toNat d.toNat ↔ a = c ∧ b = d := by
  have ha := a.toNat_lt
  have hb := b.toNat_lt
  have hc := c.toNat_lt
  have hd := d.toNat_lt
  rw [← UInt32.toNat_inj, ← UInt32.toNat_inj, makedev, makedev]
  constructor
  · intro h
    constructor <;> lia
  · intro h
    rw [h.1, h.2]

section

variable {bus : UsbBus} {size : Nat} {type : UusbType} {d : UsbDevice}
  {name : List UInt8}

theorem uusbIdentifyDevice_sysfs : uusbIdentifyDevice (d.sysfs size) = d.type := by
  have hvendor := sysfsReadHexadecimal_map (some d.type.idVendor)
  have hproduct := sysfsReadHexadecimal_map (some d.type.idProduct)
  rw [Option.map_some, Option.elim_some] at hvendor hproduct
  simp only [uusbIdentifyDevice, UsbDevice.sysfs, hvendor, hproduct, UInt16.ofNat_toNat]

/-- A device is attached if the node at its path is a character device with its
numbers. -/
theorem uusbAttachDevice_sysfs (hdir : (bus.system size).directory name = d.sysfs size) :
    uusbAttachDevice (bus.system size) name =
      if (bus.node (devPath d.devaddr)).any
          (fun node => node.isChr && node.major == d.major && node.minor == d.minor) then
        some d.devaddr
      else none := by
  have hbus := d.devaddr.bus.toNat_lt
  have hdev := d.devaddr.dev.toNat_lt
  have haddr : (UusbDevaddr.mk (UInt16.ofNat (sysfsReadDecimal (d.sysfs size).busnum))
      (UInt16.ofNat (sysfsReadDecimal (d.sysfs size).devnum))) = d.devaddr := by
    simp only [UsbDevice.sysfs]
    rw [sysfsReadDecimal_decimalText (by lia), sysfsReadDecimal_decimalText (by lia),
      UInt16.ofNat_toNat, UInt16.ofNat_toNat]
  have hdevT : sysfsGetDevT (d.sysfs size).dev =
      some (makedev d.major.toNat d.minor.toNat) :=
    sysfsGetDevT_decimalText d.major.toNat_lt d.minor.toNat_lt
  simp only [uusbAttachDevice, hdir]
  rw [haddr, hdevT]
  simp only [UsbBus.system]
  cases hnode : bus.node (devPath d.devaddr) with
  | none => rfl
  | some node =>
      simp only [Option.map_some, Option.any_some, DevNode.stat, ne_eq, makedev_inj_iff]
      by_cases hchr : node.isChr = true <;> by_cases hmajor : node.major = d.major <;>
        by_cases hminor : node.minor = d.minor <;>
        simp [hchr, hmajor, hminor]

theorem uusbProcessDescriptors_tree (h : d.Readable size) (hsize : size < 2 ^ 31)
    {fresh : List UInt8} (hfresh : fresh.length = size) (beyond : Nat -> UInt8) :
    exists enough, forall fuel, enough ≤ fuel ->
      uusbProcessDescriptors (pieceFile size d.pieces) fresh beyond fuel =
        some (.done (true, d.tree.dev)) := by
  have hroom := h.room
  rw [h.pieces]
  have hnonempty : forall piece, piece ∈ [d.tree.bytes] -> piece ≠ [] := by
    intro piece hmem
    rw [List.mem_singleton.mp hmem, DeviceTree.bytes, dtBytes]
    exact List.cons_ne_nil _ _
  have hpieces : Delivers (pieceFile size [d.tree.bytes]) size [d.tree.bytes] := by
    refine pieceFile_delivers hnonempty ?_
    rw [List.flatten_singleton]
    exact hroom
  have hone := assemblesPieces_of_single hpieces (Nat.le_refl 1) (by
    intro piece hmem
    rw [List.mem_singleton.mp hmem]
    lia)
  rcases hone fresh beyond hfresh with ⟨rounds, data, behind, _, _, hprocess⟩
  rw [List.flatten_singleton] at hprocess
  rcases DeviceTree.walk h.fits (by lia) behind with ⟨last, hlast, hdev, hend⟩
  have hguard : ¬ uusbParseGuard d.tree.bytes.length last := by
    unfold uusbParseGuard
    rw [wrap32_of_lt (by rcases hend with hend | hend <;> lia)]
    rcases hend with hend | hend <;> lia
  rcases Loop.run_of_reaches hlast (uusbParseStep_of_end hguard) with ⟨steps, hrun⟩
  refine ⟨max rounds steps, fun fuel hfuel => ?_⟩
  have hparse : uusbParseDescriptors (memoryOf d.tree.bytes behind) d.tree.bytes.length
      fuel = some (.returned true last) :=
    Loop.run_mono hrun ((Nat.le_max_right rounds steps).trans hfuel)
  rw [hprocess fuel ((Nat.le_max_left rounds steps).trans hfuel), hparse, Option.map_some,
    UusbParseEnd.outcome, hdev]

theorem usbOpen_noDevice (hdir : (bus.system size).directory name = noDevice)
    {fresh : List UInt8} {beyond : Nat -> UInt8} {fuel : Nat} :
    usbOpen (bus.system size) name fresh beyond fuel = some (.done none) := by
  have hattach : uusbAttachDevice (bus.system size) name = none := by
    rw [uusbAttachDevice, hdir]
    rfl
  rw [usbOpen, hattach]

theorem usbOpen_device (hdir : (bus.system size).directory name = d.sysfs size)
    (h : d.Readable size) (hsize : size < 2 ^ 31) {fresh : List UInt8}
    (hfresh : fresh.length = size) (beyond : Nat -> UInt8) :
    exists enough, forall fuel, enough ≤ fuel ->
      usbOpen (bus.system size) name fresh beyond fuel =
        some (.done (bus.openedAs name d)) := by
  rcases uusbProcessDescriptors_tree h hsize hfresh beyond with
    ⟨enough, hprocess⟩
  refine ⟨enough, fun fuel hfuel => ?_⟩
  rw [usbOpen, uusbAttachDevice_sysfs hdir, UsbBus.openedAs]
  cases hnode : bus.node (devPath d.devaddr) with
  | none => rfl
  | some node =>
      have hopens : (bus.system size).opens (devPath d.devaddr) = node.opens := by
        simp only [UsbBus.system, hnode, Option.any_some]
      rw [Option.any_some, Option.any_some, DevNode.serves]
      cases hattached : node.isChr && node.major == d.major && node.minor == d.minor with
      | false => simp only [Bool.false_eq_true, if_false, Bool.false_and]
      | true =>
          have hdescriptors : (d.sysfs size).descriptors = pieceFile size d.pieces :=
            rfl
          simp only [if_true, hdir, hdescriptors, hprocess fuel hfuel, hopens,
            Option.map_some, Outcome.map, uusbIdentifyDevice_sysfs, true_and, Bool.true_and]

/-!
## The search
-/

theorem usbFindDevice_eq_find? (matchFn : List UInt8 -> Bool)
    (names : List (List UInt8)) :
    usbFindDevice matchFn names =
      names.find? fun name => name.head? != some 0x2e && matchFn name := by
  induction names with
  | nil => rfl
  | cons name rest ih =>
      rw [usbFindDevice, ih]
      by_cases hidden : name.head? = some 0x2e
      · rw [if_pos hidden, List.find?_cons_of_neg]
        rw [hidden]
        simp
      · have hshown : (name.head? != some 0x2e) = true := bne_iff_ne.mpr hidden
        rw [if_neg hidden]
        cases hmatch : matchFn name with
        | true =>
            rw [if_pos rfl, List.find?_cons_of_pos]
            rw [hshown, hmatch]
            rfl
        | false =>
            rw [if_neg Bool.false_ne_true, List.find?_cons_of_neg]
            rw [hshown, hmatch]
            exact Bool.false_ne_true

theorem directory_of_mem (size : Nat) {entry : List UInt8 × Option UsbDevice}
    (hmem : entry ∈ bus.entries) :
    (bus.system size).directory entry.1 =
      (entry.2.map fun d => d.sysfs size).getD noDevice := by
  rcases List.mem_iff_append.mp hmem with ⟨front, back, hsplit⟩
  have hlookup : bus.entries.lookup entry.1 = some entry.2 := by
    apply List.lookup_eq_some_iff.mpr
    refine ⟨front, back, hsplit, fun other hother => ?_⟩
    have hnodup := bus.nodup
    rw [hsplit, List.map_append, List.map_cons] at hnodup
    apply bne_iff_ne.mpr
    exact ((List.nodup_append.mp hnodup).2.2 other.1 (List.mem_map_of_mem hother) entry.1
      List.mem_cons_self).symm
  simp only [UsbBus.system, hlookup]
  rfl

theorem usbMatchType_entry (device : Option UsbDevice) :
    usbMatchType ((device.map fun d => d.sysfs size).getD noDevice).toSysfsDir type =
      type.passes device := by
  rw [Bool.eq_iff_iff]
  have hids := usbMatchType_iff
    { idVendor := device.map fun d => d.type.idVendor
      idProduct := device.map fun d => d.type.idProduct } type
  have hdir : ((device.map fun d => d.sysfs size).getD noDevice).toSysfsDir =
      UsbIds.sysfsDir {
        idVendor := device.map fun d => d.type.idVendor
        idProduct := device.map fun d => d.type.idProduct } := by
    cases device <;> rfl
  rw [hdir, hids, UusbType.passes, Bool.and_eq_true, Bool.or_eq_true, Bool.or_eq_true,
    beq_iff_eq, beq_iff_eq, beq_iff_eq, beq_iff_eq]

theorem usbFindDevice_chosen (bus : UsbBus) (size : Nat) (type : UusbType) :
    usbFindDevice
        (fun name => usbMatchType ((bus.system size).directory name).toSysfsDir type)
        (bus.entries.map Prod.fst) =
      (bus.chosen type).map Prod.fst := by
  rw [usbFindDevice_eq_find?, List.find?_map, UsbBus.chosen]
  apply congrArg
  apply List.find?_congr
  intro entry hmem
  rw [Function.comp_apply, directory_of_mem size hmem, usbMatchType_entry]

end

/-- Whatever the memory that the descriptors are read to held before. -/
theorem usbOpenType_ends (bus : UsbBus) (type : UusbType) {size : Nat}
    (h : bus.Readable size) {fresh : List UInt8} (hfresh : fresh.length = size)
    (beyond : Nat -> UInt8) :
    exists enough, forall fuel, enough ≤ fuel ->
      usbOpenType (bus.system size) type fresh beyond fuel =
        some (.done (bus.opened type)) := by
  cases hchosen : bus.chosen type with
  | none =>
      refine ⟨0, fun fuel _ => ?_⟩
      have hfound := usbFindDevice_chosen bus size type
      rw [hchosen, Option.map_none] at hfound
      rw [usbOpenType, UsbBus.opened, hchosen]
      simp only [UsbBus.system] at hfound ⊢
      rw [hfound]
      rfl
  | some entry =>
      rcases entry with ⟨name, device⟩
      have hmem := List.mem_of_find?_eq_some hchosen
      have hdir := directory_of_mem size hmem
      have hfound := usbFindDevice_chosen bus size type
      rw [hchosen, Option.map_some] at hfound
      have hopen : forall fuel, usbOpenType (bus.system size) type fresh beyond fuel =
          usbOpen (bus.system size) name fresh beyond fuel := by
        intro fuel
        rw [usbOpenType]
        simp only [UsbBus.system] at hfound ⊢
        rw [hfound]
      simp only [hopen]
      rw [UsbBus.opened, hchosen, Option.bind_some]
      cases device with
      | none => exact ⟨0, fun fuel _ => usbOpen_noDevice hdir⟩
      | some d => exact usbOpen_device hdir (h.devices name d hmem) h.size_lt hfresh beyond

/-- With enough fuel the search and the opening end in this way. -/
def OpenEnds (sys : UsbSystem) (type : UusbType) (fresh : List UInt8)
    (beyond : Nat -> UInt8) (result : Option UsbOpened) : Prop :=
  exists enough, forall fuel, enough ≤ fuel ->
    usbOpenType sys type fresh beyond fuel = some (.done result)

/-- An entry that the search stops at. -/
def UusbType.StopsAt (type : UusbType) (entry : List UInt8 × Option UsbDevice) : Prop :=
  entry.1.head? ≠ some 0x2e ∧ type.passes entry.2 = true

theorem UusbType.stopsAt_iff (type : UusbType) (entry : List UInt8 × Option UsbDevice) :
    (entry.1.head? != some 0x2e && type.passes entry.2) = true ↔ type.StopsAt entry := by
  rw [Bool.and_eq_true, bne_iff_ne, UusbType.StopsAt]

/-- The entry that the search stops at is the first one of its kind. -/
theorem UsbBus.chosen_eq_some_iff (bus : UsbBus) (type : UusbType)
    (entry : List UInt8 × Option UsbDevice) :
    bus.chosen type = some entry ↔ type.StopsAt entry ∧
      exists front back, bus.entries = front ++ entry :: back ∧
        forall other, other ∈ front -> ¬ type.StopsAt other := by
  rw [UsbBus.chosen, List.find?_eq_some_iff_append, UusbType.stopsAt_iff]
  simp only [Bool.not_eq_true', Bool.eq_false_iff, ne_eq, UusbType.stopsAt_iff]

/-- A run of `usb_open_type` opens what the bus opens. -/
theorem openEnds_iff (bus : UsbBus) (type : UusbType) {size : Nat}
    (h : bus.Readable size) {fresh : List UInt8} (hfresh : fresh.length = size)
    (beyond : Nat -> UInt8) (result : Option UsbOpened) :
    OpenEnds (bus.system size) type fresh beyond result ↔ bus.opened type = result := by
  rcases usbOpenType_ends bus type h hfresh beyond with ⟨enough, hends⟩
  constructor
  · rintro ⟨more, hmore⟩
    have hsame := hends (max enough more) (Nat.le_max_left enough more)
    rw [hmore _ (Nat.le_max_right enough more)] at hsame
    injection hsame with hsame
    injection hsame with hsame
    exact hsame.symm
  · intro hopened
    rw [← hopened]
    exact ⟨enough, hends⟩

/-- A device is opened exactly if it is the first entry that the search stops at, and the
node at its path is the one with its numbers; it is then opened with its own numbers and
its own tree. -/
theorem usbOpenType_opens_iff (bus : UsbBus) (type : UusbType) {size : Nat}
    (h : bus.Readable size) {fresh : List UInt8} (hfresh : fresh.length = size)
    (beyond : Nat -> UInt8) (opened : UsbOpened) :
    OpenEnds (bus.system size) type fresh beyond (some opened) ↔
      exists front back name d node, bus.entries = front ++ (name, some d) :: back ∧
        (forall entry, entry ∈ front -> ¬ type.StopsAt entry) ∧
        type.StopsAt (name, some d) ∧
        bus.node (devPath d.devaddr) = some node ∧ node.serves d = true ∧
        opened = {
          sysfsDir := name
          devPath := devPath d.devaddr
          type := d.type
          devaddr := d.devaddr
          dev := d.tree.dev } := by
  rw [openEnds_iff bus type h hfresh beyond]
  constructor
  · intro hbus
    rcases Option.bind_eq_some_iff.mp hbus with ⟨⟨name, device⟩, hchosen, hdevice⟩
    rcases Option.bind_eq_some_iff.mp hdevice with ⟨d, rfl, hopened⟩
    rcases (bus.chosen_eq_some_iff type _).mp hchosen with ⟨hstop, front, back, hsplit, hno⟩
    rw [UsbBus.openedAs] at hopened
    split at hopened
    · rename_i hany
      rcases (Option.any_eq_true_iff_get _ _).mp hany with ⟨hnode, hserves⟩
      injection hopened with hopened
      exact ⟨front, back, name, d, _, hsplit, hno, hstop, (Option.some_get hnode).symm,
        hserves, hopened.symm⟩
    · cases hopened
  · rintro ⟨front, back, name, d, node, hsplit, hno, hstop, hnode, hserves, rfl⟩
    have hchosen : bus.chosen type = some (name, some d) :=
      (bus.chosen_eq_some_iff type _).mpr ⟨hstop, front, back, hsplit, hno⟩
    rw [UsbBus.opened, hchosen, Option.bind_some, Option.bind_some, UsbBus.openedAs, hnode,
      Option.any_some, if_pos hserves]

def tokenDevice : UsbDevice where
  type := { idVendor := 0x1050, idProduct := 0x0407 }
  devaddr := { bus := 1, dev := 12 }
  major := 189
  minor := 11
  tree := tokenTree
  pieces := [tokenTree.bytes]

/-- Its directory is behind those of a hub and of an interface. -/
def tokenBus : UsbBus where
  entries := [
    ("usb1".toUTF8.toList, some {
      type := { idVendor := 0x1d6b, idProduct := 0x0002 }
      devaddr := { bus := 1, dev := 1 }
      major := 189
      minor := 0
      tree := tokenTree
      pieces := [tokenTree.bytes] }),
    ("1-0:1.0".toUTF8.toList, none),
    ("1-4".toUTF8.toList, some tokenDevice)]
  nodup := by decide +kernel
  node path :=
    if path = "/dev/bus/usb/001/012".toUTF8.toList then
      some { isChr := true, major := 189, minor := 11, opens := true }
    else none

theorem tokenBus_readable : tokenBus.Readable 128 := by
  refine ⟨by decide, fun name d hmem => ?_⟩
  simp only [tokenBus, List.mem_cons, Prod.mk.injEq, Option.some.injEq, reduceCtorEq,
    and_false, List.not_mem_nil, or_false, false_or] at hmem
  rcases hmem with ⟨_, rfl⟩ | ⟨_, rfl⟩
  · exact ⟨by decide, rfl, by decide +kernel⟩
  · exact ⟨by decide, rfl, by decide +kernel⟩

theorem usbOpenType_opens_tokenBus :
    OpenEnds (tokenBus.system 128) { idVendor := 0x1050, idProduct := 0 }
      (List.replicate 128 0) (fun _ => 0) (some {
        sysfsDir := "1-4".toUTF8.toList
        devPath := "/dev/bus/usb/001/012".toUTF8.toList
        type := { idVendor := 0x1050, idProduct := 0x0407 }
        devaddr := { bus := 1, dev := 12 }
        dev := tokenTree.dev }) := by
  refine (usbOpenType_opens_iff tokenBus { idVendor := 0x1050, idProduct := 0 }
    tokenBus_readable List.length_replicate (fun _ => 0) _).mpr
      ⟨tokenBus.entries.take 2, [], "1-4".toUTF8.toList, tokenDevice,
        { isChr := true, major := 189, minor := 11, opens := true }, rfl, ?_, ?_, ?_, rfl, ?_⟩
  · intro entry hmem hstop
    rcases List.mem_pair.mp hmem with rfl | rfl
    · exact absurd hstop.2 (by decide)
    · exact absurd hstop.2 (by decide)
  · exact ⟨by decide +kernel, by decide⟩
  · decide +kernel
  · decide +kernel

end Usb
end UtokenDecrypt
