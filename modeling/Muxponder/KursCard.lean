import Mathlib.Data.List.Pairwise
import Muxponder.KursProfile
import Muxponder.KursUserPrefs
import Muxponder.Lib.Variables

/-!
# The Variables of the Card

The variables that the tables of `kurs_sections.h`, the preferences of `main.c` and its tasks
have in common: those of `card`, of its interfaces, of `_aps` and `board_leds`, and the
variables of their own. A `CardMemory` is the linker's part: an address for each of them, in
agreement with the layout that the callbacks compute with.

## Main results

* `buildPreferencesList`: the objects that `build_preferences_list` registers.
* `cardMemory`: a place for all the variables.
-/

namespace Muxponder

open Memory

/-! ### The variables -/

/-- The limits of a quantity that is watched. -/
inductive Limit
  | criticalMin | warningMin | warningMax | criticalMax
  deriving DecidableEq, Repr

/-- The parts of a control. -/
inductive ControlPart
  | next | current | change
  deriving DecidableEq, Repr

/-- The variables there is one of. -/
inductive CardField
  | pid | serialNumber | hwNumber | swNumber | fpgaSwNumber
  | sysUptime | alarm1 | alarm2 | blockColor | blockState
  | temperature | temperatureLimit (l : Limit)
  | apsRequest | apsMode | apsProtectch | revertiveMode | wtrTimer | holdoffTimer
  | resetSettings | resetCounters | powerLed | statusLed
  | dummyU32 | dummyU64 | dummyFloat
  | save | restore | section3Changed
  | minMax0 | minMax40n | minMax99 | minMax100 | u32MinMax99
  deriving DecidableEq, Repr

/-- The variables there is one of for each interface. The text of a transceiver's part number
is that of its revision, `HN`, with `FN` behind it. -/
inductive PortField
  | destination | sfpVn | sfpSn | sfpHn
  | control (c : Control) (p : ControlPart)
  | rebootChange | thresholdMode | thresholdModeReset
  | transceiverState | capabilities | monitor | monitorRate
  | als | alsControl | protocolControl
  | pin (l : Limit) | pout (l : Limit)
  | sfpTemperature | sfpTemperatureLimit (l : Limit)
  | fecLoad | fecLoadLimit (l : Limit) | prefecBer | postfecBer | oduxAlarms
  | ledTx | ledRx | inInfo | inCat
  deriving DecidableEq, Repr

/-- A variable. -/
inductive CardVar
  | card (f : CardField)
  | port (f : PortField) (i : Fin INTERFACE_COUNT)
  deriving DecidableEq, Repr

/-- The number of bytes of a variable. -/
def CardField.size : CardField → UInt32
  | .pid | .hwNumber => 65
  | .serialNumber => 17
  | .swNumber => 33
  | .fpgaSwNumber | .dummyU64 => 8
  | .save | .restore | .section3Changed => 1
  | _ => 4

@[inherit_doc CardField.size]
def PortField.size : PortField → UInt32
  | .destination | .inInfo => 33
  | .sfpVn | .sfpSn => 17
  | .sfpHn => 16
  | .protocolControl => 12
  | _ => 4

@[inherit_doc CardField.size]
def CardVar.size : CardVar → UInt32
  | .card f => f.size
  | .port f _ => f.size

/-- The index of an interface as the code computes with it. -/
def ifIndex (i : Fin INTERFACE_COUNT) : UInt32 := UInt32.ofNat i

@[simp] theorem ifIndex_toNat (i : Fin INTERFACE_COUNT) : (ifIndex i).toNat = i.val :=
  UInt32.toNat_ofNat_of_lt' (lt_trans i.isLt (by decide))

/-- A part of a control of an interface. -/
abbrev CardVar.control (c : Control) (p : ControlPart) (i : Fin INTERFACE_COUNT) : CardVar :=
  .port (.control c p) i

/-! ### Their places -/

/-- Where the variables stand, as the layout has it that the callbacks compute with, and the
colour record of a parameter. -/
structure CardMemory (L : Layout) extends Placement CardVar CardVar.size where
  colorRecord : UInt32 → UInt32
  addr_ne_zero : ∀ v, addr v ≠ 0
  next_eq : ∀ c i, addr (.control c .next i) = L.next c (ifIndex i)
  current_eq : ∀ c i, addr (.control c .current i) = L.current c (ifIndex i)
  change_eq : ∀ c i, addr (.control c .change i) = L.change c (ifIndex i)
  thresholdMode_eq : ∀ i, addr (.port .thresholdMode i) = L.ofInterface (ifIndex i) L.thresholdMode
  transceiverState_eq : ∀ i,
    addr (.port .transceiverState i) = L.ofInterface (ifIndex i) L.transceiverState
  capabilities_eq : ∀ i, addr (.port .capabilities i) = L.ofInterface (ifIndex i) L.capabilities
  als_eq : ∀ i, addr (.port .als i) = L.ofInterface (ifIndex i) L.als
  save_eq : addr (.card .save) = L.save
  restore_eq : addr (.card .restore) = L.restore
  section3Changed_eq : addr (.card .section3Changed) = L.sectionParamChanged + 2

/-- `init_als_module` has been called: the pointers of the ports lead to their ALS objects. -/
def CardMemory.AlsReady {L : Layout} (C : CardMemory L) (m : Mem) : Prop :=
  ∀ i, m.load32 (C.addr (.port .als i)) + L.alsControl = C.addr (.port .alsControl i)

/-! ### The preferences -/

/-- The lines and the clients are numbered together, the clients first. -/
def clients : List (Fin INTERFACE_COUNT) := (List.finRange 16).map (Fin.castLE (by decide))

@[inherit_doc clients]
def lines : List (Fin INTERFACE_COUNT) := [16, 17]

/-- The limits in the order in which they are registered. -/
def limits : List Limit := [.criticalMin, .warningMin, .warningMax, .criticalMax]

/-- An object that is registered: a variable, and the number of its bytes that are kept. -/
structure Preference where
  object : CardVar
  size : UInt32
  deriving DecidableEq, Repr

/-- A variable with all of its bytes. -/
def Preference.whole (v : CardVar) : Preference := ⟨v, v.size⟩

/-- The preferences of an interface. -/
def interfacePreferences (i : Fin INTERFACE_COUNT) : List Preference :=
  List.flatten
    [[.whole (.port .destination i), .whole (.port .protocolControl i),
        .whole (.control .rate .current i), .whole (.port .thresholdMode i)],
      limits.map fun l => .whole (.port (.pin l) i),
      limits.map fun l => .whole (.port (.pout l) i),
      limits.map fun l => .whole (.port (.sfpTemperatureLimit l) i),
      [.whole (.control .serviceState .current i), .whole (.control .txDisable .current i),
        .whole (.control .loopbackMode .current i), .whole (.port .alsControl i)]]

/-- `build_preferences_list`: the objects in the order of their registration. From the fifth
client on it is the text of a port that is registered for its category. -/
def buildPreferencesList : List Preference :=
  List.flatten
    [[.whole (.card .pid), .whole (.card .serialNumber)],
      limits.map fun l => .whole (.card (.temperatureLimit l)),
      (clients ++ lines).map fun i => .whole (.port .inInfo i),
      (clients.take 4).map fun i => .whole (.port .inCat i),
      (clients.drop 4).map fun i => ⟨.port .inInfo i, 4⟩,
      lines.map fun i => .whole (.port .inCat i),
      (List.finRange INTERFACE_COUNT).flatMap interfacePreferences,
      [.whole (.card .apsMode), .whole (.card .apsProtectch), .whole (.card .revertiveMode),
        .whole (.card .wtrTimer), .whole (.card .holdoffTimer)],
      lines.flatMap fun i => [.whole (.port (.fecLoadLimit .criticalMin) i),
        .whole (.port (.fecLoadLimit .criticalMax) i),
        .whole (.port (.fecLoadLimit .warningMin) i),
        .whole (.port (.fecLoadLimit .warningMax) i)]]

/-- An object that is registered, at its address. -/
def CardMemory.object {L : Layout} (C : CardMemory L) (p : Preference) : Region :=
  ⟨C.addr p.object, p.size⟩

/-- `my_list` behind `build_preferences_list`. -/
def CardMemory.preferences {L : Layout} (C : CardMemory L) : PreferencesList :=
  buildPreferencesList.foldl (fun l p => (appendPreference l (C.addr p.object) p.size).1) .empty

variable {L : Layout} {C : CardMemory L}

/-- The objects of the list. -/
theorem preferences_nodes : C.preferences.nodes = buildPreferencesList.map C.object := by
  have hfold : C.preferences = (buildPreferencesList.map C.object).foldl
      (fun l r => (appendPreference l r.value r.size).1) .empty := by
    rw [List.foldl_map]
    rfl
  rw [hfold, nodes_foldl_appendPreference]
  exact List.nil_append _

/-- An object that is registered is no longer than its variable. -/
theorem preference_size_le : ∀ p ∈ buildPreferencesList, p.size.toNat ≤ p.object.size.toNat := by
  decide +kernel

/-- The record of the preferences has a size that fits a machine word. -/
theorem preferences_fits : C.preferences.Fits := by
  have hsize : totalSize C.preferences.nodes =
      (buildPreferencesList.map fun p => p.size.toNat).sum := by
    rw [preferences_nodes, totalSize, List.map_map]
    rfl
  have hsum : (buildPreferencesList.map fun p => p.size.toNat).sum < 10240 := by decide +kernel
  rw [PreferencesList.Fits, hsize]
  omega

/-! ### A place for the variables -/

/-- A number for each limit. -/
def Limit.index : Limit → UInt32
  | .criticalMin => 0
  | .warningMin => 1
  | .warningMax => 2
  | .criticalMax => 3

/-- The offset of a part of a control. -/
def ControlPart.offset : ControlPart → UInt32
  | .next => 0
  | .current => 4
  | .change => 8

/-- The offset of a control. -/
def controlOffset : Control → UInt32
  | .serviceState => 0x100
  | .txDisable => 0x140
  | .loopbackMode => 0x180
  | .rate => 0x1C0
  | .resetCounters => 0x200

/-- An address for the variables there is one of. -/
def CardField.place : CardField → UInt32
  | .pid => 0x1000
  | .serialNumber => 0x1080
  | .hwNumber => 0x1100
  | .swNumber => 0x1180
  | .fpgaSwNumber => 0x1200
  | .sysUptime => 0x1240
  | .alarm1 => 0x1244
  | .alarm2 => 0x1248
  | .blockColor => 0x124C
  | .blockState => 0x1250
  | .temperature => 0x1254
  | .temperatureLimit l => 0x1260 + 4 * l.index
  | .apsRequest => 0x1280
  | .apsMode => 0x1284
  | .apsProtectch => 0x1288
  | .revertiveMode => 0x128C
  | .wtrTimer => 0x1290
  | .holdoffTimer => 0x1294
  | .resetSettings => 0x1298
  | .resetCounters => 0x129C
  | .powerLed => 0x12A0
  | .statusLed => 0x12A4
  | .dummyU32 => 0x12C0
  | .dummyU64 => 0x12C8
  | .dummyFloat => 0x12D0
  | .save => 0x12E0
  | .restore => 0x12E1
  | .section3Changed => 0x12E2
  | .minMax0 => 0x1300
  | .minMax40n => 0x1304
  | .minMax99 => 0x1308
  | .minMax100 => 0x130C
  | .u32MinMax99 => 0x1310

/-- An offset for the variables of an interface. -/
def PortField.place : PortField → UInt32
  | .destination => 0x000
  | .sfpVn => 0x040
  | .sfpSn => 0x080
  | .sfpHn => 0x0C0
  | .control c p => controlOffset c + p.offset
  | .thresholdMode => 0x240
  | .thresholdModeReset => 0x244
  | .transceiverState => 0x248
  | .capabilities => 0x24C
  | .monitor => 0x250
  | .monitorRate => 0x254
  | .rebootChange => 0x258
  | .als => 0x25C
  | .alsControl => 0x260
  | .protocolControl => 0x270
  | .pin l => 0x280 + 4 * l.index
  | .pout l => 0x290 + 4 * l.index
  | .sfpTemperatureLimit l => 0x2A0 + 4 * l.index
  | .fecLoadLimit l => 0x2B0 + 4 * l.index
  | .sfpTemperature => 0x2C0
  | .fecLoad => 0x2C4
  | .prefecBer => 0x2C8
  | .postfecBer => 0x2CC
  | .oduxAlarms => 0x2D0
  | .ledTx => 0x2D4
  | .ledRx => 0x2D8
  | .inInfo => 0x300
  | .inCat => 0x340

/-- The layout of these places. -/
def cardLayout : Layout where
  interfaces := 0x10000
  sizeofInterface := 0x1000
  control := controlOffset
  transceiverState := 0x248
  capabilities := 0x24C
  als := 0x25C
  alsControl := 0
  thresholdMode := 0x240
  restore := 0x12E1
  save := 0x12E0
  sectionParamChanged := 0x12E0

/-- The places of all variables. -/
def CardVar.place : CardVar → UInt32
  | .card f => f.place
  | .port f i => cardLayout.ofInterface (ifIndex i) f.place

/-- The variables there is one of, in the order of their places. -/
def CardField.all : List CardField :=
  List.flatten
    [[.pid, .serialNumber, .hwNumber, .swNumber, .fpgaSwNumber, .sysUptime, .alarm1, .alarm2,
        .blockColor, .blockState, .temperature],
      limits.map .temperatureLimit,
      [.apsRequest, .apsMode, .apsProtectch, .revertiveMode, .wtrTimer, .holdoffTimer,
        .resetSettings, .resetCounters, .powerLed, .statusLed, .dummyU32, .dummyU64,
        .dummyFloat, .save, .restore, .section3Changed, .minMax0, .minMax40n, .minMax99,
        .minMax100, .u32MinMax99]]

/-- The variables of an interface, in the order of their places. -/
def PortField.all : List PortField :=
  List.flatten
    [[.destination, .sfpVn, .sfpSn, .sfpHn],
      [.serviceState, .txDisable, .loopbackMode, .rate, .resetCounters].flatMap fun c =>
        [.control c .next, .control c .current, .control c .change],
      [.thresholdMode, .thresholdModeReset, .transceiverState, .capabilities, .monitor,
        .monitorRate, .rebootChange, .als, .alsControl, .protocolControl],
      limits.map .pin, limits.map .pout, limits.map .sfpTemperatureLimit,
      limits.map .fecLoadLimit,
      [.sfpTemperature, .fecLoad, .prefecBer, .postfecBer, .oduxAlarms, .ledTx, .ledRx,
        .inInfo, .inCat]]

theorem CardField.mem_all (f : CardField) : f ∈ CardField.all := by
  cases f with
  | temperatureLimit l => cases l <;> decide +kernel
  | _ => decide +kernel

theorem PortField.mem_all (f : PortField) : f ∈ PortField.all := by
  cases f with
  | control c p => cases c <;> cases p <;> decide +kernel
  | pin l | pout l | sfpTemperatureLimit l | fecLoadLimit l => cases l <;> decide +kernel
  | _ => decide +kernel

section Row

variable {α : Type*} {place size : α → UInt32} {f g : α} {fs : List α}

/-- One object ends before another one starts. -/
def EndsBefore (place size : α → UInt32) (f g : α) : Prop :=
  (place f).toNat + (size f).toNat ≤ (place g).toNat

instance : Decidable (EndsBefore place size f g) := inferInstanceAs (Decidable (_ ≤ _))

instance : Trans (EndsBefore place size) (EndsBefore place size) (EndsBefore place size) :=
  ⟨fun hfg hgh => le_trans (le_trans hfg (Nat.le_add_right _ _)) hgh⟩

/-- Two objects, one behind the other. -/
def Behind (place size : α → UInt32) (f g : α) : Prop :=
  EndsBefore place size f g ∨ EndsBefore place size g f

instance : Std.Symm (Behind place size) := ⟨fun _ _ => Or.symm⟩

/-- Objects in a row are behind each other. -/
theorem behind_of_isChain (h : fs.IsChain (EndsBefore place size)) (hf : f ∈ fs) (hg : g ∈ fs)
    (hfg : f ≠ g) : Behind place size f g := by
  have hpair := List.isChain_iff_pairwise.mp h
  have hall : fs.Pairwise (Behind place size) := hpair.imp Or.inl
  exact hall.forall hf hg hfg

end Row

/-- The places of the variables there is one of. -/
theorem CardField.place_chain :
    CardField.all.IsChain (EndsBefore CardField.place CardField.size) := by
  decide +kernel

/-- They are in front of the interfaces. -/
theorem CardField.place_lt : ∀ f ∈ CardField.all,
    0 < f.place.toNat ∧ f.place.toNat + f.size.toNat ≤ 0x10000 := by
  decide +kernel

/-- The offsets of the variables of an interface. -/
theorem PortField.place_chain :
    PortField.all.IsChain (EndsBefore PortField.place PortField.size) := by
  decide +kernel

/-- They are inside the interface. -/
theorem PortField.place_lt : ∀ f ∈ PortField.all,
    0 < f.size.toNat ∧ f.place.toNat + f.size.toNat ≤ 0x1000 := by
  decide +kernel

/-- A place in an interface as a number. -/
theorem ofInterface_toNat (i : Fin INTERFACE_COUNT) {o : UInt32} (h : o.toNat < 0x1000) :
    (cardLayout.ofInterface (ifIndex i) o).toNat = 0x10000 + 0x1000 * i.val + o.toNat := by
  have hi : i.val < 18 := i.isLt
  have hidx : (ifIndex i).toNat = i.val := ifIndex_toNat i
  simp only [Layout.ofInterface, cardLayout, UInt32.toNat_add, UInt32.toNat_mul, hidx,
    UInt32.reduceToNat]
  omega

/-- The places of two variables. -/
theorem CardVar.place_behind {v w : CardVar} (h : v ≠ w) :
    Behind CardVar.place CardVar.size v w := by
  cases v with
  | card f =>
      have hf := f.place_lt f.mem_all
      cases w with
      | card g =>
          have hfg : Behind CardField.place CardField.size f g :=
            behind_of_isChain CardField.place_chain f.mem_all g.mem_all fun hfg =>
              h (by rw [hfg])
          exact hfg
      | port g j =>
          have hg := g.place_lt g.mem_all
          have hplace := ofInterface_toNat j (o := g.place) (by omega)
          left
          simp only [EndsBefore, CardVar.place, CardVar.size, hplace]
          omega
  | port f i =>
      have hf := f.place_lt f.mem_all
      have hfplace := ofInterface_toNat i (o := f.place) (by omega)
      cases w with
      | card g =>
          have hg := g.place_lt g.mem_all
          right
          simp only [EndsBefore, CardVar.place, CardVar.size, hfplace]
          omega
      | port g j =>
          have hg := g.place_lt g.mem_all
          have hgplace := ofInterface_toNat j (o := g.place) (by omega)
          by_cases hij : i = j
          · subst hij
            have hfg := behind_of_isChain PortField.place_chain f.mem_all g.mem_all fun hfg =>
              h (by rw [hfg])
            simp only [Behind, EndsBefore, CardVar.place, CardVar.size, hfplace, hgplace] at hfg ⊢
            omega
          · have hne : i.val ≠ j.val := fun hv => hij (Fin.ext hv)
            simp only [Behind, EndsBefore, CardVar.place, CardVar.size, hfplace, hgplace]
            omega

/-- The end of a variable. -/
theorem CardVar.place_lt (v : CardVar) :
    0 < v.place.toNat ∧ v.place.toNat + v.size.toNat ≤ 2 ^ 32 := by
  cases v with
  | card f =>
      have hf := f.place_lt f.mem_all
      exact ⟨hf.1, by simp only [CardVar.place, CardVar.size]; omega⟩
  | port f i =>
      have hi : i.val < 18 := i.isLt
      have hf := f.place_lt f.mem_all
      have hfplace := ofInterface_toNat i (o := f.place) (by omega)
      simp only [CardVar.place, CardVar.size, hfplace]
      omega

/-- **All variables have a place**, and the layout agrees with it. -/
def cardMemory : CardMemory cardLayout where
  addr := CardVar.place
  colorRecord := id
  apart := by
    intro v w hvw
    cases CardVar.place_behind hvw with
    | inl hlt => exact Region.disjoint_of_le hlt w.place_lt.2
    | inr hlt =>
        have hwv : Region.Disjoint ⟨w.place, w.size⟩ ⟨v.place, v.size⟩ :=
          Region.disjoint_of_le hlt v.place_lt.2
        exact hwv.symm
  addr_ne_zero := by
    intro v hv
    have hpos := v.place_lt.1
    rw [hv] at hpos
    simp at hpos
  next_eq := fun c i => congrArg (cardLayout.ofInterface (ifIndex i)) (add_zero (controlOffset c))
  current_eq := fun _ _ => (add_assoc _ _ _).symm
  change_eq := fun _ _ => (add_assoc _ _ _).symm
  thresholdMode_eq := fun _ => rfl
  transceiverState_eq := fun _ => rfl
  capabilities_eq := fun _ => rfl
  als_eq := fun _ => rfl
  save_eq := rfl
  restore_eq := rfl
  section3Changed_eq := rfl

end Muxponder
