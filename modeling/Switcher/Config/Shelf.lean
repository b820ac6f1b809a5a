import Switcher.Config.Parser
import Switcher.Lib.History

/-!
The parser as independent machines, one for each bus. An entry is placed where
the cursors stand when it is handled; what becomes of a bus and its devices
depends on the entries placed on that bus alone.
-/

namespace Switcher

open Lib.Program Lib.Interleaving Lib.Text Lib.History

/-- What an entry asks for. -/
inductive Setting where
  | busParameter (value : CString)
  | busType (handle : Option BusHandle)
  | devDriver (handle : Option DevHandle)
  | devParameter (value : CString)
  | unknown

def IniEntry.setting (e : IniEntry) : Setting :=
  if e.name.chars = iniBusParam then .busParameter e.value
  else if e.name.chars = iniBusType then
    .busType (if e.value.chars = iniBusTypeI2c then some .i2cLinux else none)
  else if e.name.chars = iniDevDrv then
    .devDriver
      (if e.value.chars = iniDrvPcf8574 then some .pcf8574
      else if e.value.chars = iniDrvPiface then some .piface
      else if e.value.chars = iniDrvMcp23017 then some .mcp23017
      else none)
  else if e.name.chars = iniDevParam then .devParameter e.value
  else .unknown

/-- The settings do not belong to the same key. -/
def Setting.Apart : Setting → Setting → Prop
  | .busParameter _, .busParameter _ => False
  | .busType _, .busType _ => False
  | .devDriver _, .devDriver _ => False
  | .devParameter _, .devParameter _ => False
  | _, _ => True

/-- The result of the handler for an entry. -/
def Setting.code : Setting → Int
  | .unknown => 0
  | _ => 1

/-- The cursors of the parser, and the part of the last section name that it
compares. -/
structure Cursor where
  last : List Char
  bus : Int
  dev : Int

def Cursor.start : Cursor := ⟨[], -1, -1⟩

def Cursor.enter (c : Cursor) (sectionName : CString) : Cursor :=
  if c.last = sectionName.chars.take maxIniEntryLen then c
  else if iniBus <+: sectionName.chars then
    ⟨sectionName.chars.take maxIniEntryLen, c.bus + 1, -1⟩
  else if iniDev <+: sectionName.chars then
    ⟨sectionName.chars.take maxIniEntryLen, c.bus, c.dev + 1⟩
  else
    ⟨sectionName.chars.take maxIniEntryLen, c.bus, c.dev⟩

def Cursor.after (c : Cursor) (entries : List IniEntry) : Cursor :=
  entries.foldl (fun c e => c.enter e.sectionName) c

structure Placed where
  setting : Setting
  bus : Int
  dev : Int

def IniEntry.placed (e : IniEntry) (c : Cursor) : Placed := ⟨e.setting, c.bus, c.dev⟩

/-- Every entry at the cursors it is handled with. -/
def place (c : Cursor) : List IniEntry → List Placed
  | [] => []
  | e :: rest => e.placed (c.enter e.sectionName) :: place (c.enter e.sectionName) rest

/-- A bus with its devices. -/
structure Shelf where
  bus : IoBus BusHandle
  devices : Fin maxIoDevices → IoDev DevHandle

def IoConfig.shelf (config : IoConfig BusHandle DevHandle) (b : Fin maxBusses) : Shelf :=
  ⟨config.busses b, fun d => config.devices (b, d)⟩

theorem ioConfig_ext {config config' : IoConfig BusHandle DevHandle}
    (hnum : config.numBusses = config'.numBusses)
    (hshelf : ∀ b, config.shelf b = config'.shelf b) : config = config' := by
  obtain ⟨num, busses, devices⟩ := config
  obtain ⟨num', busses', devices'⟩ := config'
  obtain rfl : num = num' := hnum
  have hbusses : busses = busses' := funext fun b => congrArg Shelf.bus (hshelf b)
  have hdevices : devices = devices' :=
    funext fun slot => congrFun (congrArg Shelf.devices (hshelf slot.1)) slot.2
  rw [hbusses, hdevices]

def Shelf.changeDev (shelf : Shelf) (dev : Int) (f : IoDev DevHandle → IoDev DevHandle) : Shelf :=
  { shelf with
    devices := fun d => if (d.val : Int) = dev then f (shelf.devices d) else shelf.devices d }

/-- What an entry does to its bus and, at the device cursor, to its device. `got`
says whether memory for the data was to be had. -/
def Shelf.put (shelf : Shelf) (got : Bool) (dev : Int) : Setting → Shelf
  | .busParameter value =>
      if shelf.bus.drvHandle.isSome then
        { shelf with
          bus := { shelf.bus with busData := if got then some (i2cBusData value) else none } }
      else shelf
  | .busType none => shelf
  | .busType (some handle) =>
      { shelf with bus := { shelf.bus with drvHandle := some handle } }
  | .devDriver none =>
      { shelf with bus := { shelf.bus with numDevices := shelf.bus.numDevices + 1 } }
  | .devDriver (some handle) =>
      { shelf.changeDev dev fun d => { d with drvHandle := some handle } with
        bus := { shelf.bus with numDevices := shelf.bus.numDevices + 1 } }
  | .devParameter value =>
      if shelf.bus.drvHandle.isSome then
        shelf.changeDev dev fun d =>
          { d with devBusData := if got then some (i2cDevData value) else none }
      else shelf
  | .unknown => shelf

def Shelf.fill (shelf : Shelf) (entries : List Placed) : Shelf :=
  entries.foldl (fun shelf p => shelf.put true p.dev p.setting) shelf

/-- The entries placed on a bus. -/
def onShelf (b : Fin maxBusses) (entries : List Placed) : List Placed :=
  entries.filter fun p => p.bus = b.val

/-- The shelf of a bus once the entries are handled, if memory does not run out. -/
def shelfOf (config : IoConfig BusHandle DevHandle) (entries : List Placed)
    (b : Fin maxBusses) : Shelf :=
  (config.shelf b).fill (onShelf b entries)

/-- The shelf is as intended, except that an allocation may have failed. -/
structure AsIntended {κ : Type} (K : Kernel κ) (ideal actual : Shelf) : Prop where
  numDevices : actual.bus.numDevices = ideal.bus.numDevices
  busHandle : actual.bus.drvHandle = ideal.bus.drvHandle
  devHandle : ∀ d, (actual.devices d).drvHandle = (ideal.devices d).drvHandle
  same : K.Allocates → actual = ideal

section AsIntended

variable {κ : Type} {K : Kernel κ} {ideal actual : Shelf}

theorem AsIntended.changeDev (h : AsIntended K ideal actual) (dev : Int)
    {f g : IoDev DevHandle → IoDev DevHandle}
    (hhandle : ∀ d d' : IoDev DevHandle, d'.drvHandle = d.drvHandle →
      (g d').drvHandle = (f d).drvHandle)
    (hsame : K.Allocates → g = f) :
    AsIntended K (ideal.changeDev dev f) (actual.changeDev dev g) := by
  refine ⟨h.numDevices, h.busHandle, ?_, ?_⟩
  · intro d
    by_cases hd : (d.val : Int) = dev
    · simp only [Shelf.changeDev, if_pos hd]
      exact hhandle _ _ (h.devHandle d)
    · simp only [Shelf.changeDev, if_neg hd]
      exact h.devHandle d
  · intro hK
    rw [h.same hK, hsame hK]

/-- Handling an entry, with or without memory for its data. -/
theorem AsIntended.put (h : AsIntended K ideal actual) {got : Bool}
    (hgot : K.Allocates → got = true) (dev : Int) (setting : Setting) :
    AsIntended K (ideal.put true dev setting) (actual.put got dev setting) := by
  have hsome : actual.bus.drvHandle.isSome = ideal.bus.drvHandle.isSome := by rw [h.busHandle]
  have hsame : K.Allocates → actual.put got dev setting = ideal.put true dev setting := by
    intro hK
    rw [h.same hK, hgot hK]
  cases setting with
  | busParameter value =>
      refine ⟨?_, ?_, ?_, hsame⟩
      · simp only [Shelf.put, hsome]
        split <;> exact h.numDevices
      · simp only [Shelf.put, hsome]
        split <;> exact h.busHandle
      · intro d
        simp only [Shelf.put, hsome]
        split <;> exact h.devHandle d
  | busType handle =>
      cases handle with
      | none => exact h
      | some handle => exact ⟨h.numDevices, rfl, h.devHandle, hsame⟩
  | devDriver handle =>
      have hcount : actual.bus.numDevices + 1 = ideal.bus.numDevices + 1 := by rw [h.numDevices]
      cases handle with
      | none => exact ⟨hcount, h.busHandle, h.devHandle, hsame⟩
      | some handle =>
          have hdev := h.changeDev dev (f := fun d => { d with drvHandle := some handle })
            (g := fun d => { d with drvHandle := some handle }) (fun _ _ _ => rfl) fun _ => rfl
          exact ⟨hcount, h.busHandle, hdev.devHandle, hsame⟩
  | devParameter value =>
      have hdev := h.changeDev dev
        (f := fun d => { d with devBusData := some (i2cDevData value) })
        (g := fun d => { d with devBusData := if got then some (i2cDevData value) else none })
        (fun _ _ heq => heq) fun hK => by rw [hgot hK]; rfl
      refine ⟨?_, ?_, ?_, hsame⟩
      · simp only [Shelf.put, hsome]
        split <;> exact h.numDevices
      · simp only [Shelf.put, hsome]
        split <;> exact h.busHandle
      · intro d
        simp only [Shelf.put, hsome]
        split
        · exact hdev.devHandle d
        · exact h.devHandle d
  | unknown => exact h

end AsIntended

section Cursors

@[simp] theorem place_nil (c : Cursor) : place c [] = [] := rfl

theorem place_append (c : Cursor) (a b : List IniEntry) :
    place c (a ++ b) = place c a ++ place (c.after a) b := by
  induction a generalizing c with
  | nil => rfl
  | cons e rest ih =>
      rw [List.cons_append, place, ih, place, List.cons_append]
      rfl

theorem after_append (c : Cursor) (a b : List IniEntry) :
    c.after (a ++ b) = (c.after a).after b := by
  simp [Cursor.after]

theorem place_concat (c : Cursor) (entries : List IniEntry) (e : IniEntry) :
    place c (entries ++ [e]) =
      place c entries ++ [e.placed ((c.after entries).enter e.sectionName)] := by
  rw [place_append]
  rfl

theorem after_concat (c : Cursor) (entries : List IniEntry) (e : IniEntry) :
    c.after (entries ++ [e]) = (c.after entries).enter e.sectionName := by
  rw [after_append]
  rfl

theorem enter_last (c : Cursor) (sectionName : CString) :
    (c.enter sectionName).last = sectionName.chars.take maxIniEntryLen := by
  unfold Cursor.enter
  split
  · assumption
  · split
    · rfl
    · split <;> rfl

/-- Only a section change moves the cursors. -/
theorem enter_enter (c : Cursor) (sectionName : CString) :
    (c.enter sectionName).enter sectionName = c.enter sectionName := by
  rw [Cursor.enter.eq_1 (c.enter sectionName), if_pos (enter_last c sectionName)]

end Cursors

section Shelves

theorem onShelf_concat (b : Fin maxBusses) (entries : List Placed) (p : Placed) :
    onShelf b (entries ++ [p]) =
      if p.bus = b.val then onShelf b entries ++ [p] else onShelf b entries := by
  by_cases hb : p.bus = b.val
  · simp [onShelf, hb]
  · simp [onShelf, hb]

theorem fill_append (shelf : Shelf) (l m : List Placed) :
    shelf.fill (l ++ m) = (shelf.fill l).fill m := List.foldl_append

theorem fill_concat (shelf : Shelf) (entries : List Placed) (p : Placed) :
    shelf.fill (entries ++ [p]) = (shelf.fill entries).put true p.dev p.setting := by
  simp [Shelf.fill]

theorem shelfOf_concat_same (config : IoConfig BusHandle DevHandle) (entries : List Placed)
    {p : Placed} {b : Fin maxBusses} (hb : p.bus = b.val) :
    shelfOf config (entries ++ [p]) b = (shelfOf config entries b).put true p.dev p.setting := by
  rw [shelfOf, onShelf_concat, if_pos hb, fill_concat]
  rfl

theorem shelfOf_concat_other (config : IoConfig BusHandle DevHandle) (entries : List Placed)
    {p : Placed} {b : Fin maxBusses} (hb : p.bus ≠ b.val) :
    shelfOf config (entries ++ [p]) b = shelfOf config entries b := by
  rw [shelfOf, onShelf_concat, if_neg hb]
  rfl

theorem shelf_setBus_same (config : IoConfig BusHandle DevHandle) (b : Fin maxBusses)
    (bus : IoBus BusHandle) :
    (config.setBus b bus).shelf b = { config.shelf b with bus := bus } := by
  simp [IoConfig.shelf, IoConfig.setBus]

theorem shelf_setBus_other (config : IoConfig BusHandle DevHandle) {b b' : Fin maxBusses}
    (bus : IoBus BusHandle) (hb : b' ≠ b) : (config.setBus b bus).shelf b' = config.shelf b' := by
  simp [IoConfig.shelf, IoConfig.setBus, hb]

theorem shelf_setDev_same (config : IoConfig BusHandle DevHandle) (b : Fin maxBusses)
    (d : Fin maxIoDevices) (f : IoDev DevHandle → IoDev DevHandle) :
    (config.setDev (b, d) (f (config.devices (b, d)))).shelf b =
      (config.shelf b).changeDev d.val f := by
  have hdev (d' : Fin maxIoDevices) :
      (config.setDev (b, d) (f (config.devices (b, d)))).devices (b, d') =
        if (d'.val : Int) = d.val then f (config.devices (b, d')) else config.devices (b, d') := by
    by_cases hd : d' = d
    · subst hd
      simp
    · have hslot : (b, d') ≠ (b, d) := fun h => hd (Prod.mk.inj h).2
      have hval : ¬ (d'.val : Int) = d.val := by
        intro h
        exact hd (Fin.ext (Int.ofNat.inj h))
      rw [config.devices_setDev_of_ne _ hslot, if_neg hval]
  simp only [IoConfig.shelf, Shelf.changeDev, hdev]
  rfl

theorem shelf_setDev_other (config : IoConfig BusHandle DevHandle) {b b' : Fin maxBusses}
    (d : Fin maxIoDevices) (dev : IoDev DevHandle) (hb : b' ≠ b) :
    (config.setDev (b, d) dev).shelf b' = config.shelf b' := by
  have hdev (d' : Fin maxIoDevices) :
      (config.setDev (b, d) dev).devices (b', d') = config.devices (b', d') := by
    apply config.devices_setDev_of_ne
    intro h
    exact hb (Prod.mk.inj h).1
  simp only [IoConfig.shelf, hdev]
  rfl

/-- Entries that give their bus a driver. -/
def Setting.TypesBus : Setting → Prop
  | .busType handle => handle.isSome
  | _ => False

/-- Entries that count a device. -/
def Setting.isDriver : Setting → Bool
  | .devDriver _ => true
  | _ => false

theorem put_handle (shelf : Shelf) (got : Bool) (dev : Int) (setting : Setting) :
    (shelf.put got dev setting).bus.drvHandle.isSome ↔
      shelf.bus.drvHandle.isSome ∨ setting.TypesBus := by
  cases setting with
  | busParameter value =>
      simp only [Shelf.put, Setting.TypesBus, or_false]
      split <;> rfl
  | busType handle =>
      cases handle with
      | none => simp [Shelf.put, Setting.TypesBus]
      | some handle => simp [Shelf.put, Setting.TypesBus]
  | devDriver handle =>
      cases handle with
      | none => simp [Shelf.put, Setting.TypesBus]
      | some handle => simp [Shelf.put, Setting.TypesBus]
  | devParameter value =>
      simp only [Shelf.put, Setting.TypesBus, or_false]
      split <;> rfl
  | unknown => simp [Shelf.put, Setting.TypesBus]

theorem fill_handle (shelf : Shelf) (entries : List Placed) :
    (shelf.fill entries).bus.drvHandle.isSome ↔
      shelf.bus.drvHandle.isSome ∨ ∃ p ∈ entries, p.setting.TypesBus := by
  induction entries using List.reverseRecOn with
  | nil => simp [Shelf.fill]
  | append_singleton entries p ih =>
      rw [fill_concat, put_handle, ih]
      simp [or_and_right, exists_or, or_assoc]

theorem put_numDevices (shelf : Shelf) (got : Bool) (dev : Int) (setting : Setting) :
    (shelf.put got dev setting).bus.numDevices =
      shelf.bus.numDevices + if setting.isDriver then 1 else 0 := by
  cases setting with
  | busParameter value =>
      simp only [Shelf.put, Setting.isDriver]
      split <;> simp
  | busType handle =>
      cases handle with
      | none => simp [Shelf.put, Setting.isDriver]
      | some handle => simp [Shelf.put, Setting.isDriver]
  | devDriver handle =>
      cases handle with
      | none => simp [Shelf.put, Setting.isDriver]
      | some handle => simp [Shelf.put, Setting.isDriver]
  | devParameter value =>
      simp only [Shelf.put, Setting.isDriver, Shelf.changeDev]
      split <;> simp
  | unknown => simp [Shelf.put, Setting.isDriver]

theorem fill_numDevices (shelf : Shelf) (entries : List Placed) :
    (shelf.fill entries).bus.numDevices =
      shelf.bus.numDevices + entries.countP (·.setting.isDriver) := by
  induction entries using List.reverseRecOn with
  | nil => simp [Shelf.fill]
  | append_singleton entries p ih =>
      rw [fill_concat, put_numDevices, ih, List.countP_append, List.countP_singleton]
      split <;> push_cast <;> omega

/-- The driver that an entry names for a device. -/
def driverAt (d : Fin maxIoDevices) (p : Placed) : Option DevHandle :=
  match p.setting with
  | .devDriver handle => if (d.val : Int) = p.dev then handle else none
  | _ => none

def Setting.IsBusParameter : Setting → Prop
  | .busParameter _ => True
  | _ => False

def Setting.IsDevParameter : Setting → Prop
  | .devParameter _ => True
  | _ => False

/-- The entry is a `bus_parameter` behind one that gives the bus a driver. -/
def SetsBusData (shelf : Shelf) (past : List Placed) (p : Placed) : Prop :=
  p.setting.IsBusParameter ∧
    (shelf.bus.drvHandle.isSome ∨ ∃ q ∈ past, q.setting.TypesBus)

/-- The entry is a `dev_parameter` of the device behind one that gives the bus a
driver. -/
def SetsDevData (shelf : Shelf) (d : Fin maxIoDevices) (past : List Placed) (p : Placed) : Prop :=
  p.setting.IsDevParameter ∧ (d.val : Int) = p.dev ∧
    (shelf.bus.drvHandle.isSome ∨ ∃ q ∈ past, q.setting.TypesBus)

theorem changeDev_apply (shelf : Shelf) (dev : Int) (f : IoDev DevHandle → IoDev DevHandle)
    (d : Fin maxIoDevices) :
    (shelf.changeDev dev f).devices d =
      if (d.val : Int) = dev then f (shelf.devices d) else shelf.devices d := rfl

theorem put_driver (shelf : Shelf) (got : Bool) (p : Placed) (d : Fin maxIoDevices) :
    ((shelf.put got p.dev p.setting).devices d).drvHandle =
      (driverAt d p).or (shelf.devices d).drvHandle := by
  cases hset : p.setting with
  | busParameter value =>
      simp only [Shelf.put, driverAt, hset]
      split <;> simp
  | busType handle => cases handle <;> simp [Shelf.put, driverAt, hset]
  | devDriver handle =>
      cases handle with
      | none => simp [Shelf.put, driverAt, hset]
      | some handle =>
          simp only [Shelf.put, driverAt, hset, changeDev_apply]
          split <;> simp
  | devParameter value =>
      simp only [Shelf.put, driverAt, hset]
      split
      · rw [changeDev_apply]
        split <;> simp
      · simp
  | unknown => simp [Shelf.put, driverAt, hset]

theorem fill_driver (shelf : Shelf) (entries : List Placed) (d : Fin maxIoDevices) :
    ((shelf.fill entries).devices d).drvHandle =
      (lastSome (driverAt d) entries).or (shelf.devices d).drvHandle := by
  induction entries using List.reverseRecOn with
  | nil => rfl
  | append_singleton entries p ih =>
      rw [fill_concat, put_driver, ih, lastSome_concat, Option.or_assoc]

theorem put_busData (shelf : Shelf) (dev : Int) (setting : Setting) :
    (shelf.put true dev setting).bus.busData.isSome ↔
      shelf.bus.busData.isSome ∨ setting.IsBusParameter ∧ shelf.bus.drvHandle.isSome := by
  cases setting with
  | busParameter value =>
      simp only [Shelf.put, Setting.IsBusParameter]
      split <;> simp_all
  | busType handle => cases handle <;> simp [Shelf.put, Setting.IsBusParameter]
  | devDriver handle => cases handle <;> simp [Shelf.put, Setting.IsBusParameter]
  | devParameter value =>
      simp only [Shelf.put, Setting.IsBusParameter, Shelf.changeDev]
      split <;> simp
  | unknown => simp [Shelf.put, Setting.IsBusParameter]

theorem fill_busData (shelf : Shelf) (entries : List Placed) :
    (shelf.fill entries).bus.busData.isSome ↔
      shelf.bus.busData.isSome ∨ Occurs (SetsBusData shelf) entries := by
  induction entries using List.reverseRecOn with
  | nil => simp [Shelf.fill]
  | append_singleton entries p ih =>
      rw [fill_concat, put_busData, fill_handle, ih, occurs_concat, or_assoc]
      rfl

theorem put_devBusData (shelf : Shelf) (dev : Int) (setting : Setting) (d : Fin maxIoDevices) :
    ((shelf.put true dev setting).devices d).devBusData.isSome ↔
      (shelf.devices d).devBusData.isSome ∨
        setting.IsDevParameter ∧ (d.val : Int) = dev ∧ shelf.bus.drvHandle.isSome := by
  cases setting with
  | busParameter value =>
      simp only [Shelf.put, Setting.IsDevParameter]
      split <;> simp
  | busType handle => cases handle <;> simp [Shelf.put, Setting.IsDevParameter]
  | devDriver handle =>
      cases handle with
      | none => simp [Shelf.put, Setting.IsDevParameter]
      | some handle =>
          simp only [Shelf.put, Setting.IsDevParameter, changeDev_apply]
          split <;> simp
  | devParameter value =>
      simp only [Shelf.put, Setting.IsDevParameter]
      by_cases hsome : shelf.bus.drvHandle.isSome
      · by_cases hd : (d.val : Int) = dev
        · simp [hsome, hd, changeDev_apply]
        · simp [hsome, hd, changeDev_apply]
      · simp [hsome]
  | unknown => simp [Shelf.put, Setting.IsDevParameter]

theorem fill_devBusData (shelf : Shelf) (entries : List Placed) (d : Fin maxIoDevices) :
    ((shelf.fill entries).devices d).devBusData.isSome ↔
      (shelf.devices d).devBusData.isSome ∨ Occurs (SetsDevData shelf d) entries := by
  induction entries using List.reverseRecOn with
  | nil => simp [Shelf.fill]
  | append_singleton entries p ih =>
      rw [fill_concat, put_devBusData, fill_handle, ih, occurs_concat, or_assoc]
      rfl

end Shelves

end Switcher
