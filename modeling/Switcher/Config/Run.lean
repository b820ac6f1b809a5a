import Switcher.Config.Shelf

/-!
What the parser makes of an entry stream: as long as the cursors stay within the
tables that the entries use, the configuration is the initial one with every
shelf filled; at the first entry where they do not, the parser leaves the tables.
-/

namespace Switcher

open Lib.Program Lib.Interleaving Lib.Text Lib.History

variable {κ : Type} {K : Kernel κ} {config : IoConfig BusHandle DevHandle}
  {past : List Placed} {c : Cursor} {s : BusConfigs κ}

def InTable (size : Nat) (cursor : Int) : Prop := 0 ≤ cursor ∧ cursor < size

instance (size : Nat) (cursor : Int) : Decidable (InTable size cursor) :=
  inferInstanceAs (Decidable (_ ∧ _))

/-- The bus had a driver to begin with, or one of the entries gives it one. -/
def Typed (config : IoConfig BusHandle DevHandle) (past : List Placed) (bus : Int) : Prop :=
  ∃ b : Fin maxBusses, b.val = bus ∧
    ((config.busses b).drvHandle.isSome ∨ ∃ p ∈ onShelf b past, p.setting.TypesBus)

/-- The entry reads or writes its bus. -/
def Setting.UsesBus : Setting → Prop
  | .busParameter _ => True
  | .busType handle => handle.isSome
  | .devDriver _ => True
  | .devParameter _ => True
  | .unknown => False

/-- The entry writes its device; a parameter is kept only where the bus has a driver. -/
def Setting.UsesDev (typed : Prop) : Setting → Prop
  | .devDriver handle => handle.isSome
  | .devParameter _ => typed
  | _ => False

theorem Setting.UsesDev.not_typesBus {typed : Prop} {setting : Setting}
    (h : setting.UsesDev typed) : ¬ setting.TypesBus := by
  cases setting with
  | devDriver | devParameter => exact id
  | busParameter | busType | unknown => exact h.elim

/-- Whatever the entry uses lies within the tables. -/
structure Fits (config : IoConfig BusHandle DevHandle) (past : List Placed) (p : Placed) :
    Prop where
  bus : p.setting.UsesBus → InTable maxBusses p.bus
  dev : p.setting.UsesDev (Typed config past p.bus) → InTable maxIoDevices p.dev

/-- From `u` to `v` the entry is put on the shelf at its cursors, and on no other. -/
structure PutAt (K : Kernel κ) (p : Placed) (u v : BusConfigs κ) : Prop where
  bus : v.currentBusId = p.bus
  dev : v.currentDevId = p.dev
  shelf : ∀ b : Fin maxBusses, v.config.shelf b =
    if (b.val : Int) = p.bus then
      (u.config.shelf b).put (K.malloc u.world.os).1 p.dev p.setting
    else u.config.shelf b

/-- What handling an entry changes beside the cursors. -/
structure Handled (K : Kernel κ) (p : Placed) (u v : BusConfigs κ) : Prop extends
    PutAt K p u v where
  numBusses : v.config.numBusses = u.config.numBusses
  last : v.lastSection = u.lastSection

/-- `Fits`, judged by the state that the entry is handled in. -/
structure FitsNow (p : Placed) (u : BusConfigs κ) : Prop where
  bus : p.setting.UsesBus → InTable maxBusses p.bus
  dev : p.setting.UsesDev (∃ b : Fin maxBusses, b.val = p.bus ∧
    (u.config.busses b).drvHandle.isSome) → InTable maxIoDevices p.dev

/-- The state of the parser once the entries `past` are handled. -/
structure Follows (K : Kernel κ) (config : IoConfig BusHandle DevHandle) (past : List Placed)
    (c : Cursor) (s : BusConfigs κ) : Prop where
  shelves : ∀ b, AsIntended K (shelfOf config past b) (s.config.shelf b)
  numBusses : s.config.numBusses = c.bus + 1
  last : ∃ src : CString, s.lastSection = strncpy src maxIniEntryLen ∧
    c.last = src.chars.take maxIniEntryLen
  bus : s.currentBusId = c.bus
  dev : s.currentDevId = c.dev

theorem typed_iff {b : Fin maxBusses} {bus : Int} (hb : (b.val : Int) = bus) :
    Typed config past bus ↔ (shelfOf config past b).bus.drvHandle.isSome := by
  rw [shelfOf, fill_handle]
  constructor
  · rintro ⟨b', hb', htyped⟩
    obtain rfl : b' = b := Fin.ext (Int.ofNat.inj (hb'.trans hb.symm))
    exact htyped
  · intro htyped
    exact ⟨b, hb, htyped⟩

section Accesses

variable {size : Nat}

theorem atCursor_run (i : Fin size) {cursor : Int} (h : (i.val : Int) = cursor) :
    (atCursor size cursor : ParserM κ (Fin size)) s = .ok i s := by
  have hin : 0 ≤ cursor ∧ cursor < size := by
    have := i.isLt
    omega
  have hi : (⟨cursor.toNat, (Int.toNat_lt hin.1).mpr hin.2⟩ : Fin size) = i := by
    apply Fin.ext
    simp only
    omega
  rw [atCursor, dif_pos hin, hi, run_pure]

theorem atCursor_out {cursor : Int} (h : ¬ InTable size cursor) :
    (atCursor size cursor : ParserM κ (Fin size)) s = .error .outOfBounds s := by
  have hout : ¬ (0 ≤ cursor ∧ cursor < size) := h
  rw [atCursor, dif_neg hout]
  rfl

theorem exists_of_inTable {cursor : Int} (h : InTable size cursor) :
    ∃ i : Fin size, (i.val : Int) = cursor := by
  refine ⟨⟨cursor.toNat, (Int.toNat_lt h.1).mpr h.2⟩, ?_⟩
  simp only
  have := h.1
  omega

theorem inTable_of_fin (i : Fin size) {cursor : Int} (h : (i.val : Int) = cursor) :
    InTable size cursor := by
  have := i.isLt
  constructor <;> omega

variable (b : Fin maxBusses) (d : Fin maxIoDevices)

theorem currentDev_run (hb : (b.val : Int) = s.currentBusId) (hd : (d.val : Int) = s.currentDevId) :
    (currentDev : ParserM κ Slot) s = .ok (b, d) s := by
  unfold currentDev
  rw [bind_of_ok (run_get s), bind_of_ok (atCursor_run b hb), bind_of_ok (atCursor_run d hd),
    run_pure]

theorem currentDev_out (hb : (b.val : Int) = s.currentBusId)
    (hd : ¬ InTable maxIoDevices s.currentDevId) :
    (currentDev : ParserM κ Slot) s = .error .outOfBounds s := by
  unfold currentDev
  rw [bind_of_ok (run_get s), bind_of_ok (atCursor_run b hb), bind_of_error (atCursor_out hd)]

end Accesses

section Sections

theorem updateUserData_run (h : Follows K config past c s) (sectionName : CString) :
    ∃ t, updateUserData sectionName s = .ok () t ∧
      Follows K config past (c.enter sectionName) t ∧
      ∀ b, t.config.shelf b = s.config.shelf b ∧ t.world = s.world := by
  obtain ⟨src, hsrc, hlast⟩ := h.last
  have hsame : StrncmpEq s.lastSection sectionName.chars maxIniEntryLen ↔
      c.last = sectionName.chars.take maxIniEntryLen := by
    rw [hsrc, strncmpEq_strncpy src sectionName.nul_notMem, hlast]
  have hbus : StrncmpEq sectionName.chars iniBus iniBus.length ↔
      iniBus <+: sectionName.chars := strncmpEq_prefix sectionName.nul_notMem (by decide)
  have hdev : StrncmpEq sectionName.chars iniDev iniDev.length ↔
      iniDev <+: sectionName.chars := strncmpEq_prefix sectionName.nul_notMem (by decide)
  let t : BusConfigs κ :=
    { s with
      lastSection := strncpy sectionName maxIniEntryLen
      currentBusId := (c.enter sectionName).bus
      currentDevId := (c.enter sectionName).dev
      config := { s.config with numBusses := (c.enter sectionName).bus + 1 } }
  refine ⟨t, ?_, ⟨h.shelves, rfl, ⟨sectionName, rfl, enter_last c sectionName⟩, rfl, rfl⟩,
    fun _ => ⟨rfl, rfl⟩⟩
  unfold updateUserData
  rw [bind_of_ok (run_get s)]
  by_cases hl : c.last = sectionName.chars.take maxIniEntryLen
  · have henter : c.enter sectionName = c := by rw [Cursor.enter, if_pos hl]
    rw [if_neg (not_not_intro (hsame.mpr hl))]
    refine (run_modify _ _).trans ?_
    simp only [t, henter, h.bus, h.dev]
  · rw [if_pos (fun hs => hl (hsame.mp hs))]
    by_cases hb : iniBus <+: sectionName.chars
    · rw [if_pos (hbus.mpr hb), bind_of_ok (run_modify _ _)]
      refine (run_modify _ _).trans ?_
      simp only [t, Cursor.enter, if_neg hl, if_pos hb, h.bus]
    · rw [if_neg (fun hs => hb (hbus.mp hs))]
      by_cases hd : iniDev <+: sectionName.chars
      · rw [if_pos (hdev.mpr hd), bind_of_ok (run_modify _ _)]
        refine (run_modify _ _).trans ?_
        simp only [t, Cursor.enter, if_neg hl, if_neg hb, if_pos hd, h.bus, h.dev]
      · rw [if_neg (fun hs => hd (hdev.mp hs))]
        refine (run_modify _ _).trans ?_
        simp only [t, Cursor.enter, if_neg hl, if_neg hb, if_neg hd, h.bus, h.dev]

end Sections

section Entries

variable {p : Placed} {b : Fin maxBusses} {value : CString}

/-- An entry that changes its own shelf. -/
theorem handled_of_shelf (hbus : s.currentBusId = p.bus) (hdev : s.currentDevId = p.dev)
    (hb : (b.val : Int) = p.bus) {config' : IoConfig BusHandle DevHandle} {w : Env κ}
    (hsame : config'.shelf b = (s.config.shelf b).put (K.malloc s.world.os).1 p.dev p.setting)
    (hother : ∀ b', b' ≠ b → config'.shelf b' = s.config.shelf b')
    (hnum : config'.numBusses = s.config.numBusses) :
    Handled K p s { s with config := config', world := w } := by
  refine ⟨⟨hbus, hdev, ?_⟩, hnum, rfl⟩
  intro b'
  by_cases hbb : b' = b
  · subst hbb
    rw [if_pos hb]
    exact hsame
  · have hne : ¬ (b'.val : Int) = p.bus := by
      intro hp
      exact hbb (Fin.ext (Int.ofNat.inj (hp.trans hb.symm)))
    rw [if_neg hne]
    exact hother b' hbb

/-- An entry that changes nothing. -/
theorem handled_self (hbus : s.currentBusId = p.bus) (hdev : s.currentDevId = p.dev)
    (hput : ∀ b : Fin maxBusses, (b.val : Int) = p.bus →
      (s.config.shelf b).put (K.malloc s.world.os).1 p.dev p.setting = s.config.shelf b) :
    Handled K p s s := by
  refine ⟨⟨hbus, hdev, ?_⟩, rfl, rfl⟩
  intro b
  split
  · rename_i hb
    exact (hput b hb).symm
  · rfl

variable (hbus : s.currentBusId = p.bus) (hdev : s.currentDevId = p.dev)
include hbus hdev

theorem busParameter_run (hset : p.setting = .busParameter value) (hfits : FitsNow p s) :
    ∃ t, busParameter K value s = .ok () t ∧ Handled K p s t := by
  obtain ⟨b, hb⟩ := exists_of_inTable (hfits.bus (by rw [hset]; trivial))
  unfold busParameter
  rw [bind_of_ok (run_get s), bind_of_ok (atCursor_run b (hb.trans hbus.symm))]
  cases hdrv : (s.config.busses b).drvHandle with
  | none =>
      refine ⟨s, rfl, handled_self hbus hdev ?_⟩
      intro b' hb'
      obtain rfl : b' = b := Fin.ext (Int.ofNat.inj (hb'.trans hb.symm))
      simp [hset, Shelf.put, IoConfig.shelf, hdrv]
  | some handle =>
      cases handle
      refine ⟨_, rfl, handled_of_shelf hbus hdev hb ?_ ?_ rfl⟩
      · rw [shelf_setBus_same, hset]
        simp [Shelf.put, IoConfig.shelf, hdrv]
      · intro b' hb'
        exact shelf_setBus_other _ _ hb'

theorem busType_run {handle : Option BusHandle}
    (hvalue : StrncmpEq value.chars iniBusTypeI2c maxParamLen ↔ handle.isSome)
    (hset : p.setting = .busType handle) (hfits : FitsNow p s) :
    ∃ t, busType value s = .ok () t ∧ Handled K p s t := by
  unfold busType
  cases handle with
  | none =>
      refine ⟨s, ?_, handled_self hbus hdev ?_⟩
      · rw [if_neg (by simp [hvalue]), run_pure]
      · intro b hb
        rw [hset]
        rfl
  | some handle =>
      cases handle
      obtain ⟨b, hb⟩ := exists_of_inTable (hfits.bus (by rw [hset]; rfl))
      rw [if_pos (hvalue.mpr rfl), bind_of_ok (run_get s),
        bind_of_ok (atCursor_run b (hb.trans hbus.symm))]
      refine ⟨_, rfl, handled_of_shelf hbus hdev hb ?_ ?_ rfl⟩
      · rw [shelf_setBus_same, hset]
        rfl
      · intro b' hb'
        exact shelf_setBus_other _ _ hb'

omit hbus hdev in
theorem storeDriver_run (handle : DevHandle) {d : Fin maxIoDevices}
    (hb : (b.val : Int) = s.currentBusId) (hd : (d.val : Int) = s.currentDevId) :
    storeDriver (some handle) s =
      .ok () { s with
        config := s.config.setDev (b, d)
          { s.config.devices (b, d) with drvHandle := some handle } } := by
  rw [storeDriver, bind_of_ok (currentDev_run b d hb hd), bind_of_ok (run_get s)]
  rfl

omit hbus hdev in
theorem countDevice_run (hb : (b.val : Int) = s.currentBusId) :
    countDevice s =
      .ok () { s with
        config := s.config.setBus b
          { s.config.busses b with numDevices := (s.config.busses b).numDevices + 1 } } := by
  unfold countDevice
  rw [bind_of_ok (run_get s), bind_of_ok (atCursor_run b hb)]
  rfl

theorem devDriver_run (hset : p.setting = .devDriver (namedDriver value)) (hfits : FitsNow p s) :
    ∃ t, devDriver value s = .ok () t ∧ Handled K p s t := by
  obtain ⟨b, hb⟩ := exists_of_inTable (hfits.bus (by rw [hset]; trivial))
  have hcur := hb.trans hbus.symm
  unfold devDriver
  cases hname : namedDriver value with
  | none =>
      refine ⟨_, (bind_of_ok (run_pure () s)).trans (countDevice_run hcur),
        handled_of_shelf (w := s.world) hbus hdev hb ?_ ?_ rfl⟩
      · rw [shelf_setBus_same, hset, hname]
        rfl
      · intro b' hb'
        exact shelf_setBus_other _ _ hb'
  | some handle =>
      obtain ⟨d, hd⟩ := exists_of_inTable (hfits.dev (by rw [hset, hname]; rfl))
      have hstore := storeDriver_run handle hcur (hd.trans hdev.symm)
      refine ⟨_, (bind_of_ok hstore).trans (countDevice_run hcur),
        handled_of_shelf (w := s.world) hbus hdev hb ?_ ?_ rfl⟩
      · rw [shelf_setBus_same, hset, hname,
          shelf_setDev_same s.config b d fun dev => { dev with drvHandle := some handle }, hd]
        rfl
      · intro b' hb'
        rw [shelf_setBus_other _ _ hb']
        exact shelf_setDev_other _ _ _ hb'

theorem devParameter_run (hset : p.setting = .devParameter value) (hfits : FitsNow p s) :
    ∃ t, devParameter K value s = .ok () t ∧ Handled K p s t := by
  obtain ⟨b, hb⟩ := exists_of_inTable (hfits.bus (by rw [hset]; trivial))
  have hcur := hb.trans hbus.symm
  unfold devParameter
  rw [bind_of_ok (run_get s), bind_of_ok (atCursor_run b hcur)]
  cases hdrv : (s.config.busses b).drvHandle with
  | none =>
      refine ⟨s, rfl, handled_self hbus hdev ?_⟩
      intro b' hb'
      obtain rfl : b' = b := Fin.ext (Int.ofNat.inj (hb'.trans hb.symm))
      simp [hset, Shelf.put, IoConfig.shelf, hdrv]
  | some handle =>
      cases handle
      have htyped : ∃ b : Fin maxBusses, (b.val : Int) = p.bus ∧
          (s.config.busses b).drvHandle.isSome := ⟨b, hb, by rw [hdrv]; rfl⟩
      obtain ⟨d, hd⟩ := exists_of_inTable (hfits.dev (by rw [hset]; exact htyped))
      refine ⟨_, bind_of_ok (currentDev_run b d hcur (hd.trans hdev.symm)),
        handled_of_shelf hbus hdev hb ?_ ?_ rfl⟩
      · rw [hset]
        have hput : (s.config.shelf b).put (K.malloc s.world.os).1 p.dev (.devParameter value) =
            (s.config.shelf b).changeDev p.dev fun dev =>
              { dev with devBusData := (getI2cLinuxDevData K value s.world).1 } := by
          simp [Shelf.put, IoConfig.shelf, hdrv, getI2cLinuxDevData, allocate]
        rw [hput, ← hd]
        exact shelf_setDev_same s.config b d fun dev =>
          { dev with devBusData := (getI2cLinuxDevData K value s.world).1 }
      · intro b' hb'
        exact shelf_setDev_other _ _ _ hb'

end Entries

section Unfit

variable {p : Placed} {value : CString} (hbus : s.currentBusId = p.bus)
  (hdev : s.currentDevId = p.dev) (hnot : ¬ FitsNow p s)
include hbus hnot

theorem busParameter_unfit (hset : p.setting = .busParameter value) :
    busParameter K value s = .error .outOfBounds s := by
  have hout : ¬ InTable maxBusses s.currentBusId := by
    intro hin
    refine hnot ⟨fun _ => by rwa [← hbus], fun huse => ?_⟩
    rw [hset] at huse
    exact huse.elim
  unfold busParameter
  rw [bind_of_ok (run_get s), bind_of_error (atCursor_out hout)]

theorem busType_unfit {handle : Option BusHandle}
    (hvalue : StrncmpEq value.chars iniBusTypeI2c maxParamLen ↔ handle.isSome)
    (hset : p.setting = .busType handle) : busType value s = .error .outOfBounds s := by
  have hnodev (typed : Prop) : ¬ p.setting.UsesDev typed := by
    rw [hset]
    exact id
  have hsome : handle.isSome := by
    by_contra hnone
    refine hnot ⟨fun huse => ?_, fun huse => absurd huse (hnodev _)⟩
    rw [hset] at huse
    exact absurd huse hnone
  have hout : ¬ InTable maxBusses s.currentBusId := by
    intro hin
    exact hnot ⟨fun _ => by rwa [← hbus], fun huse => absurd huse (hnodev _)⟩
  unfold busType
  rw [if_pos (hvalue.mpr hsome), bind_of_ok (run_get s), bind_of_error (atCursor_out hout)]

omit hbus hnot in
theorem currentDev_unfit (hout : ¬ (InTable maxBusses s.currentBusId ∧
      InTable maxIoDevices s.currentDevId)) :
    (currentDev : ParserM κ Slot) s = .error .outOfBounds s := by
  by_cases hin : InTable maxBusses s.currentBusId
  · obtain ⟨b, hb⟩ := exists_of_inTable hin
    exact currentDev_out b hb fun hdev => hout ⟨hin, hdev⟩
  · unfold currentDev
    rw [bind_of_ok (run_get s), bind_of_error (atCursor_out hin)]

include hdev

theorem devDriver_unfit (hset : p.setting = .devDriver (namedDriver value)) :
    devDriver value s = .error .outOfBounds s := by
  unfold devDriver
  cases hname : namedDriver value with
  | none =>
      have hout : ¬ InTable maxBusses s.currentBusId := by
        intro hin
        refine hnot ⟨fun _ => by rwa [← hbus], fun huse => ?_⟩
        rw [hset, hname] at huse
        exact absurd huse (by simp [Setting.UsesDev])
      refine (bind_of_ok (run_pure () s)).trans ?_
      unfold countDevice
      rw [bind_of_ok (run_get s), bind_of_error (atCursor_out hout)]
  | some handle =>
      have hout : ¬ (InTable maxBusses s.currentBusId ∧ InTable maxIoDevices s.currentDevId) := by
        rintro ⟨hinBus, hinDev⟩
        exact hnot ⟨fun _ => by rwa [← hbus], fun _ => by rwa [← hdev]⟩
      exact bind_of_error (by rw [storeDriver, bind_of_error (currentDev_unfit hout)])

theorem devParameter_unfit (hset : p.setting = .devParameter value) :
    devParameter K value s = .error .outOfBounds s := by
  unfold devParameter
  by_cases hin : InTable maxBusses s.currentBusId
  · obtain ⟨b, hb⟩ := exists_of_inTable hin
    have htyped : (∃ b : Fin maxBusses, (b.val : Int) = p.bus ∧
        (s.config.busses b).drvHandle.isSome) ∧ ¬ InTable maxIoDevices s.currentDevId := by
      by_contra hfits
      refine hnot ⟨fun _ => by rwa [← hbus], fun huse => ?_⟩
      rw [hset] at huse
      by_contra hout
      exact hfits ⟨huse, by rwa [hdev]⟩
    obtain ⟨⟨b', hb', hsome⟩, hout⟩ := htyped
    obtain rfl : b' = b := Fin.ext (Int.ofNat.inj (hb'.trans (hb.trans hbus).symm))
    obtain ⟨handle, hdrv⟩ := Option.isSome_iff_exists.mp hsome
    cases handle
    rw [bind_of_ok (run_get s), bind_of_ok (atCursor_run b' hb)]
    simp only [hdrv]
    exact bind_of_error (currentDev_unfit fun hboth => hout hboth.2)
  · rw [bind_of_ok (run_get s), bind_of_error (atCursor_out hin)]

end Unfit

section Handler

variable (K) in
/-- `process_entries` once the name of the entry is known. -/
def carryOut (value : CString) : Setting → ParserM κ Int
  | .busParameter _ => do
      busParameter K value
      return 1
  | .busType _ => do
      busType value
      return 1
  | .devDriver _ => do
      devDriver value
      return 1
  | .devParameter _ => do
      devParameter K value
      return 1
  | .unknown => return 0

/-- The setting carries the value of the entry, as the parser understands it. -/
def Setting.Carries (value : CString) : Setting → Prop
  | .busParameter v => v = value
  | .busType handle => StrncmpEq value.chars iniBusTypeI2c maxParamLen ↔ handle.isSome
  | .devDriver handle => handle = namedDriver value
  | .devParameter v => v = value
  | .unknown => True

theorem strncmpEq_key (text : CString) (key : List Char) {n : Nat} (hkey : nul ∉ key)
    (hlen : key.length < n) : StrncmpEq text.chars key n ↔ text.chars = key :=
  strncmpEq_short text.nul_notMem hkey hlen

theorem namedDriver_eq (value : CString) :
    namedDriver value =
      if value.chars = iniDrvPcf8574 then some .pcf8574
      else if value.chars = iniDrvPiface then some .piface
      else if value.chars = iniDrvMcp23017 then some .mcp23017
      else none := by
  have hpcf := strncmpEq_key value iniDrvPcf8574 (n := maxIniEntryLen) (by decide) (by decide)
  have hpiface := strncmpEq_key value iniDrvPiface (n := maxIniEntryLen) (by decide) (by decide)
  have hmcp := strncmpEq_key value iniDrvMcp23017 (n := maxIniEntryLen) (by decide) (by decide)
  simp only [namedDriver, hpcf, hpiface, hmcp]

theorem setting_carries (e : IniEntry) : e.setting.Carries e.value := by
  unfold IniEntry.setting
  rw [← namedDriver_eq]
  split
  · rfl
  · split
    · simp only [Setting.Carries]
      rw [strncmpEq_key e.value _ (by decide) (by decide)]
      by_cases hvalue : e.value.chars = iniBusTypeI2c
      · simp [hvalue]
      · simp [hvalue]
    · split
      · rfl
      · split
        · rfl
        · trivial

theorem processEntries_eq (e : IniEntry) :
    processEntries K e.name e.value = carryOut K e.value e.setting := by
  have hparam := strncmpEq_key e.name iniBusParam (n := maxIniEntryLen) (by decide) (by decide)
  have htype := strncmpEq_key e.name iniBusType (n := maxIniEntryLen) (by decide) (by decide)
  have hdrv := strncmpEq_key e.name iniDevDrv (n := maxIniEntryLen) (by decide) (by decide)
  have hdev := strncmpEq_key e.name iniDevParam (n := maxIniEntryLen) (by decide) (by decide)
  simp only [processEntries, hparam, htype, hdrv, hdev, IniEntry.setting]
  by_cases h : e.name.chars = iniBusParam
  · simp only [if_pos h, carryOut]
  · by_cases ht : e.name.chars = iniBusType
    · simp only [if_neg h, if_pos ht, carryOut]
    · by_cases hd : e.name.chars = iniDevDrv
      · simp only [if_neg h, if_neg ht, if_pos hd, carryOut]
      · by_cases hp : e.name.chars = iniDevParam
        · simp only [if_neg h, if_neg ht, if_neg hd, if_pos hp, carryOut]
        · simp only [if_neg h, if_neg ht, if_neg hd, if_neg hp, carryOut]

theorem processEntries_run (e : IniEntry) {c : Cursor} (hbus : s.currentBusId = c.bus)
    (hdev : s.currentDevId = c.dev) (hfits : FitsNow (e.placed c) s) :
    ∃ t, processEntries K e.name e.value s = .ok e.setting.code t ∧
      Handled K (e.placed c) s t := by
  have hcarries := setting_carries e
  rw [processEntries_eq]
  cases hset : e.setting with
  | busParameter v =>
      rw [hset] at hcarries
      obtain rfl := hcarries
      obtain ⟨t, hrun, ht⟩ := busParameter_run (K := K) hbus hdev hset hfits
      exact ⟨t, bind_of_ok hrun, ht⟩
  | busType handle =>
      rw [hset] at hcarries
      obtain ⟨t, hrun, ht⟩ := busType_run (K := K) hbus hdev hcarries hset hfits
      exact ⟨t, bind_of_ok hrun, ht⟩
  | devDriver handle =>
      rw [hset] at hcarries
      obtain rfl := hcarries
      obtain ⟨t, hrun, ht⟩ := devDriver_run (K := K) hbus hdev hset hfits
      exact ⟨t, bind_of_ok hrun, ht⟩
  | devParameter v =>
      rw [hset] at hcarries
      obtain rfl := hcarries
      obtain ⟨t, hrun, ht⟩ := devParameter_run (K := K) hbus hdev hset hfits
      exact ⟨t, bind_of_ok hrun, ht⟩
  | unknown =>
      refine ⟨s, rfl, handled_self hbus hdev ?_⟩
      intro b hb
      show (s.config.shelf b).put _ c.dev e.setting = _
      rw [hset]
      rfl

theorem processEntries_unfit (e : IniEntry) {c : Cursor} (hbus : s.currentBusId = c.bus)
    (hdev : s.currentDevId = c.dev) (hnot : ¬ FitsNow (e.placed c) s) :
    processEntries K e.name e.value s = .error .outOfBounds s := by
  have hcarries := setting_carries e
  rw [processEntries_eq]
  cases hset : e.setting with
  | busParameter v =>
      rw [hset] at hcarries
      obtain rfl := hcarries
      exact bind_of_error (busParameter_unfit hbus hnot hset)
  | busType handle =>
      rw [hset] at hcarries
      exact bind_of_error (busType_unfit hbus hnot hcarries hset)
  | devDriver handle =>
      rw [hset] at hcarries
      obtain rfl := hcarries
      exact bind_of_error (devDriver_unfit hbus hdev hnot hset)
  | devParameter v =>
      rw [hset] at hcarries
      obtain rfl := hcarries
      exact bind_of_error (devParameter_unfit hbus hdev hnot hset)
  | unknown =>
      refine absurd ⟨?_, ?_⟩ hnot
      · show e.setting.UsesBus → _
        rw [hset]
        exact False.elim
      · show e.setting.UsesDev _ → _
        rw [hset]
        exact False.elim

theorem Follows.fits_iff (h : Follows K config past c s) (p : Placed) :
    FitsNow p s ↔ Fits config past p := by
  have htyped : (∃ b : Fin maxBusses, (b.val : Int) = p.bus ∧
      (s.config.busses b).drvHandle.isSome) ↔ Typed config past p.bus := by
    constructor
    · rintro ⟨b, hb, hsome⟩
      have hhandle : (s.config.busses b).drvHandle = (shelfOf config past b).bus.drvHandle :=
        (h.shelves b).busHandle
      exact (typed_iff hb).mpr (hhandle ▸ hsome)
    · rintro htyped
      obtain ⟨b, hb, -⟩ := id htyped
      have hhandle : (s.config.busses b).drvHandle = (shelfOf config past b).bus.drvHandle :=
        (h.shelves b).busHandle
      exact ⟨b, hb, hhandle ▸ (typed_iff hb).mp htyped⟩
  constructor
  · rintro ⟨hbus, hdev⟩
    rw [htyped] at hdev
    exact ⟨hbus, hdev⟩
  · rintro ⟨hbus, hdev⟩
    rw [← htyped] at hdev
    exact ⟨hbus, hdev⟩

theorem Follows.step (h : Follows K config past c s) {e : IniEntry} {t : BusConfigs κ}
    (ht : Handled K (e.placed c) s t) : Follows K config (past ++ [e.placed c]) c t := by
  refine ⟨?_, ht.numBusses.trans h.numBusses, ?_, ht.bus, ht.dev⟩
  · intro b
    rw [ht.shelf b]
    by_cases hb : (b.val : Int) = (e.placed c).bus
    · rw [if_pos hb, shelfOf_concat_same config past hb.symm]
      exact (h.shelves b).put (fun hK => hK _) _ _
    · rw [if_neg hb, shelfOf_concat_other config past fun hp => hb hp.symm]
      exact h.shelves b
  · rw [ht.last]
    exact h.last

/-- An entry that fits is put where the cursors stand once its section is entered. -/
theorem parserHandler_run (h : Follows K config past c s) (e : IniEntry)
    (hfits : Fits config past (e.placed (c.enter e.sectionName))) :
    ∃ t, parserHandler K e s = .ok e.setting.code t ∧
      Follows K config (past ++ [e.placed (c.enter e.sectionName)]) (c.enter e.sectionName) t ∧
      PutAt K (e.placed (c.enter e.sectionName)) s t := by
  obtain ⟨u, hupdate, hu, hsame⟩ := updateUserData_run h e.sectionName
  obtain ⟨t, hrun, ht⟩ := processEntries_run (K := K) e hu.bus hu.dev ((hu.fits_iff _).mpr hfits)
  refine ⟨t, by rw [parserHandler, bind_of_ok hupdate, hrun], hu.step ht, ht.bus, ht.dev, ?_⟩
  intro b
  rw [ht.shelf b, (hsame b).1, (hsame b).2]

theorem parserHandler_unfit (h : Follows K config past c s) (e : IniEntry)
    (hnot : ¬ Fits config past (e.placed (c.enter e.sectionName))) :
    ∃ t, parserHandler K e s = .error .outOfBounds t := by
  obtain ⟨u, hupdate, hu, -⟩ := updateUserData_run h e.sectionName
  refine ⟨u, ?_⟩
  rw [parserHandler, bind_of_ok hupdate]
  exact processEntries_unfit e hu.bus hu.dev fun hfits => hnot ((hu.fits_iff _).mp hfits)

theorem follows_userData (hzero : config.numBusses = 0) (w : Env κ) :
    Follows K config [] .start (userData config w) where
  shelves _ := ⟨rfl, rfl, fun _ => rfl, fun _ => rfl⟩
  numBusses := hzero
  last := ⟨⟨[], by simp⟩, by simp [userData, strncpy], rfl⟩
  bus := rfl
  dev := rfl

/-- A stream that fits into the tables is handled to its end. -/
theorem run_follows (hzero : config.numBusses = 0) (w : Env κ) {entries : List IniEntry}
    (hfits : Always (Fits config) (place .start entries)) :
    ∃ t, runAll (parserHandler K) entries (userData config w) =
        .ok (entries.map fun e => e.setting.code) t ∧
      Follows K config (place .start entries) (Cursor.start.after entries) t := by
  induction entries using List.reverseRecOn with
  | nil => exact ⟨_, rfl, follows_userData hzero w⟩
  | append_singleton entries e ih =>
      rw [place_concat, always_concat] at hfits
      obtain ⟨t, hrun, ht⟩ := ih hfits.1
      obtain ⟨u, hstep, hu, -⟩ := parserHandler_run ht e hfits.2
      refine ⟨u, ?_, ?_⟩
      · rw [runAll_concat_of_ok hrun hstep, List.map_append]
        rfl
      · rw [place_concat, after_concat]
        exact hu

/-- At the first entry that does not fit the parser leaves its tables. -/
theorem run_unfit (hzero : config.numBusses = 0) (w : Env κ) {entries : List IniEntry}
    (hnot : ¬ Always (Fits config) (place .start entries)) :
    ∃ t, runAll (parserHandler K) entries (userData config w) = .error .outOfBounds t := by
  induction entries using List.reverseRecOn with
  | nil => exact absurd always_nil hnot
  | append_singleton entries e ih =>
      by_cases hfits : Always (Fits config) (place .start entries)
      · obtain ⟨t, hrun, ht⟩ := run_follows (K := K) hzero w hfits
        rw [place_concat, always_concat] at hnot
        obtain ⟨u, hstep⟩ := parserHandler_unfit ht e fun hlast => hnot ⟨hfits, hlast⟩
        exact ⟨u, runAll_concat_of_error hrun hstep⟩
      · obtain ⟨t, hrun⟩ := ih hfits
        exact ⟨t, runAll_append_of_error hrun⟩

end Handler

end Switcher
