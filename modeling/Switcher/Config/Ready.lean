import Switcher.Config.Inside
import Switcher.Service.Startup

/-!
When an accepted configuration is safe to run. `parse_config` accepts every file
that can be opened, so all that a driver follows unchecked later has to be asked
of the file itself.
-/

namespace Switcher

open Lib.Program Lib.Interleaving Lib.Text Lib.History

variable {κ : Type} {K : Kernel κ}

/-- The entries that `ini_parse` delivers for a file. -/
def entriesOf (lines : List IniLine) : List IniEntry :=
  lines.filterMap fun
    | .entry e => some e
    | _ => none

/-- `ini_parse` counts the line as an error. -/
def IniLine.Fails : IniLine → Prop
  | .entry e => e.setting = .unknown
  | .malformed => True
  | .other => False

section IniParse

variable {s t : BusConfigs κ} {lines : List IniLine} {rc : Int}

theorem Setting.code_eq_zero (setting : Setting) : setting.code = 0 ↔ setting = .unknown := by
  cases setting <;> simp [Setting.code]

/-- The result of the handler only depends on the entry. -/
theorem parserHandler_code {e : IniEntry} (h : parserHandler K e s = .ok rc t) :
    rc = e.setting.code := by
  rw [parserHandler, processEntries_eq, run_bind] at h
  cases hupdate : updateUserData e.sectionName s with
  | error e' u => simp [hupdate] at h
  | ok a u =>
      simp only [hupdate] at h
      cases hset : e.setting with
      | busParameter value =>
          rw [hset] at h
          exact eq_of_return h
      | busType handle =>
          rw [hset] at h
          exact eq_of_return h
      | devDriver handle =>
          rw [hset] at h
          exact eq_of_return h
      | devParameter value =>
          rw [hset] at h
          exact eq_of_return h
      | unknown =>
          rw [hset] at h
          exact (EStateM.Result.ok.inj h).1.symm

/-- `ini_parse` returns 0 exactly if no line fails, and a line number otherwise. -/
theorem iniParseFile_code {lineno error : Int} (hlineno : 0 ≤ lineno) (herror : 0 ≤ error)
    (h : iniParseFile K lineno error lines s = .ok rc t) :
    0 ≤ rc ∧ (rc = 0 ↔ error = 0 ∧ ∀ line ∈ lines, ¬ line.Fails) := by
  induction lines generalizing s lineno error with
  | nil =>
      obtain ⟨rfl, -⟩ := EStateM.Result.ok.inj h
      simpa using herror
  | cons line rest ih =>
      -- a failed line leaves its own number behind, which is not 0
      have hfailed (failed : Bool) (hfails : failed = true ↔ line.Fails) {u : BusConfigs κ}
          (hrest : iniParseFile K (lineno + 1) (if failed ∧ error = 0 then lineno + 1 else error)
            rest u = .ok rc t) :
          0 ≤ rc ∧ (rc = 0 ↔ error = 0 ∧ ∀ l ∈ line :: rest, ¬ l.Fails) := by
        have hnext : 0 ≤ if failed = true ∧ error = 0 then lineno + 1 else error := by
          split <;> omega
        obtain ⟨hpos, hzero⟩ := ih (by omega) hnext hrest
        refine ⟨hpos, hzero.trans ?_⟩
        rw [List.forall_mem_cons, ← hfails]
        split
        · next hfirst => simp [hfirst.1]; omega
        · next hfirst => grind
      cases line with
      | entry e =>
          rw [iniParseFile] at h
          cases hstep : parserHandler K e s with
          | error e' u => simp [run_bind, hstep] at h
          | ok code u =>
              simp only [run_bind, hstep, run_pure] at h
              refine hfailed (decide (code = 0)) ?_ h
              rw [decide_eq_true_iff, parserHandler_code hstep, Setting.code_eq_zero]
              rfl
      | malformed => exact hfailed true (by simp [IniLine.Fails]) h
      | other => exact hfailed false (by simp [IniLine.Fails]) h

/-- `ini_parse` makes the handler calls of the entries. -/
theorem iniParseFile_ok {lineno error : Int} {codes : List Int}
    (h : runAll (parserHandler K) (entriesOf lines) s = .ok codes t) :
    ∃ rc, iniParseFile K lineno error lines s = .ok rc t := by
  induction lines generalizing s lineno error codes with
  | nil =>
      obtain ⟨-, rfl⟩ := EStateM.Result.ok.inj h
      exact ⟨error, rfl⟩
  | cons line rest ih =>
      cases line with
      | entry e =>
          have hcons : entriesOf (.entry e :: rest) = e :: entriesOf rest := rfl
          rw [hcons, runAll, run_bind] at h
          cases hstep : parserHandler K e s with
          | error e' u => simp [hstep] at h
          | ok rc u =>
              simp only [hstep, run_bind] at h
              cases hrest : runAll (parserHandler K) (entriesOf rest) u with
              | error e' v => simp [hrest] at h
              | ok codes' v =>
                  simp only [hrest] at h
                  obtain ⟨-, rfl⟩ := EStateM.Result.ok.inj h
                  rw [iniParseFile]
                  simp only [run_bind, hstep, run_pure]
                  exact ih hrest
      | malformed => exact ih h
      | other => exact ih h

theorem iniParseFile_error {lineno error : Int} {e : Fault} {t : BusConfigs κ}
    (h : runAll (parserHandler K) (entriesOf lines) s = .error e t) :
    iniParseFile K lineno error lines s = .error e t := by
  induction lines generalizing s lineno error with
  | nil => cases h
  | cons line rest ih =>
      cases line with
      | entry entry =>
          have hcons : entriesOf (.entry entry :: rest) = entry :: entriesOf rest := rfl
          rw [hcons, runAll, run_bind] at h
          rw [iniParseFile]
          simp only [run_bind]
          cases hstep : parserHandler K entry s with
          | error e' u =>
              simp only [hstep] at h ⊢
              obtain ⟨rfl, rfl⟩ := EStateM.Result.error.inj h
              rfl
          | ok rc u =>
              simp only [hstep, run_bind] at h
              cases hrest : runAll (parserHandler K) (entriesOf rest) u with
              | error e' v =>
                  simp only [hrest] at h
                  obtain ⟨rfl, rfl⟩ := EStateM.Result.error.inj h
                  exact ih hrest
              | ok codes' v => simp [hrest, run_pure] at h
      | malformed => exact ih h
      | other => exact ih h

/-- `parse_config` takes no line number for an error. -/
theorem parseConfig_of_parsed (h : iniParse K (some lines) s = .ok rc t) :
    parseConfig K (some lines) s = .ok exitSuccess t := by
  have hpos := (iniParseFile_code (Int.le_refl 0) (Int.le_refl 0) h).1
  unfold parseConfig
  rw [bind_of_ok h, if_neg (by omega), run_pure]

/-- A file that can be opened is accepted if it can be handled at all. -/
theorem parseConfig_ok {codes : List Int} {t : BusConfigs κ}
    (h : runAll (parserHandler K) (entriesOf lines) s = .ok codes t) :
    parseConfig K (some lines) s = .ok exitSuccess t := by
  obtain ⟨rc, hrun⟩ := iniParseFile_ok h
  exact parseConfig_of_parsed hrun

theorem parseConfig_error {e : Fault} {t : BusConfigs κ}
    (h : runAll (parserHandler K) (entriesOf lines) s = .error e t) :
    parseConfig K (some lines) s = .error e t :=
  bind_of_error (show iniParse K (some lines) s = .error e t from iniParseFile_error h)

end IniParse

/-- With this configuration neither `io_init` nor any request served after it
dereferences a null pointer. -/
def NeverNull (K : Kernel κ) (config : IoConfig BusHandle DevHandle) (w : Env κ) : Prop :=
  ∀ (β : Type) (buf : β),
    (∀ e t, ioInit (busDrv K) (devDrv K) ⟨⟨config, buf, w, []⟩, []⟩ = .error e t →
      e ≠ .nullDeref) ∧
    ∀ rc t, ioInit (busDrv K) (devDrv K) ⟨⟨config, buf, w, []⟩, []⟩ = .ok rc t →
      ∀ (cb : Callbacks β) (requests : List (IoData × IoCmd)) e u,
        runAll (fun r => performIo (devDrv K) cb r.1 r.2) requests t.sys = .error e u →
          e ≠ .nullDeref

theorem neverNull_of_equipped (hK : K.Allocates) {config : IoConfig BusHandle DevHandle}
    (h : config.Equipped) (w : Env κ) : NeverNull K config w := by
  intro β buf
  obtain ⟨hok, herror⟩ := ioInit_avoids (β := β) hK ⟨⟨config, buf, w, []⟩, []⟩ h
  refine ⟨herror, ?_⟩
  intro rc t hrun cb requests
  exact (runAll_avoids fun r _ => performIo_avoids cb r.1 r.2) t.sys (hok rc t hrun) |>.2

/-- The file is accepted, and what it configures is safe to run. -/
def SafeToRun (K : Kernel κ) (lines : List IniLine) (w : Env κ) : Prop :=
  ∃ t, parseConfig K (some lines) (userData (confInit zeroConfig).2 w) = .ok exitSuccess t ∧
    validateConfig t.config = exitSuccess ∧ t.config.Equipped ∧ NeverNull K t.config t.world

/-- The bus and the device lie within the counts of the file: it has so many
changes into a bus section, and so many `devdrv` lines on the bus. -/
def Counted (entries : List IniEntry) (slot : Slot) : Prop :=
  slot.1.val ≤ (Cursor.start.after entries).bus ∧ slot.2.val < driverLines entries slot.1

/-- A bus before the first entry is placed on it. -/
def emptyShelf : Shelf := ⟨⟨0, none, none⟩, fun _ => ⟨none, none, none⟩⟩

/-- Every counted device has a known driver, every bus with a driver has a
parameter behind its type, and so has every device that is on I2C. -/
structure CompleteFile (entries : List IniEntry) : Prop where
  confined : Confined (confInit zeroConfig).2 entries
  driver : ∀ slot, Counted entries slot →
    ∃ p ∈ onShelf slot.1 (place .start entries), (driverAt slot.2 p).isSome
  busData : ∀ b : Fin maxBusses, b.val ≤ (Cursor.start.after entries).bus →
    (∃ p ∈ onShelf b (place .start entries), p.setting.TypesBus) →
      Occurs (SetsBusData emptyShelf) (onShelf b (place .start entries))
  i2c : ∀ slot handle, Counted entries slot →
    lastSome (driverAt slot.2) (onShelf slot.1 (place .start entries)) = some handle →
    handle.OnI2c →
      Occurs (SetsBusData emptyShelf) (onShelf slot.1 (place .start entries)) ∧
        Occurs (SetsDevData emptyShelf slot.2) (onShelf slot.1 (place .start entries))

section Complete

variable {entries : List IniEntry} {t : BusConfigs κ}

/-- The pointers of the configuration that a file yields. -/
structure Reflects (entries : List IniEntry) (config : IoConfig BusHandle DevHandle) : Prop where
  numBusses : config.numBusses = (Cursor.start.after entries).bus + 1
  numDevices : ∀ b, (config.busses b).numDevices = driverLines entries b
  busHandle : ∀ b, (config.busses b).drvHandle.isSome ↔
    ∃ p ∈ onShelf b (place .start entries), p.setting.TypesBus
  busData : ∀ b, (config.busses b).busData.isSome ↔
    Occurs (SetsBusData emptyShelf) (onShelf b (place .start entries))
  drvHandle : ∀ slot, (config.devices slot).drvHandle =
    lastSome (driverAt slot.2) (onShelf slot.1 (place .start entries))
  devBusData : ∀ slot, (config.devices slot).devBusData.isSome ↔
    Occurs (SetsDevData emptyShelf slot.2) (onShelf slot.1 (place .start entries))

theorem Follows.reflects (hK : K.Allocates)
    (h : Follows K (confInit zeroConfig).2 (place .start entries)
      (Cursor.start.after entries) t) : Reflects entries t.config := by
  have hshelf (b : Fin maxBusses) :
      t.config.shelf b = emptyShelf.fill (onShelf b (place .start entries)) :=
    (h.shelves b).same hK
  have hbus (b : Fin maxBusses) :
      t.config.busses b = (emptyShelf.fill (onShelf b (place .start entries))).bus :=
    congrArg Shelf.bus (hshelf b)
  have hdev (slot : Slot) : t.config.devices slot =
      (emptyShelf.fill (onShelf slot.1 (place .start entries))).devices slot.2 :=
    congrFun (congrArg Shelf.devices (hshelf slot.1)) slot.2
  refine ⟨h.numBusses, h.numDevices fun _ => rfl, ?_, ?_, ?_, ?_⟩
  · intro b
    rw [hbus, fill_handle]
    simp [emptyShelf]
  · intro b
    rw [hbus, fill_busData]
    simp [emptyShelf]
  · intro slot
    rw [hdev, fill_driver]
    simp [emptyShelf]
  · intro slot
    rw [hdev, fill_devBusData]
    simp [emptyShelf]

theorem Reflects.hasSlot {config : IoConfig BusHandle DevHandle} (h : Reflects entries config)
    (slot : Slot) : config.HasSlot slot ↔ Counted entries slot := by
  simp only [IoConfig.HasSlot, Counted, h.numBusses, h.numDevices, Int.lt_add_one_iff,
    Int.ofNat_lt]

theorem cursor_bus_ge (c : Cursor) (entries : List IniEntry) : c.bus ≤ (c.after entries).bus := by
  induction entries using List.reverseRecOn with
  | nil => exact Int.le_refl _
  | append_singleton entries e ih =>
      rw [after_concat]
      refine Int.le_trans ih ?_
      unfold Cursor.enter
      split
      · exact Int.le_refl _
      · split
        · simp only
          omega
        · split <;> exact Int.le_refl _

theorem Reflects.equipped_iff {config : IoConfig BusHandle DevHandle}
    (h : Reflects entries config)
    (hfits : Always (Fits (confInit zeroConfig).2) (place .start entries)) :
    config.Equipped ↔ CompleteFile entries := by
  have hstart := cursor_bus_ge .start entries
  have hzero : Cursor.start.bus = -1 := rfl
  constructor
  · intro hequipped
    have hbounded := hequipped.bounded
    refine ⟨⟨hfits, ?_, ?_⟩, ?_, ?_, ?_⟩
    · have hbusses := hbounded.busses.2
      rw [h.numBusses] at hbusses
      omega
    · intro b
      have hdevices := (hbounded.devices b).2
      rw [h.numDevices] at hdevices
      exact Int.ofNat_le.mp hdevices
    · intro slot hslot
      have hsome := hequipped.driver slot ((h.hasSlot slot).mpr hslot)
      rwa [h.drvHandle, isSome_lastSome] at hsome
    · intro b hb htyped
      refine (h.busData b).mp (hequipped.busData b ?_ ((h.busHandle b).mpr htyped))
      rw [h.numBusses]
      omega
    · intro slot handle hslot hhandle hi2c
      obtain ⟨hbus, hdev⟩ := hequipped.i2c slot handle ((h.hasSlot slot).mpr hslot)
        ((h.drvHandle slot).trans hhandle) hi2c
      exact ⟨(h.busData slot.1).mp hbus, (h.devBusData slot).mp hdev⟩
  · rintro ⟨⟨-, hbusses, hdevices⟩, hdriver, hbusData, hi2c⟩
    refine ⟨⟨?_, ?_⟩, ?_, ?_, ?_⟩
    · rw [h.numBusses]
      constructor <;> omega
    · intro b
      rw [h.numDevices]
      exact ⟨Int.natCast_nonneg _, Int.ofNat_le.mpr (hdevices b)⟩
    · intro slot hslot
      rw [h.drvHandle, isSome_lastSome]
      exact hdriver slot ((h.hasSlot slot).mp hslot)
    · intro b hb hhandle
      rw [h.numBusses] at hb
      exact (h.busData b).mpr (hbusData b (by omega) ((h.busHandle b).mp hhandle))
    · intro slot handle hslot hhandle honI2c
      obtain ⟨hbus, hdev⟩ := hi2c slot handle ((h.hasSlot slot).mp hslot)
        ((h.drvHandle slot).symm.trans hhandle) honI2c
      exact ⟨(h.busData slot.1).mpr hbus, (h.devBusData slot).mpr hdev⟩

end Complete

/-- An accepted file is safe to run exactly if it is complete. -/
theorem safeToRun_iff (hK : K.Allocates) (lines : List IniLine) (w : Env κ) :
    SafeToRun K lines w ↔ CompleteFile (entriesOf lines) := by
  by_cases hfits : Always (Fits (confInit zeroConfig).2) (place .start (entriesOf lines))
  · obtain ⟨t, hrun, ht⟩ := run_follows (K := K) rfl w hfits
    have hparse := parseConfig_ok hrun
    rw [← (ht.reflects hK).equipped_iff hfits]
    constructor
    · rintro ⟨t', hparse', -, hequipped, -⟩
      obtain ⟨-, rfl⟩ := EStateM.Result.ok.inj (hparse.symm.trans hparse')
      exact hequipped
    · intro hequipped
      exact ⟨t, hparse, rfl, hequipped, neverNull_of_equipped hK hequipped t.world⟩
  · constructor
    · rintro ⟨t, hparse, -⟩
      obtain ⟨t', hrun⟩ := run_unfit (K := K) rfl w hfits
      cases (parseConfig_error hrun).symm.trans hparse
    · intro hcomplete
      exact absurd hcomplete.confined.fits hfits

/-- A string constant. -/
def cString (s : String) : CString := ⟨s.toList.filter (· ≠ nul), by simp⟩

/-- The lines of a file with these sections, names and values. -/
def fileOf (entries : List (String × String × String)) : List IniLine :=
  entries.map fun e => .entry ⟨cString e.1, cString e.2.1, cString e.2.2⟩

/-- `config/io_ext.ini`. -/
def ioExtFile : List IniLine := fileOf
  [("bus-0", "bus_type", "i2c"), ("bus-0", "bus_parameter", "/dev/i2c-1"),
    ("device-0", "devdrv", "pcf8574"), ("device-0", "dev_parameter", "0x20"),
    ("device-1", "devdrv", "pcf8574"), ("device-1", "dev_parameter", "0x38"),
    ("bus-1", "bus_type", "piface"), ("device-0", "devdrv", "piface")]

theorem safeToRun_iff_ioExt :
    SafeToRun calmKernel ioExtFile calmWorld ↔ CompleteFile (entriesOf ioExtFile) :=
  safeToRun_iff (fun _ => rfl) ioExtFile calmWorld

/-- One device, with the name of its driver misspelt. -/
def misspeltFile : List IniLine := fileOf
  [("bus-0", "bus_type", "i2c"), ("bus-0", "bus_parameter", "/dev/i2c-1"),
    ("device-0", "devdrv", "pcf8547"), ("device-0", "dev_parameter", "0x20")]

/-- The file is accepted, and its one device is counted but has no driver. -/
theorem misspelt_not_safe :
    (∃ t, parseConfig calmKernel (some misspeltFile) (userData (confInit zeroConfig).2 calmWorld) =
        .ok exitSuccess t ∧
      validateConfig t.config = exitSuccess ∧ ¬ t.config.Equipped) ∧
      ¬ SafeToRun calmKernel misspeltFile calmWorld := by
  have hyields : yields (parseConfig calmKernel (some misspeltFile))
      (userData (confInit zeroConfig).2 calmWorld)
      (fun rc t => decide (rc = exitSuccess) && decide (t.config.HasSlot (0, 0)) &&
        (t.config.devices (0, 0)).drvHandle.isNone) = true := by
    decide +kernel
  obtain ⟨rc, t, hrun, htest⟩ := exists_of_yields hyields
  simp only [Bool.and_eq_true, decide_eq_true_eq] at htest
  obtain ⟨⟨rfl, hslot⟩, hnone⟩ := htest
  have hunequipped : ¬ t.config.Equipped := by
    intro hequipped
    have hdriver := hequipped.driver (0, 0) hslot
    rw [Option.isNone_iff_eq_none.mp hnone] at hdriver
    cases hdriver
  refine ⟨⟨t, hrun, rfl, hunequipped⟩, ?_⟩
  rintro ⟨t', hparse, -, hequipped, -⟩
  obtain ⟨-, rfl⟩ := EStateM.Result.ok.inj (hrun.symm.trans hparse)
  exact hunequipped hequipped

end Switcher
