import Switcher.Config.Run

/-!
The tables that the parser writes. The cursors are used unchecked, and
`num_devices` counts `devdrv` lines whatever slot they stand for, so staying
inside is a property of the file.
-/

namespace Switcher

open Lib.Program Lib.Interleaving Lib.Text Lib.History

variable {κ : Type} {K : Kernel κ} {config : IoConfig BusHandle DevHandle}
  {entries : List IniEntry}

/-- The parser handles the stream without leaving its tables, and the counts it
ends with lie within them. -/
def StaysInside (K : Kernel κ) (config : IoConfig BusHandle DevHandle)
    (entries : List IniEntry) (w : Env κ) : Prop :=
  ∃ codes t, runAll (parserHandler K) entries (userData (confInit config).2 w) = .ok codes t ∧
    t.config.numBusses ≤ maxBusses ∧ ∀ b, (t.config.busses b).numDevices ≤ maxIoDevices

/-- How often a `devdrv` line is placed on the bus. -/
def driverLines (entries : List IniEntry) (b : Fin maxBusses) : Nat :=
  (onShelf b (place .start entries)).countP (·.setting.isDriver)

/-- Every entry finds its cursors within the tables it uses, and there is neither
a ninth bus nor a bus with more than 128 `devdrv` lines. -/
structure Confined (config : IoConfig BusHandle DevHandle) (entries : List IniEntry) : Prop where
  fits : Always (Fits config) (place .start entries)
  busses : (Cursor.start.after entries).bus < maxBusses
  devices : ∀ b, driverLines entries b ≤ maxIoDevices

theorem Follows.numDevices {s : BusConfigs κ} {c : Cursor} {past : List Placed}
    (h : Follows K config past c s) (hzero : ∀ b, (config.busses b).numDevices = 0)
    (b : Fin maxBusses) :
    (s.config.busses b).numDevices = (onShelf b past).countP (·.setting.isDriver) := by
  have hnum : (s.config.busses b).numDevices = (shelfOf config past b).bus.numDevices :=
    (h.shelves b).numDevices
  rw [hnum, shelfOf, fill_numDevices]
  simp [IoConfig.shelf, hzero b]

/-- `conf_init` leaves a driver that a bus had, so a file is judged against the
configuration it is read into. -/
theorem staysInside_iff (K : Kernel κ) (config : IoConfig BusHandle DevHandle)
    (entries : List IniEntry) (w : Env κ) :
    StaysInside K config entries w ↔ Confined (confInit config).2 entries := by
  constructor
  · rintro ⟨codes, t, hrun, hbusses, hdevices⟩
    have hfits : Always (Fits (confInit config).2) (place .start entries) := by
      by_contra hnot
      obtain ⟨t', hrun'⟩ := run_unfit (K := K) rfl w hnot
      cases hrun'.symm.trans hrun
    obtain ⟨t', hrun', ht⟩ := run_follows (K := K) rfl w hfits
    obtain ⟨-, rfl⟩ := EStateM.Result.ok.inj (hrun'.symm.trans hrun)
    refine ⟨hfits, ?_, ?_⟩
    · rw [ht.numBusses] at hbusses
      omega
    · intro b
      have hb := hdevices b
      rw [ht.numDevices (fun _ => rfl) b] at hb
      exact Int.ofNat_le.mp hb
  · rintro ⟨hfits, hbusses, hdevices⟩
    obtain ⟨t, hrun, ht⟩ := run_follows (K := K) rfl w hfits
    refine ⟨_, t, hrun, ?_, ?_⟩
    · rw [ht.numBusses]
      omega
    · intro b
      rw [ht.numDevices (fun _ => rfl) b]
      exact Int.ofNat_le.mpr (hdevices b)

/-- A zeroed `io_config`. -/
def zeroConfig : IoConfig BusHandle DevHandle where
  numBusses := 0
  busses _ := ⟨0, none, none⟩
  devices _ := ⟨none, none, none⟩

/-- An operating system in which every call succeeds. -/
def calmKernel : Kernel Unit where
  i2cSlave _ _ os := (0, os)
  i2cSmbus _ _ os := ((0, 0), os)
  spiMessage _ _ os := ((0, 0), os)
  spiQuery _ _ os := (0, os)
  openFile _ os := (3, os)
  closeFile _ os := (0, os)
  strerror _ := []
  malloc os := (true, os)

def calmWorld : Env Unit := ⟨.null, ()⟩

/-- `bus_type = i2c` in front of the first section header. -/
def headless : IniEntry := ⟨⟨[], by decide⟩, ⟨iniBusType, by decide⟩, ⟨iniBusTypeI2c, by decide⟩⟩

/-- A line before the first section is stored in front of the table of buses. -/
theorem headless_leaves_tables : ¬ StaysInside calmKernel zeroConfig [headless] calmWorld := by
  rintro ⟨codes, t, hrun, -⟩
  have herror : ∃ t, runAll (parserHandler calmKernel) [headless]
      (userData (confInit zeroConfig).2 calmWorld) = .error .outOfBounds t := ⟨_, rfl⟩
  obtain ⟨t', herror⟩ := herror
  cases herror.symm.trans hrun

end Switcher
