import Switcher.Config.Contents

/-!
Reading a file into a configuration that has been used before. `conf_init` resets
everything but the bus drivers, and a bus that still has one keeps parameters
that a fresh bus loses.
-/

namespace Switcher

open Lib.Program Lib.Text Lib.History

variable {κ : Type} {K : Kernel κ}

/-- The entries of a bus make up for any driver it had: one of them types it, and
what is given in front of that entry is given again behind it. -/
structure Retypes (entries : List Placed) : Prop where
  typed : ∃ p ∈ entries, p.setting.TypesBus
  busData : (∃ p ∈ entries, (busParam.given p).isSome) → Behind busParam entries
  devBusData : ∀ d, (∃ p ∈ entries, ((devParam d).given p).isSome) → Behind (devParam d) entries

theorem retypes_iff {entries : List Placed} :
    Retypes entries ↔ (∃ p ∈ entries, p.setting.TypesBus) ∧
      ((∃ p ∈ entries, (busParam.given p).isSome) → Behind busParam entries) ∧
      ∀ d, (∃ p ∈ entries, ((devParam d).given p).isSome) → Behind (devParam d) entries :=
  ⟨fun ⟨htyped, hbus, hdev⟩ => ⟨htyped, hbus, hdev⟩,
    fun ⟨htyped, hbus, hdev⟩ => ⟨htyped, hbus, hdev⟩⟩

section Stale

variable {fresh stale : Shelf} {entries : List Placed}

/-- A parameter that neither shelf has comes out the same if it is not given, or
given behind the entry that types the bus. -/
theorem get_stale_iff {α : Type} (π : Parameter α) (hfresh : ¬ fresh.bus.drvHandle.isSome)
    (hstale : stale.bus.drvHandle.isSome) (hget : π.get stale = π.get fresh)
    (hnone : π.get fresh = none) (htyped : ∃ p ∈ entries, p.setting.TypesBus) :
    π.get (stale.fill entries) = π.get (fresh.fill entries) ↔
      ((∃ p ∈ entries, (π.given p).isSome) → Behind π entries) := by
  obtain ⟨past, q, rest, rfl, hq, hpast⟩ := exists_first htyped
  rw [fill_typed π hstale, fill_first π hfresh hpast hq, hget, hnone, Option.or_none,
    Option.or_none, behind_first π hpast hq, ← List.singleton_append, ← List.append_assoc]
  exact lastSome_append_eq_iff

/-- A shelf that only still has the driver of its bus, against one without. -/
structure StaleOf (fresh stale : Shelf) : Prop where
  noDriver : ¬ fresh.bus.drvHandle.isSome
  driver : stale.bus.drvHandle.isSome
  numDevices : stale.bus.numDevices = fresh.bus.numDevices
  noBusData : fresh.bus.busData = none
  busData : stale.bus.busData = fresh.bus.busData
  noDevBusData : ∀ d, (fresh.devices d).devBusData = none
  devices : stale.devices = fresh.devices

theorem fill_stale_iff (h : StaleOf fresh stale) :
    stale.fill entries = fresh.fill entries ↔ Retypes entries := by
  have hnum : (stale.fill entries).bus.numDevices = (fresh.fill entries).bus.numDevices := by
    rw [fill_numDevices, fill_numDevices, h.numDevices]
  have hdriver (d : Fin maxIoDevices) : ((stale.fill entries).devices d).drvHandle =
      ((fresh.fill entries).devices d).drvHandle := by
    rw [fill_driver, fill_driver, h.devices]
  have hget (d : Fin maxIoDevices) : (devParam d).get stale = (devParam d).get fresh :=
    congrArg IoDev.devBusData (congrFun h.devices d)
  have hhandle : ((stale.fill entries).bus.drvHandle.isSome ↔
      (fresh.fill entries).bus.drvHandle.isSome) ↔ ∃ p ∈ entries, p.setting.TypesBus := by
    simp [fill_handle, h.driver, h.noDriver]
  rw [fill_eq_iff hnum hdriver fun d => by rw [h.devices], hhandle, retypes_iff]
  apply and_congr_right
  intro htyped
  apply and_congr
  · exact get_stale_iff busParam h.noDriver h.driver h.busData h.noBusData htyped
  · exact forall_congr' fun d =>
      get_stale_iff (devParam d) h.noDriver h.driver (hget d) (h.noDevBusData d) htyped

end Stale

section ConfInit

variable {a c : IoConfig BusHandle DevHandle}

theorem staleOf_confInit (a c : IoConfig BusHandle DevHandle) (b : Fin maxBusses)
    (ha : ¬ (a.busses b).drvHandle.isSome) (hc : (c.busses b).drvHandle.isSome) :
    StaleOf ((confInit a).2.shelf b) ((confInit c).2.shelf b) :=
  ⟨ha, hc, rfl, rfl, rfl, fun _ => rfl, rfl⟩

/-- What `conf_init` leaves of a bus is its driver. -/
theorem shelf_confInit {b : Fin maxBusses} (h : (a.busses b).drvHandle = (c.busses b).drvHandle) :
    (confInit a).2.shelf b = (confInit c).2.shelf b := by
  simp only [confInit, IoConfig.shelf, h]

/-- The same entries on a bus of two configurations after `conf_init`. -/
theorem shelfOf_confInit_iff (a c : IoConfig BusHandle DevHandle) (placed : List Placed)
    (b : Fin maxBusses) :
    shelfOf (confInit a).2 placed b = shelfOf (confInit c).2 placed b ↔
      (a.busses b).drvHandle = (c.busses b).drvHandle ∨ Retypes (onShelf b placed) := by
  by_cases hsame : (a.busses b).drvHandle = (c.busses b).drvHandle
  · have hshelf := shelf_confInit hsame
    simp [shelfOf, hshelf, hsame]
  · rw [or_iff_right hsame, shelfOf, shelfOf]
    by_cases ha : (a.busses b).drvHandle.isSome
    · have hc : ¬ (c.busses b).drvHandle.isSome := fun hc =>
        hsame (busHandle_eq ⟨fun _ => hc, fun _ => ha⟩)
      exact fill_stale_iff (staleOf_confInit c a b hc ha)
    · have hc : (c.busses b).drvHandle.isSome := by
        by_contra hc
        exact hsame (busHandle_eq ⟨fun h => absurd h ha, fun h => absurd h hc⟩)
      rw [eq_comm]
      exact fill_stale_iff (staleOf_confInit a c b ha hc)

end ConfInit

/-- Two configurations with anything in them, reset and filled from the same file:
the results are equal exactly if on every bus the drivers left from before agree,
or the file makes up for them. -/
theorem confInit_forgets_iff (hK : K.Allocates) {a c : IoConfig BusHandle DevHandle}
    {w w' : Env κ} {lines : List IniLine} {rc rc' : Int} {t t' : BusConfigs κ}
    (ha : parseConfig K (some lines) (userData (confInit a).2 w) = .ok rc t)
    (hc : parseConfig K (some lines) (userData (confInit c).2 w') = .ok rc' t') :
    t.config = t'.config ↔ ∀ b, (a.busses b).drvHandle = (c.busses b).drvHandle ∨
      Retypes (onShelf b (place .start (entriesOf lines))) := by
  have hfollows := follows_of_parse rfl ha
  have hfollows' := follows_of_parse rfl hc
  have hnum : t.config.numBusses = t'.config.numBusses :=
    hfollows.numBusses.trans hfollows'.numBusses.symm
  rw [config_eq_iff, and_iff_right hnum]
  apply forall_congr'
  intro b
  rw [(hfollows.shelves b).same hK, (hfollows'.shelves b).same hK]
  exact shelfOf_confInit_iff a c _ b

/-- A configuration whose first bus was an I2C bus. -/
def usedConfig : IoConfig BusHandle DevHandle :=
  { zeroConfig with
    busses := fun b => if b = 0 then ⟨0, some .i2cLinux, none⟩ else ⟨0, none, none⟩ }

theorem confInit_forgets_iff_ioExt :
    ∃ rc t rc' t',
      parseConfig calmKernel (some ioExtFile) (userData (confInit zeroConfig).2 calmWorld) =
        .ok rc t ∧
      parseConfig calmKernel (some ioExtFile) (userData (confInit usedConfig).2 calmWorld) =
        .ok rc' t' ∧
      (t.config = t'.config ↔
        ∀ b, (zeroConfig.busses b).drvHandle = (usedConfig.busses b).drvHandle ∨
          Retypes (onShelf b (place .start (entriesOf ioExtFile)))) := by
  have hfresh : yields (parseConfig calmKernel (some ioExtFile))
      (userData (confInit zeroConfig).2 calmWorld) (fun _ _ => true) = true := by decide +kernel
  have hused : yields (parseConfig calmKernel (some ioExtFile))
      (userData (confInit usedConfig).2 calmWorld) (fun _ _ => true) = true := by decide +kernel
  obtain ⟨rc, t, hrun, -⟩ := exists_of_yields hfresh
  obtain ⟨rc', t', hrun', -⟩ := exists_of_yields hused
  exact ⟨rc, t, rc', t', hrun, hrun', confInit_forgets_iff (fun _ => rfl) hrun hrun'⟩

/-- One PiFace, on a bus whose type says so. -/
def pifaceFile : List IniLine := fileOf
  [("bus-0", "bus_type", "piface"), ("device-0", "devdrv", "piface")]

/-- On the bus that was an I2C bus before, the PiFace is found behind the I2C driver. -/
theorem pifaceFile_remembers :
    ∃ rc t rc' t',
      parseConfig calmKernel (some pifaceFile) (userData (confInit zeroConfig).2 calmWorld) =
        .ok rc t ∧
      parseConfig calmKernel (some pifaceFile) (userData (confInit usedConfig).2 calmWorld) =
        .ok rc' t' ∧
      t.config ≠ t'.config := by
  have hfresh : yields (parseConfig calmKernel (some pifaceFile))
      (userData (confInit zeroConfig).2 calmWorld)
      (fun _ t => (t.config.busses 0).drvHandle.isNone) = true := by decide +kernel
  have hused : yields (parseConfig calmKernel (some pifaceFile))
      (userData (confInit usedConfig).2 calmWorld)
      (fun _ t => (t.config.busses 0).drvHandle.isSome) = true := by decide +kernel
  obtain ⟨rc, t, hrun, hnone⟩ := exists_of_yields hfresh
  obtain ⟨rc', t', hrun', hsome⟩ := exists_of_yields hused
  refine ⟨rc, t, rc', t', hrun, hrun', ?_⟩
  intro heq
  rw [heq, Option.isNone_iff_eq_none] at hnone
  rw [hnone] at hsome
  cases hsome

end Switcher
