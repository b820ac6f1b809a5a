import Switcher.Config.Ready

/-!
What a stream leaves in a shelf, field by field. Counts and device drivers only
depend on the stream; the data of a bus or a device is kept by entries behind one
that gives the bus a driver, unless the bus had a driver to begin with.
-/

namespace Switcher

open Lib.Program Lib.Interleaving Lib.Text Lib.History

variable {κ : Type} {K : Kernel κ}

/-- A field of a shelf that one key sets where the bus has a driver. -/
structure Parameter (α : Type) where
  get : Shelf → Option α
  given : Placed → Option α
  apart : ∀ p q, p.setting.Apart q.setting → given p = none ∨ given q = none
  put : ∀ shelf p, get (shelf.put true p.dev p.setting) =
    if shelf.bus.drvHandle.isSome then (given p).or (get shelf) else get shelf

def givenBusData (p : Placed) : Option I2cLinuxBusData :=
  match p.setting with
  | .busParameter value => some (i2cBusData value)
  | _ => none

def givenDevData (d : Fin maxIoDevices) (p : Placed) : Option I2cLinuxDevData :=
  match p.setting with
  | .devParameter value => if (d.val : Int) = p.dev then some (i2cDevData value) else none
  | _ => none

def busParam : Parameter I2cLinuxBusData where
  get shelf := shelf.bus.busData
  given := givenBusData
  apart p q h := by
    unfold givenBusData
    cases hp : p.setting <;> cases hq : q.setting <;> simp_all [Setting.Apart]
  put shelf p := by
    unfold givenBusData
    cases p.setting with
    | busParameter value =>
        simp only [Shelf.put]
        split <;> rfl
    | busType handle => cases handle <;> simp [Shelf.put]
    | devDriver handle => cases handle <;> simp [Shelf.put]
    | devParameter value =>
        simp only [Shelf.put, Shelf.changeDev]
        split <;> rfl
    | unknown => simp [Shelf.put]

def devParam (d : Fin maxIoDevices) : Parameter I2cLinuxDevData where
  get shelf := (shelf.devices d).devBusData
  given := givenDevData d
  apart p q h := by
    unfold givenDevData
    cases hp : p.setting <;> cases hq : q.setting <;> simp_all [Setting.Apart]
  put shelf p := by
    unfold givenDevData
    cases p.setting with
    | busParameter value =>
        simp only [Shelf.put]
        split <;> rfl
    | busType handle => cases handle <;> simp [Shelf.put]
    | devDriver handle =>
        cases handle with
        | none => simp [Shelf.put]
        | some handle =>
            simp only [Shelf.put, changeDev_apply]
            split <;> simp
    | devParameter value =>
        simp only [Shelf.put]
        by_cases hsome : shelf.bus.drvHandle.isSome
        · rw [if_pos hsome, if_pos hsome, changeDev_apply]
          split <;> rfl
        · rw [if_neg hsome, if_neg hsome]
    | unknown => simp [Shelf.put]

section Fill

variable {α : Type} (π : Parameter α) {shelf : Shelf} {entries : List Placed}

/-- With a driver, the last value given is kept. -/
theorem fill_typed (h : shelf.bus.drvHandle.isSome) :
    π.get (shelf.fill entries) = (lastSome π.given entries).or (π.get shelf) := by
  induction entries using List.reverseRecOn with
  | nil => rfl
  | append_singleton entries p ih =>
      have hsome := (fill_handle shelf entries).mpr (.inl h)
      rw [fill_concat, π.put, if_pos hsome, ih, lastSome_concat, Option.or_assoc]

/-- Without a driver nothing is kept. -/
theorem fill_untyped (h : ¬ shelf.bus.drvHandle.isSome)
    (hnone : ∀ p ∈ entries, ¬ p.setting.TypesBus) : π.get (shelf.fill entries) = π.get shelf := by
  induction entries using List.reverseRecOn with
  | nil => rfl
  | append_singleton entries p ih =>
      have hstill : ¬ (shelf.fill entries).bus.drvHandle.isSome := by
        rw [fill_handle]
        rintro (hsome | ⟨q, hq, htype⟩)
        · exact h hsome
        · exact hnone q (by simp [hq]) htype
      rw [fill_concat, π.put, if_neg hstill]
      exact ih fun q hq => hnone q (by simp [hq])

/-- Behind the first entry that gives the bus a driver, the last value given is
kept, and what is given in front of it is lost. -/
theorem fill_first (h : ¬ shelf.bus.drvHandle.isSome) {past rest : List Placed} {q : Placed}
    (hnone : ∀ p ∈ past, ¬ p.setting.TypesBus) (hq : q.setting.TypesBus) :
    π.get (shelf.fill (past ++ q :: rest)) = (lastSome π.given rest).or (π.get shelf) := by
  have hstill : ¬ (shelf.fill past).bus.drvHandle.isSome := by
    rw [fill_handle]
    rintro (hsome | ⟨p, hp, htype⟩)
    · exact h hsome
    · exact hnone p hp htype
  have htyped : (shelf.fill (past ++ [q])).bus.drvHandle.isSome :=
    (fill_handle shelf _).mpr (.inr ⟨q, by simp, hq⟩)
  rw [← List.singleton_append, ← List.append_assoc, fill_append, fill_typed π htyped, fill_concat,
    π.put, if_neg hstill, fill_untyped π h hnone]

/-- A value is given behind an entry that gives the bus a driver. -/
def Behind (entries : List Placed) : Prop :=
  Occurs (fun past p => (π.given p).isSome ∧ ∃ q ∈ past, q.setting.TypesBus) entries

theorem behind_first {past rest : List Placed} {q : Placed}
    (hnone : ∀ p ∈ past, ¬ p.setting.TypesBus) (hq : q.setting.TypesBus) :
    Behind π (past ++ q :: rest) ↔ ∃ p ∈ rest, (π.given p).isSome := by
  induction rest using List.reverseRecOn with
  | nil =>
      have hpast : ¬ Behind π past := by
        rintro ⟨front, p, back, rfl, -, r, hr, htype⟩
        exact hnone r (by simp [hr]) htype
      rw [Behind, occurs_concat]
      constructor
      · rintro (hocc | ⟨-, r, hr, htype⟩)
        · exact absurd hocc hpast
        · exact absurd htype (hnone r hr)
      · simp
  | append_singleton rest p ih =>
      have htyped : ∃ r ∈ past ++ q :: rest, r.setting.TypesBus := ⟨q, by simp, hq⟩
      rw [← List.cons_append, ← List.append_assoc, Behind, occurs_concat, ← Behind, ih,
        and_iff_left htyped]
      simp [or_and_right, exists_or]

theorem fill_devData (shelf : Shelf) (entries : List Placed) (d : Fin maxIoDevices) :
    ((shelf.fill entries).devices d).devData = (shelf.devices d).devData := by
  induction entries using List.reverseRecOn with
  | nil => rfl
  | append_singleton entries p ih =>
      rw [fill_concat, ← ih]
      generalize shelf.fill entries = shelf'
      cases p.setting with
      | busParameter value =>
          simp only [Shelf.put]
          split <;> rfl
      | busType handle => cases handle <;> rfl
      | devDriver handle =>
          cases handle with
          | none => rfl
          | some handle =>
              simp only [Shelf.put, changeDev_apply]
              split <;> rfl
      | devParameter value =>
          simp only [Shelf.put]
          split
          · rw [changeDev_apply]
            split <;> rfl
          · rfl
      | unknown => rfl

end Fill

section Equality

theorem busHandle_eq {h h' : Option BusHandle} (hiff : h.isSome ↔ h'.isSome) : h = h' := by
  rcases h with _ | ⟨⟨⟩⟩ <;> rcases h' with _ | ⟨⟨⟩⟩ <;> simp_all

theorem ioDev_eq {dev dev' : IoDev DevHandle} (hdriver : dev.drvHandle = dev'.drvHandle)
    (hbusData : dev.devBusData = dev'.devBusData) (hdata : dev.devData = dev'.devData) :
    dev = dev' := by
  obtain ⟨handle, busData, data⟩ := dev
  obtain ⟨handle', busData', data'⟩ := dev'
  obtain rfl : handle = handle' := hdriver
  obtain rfl : busData = busData' := hbusData
  obtain rfl : data = data' := hdata
  rfl

/-- Two shelves that got the same counts and device drivers are equal if their bus
driver and their data are. -/
theorem fill_eq_iff {shelf shelf' : Shelf} {entries entries' : List Placed}
    (hnum : (shelf.fill entries).bus.numDevices = (shelf'.fill entries').bus.numDevices)
    (hdriver : ∀ d, ((shelf.fill entries).devices d).drvHandle =
      ((shelf'.fill entries').devices d).drvHandle)
    (hdata : ∀ d, (shelf.devices d).devData = (shelf'.devices d).devData) :
    shelf.fill entries = shelf'.fill entries' ↔
      ((shelf.fill entries).bus.drvHandle.isSome ↔ (shelf'.fill entries').bus.drvHandle.isSome) ∧
        busParam.get (shelf.fill entries) = busParam.get (shelf'.fill entries') ∧
        ∀ d, (devParam d).get (shelf.fill entries) = (devParam d).get (shelf'.fill entries') := by
  constructor
  · intro heq
    rw [heq]
    exact ⟨Iff.rfl, rfl, fun _ => rfl⟩
  · rintro ⟨hhandle, hbus, hdev⟩
    have hdevData (d : Fin maxIoDevices) : ((shelf.fill entries).devices d).devData =
        ((shelf'.fill entries').devices d).devData := by
      rw [fill_devData, fill_devData, hdata]
    generalize shelf.fill entries = filled at *
    generalize shelf'.fill entries' = filled' at *
    obtain ⟨⟨n, h, data⟩, devices⟩ := filled
    obtain ⟨⟨n', h', data'⟩, devices'⟩ := filled'
    obtain rfl : n = n' := hnum
    obtain rfl : h = h' := busHandle_eq hhandle
    obtain rfl : data = data' := hbus
    obtain rfl : devices = devices' := funext fun d =>
      ioDev_eq (hdriver d) (hdev d) (hdevData d)
    rfl

theorem config_eq_iff {config config' : IoConfig BusHandle DevHandle} :
    config = config' ↔
      config.numBusses = config'.numBusses ∧ ∀ b, config.shelf b = config'.shelf b := by
  constructor
  · rintro rfl
    exact ⟨rfl, fun _ => rfl⟩
  · rintro ⟨hnum, hshelf⟩
    exact ioConfig_ext hnum hshelf

end Equality

/-- A file that has been parsed fits into the tables, and its shelves are filled. -/
theorem follows_of_parse {config : IoConfig BusHandle DevHandle} (hzero : config.numBusses = 0)
    {w : Env κ} {lines : List IniLine} {rc : Int} {t : BusConfigs κ}
    (h : parseConfig K (some lines) (userData config w) = .ok rc t) :
    Follows K config (place .start (entriesOf lines)) (Cursor.start.after (entriesOf lines)) t := by
  by_cases hfits : Always (Fits config) (place .start (entriesOf lines))
  · obtain ⟨t', hrun, ht'⟩ := run_follows (K := K) hzero w hfits
    obtain ⟨-, rfl⟩ := EStateM.Result.ok.inj ((parseConfig_ok hrun).symm.trans h)
    exact ht'
  · obtain ⟨t', hrun⟩ := run_unfit (K := K) hzero w hfits
    cases (parseConfig_error hrun).symm.trans h

/-- The first entry overwrites the number of buses. -/
theorem parserHandler_numBusses (e : IniEntry) (config : IoConfig BusHandle DevHandle) (w : Env κ) :
    parserHandler K e (userData config w) =
      parserHandler K e (userData { config with numBusses := 0 } w) := by
  have hupdate : updateUserData e.sectionName (userData config w) =
      updateUserData e.sectionName (userData { config with numBusses := 0 } w) := by
    unfold updateUserData
    rw [bind_of_ok (run_get _), bind_of_ok (run_get _)]
    have hlast : (userData { config with numBusses := 0 } w).lastSection =
        (userData config w).lastSection := rfl
    rw [hlast]
    split
    · split
      · rfl
      · split <;> rfl
    · rfl
  rw [parserHandler, run_bind, run_bind, hupdate]

/-- What a file leaves in a configuration with anything in it. -/
theorem shelf_of_parse (hK : K.Allocates) {config : IoConfig BusHandle DevHandle} {w : Env κ}
    {lines : List IniLine} {rc : Int} {t : BusConfigs κ}
    (h : parseConfig K (some lines) (userData config w) = .ok rc t) :
    (∀ b, t.config.shelf b = shelfOf config (place .start (entriesOf lines)) b) ∧
      t.config.numBusses = if entriesOf lines = [] then config.numBusses
        else (Cursor.start.after (entriesOf lines)).bus + 1 := by
  cases hentries : entriesOf lines with
  | nil =>
      have hrun : runAll (parserHandler K) (entriesOf lines) (userData config w) =
          .ok [] (userData config w) := by
        rw [hentries]
        rfl
      obtain ⟨-, rfl⟩ := EStateM.Result.ok.inj ((parseConfig_ok hrun).symm.trans h)
      exact ⟨fun _ => rfl, rfl⟩
  | cons e rest =>
      have hsame : runAll (parserHandler K) (entriesOf lines) (userData config w) =
          runAll (parserHandler K) (entriesOf lines)
            (userData { config with numBusses := 0 } w) := by
        rw [hentries, runAll, run_bind, run_bind, parserHandler_numBusses]
      cases hrun : runAll (parserHandler K) (entriesOf lines) (userData config w) with
      | error e u => cases (parseConfig_error hrun).symm.trans h
      | ok codes u =>
          obtain ⟨-, rfl⟩ := EStateM.Result.ok.inj ((parseConfig_ok hrun).symm.trans h)
          have hfollows := follows_of_parse rfl (parseConfig_ok (hsame ▸ hrun))
          rw [← hentries, if_neg (by simp [hentries])]
          exact ⟨fun b => (hfollows.shelves b).same hK, hfollows.numBusses⟩

end Switcher
