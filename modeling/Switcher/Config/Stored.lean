import Switcher.Config.Sections

/-!
What the headers and entries of a file are worth. A device is counted at each
`devdrv` line, and a parameter that the bus has no driver for is dropped, so not every
section makes a device and not every entry is stored in it.
-/

namespace Switcher

open Lib.Program Lib.Interleaving Lib.Text Lib.History

variable {κ : Type} {K : Kernel κ}

section Properties

variable (K) (config : IoConfig BusHandle DevHandle) (w : Env κ) (file : SectionFile)

/-- The device holds what the entry says: the driver that it names, or what the driver
of the bus makes of its value. -/
def Setting.HeldBy (w : Env κ) (bus : IoBus BusHandle) (dev : IoDev DevHandle) : Setting → Prop
  | .devDriver (some handle) => dev.drvHandle = some handle
  | .devParameter value => ∃ handle getBusDevData, bus.drvHandle = some handle ∧
      (busDrv K handle).getBusDevData = some getBusDevData ∧
      dev.devBusData = (getBusDevData value w).1
  | _ => False

/-- From `u` to `v` the entry is handled as one of the device in `slot`, which holds it
then. No other device has changed, and of no bus the driver or its data. -/
structure Stored (e : IniEntry) (slot : Slot) (u v : BusConfigs κ) : Prop where
  current : v.currentBusId = slot.1.val ∧ v.currentDevId = slot.2.val
  held : e.setting.HeldBy K u.world (u.config.busses slot.1) (v.config.devices slot)
  devices : ∀ other, other ≠ slot → v.config.devices other = u.config.devices other
  busses : ∀ b, (v.config.busses b).drvHandle = (u.config.busses b).drvHandle ∧
    (v.config.busses b).busData = (u.config.busses b).busData

/-- The entry is handled behind `past`, in the state `u`, and stored in this device and
nowhere else. -/
def HandledIn (past : List IniEntry) (e : IniEntry) (slot : Slot) (u : BusConfigs κ) : Prop :=
  ∃ codes code v, runAll (parserHandler K) past (userData (confInit config).2 w) = .ok codes u ∧
    parserHandler K e u = .ok code v ∧ Stored K e slot u v

/-- The entry is stored in this device, and at the end of the file it still is, unless a
line of its section further down has the same key. -/
def StoredIn (t : BusConfigs κ) (past : List IniEntry) (e : IniEntry) (todo : List IniEntry)
    (bus dev : Nat) : Prop :=
  ∃ slot u, slot.1.val = bus ∧ slot.2.val = dev ∧ HandledIn K config w past e slot u ∧
    ((∀ q ∈ todo, q.setting.Apart e.setting) →
      e.setting.HeldBy K u.world (t.config.busses slot.1) (t.config.devices slot))

/-- At the end of the file every header has made a bus or a device of its own. -/
structure SectionsCount (t : BusConfigs κ) : Prop where
  busses : t.config.numBusses = file.busses.length
  devices : Always (fun past bus => ∀ b : Fin maxBusses, b.val = past.length →
    (t.config.busses b).numDevices = bus.devices.length) file.busses
  stored : Always (fun past bus => Always (fun front s => ∀ done e todo,
      s.stream = done ++ e :: todo →
        StoredIn K config w t (streamOf (sectionsOf past ++ bus.header :: front) ++ done) e todo
          past.length front.length)
    bus.devices) file.busses

def EverySectionCounts : Prop :=
  ∃ t, parseConfig K (some file.lines) (userData (confInit config).2 w) = .ok exitSuccess t ∧
    SectionsCount K config w file t

end Properties

/-- What a file has to be like for its headers to count. -/
structure Legible (config : IoConfig BusHandle DevHandle) (file : SectionFile) : Prop where
  headers : Always (fun past bus => Stands (sectionsOf past) bus.header) file.busses
  devices : Always (fun past bus => Always (fun front s => s.entries ≠ [] →
      Always (fun front s => Stands (sectionsOf past ++ bus.header :: front) s) (front ++ [s]))
    bus.devices) file.busses
  drivers : ∀ bus ∈ file.busses,
    (streamOf bus.sections).countP (·.setting.isDriver) = bus.devices.length
  own : Always (fun past bus => Always (fun done e =>
      ∀ b : Fin maxBusses, b.val = past.length →
        ¬ e.setting.UsesDev ((config.busses b).drvHandle.isSome ∨
          ∃ q ∈ done, q.setting.TypesBus))
    bus.header.stream) file.busses
  entries : Always (fun past bus => ∀ s ∈ bus.devices, ∀ e ∈ s.stream,
      ∀ b : Fin maxBusses, b.val = past.length →
        e.setting.UsesDev ((config.busses b).drvHandle.isSome ∨
          ∃ q ∈ bus.header.stream, q.setting.TypesBus)) file.busses

section Counting

variable {config : IoConfig BusHandle DevHandle} {w : Env κ} {file : SectionFile}
  {past rest : List BusSection} {bus : BusSection} {front back : List IniSection}
  {s : IniSection} {done todo : List IniEntry} {e : IniEntry}

section Put

variable (shelf : Shelf) (d : Fin maxIoDevices) {setting : Setting}
  (h : setting.UsesDev shelf.bus.drvHandle.isSome)
include h

/-- Where an entry uses its device, the device holds it, -/
theorem put_held (K : Kernel κ) (w : Env κ) :
    setting.HeldBy K w shelf.bus ((shelf.put (K.malloc w.os).1 d.val setting).devices d) := by
  cases setting with
  | devDriver handle =>
      obtain ⟨handle, rfl⟩ := Option.isSome_iff_exists.mp h
      simp only [Setting.HeldBy, Shelf.put, changeDev_apply, if_pos]
  | devParameter value =>
      have hsome : shelf.bus.drvHandle.isSome := h
      obtain ⟨handle, hhandle⟩ := Option.isSome_iff_exists.mp hsome
      refine ⟨handle, getI2cLinuxDevData K, hhandle, by cases handle; rfl, ?_⟩
      simp only [Shelf.put, if_pos hsome, changeDev_apply, if_pos]
      rfl
  | busParameter | busType | unknown => exact h.elim

/-- and nothing else has changed but the count of the devices. -/
theorem put_others (got : Bool) :
    (∀ d' ≠ d, (shelf.put got d.val setting).devices d' = shelf.devices d') ∧
      (shelf.put got d.val setting).bus.drvHandle = shelf.bus.drvHandle ∧
      (shelf.put got d.val setting).bus.busData = shelf.bus.busData := by
  have hother (f : IoDev DevHandle → IoDev DevHandle) :
      ∀ d' ≠ d, (shelf.changeDev d.val f).devices d' = shelf.devices d' := by
    intro d' hd
    rw [changeDev_apply, if_neg]
    intro hval
    exact hd (Fin.ext (Int.ofNat.inj hval))
  cases setting with
  | devDriver handle =>
      obtain ⟨handle, rfl⟩ := Option.isSome_iff_exists.mp h
      exact ⟨hother fun dev => { dev with drvHandle := some handle }, rfl, rfl⟩
  | devParameter value =>
      have hsome : shelf.bus.drvHandle.isSome := h
      simp only [Shelf.put, if_pos hsome]
      exact ⟨hother _, rfl, rfl⟩
  | busParameter | busType | unknown => exact h.elim

end Put

/-- What is placed there leaves alone what the device in `slot` holds of a setting. -/
def Placed.LeavesAlone (p : Placed) (slot : Slot) (setting : Setting) : Prop :=
  p.bus ≠ slot.1.val ∨
    ¬ p.setting.TypesBus ∧ (p.dev ≠ slot.2.val ∨ p.setting.Apart setting)

section Held

variable {setting : Setting} {shelf : Shelf} {d : Fin maxIoDevices}

/-- Of its bus only the driver counts. -/
theorem Setting.HeldBy.onBus {bus bus' : IoBus BusHandle} {dev : IoDev DevHandle}
    (h : setting.HeldBy K w bus dev) (hbus : bus'.drvHandle = bus.drvHandle) :
    setting.HeldBy K w bus' dev := by
  cases setting with
  | devDriver handle => cases handle <;> exact h
  | devParameter value =>
      obtain ⟨handle, getBusDevData, hsome, hget, hheld⟩ := h
      exact ⟨handle, getBusDevData, hbus.trans hsome, hget, hheld⟩
  | busParameter | busType | unknown => exact h

variable (h : setting.HeldBy K w shelf.bus (shelf.devices d))
include h

theorem Setting.HeldBy.changeDev {dev : Int} {f : IoDev DevHandle → IoDev DevHandle}
    (hown : dev = d.val → setting.HeldBy K w shelf.bus (f (shelf.devices d))) :
    setting.HeldBy K w shelf.bus ((shelf.changeDev dev f).devices d) := by
  rw [changeDev_apply]
  split
  · next hd => exact hown hd.symm
  · exact h

/-- An entry that gives no bus a driver takes nothing from another device, nor from
another key. -/
theorem Setting.HeldBy.put (got : Bool) {p : Placed} (hplain : ¬ p.setting.TypesBus)
    (hapart : p.dev ≠ d.val ∨ p.setting.Apart setting) :
    setting.HeldBy K w (shelf.put got p.dev p.setting).bus
      ((shelf.put got p.dev p.setting).devices d) := by
  cases hset : p.setting with
  | busParameter value =>
      simp only [Shelf.put]
      split <;> exact h.onBus rfl
  | busType handle =>
      cases handle with
      | none => exact h
      | some handle => exact absurd (by rw [hset]; rfl) hplain
  | devDriver handle =>
      cases handle with
      | none => exact h.onBus rfl
      | some handle =>
          have hdev : setting.HeldBy K w shelf.bus ((shelf.changeDev p.dev fun dev =>
              { dev with drvHandle := some handle }).devices d) := by
            refine h.changeDev fun hd => ?_
            have hkey := hapart.resolve_left (not_not_intro hd)
            rw [hset] at hkey
            cases setting with
            | devDriver => exact hkey.elim
            | busParameter | busType | devParameter | unknown => exact h
          exact hdev.onBus rfl
  | devParameter value =>
      simp only [Shelf.put]
      split
      · refine h.changeDev fun hd => ?_
        have hkey := hapart.resolve_left (not_not_intro hd)
        rw [hset] at hkey
        cases setting with
        | devDriver handle => cases handle <;> exact h
        | devParameter => exact hkey.elim
        | busParameter | busType | unknown => exact h
      · exact h
  | unknown => exact h

end Held

theorem PutAt.held {p : Placed} {u v : BusConfigs κ} (hput : PutAt K p u v) {slot : Slot}
    {setting : Setting} (h : setting.HeldBy K w (u.config.busses slot.1) (u.config.devices slot))
    (hleft : p.LeavesAlone slot setting) :
    setting.HeldBy K w (v.config.busses slot.1) (v.config.devices slot) := by
  have hshelf := hput.shelf slot.1
  have hv : setting.HeldBy K w (v.config.shelf slot.1).bus
      ((v.config.shelf slot.1).devices slot.2) := by
    rw [hshelf]
    split
    · next hbus =>
        obtain ⟨hplain, hapart⟩ := hleft.resolve_left fun hne => hne hbus.symm
        have hu : setting.HeldBy K w (u.config.shelf slot.1).bus
          ((u.config.shelf slot.1).devices slot.2) := h
        exact hu.put _ hplain hapart
    · exact h
  exact hv

/-- What a device holds of a setting is kept by a stream that leaves it alone. -/
theorem held_behind {past more : List IniEntry} {slot : Slot} {setting : Setting}
    {codes : List Int} {u : BusConfigs κ} {w' : Env κ}
    (hfits : Always (Fits (confInit config).2) (place .start (past ++ more)))
    (hrun : runAll (parserHandler K) past (userData (confInit config).2 w) = .ok codes u)
    (hheld : setting.HeldBy K w' (u.config.busses slot.1) (u.config.devices slot))
    (hleft : ∀ p ∈ place (Cursor.start.after past) more, p.LeavesAlone slot setting) :
    ∃ codes t, runAll (parserHandler K) (past ++ more) (userData (confInit config).2 w) =
        .ok codes t ∧
      setting.HeldBy K w' (t.config.busses slot.1) (t.config.devices slot) := by
  induction more using List.reverseRecOn with
  | nil => exact ⟨codes, u, by rw [List.append_nil]; exact hrun, hheld⟩
  | append_singleton more e ih =>
      rw [place_concat] at hleft
      rw [← List.append_assoc, place_concat, always_concat] at hfits
      obtain ⟨hfits, hlast⟩ := hfits
      obtain ⟨codes', t, hrun', hheld'⟩ :=
        ih hfits fun p hp => hleft p (List.mem_append_left _ hp)
      obtain ⟨t', hall, ht⟩ := run_follows (K := K) rfl w hfits
      obtain ⟨rfl, rfl⟩ := EStateM.Result.ok.inj (hall.symm.trans hrun')
      obtain ⟨v, hstep, -, hv⟩ := parserHandler_run ht e hlast
      rw [← List.append_assoc]
      refine ⟨_, v, runAll_concat_of_ok hrun' hstep, hv.held hheld' (hleft _ ?_)⟩
      rw [after_append]
      exact List.mem_append_right _ (List.mem_singleton_self _)

/-- An entry that is put on a shelf is stored exactly if it is one that its device
keeps. -/
theorem stored_iff {slot : Slot} {c : Cursor} {u v : BusConfigs κ}
    (h : PutAt K (e.placed c) u v) :
    Stored K e slot u v ↔ c.bus = slot.1.val ∧ c.dev = slot.2.val ∧
      e.setting.UsesDev (u.config.busses slot.1).drvHandle.isSome := by
  constructor
  · rintro ⟨⟨hbus, hdev⟩, hheld, -, -⟩
    refine ⟨h.bus.symm.trans hbus, h.dev.symm.trans hdev, ?_⟩
    cases hset : e.setting with
    | devDriver handle =>
        cases handle with
        | none =>
            rw [hset] at hheld
            exact hheld.elim
        | some handle => rfl
    | devParameter value =>
        rw [hset] at hheld
        obtain ⟨handle, _, hhandle, -, -⟩ := hheld
        simp only [Setting.UsesDev, hhandle, Option.isSome_some]
    | busParameter | busType | unknown =>
        rw [hset] at hheld
        exact hheld.elim
  · rintro ⟨hbus, hdev, huses⟩
    have hown : v.config.shelf slot.1 =
        (u.config.shelf slot.1).put (K.malloc u.world.os).1 slot.2.val e.setting := by
      have hput := h.shelf slot.1
      simp only [IniEntry.placed, if_pos hbus.symm, hdev] at hput
      exact hput
    have hother {b : Fin maxBusses} (hb : b ≠ slot.1) :
        v.config.shelf b = u.config.shelf b := by
      rw [h.shelf b, if_neg]
      intro heq
      exact hb (Fin.ext (Int.ofNat.inj (heq.trans hbus)))
    have hheld := put_held (u.config.shelf slot.1) slot.2 huses K u.world
    obtain ⟨hdevices, hhandle, hdata⟩ :=
      put_others (u.config.shelf slot.1) slot.2 huses (K.malloc u.world.os).1
    rw [← hown] at hheld hdevices hhandle hdata
    refine ⟨⟨h.bus.trans hbus, h.dev.trans hdev⟩, hheld, ?_, ?_⟩
    · intro other hne
      by_cases hb : other.1 = slot.1
      · have hd : other.2 ≠ slot.2 := fun hd => hne (Prod.ext hb hd)
        have hsame := hdevices other.2 hd
        rw [← hb] at hsame
        exact hsame
      · exact congrArg (fun shelf : Shelf => shelf.devices other.2) (hother hb)
    · intro b
      by_cases hb : b = slot.1
      · subst hb
        exact ⟨hhandle, hdata⟩
      · have hsame : v.config.busses b = u.config.busses b :=
          congrArg (fun shelf : Shelf => shelf.bus) (hother hb)
        rw [hsame]
        exact ⟨rfl, rfl⟩

/-- At the end of a stream that leaves it alone, an entry is still stored. -/
theorem HandledIn.held_at_end {past more : List IniEntry} {slot : Slot} {u t : BusConfigs κ}
    {codes : List Int} (h : HandledIn K config w past e slot u)
    (hfits : Always (Fits (confInit config).2) (place .start (past ++ [e] ++ more)))
    (hrun : runAll (parserHandler K) (past ++ [e] ++ more) (userData (confInit config).2 w) =
      .ok codes t)
    (hleft : ∀ p ∈ place (Cursor.start.after (past ++ [e])) more,
      p.LeavesAlone slot e.setting) :
    e.setting.HeldBy K u.world (t.config.busses slot.1) (t.config.devices slot) := by
  obtain ⟨codes', code, v, hpast, hstep, hstored⟩ := h
  have hheld : e.setting.HeldBy K u.world (v.config.busses slot.1) (v.config.devices slot) :=
    hstored.held.onBus (hstored.busses slot.1).1
  obtain ⟨codes'', t', hrun', hend⟩ :=
    held_behind hfits (runAll_concat_of_ok hpast hstep) hheld hleft
  obtain ⟨-, rfl⟩ := EStateM.Result.ok.inj (hrun.symm.trans hrun')
  exact hend

theorem StoredIn.handled {t : BusConfigs κ} {past todo : List IniEntry} {slot : Slot}
    (h : StoredIn K config w t past e todo slot.1.val slot.2.val) :
    ∃ u, HandledIn K config w past e slot u := by
  obtain ⟨slot', u, hbus, hdev, hhandled, -⟩ := h
  obtain rfl : slot' = slot := Prod.ext (Fin.ext hbus) (Fin.ext hdev)
  exact ⟨u, hhandled⟩

theorem handledIn_iff {past : List IniEntry} (slot : Slot)
    (hfits : Always (Fits (confInit config).2) (place .start (past ++ [e]))) :
    (∃ u, HandledIn K config w past e slot u) ↔
      ((Cursor.start.after past).enter e.sectionName).bus = slot.1.val ∧
        ((Cursor.start.after past).enter e.sectionName).dev = slot.2.val ∧
        e.setting.UsesDev (Typed config (place .start past) slot.1.val) := by
  rw [place_concat, always_concat] at hfits
  obtain ⟨u, hrun, hu⟩ := run_follows (K := K) rfl w hfits.1
  obtain ⟨v, hstep, -, hv⟩ := parserHandler_run hu e hfits.2
  have htyped : (u.config.busses slot.1).drvHandle.isSome ↔
      Typed config (place .start past) slot.1.val := by
    have hhandle : (u.config.busses slot.1).drvHandle =
        (shelfOf (confInit config).2 (place .start past) slot.1).bus.drvHandle :=
      (hu.shelves slot.1).busHandle
    rw [hhandle, ← typed_iff rfl]
    rfl
  rw [← htyped, ← stored_iff hv]
  constructor
  · rintro ⟨u', codes, code, v', hrun', hstep', hstored⟩
    obtain ⟨-, rfl⟩ := EStateM.Result.ok.inj (hrun.symm.trans hrun')
    obtain ⟨-, rfl⟩ := EStateM.Result.ok.inj (hstep.symm.trans hstep')
    exact hstored
  · intro hstored
    exact ⟨u, _, _, v, hrun, hstep, hstored⟩

/-- An entry of a device section in the stream of the file. -/
theorem split_stream (hbusses : file.busses = past ++ bus :: rest)
    (hdevices : bus.devices = front ++ s :: back) (hstream : s.stream = done ++ e :: todo) :
    streamOf (sectionsOf file.busses) =
      (streamOf (sectionsOf past ++ bus.header :: front) ++ done ++ [e]) ++
        (todo ++ streamOf (back ++ sectionsOf rest)) := by
  have hcons : streamOf (s :: (back ++ sectionsOf rest)) =
      s.stream ++ streamOf (back ++ sectionsOf rest) := rfl
  rw [hbusses, split_busses past bus rest front s back hdevices, streamOf_append, hcons, hstream]
  simp

/-- An entry of a device section is handled where the cursors stand behind it. -/
theorem handledIn_device (slot : Slot)
    (hfits : Always (Fits (confInit config).2) (place .start (streamOf (sectionsOf file.busses))))
    (hbusses : file.busses = past ++ bus :: rest) (hdevices : bus.devices = front ++ s :: back)
    (hstream : s.stream = done ++ e :: todo) :
    (∃ u, HandledIn K config w (streamOf (sectionsOf past ++ bus.header :: front) ++ done) e
        slot u) ↔
      (seen (sectionsOf past ++ bus.header :: (front ++ [s]))).bus = slot.1.val ∧
        (seen (sectionsOf past ++ bus.header :: (front ++ [s]))).dev = slot.2.val ∧
        e.setting.UsesDev (Typed config
          (place .start (streamOf (sectionsOf past ++ bus.header :: front) ++ done))
          slot.1.val) := by
  have hsplit := split_stream hbusses hdevices hstream
  rw [hsplit, place_append] at hfits
  have hcursor := seen_entry (sectionsOf past ++ bus.header :: front) hstream
  rw [List.append_assoc, List.cons_append] at hcursor
  have hcode := handledIn_iff (K := K) (w := w) slot hfits.of_append
  rw [after_append] at hcode
  rw [hcode, ← hcursor]
  rfl

theorem SectionFile.index_lt (hbusses : file.busses = past ++ bus :: rest) :
    past.length < maxBusses := by
  have hfew := file.fewBusses
  rw [hbusses, List.length_append, List.length_cons] at hfew
  omega

theorem BusSection.index_lt (hdevices : bus.devices = front ++ s :: back) :
    front.length < maxIoDevices := by
  have hfew := bus.fewDevices
  rw [hdevices, List.length_append, List.length_cons] at hfew
  omega

theorem BusSection.prefix_areDevices (hdevices : bus.devices = front ++ s :: back) :
    ∀ s' ∈ front ++ [s], iniDev <+: s'.name.chars := by
  intro s' hs'
  apply bus.areDevices
  rw [hdevices, List.append_cons]
  exact List.mem_append_left _ hs'

theorem headersStand_past (h : HeadersStand file.busses)
    (hbusses : file.busses = past ++ bus :: rest) : HeadersStand past := by
  rw [hbusses] at h
  exact h.of_append

theorem Legible.within (h : Legible config file) (hbusses : file.busses = past ++ bus :: rest)
    (hdevices : bus.devices = front ++ s :: back) (hentries : s.entries ≠ []) :
    (seen (sectionsOf past ++ bus.header :: (front ++ [s]))).bus = past.length ∧
      (seen (sectionsOf past ++ bus.header :: (front ++ [s]))).dev = front.length := by
  have hpast : HeadersStand past := headersStand_past h.headers hbusses
  obtain ⟨hbus, -, hiff⟩ :=
    seen_within hpast (h.headers past bus rest hbusses) (bus.prefix_areDevices hdevices)
  have hdev := hiff.mpr (h.devices past bus rest hbusses front s back hdevices hentries)
  rw [List.length_append, List.length_singleton] at hdev
  push_cast at hdev
  exact ⟨hbus, by omega⟩

theorem Legible.fits (h : Legible config file) :
    Always (Fits (confInit config).2) (place .start (streamOf (sectionsOf file.busses))) := by
  rw [always_streamOf]
  intro past bus rest hbusses
  have hlength := file.index_lt hbusses
  have hpast : HeadersStand past := headersStand_past h.headers hbusses
  constructor
  · intro done e todo hstream
    rw [fits_header hpast (h.headers past bus rest hbusses) hstream ⟨past.length, hlength⟩ rfl]
    exact h.own past bus rest hbusses done e todo hstream ⟨past.length, hlength⟩ rfl
  · intro front s back hdevices done e todo hstream
    have hentries : s.entries ≠ [] := by
      rw [Ne, ← stream_eq_nil, hstream]
      simp
    obtain ⟨hbus, hdev⟩ := h.within hbusses hdevices hentries
    exact ⟨fun _ => inTable_of_fin ⟨past.length, hlength⟩ hbus.symm,
      fun _ => inTable_of_fin ⟨front.length, bus.index_lt hdevices⟩ hdev.symm⟩

/-- What follows an entry of a device section leaves alone what its device holds of it,
unless a line of the section has the same key. -/
theorem Legible.leaves_alone (h : Legible config file)
    (hbusses : file.busses = past ++ bus :: rest) (hdevices : bus.devices = front ++ s :: back)
    (hstream : s.stream = done ++ e :: todo) (hapart : ∀ q ∈ todo, q.setting.Apart e.setting)
    (slot : Slot) (hbus : slot.1.val = past.length) (hdev : slot.2.val = front.length) :
    ∀ p ∈ place (Cursor.start.after
        (streamOf (sectionsOf past ++ bus.header :: front) ++ done ++ [e]))
      (todo ++ streamOf (back ++ sectionsOf rest)), p.LeavesAlone slot e.setting := by
  intro p hp
  have hplain (s : IniSection) (hs : s ∈ bus.devices) (q : IniEntry) (hq : q ∈ s.stream) :=
    (h.entries past bus rest hbusses s hs q hq ⟨past.length, file.index_lt hbusses⟩
      rfl).not_typesBus
  have hsplit : s.stream = (done ++ [e]) ++ todo := by rw [hstream, List.append_cons]
  have hsection : ((seen (sectionsOf past ++ bus.header :: front)).after (done ++ [e])).after todo =
      seen ((sectionsOf past ++ bus.header :: front) ++ [s]) := by
    rw [← after_append, ← hsplit, after_stream, seen_concat]
  have hbusEnd : (sectionsOf past ++ bus.header :: front) ++ [s] ++ back =
      sectionsOf (past ++ [bus]) := by
    simp [sectionsOf_concat, hdevices]
  rw [List.append_assoc (streamOf _), after_append, place_append, ← seen, place_todo _ hsplit,
    hsection, streamOf_append, place_append, after_streamOf, hbusEnd] at hp
  rcases List.mem_append.mp hp with hp | hp
  · obtain ⟨q, hq, rfl⟩ := List.mem_map.mp hp
    exact .inr ⟨hplain s (by simp [hdevices]) q (by simp [hstream, hq]), .inr (hapart q hq)⟩
  · rcases List.mem_append.mp hp with hp | hp
    · obtain ⟨front', s', back', rfl, q, hq, rfl⟩ := mem_place_streamOf _ hp
      have hdevices' : bus.devices = (front ++ s :: front') ++ s' :: back' := by simp [hdevices]
      have hentries : s'.entries ≠ [] := by
        rw [Ne, ← stream_eq_nil]
        exact List.ne_nil_of_mem hq
      obtain ⟨-, hcursor⟩ := h.within hbusses hdevices' hentries
      refine .inr ⟨hplain s' (by simp [hdevices]) q hq, .inl ?_⟩
      simp only [List.append_assoc, List.cons_append, List.nil_append,
        List.length_append, List.length_cons] at hcursor ⊢
      simp only [IniEntry.placed, hcursor]
      omega
    · have hheaders : HeadersStand ((past ++ [bus]) ++ rest) := by
        rw [List.append_assoc, List.singleton_append, ← hbusses]
        exact h.headers
      have hother := bus_of_mem_rest hheaders hp
      rw [List.length_append, List.length_singleton] at hother
      exact .inl (by omega)

theorem driverLines_busses (hheaders : HeadersStand file.busses)
    (hbusses : file.busses = past ++ bus :: rest) (b : Fin maxBusses) (hb : b.val = past.length) :
    driverLines (streamOf (sectionsOf file.busses)) b =
      (streamOf bus.sections).countP (·.setting.isDriver) := by
  rw [hbusses] at hheaders ⊢
  rw [driverLines, onShelf_busses b hheaders hb, countP_place]

theorem EverySectionCounts.legible (h : EverySectionCounts K config w file) :
    Legible config file := by
  have hlines := entriesOf_lines file
  obtain ⟨t, hparse, hnum, hdevs, hstored⟩ := h
  have hfits : Always (Fits (confInit config).2)
      (place .start (streamOf (sectionsOf file.busses))) := by
    by_contra hnot
    obtain ⟨t', hrun⟩ := run_unfit (K := K) rfl w hnot
    rw [← hlines] at hrun
    cases (parseConfig_error hrun).symm.trans hparse
  obtain ⟨t', hrun, ht⟩ := run_follows (K := K) rfl w hfits
  rw [← hlines] at hrun
  obtain ⟨-, rfl⟩ := EStateM.Result.ok.inj ((parseConfig_ok hrun).symm.trans hparse)
  have hheaders : HeadersStand file.busses :=
    (seen_busses file.busses).2.mp (ht.numBusses.symm.trans hnum)
  have hkept {past rest : List BusSection} {bus : BusSection}
      (hbusses : file.busses = past ++ bus :: rest) {front back : List IniSection} {s : IniSection}
      (hdevices : bus.devices = front ++ s :: back) {done todo : List IniEntry} {e : IniEntry}
      (hstream : s.stream = done ++ e :: todo) :=
    (handledIn_device (K := K) (w := w) (⟨past.length, file.index_lt hbusses⟩,
      ⟨front.length, bus.index_lt hdevices⟩) hfits hbusses hdevices hstream).mp
        (hstored past bus rest hbusses front s back hdevices done e todo hstream).handled
  refine ⟨hheaders, ?_, ?_, ?_, ?_⟩
  · intro past bus rest hbusses front s back hdevices hentries
    obtain ⟨e, todo, hstream⟩ := List.exists_cons_of_ne_nil (mt (stream_eq_nil s).mp hentries)
    have hfirst : s.stream = [] ++ e :: todo := hstream
    obtain ⟨-, hdev, -⟩ := hkept hbusses hdevices hfirst
    refine (seen_within (headersStand_past hheaders hbusses) (hheaders past bus rest hbusses)
      (bus.prefix_areDevices hdevices)).2.2.mp ?_
    rw [hdev, List.length_append, List.length_singleton]
    rfl
  · intro bus hbus
    obtain ⟨past, rest, hbusses⟩ := List.append_of_mem hbus
    have hindex := file.index_lt hbusses
    have hcount := hdevs past bus rest hbusses ⟨past.length, hindex⟩ rfl
    rw [ht.numDevices fun _ => rfl] at hcount
    have hdriver := driverLines_busses hheaders hbusses ⟨past.length, hindex⟩ rfl
    rw [driverLines] at hdriver
    rw [← hdriver]
    exact Int.ofNat.inj hcount
  · intro past bus rest hbusses done e todo hstream b hb
    have hpast := headersStand_past hheaders hbusses
    rw [always_streamOf] at hfits
    have hfit : Fits (confInit config).2 (place .start (streamOf (sectionsOf past) ++ done))
        (e.placed (seen (sectionsOf past ++ [bus.header]))) :=
      (hfits past bus rest hbusses).1 done e todo hstream
    rw [fits_header hpast (hheaders past bus rest hbusses) hstream b hb] at hfit
    exact hfit
  · intro past bus rest hbusses
    have hplain : ∀ s ∈ bus.devices, ∀ e ∈ s.stream, ¬ e.setting.TypesBus := by
      intro s hs e he
      obtain ⟨front, back, hdevices⟩ := List.append_of_mem hs
      obtain ⟨done, todo, hstream⟩ := List.append_of_mem he
      exact (hkept hbusses hdevices hstream).2.2.not_typesBus
    intro s hs e he b hb
    obtain ⟨front, back, hdevices⟩ := List.append_of_mem hs
    obtain ⟨done, todo, hstream⟩ := List.append_of_mem he
    rw [← typed_device (headersStand_past hheaders hbusses) (hheaders past bus rest hbusses)
      hdevices hstream hplain b hb]
    exact (hkept hbusses hdevices hstream).2.2

theorem Legible.counts (K : Kernel κ) (h : Legible config file) (w : Env κ) :
    EverySectionCounts K config w file := by
  have hfits := h.fits
  obtain ⟨t, hrun, ht⟩ := run_follows (K := K) rfl w hfits
  have hcode := hrun
  rw [← entriesOf_lines file] at hcode
  refine ⟨t, parseConfig_ok hcode, ?_, ?_, ?_⟩
  · rw [ht.numBusses]
    exact (seen_busses file.busses).2.mpr h.headers
  · intro past bus rest hbusses b hb
    rw [ht.numDevices fun _ => rfl]
    have hdriver := driverLines_busses h.headers hbusses b hb
    rw [driverLines, h.drivers bus (by rw [hbusses]; simp)] at hdriver
    exact congrArg Int.ofNat hdriver
  · intro past bus rest hbusses front s back hdevices done e todo hstream
    have hentries : s.entries ≠ [] := by
      rw [Ne, ← stream_eq_nil, hstream]
      simp
    have hkept (s : IniSection) (hs : s ∈ bus.devices) (e : IniEntry) (he : e ∈ s.stream) :=
      h.entries past bus rest hbusses s hs e he ⟨past.length, file.index_lt hbusses⟩ rfl
    have htyped : Typed config _ _ ↔ _ := typed_device (headersStand_past h.headers hbusses)
      (h.headers past bus rest hbusses) hdevices hstream
      (fun s hs e he => (hkept s hs e he).not_typesBus) ⟨past.length, file.index_lt hbusses⟩ rfl
    obtain ⟨hbus, hdev⟩ := h.within hbusses hdevices hentries
    have hown := hkept s (by simp [hdevices]) e (by simp [hstream])
    rw [← htyped] at hown
    let slot : Slot := (⟨past.length, file.index_lt hbusses⟩,
      ⟨front.length, bus.index_lt hdevices⟩)
    obtain ⟨u, hhandled⟩ := (handledIn_device (K := K) (w := w) slot hfits hbusses hdevices
      hstream).mpr ⟨hbus, hdev, hown⟩
    refine ⟨slot, u, rfl, rfl, hhandled, fun hapart => ?_⟩
    rw [split_stream hbusses hdevices hstream] at hfits hrun
    exact hhandled.held_at_end hfits hrun
      (h.leaves_alone hbusses hdevices hstream hapart slot rfl rfl)

/-- The headers of a file count if and only if it is legible. -/
theorem everySectionCounts_iff (K : Kernel κ) (config : IoConfig BusHandle DevHandle) (w : Env κ)
    (file : SectionFile) : EverySectionCounts K config w file ↔ Legible config file :=
  ⟨fun h => h.legible, fun h => h.counts K w⟩

end Counting

/-- A device section without a `devdrv` line, in front of one that has it. -/
def driverlessFile : SectionFile where
  busses := [{
    header := ⟨cString "bus-0", [(cString "bus_type", cString "i2c")]⟩
    isBus := by decide
    devices := [⟨cString "device-0", [(cString "dev_parameter", cString "0x20")]⟩,
      ⟨cString "device-1", [(cString "devdrv", cString "pcf8574")]⟩]
    areDevices := by decide
    fewDevices := by decide }]
  fewBusses := by decide

/-- Both sections get a slot, but only one device is counted. -/
theorem driverless_miscounted :
    ¬ EverySectionCounts calmKernel zeroConfig calmWorld driverlessFile := by
  rintro ⟨t, hparse, -, hdevs, -⟩
  have hcount : (t.config.busses 0).numDevices = 2 :=
    hdevs [] _ [] rfl 0 rfl
  have hyields : yields (parseConfig calmKernel (some driverlessFile.lines))
      (userData (confInit zeroConfig).2 calmWorld)
      (fun _ t => decide ((t.config.busses 0).numDevices = 1)) = true := by
    decide +kernel
  obtain ⟨rc, t', hrun, htest⟩ := exists_of_yields hyields
  obtain ⟨-, rfl⟩ := EStateM.Result.ok.inj (hrun.symm.trans hparse)
  rw [of_decide_eq_true htest] at hcount
  cases hcount

end Switcher
