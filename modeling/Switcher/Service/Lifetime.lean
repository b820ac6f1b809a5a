import Switcher.Config.IniFiles
import Switcher.Io.Discard
import Switcher.Service.Hooks
import Switcher.Service.Survival

/-!
The whole process: from the characters of its configuration file through any events to
the signal that stops it.
-/

namespace Switcher

open Lib.Program Lib.Interleaving Lib.Text

variable {κ : Type}

/-- What a process that has been stopped has answered, and what it leaves behind. -/
structure Stopped where
  answers : List Answer
  config : IoConfig BusHandle DevHandle
  spi : SpiHandle
  freed : List Block

/-- `main` behind the configuration, and the signal handler up to `io_deinit`. The signal
arrives when the events have been handled. -/
def serveUntilSignal (K : Kernel κ) (events : List (MgConnection × MgEvent)) :
    LifeM BusHandle DevHandle (List Char) (Env κ) (Option (List Answer)) := do
  if (← ioInit (busDrv K) (devDrv K)) = exitFailure then return none
  else
    let answers ← onSys (pollServer (devDrv K) events)
    let _ ← ioDeinit (busDrv K) (devDrv K)
    return some answers

/-- `main` and the signal handler. It is `none` where `main` exits by itself. -/
def runMain (K : Kernel κ) (file : Option (List Char)) (events : List (MgConnection × MgEvent))
    (buf : List Char) (os : κ) : Except Fault (Option Stopped) :=
  let (rc, config) := confInit zeroConfig
  if rc = exitFailure then .ok none
  else
    match Ini.parseConfig K file (userData config ⟨.null, os⟩) with
    | .error e _ => .error e
    | .ok rc t =>
        if rc = exitFailure then .ok none
        else if validateConfig t.config = exitFailure then .ok none
        else
          match serveUntilSignal K events ⟨⟨t.config, buf, t.world, []⟩, []⟩ with
          | .error e _ => .error e
          | .ok none _ => .ok none
          | .ok (some answers) u =>
              match confDeinit ⟨u.sys.config, []⟩ with
              | .error e _ => .error e
              | .ok _ v => .ok (some ⟨answers, v.config, u.sys.world.spi, v.freed⟩)

/-- The configuration that entries describe. -/
def fileConfig (entries : List IniEntry) : IoConfig BusHandle DevHandle where
  numBusses := (Cursor.start.after entries).bus + 1
  busses b := (shelfOf (confInit zeroConfig).2 (place .start entries) b).bus
  devices slot := (shelfOf (confInit zeroConfig).2 (place .start entries) slot.1).devices slot.2

/-- Nothing is left of a configuration: what has been allocated for it is given back, and
each block once. -/
structure Released (config : IoConfig BusHandle DevHandle) (stopped : Stopped) : Prop where
  numBusses : stopped.config.numBusses = 0
  busData : ∀ b, (config.busses b).drvHandle.isSome → (stopped.config.busses b).busData = none
  devBusData : ∀ slot : Slot, (config.busses slot.1).drvHandle.isSome →
    (stopped.config.devices slot).devBusData = none
  devData : ∀ slot, config.HasSlot slot → (config.devices slot).drvHandle = some .mcp23017 →
    (stopped.config.devices slot).devData = none
  spi : ∀ slot, config.HasPiface slot → stopped.spi = .freed
  freed : ∀ block, block ∈ stopped.freed ↔ config.Holds block
  once : stopped.freed.Nodup

section FileConfig

variable {K : Kernel κ} {entries : List IniEntry}

theorem fileConfig_parsed (hK : K.Allocates) (w : Env κ)
    (hfits : Lib.History.Always (Fits (confInit zeroConfig).2) (place .start entries)) :
    ∃ t, runAll (parserHandler K) entries (userData (confInit zeroConfig).2 w) =
        .ok (entries.map fun e => e.setting.code) t ∧
      t.config = fileConfig entries ∧ Reflects entries (fileConfig entries) := by
  obtain ⟨t, hrun, ht⟩ := run_follows (K := K) rfl w hfits
  have hconfig : t.config = fileConfig entries :=
    ioConfig_ext ht.numBusses fun b => (ht.shelves b).same hK
  exact ⟨t, hrun, hconfig, hconfig ▸ ht.reflects hK⟩

theorem placed_bus_le {p : Placed} (hp : p ∈ place .start entries) :
    p.bus ≤ (Cursor.start.after entries).bus := by
  induction entries using List.reverseRecOn with
  | nil => cases hp
  | append_singleton entries e ih =>
      rw [place_concat] at hp
      rw [after_concat]
      rcases List.mem_append.mp hp with hpast | hlast
      · exact (ih hpast).trans (cursor_bus_ge _ [e])
      · obtain rfl := List.mem_singleton.mp hlast
        exact Int.le_refl _

/-- A bus with a driver is one of the counted ones. -/
theorem Reflects.typed_lt {config : IoConfig BusHandle DevHandle} (h : Reflects entries config)
    {b : Fin maxBusses} (htyped : (config.busses b).drvHandle.isSome) :
    (b.val : Int) < config.numBusses := by
  obtain ⟨p, hp, -⟩ := (h.busHandle b).mp htyped
  obtain ⟨hplaced, hbus⟩ := List.mem_filter.mp hp
  have hle := placed_bus_le hplaced
  have hb : p.bus = b.val := by simpa using hbus
  rw [h.numBusses]
  omega

/-- The parser keeps parameters only where a bus has a driver. -/
theorem Reflects.typed_of_holds {config : IoConfig BusHandle DevHandle}
    (h : Reflects entries config) (block : Block) (hholds : config.Holds block) :
    (config.busses block.bus).drvHandle.isSome := by
  have hempty : ¬ emptyShelf.bus.drvHandle.isSome := by simp [emptyShelf]
  rw [h.busHandle]
  cases block with
  | busData b =>
      obtain ⟨past, p, rest, hsplit, -, htyped⟩ := (h.busData b).mp hholds
      obtain ⟨q, hq, htypes⟩ := htyped.resolve_left hempty
      exact ⟨q, hsplit ▸ List.mem_append_left _ hq, htypes⟩
  | devBusData slot =>
      obtain ⟨past, p, rest, hsplit, -, -, htyped⟩ := (h.devBusData slot).mp hholds
      obtain ⟨q, hq, htypes⟩ := htyped.resolve_left hempty
      exact ⟨q, hsplit ▸ List.mem_append_left _ hq, htypes⟩

end FileConfig

section Run

variable {K : Kernel κ} {s : Daemon (List Char) κ} {events : List (MgConnection × MgEvent)}

/-- From `io_init` to `io_deinit`. -/
theorem serveUntilSignal_returns (hK : K.Allocates) (hs : s.config.Equipped)
    (hpaths : s.config.PathsFit) (hone : s.config.OnePiface)
    (hevents : ∀ uri ∈ requestedUris events, Survivable s.config uri) :
    ∃ answers t u, serveUntilSignal K events ⟨s, []⟩ = .ok (some answers) u ∧ Grows s t ∧
      StaysWired t u.sys ∧ (∀ slot, s.config.HasSlot slot → Undone u.sys slot) ∧
      answers.length = events.length ∧
      loggedLines answers = (requestedUris events).map requestLine := by
  obtain ⟨t, hinit, hgrows, hservice⟩ := ioInit_inService hK hs hpaths []
  obtain ⟨answers, t', hserve, hgrows', hlength, hlines⟩ := pollServer_run (K := K) hservice
    fun uri huri => hgrows.survivable.mpr (hevents uri huri)
  have hsince := hgrows.trans hgrows'
  have hone' : t'.config.OnePiface := hsince.shaped.onePiface hone
  obtain ⟨u, hdeinit, hwired, hundone⟩ :=
    ioDeinit_undone (K := K) (hgrows'.inService hservice) hone' t.trace
  refine ⟨answers, t', u, ?_, hsince, hwired, ?_, hlength, hlines⟩
  · have hpolled : onSys (pollServer (devDrv K) events) t = .ok answers ⟨t', t.trace⟩ := by
      simp only [onSys, hserve]
    unfold serveUntilSignal
    rw [bind_of_ok hinit, if_neg (by decide), bind_of_ok hpolled, bind_of_ok hdeinit, run_pure]
  · exact fun slot hslot => hundone slot ((hsince.hasSlot slot).mpr hslot)

/-- What `io_deinit` and `conf_deinit` leave of a daemon that has been in service. -/
theorem released_of_run {t u : Daemon (List Char) κ} {stopped : Stopped}
    {entries : List IniEntry} (hreflects : Reflects entries s.config) (hs : s.config.Equipped)
    (hgrows : Grows s t) (hwired : StaysWired t u)
    (hundone : ∀ slot, s.config.HasSlot slot → Undone u slot)
    (hcounted : stopped.config.numBusses = 0)
    (hshelf : ∀ b, stopped.config.shelf b = (u.config.shelf b).discarded)
    (hspi : stopped.spi = u.world.spi) (hfreed : stopped.freed = u.config.blocks) :
    Released s.config stopped := by
  have hbus (b : Fin maxBusses) :
      (u.config.busses b).drvHandle = (s.config.busses b).drvHandle := by
    rw [hwired.busses, hgrows.busHandle]
  have hdev (slot : Slot) :
      (u.config.devices slot).drvHandle = (s.config.devices slot).drvHandle :=
    (hwired.drvHandle slot).trans (hgrows.drvHandle slot)
  have hshelfDev (slot : Slot) : stopped.config.devices slot =
      (u.config.shelf slot.1).discarded.devices slot.2 :=
    congrFun (congrArg Shelf.devices (hshelf slot.1)) slot.2
  refine ⟨hcounted, ?_, ?_, ?_, ?_, ?_, ?_⟩
  · intro b htyped
    rw [← hbus] at htyped
    rw [show stopped.config.busses b = _ from congrArg Shelf.bus (hshelf b)]
    exact discarded_busData htyped
  · intro slot htyped
    rw [← hbus] at htyped
    rw [hshelfDev]
    exact discarded_devBusData slot.2 htyped
  · intro slot hslot hhandle
    rw [hshelfDev, discarded_devData]
    exact (hundone slot hslot).mcp23017 ((hdev slot).trans hhandle)
  · intro slot hpiface
    rw [hspi]
    exact (hundone slot hpiface.hasSlot).piface ((hdev slot).trans hpiface.piface)
  · intro block
    rw [hfreed, mem_blocks, hbus]
    cases block with
    | busData b =>
        constructor
        · rintro ⟨htyped, -⟩
          exact hs.busData b (hreflects.typed_lt htyped) htyped
        · intro hholds
          refine ⟨hreflects.typed_of_holds (.busData b) hholds, ?_⟩
          show (u.config.busses b).busData.isSome
          rw [hwired.busses]
          exact hgrows.busData b hholds
    | devBusData slot =>
        have hsame : (u.config.devices slot).devBusData = (s.config.devices slot).devBusData :=
          (hwired.devBusData slot).trans (hgrows.devBusData slot)
        simp only [IoConfig.Holds, hsame, and_iff_right_iff_imp]
        exact fun hholds => hreflects.typed_of_holds (.devBusData slot) hholds
  · rw [hfreed]
    exact nodup_blocks _

end Run

/-- From a text file to the end: a complete file is loaded, whatever the kernel answers
the daemon handles all events with URIs that it survives and logs each request, and when
the signal comes it gives back everything that it has, and nothing twice. -/
theorem main_ends {K : Kernel κ} (hK : K.Allocates) {file : List Char}
    {kinds : List Ini.LineKind} {told : List IniLine}
    (htext : Ini.Denotes .start (Ini.textLines file) kinds told)
    (hcomplete : CompleteFile (entriesOf told)) (hpaths : (fileConfig (entriesOf told)).PathsFit)
    (hone : (fileConfig (entriesOf told)).OnePiface) {events : List (MgConnection × MgEvent)}
    (hevents : ∀ uri ∈ requestedUris events, Survivable (fileConfig (entriesOf told)) uri)
    (buf : List Char) (os : κ) :
    ∃ stopped, runMain K (some file) events buf os = .ok (some stopped) ∧
      stopped.answers.length = events.length ∧
      loggedLines stopped.answers = (requestedUris events).map requestLine ∧
      Released (fileConfig (entriesOf told)) stopped := by
  obtain ⟨t, hrun, hconfig, hreflects⟩ := fileConfig_parsed hK ⟨.null, os⟩ hcomplete.confined.fits
  have hparse := (congrFun (Ini.parseConfig_told K htext) _).trans (parseConfig_ok hrun)
  have hequipped : (fileConfig (entriesOf told)).Equipped :=
    (hreflects.equipped_iff hcomplete.confined.fits).mpr hcomplete
  let start : Daemon (List Char) κ := ⟨fileConfig (entriesOf told), buf, t.world, []⟩
  obtain ⟨answers, v, u, hserve, hgrows, hwired, hundone, hlength, hlines⟩ :=
    serveUntilSignal_returns (s := start) hK hequipped hpaths hone hevents
  obtain ⟨d, hdiscard, hcounted, hshelf, hfreed⟩ := confDeinit_run ⟨u.sys.config, []⟩
  refine ⟨⟨answers, d.config, u.sys.world.spi, d.freed⟩, ?_, hlength, hlines, ?_⟩
  · have hstart : serveUntilSignal K events ⟨⟨t.config, buf, t.world, []⟩, []⟩ =
        .ok (some answers) u := by
      rw [hconfig]
      exact hserve
    have hinit : (confInit zeroConfig : Int × IoConfig BusHandle DevHandle).1 ≠ exitFailure := by
      decide
    have hvalid : validateConfig t.config ≠ exitFailure := by
      unfold validateConfig
      decide
    unfold runMain
    simp only [if_neg hinit, hparse, if_neg hvalid, hstart, hdiscard]
    rfl
  · exact released_of_run hreflects hequipped hgrows hwired hundone hcounted hshelf rfl hfreed

section IoExt

theorem ioExtFile_counts (b : Fin maxBusses) :
    ((fileConfig (entriesOf ioExtFile)).busses b).numDevices =
      (ioExtConfig.busses b).numDevices := by
  revert b
  decide +kernel

theorem ioExtFile_slots {slot : Slot} (h : (fileConfig (entriesOf ioExtFile)).HasSlot slot) :
    slot = (0, 0) ∨ slot = (0, 1) ∨ slot = (1, 0) := by
  apply ioExtConfig_slots
  refine ⟨h.1, ?_⟩
  rw [← ioExtFile_counts]
  exact h.2

theorem ioExtFile_equipped : (fileConfig (entriesOf ioExtFile)).Equipped := by
  refine ⟨⟨by decide, ?_⟩, ?_, by decide +kernel, ?_⟩
  · intro b
    rw [ioExtFile_counts]
    exact ioExtConfig_bounded.devices b
  · intro slot hslot
    rcases ioExtFile_slots hslot with rfl | rfl | rfl <;> decide +kernel
  · intro slot handle hslot hhandle hi2c
    rcases ioExtFile_slots hslot with rfl | rfl | rfl
    · decide +kernel
    · decide +kernel
    · have hpiface : ((fileConfig (entriesOf ioExtFile)).devices (1, 0)).drvHandle =
          some .piface := by
        decide +kernel
      exact absurd (Option.some.inj (hhandle.symm.trans hpiface)) hi2c

theorem ioExtFile_onePiface : (fileConfig (entriesOf ioExtFile)).OnePiface := by
  have honly {slot : Slot} (h : (fileConfig (entriesOf ioExtFile)).HasPiface slot) :
      slot = (1, 0) := by
    have hpiface := h.piface
    rcases ioExtFile_slots h.hasSlot with rfl | rfl | rfl
    · revert hpiface
      decide +kernel
    · revert hpiface
      decide +kernel
    · rfl
  intro slot other hslot hother
  rw [honly hslot, honly hother]

/-- Pins of the PiFace are set, and read back. -/
def pifaceEvents : List (MgConnection × MgEvent) :=
  [(⟨false, ⟨"/1/0/255".toList, by decide⟩⟩, .request),
    (⟨false, ⟨"/1/0".toList, by decide⟩⟩, .request)]

theorem pifaceEvents_survivable {uri : CString} (huri : uri ∈ requestedUris pifaceEvents) :
    Survivable (fileConfig (entriesOf ioExtFile)) uri := by
  have hyields : yields (pollServer (devDrv calmKernel) pifaceEvents) ioExtDaemon
      (fun answers _ => answers.length = 2) = true := by
    decide +kernel
  obtain ⟨answers, t, hrun, -⟩ := exists_of_yields hyields
  have hsurvivable : Survivable ioExtConfig uri :=
    survivable_of_pollServer (fun _ _ _ => rfl) ioExtDaemon_inService hrun uri huri
  have hbusses : (fileConfig (entriesOf ioExtFile)).numBusses = ioExtConfig.numBusses := by decide
  exact (survivable_congr hbusses ioExtFile_counts).mpr hsurvivable

theorem main_ends_ioExt :
    ∃ stopped, runMain calmKernel (some Ini.ioExtIni) pifaceEvents [] () = .ok (some stopped) ∧
      stopped.answers.length = 2 ∧
      loggedLines stopped.answers = (requestedUris pifaceEvents).map requestLine ∧
      Released (fileConfig (entriesOf ioExtFile)) stopped := by
  have htext : Ini.Denotes .start (Ini.textLines Ini.ioExtIni) _ _ :=
    Ini.denotes_readAll .start fun _ => Ini.nul_notMem_textLines
  have hentries : entriesOf (Ini.tellAll .start (Ini.readAll .start (Ini.textLines Ini.ioExtIni))) =
      entriesOf ioExtFile := (Ini.told_of_plan ioExtPlan Ini.ioExtIni_kinds).1
  have hfits : Lib.History.Always (Fits (confInit zeroConfig).2)
      (place .start (entriesOf ioExtFile)) := ioExtPlan.legible.fits
  have hpaths : (fileConfig (entriesOf ioExtFile)).PathsFit := by
    have hfit : ∀ b, ∀ data ∈ ((fileConfig (entriesOf ioExtFile)).busses b).busData,
        data.device.length < i2cDevLen := by
      decide +kernel
    exact hfit
  obtain ⟨-, -, -, hreflects⟩ :=
    fileConfig_parsed (K := calmKernel) (fun _ => rfl) calmWorld hfits
  have hcomplete := (hreflects.equipped_iff hfits).mp ioExtFile_equipped
  rw [← hentries] at hcomplete hpaths ⊢
  refine main_ends (fun _ => rfl) htext hcomplete hpaths ?_ ?_ [] ()
  · rw [hentries]
    exact ioExtFile_onePiface
  · intro uri huri
    rw [hentries]
    exact pifaceEvents_survivable huri

end IoExt

end Switcher
