import Switcher.Io.Stages
import Switcher.Service.Handle

/-!
`io_init` and `io_deinit` of a configuration that has all that its drivers follow. The
first one leaves every device working, the second one gives back what each of them has,
whatever the kernel answers.
-/

namespace Switcher

open Lib.Program Lib.Interleaving

variable {β κ : Type} {K : Kernel κ}

/-- No device path fills the buffer that it is kept in. -/
def IoConfig.PathsFit {ω δ : Type} (config : IoConfig ω δ) : Prop :=
  ∀ b data, (config.busses b).busData = some data → data.device.length < i2cDevLen

/-- There is one PiFace at most. -/
def IoConfig.OnePiface (config : IoConfig BusHandle DevHandle) : Prop :=
  ∀ slot other, config.HasPiface slot → config.HasPiface other → other = slot

theorem Shaped.onePiface {config : IoConfig BusHandle DevHandle} {s : Daemon β κ}
    (h : Shaped config s) (hone : config.OnePiface) : s.config.OnePiface := by
  have hpiface {slot : Slot} (hslot : s.config.HasPiface slot) : config.HasPiface slot :=
    ⟨(h.hasSlot slot).mp hslot.hasSlot, (h.drvHandle slot).symm.trans hslot.piface⟩
  exact fun slot other hslot hother => hone slot other (hpiface hslot) (hpiface hother)

theorem Grows.shaped {s t : Daemon β κ} (h : Grows s t) : Shaped s.config t :=
  ⟨h.numBusses, h.numDevices, h.busHandle, h.drvHandle⟩

section Counters

variable {ω δ : Type} {config : IoConfig ω δ}

theorem bus_of_range (hbounded : config.Bounded) {cntBus : Nat}
    (h : cntBus ∈ List.range config.numBusses.toNat) :
    ∃ b : Fin maxBusses, cntBus = b.val ∧ (b.val : Int) < config.numBusses := by
  have hlt := Int.lt_toNat.mp (List.mem_range.mp h)
  have hmax := hbounded.busses.2
  exact ⟨⟨cntBus, by omega⟩, rfl, hlt⟩

theorem slot_of_devicesAt (hbounded : config.Bounded) {b : Fin maxBusses}
    (hb : (b.val : Int) < config.numBusses) {cntDev : Nat} (h : cntDev ∈ config.devicesAt b.val) :
    ∃ d : Fin maxIoDevices, cntDev = d.val ∧ config.HasSlot (b, d) := by
  rw [IoConfig.devicesAt, dif_pos b.isLt] at h
  have hlt : (cntDev : Int) < (config.busses b).numDevices :=
    Int.lt_toNat.mp (List.mem_range.mp h)
  have hmax := (hbounded.devices b).2
  exact ⟨⟨cntDev, by omega⟩, rfl, hb, hlt⟩

theorem mem_devicesAt {slot : Slot} (hslot : config.HasSlot slot) :
    slot.2.val ∈ config.devicesAt slot.1.val := by
  rw [IoConfig.devicesAt, dif_pos slot.1.isLt]
  exact List.mem_range.mpr (Int.lt_toNat.mpr hslot.2)

/-- The stages of `io_init` are the buses and the devices that are configured. -/
theorem initStages_cases (hbounded : config.Bounded) {stage : HookStage}
    (h : stage ∈ initStages config) :
    (∃ b : Fin maxBusses, stage = .openBus b.val ∧ (b.val : Int) < config.numBusses) ∨
      ∃ slot : Slot, stage = .initDev slot.1.val slot.2.val ∧ config.HasSlot slot := by
  obtain ⟨cntBus, hcntBus, hmem⟩ := List.mem_flatMap.mp h
  obtain ⟨b, rfl, hb⟩ := bus_of_range hbounded hcntBus
  rcases List.mem_cons.mp hmem with hopen | hdev
  · exact .inl ⟨b, hopen, hb⟩
  · obtain ⟨cntDev, hcntDev, rfl⟩ := List.mem_map.mp hdev
    obtain ⟨d, rfl, hslot⟩ := slot_of_devicesAt hbounded hb hcntDev
    exact .inr ⟨(b, d), rfl, hslot⟩

theorem deinitStages_cases (hbounded : config.Bounded) {stage : HookStage}
    (h : stage ∈ deinitStages config) :
    (∃ b : Fin maxBusses, stage = .closeBus b.val ∧ (b.val : Int) < config.numBusses) ∨
      ∃ slot : Slot, stage = .deinitDev slot.1.val slot.2.val ∧ config.HasSlot slot := by
  obtain ⟨cntBus, hcntBus, hmem⟩ := List.mem_flatMap.mp h
  obtain ⟨b, rfl, hb⟩ := bus_of_range hbounded hcntBus
  rcases List.mem_append.mp hmem with hdev | hclose
  · obtain ⟨cntDev, hcntDev, rfl⟩ := List.mem_map.mp hdev
    obtain ⟨d, rfl, hslot⟩ := slot_of_devicesAt hbounded hb hcntDev
    exact .inr ⟨(b, d), rfl, hslot⟩
  · exact .inl ⟨b, List.mem_singleton.mp hclose, hb⟩

theorem deinitDev_mem {slot : Slot} (hslot : config.HasSlot slot) :
    .deinitDev slot.1.val slot.2.val ∈ deinitStages config := by
  apply List.mem_flatMap.mpr
  refine ⟨slot.1.val, List.mem_range.mpr (Int.lt_toNat.mpr hslot.1), ?_⟩
  exact List.mem_append_left _ (List.mem_map_of_mem (mem_devicesAt hslot))

end Counters

section IoInit

variable {s t : Daemon β κ} {u : Life BusHandle DevHandle β (Env κ)} {b : Fin maxBusses}
  {slot : Slot}

theorem setBus_pathsFit {config : IoConfig BusHandle DevHandle} (h : config.PathsFit)
    {bus : IoBus BusHandle}
    (hbus : ∀ data, bus.busData = some data → data.device.length < i2cDevLen) :
    (config.setBus b bus).PathsFit := by
  intro other data hdata
  rcases eq_or_ne other b with rfl | hne
  · simp only [IoConfig.setBus, Function.update_self] at hdata
    exact hbus data hdata
  · simp only [IoConfig.setBus, Function.update_of_ne hne] at hdata
    exact h other data hdata

/-- Where the path fits, the `open` hook of a bus returns. -/
theorem openHook_returns (call : HookCall) (hs : u.sys.config.Equipped)
    (hb : (b.val : Int) < u.sys.config.numBusses) (hpaths : u.sys.config.PathsFit) :
    ∃ v, callBusHook (busDrv K) b call (·.openBus) u = .ok () v ∧ Grows u.sys v.sys ∧
      v.sys.config.PathsFit := by
  cases hhandle : (u.sys.config.busses b).drvHandle with
  | none => exact ⟨u, callBusHook_none (by rw [hhandle]; rfl), .refl _, hpaths⟩
  | some handle =>
      cases handle
      obtain ⟨data, hdata⟩ := Option.isSome_iff_exists.mp (hs.busData b hb (by rw [hhandle]; rfl))
      have hlength := hpaths b data hdata
      have hrun : ∃ rc fh os, i2cLinuxOpen K ⟨(u.sys.config.busses b).busData, u.sys.world⟩ =
          .ok rc ⟨some { data with fh := fh }, { u.sys.world with os := os }⟩ := by
        have hptr : busPtr ⟨(u.sys.config.busses b).busData, u.sys.world⟩ =
            .ok data ⟨(u.sys.config.busses b).busData, u.sys.world⟩ := by
          simp only [busPtr, run_bind, run_get, hdata, run_pure]
        unfold i2cLinuxOpen
        rw [bind_of_ok hptr, if_neg (by omega)]
        exact ⟨_, _, _, rfl⟩
      obtain ⟨rc, fh, os, hrun⟩ := hrun
      refine ⟨_, callBusHook_ok (by rw [hhandle]; rfl) hrun,
        grows_storeBus (fun _ => rfl) rfl, setBus_pathsFit hpaths ?_⟩
      intro data' hdata'
      obtain rfl := Option.some.inj hdata'
      exact hlength

theorem callDevHook_busses {call : HookCall} {f : DevDrv BusHandle DevHandle β (Env κ) →
      Option (IoBus BusHandle → DrvM DevHandle β (Env κ) Int)}
    {v : Life BusHandle DevHandle β (Env κ)} (h : callDevHook (devDrv K) slot call f u = .ok () v) :
    v.sys.config.busses = u.sys.config.busses := by
  cases hhook : (u.sys.config.devices slot).drvHandle.bind fun handle => f (devDrv K handle) with
  | none =>
      rw [callDevHook_none hhook] at h
      obtain ⟨-, rfl⟩ := EStateM.Result.ok.inj h
      rfl
  | some hook =>
      rw [← final_of_ok h, final_callDevHook hhook]
      rfl

/-- In the midst of `io_init`, where these stages are left. -/
structure InitLeft (s : Daemon β κ) (stages : List HookStage)
    (u : Life BusHandle DevHandle β (Env κ)) : Prop where
  known : ∀ stage ∈ stages, stage ∈ initStages s.config
  grows : Grows s u.sys
  paths : u.sys.config.PathsFit

theorem initStage_left (hK : K.Allocates) (hs : s.config.Equipped) (stage : HookStage)
    (rest : List HookStage) :
    Returns (InitLeft s (stage :: rest)) (runStage (busDrv K) (devDrv K) stage)
      (fun _ => InitLeft s rest) := by
  intro u hu
  have hknown : ∀ other ∈ rest, other ∈ initStages s.config := fun other hother =>
    hu.known other (List.mem_cons_of_mem _ hother)
  have hequipped := hu.grows.equipped hs
  rcases initStages_cases hs.bounded (hu.known stage (List.mem_cons_self ..)) with
    ⟨b, rfl, hb⟩ | ⟨slot, rfl, hslot⟩
  · rw [← hu.grows.numBusses] at hb
    obtain ⟨v, hrun, hgrows, hpaths⟩ :=
      openHook_returns (K := K) (.openBus b) hequipped hb hu.paths
    exact ⟨(), v, (bind_of_ok (busIndex_nat b.val b.isLt u)).trans hrun, hknown,
      hu.grows.trans hgrows, hpaths⟩
  · obtain ⟨v, hrun, hgrows, -⟩ :=
      initHook_returns (.init slot) hK hequipped ((hu.grows.hasSlot slot).mpr hslot)
    have hstage : runStage (busDrv K) (devDrv K) (.initDev slot.1.val slot.2.val) u = .ok () v := by
      rw [runStage_initDev slot.1.isLt, initDevice, bind_of_ok (devIndex_nat _ slot.2.isLt u)]
      exact hrun
    refine ⟨(), v, hstage, hknown, hu.grows.trans hgrows, ?_⟩
    intro b data hdata
    rw [callDevHook_busses hrun] at hdata
    exact hu.paths b data hdata

/-- `io_init` brings an equipped configuration into service. -/
theorem ioInit_inService (hK : K.Allocates) (hs : s.config.Equipped) (hpaths : s.config.PathsFit)
    (trace : List HookCall) :
    ∃ u, ioInit (busDrv K) (devDrv K) ⟨s, trace⟩ = .ok exitSuccess u ∧ Grows s u.sys ∧
      InService u.sys := by
  have hstart : InitLeft s (initStages s.config) ⟨s, trace⟩ :=
    ⟨fun _ h => h, .refl s, hpaths⟩
  obtain ⟨⟨⟩, u, hloop, hu⟩ := forAll_returns (fun stage rest => initStage_left hK hs stage rest)
    _ _ hstart
  have hrun : ioInit (busDrv K) (devDrv K) ⟨s, trace⟩ = .ok exitSuccess u := by
    rw [ioInit_stages, bind_of_ok hloop, run_pure]
  exact ⟨u, hrun, hu.grows, (ioInit_avoids hK ⟨s, trace⟩ hs).1 _ _ hrun⟩

end IoInit

section IoDeinit

variable {s t : Daemon β κ} {u : Life BusHandle DevHandle β (Env κ)} {b : Fin maxBusses}
  {slot : Slot}

/-- The configuration has stayed, but for what the devices' drivers keep. -/
structure StaysWired (s t : Daemon β κ) : Prop where
  numBusses : t.config.numBusses = s.config.numBusses
  busses : t.config.busses = s.config.busses
  drvHandle : ∀ slot, (t.config.devices slot).drvHandle = (s.config.devices slot).drvHandle
  devBusData : ∀ slot, (t.config.devices slot).devBusData = (s.config.devices slot).devBusData

/-- The `deinit` hook of the device may be called. -/
def Undoable (t : Daemon β κ) (slot : Slot) : Prop :=
  (t.config.devices slot).drvHandle = some .piface → ∃ fd, t.world.spi = .live fd

/-- The `deinit` hook of the device has been called. -/
structure Undone (t : Daemon β κ) (slot : Slot) : Prop where
  mcp23017 : (t.config.devices slot).drvHandle = some .mcp23017 →
    (t.config.devices slot).devData = none
  piface : (t.config.devices slot).drvHandle = some .piface → t.world.spi = .freed

theorem StaysWired.refl (s : Daemon β κ) : StaysWired s s := ⟨rfl, rfl, fun _ => rfl, fun _ => rfl⟩

theorem StaysWired.trans {v : Daemon β κ} (h : StaysWired s t) (h' : StaysWired t v) :
    StaysWired s v where
  numBusses := h'.numBusses.trans h.numBusses
  busses := h'.busses.trans h.busses
  drvHandle slot := (h'.drvHandle slot).trans (h.drvHandle slot)
  devBusData slot := (h'.devBusData slot).trans (h.devBusData slot)

theorem wired_storeDrv {v : DrvState DevHandle β (Env κ)}
    (hhandle : v.dev.drvHandle = (s.config.devices slot).drvHandle)
    (hdata : v.dev.devBusData = (s.config.devices slot).devBusData) :
    StaysWired s (s.storeDrv slot v) := by
  refine ⟨rfl, rfl, ?_, ?_⟩
  · intro other
    rcases eq_or_ne other slot with rfl | hne
    · simpa [Sys.storeDrv] using hhandle
    · simp [Sys.storeDrv, s.config.devices_setDev_of_ne _ hne]
  · intro other
    rcases eq_or_ne other slot with rfl | hne
    · simpa [Sys.storeDrv] using hdata
    · simp [Sys.storeDrv, s.config.devices_setDev_of_ne _ hne]

/-- What becomes of the other devices while one is taken out of use. -/
def SparesOthers (s t : Daemon β κ) (slot : Slot) : Prop :=
  ∀ other, other ≠ slot → s.config.HasSlot other →
    (Undoable s other → Undoable t other) ∧ (Undone s other → Undone t other)

theorem sparesOthers_storeDrv {v : DrvState DevHandle β (Env κ)}
    (hspi : v.world.spi = s.world.spi) : SparesOthers s (s.storeDrv slot v) slot := by
  intro other hne _
  have hdev : (s.storeDrv slot v).config.devices other = s.config.devices other :=
    s.config.devices_setDev_of_ne _ hne
  have hworld : (s.storeDrv slot v).world.spi = s.world.spi := hspi
  constructor
  · intro h
    rw [Undoable, hdev, hworld]
    exact h
  · rintro ⟨hmcp, hpiface⟩
    constructor
    · rw [hdev]
      exact hmcp
    · rw [hdev, hworld]
      exact hpiface

/-- The `deinit` hook of a device gives back what the device has. -/
theorem deinitHook_returns (call : HookCall) (hone : u.sys.config.OnePiface)
    (hslot : u.sys.config.HasSlot slot)
    (hdriver : (u.sys.config.devices slot).drvHandle.isSome) (hready : Undoable u.sys slot) :
    ∃ v, callDevHook (devDrv K) slot call (·.deinit) u = .ok () v ∧ StaysWired u.sys v.sys ∧
      Undone v.sys slot ∧ SparesOthers u.sys v.sys slot := by
  obtain ⟨handle, hhandle⟩ := Option.isSome_iff_exists.mp hdriver
  cases handle with
  | pcf8574 =>
      refine ⟨u, callDevHook_none (by rw [hhandle]; rfl), .refl _, ⟨?_, ?_⟩, ?_⟩
      · intro h
        cases hhandle.symm.trans h
      · intro h
        cases hhandle.symm.trans h
      · exact fun _ _ _ => ⟨id, id⟩
  | mcp23017 =>
      have hrun : mcp23017Deinit (u.sys.config.busses slot.1) (u.sys.drvState slot) =
          .ok 0 { u.sys.drvState slot with
            dev := { u.sys.config.devices slot with devData := none } } := rfl
      refine ⟨_, callDevHook_ok (by rw [hhandle]; rfl) hrun, wired_storeDrv rfl rfl, ⟨?_, ?_⟩,
        sparesOthers_storeDrv rfl⟩
      · intro _
        simp [Sys.storeDrv]
      · intro h
        simp [Sys.storeDrv, hhandle] at h
  | piface =>
      obtain ⟨fd, hfd⟩ := hready hhandle
      have hrun : ∃ rc os, pifaceDeinit K (u.sys.config.busses slot.1) (u.sys.drvState slot) =
          .ok rc { u.sys.drvState slot with world := ⟨.freed, os⟩ } := by
        have hspi : (spiFd : DrvM DevHandle β (Env κ) Int) (u.sys.drvState slot) =
            .ok fd (u.sys.drvState slot) := by
          have hworld : (u.sys.drvState slot).world.spi = .live fd := hfd
          simp only [spiFd, run_bind, run_get, hworld, run_pure]
        unfold pifaceDeinit pfioDeinit
        rw [bind_assoc, bind_of_ok hspi]
        exact ⟨_, _, rfl⟩
      obtain ⟨rc, os, hrun⟩ := hrun
      refine ⟨_, callDevHook_ok (by rw [hhandle]; rfl) hrun, wired_storeDrv rfl rfl, ⟨?_, ?_⟩, ?_⟩
      · intro h
        simp [Sys.storeDrv, Sys.drvState, hhandle] at h
      · exact fun _ => rfl
      · intro other hne hother
        have hdev : ((u.sys.storeDrv slot { u.sys.drvState slot with
            world := ⟨.freed, os⟩ }).config.devices other) = u.sys.config.devices other :=
          u.sys.config.devices_setDev_of_ne _ hne
        have hnot : ¬ (u.sys.config.devices other).drvHandle = some .piface := fun h =>
          hne (hone slot other ⟨hslot, hhandle⟩ ⟨hother, h⟩)
        constructor
        · intro _ h
          rw [hdev] at h
          exact absurd h hnot
        · rintro ⟨hmcp, -⟩
          constructor
          · rw [hdev]
            exact hmcp
          · intro h
            rw [hdev] at h
            exact absurd h hnot

/-- The `close` hook of a bus. -/
theorem closeHook_returns (call : HookCall)
    (hdata : (u.sys.config.busses b).drvHandle.isSome → (u.sys.config.busses b).busData.isSome) :
    ∃ v, callBusHook (busDrv K) b call (·.closeBus) u = .ok () v ∧ v.sys.config = u.sys.config ∧
      v.sys.world.spi = u.sys.world.spi := by
  cases hhandle : (u.sys.config.busses b).drvHandle with
  | none => exact ⟨u, callBusHook_none (by rw [hhandle]; rfl), rfl, rfl⟩
  | some handle =>
      cases handle
      obtain ⟨data, hdata⟩ := Option.isSome_iff_exists.mp (hdata (by rw [hhandle]; rfl))
      have hrun : ∃ rc os, i2cLinuxClose K ⟨(u.sys.config.busses b).busData, u.sys.world⟩ =
          .ok rc ⟨(u.sys.config.busses b).busData, { u.sys.world with os := os }⟩ := by
        have hptr : busPtr ⟨(u.sys.config.busses b).busData, u.sys.world⟩ =
            .ok data ⟨(u.sys.config.busses b).busData, u.sys.world⟩ := by
          simp only [busPtr, run_bind, run_get, hdata, run_pure]
        unfold i2cLinuxClose
        rw [bind_of_ok hptr]
        exact ⟨_, _, rfl⟩
      obtain ⟨rc, os, hrun⟩ := hrun
      refine ⟨_, callBusHook_ok (by rw [hhandle]; rfl) hrun, ?_, rfl⟩
      simp [Sys.storeBus, IoConfig.setBus]

/-- In the midst of `io_deinit`, where these stages are left. -/
structure DeinitLeft (s : Daemon β κ) (stages : List HookStage)
    (u : Life BusHandle DevHandle β (Env κ)) : Prop where
  nodup : stages.Nodup
  known : ∀ stage ∈ stages, stage ∈ deinitStages s.config
  wired : StaysWired s u.sys
  left : ∀ slot, s.config.HasSlot slot → .deinitDev slot.1.val slot.2.val ∈ stages →
    Undoable u.sys slot
  done : ∀ slot, s.config.HasSlot slot → .deinitDev slot.1.val slot.2.val ∉ stages →
    Undone u.sys slot

theorem StaysWired.hasSlot (h : StaysWired s t) (slot : Slot) :
    t.config.HasSlot slot ↔ s.config.HasSlot slot := by
  simp only [IoConfig.HasSlot, h.numBusses, h.busses]

theorem StaysWired.onePiface (h : StaysWired s t) (hone : s.config.OnePiface) :
    t.config.OnePiface :=
  Shaped.onePiface ⟨h.numBusses, fun _ => by rw [h.busses], fun _ => by rw [h.busses],
    h.drvHandle⟩ hone

theorem StaysWired.equipped (h : StaysWired s t) (hs : s.config.Equipped) : t.config.Equipped where
  bounded := by
    refine ⟨by rw [h.numBusses]; exact hs.bounded.busses, ?_⟩
    rw [h.busses]
    exact hs.bounded.devices
  driver slot hslot := by
    rw [h.drvHandle]
    exact hs.driver slot ((h.hasSlot slot).mp hslot)
  busData b hb := by
    rw [h.numBusses] at hb
    rw [h.busses]
    exact hs.busData b hb
  i2c slot handle hslot hhandle hi2c := by
    rw [h.drvHandle] at hhandle
    rw [h.busses, h.devBusData]
    exact hs.i2c slot handle ((h.hasSlot slot).mp hslot) hhandle hi2c

theorem wired_of_config (h : t.config = s.config) : StaysWired s t := by
  refine ⟨?_, ?_, ?_, ?_⟩ <;> simp [h]

theorem undoable_of_same (h : Undoable s slot) (hconfig : t.config = s.config)
    (hspi : t.world.spi = s.world.spi) : Undoable t slot := by
  rw [Undoable, hconfig, hspi]
  exact h

theorem undone_of_same (h : Undone s slot) (hconfig : t.config = s.config)
    (hspi : t.world.spi = s.world.spi) : Undone t slot := by
  constructor
  · rw [hconfig]
    exact h.mcp23017
  · rw [hconfig, hspi]
    exact h.piface

theorem slot_of_deinitDev {slot other : Slot} (h : HookStage.deinitDev slot.1.val slot.2.val =
    .deinitDev other.1.val other.2.val) : slot = other := by
  obtain ⟨hbus, hdev⟩ := HookStage.deinitDev.inj h
  exact Prod.ext (Fin.ext hbus) (Fin.ext hdev)

theorem deinitStage_left (hs : s.config.Equipped) (hone : s.config.OnePiface) (stage : HookStage)
    (rest : List HookStage) :
    Returns (DeinitLeft s (stage :: rest)) (runStage (busDrv K) (devDrv K) stage)
      (fun _ => DeinitLeft s rest) := by
  intro u hu
  obtain ⟨hstage, hrest⟩ := List.nodup_cons.mp hu.nodup
  have hknown : ∀ other ∈ rest, other ∈ deinitStages s.config := fun other hother =>
    hu.known other (List.mem_cons_of_mem _ hother)
  rcases deinitStages_cases hs.bounded (hu.known stage (List.mem_cons_self ..)) with
    ⟨b, rfl, hb⟩ | ⟨slot, rfl, hslot⟩
  · have hdata : (u.sys.config.busses b).drvHandle.isSome →
        (u.sys.config.busses b).busData.isSome := by
      rw [hu.wired.busses]
      exact hs.busData b hb
    obtain ⟨v, hrun, hconfig, hspi⟩ := closeHook_returns (K := K) (.closeBus b) hdata
    refine ⟨(), v, (bind_of_ok (busIndex_nat b.val b.isLt u)).trans hrun, hrest, hknown,
      hu.wired.trans (wired_of_config hconfig), ?_, ?_⟩
    · intro other hother hmem
      exact undoable_of_same (hu.left other hother (List.mem_cons_of_mem _ hmem)) hconfig hspi
    · intro other hother hnot
      refine undone_of_same (hu.done other hother ?_) hconfig hspi
      simpa using hnot
  · have hready := hu.left slot hslot (List.mem_cons_self ..)
    have hdriver : (u.sys.config.devices slot).drvHandle.isSome := by
      rw [hu.wired.drvHandle]
      exact hs.driver slot hslot
    obtain ⟨v, hrun, hwired, hundone, hothers⟩ := deinitHook_returns (K := K) (.deinit slot)
      (hu.wired.onePiface hone) ((hu.wired.hasSlot slot).mpr hslot) hdriver hready
    have hcall : runStage (busDrv K) (devDrv K) (.deinitDev slot.1.val slot.2.val) u =
        .ok () v := by
      rw [runStage_deinitDev slot.1.isLt, deinitDevice,
        bind_of_ok (devIndex_nat _ slot.2.isLt u)]
      exact hrun
    refine ⟨(), v, hcall, hrest, hknown, hu.wired.trans hwired, ?_, ?_⟩
    · intro other hother hmem
      have hne : other ≠ slot := fun h => hstage (h ▸ hmem)
      have hbefore := hu.left other hother (List.mem_cons_of_mem _ hmem)
      exact (hothers other hne ((hu.wired.hasSlot other).mpr hother)).1 hbefore
    · intro other hother hnot
      rcases eq_or_ne other slot with rfl | hne
      · exact hundone
      · have hbefore : Undone u.sys other := by
          refine hu.done other hother fun hmem => ?_
          rcases List.mem_cons.mp hmem with hsame | hin
          · exact hne (slot_of_deinitDev hsame)
          · exact hnot hin
        exact (hothers other hne ((hu.wired.hasSlot other).mpr hother)).2 hbefore

/-- `io_deinit` of a daemon in service takes every device out of use. -/
theorem ioDeinit_undone (hs : InService s) (hone : s.config.OnePiface) (trace : List HookCall) :
    ∃ u, ioDeinit (busDrv K) (devDrv K) ⟨s, trace⟩ = .ok exitSuccess u ∧ StaysWired s u.sys ∧
      ∀ slot, s.config.HasSlot slot → Undone u.sys slot := by
  have hstart : DeinitLeft s (deinitStages s.config) ⟨s, trace⟩ := by
    refine ⟨deinitStages_nodup _, fun _ h => h, .refl s, ?_, ?_⟩
    · exact fun slot hslot _ => (hs.works slot hslot).piface
    · exact fun slot hslot hnot => absurd (deinitDev_mem hslot) hnot
  obtain ⟨⟨⟩, u, hloop, hu⟩ := forAll_returns
    (fun stage rest => deinitStage_left hs.equipped hone stage rest) _ _ hstart
  refine ⟨u, ?_, hu.wired, fun slot hslot => hu.done slot hslot (List.not_mem_nil)⟩
  rw [ioDeinit_stages, bind_of_ok hloop, run_pure]

end IoDeinit

end Switcher
