import Switcher.Io.Lifecycle

/-!
`io_init` and `io_deinit` one hook at a time. Their nested loops are runs through
a list of stages, which the counts fix beforehand: no hook can change a count.
-/

namespace Switcher

open Lib.Program Lib.Interleaving

/-- A hook that is called if it is there, with the counters of the loops. -/
inductive HookStage where
  | openBus (cntBus : Nat)
  | initDev (cntBus cntDev : Nat)
  | deinitDev (cntBus cntDev : Nat)
  | closeBus (cntBus : Nat)
  deriving DecidableEq, Repr

variable {ω δ β W α : Type} (busTable : ω → BusDrv W) (table : δ → DevDrv ω δ β W)

def runStage : HookStage → LifeM ω δ β W Unit
  | .openBus cntBus => do
      let bus ← onSys (busIndex cntBus)
      callBusHook busTable bus (.openBus bus) (·.openBus)
  | .initDev cntBus cntDev => do
      let bus ← onSys (busIndex cntBus)
      initDevice table bus cntDev
  | .deinitDev cntBus cntDev => do
      let bus ← onSys (busIndex cntBus)
      deinitDevice table bus cntDev
  | .closeBus cntBus => do
      let bus ← onSys (busIndex cntBus)
      callBusHook busTable bus (.closeBus bus) (·.closeBus)

/-- `current_bus->num_devices`, where the bus is in the table. -/
def IoConfig.devicesAt (config : IoConfig ω δ) (cntBus : Nat) : List Nat :=
  if h : cntBus < maxBusses then List.range (config.busses ⟨cntBus, h⟩).numDevices.toNat else []

def initStagesOf (config : IoConfig ω δ) (cntBus : Nat) : List HookStage :=
  .openBus cntBus :: (config.devicesAt cntBus).map (.initDev cntBus)

def deinitStagesOf (config : IoConfig ω δ) (cntBus : Nat) : List HookStage :=
  (config.devicesAt cntBus).map (.deinitDev cntBus) ++ [.closeBus cntBus]

def initStages (config : IoConfig ω δ) : List HookStage :=
  (List.range config.numBusses.toNat).flatMap (initStagesOf config)

def deinitStages (config : IoConfig ω δ) : List HookStage :=
  (List.range config.numBusses.toNat).flatMap (deinitStagesOf config)

def HookStage.cntBus : HookStage → Nat
  | .openBus cntBus | .initDev cntBus _ | .deinitDev cntBus _ | .closeBus cntBus => cntBus

/-- No hook is called twice on the way. -/
theorem deinitStages_nodup (config : IoConfig ω δ) : (deinitStages config).Nodup := by
  have hbus {stage : HookStage} {cntBus : Nat} (h : stage ∈ deinitStagesOf config cntBus) :
      stage.cntBus = cntBus := by
    rcases List.mem_append.mp h with hdev | hclose
    · obtain ⟨cntDev, -, rfl⟩ := List.mem_map.mp hdev
      rfl
    · obtain rfl := List.mem_singleton.mp hclose
      rfl
  have hdevices (cntBus : Nat) : (config.devicesAt cntBus).Nodup := by
    unfold IoConfig.devicesAt
    split
    · exact List.nodup_range
    · exact List.nodup_nil
  apply List.pairwise_flatMap.mpr
  constructor
  · intro cntBus _
    apply List.nodup_append.mpr
    refine ⟨(hdevices cntBus).map ?_, List.nodup_singleton _, ?_⟩
    · intro d d' h
      exact (HookStage.deinitDev.inj h).2
    · intro stage hdev other hclose
      obtain ⟨cntDev, -, rfl⟩ := List.mem_map.mp hdev
      obtain rfl := List.mem_singleton.mp hclose
      exact HookStage.noConfusion
  · apply List.pairwise_lt_range.imp
    intro cntBus cntBus' hlt stage hstage other hother hsame
    have hsameBus := congrArg HookStage.cntBus hsame
    rw [hbus hstage, hbus hother] at hsameBus
    omega

/-- The counts of the devices are those of `config`. -/
def SameCounts (config : IoConfig ω δ) (s : Life ω δ β W) : Prop :=
  ∀ b, (s.sys.config.busses b).numDevices = (config.busses b).numDevices

section Shape

variable {config : IoConfig ω δ} {s : Sys ω δ β W}

/-- The counts and the drivers are those of the configuration. -/
structure Shaped (config : IoConfig ω δ) (s : Sys ω δ β W) : Prop where
  numBusses : s.config.numBusses = config.numBusses
  numDevices : ∀ b, (s.config.busses b).numDevices = (config.busses b).numDevices
  busHandle : ∀ b, (s.config.busses b).drvHandle = (config.busses b).drvHandle
  drvHandle : ∀ slot, (s.config.devices slot).drvHandle = (config.devices slot).drvHandle

theorem Shaped.storeDrv (h : Shaped config s) {slot : Slot} {t : DrvState δ β W}
    (ht : t.dev.drvHandle = (s.config.devices slot).drvHandle) :
    Shaped config (s.storeDrv slot t) where
  numBusses := h.numBusses
  numDevices := h.numDevices
  busHandle := h.busHandle
  drvHandle other := by
    by_cases hother : other = slot
    · subst hother
      rw [Sys.storeDrv, IoConfig.devices_setDev, ht, h.drvHandle]
    · rw [Sys.storeDrv, s.config.devices_setDev_of_ne _ hother, h.drvHandle]

theorem Shaped.storeBus (h : Shaped config s) (b : Fin maxBusses) (t : BusState W) :
    Shaped config (s.storeBus b t) where
  numBusses := h.numBusses
  numDevices other := by
    by_cases hother : other = b
    · subst hother
      simpa [Sys.storeBus, IoConfig.setBus] using h.numDevices other
    · simpa [Sys.storeBus, IoConfig.setBus, hother] using h.numDevices other
  busHandle other := by
    by_cases hother : other = b
    · subst hother
      simpa [Sys.storeBus, IoConfig.setBus] using h.busHandle other
    · simpa [Sys.storeBus, IoConfig.setBus, hother] using h.busHandle other
  drvHandle := h.drvHandle

theorem Shaped.hasSlot (h : Shaped config s) (slot : Slot) :
    s.config.HasSlot slot ↔ config.HasSlot slot := by
  simp only [IoConfig.HasSlot, h.numBusses, h.numDevices]

end Shape

section Hooks

variable {busTable table} {s : Life ω δ β W} {slot : Slot} {bus : Fin maxBusses} {call : HookCall}

theorem final_callDevHook {f : DevDrv ω δ β W → Option (IoBus ω → DrvM δ β W Int)}
    {hook : IoBus ω → DrvM δ β W Int}
    (h : ((s.sys.config.devices slot).drvHandle.bind fun handle => f (table handle)) = some hook) :
    final (callDevHook table slot call f) s =
      ⟨s.sys.storeDrv slot (final (hook (s.sys.config.busses slot.1)) (s.sys.drvState slot)),
        s.trace ++ [call]⟩ := by
  simp only [final, callDevHook, run_bind, run_get, h, noteHook, run_modify, onSys, onDevice]
  cases hrun : hook (s.sys.config.busses slot.1) (s.sys.drvState slot) with
  | ok rc t => simp only [run_pure]
  | error e t => rfl

theorem final_callBusHook {f : BusDrv W → Option (BusM W Int)} {hook : BusM W Int}
    (h : ((s.sys.config.busses bus).drvHandle.bind fun handle => f (busTable handle)) =
      some hook) :
    final (callBusHook busTable bus call f) s =
      ⟨s.sys.storeBus bus (final hook ⟨(s.sys.config.busses bus).busData, s.sys.world⟩),
        s.trace ++ [call]⟩ := by
  simp only [final, callBusHook, run_bind, run_get, h, noteHook, run_modify, onSys, onBus]
  cases hrun : hook ⟨(s.sys.config.busses bus).busData, s.sys.world⟩ with
  | ok rc t => simp only [run_pure]
  | error e t => rfl

end Hooks

section Counts

variable {config : IoConfig ω δ} {s : Life ω δ β W}

theorem sameCounts_storeBus (h : SameCounts config s) (b : Fin maxBusses) (t : BusState W)
    (trace : List HookCall) : SameCounts config ⟨s.sys.storeBus b t, trace⟩ := by
  intro other
  by_cases hother : other = b
  · subst hother
    simpa [Sys.storeBus, IoConfig.setBus] using h other
  · simpa [Sys.storeBus, IoConfig.setBus, hother] using h other

theorem callDevHook_sameCounts (slot : Slot) (call : HookCall)
    (f : DevDrv ω δ β W → Option (IoBus ω → DrvM δ β W Int)) :
    Keeps (SameCounts config) (callDevHook table slot call f) := by
  intro s hs
  cases h : (s.sys.config.devices slot).drvHandle.bind fun handle => f (table handle) with
  | none =>
      rw [final_of_ok (callDevHook_none h)]
      exact hs
  | some hook =>
      rw [final_callDevHook h]
      exact hs

theorem callBusHook_sameCounts (b : Fin maxBusses) (call : HookCall)
    (f : BusDrv W → Option (BusM W Int)) :
    Keeps (SameCounts config) (callBusHook busTable b call f : LifeM ω δ β W Unit) := by
  intro s hs
  cases h : (s.sys.config.busses b).drvHandle.bind fun handle => f (busTable handle) with
  | none =>
      rw [final_of_ok (callBusHook_none h)]
      exact hs
  | some hook =>
      rw [final_callBusHook h]
      exact sameCounts_storeBus hs b _ _

/-- An index into a table changes nothing. -/
theorem onSys_busIndex_keeps {I : Life ω δ β W → Prop} (idx : Int) :
    Keeps I (onSys (busIndex idx)) := by
  intro s hs
  unfold busIndex
  by_cases h : 0 ≤ idx ∧ idx < maxBusses
  · rw [dif_pos h]
    exact hs
  · rw [dif_neg h]
    exact hs

theorem onSys_devIndex_keeps {I : Life ω δ β W → Prop} (idx : Int) :
    Keeps I (onSys (devIndex idx)) := by
  intro s hs
  unfold devIndex
  by_cases h : 0 ≤ idx ∧ idx < maxIoDevices
  · rw [dif_pos h]
    exact hs
  · rw [dif_neg h]
    exact hs

theorem busIndex_out {i : Nat} (hi : ¬ i < maxBusses) (s : Life ω δ β W) :
    onSys (busIndex i) s = .error .outOfBounds s := by
  have hout : ¬ (0 ≤ (i : Int) ∧ (i : Int) < maxBusses) := by omega
  simp only [onSys, busIndex, dif_neg hout]
  rfl

theorem runStage_sameCounts (stage : HookStage) :
    Keeps (SameCounts config) (runStage busTable table stage) := by
  cases stage with
  | openBus cntBus =>
      exact (onSys_busIndex_keeps _).bind fun _ => callBusHook_sameCounts busTable _ _ _
  | initDev cntBus cntDev =>
      refine (onSys_busIndex_keeps _).bind fun _ => ?_
      exact (onSys_devIndex_keeps _).bind fun _ => callDevHook_sameCounts table _ _ _
  | deinitDev cntBus cntDev =>
      refine (onSys_busIndex_keeps _).bind fun _ => ?_
      exact (onSys_devIndex_keeps _).bind fun _ => callDevHook_sameCounts table _ _ _
  | closeBus cntBus =>
      exact (onSys_busIndex_keeps _).bind fun _ => callBusHook_sameCounts busTable _ _ _

end Counts

section Loops

variable {busTable table} {config : IoConfig ω δ} {s : Life ω δ β W} {cntBus : Nat}

theorem devicesAt_eq (h : cntBus < maxBusses) (hs : SameCounts config s) :
    config.devicesAt cntBus =
      List.range (s.sys.config.busses ⟨cntBus, h⟩).numDevices.toNat := by
  rw [IoConfig.devicesAt, dif_pos h, hs]

theorem devicesAt_out (h : ¬ cntBus < maxBusses) : config.devicesAt cntBus = [] := by
  rw [IoConfig.devicesAt, dif_neg h]

theorem runStage_initDev (h : cntBus < maxBusses) (cntDev : Nat) :
    runStage busTable table (.initDev cntBus cntDev) =
      (initDevice table ⟨cntBus, h⟩ cntDev : LifeM ω δ β W Unit) := by
  funext s
  exact bind_of_ok (busIndex_nat cntBus h s)

theorem runStage_deinitDev (h : cntBus < maxBusses) (cntDev : Nat) :
    runStage busTable table (.deinitDev cntBus cntDev) =
      (deinitDevice table ⟨cntBus, h⟩ cntDev : LifeM ω δ β W Unit) := by
  funext s
  exact bind_of_ok (busIndex_nat cntBus h s)

theorem initStagesOf_run (hs : SameCounts config s) :
    forAll (runStage busTable table) (initStagesOf config cntBus) s =
      initBus busTable table cntBus s := by
  rw [initStagesOf, forAll, initBus]
  by_cases h : cntBus < maxBusses
  · have hopen : runStage busTable table (.openBus cntBus) s =
        callBusHook busTable ⟨cntBus, h⟩ (.openBus ⟨cntBus, h⟩) (·.openBus) s :=
      bind_of_ok (busIndex_nat cntBus h s)
    have hcounts := callBusHook_sameCounts busTable ⟨cntBus, h⟩ (.openBus ⟨cntBus, h⟩) (·.openBus)
      s hs
    rw [bind_of_ok (busIndex_nat cntBus h s)]
    cases hrun : callBusHook busTable ⟨cntBus, h⟩ (.openBus ⟨cntBus, h⟩) (·.openBus) s with
    | error e t => rw [bind_of_error (hopen.trans hrun), bind_of_error hrun]
    | ok a t =>
        rw [final_of_ok hrun] at hcounts
        rw [bind_of_ok (hopen.trans hrun), bind_of_ok hrun, bind_of_ok (run_get t),
          devicesAt_eq h hcounts, forAll_map, ← forAll_eq_runAll]
        simp only [runStage_initDev h]
  · have hopen : runStage busTable table (.openBus cntBus) s = .error .outOfBounds s :=
      bind_of_error (busIndex_out h s)
    rw [bind_of_error hopen, bind_of_error (busIndex_out h s)]

theorem deinitStagesOf_run (hs : SameCounts config s) :
    forAll (runStage busTable table) (deinitStagesOf config cntBus) s =
      deinitBus busTable table cntBus s := by
  rw [deinitStagesOf, forAll_append, deinitBus]
  by_cases h : cntBus < maxBusses
  · have hclose : forAll (runStage busTable table) [.closeBus cntBus] =
        (callBusHook busTable ⟨cntBus, h⟩ (.closeBus ⟨cntBus, h⟩) (·.closeBus) :
          LifeM ω δ β W Unit) := by
      funext t
      have hstage : runStage busTable table (.closeBus cntBus) t = _ :=
        bind_of_ok (busIndex_nat cntBus h t)
      simp only [forAll, bind_pure_unit]
      exact hstage
    rw [bind_of_ok (busIndex_nat cntBus h s), bind_of_ok (run_get s), devicesAt_eq h hs,
      forAll_map, forAll_eq_runAll, hclose]
    simp only [runStage_deinitDev h, bind_assoc, pure_bind]
  · have hclose : runStage busTable table (.closeBus cntBus) s = .error .outOfBounds s :=
      bind_of_error (busIndex_out h s)
    rw [devicesAt_out h, bind_of_error (busIndex_out h s), List.map_nil, forAll,
      bind_of_ok (run_pure _ _), forAll]
    exact bind_of_error hclose

/-- A loop over the buses whose body is a run through stages is one itself. -/
theorem loop_stages {stagesOf : Nat → List HookStage} {body : Nat → LifeM ω δ β W Unit}
    (hbody : ∀ cntBus t, SameCounts s.sys.config t →
      forAll (runStage busTable table) (stagesOf cntBus) t = body cntBus t) :
    (do let s ← get
        let _ ← runAll body (List.range s.sys.config.numBusses.toNat)
        return exitSuccess : LifeM ω δ β W Int) s =
      (do forAll (runStage busTable table)
            ((List.range s.sys.config.numBusses.toNat).flatMap stagesOf)
          return exitSuccess) s := by
  have hloop := forAll_flatMap (I := SameCounts s.sys.config)
    (fun _ => runStage_sameCounts busTable table _) hbody
    (List.range s.sys.config.numBusses.toNat) fun _ => rfl
  rw [bind_of_ok (run_get s), run_bind (forAll _ _), hloop, forAll_eq_runAll]
  simp only [run_bind, run_pure]
  cases runAll body (List.range s.sys.config.numBusses.toNat) s with
  | ok codes t => rfl
  | error e t => rfl

/-- `io_init` is a run through its stages. -/
theorem ioInit_stages (s : Life ω δ β W) :
    ioInit busTable table s =
      (do forAll (runStage busTable table) (initStages s.sys.config)
          return exitSuccess) s :=
  loop_stages fun _ _ hs => initStagesOf_run hs

/-- `io_deinit` is a run through its stages. -/
theorem ioDeinit_stages (s : Life ω δ β W) :
    ioDeinit busTable table s =
      (do forAll (runStage busTable table) (deinitStages s.sys.config)
          return exitSuccess) s :=
  loop_stages fun _ _ hs => deinitStagesOf_run hs

end Loops

end Switcher
