import Switcher.Io.Stages
import Switcher.Config.Inside

/-!
What `io_init` reports. The results of the hooks are dropped where they are called,
so a second version of the loops keeps them.
-/

namespace Switcher

open Lib.Program Lib.Interleaving

variable {ω δ β W : Type} (busTable : ω → BusDrv W) (table : δ → DevDrv ω δ β W)

/-- `callBusHook` with the result of the hook, if there is one. -/
def busHookResult (bus : Fin maxBusses) (call : HookCall)
    (f : BusDrv W → Option (BusM W Int)) : LifeM ω δ β W (Option Int) := do
  let s ← get
  match (s.sys.config.busses bus).drvHandle.bind fun handle => f (busTable handle) with
  | none => pure none
  | some hook => do
      noteHook call
      let rc ← onSys (onBus bus hook)
      return some rc

/-- `callDevHook` with the result of the hook, if there is one. -/
def devHookResult (slot : Slot) (call : HookCall)
    (f : DevDrv ω δ β W → Option (IoBus ω → DrvM δ β W Int)) : LifeM ω δ β W (Option Int) := do
  let s ← get
  match (s.sys.config.devices slot).drvHandle.bind fun handle => f (table handle) with
  | none => pure none
  | some hook => do
      noteHook call
      let rc ← onSys (onDevice slot hook)
      return some rc

def stageResult : HookStage → LifeM ω δ β W (Option Int)
  | .openBus cntBus => do
      let bus ← onSys (busIndex cntBus)
      busHookResult busTable bus (.openBus bus) (·.openBus)
  | .initDev cntBus cntDev => do
      let bus ← onSys (busIndex cntBus)
      let dev ← onSys (devIndex cntDev)
      devHookResult table (bus, dev) (.init (bus, dev)) (·.init)
  | .deinitDev cntBus cntDev => do
      let bus ← onSys (busIndex cntBus)
      let dev ← onSys (devIndex cntDev)
      devHookResult table (bus, dev) (.deinit (bus, dev)) (·.deinit)
  | .closeBus cntBus => do
      let bus ← onSys (busIndex cntBus)
      busHookResult busTable bus (.closeBus bus) (·.closeBus)

/-- Every configured bus and device that has the hook gets 0 from it. -/
def AllSucceed (s : Life ω δ β W) : Prop :=
  ∀ results t, runAll (stageResult busTable table) (initStages s.sys.config) s = .ok results t →
    ∀ rc, some rc ∈ results → rc = exitSuccess

/-- `main` from `io_init` on: whether it goes on to serve requests. -/
def startServing : LifeM ω δ β W Bool := do
  if (← ioInit busTable table) = exitFailure then return false else return true

/-- `io_init` returns success exactly if all hooks do, and requests are served only
then. -/
structure FailuresReported (s : Life ω δ β W) : Prop where
  result : ∀ rc t, ioInit busTable table s = .ok rc t →
    (rc = exitSuccess ↔ AllSucceed busTable table s)
  serves : ∀ t, startServing busTable table s = .ok true t → AllSucceed busTable table s

section Results

variable {busTable table}

theorem callBusHook_eq (bus : Fin maxBusses) (call : HookCall)
    (f : BusDrv W → Option (BusM W Int)) :
    (callBusHook busTable bus call f : LifeM ω δ β W Unit) =
      (do let _ ← busHookResult busTable bus call f) := by
  funext s
  simp only [callBusHook, busHookResult, run_bind, run_get]
  cases (s.sys.config.busses bus).drvHandle.bind fun handle => f (busTable handle) with
  | none => rfl
  | some hook =>
      simp only [run_bind, noteHook, run_modify]
      cases onSys (onBus bus hook) (⟨s.sys, s.trace ++ [call]⟩ : Life ω δ β W) <;> rfl

theorem callDevHook_eq (slot : Slot) (call : HookCall)
    (f : DevDrv ω δ β W → Option (IoBus ω → DrvM δ β W Int)) :
    callDevHook table slot call f = (do let _ ← devHookResult table slot call f) := by
  funext s
  simp only [callDevHook, devHookResult, run_bind, run_get]
  cases (s.sys.config.devices slot).drvHandle.bind fun handle => f (table handle) with
  | none => rfl
  | some hook =>
      simp only [run_bind, noteHook, run_modify]
      cases onSys (onDevice slot hook) (⟨s.sys, s.trace ++ [call]⟩ : Life ω δ β W) <;> rfl

theorem runStage_eq (stage : HookStage) :
    runStage busTable table stage = (do let _ ← stageResult busTable table stage) := by
  cases stage with
  | openBus cntBus => simp only [runStage, stageResult, callBusHook_eq, bind_assoc]
  | initDev cntBus cntDev =>
      simp only [runStage, initDevice, stageResult, callDevHook_eq, bind_assoc]
  | deinitDev cntBus cntDev =>
      simp only [runStage, deinitDevice, stageResult, callDevHook_eq, bind_assoc]
  | closeBus cntBus => simp only [runStage, stageResult, callBusHook_eq, bind_assoc]

/-- `io_init` is the loop that keeps the results, without them. -/
theorem ioInit_results (s : Life ω δ β W) :
    ioInit busTable table s =
      (do let _ ← runAll (stageResult busTable table) (initStages s.sys.config)
          return exitSuccess) s := by
  rw [ioInit_stages, forAll_drop runStage_eq, bind_assoc]
  simp only [pure_bind]

theorem ioInit_success {s t : Life ω δ β W} {rc : Int} (h : ioInit busTable table s = .ok rc t) :
    rc = exitSuccess := by
  rw [ioInit_results] at h
  exact eq_of_return h

end Results

/-- `io_init` reports failures exactly where there are none. -/
theorem failuresReported_iff (s : Life ω δ β W) :
    FailuresReported busTable table s ↔ AllSucceed busTable table s := by
  constructor
  · intro hreported results t hrun
    have hinit : ioInit busTable table s = .ok exitSuccess t := by
      rw [ioInit_results, bind_of_ok hrun, run_pure]
    exact (hreported.result _ t hinit).mp rfl results t hrun
  · intro hsucceed
    refine ⟨?_, fun _ _ => hsucceed⟩
    intro rc t hinit
    exact iff_of_true (ioInit_success hinit) hsucceed

/-- One I2C bus and no device. -/
def oneBus : Life BusHandle DevHandle Unit (Env Unit) where
  sys :=
    { config := { zeroConfig with
        numBusses := 1
        busses := fun _ => ⟨0, some .i2cLinux, some ⟨"/dev/i2c-1".toList, 0⟩⟩ }
      buf := ()
      world := calmWorld
      calls := [] }
  trace := []

/-- An operating system in which nothing can be opened. -/
def closedKernel : Kernel Unit := { calmKernel with openFile := fun _ os => (-1, os) }

/-- The bus cannot be opened, and `io_init` returns success. -/
theorem closedBus_unreported :
    ¬ FailuresReported (busDrv closedKernel) (devDrv closedKernel) oneBus := by
  intro hreported
  have hinit : yields (ioInit (busDrv closedKernel) (devDrv closedKernel)) oneBus
      (fun rc _ => rc == exitSuccess) = true := by decide +kernel
  have hopen : yields (runAll (stageResult (busDrv closedKernel) (devDrv closedKernel))
      (initStages oneBus.sys.config)) oneBus
      (fun results _ => results == [some exitFailure]) = true := by decide +kernel
  obtain ⟨rc, t, hrun, hrc⟩ := exists_of_yields hinit
  obtain ⟨results, u, hresults, hfailed⟩ := exists_of_yields hopen
  have hsucceed := (hreported.result rc t hrun).mp (eq_of_beq hrc)
  rw [eq_of_beq hfailed] at hresults
  cases hsucceed _ u hresults exitFailure (List.mem_singleton.mpr rfl)

end Switcher
