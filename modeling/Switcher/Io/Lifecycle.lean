import Switcher.Io.Perform
import Switcher.Lib.Interleaving
import Switcher.Lib.Text

/-!
`conf_init`, `io_init` and `io_deinit` of `io.c` over arbitrary bus and device
drivers. A hook of a bus driver may change what `bus_data` points to and the
drivers' world; the results of all hooks are dropped, as in the source.
-/

namespace Switcher

open Lib.Program Lib.Interleaving Lib.Text

structure BusState (W : Type) where
  busData : Option I2cLinuxBusData
  world : W

abbrev BusM (W α : Type) := EStateM Fault (BusState W) α

/-- `bus_drv`. -/
structure BusDrv (W : Type) where
  getBusData : Option (CString → W → Option I2cLinuxBusData × W)
  getBusDevData : Option (CString → W → Option I2cLinuxDevData × W)
  openBus : Option (BusM W Int)
  closeBus : Option (BusM W Int)

/-- A call of one of the drivers' functions, with the bus and the device. -/
inductive HookCall where
  | openBus (bus : Fin maxBusses)
  | closeBus (bus : Fin maxBusses)
  | init (slot : Slot)
  | deinit (slot : Slot)
  | io (call : DrvCall)
  deriving DecidableEq, Repr

/-- The process from `io_init` to `io_deinit`. The program never reads `trace`. -/
structure Life (ω δ β W : Type) where
  sys : Sys ω δ β W
  trace : List HookCall

abbrev LifeM (ω δ β W α : Type) := EStateM Fault (Life ω δ β W) α

variable {ω δ β W α : Type}

/-- `conf_init`. The bus drivers are not reset. -/
def confInit (config : IoConfig ω δ) : Int × IoConfig ω δ :=
  (exitSuccess,
    { numBusses := 0
      busses := fun bus => { config.busses bus with numDevices := 0, busData := none }
      devices := fun _ => ⟨none, none, none⟩ })

def IoConfig.setBus (config : IoConfig ω δ) (b : Fin maxBusses) (bus : IoBus ω) :
    IoConfig ω δ :=
  { config with busses := Function.update config.busses b bus }

def Sys.storeBus (s : Sys ω δ β W) (bus : Fin maxBusses) (t : BusState W) : Sys ω δ β W :=
  { s with
    config := s.config.setBus bus { s.config.busses bus with busData := t.busData }
    world := t.world }

/-- Run a function of a bus driver on a bus. -/
def onBus (bus : Fin maxBusses) (act : BusM W α) : SysM ω δ β W α := fun s =>
  match act ⟨(s.config.busses bus).busData, s.world⟩ with
  | .ok a t => .ok a (s.storeBus bus t)
  | .error e t => .error e (s.storeBus bus t)

def onSys (act : SysM ω δ β W α) : LifeM ω δ β W α := fun s =>
  match act s.sys with
  | .ok a t => .ok a { s with sys := t }
  | .error e t => .error e { s with sys := t }

def noteHook (call : HookCall) : LifeM ω δ β W Unit :=
  modify fun s => { s with trace := s.trace ++ [call] }

/-- `if (NULL != drv_handle && NULL != drv_handle->f) drv_handle->f(bus)`. -/
def callBusHook (busTable : ω → BusDrv W) (bus : Fin maxBusses) (call : HookCall)
    (f : BusDrv W → Option (BusM W Int)) : LifeM ω δ β W Unit := do
  let s ← get
  match (s.sys.config.busses bus).drvHandle.bind fun handle => f (busTable handle) with
  | none => pure ()
  | some hook => do
      noteHook call
      let _ ← onSys (onBus bus hook)

/-- `if (NULL != drv_handle && NULL != drv_handle->f) drv_handle->f(bus, dev)`. -/
def callDevHook (table : δ → DevDrv ω δ β W) (slot : Slot) (call : HookCall)
    (f : DevDrv ω δ β W → Option (IoBus ω → DrvM δ β W Int)) : LifeM ω δ β W Unit := do
  let s ← get
  match (s.sys.config.devices slot).drvHandle.bind fun handle => f (table handle) with
  | none => pure ()
  | some hook => do
      noteHook call
      let _ ← onSys (onDevice slot hook)

variable (busTable : ω → BusDrv W) (table : δ → DevDrv ω δ β W)

/-- The inner loop body of `io_init`. -/
def initDevice (bus : Fin maxBusses) (cntDev : Nat) : LifeM ω δ β W Unit := do
  let dev ← onSys (devIndex cntDev)
  callDevHook table (bus, dev) (.init (bus, dev)) (·.init)

/-- The outer loop body of `io_init`. -/
def initBus (cntBus : Nat) : LifeM ω δ β W Unit := do
  let bus ← onSys (busIndex cntBus)
  callBusHook busTable bus (.openBus bus) (·.openBus)
  let s ← get
  let _ ← runAll (initDevice table bus) (List.range (s.sys.config.busses bus).numDevices.toNat)

def ioInit : LifeM ω δ β W Int := do
  let s ← get
  let _ ← runAll (initBus busTable table) (List.range s.sys.config.numBusses.toNat)
  return exitSuccess

/-- The inner loop body of `io_deinit`. -/
def deinitDevice (bus : Fin maxBusses) (cntDev : Nat) : LifeM ω δ β W Unit := do
  let dev ← onSys (devIndex cntDev)
  callDevHook table (bus, dev) (.deinit (bus, dev)) (·.deinit)

/-- The outer loop body of `io_deinit`. -/
def deinitBus (cntBus : Nat) : LifeM ω δ β W Unit := do
  let bus ← onSys (busIndex cntBus)
  let s ← get
  let _ ← runAll (deinitDevice table bus) (List.range (s.sys.config.busses bus).numDevices.toNat)
  callBusHook busTable bus (.closeBus bus) (·.closeBus)

def ioDeinit : LifeM ω δ β W Int := do
  let s ← get
  let _ ← runAll (deinitBus busTable table) (List.range s.sys.config.numBusses.toNat)
  return exitSuccess

/-- `perform_io`, with its driver calls recorded behind those of the hooks. -/
def serveIo (cb : Callbacks β) (data : IoData) (cmd : IoCmd) :
    LifeM ω δ β W (Int × IoData) := fun s =>
  match performIo table cb data cmd { s.sys with calls := [] } with
  | .ok a t => .ok a ⟨t, s.trace ++ t.calls.map .io⟩
  | .error e t => .error e ⟨t, s.trace ++ t.calls.map .io⟩

section Hooks

variable {busTable : ω → BusDrv W} {table : δ → DevDrv ω δ β W} {s : Life ω δ β W}
  {slot : Slot} {bus : Fin maxBusses} {call : HookCall}

theorem callDevHook_none {f : DevDrv ω δ β W → Option (IoBus ω → DrvM δ β W Int)}
    (h : ((s.sys.config.devices slot).drvHandle.bind fun handle => f (table handle)) = none) :
    callDevHook table slot call f s = .ok () s := by
  unfold callDevHook
  rw [bind_of_ok (run_get s)]
  simp only [h]
  rfl

theorem callDevHook_ok {f : DevDrv ω δ β W → Option (IoBus ω → DrvM δ β W Int)}
    {hook : IoBus ω → DrvM δ β W Int} {rc : Int} {t : DrvState δ β W}
    (h : ((s.sys.config.devices slot).drvHandle.bind fun handle => f (table handle)) = some hook)
    (hrun : hook (s.sys.config.busses slot.1) (s.sys.drvState slot) = .ok rc t) :
    callDevHook table slot call f s = .ok () ⟨s.sys.storeDrv slot t, s.trace ++ [call]⟩ := by
  simp only [callDevHook, run_bind, run_get, h, noteHook, run_modify, onSys, onDevice, hrun]
  rfl

theorem callBusHook_none {f : BusDrv W → Option (BusM W Int)}
    (h : ((s.sys.config.busses bus).drvHandle.bind fun handle => f (busTable handle)) = none) :
    callBusHook busTable bus call f s = .ok () s := by
  unfold callBusHook
  rw [bind_of_ok (run_get s)]
  simp only [h]
  rfl

theorem callBusHook_ok {f : BusDrv W → Option (BusM W Int)} {hook : BusM W Int} {rc : Int}
    {t : BusState W}
    (h : ((s.sys.config.busses bus).drvHandle.bind fun handle => f (busTable handle)) = some hook)
    (hrun : hook ⟨(s.sys.config.busses bus).busData, s.sys.world⟩ = .ok rc t) :
    callBusHook busTable bus call f s = .ok () ⟨s.sys.storeBus bus t, s.trace ++ [call]⟩ := by
  simp only [callBusHook, run_bind, run_get, h, noteHook, run_modify, onSys, onBus, hrun]
  rfl

theorem callBusHook_error {f : BusDrv W → Option (BusM W Int)} {hook : BusM W Int} {e : Fault}
    {t : BusState W}
    (h : ((s.sys.config.busses bus).drvHandle.bind fun handle => f (busTable handle)) = some hook)
    (hrun : hook ⟨(s.sys.config.busses bus).busData, s.sys.world⟩ = .error e t) :
    callBusHook busTable bus call f s =
      .error e ⟨s.sys.storeBus bus t, s.trace ++ [call]⟩ := by
  simp only [callBusHook, run_bind, run_get, h, noteHook, run_modify, onSys, onBus, hrun]

/-- Where the call of a hook returns, the hook has. -/
theorem hook_of_callDevHook {f : DevDrv ω δ β W → Option (IoBus ω → DrvM δ β W Int)}
    {hook : IoBus ω → DrvM δ β W Int} {t : Life ω δ β W}
    (h : ((s.sys.config.devices slot).drvHandle.bind fun handle => f (table handle)) = some hook)
    (hrun : callDevHook table slot call f s = .ok () t) :
    ∃ rc u, hook (s.sys.config.busses slot.1) (s.sys.drvState slot) = .ok rc u ∧
      t = ⟨s.sys.storeDrv slot u, s.trace ++ [call]⟩ := by
  cases hhook : hook (s.sys.config.busses slot.1) (s.sys.drvState slot) with
  | ok rc u =>
      rw [callDevHook_ok h hhook] at hrun
      exact ⟨rc, u, rfl, (EStateM.Result.ok.inj hrun).2.symm⟩
  | error e u =>
      simp only [callDevHook, run_bind, run_get, h, noteHook, run_modify, onSys, onDevice,
        hhook] at hrun
      cases hrun

theorem hook_of_callBusHook {f : BusDrv W → Option (BusM W Int)} {hook : BusM W Int}
    {t : Life ω δ β W}
    (h : ((s.sys.config.busses bus).drvHandle.bind fun handle => f (busTable handle)) = some hook)
    (hrun : callBusHook busTable bus call f s = .ok () t) :
    ∃ rc u, hook ⟨(s.sys.config.busses bus).busData, s.sys.world⟩ = .ok rc u ∧
      t = ⟨s.sys.storeBus bus u, s.trace ++ [call]⟩ := by
  cases hhook : hook ⟨(s.sys.config.busses bus).busData, s.sys.world⟩ with
  | ok rc u =>
      rw [callBusHook_ok h hhook] at hrun
      exact ⟨rc, u, rfl, (EStateM.Result.ok.inj hrun).2.symm⟩
  | error e u => cases (callBusHook_error h hhook).symm.trans hrun

/-- A counter within the table is an index of it. -/
theorem busIndex_nat (i : Nat) (hi : i < maxBusses) (s : Life ω δ β W) :
    onSys (busIndex i) s = .ok ⟨i, hi⟩ s := by
  have hin : 0 ≤ (i : Int) ∧ (i : Int) < maxBusses := by omega
  simp only [onSys, busIndex, dif_pos hin, Int.toNat_natCast]
  rfl

theorem devIndex_nat (i : Nat) (hi : i < maxIoDevices) (s : Life ω δ β W) :
    onSys (devIndex i) s = .ok ⟨i, hi⟩ s := by
  have hin : 0 ≤ (i : Int) ∧ (i : Int) < maxIoDevices := by omega
  simp only [onSys, devIndex, dif_pos hin, Int.toNat_natCast]
  rfl

end Hooks

end Switcher
