import Switcher.Config.Beside
import Switcher.Hardware.PortLatch
import Switcher.Service.Lifetime
import Switcher.Service.SideBySide

/-!
The whole process over the registers of a PiFace's chip, and over a latch in its place:
nothing that comes back from either can tell them apart.
-/

namespace Switcher

open Lib.Program Lib.Interleaving Lib.Text

variable {β κ σ σ' α : Type}

structure SysAlike {W W' : Type} (R : W → W' → Prop) (s : Sys BusHandle DevHandle β W)
    (t : Sys BusHandle DevHandle β W') : Prop where
  config : t.config = s.config
  buf : t.buf = s.buf
  world : R s.world t.world
  calls : t.calls = s.calls

section Lifted

variable {W W' : Type} {R : W → W' → Prop}

theorem sysAlike_kept : KeptBySys (SysAlike (β := β) R) where
  config _ _ h := h.config
  buf _ _ h := h.buf
  reply _ _ _ h := ⟨h.config, rfl, h.world, h.calls⟩
  note _ _ call h := ⟨h.config, h.buf, h.world, congrArg (· ++ [call]) h.calls⟩

theorem onDevice_alike (slot : Slot) (handle : DevHandle)
    {f : IoBus BusHandle → DrvM DevHandle β W α} {g : IoBus BusHandle → DrvM DevHandle β W' α}
    (h : ∀ bus, Parallel (DrvAlike R) (f bus) (g bus)) :
    Mirrors (WithDriver (SysAlike R) slot handle) (onDevice slot f) (onDevice slot g)
      (SysAlike R) (SysAlike R) := by
  rintro s t ⟨hst, -⟩
  have hdrv : DrvAlike R (s.drvState slot) (t.drvState slot) :=
    ⟨congrArg (IoConfig.devices · slot) hst.config, hst.buf, hst.world⟩
  have hstored {u : DrvState DevHandle β W} {v : DrvState DevHandle β W'} (huv : DrvAlike R u v) :
      SysAlike R (s.storeDrv slot u) (t.storeDrv slot v) := by
    refine ⟨?_, huv.buf, huv.world, hst.calls⟩
    simp only [Sys.storeDrv, hst.config, huv.dev]
  have houtcome := h (s.config.busses slot.1) _ _ hdrv
  unfold onDevice
  rw [hst.config]
  generalize f (s.config.busses slot.1) (s.drvState slot) = x,
    g (s.config.busses slot.1) (t.drvState slot) = y at houtcome ⊢
  cases houtcome with
  | ok huv => exact .ok (hstored huv)
  | error huv => exact .error (hstored huv)

theorem onBus_alike (bus : Fin maxBusses) {f : BusM W α} {g : BusM W' α}
    (h : Parallel (BusAlike R) f g) : Parallel (SysAlike R)
      (onBus bus f : SysM BusHandle DevHandle β W α) (onBus bus g) := by
  intro s t hst
  have hbus : BusAlike R ⟨(s.config.busses bus).busData, s.world⟩
      ⟨(t.config.busses bus).busData, t.world⟩ := by
    refine ⟨?_, hst.world⟩
    rw [hst.config]
  have hstored {u : BusState W} {v : BusState W'} (huv : BusAlike R u v) :
      SysAlike R (s.storeBus bus u) (t.storeBus bus v) := by
    refine ⟨?_, hst.buf, huv.world, hst.calls⟩
    simp only [Sys.storeBus, hst.config, huv.busData]
  have houtcome := h _ _ hbus
  unfold onBus
  generalize f _ = x, g _ = y at houtcome ⊢
  cases houtcome with
  | ok huv => exact .ok (hstored huv)
  | error huv => exact .error (hstored huv)

end Lifted

section Tables

variable {K : Kernel κ}

/-- Both PiFace drivers do the same. -/
theorem devDrv_keptByIo (slot : Slot) :
    KeptByIo (SysAlike (β := β) (Beside ShowsLatch)) (devDrv (K.withSpi PortChip.spi))
      (devDrv (K.withSpi Latch.spi)) slot where
  read handle cbError value := by
    apply onDevice_alike
    intro bus
    cases handle with
    | pcf8574 => exact (pcf8574_parallel cbError bus value).1
    | mcp23017 => exact (mcp23017_parallel cbError bus value).1
    | piface => exact pfioReadOutput_alike.bind fun _ => Parallel.pure _
  write handle cbError value := by
    apply onDevice_alike
    intro bus
    cases handle with
    | pcf8574 => exact (pcf8574_parallel cbError bus value).2
    | mcp23017 => exact (mcp23017_parallel cbError bus value).2
    | piface => exact (pfioWriteOutput_alike _).bind fun _ => Parallel.pure _

theorem hooks_kept (hK : K.Queryable) :
    KeptByHooks (SysAlike (β := β) (Beside ShowsLatch)) (busDrv (K.withSpi PortChip.spi))
      (busDrv (K.withSpi Latch.spi)) (devDrv (K.withSpi PortChip.spi))
      (devDrv (K.withSpi Latch.spi)) where
  openBus bus handle := by
    cases handle
    exact .some (onBus_alike bus i2cLinuxOpen_parallel)
  closeBus bus handle := by
    cases handle
    exact .some (onBus_alike bus i2cLinuxClose_parallel)
  init slot handle := by
    cases handle with
    | pcf8574 => exact .none
    | mcp23017 => exact .some (onDevice_alike slot .mcp23017 mcp23017Init_parallel)
    | piface =>
        apply Option.Rel.some
        apply onDevice_alike
        intro bus
        apply (pfioInit_alike hK).bind
        intro rc
        exact Mirrors.ite (Parallel.pure _) (Parallel.pure _)
  deinit slot handle := by
    cases handle with
    | pcf8574 => exact .none
    | mcp23017 => exact .some (onDevice_alike slot .mcp23017 mcp23017Deinit_parallel)
    | piface =>
        apply Option.Rel.some
        apply onDevice_alike
        intro bus
        apply pfioDeinit_alike.bind
        intro rc
        exact Mirrors.ite (Parallel.pure _) (Parallel.pure _)

/-- From `io_init` to `io_deinit`. -/
theorem serveUntilSignal_alike (hK : K.Queryable) (events : List (MgConnection × MgEvent)) :
    Parallel (LifeAlike (SysAlike (Beside ShowsLatch)))
      (serveUntilSignal (K.withSpi PortChip.spi) events)
      (serveUntilSignal (K.withSpi Latch.spi) events) := by
  apply Parallel.bind (ioInit_parallel sysAlike_kept (hooks_kept hK))
  intro rc
  apply Mirrors.ite (Parallel.pure _)
  apply Parallel.bind (onSys_parallel (pollServer_parallel sysAlike_kept devDrv_keptByIo events))
  intro answers
  apply Parallel.bind (ioDeinit_parallel sysAlike_kept (hooks_kept hK))
  intro _
  exact Parallel.pure _

end Tables

/-- The daemon when it has been through `io_init` and these events. -/
def serveEvents (K : Kernel κ) (events : List (MgConnection × MgEvent)) :
    LifeM BusHandle DevHandle (List Char) (Env κ) (List Answer) := do
  let _ ← ioInit (busDrv K) (devDrv K)
  onSys (pollServer (devDrv K) events)

/-- The process before `io_init`, with `device` behind its spidev. -/
def beforeInit (config : IoConfig BusHandle DevHandle) (buf : List Char) (os : κ) (device : σ) :
    Life BusHandle DevHandle (List Char) (Env (κ × σ)) :=
  ⟨⟨config, buf, ⟨.null, (os, device)⟩, []⟩, []⟩

/-- The outputs of the chip are what the latch holds, once the spidev has been opened. -/
def OutputsShow (u : Life BusHandle DevHandle (List Char) (Env (κ × PortChip)))
    (v : Life BusHandle DevHandle (List Char) (Env (κ × Latch))) : Prop :=
  ∀ fd, u.sys.world.spi = .live fd → 0 ≤ fd → u.sys.world.os.2.on = v.sys.world.os.2.value

section Main

variable {K : Kernel κ} {chip : PortChip}

theorem showsLatch_null (hchip : chip.Tame) (latch : Latch) : ShowsLatch .null chip latch :=
  ⟨hchip, fun _ h => nomatch h⟩

theorem serveEvents_alike (hK : K.Queryable) (events : List (MgConnection × MgEvent)) :
    Parallel (LifeAlike (SysAlike (Beside ShowsLatch)))
      (serveEvents (K.withSpi PortChip.spi) events) (serveEvents (K.withSpi Latch.spi) events) := by
  apply Parallel.bind (ioInit_parallel sysAlike_kept (hooks_kept hK))
  intro _
  exact onSys_parallel (pollServer_parallel sysAlike_kept devDrv_keptByIo events)

theorem iniParseConfig_alike {S : SpiHandle → PortChip → Latch → Prop}
    (file : Option (List Char)) :
    Parallel (ParserAlike S) (Ini.parseConfig (K.withSpi PortChip.spi) file)
      (Ini.parseConfig (K.withSpi Latch.spi) file) := by
  cases file with
  | none => exact Parallel.pure _
  | some file =>
      have htext : Ini.Denotes .start (Ini.textLines file) _ _ :=
        Ini.denotes_readAll .start fun _ => Ini.nul_notMem_textLines
      rw [Ini.parseConfig_told _ htext, Ini.parseConfig_told _ htext]
      exact parseConfig_alike _

/-- From the text of any file on, `main` does the same over both, faults among it. -/
theorem runMain_alike (hK : K.Queryable) (hchip : chip.Tame) (latch : Latch)
    (file : Option (List Char)) (events : List (MgConnection × MgEvent)) (buf : List Char)
    (os : κ) : runMain (K.withSpi PortChip.spi) file events buf (os, chip) =
      runMain (K.withSpi Latch.spi) file events buf (os, latch) := by
  have hstart : ParserAlike ShowsLatch (userData (confInit zeroConfig).2 ⟨.null, (os, chip)⟩)
      (userData (confInit zeroConfig).2 ⟨.null, (os, latch)⟩) :=
    ⟨rfl, rfl, rfl, rfl, rfl, rfl, showsLatch_null hchip latch⟩
  have hparse := iniParseConfig_alike (K := K) file _ _ hstart
  have hinit : (confInit zeroConfig : Int × IoConfig BusHandle DevHandle).1 ≠ exitFailure := by
    decide
  unfold runMain
  simp only [if_neg hinit]
  generalize Ini.parseConfig (K.withSpi PortChip.spi) file
      (userData (confInit zeroConfig).2 ⟨.null, (os, chip)⟩) = x,
    Ini.parseConfig (K.withSpi Latch.spi) file
      (userData (confInit zeroConfig).2 ⟨.null, (os, latch)⟩) = y at hparse ⊢
  cases hparse with
  | error h => rfl
  | @ok rc s t h =>
      have hserve := serveUntilSignal_alike hK events ⟨⟨s.config, buf, s.world, []⟩, []⟩
        ⟨⟨t.config, buf, t.world, []⟩, []⟩ ⟨⟨h.config, rfl, h.world, rfl⟩, rfl⟩
      simp only [h.config] at hserve ⊢
      generalize serveUntilSignal (K.withSpi PortChip.spi) events _ = x,
        serveUntilSignal (K.withSpi Latch.spi) events _ = y at hserve ⊢
      cases hserve with
      | error h => rfl
      | @ok answers u v h =>
          cases answers with
          | none => rfl
          | some answers => simp only [h.sys.config, h.sys.world.spi]

end Main

/-- Once it is set up, the chip of a PiFace is a latch. Whatever the file says, whichever
requests come and whatever the other devices answer, `main` does the same over the
registers of the chip as over a latch in its place; and as long as the spidev is open the
outputs of the chip are what the latch holds. -/
theorem chip_refines_latch {K : Kernel κ} (hK : K.Queryable) {chip : PortChip} (hchip : chip.Tame)
    (latch : Latch) (events : List (MgConnection × MgEvent)) (buf : List Char) (os : κ) :
    (∀ file, runMain (K.withSpi PortChip.spi) file events buf (os, chip) =
      runMain (K.withSpi Latch.spi) file events buf (os, latch)) ∧
    ∀ config, SameOutcome OutputsShow OutputsShow
      (serveEvents (K.withSpi PortChip.spi) events (beforeInit config buf os chip))
      (serveEvents (K.withSpi Latch.spi) events (beforeInit config buf os latch)) := by
  refine ⟨fun file => runMain_alike hK hchip latch file events buf os, fun config => ?_⟩
  have hshow {u : Life BusHandle DevHandle (List Char) (Env (κ × PortChip))}
      {v : Life BusHandle DevHandle (List Char) (Env (κ × Latch))}
      (h : LifeAlike (SysAlike (Beside ShowsLatch)) u v) : OutputsShow u v := by
    intro fd hlive hfd
    obtain ⟨hsetUp, hlatch⟩ := h.sys.world.chips.2 fd hlive hfd
    rw [hsetUp.on, hlatch]
  have hstart : LifeAlike (SysAlike (Beside ShowsLatch)) (beforeInit config buf os chip)
      (beforeInit config buf os latch) :=
    ⟨⟨rfl, rfl, ⟨rfl, rfl, showsLatch_null hchip latch⟩, rfl⟩, rfl⟩
  have houtcome := serveEvents_alike hK events _ _ hstart
  generalize serveEvents (K.withSpi PortChip.spi) events (beforeInit config buf os chip) = x,
    serveEvents (K.withSpi Latch.spi) events (beforeInit config buf os latch) = y at houtcome ⊢
  cases houtcome with
  | ok h => exact .ok (hshow h)
  | error h => exact .error (hshow h)

theorem chip_refines_latch_ioExt :
    runMain (calmKernel.withSpi PortChip.spi) (some Ini.ioExtIni) pifaceEvents []
        ((), PortChip.powerOn) =
      runMain (calmKernel.withSpi Latch.spi) (some Ini.ioExtIni) pifaceEvents []
        ((), ⟨0, fun _ => false⟩) :=
  have hqueryable : calmKernel.Queryable := fun _ _ _ _ => le_rfl
  (chip_refines_latch hqueryable PortChip.powerOn_tame ⟨0, fun _ => false⟩ pifaceEvents [] ()).1
    (some Ini.ioExtIni)

end Switcher
