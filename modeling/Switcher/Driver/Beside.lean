import Switcher.Driver.I2cLinuxBus
import Switcher.Lib.Outcome

/-!
A kernel with something behind its spidev that nothing else reaches, and the I2C drivers
over two such kernels, which differ in that alone: these drivers do the same.
-/

namespace Switcher

open Lib.Program

variable {ω δ β κ σ σ' α : Type}

/-- A service of a kernel that has nothing to do with what is beside it. -/
def besides (f : κ → α × κ) (os : κ × σ) : α × (κ × σ) := ((f os.1).1, ((f os.1).2, os.2))

/-- A kernel of which the spidev handles that are open reach what `answer` describes. -/
def Kernel.withSpi (K : Kernel κ) (answer : List (BitVec 8) → σ → (Int × BitVec 8) × σ) :
    Kernel (κ × σ) where
  i2cSlave fh address := besides (K.i2cSlave fh address)
  i2cSmbus fh args := besides (K.i2cSmbus fh args)
  spiMessage fd tx os :=
    if fd < 0 then besides (K.spiMessage fd tx) os
    else ((answer tx os.2).1, (os.1, (answer tx os.2).2))
  spiQuery fd query := besides (K.spiQuery fd query)
  openFile path := besides (K.openFile path)
  closeFile fd := besides (K.closeFile fd)
  strerror os := K.strerror os.1
  malloc := besides K.malloc

/-- The worlds agree but for what is behind the spidev, and that is related as the state of
the handle asks for. -/
structure Beside (S : SpiHandle → σ → σ' → Prop) (w : Env (κ × σ)) (w' : Env (κ × σ')) : Prop where
  spi : w'.spi = w.spi
  os : w'.os.1 = w.os.1
  chips : S w.spi w.os.2 w'.os.2

structure DrvAlike {W W' : Type} (R : W → W' → Prop) (s : DrvState δ β W) (t : DrvState δ β W') :
    Prop where
  dev : t.dev = s.dev
  buf : t.buf = s.buf
  world : R s.world t.world

structure BusAlike {W W' : Type} (R : W → W' → Prop) (s : BusState W) (t : BusState W') : Prop where
  busData : t.busData = s.busData
  world : R s.world t.world

variable {K : Kernel κ} {S : SpiHandle → σ → σ' → Prop}
  {a : List (BitVec 8) → σ → (Int × BitVec 8) × σ}
  {a' : List (BitVec 8) → σ' → (Int × BitVec 8) × σ'}

section Services

theorem syscall_parallel (f : κ → α × κ) :
    Parallel (DrvAlike (Beside S)) (syscall (besides f) : DrvM δ β (Env (κ × σ)) α)
      (syscall (besides f)) := by
  intro s t hst
  rw [syscall_run, syscall_run]
  simp only [besides, hst.world.os]
  refine .ok ⟨hst.dev, hst.buf, ?_⟩
  exact ⟨hst.world.spi, rfl, hst.world.chips⟩

theorem deref_parallel (p : Option α) :
    Parallel (DrvAlike (Beside S)) (deref p : DrvM δ β (Env (κ × σ)) α) (deref p) := by
  cases p with
  | none => exact Parallel.throw _
  | some a => exact Parallel.pure a

theorem drvError_parallel (cbError : CbError β) (msg : List Char) :
    Parallel (DrvAlike (Beside S)) (drvError cbError msg : DrvM δ β (Env (κ × σ)) Unit)
      (drvError cbError msg) := by
  apply Mirrors.modified
  intro s t hst
  exact ⟨hst.dev, congrArg (cbError msg) hst.buf, hst.world⟩

end Services

section I2c

variable (cbError : CbError β) (bus : IoBus ω)

theorem i2cLinuxSetAddr_parallel :
    Parallel (DrvAlike (Beside S))
      (i2cLinuxSetAddr (K.withSpi a) cbError bus : DrvM δ β (Env (κ × σ)) Int)
      (i2cLinuxSetAddr (K.withSpi a') cbError bus) := by
  apply Parallel.bind (deref_parallel _)
  intro busData
  apply Mirrors.read_bind
  intro s t hst
  rw [hst.dev]
  apply Parallel.bind (deref_parallel _)
  intro devBusData
  apply Parallel.bind (syscall_parallel (K.i2cSlave busData.fh devBusData.address))
  intro rc
  apply Mirrors.ite
  · apply Mirrors.read_bind
    intro s t hst
    have htext : i2cErrorText (K.withSpi a') t.world.os =
        i2cErrorText (K.withSpi a) s.world.os := by
      simp only [i2cErrorText, Kernel.withSpi, hst.world.os]
    rw [htext]
    exact (drvError_parallel cbError _).bind fun _ => Parallel.pure _
  · exact Parallel.pure _

theorem i2cLinuxTransmit_parallel (args : Smbus) :
    Parallel (DrvAlike (Beside S))
      (i2cLinuxTransmit (K.withSpi a) cbError bus args : DrvM δ β (Env (κ × σ)) Int)
      (i2cLinuxTransmit (K.withSpi a') cbError bus args) := by
  apply Parallel.bind (i2cLinuxSetAddr_parallel cbError bus)
  intro _
  apply Parallel.bind (deref_parallel _)
  intro busData
  apply Parallel.bind (syscall_parallel (K.i2cSmbus busData.fh args))
  rintro ⟨rc, byte⟩
  exact Parallel.pure _

theorem i2cLinuxReceive_parallel (args : Smbus) (value : BitVec 8) :
    Parallel (DrvAlike (Beside S))
      (i2cLinuxReceive (K.withSpi a) cbError bus args value : DrvM δ β (Env (κ × σ)) _)
      (i2cLinuxReceive (K.withSpi a') cbError bus args value) := by
  apply Parallel.bind (i2cLinuxSetAddr_parallel cbError bus)
  intro _
  apply Parallel.bind (deref_parallel _)
  intro busData
  have hread : Parallel (DrvAlike (Beside S))
      (i2cSmbusRead (K.withSpi a) busData.fh args : DrvM δ β (Env (κ × σ)) Int)
      (i2cSmbusRead (K.withSpi a') busData.fh args) := by
    apply Parallel.bind (syscall_parallel (K.i2cSmbus busData.fh args))
    rintro ⟨rc, byte⟩
    exact Mirrors.ite (Parallel.pure _) (Parallel.pure _)
  apply hread.bind
  intro readData
  exact Mirrors.ite (Parallel.pure _) (Parallel.pure _)

theorem pcf8574_parallel (value : Value) :
    Parallel (DrvAlike (Beside S))
        (pcf8574Read (K.withSpi a) cbError bus value : DrvM δ β (Env (κ × σ)) _)
        (pcf8574Read (K.withSpi a') cbError bus value) ∧
      Parallel (DrvAlike (Beside S))
        (pcf8574Write (K.withSpi a) cbError bus value : DrvM δ β (Env (κ × σ)) _)
        (pcf8574Write (K.withSpi a') cbError bus value) := by
  constructor
  · apply Parallel.bind (i2cLinuxReceive_parallel cbError bus _ _)
    rintro ⟨result, states⟩
    exact Parallel.pure _
  · exact (i2cLinuxTransmit_parallel cbError bus _).bind fun _ => Parallel.pure _

theorem mcp23017IoState_parallel :
    Parallel (DrvAlike (Beside S)) (mcp23017IoState : DrvM δ β (Env (κ × σ)) _)
      mcp23017IoState := by
  apply Mirrors.read_bind
  intro s t hst
  rw [hst.dev]
  exact (deref_parallel _).bind fun _ => Parallel.pure _

theorem mcp23017SetIoState_parallel (state : Mcp23017IoState) :
    Parallel (DrvAlike (Beside S)) (mcp23017SetIoState state : DrvM δ β (Env (κ × σ)) _)
      (mcp23017SetIoState state) := by
  apply Mirrors.read_bind
  intro s t hst
  rw [hst.dev]
  apply Parallel.bind (deref_parallel _)
  intro _
  apply Mirrors.modified
  intro s t hst
  exact ⟨by rw [hst.dev], hst.buf, hst.world⟩

theorem mcp23017EnsureIo_parallel (desiredState : Mcp23017IoState) :
    Parallel (DrvAlike (Beside S))
      (mcp23017EnsureIo (K.withSpi a) cbError bus desiredState : DrvM δ β (Env (κ × σ)) _)
      (mcp23017EnsureIo (K.withSpi a') cbError bus desiredState) := by
  have hconfigure : Parallel (DrvAlike (Beside S))
      (mcp23017ConfigureIo (K.withSpi a) cbError bus desiredState : DrvM δ β (Env (κ × σ)) _)
      (mcp23017ConfigureIo (K.withSpi a') cbError bus desiredState) := by
    apply Parallel.bind (mcp23017SetIoState_parallel .none)
    intro _
    apply Mirrors.ite (Parallel.pure _)
    apply Parallel.bind (i2cLinuxTransmit_parallel cbError bus _)
    intro resultA
    apply Mirrors.ite _ (Parallel.pure _)
    apply Parallel.bind (i2cLinuxTransmit_parallel cbError bus _)
    intro resultB
    exact Mirrors.ite (mcp23017SetIoState_parallel desiredState) (Parallel.pure _)
  apply Parallel.bind mcp23017IoState_parallel
  intro state
  apply Mirrors.ite _ mcp23017IoState_parallel
  exact hconfigure.bind fun _ => mcp23017IoState_parallel

theorem mcp23017_parallel (value : Value) :
    Parallel (DrvAlike (Beside S))
        (mcp23017Read (K.withSpi a) cbError bus value : DrvM δ β (Env (κ × σ)) _)
        (mcp23017Read (K.withSpi a') cbError bus value) ∧
      Parallel (DrvAlike (Beside S))
        (mcp23017Write (K.withSpi a) cbError bus value : DrvM δ β (Env (κ × σ)) _)
        (mcp23017Write (K.withSpi a') cbError bus value) := by
  constructor
  · apply Parallel.bind (mcp23017EnsureIo_parallel cbError bus .read)
    intro state
    apply Mirrors.ite
    · apply Parallel.bind (i2cLinuxReceive_parallel cbError bus _ _)
      rintro ⟨resultA, statesA⟩
      apply Mirrors.ite _ (Parallel.pure _)
      apply Parallel.bind (i2cLinuxReceive_parallel cbError bus _ _)
      rintro ⟨resultB, statesB⟩
      exact Mirrors.ite (Parallel.pure _) (Parallel.pure _)
    · exact (drvError_parallel cbError _).bind fun _ => Parallel.pure _
  · apply Parallel.bind (mcp23017EnsureIo_parallel cbError bus .write)
    intro state
    apply Mirrors.ite
    · apply Parallel.bind (i2cLinuxTransmit_parallel cbError bus _)
      intro resultA
      apply Mirrors.ite _ (Parallel.pure _)
      apply Parallel.bind (i2cLinuxTransmit_parallel cbError bus _)
      intro resultB
      exact Mirrors.ite (Parallel.pure _) (Parallel.pure _)
    · exact (drvError_parallel cbError _).bind fun _ => Parallel.pure _

theorem devData_parallel (devData : Option Mcp23017Data) :
    Parallel (DrvAlike (Beside S))
      (modify fun s => { s with dev := { s.dev with devData := devData } } :
        DrvM δ β (Env (κ × σ)) PUnit)
      (modify fun s => { s with dev := { s.dev with devData := devData } }) := by
  apply Mirrors.modified
  intro s t hst
  exact ⟨by rw [hst.dev], hst.buf, hst.world⟩

theorem mcp23017Init_parallel :
    Parallel (DrvAlike (Beside S)) (mcp23017Init (K.withSpi a) bus : DrvM δ β (Env (κ × σ)) _)
      (mcp23017Init (K.withSpi a') bus) := by
  apply Parallel.bind (syscall_parallel K.malloc)
  intro granted
  apply Mirrors.ite
  · exact (devData_parallel _).bind fun _ => Parallel.pure _
  · exact (devData_parallel _).bind fun _ => Parallel.pure _

theorem mcp23017Deinit_parallel :
    Parallel (DrvAlike (Beside S)) (mcp23017Deinit bus : DrvM δ β (Env (κ × σ)) _)
      (mcp23017Deinit bus) :=
  (devData_parallel _).bind fun _ => Parallel.pure _

end I2c

section Bus

theorem busPtr_parallel :
    Parallel (BusAlike (Beside S)) (busPtr : BusM (Env (κ × σ)) _) busPtr := by
  apply Mirrors.read_bind
  intro s t hst
  rw [hst.busData]
  cases s.busData with
  | none => exact Parallel.throw _
  | some data => exact Parallel.pure data

theorem busCall_parallel (f : κ → α × κ) :
    Parallel (BusAlike (Beside S)) (busCall (besides f) : BusM (Env (κ × σ)) α)
      (busCall (besides f)) := by
  intro s t hst
  have hrun {τ : Type} (u : BusState (Env (κ × τ))) : busCall (besides f) u =
      .ok (f u.world.os.1).1
        { u with world := ⟨u.world.spi, ((f u.world.os.1).2, u.world.os.2)⟩ } := rfl
  rw [hrun, hrun, hst.world.os]
  refine .ok ⟨hst.busData, ?_⟩
  exact ⟨hst.world.spi, rfl, hst.world.chips⟩

theorem i2cLinuxOpen_parallel :
    Parallel (BusAlike (Beside S)) (i2cLinuxOpen (K.withSpi a)) (i2cLinuxOpen (K.withSpi a')) := by
  apply Parallel.bind busPtr_parallel
  intro data
  apply Mirrors.ite (Parallel.throw _)
  apply Parallel.bind (busCall_parallel (K.openFile data.device))
  intro fh
  apply Parallel.bind
  · apply Mirrors.modified
    intro s t hst
    exact ⟨rfl, hst.world⟩
  · intro _
    exact Parallel.pure _

theorem i2cLinuxClose_parallel :
    Parallel (BusAlike (Beside S)) (i2cLinuxClose (K.withSpi a))
      (i2cLinuxClose (K.withSpi a')) := by
  apply Parallel.bind busPtr_parallel
  intro data
  exact (busCall_parallel (K.closeFile data.fh)).bind fun _ => Parallel.pure _

end Bus

end Switcher
