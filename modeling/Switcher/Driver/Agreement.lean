import Switcher.Driver.Table

/-!
A driver function sees the operating system only through transfers on its own
device. Two systems that answer those alike are indistinguishable to it: run on
either, it returns the same value and leaves the same device and reply buffer.
-/

namespace Switcher

open Lib.Program

variable {ω δ β κ₁ κ₂ : Type}

/-- Selecting `address` on `fh` and then issuing a transfer gives the same
answer on both systems and leaves them related. -/
def AgreeI2c (K₁ : Kernel κ₁) (K₂ : Kernel κ₂) (fh : Int) (address : BitVec 8)
    (S : κ₁ → κ₂ → Prop) : Prop :=
  ∀ args a b, S a b →
    let p := K₁.i2cSlave fh address a
    let q := K₂.i2cSlave fh address b
    (p.1 < 0 ↔ q.1 < 0) ∧ (p.1 < 0 → K₁.strerror p.2 = K₂.strerror q.2) ∧
    (K₁.i2cSmbus fh args p.2).1 = (K₂.i2cSmbus fh args q.2).1 ∧
    S (K₁.i2cSmbus fh args p.2).2 (K₂.i2cSmbus fh args q.2).2

def AgreeSpi (K₁ : Kernel κ₁) (K₂ : Kernel κ₂) (S : κ₁ → κ₂ → Prop) : Prop :=
  ∀ fd tx a b, S a b →
    (K₁.spiMessage fd tx a).1 = (K₂.spiMessage fd tx b).1 ∧
    S (K₁.spiMessage fd tx a).2 (K₂.spiMessage fd tx b).2

/-- The states of one driver call on the two systems, when it started with the
device `dev₀` and the SPI handle `spi₀`. -/
structure Alike (dev₀ : IoDev δ) (spi₀ : SpiHandle) (S : κ₁ → κ₂ → Prop)
    (s : DrvState δ β (Env κ₁)) (t : DrvState δ β (Env κ₂)) : Prop where
  dev : s.dev = t.dev
  buf : s.buf = t.buf
  spiLeft : s.world.spi = spi₀
  spiRight : t.world.spi = spi₀
  os : S s.world.os t.world.os
  wiring : dev₀.SameWiring s.dev

variable {K₁ : Kernel κ₁} {K₂ : Kernel κ₂} {S : κ₁ → κ₂ → Prop}
  {dev₀ : IoDev δ} {spi₀ : SpiHandle} {bus : IoBus ω} {busData : I2cLinuxBusData}
  {devBusData : I2cLinuxDevData} {cbError : CbError β}

theorem drvError_matches (msg : List Char) :
    Matches (Alike dev₀ spi₀ S) (drvError cbError msg) (drvError cbError msg) := by
  apply Matches.modified
  intro s t hst
  exact ⟨hst.dev, congrArg (cbError msg) hst.buf, hst.spiLeft, hst.spiRight, hst.os,
    hst.wiring⟩

section I2c

theorem exchange_alike {s : DrvState δ β (Env κ₁)} {t : DrvState δ β (Env κ₂)}
    (hagree : AgreeI2c K₁ K₂ busData.fh devBusData.address S)
    (hst : Alike dev₀ spi₀ S s t) (cbError : CbError β) (args : Smbus) :
    (exchange K₁ cbError busData.fh devBusData.address args s).1 =
        (exchange K₂ cbError busData.fh devBusData.address args t).1 ∧
      Alike dev₀ spi₀ S (exchange K₁ cbError busData.fh devBusData.address args s).2
        (exchange K₂ cbError busData.fh devBusData.address args t).2 := by
  obtain ⟨hsel, hmsg, hanswer, hos⟩ := hagree args _ _ hst.os
  have hbuf : (afterSetAddr K₁ cbError busData.fh devBusData.address s).buf =
      (afterSetAddr K₂ cbError busData.fh devBusData.address t).buf := by
    simp only [afterSetAddr]
    by_cases hrc : (K₁.i2cSlave busData.fh devBusData.address s.world.os).1 < 0
    · have htext := hmsg hrc
      rw [if_pos hrc, if_pos (hsel.mp hrc)]
      simp only [i2cErrorText, htext, DrvState.buf_setOs, hst.buf]
    · rw [if_neg hrc, if_neg (fun h => hrc (hsel.mpr h))]
      exact hst.buf
  refine ⟨by simpa [exchange] using hanswer, ?_⟩
  exact
    { dev := by simpa using hst.dev
      buf := by simpa [exchange] using hbuf
      spiLeft := by simpa [exchange] using hst.spiLeft
      spiRight := by simpa [exchange] using hst.spiRight
      os := by simpa [exchange] using hos
      wiring := by simpa using hst.wiring }

variable (hbus : bus.busData = some busData) (hdev : dev₀.devBusData = some devBusData)
  (hagree : AgreeI2c K₁ K₂ busData.fh devBusData.address S)
include hbus hdev hagree

theorem i2cLinuxTransmit_matches (args : Smbus) :
    Matches (Alike dev₀ spi₀ S) (i2cLinuxTransmit K₁ cbError bus args)
      (i2cLinuxTransmit K₂ cbError bus args) := by
  intro s t hst
  have hs : s.dev.devBusData = some devBusData := hst.wiring.devBusData.trans hdev
  obtain ⟨hanswer, hnext⟩ := exchange_alike hagree hst cbError args
  refine ⟨_, _, _, i2cLinuxTransmit_run K₁ cbError args hbus hs, ?_, hnext⟩
  rw [i2cLinuxTransmit_run K₂ cbError args hbus (hst.dev ▸ hs), hanswer]

theorem i2cLinuxReceive_matches (args : Smbus) (value : BitVec 8) :
    Matches (Alike dev₀ spi₀ S) (i2cLinuxReceive K₁ cbError bus args value)
      (i2cLinuxReceive K₂ cbError bus args value) := by
  intro s t hst
  have hs : s.dev.devBusData = some devBusData := hst.wiring.devBusData.trans hdev
  obtain ⟨hanswer, hnext⟩ := exchange_alike hagree hst cbError args
  refine ⟨_, _, _, i2cLinuxReceive_run K₁ cbError args value hbus hs, ?_, hnext⟩
  rw [i2cLinuxReceive_run K₂ cbError args value hbus (hst.dev ▸ hs), hanswer]

theorem pcf8574Write_matches (value : Value) :
    Matches (Alike dev₀ spi₀ S) (pcf8574Write K₁ cbError bus value)
      (pcf8574Write K₂ cbError bus value) := by
  apply Matches.bind (i2cLinuxTransmit_matches hbus hdev hagree _)
  intro result
  exact Matches.pure _

theorem pcf8574Read_matches (value : Value) :
    Matches (Alike dev₀ spi₀ S) (pcf8574Read K₁ cbError bus value)
      (pcf8574Read K₂ cbError bus value) := by
  apply Matches.bind (i2cLinuxReceive_matches hbus hdev hagree _ _)
  rintro ⟨result, states⟩
  exact Matches.pure _

end I2c

section Mcp23017

variable (hdata : dev₀.devData.isSome)
include hdata

theorem mcp23017IoState_matches :
    Matches (Alike dev₀ spi₀ S) (mcp23017IoState : DrvM δ β (Env κ₁) _) mcp23017IoState := by
  intro s t hst
  obtain ⟨data, hs⟩ := Option.isSome_iff_exists.mp (hst.wiring.devData.trans hdata)
  have ht : t.dev.devData = some data := hst.dev ▸ hs
  exact ⟨data.ioState, s, t, mcp23017IoState_run hs, mcp23017IoState_run ht, hst⟩

theorem mcp23017SetIoState_matches (state : Mcp23017IoState) :
    Matches (Alike dev₀ spi₀ S) (mcp23017SetIoState state : DrvM δ β (Env κ₁) _)
      (mcp23017SetIoState state) := by
  intro s t hst
  obtain ⟨data, hs⟩ := Option.isSome_iff_exists.mp (hst.wiring.devData.trans hdata)
  have ht : t.dev.devData = some data := hst.dev ▸ hs
  refine ⟨⟨⟩, s.setIoState state, t.setIoState state, mcp23017SetIoState_run hs state,
    mcp23017SetIoState_run ht state, ?_⟩
  exact
    { dev := by simp only [DrvState.setIoState, hst.dev]
      buf := hst.buf
      spiLeft := hst.spiLeft
      spiRight := hst.spiRight
      os := hst.os
      wiring := ⟨hst.wiring.drvHandle, hst.wiring.devBusData, by simp [hdata]⟩ }

variable (hbus : bus.busData = some busData) (hdev : dev₀.devBusData = some devBusData)
  (hagree : AgreeI2c K₁ K₂ busData.fh devBusData.address S)
include hbus hdev hagree

theorem mcp23017ConfigureIo_matches (desiredState : Mcp23017IoState) :
    Matches (Alike dev₀ spi₀ S) (mcp23017ConfigureIo K₁ cbError bus desiredState)
      (mcp23017ConfigureIo K₂ cbError bus desiredState) := by
  apply Matches.bind (mcp23017SetIoState_matches hdata .none)
  intro _
  apply Matches.ite (Matches.pure _)
  apply Matches.bind (i2cLinuxTransmit_matches hbus hdev hagree _)
  intro resultA
  apply Matches.ite _ (Matches.pure _)
  apply Matches.bind (i2cLinuxTransmit_matches hbus hdev hagree _)
  intro resultB
  exact Matches.ite (mcp23017SetIoState_matches hdata desiredState) (Matches.pure _)

theorem mcp23017EnsureIo_matches (desiredState : Mcp23017IoState) :
    Matches (Alike dev₀ spi₀ S) (mcp23017EnsureIo K₁ cbError bus desiredState)
      (mcp23017EnsureIo K₂ cbError bus desiredState) := by
  apply Matches.bind (mcp23017IoState_matches hdata)
  intro state
  apply Matches.ite _ (mcp23017IoState_matches hdata)
  apply Matches.bind (mcp23017ConfigureIo_matches hdata hbus hdev hagree desiredState)
  intro _
  exact mcp23017IoState_matches hdata

theorem mcp23017Write_matches (value : Value) :
    Matches (Alike dev₀ spi₀ S) (mcp23017Write K₁ cbError bus value)
      (mcp23017Write K₂ cbError bus value) := by
  apply Matches.bind (mcp23017EnsureIo_matches hdata hbus hdev hagree .write)
  intro state
  apply Matches.ite
  · apply Matches.bind (i2cLinuxTransmit_matches hbus hdev hagree _)
    intro resultA
    apply Matches.ite _ (Matches.pure _)
    apply Matches.bind (i2cLinuxTransmit_matches hbus hdev hagree _)
    intro resultB
    exact Matches.ite (Matches.pure _) (Matches.pure _)
  · exact Matches.bind (drvError_matches _) fun _ => Matches.pure _

theorem mcp23017Read_matches (value : Value) :
    Matches (Alike dev₀ spi₀ S) (mcp23017Read K₁ cbError bus value)
      (mcp23017Read K₂ cbError bus value) := by
  apply Matches.bind (mcp23017EnsureIo_matches hdata hbus hdev hagree .read)
  intro state
  apply Matches.ite
  · apply Matches.bind (i2cLinuxReceive_matches hbus hdev hagree _ _)
    rintro ⟨resultA, statesA⟩
    apply Matches.ite _ (Matches.pure _)
    apply Matches.bind (i2cLinuxReceive_matches hbus hdev hagree _ _)
    rintro ⟨resultB, statesB⟩
    exact Matches.ite (Matches.pure _) (Matches.pure _)
  · exact Matches.bind (drvError_matches _) fun _ => Matches.pure _

end Mcp23017

section Piface

variable {fd : Int} (hspi : spi₀ = .live fd) (hagree : AgreeSpi K₁ K₂ S)
include hspi hagree

theorem spiTransfer_matches (tx : List (BitVec 8)) :
    Matches (Alike dev₀ spi₀ S) (spiTransfer K₁ tx : DrvM δ β (Env κ₁) _)
      (spiTransfer K₂ tx) := by
  intro s t hst
  have hs : s.world.spi = .live fd := hst.spiLeft.trans hspi
  have ht : t.world.spi = .live fd := hst.spiRight.trans hspi
  obtain ⟨hanswer, hos⟩ := hagree fd tx _ _ hst.os
  refine ⟨(K₁.spiMessage fd tx s.world.os).1.2, s.setOs (K₁.spiMessage fd tx s.world.os).2,
    t.setOs (K₂.spiMessage fd tx t.world.os).2, ?_, ?_, ?_⟩
  · simp only [spiTransfer, spiFd, run_bind, run_get, run_pure, hs, syscall_run]
  · simp only [spiTransfer, spiFd, run_bind, run_get, run_pure, ht, syscall_run, hanswer]
  · exact ⟨hst.dev, hst.buf, hst.spiLeft, hst.spiRight, hos, hst.wiring⟩

theorem pifaceWrite_matches (cbError : CbError β) (bus : IoBus ω) (value : Value) :
    Matches (Alike dev₀ spi₀ S) (pifaceWrite K₁ cbError bus value)
      (pifaceWrite K₂ cbError bus value) := by
  apply Matches.bind
  · exact Matches.bind (spiTransfer_matches hspi hagree _) fun _ => Matches.pure _
  · intro _
    exact Matches.pure _

theorem pifaceRead_matches (cbError : CbError β) (bus : IoBus ω) (value : Value) :
    Matches (Alike dev₀ spi₀ S) (pifaceRead K₁ cbError bus value)
      (pifaceRead K₂ cbError bus value) := by
  apply Matches.bind (spiTransfer_matches hspi hagree _)
  intro states
  exact Matches.pure _

end Piface

/-- What a driver needs of its device before it is called, and of the two
systems to behave alike on them. -/
inductive Serves (K₁ : Kernel κ₁) (K₂ : Kernel κ₂) (S : κ₁ → κ₂ → Prop)
    (bus : IoBus ω) (dev : IoDev δ) (spi : SpiHandle) : DevHandle → Prop
  | pcf8574 {busData : I2cLinuxBusData} {devBusData : I2cLinuxDevData}
      (hbus : bus.busData = some busData) (hdev : dev.devBusData = some devBusData)
      (hagree : AgreeI2c K₁ K₂ busData.fh devBusData.address S) :
      Serves K₁ K₂ S bus dev spi .pcf8574
  | mcp23017 {busData : I2cLinuxBusData} {devBusData : I2cLinuxDevData}
      (hdata : dev.devData.isSome)
      (hbus : bus.busData = some busData) (hdev : dev.devBusData = some devBusData)
      (hagree : AgreeI2c K₁ K₂ busData.fh devBusData.address S) :
      Serves K₁ K₂ S bus dev spi .mcp23017
  | piface {fd : Int} (hspi : spi = .live fd) (hagree : AgreeSpi K₁ K₂ S) :
      Serves K₁ K₂ S bus dev spi .piface

section Table

variable {bus : IoBus BusHandle} {dev₀ : IoDev DevHandle} {handle : DevHandle}

theorem read_matches (hserves : Serves K₁ K₂ S bus dev₀ spi₀ handle) (value : Value) :
    Matches (Alike dev₀ spi₀ S) ((devDrv K₁ handle).read cbError bus value)
      ((devDrv K₂ handle).read cbError bus value) := by
  cases hserves with
  | pcf8574 hbus hdev hagree => exact pcf8574Read_matches hbus hdev hagree value
  | mcp23017 hdata hbus hdev hagree => exact mcp23017Read_matches hdata hbus hdev hagree value
  | piface hspi hagree => exact pifaceRead_matches hspi hagree cbError bus value

theorem write_matches (hserves : Serves K₁ K₂ S bus dev₀ spi₀ handle) (value : Value) :
    Matches (Alike dev₀ spi₀ S) ((devDrv K₁ handle).write cbError bus value)
      ((devDrv K₂ handle).write cbError bus value) := by
  cases hserves with
  | pcf8574 hbus hdev hagree => exact pcf8574Write_matches hbus hdev hagree value
  | mcp23017 hdata hbus hdev hagree => exact mcp23017Write_matches hdata hbus hdev hagree value
  | piface hspi hagree => exact pifaceWrite_matches hspi hagree cbError bus value

end Table

end Switcher
