import Switcher.Driver.I2cLinux

/-!
`pcf8574.c`. A failed read still overwrites `*value`, with zero.
-/

namespace Switcher

open Lib.Program

variable {ω δ β κ : Type} (K : Kernel κ)

def pcf8574Write (cbError : CbError β) (bus : IoBus ω) (value : Value) :
    DrvM δ β (Env κ) Int := do
  let states := value.setWidth 8
  let result ← i2cLinuxWriteByte K cbError bus states
  return if result = 0 then 1 else 0

def pcf8574Read (cbError : CbError β) (bus : IoBus ω) (_value : Value) :
    DrvM δ β (Env κ) (Int × Value) := do
  let (result, states) ← i2cLinuxReadByte K cbError bus 0
  return (if result = 0 then 1 else 0, states.setWidth 32)

def pcf8574Drv : DevDrv ω δ β (Env κ) where
  init := none
  read := pcf8574Read K
  write := pcf8574Write K
  deinit := none

section Run

variable {bus : IoBus ω} {busData : I2cLinuxBusData} {devBusData : I2cLinuxDevData}
  {s : DrvState δ β (Env κ)} (cbError : CbError β) (value : Value)
  (hbus : bus.busData = some busData) (hdev : s.dev.devBusData = some devBusData)
include hbus hdev

theorem pcf8574Read_run :
    pcf8574Read K cbError bus value s =
      .ok (if (exchange K cbError busData.fh devBusData.address .readByte s).1.1 = 0 then
          (1, (exchange K cbError busData.fh devBusData.address .readByte s).1.2.setWidth 32)
        else (0, 0))
        (exchange K cbError busData.fh devBusData.address .readByte s).2 := by
  unfold pcf8574Read i2cLinuxReadByte
  rw [bind_of_ok (i2cLinuxReceive_run K cbError .readByte 0 hbus hdev)]
  by_cases hrc : (exchange K cbError busData.fh devBusData.address .readByte s).1.1 = 0
  · simp [hrc, run_pure]
  · simp [hrc, run_pure]

theorem pcf8574Write_run :
    pcf8574Write K cbError bus value s =
      .ok (if (exchange K cbError busData.fh devBusData.address
            (.writeByte (value.setWidth 8)) s).1.1 = 0 then 1 else 0)
        (exchange K cbError busData.fh devBusData.address
          (.writeByte (value.setWidth 8)) s).2 := by
  unfold pcf8574Write i2cLinuxWriteByte
  exact bind_of_ok (i2cLinuxTransmit_run K cbError _ hbus hdev)

end Run

end Switcher
