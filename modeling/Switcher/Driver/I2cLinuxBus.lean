import Switcher.Driver.Table
import Switcher.Io.Lifecycle
import Switcher.Lib.Numeral

/-!
The bus driver of `io_i2c_linux.c`: the data it makes of a configuration
parameter, and opening and closing the bus. `strncpy` leaves a device path of 32
characters or more without a terminator.
-/

namespace Switcher

open Lib.Program Lib.Text Lib.Numeral

variable {κ : Type} (K : Kernel κ)

/-- `I2C_DEV_LEN`. -/
def i2cDevLen : Nat := 32

/-- `malloc`, and what is stored where it succeeds. -/
def allocate {α : Type} (a : α) (w : Env κ) : Option α × Env κ :=
  (if (K.malloc w.os).1 then some a else none, { w with os := (K.malloc w.os).2 })

/-- Memory does not run out. -/
def Kernel.Allocates : Prop := ∀ os, (K.malloc os).1 = true

/-- The fields set by `get_i2c_linux_bus_data`. The buffer is kept up to its
terminator, or as a whole if it has none. -/
def i2cBusData (parameter : CString) : I2cLinuxBusData :=
  ⟨(strncpy parameter i2cDevLen).takeWhile (· ≠ nul), -1⟩

/-- The field set by `get_i2c_linux_dev_data`: a `long` stored to a `uint8_t`. -/
def i2cDevData (parameter : CString) : I2cLinuxDevData :=
  ⟨BitVec.ofInt 8 (strtol parameter.chars 16).1⟩

def getI2cLinuxBusData (parameter : CString) (w : Env κ) : Option I2cLinuxBusData × Env κ :=
  allocate K (i2cBusData parameter) w

def getI2cLinuxDevData (parameter : CString) (w : Env κ) : Option I2cLinuxDevData × Env κ :=
  allocate K (i2cDevData parameter) w

/-- `bus->bus_data`, followed. -/
def busPtr : BusM (Env κ) I2cLinuxBusData := do
  match (← get).busData with
  | none => throw .nullDeref
  | some data => pure data

def busCall {α : Type} (f : κ → α × κ) : BusM (Env κ) α :=
  modifyGet fun s => ((f s.world.os).1, { s with world := { s.world with os := (f s.world.os).2 } })

/-- `open` reads the path up to a terminator, which a full buffer lacks. -/
def i2cLinuxOpen : BusM (Env κ) Int := do
  let data ← busPtr
  if i2cDevLen ≤ data.device.length then
    throw .outOfBounds
  else
    let fh ← busCall (K.openFile data.device)
    modify fun s => { s with busData := some { data with fh := fh } }
    return if fh < 0 then exitFailure else exitSuccess

def i2cLinuxClose : BusM (Env κ) Int := do
  let data ← busPtr
  let rc ← busCall (K.closeFile data.fh)
  return if rc < 0 then exitFailure else exitSuccess

/-- `get_i2c_linux_drv`. -/
def busDrv : BusHandle → BusDrv (Env κ)
  | .i2cLinux =>
      { getBusData := some (getI2cLinuxBusData K)
        getBusDevData := some (getI2cLinuxDevData K)
        openBus := some (i2cLinuxOpen K)
        closeBus := some (i2cLinuxClose K) }

end Switcher
