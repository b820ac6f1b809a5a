import Switcher.Driver.Kernel

/-!
`dev_piface.c` and the part of `pfio.c` it reaches. The result of an SPI
transfer is only printed, so neither `piface_read` nor `piface_write` can fail.
-/

namespace Switcher

namespace Pfio

def spiWriteCmd : BitVec 8 := 0x40
def spiReadCmd : BitVec 8 := 0x41
def iodira : BitVec 8 := 0x00
def iodirb : BitVec 8 := 0x01
def iocon : BitVec 8 := 0x0A
def gppub : BitVec 8 := 0x0D
def gpioa : BitVec 8 := 0x12
def outputPort : BitVec 8 := gpioa

/-- The path that `pfio_init` prints from `SPI_BUS` and `SPI_DEVICE`. -/
def devicePath : List Char := "/dev/spidev0.0".toList

end Pfio

open Pfio

variable {ω δ β κ : Type} (K : Kernel κ)

/-- `spi->fd`. -/
def spiFd : DrvM δ β (Env κ) Int := do
  match (← get).world.spi with
  | .null => throw .nullDeref
  | .freed => throw .useAfterFree
  | .live fd => pure fd

/-- `spi_transfer`: the last byte of `rxbuffer`. -/
def spiTransfer (txbuffer : List (BitVec 8)) : DrvM δ β (Env κ) (BitVec 8) := do
  let fd ← spiFd
  let (_, rx) ← syscall (K.spiMessage fd txbuffer)
  return rx

def spiWrite (port value : BitVec 8) : DrvM δ β (Env κ) Unit := do
  let _ ← spiTransfer K [spiWriteCmd, port, value]

def spiRead (port : BitVec 8) : DrvM δ β (Env κ) (BitVec 8) :=
  spiTransfer K [spiReadCmd, port, 0xff]

def pfioReadOutput : DrvM δ β (Env κ) (BitVec 8) :=
  spiRead K outputPort

def pfioWriteOutput (value : BitVec 8) : DrvM δ β (Env κ) Unit :=
  spiWrite K outputPort value

def pfioGetPinBitMask (pinNumber : BitVec 8) : BitVec 8 :=
  (1#32 <<< pinNumber.toNat).setWidth 8

def pfioDigitalWrite (pinNumber value : BitVec 8) : DrvM δ β (Env κ) Unit := do
  let pinBitMask := pfioGetPinBitMask pinNumber
  let oldPinValues ← pfioReadOutput K
  pfioWriteOutput K
    (if 0 < value then oldPinValues ||| pinBitMask else oldPinValues &&& ~~~pinBitMask)

/-- `spi = p`. -/
def setSpi (p : SpiHandle) : DrvM δ β (Env κ) Unit :=
  modify fun s => { s with world := { s.world with spi := p } }

/-- The queries of `pfio_init`, each of which ends it when it fails. -/
def spiQueries (fd : Int) : List SpiQuery → DrvM δ β (Env κ) Bool
  | [] => return true
  | query :: rest => do
      let rc ← syscall (K.spiQuery fd query)
      if rc < 0 then return false else spiQueries fd rest

/-- A failure after the first line leaves `spi` pointing to the structure. -/
def pfioInit : DrvM δ β (Env κ) Int := do
  if ← syscall K.malloc then
    let fd ← syscall (K.openFile devicePath)
    setSpi (.live fd)
    if fd < 0 then
      return -1
    else if ← spiQueries K fd [.mode, .bitsPerWord, .maxSpeedHz] then
      spiWrite K iocon 8
      spiWrite K gpioa 0x00
      spiWrite K iodira 0
      spiWrite K iodirb 0xFF
      spiWrite K gppub 0xFF
      for i in [1, 2, 3, 4, 5, 6, 7, 8] do
        pfioDigitalWrite K i 0
      return 0
    else
      return -1
  else
    setSpi .null
    return -1

/-- `free(spi)` does not clear the pointer. -/
def pfioDeinit : DrvM δ β (Env κ) Int := do
  let fd ← spiFd
  let _ ← syscall (K.closeFile fd)
  setSpi .freed
  return 0

def pifaceInit (_bus : IoBus ω) : DrvM δ β (Env κ) Int := do
  if (← pfioInit K) < 0 then return exitFailure else return exitSuccess

def pifaceWrite (_cbError : CbError β) (_bus : IoBus ω) (value : Value) :
    DrvM δ β (Env κ) Int := do
  pfioWriteOutput K (value.setWidth 8)
  return 1

def pifaceRead (_cbError : CbError β) (_bus : IoBus ω) (_value : Value) :
    DrvM δ β (Env κ) (Int × Value) := do
  let states ← pfioReadOutput K
  return (1, states.setWidth 32)

def pifaceDeinit (_bus : IoBus ω) : DrvM δ β (Env κ) Int := do
  if (← pfioDeinit K) < 0 then return exitFailure else return exitSuccess

def pifaceDrv : DevDrv ω δ β (Env κ) where
  init := some (pifaceInit K)
  read := pifaceRead K
  write := pifaceWrite K
  deinit := some (pifaceDeinit K)

end Switcher
