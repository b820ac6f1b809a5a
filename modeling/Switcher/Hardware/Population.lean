import Switcher.Driver.Agreement
import Switcher.Hardware.Board
import Switcher.Io.Request

/-!
A board populated with independent chips: a chip answers from the transfers it
received itself, and every slave selection succeeds. On such a board a driver
call is local to the chip of its device. It does what the same driver does on a
system that consists of that chip alone.
-/

namespace Switcher

open Lib.Program

/-- Which chip answers at which address, and how chips answer. Different chips
need not be alike: `i2c` knows which chip it answers for. -/
structure Population (Chip σ : Type) where
  i2cAt : Int → BitVec 8 → Chip
  spiAt : Chip
  i2c : Chip → Smbus → σ → (Int × BitVec 8) × σ
  spi : List (BitVec 8) → σ → (Int × BitVec 8) × σ

/-- The chip at an address behind an I2C handle, or the one on SPI. -/
inductive ChipId where
  | i2c (fh : Int) (address : BitVec 8)
  | spi
  deriving DecidableEq, Repr

variable {Chip σ β : Type}

def Population.hardware [DecidableEq Chip] (P : Population Chip σ) : Hardware (Chip → σ) where
  select _ _ chips := (0, chips)
  smbus fh address args chips :=
    let chip := P.i2cAt fh address
    let answer := P.i2c chip args (chips chip)
    (answer.1, Function.update chips chip answer.2)
  spi tx chips :=
    let answer := P.spi tx (chips P.spiAt)
    (answer.1, Function.update chips P.spiAt answer.2)
  strerror _ := []

def Population.kernel [DecidableEq Chip] (P : Population Chip σ) : Kernel (Board (Chip → σ)) :=
  P.hardware.kernel

/-- One chip as a whole system: whatever is selected, it answers. -/
def Population.chipKernel (P : Population Chip σ) (chip : Chip) : Kernel σ where
  i2cSlave _ _ x := (0, x)
  i2cSmbus _ args x := P.i2c chip args x
  spiMessage _ tx x := P.spi tx x
  spiQuery _ _ x := (0, x)
  openFile _ x := (0, x)
  closeFile _ x := (0, x)
  strerror _ := []
  malloc x := (true, x)

theorem exchange_chipKernel {δ : Type} (P : Population Chip σ) (chip : Chip)
    (cbError : CbError β) (fh : Int) (address : BitVec 8) (args : Smbus)
    (s : DrvState δ β (Env σ)) :
    exchange (P.chipKernel chip) cbError fh address args s =
      ((P.i2c chip args s.world.os).1, s.setOs (P.i2c chip args s.world.os).2) := rfl

/-- The device in a slot is configured completely, and `chip` is the chip it
stands for. -/
inductive Wired (P : Population Chip σ) (config : IoConfig BusHandle DevHandle)
    (spi : SpiHandle) (slot : Slot) : DevHandle → Chip → Prop
  | pcf8574 {busData : I2cLinuxBusData} {devBusData : I2cLinuxDevData}
      (hdrv : (config.devices slot).drvHandle = some .pcf8574)
      (hbus : (config.busses slot.1).busData = some busData)
      (hdev : (config.devices slot).devBusData = some devBusData) :
      Wired P config spi slot .pcf8574 (P.i2cAt busData.fh devBusData.address)
  | mcp23017 {busData : I2cLinuxBusData} {devBusData : I2cLinuxDevData}
      (hdrv : (config.devices slot).drvHandle = some .mcp23017)
      (hdata : (config.devices slot).devData.isSome)
      (hbus : (config.busses slot.1).busData = some busData)
      (hdev : (config.devices slot).devBusData = some devBusData) :
      Wired P config spi slot .mcp23017 (P.i2cAt busData.fh devBusData.address)
  | piface {fd : Int} (hdrv : (config.devices slot).drvHandle = some .piface)
      (hspi : spi = .live fd) : Wired P config spi slot .piface P.spiAt

theorem Wired.drvHandle {P : Population Chip σ} {config : IoConfig BusHandle DevHandle}
    {spi : SpiHandle} {slot : Slot} {handle : DevHandle} {chip : Chip}
    (hw : Wired P config spi slot handle chip) :
    (config.devices slot).drvHandle = some handle := by
  cases hw <;> assumption

theorem Wired.spi_live {P : Population Chip σ} {config : IoConfig BusHandle DevHandle}
    {spi : SpiHandle} {slot : Slot} {chip : Chip} (hw : Wired P config spi slot .piface chip) :
    ∃ fd, spi = .live fd := by
  cases hw with
  | piface _ hspi => exact ⟨_, hspi⟩

theorem Wired.transfer {P : Population Chip σ} {config config' : IoConfig BusHandle DevHandle}
    {spi : SpiHandle} {slot : Slot} {handle : DevHandle} {chip : Chip}
    (hw : Wired P config spi slot handle chip) (hbusses : config'.busses = config.busses)
    (hwiring : (config.devices slot).SameWiring (config'.devices slot)) :
    Wired P config' spi slot handle chip := by
  cases hw with
  | pcf8574 hdrv hbus hdev =>
      exact .pcf8574 (hwiring.drvHandle.trans hdrv) (by rw [hbusses]; exact hbus)
        (hwiring.devBusData.trans hdev)
  | mcp23017 hdrv hdata hbus hdev =>
      exact .mcp23017 (hwiring.drvHandle.trans hdrv) (hwiring.devData.trans hdata)
        (by rw [hbusses]; exact hbus) (hwiring.devBusData.trans hdev)
  | piface hdrv hspi => exact .piface (hwiring.drvHandle.trans hdrv) hspi

variable [DecidableEq Chip]

/-- The board is as it was at `chips`, except for `chip`, which is at `x`. -/
def OnlyChip (chips : Chip → σ) (chip : Chip) (board : Board (Chip → σ)) (x : σ) : Prop :=
  board.hw = Function.update chips chip x

theorem OnlyChip.at_chip {chips : Chip → σ} {chip : Chip} {board : Board (Chip → σ)}
    {x : σ} (h : OnlyChip chips chip board x) : board.hw chip = x := by
  rw [h, Function.update_self]

theorem OnlyChip.step {chips : Chip → σ} {chip : Chip} {board : Board (Chip → σ)}
    {x : σ} (h : OnlyChip chips chip board x) (y : σ) :
    Function.update board.hw chip y = Function.update chips chip y := by
  rw [h, Function.update_idem]

theorem population_agreeI2c (P : Population Chip σ) (fh : Int) (address : BitVec 8)
    (chips : Chip → σ) :
    AgreeI2c P.kernel (P.chipKernel (P.i2cAt fh address)) fh address
      (OnlyChip chips (P.i2cAt fh address)) := by
  intro args board x h
  have hat := h.at_chip
  simp only [Population.kernel, Hardware.kernel, Population.hardware, Population.chipKernel,
    Board.select, Board.transfer, Int.lt_irrefl, if_false, Function.update_self, hat]
  refine ⟨trivial, by simp, trivial, ?_⟩
  exact h.step _

theorem population_agreeSpi (P : Population Chip σ) (chips : Chip → σ) :
    AgreeSpi P.kernel (P.chipKernel P.spiAt) (OnlyChip chips P.spiAt) := by
  intro fd tx board x h
  have hat := h.at_chip
  simp only [Population.kernel, Hardware.kernel, Population.hardware, Population.chipKernel,
    hat]
  exact ⟨trivial, h.step _⟩

theorem Wired.serves {P : Population Chip σ} {config : IoConfig BusHandle DevHandle}
    {spi : SpiHandle} {slot : Slot} {handle : DevHandle} {chip : Chip}
    (hw : Wired P config spi slot handle chip) (chips : Chip → σ) :
    Serves P.kernel (P.chipKernel chip) (OnlyChip chips chip) (config.busses slot.1)
      (config.devices slot) spi handle := by
  cases hw with
  | pcf8574 _ hbus hdev => exact .pcf8574 hbus hdev (population_agreeI2c P _ _ chips)
  | mcp23017 _ hdata hbus hdev =>
      exact .mcp23017 hdata hbus hdev (population_agreeI2c P _ _ chips)
  | piface _ hspi => exact .piface hspi (population_agreeSpi P chips)

end Switcher
