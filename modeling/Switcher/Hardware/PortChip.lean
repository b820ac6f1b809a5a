import Switcher.Driver.Beside
import Switcher.Hardware.Expander
import Switcher.Hardware.Latch

/-!
The chip of a PiFace as its data sheet has it, with `IOCON.BANK` clear: the same registers
as those of the MCP23017, behind three-byte messages. Once `pfio_init` has set it up it
cannot be told from a latch.
-/

namespace Switcher

open Lib.Program Pfio

namespace PortChip

def ipola : BitVec 8 := 0x02
def ipolb : BitVec 8 := 0x03
def gpiob : BitVec 8 := 0x13
def olata : BitVec 8 := 0x14
def olatb : BitVec 8 := 0x15

end PortChip

/-- `levels n` is applied from outside to the pins of port A (low byte) and port B while the
`n`-th message from now on is handled. `switchedOn` counts how often each output has gone on;
the chip never looks at it. -/
structure PortChip where
  regs : BitVec 8 → BitVec 8
  levels : Nat → BitVec 16
  switchedOn : Fin 8 → Nat

namespace PortChip

/-- The outputs that are on: the pins of port A that are driven high. -/
def on (chip : PortChip) : BitVec 8 := chip.regs olata &&& ~~~chip.regs iodira

/-- The register that a write goes to: that of a port goes to its latch. -/
def target (reg : BitVec 8) : BitVec 8 :=
  if reg = gpioa then olata else if reg = gpiob then olatb else reg

def readReg (chip : PortChip) (reg : BitVec 8) : BitVec 8 :=
  if reg = gpioa then
    portValue (chip.regs iodira) (chip.regs olata) ((chip.levels 0).setWidth 8) ^^^ chip.regs ipola
  else if reg = gpiob then
    portValue (chip.regs iodirb) (chip.regs olatb) (((chip.levels 0) >>> 8).setWidth 8) ^^^
      chip.regs ipolb
  else
    chip.regs reg

def writeReg (chip : PortChip) (reg value : BitVec 8) : PortChip :=
  let next : PortChip := { chip with regs := Function.update chip.regs (target reg) value }
  { next with
    switchedOn := fun i =>
      chip.switchedOn i + if next.on.getLsbD i && !chip.on.getLsbD i then 1 else 0 }

def tick (chip : PortChip) : PortChip := { chip with levels := fun n => chip.levels (n + 1) }

/-- A message, and what it is answered. A message for another chip changes nothing. -/
def spi (tx : List (BitVec 8)) (chip : PortChip) : (Int × BitVec 8) × PortChip :=
  match tx with
  | [cmd, reg, value] =>
      if cmd = spiWriteCmd then
        ((3, 0), (chip.writeReg reg value).tick)
      else if cmd = spiReadCmd then
        ((3, chip.readReg reg), chip.tick)
      else
        ((3, 0), chip.tick)
  | _ => ((tx.length, 0), chip.tick)

/-- The registers are where this model has them and port A is read as it is: so after
power-on, and this program never changes it. -/
structure Tame (chip : PortChip) : Prop where
  bank : (chip.regs iocon).getLsbD 7 = false
  polarity : chip.regs ipola = 0

/-- The chip as it comes up: all pins are inputs. -/
def powerOn : PortChip where
  regs reg := if reg = iodira ∨ reg = iodirb then 0xFF else 0x00
  levels _ := 0
  switchedOn _ := 0

/-- Port A is all outputs, port B all inputs with pull-ups. -/
structure SetUp (chip : PortChip) : Prop where
  tame : chip.Tame
  iodira : chip.regs iodira = 0
  iodirb : chip.regs iodirb = 0xFF
  gppub : chip.regs gppub = 0xFF

theorem powerOn_tame : powerOn.Tame := ⟨by decide, by decide⟩

section Registers

variable {chip : PortChip}

theorem spi_write (chip : PortChip) (reg value : BitVec 8) :
    spi [spiWriteCmd, reg, value] chip = ((3, 0), (chip.writeReg reg value).tick) := rfl

theorem spi_read (chip : PortChip) (reg value : BitVec 8) :
    spi [spiReadCmd, reg, value] chip = ((3, chip.readReg reg), chip.tick) := rfl

theorem writeReg_regs (chip : PortChip) (reg value : BitVec 8) :
    (chip.writeReg reg value).regs = Function.update chip.regs (target reg) value := rfl

theorem writeReg_on (chip : PortChip) (reg value : BitVec 8) :
    (chip.writeReg reg value).on =
      ({ chip with regs := Function.update chip.regs (target reg) value } : PortChip).on := rfl

/-- The program writes no other value to the registers that matter here. -/
theorem Tame.writeReg (h : chip.Tame) {reg value : BitVec 8} (hpolarity : reg ≠ ipola)
    (hbank : reg = iocon → value.getLsbD 7 = false) : (chip.writeReg reg value).Tame := by
  have htarget {other : BitVec 8} (hne : other ≠ olata ∧ other ≠ olatb) (h : other = target reg) :
      other = reg := by
    unfold target at h
    split at h
    · exact absurd h hne.1
    · split at h
      · exact absurd h hne.2
      · exact h
  constructor
  · rw [writeReg_regs]
    rcases eq_or_ne iocon (target reg) with heq | hne
    · rw [← heq, Function.update_self]
      exact hbank (htarget (by decide) heq).symm
    · rw [Function.update_of_ne hne]
      exact h.bank
  · rw [writeReg_regs, Function.update_of_ne]
    · exact h.polarity
    · exact fun heq => hpolarity (htarget (by decide) heq).symm

theorem Tame.tick (h : chip.Tame) : chip.tick.Tame := ⟨h.bank, h.polarity⟩

theorem SetUp.tick (h : chip.SetUp) : chip.tick.SetUp :=
  ⟨h.tame.tick, h.iodira, h.iodirb, h.gppub⟩

theorem SetUp.on (h : chip.SetUp) : chip.on = chip.regs olata := by
  rw [PortChip.on, h.iodira]
  exact BitVec.and_allOnes

/-- A port that is all outputs is read as its latch. -/
theorem SetUp.readReg (h : chip.SetUp) : chip.readReg outputPort = chip.regs olata := by
  have hlatch : chip.regs olata &&& ~~~(0 : BitVec 8) = chip.regs olata := BitVec.and_allOnes
  rw [PortChip.readReg, if_pos (show outputPort = gpioa from rfl), h.iodira, h.tame.polarity,
    portValue, hlatch]
  simp

theorem SetUp.writeOutput (h : chip.SetUp) (value : BitVec 8) :
    (chip.writeReg outputPort value).SetUp ∧
      (chip.writeReg outputPort value).regs olata = value := by
  have hregs : (chip.writeReg outputPort value).regs = Function.update chip.regs olata value := rfl
  have hother {reg : BitVec 8} (hne : reg ≠ olata) :
      (chip.writeReg outputPort value).regs reg = chip.regs reg := by
    rw [hregs, Function.update_of_ne hne]
  refine ⟨⟨h.tame.writeReg (by decide) fun h => absurd h (by decide), ?_, ?_, ?_⟩, ?_⟩
  · rw [hother (by decide), h.iodira]
  · rw [hother (by decide), h.iodirb]
  · rw [hother (by decide), h.gppub]
  · rw [hregs, Function.update_self]

end Registers

end PortChip

end Switcher
