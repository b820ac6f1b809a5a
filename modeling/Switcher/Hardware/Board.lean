import Switcher.Driver.Table
import Switcher.Lib.Program

/-!
The i2c-dev side of the operating system: a file handle keeps the slave address
last selected on it, and a transfer goes to that address. A selection that
fails leaves the earlier one in place.
-/

namespace Switcher

open Lib.Program

/-- One SMBus transaction as it reaches the bus behind `fh`. -/
structure Transfer where
  fh : Int
  address : BitVec 8
  args : Smbus
  deriving DecidableEq, Repr

/-- What answers behind the handles, in any state `σ`. -/
structure Hardware (σ : Type) where
  select : Int → BitVec 8 → σ → Int × σ
  smbus : Int → BitVec 8 → Smbus → σ → (Int × BitVec 8) × σ
  spi : List (BitVec 8) → σ → (Int × BitVec 8) × σ
  strerror : σ → List Char

/-- `traffic` records every transfer so far; the program never reads it. -/
structure Board (σ : Type) where
  selected : Int → BitVec 8
  traffic : List Transfer
  hw : σ

variable {σ ω β : Type}

def Board.select (H : Hardware σ) (fh : Int) (address : BitVec 8) (board : Board σ) :
    Int × Board σ :=
  let (rc, hw) := H.select fh address board.hw
  if rc < 0 then
    (rc, { board with hw := hw })
  else
    (rc, { board with selected := Function.update board.selected fh address, hw := hw })

def Board.transfer (H : Hardware σ) (fh : Int) (args : Smbus) (board : Board σ) :
    (Int × BitVec 8) × Board σ :=
  let (answer, hw) := H.smbus fh (board.selected fh) args board.hw
  (answer, { board with
    traffic := board.traffic ++ [⟨fh, board.selected fh, args⟩]
    hw := hw })

/-- Serving requests opens no file and allocates nothing, so those services
simply succeed here. -/
def Hardware.kernel (H : Hardware σ) : Kernel (Board σ) where
  i2cSlave := Board.select H
  i2cSmbus := Board.transfer H
  spiMessage _ tx board :=
    ((H.spi tx board.hw).1, { board with hw := (H.spi tx board.hw).2 })
  spiQuery _ _ board := (0, board)
  openFile _ board := (0, board)
  closeFile _ board := (0, board)
  strerror board := H.strerror board.hw
  malloc board := (true, board)

end Switcher
