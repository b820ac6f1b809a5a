import Switcher.Io.Perform
import Switcher.Lib.Program

/-!
The services the drivers take from the operating system: `ioctl` on i2c-dev and
spidev handles, files and memory. They are parameters of the model; `κ` is
whatever state lies behind them.
-/

namespace Switcher

open Lib.Program

/-- The transactions of `i2c-dev.h` that this program issues. -/
inductive Smbus where
  | readByte
  | writeByte (value : BitVec 8)
  | readByteData (command : BitVec 8)
  | writeByteData (command value : BitVec 8)
  deriving DecidableEq, Repr

/-- The settings that `pfio_init` asks spidev for. -/
inductive SpiQuery where
  | mode | bitsPerWord | maxSpeedHz
  deriving DecidableEq, Repr

structure Kernel (κ : Type) where
  /-- `ioctl(fh, I2C_SLAVE, address)`. -/
  i2cSlave : Int → BitVec 8 → κ → Int × κ
  /-- `ioctl(fh, I2C_SMBUS, &args)`: its result and the byte left in `args.data`. -/
  i2cSmbus : Int → Smbus → κ → (Int × BitVec 8) × κ
  /-- `ioctl(fd, SPI_IOC_MESSAGE(1), ...)`: its result and the last byte received. -/
  spiMessage : Int → List (BitVec 8) → κ → (Int × BitVec 8) × κ
  /-- `ioctl(fd, SPI_IOC_RD_..., &temp)`. -/
  spiQuery : Int → SpiQuery → κ → Int × κ
  /-- `open(path, O_RDWR)`. -/
  openFile : List Char → κ → Int × κ
  closeFile : Int → κ → Int × κ
  /-- `strerror(errno)` after a failed call. -/
  strerror : κ → List Char
  /-- Whether the next `malloc` returns memory. -/
  malloc : κ → Bool × κ

/-- The static pointer `spi` of `pfio.c`. -/
inductive SpiHandle where
  | null
  | live (fd : Int)
  | freed
  deriving DecidableEq, Repr

/-- The world of this program's drivers: their one static variable and the
operating system. -/
structure Env (κ : Type) where
  spi : SpiHandle
  os : κ

variable {δ β κ α : Type}

/-- Call an operating-system service from a driver. -/
def syscall (f : κ → α × κ) : DrvM δ β (Env κ) α :=
  modifyGet fun s => ((f s.world.os).1, { s with world := { s.world with os := (f s.world.os).2 } })

/-- Follow a pointer. -/
def deref (p : Option α) : DrvM δ β (Env κ) α :=
  match p with
  | none => throw .nullDeref
  | some a => pure a

/-- `cb_error(msg, buf_msg, buf_size_msg)` from within a driver. -/
def drvError (cbError : CbError β) (msg : List Char) : DrvM δ β (Env κ) Unit :=
  modify fun s => { s with buf := cbError msg s.buf }

def DrvState.setOs (s : DrvState δ β (Env κ)) (os : κ) : DrvState δ β (Env κ) :=
  { s with world := { s.world with os := os } }

def DrvState.report (s : DrvState δ β (Env κ)) (cbError : CbError β) (msg : List Char) :
    DrvState δ β (Env κ) :=
  { s with buf := cbError msg s.buf }

theorem syscall_run (f : κ → α × κ) (s : DrvState δ β (Env κ)) :
    syscall f s = .ok (f s.world.os).1 (s.setOs (f s.world.os).2) := rfl

theorem deref_some (a : α) : (deref (some a) : DrvM δ β (Env κ) α) = pure a := rfl

@[simp] theorem DrvState.dev_setOs (s : DrvState δ β (Env κ)) (os : κ) :
    (s.setOs os).dev = s.dev := rfl

@[simp] theorem DrvState.buf_setOs (s : DrvState δ β (Env κ)) (os : κ) :
    (s.setOs os).buf = s.buf := rfl

@[simp] theorem DrvState.world_setOs (s : DrvState δ β (Env κ)) (os : κ) :
    (s.setOs os).world = ⟨s.world.spi, os⟩ := rfl

end Switcher
