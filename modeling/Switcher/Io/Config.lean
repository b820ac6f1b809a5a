import Mathlib.Logic.Function.Basic
import Mathlib.Data.BitVec

/-!
The data model of `io.h`, `io_fwd.h` and the driver headers. Handles of bus and
device drivers are pointers in the source; here they are values of two
arbitrary types `ω` and `δ`, so that a configuration never contains code. An
`idx_t` (`int32_t`) is an integer: only the request parser narrows.
-/

namespace Switcher

def maxBusses : Nat := 8

def maxIoDevices : Nat := 128

instance : NeZero maxBusses := ⟨by decide⟩

instance : NeZero maxIoDevices := ⟨by decide⟩

def idxInvalid : Int := -1

/-- `value_t`. -/
abbrev Value := BitVec 32

def exitSuccess : Int := 0

def exitFailure : Int := 1

inductive IoCmd where
  | none | write | read
  deriving DecidableEq, Repr

structure IoData where
  idxBus : Int
  idxDev : Int
  idxSubDev : Int
  value : Value
  deriving DecidableEq, Repr

/-- `INIT_IO_DATA`. -/
def initIoData : IoData := ⟨idxInvalid, idxInvalid, idxInvalid, 0⟩

inductive Mcp23017IoState where
  | none | read | write
  deriving DecidableEq, Repr

structure Mcp23017Data where
  ioState : Mcp23017IoState
  deriving DecidableEq, Repr

structure I2cLinuxDevData where
  address : BitVec 8
  deriving DecidableEq, Repr

structure I2cLinuxBusData where
  device : List Char
  fh : Int
  deriving DecidableEq, Repr

/-- A device slot. The two `void*` fields only ever point to the types named
here; `none` is the `NULL` pointer. -/
structure IoDev (δ : Type) where
  drvHandle : Option δ
  devBusData : Option I2cLinuxDevData
  devData : Option Mcp23017Data

structure IoBus (ω : Type) where
  numDevices : Int
  drvHandle : Option ω
  busData : Option I2cLinuxBusData

/-- Position of a device: bus index, then device index on that bus. -/
abbrev Slot := Fin maxBusses × Fin maxIoDevices

/-- The device tables of the buses are kept in one map: `busses[b].devices[d]`
is `devices (b, d)`. -/
structure IoConfig (ω δ : Type) where
  numBusses : Int
  busses : Fin maxBusses → IoBus ω
  devices : Slot → IoDev δ

/-- What the C standard leaves undefined and this program can run into. -/
inductive Fault where
  | nullDeref | outOfBounds | badShift | useAfterFree
  deriving DecidableEq, Repr

variable {ω δ : Type}

def IoConfig.setDev (config : IoConfig ω δ) (slot : Slot) (dev : IoDev δ) : IoConfig ω δ :=
  { config with devices := Function.update config.devices slot dev }

/-- The slot lies within the configured counts. -/
def IoConfig.HasSlot (config : IoConfig ω δ) (slot : Slot) : Prop :=
  (slot.1.val : Int) < config.numBusses ∧
    (slot.2.val : Int) < (config.busses slot.1).numDevices

instance (config : IoConfig ω δ) (slot : Slot) : Decidable (config.HasSlot slot) :=
  inferInstanceAs (Decidable (_ ∧ _))

@[simp] theorem IoConfig.devices_setDev (config : IoConfig ω δ) (slot : Slot)
    (dev : IoDev δ) : (config.setDev slot dev).devices slot = dev := by
  simp [IoConfig.setDev]

theorem IoConfig.devices_setDev_of_ne (config : IoConfig ω δ) {slot other : Slot}
    (dev : IoDev δ) (hne : other ≠ slot) :
    (config.setDev slot dev).devices other = config.devices other := by
  simp [IoConfig.setDev, hne]

@[simp] theorem IoConfig.busses_setDev (config : IoConfig ω δ) (slot : Slot)
    (dev : IoDev δ) : (config.setDev slot dev).busses = config.busses := rfl

@[simp] theorem IoConfig.hasSlot_setDev (config : IoConfig ω δ) (slot other : Slot)
    (dev : IoDev δ) : (config.setDev slot dev).HasSlot other ↔ config.HasSlot other :=
  Iff.rfl

theorem IoConfig.setDev_devices (config : IoConfig ω δ) (slot : Slot) :
    config.setDev slot (config.devices slot) = config := by
  simp [IoConfig.setDev]

theorem IoConfig.setDev_setDev (config : IoConfig ω δ) (slot : Slot) (dev dev' : IoDev δ) :
    (config.setDev slot dev).setDev slot dev' = config.setDev slot dev' := by
  simp [IoConfig.setDev]

/-- The two device records differ in the driver's cached data only. -/
structure IoDev.SameWiring (dev dev' : IoDev δ) : Prop where
  drvHandle : dev'.drvHandle = dev.drvHandle
  devBusData : dev'.devBusData = dev.devBusData
  devData : dev'.devData.isSome = dev.devData.isSome

theorem IoDev.SameWiring.refl (dev : IoDev δ) : dev.SameWiring dev := ⟨rfl, rfl, rfl⟩

theorem IoDev.SameWiring.trans {dev dev' dev'' : IoDev δ} (h : dev.SameWiring dev')
    (h' : dev'.SameWiring dev'') : dev.SameWiring dev'' :=
  ⟨h'.drvHandle.trans h.drvHandle, h'.devBusData.trans h.devBusData,
    h'.devData.trans h.devData⟩

end Switcher
