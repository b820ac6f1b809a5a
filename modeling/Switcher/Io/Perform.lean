import Switcher.Io.Config

/-!
`perform_io` over arbitrary drivers. A driver call may change the device it is
called on, the reply buffer (through `cb_error`) and the drivers' own world `W`;
nothing else of the configuration is reachable from the `io_dev` it is given.
-/

namespace Switcher

/-- What a driver function can change: `*dev`, the reply buffer and the world. -/
structure DrvState (δ β W : Type) where
  dev : IoDev δ
  buf : β
  world : W

abbrev DrvM (δ β W α : Type) := EStateM Fault (DrvState δ β W) α

/-- `cb_error`: a message and the reply buffer to write it to. -/
abbrev CbError (β : Type) := List Char → β → β

/-- `dev_drv`. The out-parameter `value` of `read` is returned beside its result. -/
structure DevDrv (ω δ β W : Type) where
  init : Option (IoBus ω → DrvM δ β W Int)
  read : CbError β → IoBus ω → Value → DrvM δ β W (Int × Value)
  write : CbError β → IoBus ω → Value → DrvM δ β W Int
  deinit : Option (IoBus ω → DrvM δ β W Int)

structure Callbacks (β : Type) where
  success : IoData → β → β
  error : CbError β

inductive DrvCall where
  | read (idxBus idxDev : Int)
  | write (idxBus idxDev : Int)
  deriving DecidableEq, Repr

def DrvCall.indices : DrvCall → Int × Int
  | .read idxBus idxDev => (idxBus, idxDev)
  | .write idxBus idxDev => (idxBus, idxDev)

/-- The process while it serves a request. `calls` records the driver calls
made so far; the program never reads it. -/
structure Sys (ω δ β W : Type) where
  config : IoConfig ω δ
  buf : β
  world : W
  calls : List DrvCall

abbrev SysM (ω δ β W α : Type) := EStateM Fault (Sys ω δ β W) α

variable {ω δ β W α : Type}

/-- `config->busses + idx`, read or written through. -/
def busIndex (idx : Int) : SysM ω δ β W (Fin maxBusses) :=
  if h : 0 ≤ idx ∧ idx < maxBusses then
    pure ⟨idx.toNat, (Int.toNat_lt h.1).mpr h.2⟩
  else
    throw .outOfBounds

/-- `bus->devices + idx`, read or written through. -/
def devIndex (idx : Int) : SysM ω δ β W (Fin maxIoDevices) :=
  if h : 0 ≤ idx ∧ idx < maxIoDevices then
    pure ⟨idx.toNat, (Int.toNat_lt h.1).mpr h.2⟩
  else
    throw .outOfBounds

def Sys.drvState (s : Sys ω δ β W) (slot : Slot) : DrvState δ β W :=
  ⟨s.config.devices slot, s.buf, s.world⟩

def Sys.storeDrv (s : Sys ω δ β W) (slot : Slot) (t : DrvState δ β W) : Sys ω δ β W :=
  { s with config := s.config.setDev slot t.dev, buf := t.buf, world := t.world }

/-- Run a driver function on the device in `slot`. -/
def onDevice (slot : Slot) (act : IoBus ω → DrvM δ β W α) : SysM ω δ β W α := fun s =>
  match act (s.config.busses slot.1) (s.drvState slot) with
  | .ok a t => .ok a (s.storeDrv slot t)
  | .error e t => .error e (s.storeDrv slot t)

def noteCall (call : DrvCall) : SysM ω δ β W Unit :=
  modify fun s => { s with calls := s.calls ++ [call] }

/-- `((config->busses + idx_bus)->devices + idx_dev)->drv_handle->f(...)`. -/
def callDrv (table : δ → DevDrv ω δ β W) (idxBus idxDev : Int) (call : DrvCall)
    (f : DevDrv ω δ β W → IoBus ω → DrvM δ β W α) : SysM ω δ β W α := do
  let bus ← busIndex idxBus
  let dev ← devIndex idxDev
  let s ← get
  match (s.config.devices (bus, dev)).drvHandle with
  | none => throw .nullDeref
  | some handle => do
      noteCall call
      onDevice (bus, dev) (f (table handle))

def drvRead (table : δ → DevDrv ω δ β W) (cb : Callbacks β) (data : IoData) :
    SysM ω δ β W (Int × Value) :=
  callDrv table data.idxBus data.idxDev (.read data.idxBus data.idxDev)
    fun drv bus => drv.read cb.error bus data.value

def drvWrite (table : δ → DevDrv ω δ β W) (cb : Callbacks β) (data : IoData)
    (value : Value) : SysM ω δ β W Int :=
  callDrv table data.idxBus data.idxDev (.write data.idxBus data.idxDev)
    fun drv bus => drv.write cb.error bus value

def reportSuccess (cb : Callbacks β) (data : IoData) : SysM ω δ β W Unit :=
  modify fun s => { s with buf := cb.success data s.buf }

def reportError (cb : Callbacks β) (msg : String) : SysM ω δ β W Unit :=
  modify fun s => { s with buf := cb.error msg.toList s.buf }

/-- `1 << idx` on a 32-bit `int`: undefined unless `0 <= idx < 32`. The shift
into the sign bit is taken as the compiler defines it. -/
def shiftOne (idx : Int) : SysM ω δ β W Value :=
  if 0 ≤ idx ∧ idx < 32 then pure (1#32 <<< idx.toNat) else throw .badShift

/-- The last step of `CMD_WRITE`. -/
def writeValue (table : δ → DevDrv ω δ β W) (cb : Callbacks β) (data : IoData)
    (value : Value) : SysM ω δ β W (Int × IoData) := do
  let numWritten ← drvWrite table cb data value
  if numWritten > 0 then
    reportSuccess cb data
    return (exitSuccess, data)
  else
    return (exitSuccess, data)

/-- The `CMD_WRITE` branch of `perform_io`. -/
def performWrite (table : δ → DevDrv ω δ β W) (cb : Callbacks β) (data : IoData) :
    SysM ω δ β W (Int × IoData) :=
  if data.idxSubDev ≠ idxInvalid then do
    let (numRead, value) ← drvRead table cb data
    if numRead ≤ 0 then
      reportError cb "Could not read from device."
      return (exitFailure, data)
    else
      let bit ← shiftOne data.idxSubDev
      writeValue table cb data (if data.value ≠ 0 then value ||| bit else value &&& ~~~bit)
  else
    writeValue table cb data data.value

/-- The `CMD_READ` branch of `perform_io`. An index outside the value is
reported as an error, and then as a success all the same. -/
def performRead (table : δ → DevDrv ω δ β W) (cb : Callbacks β) (data : IoData) :
    SysM ω δ β W (Int × IoData) := do
  let (numRead, value) ← drvRead table cb data
  let data := { data with value := value }
  if numRead > 0 then
    if data.idxSubDev ≠ idxInvalid then
      if 0 ≤ data.idxSubDev ∧ data.idxSubDev < 32 then
        let data := { data with value := (data.value >>> data.idxSubDev.toNat) &&& 1 }
        reportSuccess cb data
        return (exitSuccess, data)
      else
        reportError cb "Invalid sub device-index given."
        reportSuccess cb data
        return (exitSuccess, data)
    else
      reportSuccess cb data
      return (exitSuccess, data)
  else
    return (exitSuccess, data)

/-- `perform_io`. The result is the return value and `*data` as it is left. -/
def performIo (table : δ → DevDrv ω δ β W) (cb : Callbacks β) (data : IoData)
    (cmd : IoCmd) : SysM ω δ β W (Int × IoData) := do
  let s ← get
  if data.idxBus = idxInvalid ∨ data.idxBus ≥ s.config.numBusses then
    reportError cb "Bus ID not existing."
    return (exitFailure, data)
  else if data.idxDev = idxInvalid then
    -- the first operand of the `||`: the bus is not looked up
    reportError cb "Device ID not existing."
    return (exitFailure, data)
  else
    let bus ← busIndex data.idxBus
    if data.idxDev ≥ (s.config.busses bus).numDevices then
      reportError cb "Device ID not existing."
      return (exitFailure, data)
    else
      match cmd with
      | .none => do
          reportError cb "Illegal command."
          return (exitFailure, data)
      | .write => performWrite table cb data
      | .read => performRead table cb data

end Switcher
