import Switcher.Driver.I2cLinuxBus

/-!
`parse_config.c`. The handler never sees a section header: it moves its two
cursors when the section name of an entry differs from the one before, and it
uses them as they are, so that an access through a cursor outside the tables is
undefined.
-/

namespace Switcher

open Lib.Program Lib.Interleaving Lib.Text

/-- What `ini_parse` passes to its handler. -/
structure IniEntry where
  sectionName : CString
  name : CString
  value : CString

/-- A line of a configuration file, as far as `ini_parse` tells its caller. -/
inductive IniLine where
  | entry (e : IniEntry)
  | malformed
  | other

/-- `bus_configs`, and the world that the hooks of bus drivers run in. -/
structure BusConfigs (κ : Type) where
  config : IoConfig BusHandle DevHandle
  lastSection : List Char
  currentBusId : Int
  currentDevId : Int
  world : Env κ

abbrev ParserM (κ α : Type) := EStateM Fault (BusConfigs κ) α

def maxIniEntryLen : Nat := 128

/-- `MAX_PARAM_LEN`. -/
def maxParamLen : Nat := 32

def iniBus : List Char := "bus".toList
def iniBusType : List Char := "bus_type".toList
def iniBusTypeI2c : List Char := "i2c".toList
def iniDev : List Char := "device".toList
def iniDevDrv : List Char := "devdrv".toList
def iniBusParam : List Char := "bus_parameter".toList
def iniDevParam : List Char := "dev_parameter".toList
def iniDrvPcf8574 : List Char := "pcf8574".toList
def iniDrvPiface : List Char := "piface".toList
def iniDrvMcp23017 : List Char := "mcp23017".toList

variable {κ : Type} (K : Kernel κ)

/-- An element of a table, read or written through a cursor. -/
def atCursor (size : Nat) (cursor : Int) : ParserM κ (Fin size) :=
  if h : 0 ≤ cursor ∧ cursor < size then
    pure ⟨cursor.toNat, (Int.toNat_lt h.1).mpr h.2⟩
  else
    throw .outOfBounds

def updateUserData (sectionName : CString) : ParserM κ Unit := do
  let userData ← get
  if ¬ StrncmpEq userData.lastSection sectionName.chars maxIniEntryLen then
    if StrncmpEq sectionName.chars iniBus iniBus.length then
      modify fun s => { s with currentBusId := s.currentBusId + 1, currentDevId := -1 }
    else if StrncmpEq sectionName.chars iniDev iniDev.length then
      modify fun s => { s with currentDevId := s.currentDevId + 1 }
  modify fun s =>
    { s with
      lastSection := strncpy sectionName maxIniEntryLen
      config := { s.config with numBusses := s.currentBusId + 1 } }

def setBus (b : Fin maxBusses) (bus : IoBus BusHandle) (w : Env κ) : ParserM κ Unit :=
  modify fun s => { s with config := s.config.setBus b bus, world := w }

def setDev (slot : Slot) (dev : IoDev DevHandle) (w : Env κ) : ParserM κ Unit :=
  modify fun s => { s with config := s.config.setDev slot dev, world := w }

/-- The `bus_parameter` branch of `process_entries`. -/
def busParameter (value : CString) : ParserM κ Unit := do
  let userData ← get
  let b ← atCursor maxBusses userData.currentBusId
  let bus := userData.config.busses b
  match bus.drvHandle.bind fun handle => (busDrv K handle).getBusData with
  | none => pure ()
  | some getBusData =>
      let (data, w) := getBusData value userData.world
      setBus b { bus with busData := data } w

/-- The `bus_type` branch of `process_entries`. -/
def busType (value : CString) : ParserM κ Unit := do
  if StrncmpEq value.chars iniBusTypeI2c maxParamLen then
    let userData ← get
    let b ← atCursor maxBusses userData.currentBusId
    setBus b { userData.config.busses b with drvHandle := some .i2cLinux } userData.world

/-- The driver that a value of `devdrv` names. -/
def namedDriver (value : CString) : Option DevHandle :=
  if StrncmpEq value.chars iniDrvPcf8574 maxIniEntryLen then some .pcf8574
  else if StrncmpEq value.chars iniDrvPiface maxIniEntryLen then some .piface
  else if StrncmpEq value.chars iniDrvMcp23017 maxIniEntryLen then some .mcp23017
  else none

/-- `current_bus->devices + current_dev_id`. -/
def currentDev : ParserM κ Slot := do
  let userData ← get
  let b ← atCursor maxBusses userData.currentBusId
  let d ← atCursor maxIoDevices userData.currentDevId
  return (b, d)

def storeDriver : Option DevHandle → ParserM κ Unit
  | none => pure ()
  | some handle => do
      let slot ← currentDev
      let userData ← get
      setDev slot { userData.config.devices slot with drvHandle := some handle } userData.world

/-- `current_bus->num_devices += 1`. -/
def countDevice : ParserM κ Unit := do
  let userData ← get
  let b ← atCursor maxBusses userData.currentBusId
  let bus := userData.config.busses b
  setBus b { bus with numDevices := bus.numDevices + 1 } userData.world

/-- The `devdrv` branch of `process_entries`: the device is counted whether its
driver is known or not. -/
def devDriver (value : CString) : ParserM κ Unit := do
  storeDriver (namedDriver value)
  countDevice

/-- The `dev_parameter` branch of `process_entries`. -/
def devParameter (value : CString) : ParserM κ Unit := do
  let userData ← get
  let b ← atCursor maxBusses userData.currentBusId
  match (userData.config.busses b).drvHandle.bind fun handle =>
      (busDrv K handle).getBusDevData with
  | none => pure ()
  | some getBusDevData => do
      let slot ← currentDev
      let (data, w) := getBusDevData value userData.world
      setDev slot { userData.config.devices slot with devBusData := data } w

def processEntries (name value : CString) : ParserM κ Int := do
  if StrncmpEq name.chars iniBusParam maxIniEntryLen then
    busParameter K value
    return 1
  else if StrncmpEq name.chars iniBusType maxIniEntryLen then
    busType value
    return 1
  else if StrncmpEq name.chars iniDevDrv maxIniEntryLen then
    devDriver value
    return 1
  else if StrncmpEq name.chars iniDevParam maxIniEntryLen then
    devParameter K value
    return 1
  else
    return 0

def parserHandler (e : IniEntry) : ParserM κ Int := do
  updateUserData e.sectionName
  processEntries K e.name e.value

/-- `ini_parse_file` as its header documents it: the line number of the first
error, behind which it goes on. -/
def iniParseFile (lineno error : Int) : List IniLine → ParserM κ Int
  | [] => pure error
  | line :: rest => do
      let lineno := lineno + 1
      let failed ← match line with
        | .entry e => do
            let rc ← parserHandler K e
            pure (decide (rc = 0))
        | .malformed => pure true
        | .other => pure false
      iniParseFile lineno (if failed ∧ error = 0 then lineno else error) rest

/-- `ini_parse`. The file is `none` where it cannot be opened. -/
def iniParse : Option (List IniLine) → ParserM κ Int
  | none => pure (-1)
  | some lines => iniParseFile K 0 0 lines

def validateConfig (_config : IoConfig BusHandle DevHandle) : Int := exitSuccess

/-- `user_data` as `parse_config` sets it up. -/
def userData (config : IoConfig BusHandle DevHandle) (w : Env κ) : BusConfigs κ :=
  ⟨config, List.replicate maxIniEntryLen nul, -1, -1, w⟩

def parseConfig (file : Option (List IniLine)) : ParserM κ Int := do
  if (← iniParse K file) < 0 then return exitFailure else return exitSuccess

end Switcher
