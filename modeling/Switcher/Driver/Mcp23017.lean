import Switcher.Driver.I2cLinux

/-!
`mcp23017.c`. The driver keeps the direction it last gave the chip in
`dev_data->io_state` and reconfigures the chip when it needs the other one.
-/

namespace Switcher

namespace Mcp23017

def iodira : BitVec 8 := 0x00
def iodirb : BitVec 8 := 0x01
def gpioa : BitVec 8 := 0x12
def gpiob : BitVec 8 := 0x13
def olata : BitVec 8 := 0x14
def olatb : BitVec 8 := 0x15

end Mcp23017

open Mcp23017 Lib.Program

variable {ω δ β κ : Type} (K : Kernel κ)

/-- `dev_data->io_state`. -/
def mcp23017IoState : DrvM δ β (Env κ) Mcp23017IoState := do
  let devData ← deref (← get).dev.devData
  return devData.ioState

/-- `dev_data->io_state = state`. -/
def mcp23017SetIoState (state : Mcp23017IoState) : DrvM δ β (Env κ) Unit := do
  let _ ← deref (← get).dev.devData
  modify fun s => { s with dev := { s.dev with devData := some ⟨state⟩ } }

def mcp23017Init (_bus : IoBus ω) : DrvM δ β (Env κ) Int := do
  if ← syscall K.malloc then
    modify fun s => { s with dev := { s.dev with devData := some ⟨.none⟩ } }
    return 0
  else
    modify fun s => { s with dev := { s.dev with devData := none } }
    return 1

def mcp23017ConfigureIo (cbError : CbError β) (bus : IoBus ω)
    (desiredState : Mcp23017IoState) : DrvM δ β (Env κ) Unit := do
  mcp23017SetIoState .none
  if desiredState ≠ .write ∧ desiredState ≠ .read then
    return ()
  else
    let ioStates : BitVec 8 := if desiredState = .write then 0x00 else 0xFF
    if (← i2cLinuxWriteByteData K cbError bus iodira ioStates) = 0 then
      if (← i2cLinuxWriteByteData K cbError bus iodirb ioStates) = 0 then
        mcp23017SetIoState desiredState

/-- The direction check that opens `mcp23017_write` and `mcp23017_read`: the
cached direction after it. -/
def mcp23017EnsureIo (cbError : CbError β) (bus : IoBus ω)
    (desiredState : Mcp23017IoState) : DrvM δ β (Env κ) Mcp23017IoState := do
  if (← mcp23017IoState) ≠ desiredState then
    mcp23017ConfigureIo K cbError bus desiredState
    mcp23017IoState
  else
    mcp23017IoState

def mcp23017Write (cbError : CbError β) (bus : IoBus ω) (value : Value) :
    DrvM δ β (Env κ) Int := do
  let states : BitVec 16 := value.setWidth 16
  if (← mcp23017EnsureIo K cbError bus .write) = .write then
    if (← i2cLinuxWriteByteData K cbError bus olata (states.setWidth 8)) = 0 then
      if (← i2cLinuxWriteByteData K cbError bus olatb
          (((states &&& 0xFF00) >>> 8).setWidth 8)) = 0 then
        return 1
      else
        return 0
    else
      return 0
  else
    drvError cbError "Could not configure given MCP23017 in write mode".toList
    return 0

def mcp23017Read (cbError : CbError β) (bus : IoBus ω) (value : Value) :
    DrvM δ β (Env κ) (Int × Value) := do
  if (← mcp23017EnsureIo K cbError bus .read) = .read then
    let (resultA, statesA) ← i2cLinuxReadByteData K cbError bus gpioa 0
    if resultA = 0 then
      let (resultB, statesB) ← i2cLinuxReadByteData K cbError bus gpiob 0
      if resultB = 0 then
        return (1, statesA.setWidth 32 ||| statesB.setWidth 32 <<< 8)
      else
        return (0, value)
    else
      return (0, value)
  else
    drvError cbError "Could not configure givem MCP23017 in read mode".toList
    return (0, value)

def mcp23017Deinit (_bus : IoBus ω) : DrvM δ β (Env κ) Int := do
  modify fun s => { s with dev := { s.dev with devData := none } }
  return 0

def mcp23017Drv : DevDrv ω δ β (Env κ) where
  init := some (mcp23017Init K)
  read := mcp23017Read K
  write := mcp23017Write K
  deinit := some mcp23017Deinit

/-- `dev_data->io_state` after an assignment. -/
def DrvState.setIoState (s : DrvState δ β (Env κ)) (state : Mcp23017IoState) :
    DrvState δ β (Env κ) :=
  { s with dev := { s.dev with devData := some ⟨state⟩ } }

@[simp] theorem setIoState_devBusData (s : DrvState δ β (Env κ)) (state : Mcp23017IoState) :
    (s.setIoState state).dev.devBusData = s.dev.devBusData := rfl

@[simp] theorem setIoState_devData (s : DrvState δ β (Env κ)) (state : Mcp23017IoState) :
    (s.setIoState state).dev.devData = some ⟨state⟩ := rfl

@[simp] theorem setIoState_world (s : DrvState δ β (Env κ)) (state : Mcp23017IoState) :
    (s.setIoState state).world = s.world := rfl

/-- The register writes that turn all pins the desired way. -/
def directionPlan (desiredState : Mcp23017IoState) : List Smbus :=
  let ioStates : BitVec 8 := if desiredState = .write then 0x00 else 0xFF
  [.writeByteData iodira ioStates, .writeByteData iodirb ioStates]

def outputPlan (value : Value) : List Smbus :=
  let states : BitVec 16 := value.setWidth 16
  [.writeByteData olata (states.setWidth 8),
    .writeByteData olatb (((states &&& 0xFF00) >>> 8).setWidth 8)]

def inputPlan : List Smbus := [.readByteData gpioa, .readByteData gpiob]

/-- The cached direction and the driver state after `mcp23017EnsureIo`, which
found `cached`. -/
def ensuredIo (cbError : CbError β) (fh : Int) (address : BitVec 8)
    (cached desiredState : Mcp23017IoState) (s : DrvState δ β (Env κ)) :
    Mcp23017IoState × DrvState δ β (Env κ) :=
  if cached = desiredState then
    (desiredState, s)
  else
    let (bytes, t) :=
      exchanges K cbError fh address (directionPlan desiredState) (s.setIoState .none)
    if bytes.isSome then (desiredState, t.setIoState desiredState) else (.none, t)

/-- The direction was cached already, or two register writes have set it, or one
of them failed. -/
theorem ensuredIo_cases (cbError : CbError β) (fh : Int) (address : BitVec 8)
    (cached desiredState : Mcp23017IoState) (s : DrvState δ β (Env κ)) :
    let e := ensuredIo K cbError fh address cached desiredState s
    let p := exchanges K cbError fh address (directionPlan desiredState) (s.setIoState .none)
    (cached = desiredState ∧ e = (desiredState, s)) ∨
      (cached ≠ desiredState ∧ p.1.isSome = true ∧
        e = (desiredState, p.2.setIoState desiredState)) ∨
      (cached ≠ desiredState ∧ p.1.isSome = false ∧ e = (.none, p.2)) := by
  intro e p
  by_cases hcached : cached = desiredState
  · exact .inl ⟨hcached, if_pos hcached⟩
  · have he : e = if p.1.isSome then (desiredState, p.2.setIoState desiredState)
        else (.none, p.2) := if_neg hcached
    cases hok : p.1.isSome with
    | true => exact .inr (.inl ⟨hcached, rfl, by rw [he, if_pos hok]⟩)
    | false => exact .inr (.inr ⟨hcached, rfl, by rw [he, hok]; rfl⟩)

@[simp] theorem ensuredIo_devBusData (cbError : CbError β) (fh : Int) (address : BitVec 8)
    (cached desiredState : Mcp23017IoState) (s : DrvState δ β (Env κ)) :
    (ensuredIo K cbError fh address cached desiredState s).2.dev.devBusData =
      s.dev.devBusData := by
  rcases ensuredIo_cases K cbError fh address cached desiredState s with
    ⟨-, h⟩ | ⟨-, -, h⟩ | ⟨-, -, h⟩
  · rw [h]
  · simp only [h, setIoState_devBusData, exchanges_dev]
  · simp only [h, exchanges_dev, setIoState_devBusData]

/-- The cached direction is the one returned. -/
theorem ensuredIo_devData (cbError : CbError β) (fh : Int) (address : BitVec 8)
    {cached : Mcp23017IoState} (desiredState : Mcp23017IoState) {s : DrvState δ β (Env κ)}
    (hdata : s.dev.devData = some ⟨cached⟩) :
    (ensuredIo K cbError fh address cached desiredState s).2.dev.devData =
      some ⟨(ensuredIo K cbError fh address cached desiredState s).1⟩ := by
  rcases ensuredIo_cases K cbError fh address cached desiredState s with
    ⟨hcached, h⟩ | ⟨-, -, h⟩ | ⟨-, -, h⟩
  · rw [h, ← hcached]
    exact hdata
  · simp only [h, setIoState_devData]
  · simp only [h, exchanges_dev, setIoState_devData]

section Run

variable {bus : IoBus ω} {busData : I2cLinuxBusData} {devBusData : I2cLinuxDevData}
  {cached : Mcp23017IoState} {s : DrvState δ β (Env κ)} (cbError : CbError β)

theorem mcp23017IoState_run (hdata : s.dev.devData = some ⟨cached⟩) :
    mcp23017IoState s = .ok cached s := by
  simp only [mcp23017IoState, run_bind, run_get, hdata, deref_some, run_pure]

theorem mcp23017SetIoState_run (hdata : s.dev.devData = some ⟨cached⟩)
    (state : Mcp23017IoState) :
    mcp23017SetIoState state s = .ok ⟨⟩ (s.setIoState state) := by
  simp only [mcp23017SetIoState, run_bind, run_get, hdata, deref_some, run_pure, run_modify]
  rfl

variable (hdata : s.dev.devData = some ⟨cached⟩) (hbus : bus.busData = some busData)
  (hdev : s.dev.devBusData = some devBusData)
include hdata hbus hdev

theorem mcp23017ConfigureIo_run {desiredState : Mcp23017IoState} (hne : desiredState ≠ .none) :
    mcp23017ConfigureIo K cbError bus desiredState s =
      .ok ⟨⟩ (if (exchanges K cbError busData.fh devBusData.address
            (directionPlan desiredState) (s.setIoState .none)).1.isSome then
          (exchanges K cbError busData.fh devBusData.address (directionPlan desiredState)
            (s.setIoState .none)).2.setIoState desiredState
        else
          (exchanges K cbError busData.fh devBusData.address (directionPlan desiredState)
            (s.setIoState .none)).2) := by
  have hknown : ¬ (desiredState ≠ .write ∧ desiredState ≠ .read) := by
    cases desiredState with
    | none => exact absurd rfl hne
    | read => simp
    | write => simp
  have hdev' : (s.setIoState .none).dev.devBusData = some devBusData := hdev
  have hpair := i2cLinuxTransmit_pair K cbError
    (.writeByteData iodira (if desiredState = .write then 0x00 else 0xFF))
    (.writeByteData iodirb (if desiredState = .write then 0x00 else 0xFF))
    (mcp23017SetIoState desiredState) (pure ()) hbus hdev'
  unfold mcp23017ConfigureIo i2cLinuxWriteByteData
  rw [bind_of_ok (mcp23017SetIoState_run hdata .none), if_neg hknown]
  refine hpair.trans ?_
  by_cases hok : (exchanges K cbError busData.fh devBusData.address
      (directionPlan desiredState) (s.setIoState .none)).1.isSome
  · have hdata' : (exchanges K cbError busData.fh devBusData.address
        (directionPlan desiredState) (s.setIoState .none)).2.dev.devData = some ⟨.none⟩ := by
      rw [exchanges_dev]
      rfl
    rw [if_pos hok]
    simp only [directionPlan] at hok hdata' ⊢
    rw [if_pos hok]
    exact mcp23017SetIoState_run hdata' desiredState
  · rw [if_neg hok]
    simp only [directionPlan] at hok ⊢
    rw [if_neg hok]
    rfl

theorem mcp23017EnsureIo_run {desiredState : Mcp23017IoState} (hne : desiredState ≠ .none) :
    mcp23017EnsureIo K cbError bus desiredState s =
      .ok (ensuredIo K cbError busData.fh devBusData.address cached desiredState s).1
        (ensuredIo K cbError busData.fh devBusData.address cached desiredState s).2 := by
  unfold mcp23017EnsureIo
  rw [bind_of_ok (mcp23017IoState_run hdata)]
  rcases ensuredIo_cases K cbError busData.fh devBusData.address cached desiredState s with
    ⟨hcached, h⟩ | ⟨hcached, hok, h⟩ | ⟨hcached, hok, h⟩
  · rw [if_neg (not_not_intro hcached), h, ← hcached]
    exact mcp23017IoState_run hdata
  · rw [if_pos hcached, bind_of_ok (mcp23017ConfigureIo_run K cbError hdata hbus hdev hne), h,
      if_pos hok]
    exact mcp23017IoState_run rfl
  · rw [if_pos hcached, bind_of_ok (mcp23017ConfigureIo_run K cbError hdata hbus hdev hne), h,
      if_neg (by simp [hok])]
    exact mcp23017IoState_run (by rw [exchanges_dev]; rfl)

/-- `mcp23017_write` as the transfers it issues. -/
theorem mcp23017Write_run (value : Value) :
    let e := ensuredIo K cbError busData.fh devBusData.address cached .write s
    let p := exchanges K cbError busData.fh devBusData.address (outputPlan value) e.2
    mcp23017Write K cbError bus value s =
      if e.1 = .write then
        .ok (if p.1.isSome then 1 else 0) p.2
      else
        .ok 0 (e.2.report cbError
          "Could not configure given MCP23017 in write mode".toList) := by
  have hdev' : (ensuredIo K cbError busData.fh devBusData.address cached .write
      s).2.dev.devBusData = some devBusData := by simpa using hdev
  simp only
  unfold mcp23017Write i2cLinuxWriteByteData
  rw [bind_of_ok (mcp23017EnsureIo_run K cbError hdata hbus hdev (by simp))]
  by_cases hwrite : (ensuredIo K cbError busData.fh devBusData.address cached .write s).1 = .write
  · rw [if_pos hwrite, if_pos hwrite]
    refine (i2cLinuxTransmit_pair K cbError _ _ (pure 1) (pure 0) hbus hdev').trans ?_
    exact run_ite_pure _ _ _ _
  · rw [if_neg hwrite, if_neg hwrite]
    rfl

/-- `mcp23017_read` as the transfers it issues. -/
theorem mcp23017Read_run (value : Value) :
    let e := ensuredIo K cbError busData.fh devBusData.address cached .read s
    let p := exchanges K cbError busData.fh devBusData.address inputPlan e.2
    mcp23017Read K cbError bus value s =
      if e.1 = .read then
        .ok (match p.1 with
          | some [statesA, statesB] =>
              (1, statesA.setWidth 32 ||| statesB.setWidth 32 <<< 8)
          | _ => (0, value)) p.2
      else
        .ok (0, value) (e.2.report cbError
          "Could not configure givem MCP23017 in read mode".toList) := by
  have hdev' : (ensuredIo K cbError busData.fh devBusData.address cached .read
      s).2.dev.devBusData = some devBusData := by simpa using hdev
  simp only
  unfold mcp23017Read i2cLinuxReadByteData
  rw [bind_of_ok (mcp23017EnsureIo_run K cbError hdata hbus hdev (by simp))]
  by_cases hread : (ensuredIo K cbError busData.fh devBusData.address cached .read s).1 = .read
  · rw [if_pos hread, if_pos hread]
    refine (i2cLinuxReceive_pair K cbError (.readByteData gpioa) (.readByteData gpiob)
      (fun statesA statesB => pure ((1 : Int), statesA.setWidth 32 ||| statesB.setWidth 32 <<< 8))
      (pure (0, value)) hbus hdev').trans ?_
    unfold inputPlan
    generalize exchanges K cbError busData.fh devBusData.address
      [.readByteData gpioa, .readByteData gpiob] _ = p
    obtain ⟨_ | ⟨_ | ⟨a, _ | ⟨b, _ | ⟨c, rest⟩⟩⟩⟩, t⟩ := p
    all_goals rfl
  · rw [if_neg hread, if_neg hread]
    rfl

end Run

end Switcher
