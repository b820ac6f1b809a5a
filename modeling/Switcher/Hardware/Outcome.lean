import Switcher.Hardware.Script

/-!
The driver calls against a script: how many calls each of them plans, and that
it reports success exactly if all of these pass.
-/

namespace Switcher

open Lib.Program Pfio

variable {β : Type} {p : Script} {handle : DevHandle}

section I2c

variable {fh : Int} {address : BitVec 8} (cbError : CbError β)

theorem exchange_scripted (args : Smbus) (t : DrvState DevHandle β (Env Playing)) :
    (exchange p.kernel cbError fh address args t).1 =
      p.transfers t.world.os.progress.transfers := by
  simp [exchange, Script.kernel]

theorem round_scripted (args : Smbus) (k : Playing) :
    round p.kernel fh address args k =
      ⟨{ k.progress with
          selections := k.progress.selections + 1
          transfers := k.progress.transfers + 1 },
        k.log ++ [decide (0 ≤ p.selections k.progress.selections),
          decide ((p.transfers k.progress.transfers).1 = 0)]⟩ := by
  simp [round, Script.kernel]

theorem exchange_attempt (hi2c : handle ≠ .piface) (args : Smbus)
    (t : DrvState DevHandle β (Env Playing)) :
    Attempt p handle 1 t.world.os (exchange p.kernel cbError fh address args t).2.world.os
      ((exchange p.kernel cbError fh address args t).1.1 = 0) := by
  have hone {P : Nat → Prop} : (∀ j < 1, P j) ↔ P 0 := by simp
  rw [exchange_world, exchange_scripted, round_scripted]
  cases handle with
  | piface => exact absurd rfl hi2c
  | pcf8574 =>
      refine ⟨?_, ⟨_, rfl, ?_⟩, fun _ => rfl⟩
      · rw [Script.AllPass, hone]
        exact Iff.rfl
      · rw [Script.AllSucceed, hone]
        simp [Script.Succeeds]
  | mcp23017 =>
      refine ⟨?_, ⟨_, rfl, ?_⟩, fun _ => rfl⟩
      · rw [Script.AllPass, hone]
        exact Iff.rfl
      · rw [Script.AllSucceed, hone]
        simp [Script.Succeeds]

theorem exchanges_attempt (hi2c : handle ≠ .piface) (plan : List Smbus)
    (t : DrvState DevHandle β (Env Playing)) :
    Attempt p handle plan.length t.world.os
      (exchanges p.kernel cbError fh address plan t).2.world.os
      ((exchanges p.kernel cbError fh address plan t).1.isSome = true) := by
  induction plan generalizing t with
  | nil => exact (Attempt.nothing _).imp (by simp [exchanges])
  | cons args rest ih =>
      have hfirst : Attempt p handle 1 t.world.os
          (exchange p.kernel cbError fh address args t).2.world.os _ :=
        exchange_attempt cbError hi2c args t
      rw [List.length_cons, Nat.add_comm]
      by_cases hok : (exchange p.kernel cbError fh address args t).1.1 = 0
      · rw [exchanges_cons_of_ok p.kernel hok]
        have hrest := hfirst.append (fun _ => ih _) (fun hnot => absurd hok hnot)
        exact hrest.imp (by simp [hok])
      · rw [exchanges_cons_of_fail p.kernel hok]
        exact (hfirst.stopped hok).imp (by simp)

/-- Making sure of the direction: two calls, or none. -/
theorem ensuredIo_attempt {cached desiredState : Mcp23017IoState} (hne : desiredState ≠ .none)
    (t : DrvState DevHandle β (Env Playing)) :
    Attempt p .mcp23017 (if cached = desiredState then 0 else 2) t.world.os
      (ensuredIo p.kernel cbError fh address cached desiredState t).2.world.os
      ((ensuredIo p.kernel cbError fh address cached desiredState t).1 = desiredState) := by
  have hplan : Attempt p .mcp23017 2 t.world.os
      (exchanges p.kernel cbError fh address (directionPlan desiredState)
        (t.setIoState .none)).2.world.os _ :=
    exchanges_attempt cbError (by simp) (directionPlan desiredState) (t.setIoState .none)
  rcases ensuredIo_cases p.kernel cbError fh address cached desiredState t with
    ⟨hcached, h⟩ | ⟨hcached, hok, h⟩ | ⟨hcached, hok, h⟩
  · rw [h, if_pos hcached]
    exact (Attempt.nothing _).imp (by simp)
  · rw [h, if_neg hcached]
    exact hplan.imp (by simp [hok])
  · rw [h, if_neg hcached]
    exact hplan.imp (by simp [hok, hne.symm])

end I2c

/-- A device that is completely set up, with the direction its driver believes
in where that matters. -/
inductive Operable (bus : IoBus BusHandle) (t : DrvState DevHandle β (Env Playing)) :
    DevHandle → Mcp23017IoState → Prop
  | pcf8574 {busData : I2cLinuxBusData} {devBusData : I2cLinuxDevData}
      {cached : Mcp23017IoState} (hdrv : t.dev.drvHandle = some .pcf8574)
      (hbus : bus.busData = some busData) (hdev : t.dev.devBusData = some devBusData) :
      Operable bus t .pcf8574 cached
  | mcp23017 {busData : I2cLinuxBusData} {devBusData : I2cLinuxDevData}
      {cached : Mcp23017IoState} (hdrv : t.dev.drvHandle = some .mcp23017)
      (hdata : t.dev.devData = some ⟨cached⟩)
      (hbus : bus.busData = some busData) (hdev : t.dev.devBusData = some devBusData) :
      Operable bus t .mcp23017 cached
  | piface {fd : Int} {cached : Mcp23017IoState} (hdrv : t.dev.drvHandle = some .piface)
      (hspi : t.world.spi = .live fd) : Operable bus t .piface cached

/-- The calls that an access in this direction plans. -/
def accessCount (handle : DevHandle) (cached desiredState : Mcp23017IoState) : Nat :=
  match handle with
  | .mcp23017 => (if cached = desiredState then 0 else 2) + 2
  | _ => 1

section Table

variable {bus : IoBus BusHandle} {t : DrvState DevHandle β (Env Playing)}
  {cached : Mcp23017IoState}

theorem spiTransfer_attempt {fd : Int} (hspi : t.world.spi = .live fd)
    (txbuffer : List (BitVec 8)) :
    ∃ rx t', spiTransfer p.kernel txbuffer t = .ok rx t' ∧
      Attempt p .piface 1 t.world.os t'.world.os True ∧ t'.world.spi = .live fd ∧
      t'.dev = t.dev := by
  have hfd : spiFd t = .ok fd t := by
    simp only [spiFd, run_bind, run_get, hspi, run_pure]
  refine ⟨_, _, (bind_of_ok hfd).trans (bind_of_ok (syscall_run _ t)), ?_, hspi, rfl⟩
  refine ⟨by simp [Script.AllPass, Script.Passes], ⟨_, rfl, ?_⟩, fun _ => rfl⟩
  simp [Script.AllSucceed, Script.Succeeds]

section I2cDrivers

variable {busData : I2cLinuxBusData} {devBusData : I2cLinuxDevData} (cbError : CbError β)
  (value : Value) (hbus : bus.busData = some busData) (hdev : t.dev.devBusData = some devBusData)
include hbus hdev

theorem pcf8574Read_attempt :
    ∃ result t', pcf8574Read p.kernel cbError bus value t = .ok result t' ∧
      Attempt p .pcf8574 1 t.world.os t'.world.os (0 < result.1) ∧ t'.dev = t.dev := by
  refine ⟨_, _, pcf8574Read_run p.kernel cbError value hbus hdev, ?_, exchange_dev ..⟩
  refine (exchange_attempt cbError (by simp) _ t).imp ?_
  split
  · simp [*]
  · simp [*]

theorem pcf8574Write_attempt :
    ∃ result t', pcf8574Write p.kernel cbError bus value t = .ok result t' ∧
      Attempt p .pcf8574 1 t.world.os t'.world.os (0 < result) := by
  refine ⟨_, _, pcf8574Write_run p.kernel cbError value hbus hdev, ?_⟩
  refine (exchange_attempt cbError (by simp) _ t).imp ?_
  split
  · simp [*]
  · simp [*]

variable (hdata : t.dev.devData = some ⟨cached⟩)
include hdata

/-- A read that reports success leaves the direction it needed in the cache. -/
theorem mcp23017Read_attempt :
    ∃ result t', mcp23017Read p.kernel cbError bus value t = .ok result t' ∧
      Attempt p .mcp23017 (accessCount .mcp23017 cached .read) t.world.os t'.world.os
        (0 < result.1) ∧
      t.dev.SameWiring t'.dev ∧ (0 < result.1 → t'.dev.devData = some ⟨.read⟩) := by
  have hrun := mcp23017Read_run p.kernel cbError hdata hbus hdev value
  have hensured : Attempt p .mcp23017 _ _ (ensuredIo p.kernel cbError busData.fh
      devBusData.address cached .read t).2.world.os _ := ensuredIo_attempt cbError (by simp) t
  have hcache := ensuredIo_devData p.kernel cbError busData.fh devBusData.address .read hdata
  have hwiring := ensuredIo_wiring p.kernel cbError busData.fh devBusData.address
    (by simp [hdata]) cached .read (t := t)
  simp only at hrun
  generalize ensuredIo p.kernel cbError busData.fh devBusData.address cached .read t = e
    at hrun hensured hcache hwiring
  by_cases hread : e.1 = .read
  · rw [if_pos hread] at hrun
    have hplan : Attempt p .mcp23017 2 _ (exchanges p.kernel cbError busData.fh
        devBusData.address inputPlan e.2).2.world.os _ :=
      exchanges_attempt cbError (by simp) inputPlan e.2
    refine ⟨_, _, hrun, (hensured.append (fun _ => hplan) (absurd hread)).imp ?_, ?_, ?_⟩
    · rcases exchanges_pair p.kernel cbError busData.fh devBusData.address
          (.readByteData Mcp23017.gpioa) (.readByteData Mcp23017.gpiob) e.2 with
        hnone | ⟨x, y, hsome⟩
      · simp [inputPlan, hnone]
      · simp [inputPlan, hsome, hread]
    · rw [exchanges_dev]
      exact hwiring
    · intro _
      rw [exchanges_dev, hcache, hread]
  · rw [if_neg hread] at hrun
    exact ⟨_, _, hrun, (hensured.stopped hread).imp (by simp), hwiring, by simp⟩

theorem mcp23017Write_attempt :
    ∃ result t', mcp23017Write p.kernel cbError bus value t = .ok result t' ∧
      Attempt p .mcp23017 (accessCount .mcp23017 cached .write) t.world.os t'.world.os
        (0 < result) := by
  have hrun := mcp23017Write_run p.kernel cbError hdata hbus hdev value
  have hensured : Attempt p .mcp23017 _ _ (ensuredIo p.kernel cbError busData.fh
      devBusData.address cached .write t).2.world.os _ := ensuredIo_attempt cbError (by simp) t
  simp only at hrun
  generalize ensuredIo p.kernel cbError busData.fh devBusData.address cached .write t = e
    at hrun hensured
  by_cases hwrite : e.1 = .write
  · rw [if_pos hwrite] at hrun
    have hplan : Attempt p .mcp23017 2 _ (exchanges p.kernel cbError busData.fh
        devBusData.address (outputPlan value) e.2).2.world.os _ :=
      exchanges_attempt cbError (by simp) (outputPlan value) e.2
    refine ⟨_, _, hrun, (hensured.append (fun _ => hplan) (absurd hwrite)).imp ?_⟩
    split
    · simp [*]
    · simp [*]
  · rw [if_neg hwrite] at hrun
    exact ⟨_, _, hrun, (hensured.stopped hwrite).imp (by simp)⟩

end I2cDrivers

/-- Reading a device: it reports success exactly if all its calls pass. -/
theorem read_attempt (h : Operable bus t handle cached) (cbError : CbError β) (value : Value) :
    ∃ result t', (devDrv p.kernel handle).read cbError bus value t = .ok result t' ∧
      Attempt p handle (accessCount handle cached .read) t.world.os t'.world.os
        (0 < result.1) ∧
      (0 < result.1 → Operable bus t' handle .read) := by
  cases h with
  | pcf8574 hdrv hbus hdev =>
      obtain ⟨result, t', hrun, hattempt, hsame⟩ :=
        pcf8574Read_attempt (p := p) cbError value hbus hdev
      rw [← hsame] at hdrv hdev
      exact ⟨result, t', hrun, hattempt, fun _ => .pcf8574 hdrv hbus hdev⟩
  | mcp23017 hdrv hdata hbus hdev =>
      obtain ⟨result, t', hrun, hattempt, hwiring, hcache⟩ :=
        mcp23017Read_attempt (p := p) cbError value hbus hdev hdata
      exact ⟨result, t', hrun, hattempt, fun hread => .mcp23017 (hwiring.drvHandle.trans hdrv)
        (hcache hread) hbus (hwiring.devBusData.trans hdev)⟩
  | piface hdrv hspi =>
      obtain ⟨rx, t', hrun, hattempt, hspi', hsame⟩ :=
        spiTransfer_attempt hspi [spiReadCmd, outputPort, 0xff]
      rw [← hsame] at hdrv
      exact ⟨_, t', bind_of_ok hrun, hattempt.imp (by simp), fun _ => .piface hdrv hspi'⟩

theorem write_attempt (h : Operable bus t handle cached) (cbError : CbError β) (value : Value) :
    ∃ result t', (devDrv p.kernel handle).write cbError bus value t = .ok result t' ∧
      Attempt p handle (accessCount handle cached .write) t.world.os t'.world.os
        (0 < result) := by
  cases h with
  | pcf8574 hdrv hbus hdev => exact pcf8574Write_attempt cbError value hbus hdev
  | mcp23017 hdrv hdata hbus hdev => exact mcp23017Write_attempt cbError value hbus hdev hdata
  | piface hdrv hspi =>
      obtain ⟨rx, t', hrun, hattempt, -⟩ :=
        spiTransfer_attempt (p := p) hspi [spiWriteCmd, outputPort, value.setWidth 8]
      have hwrite : pfioWriteOutput p.kernel (value.setWidth 8) t = .ok ⟨⟩ t' := bind_of_ok hrun
      exact ⟨1, t', bind_of_ok hwrite, hattempt.imp (by simp)⟩

end Table

end Switcher
