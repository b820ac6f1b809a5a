import Switcher.Driver.I2cLinuxBus
import Switcher.Lib.Resource

/-!
The drivers with a record of what the PiFace driver does to the pointer `spi`.
The drivers run as they are, on their own part of the world; only the calls of
`pfio.c` and the results of `pfio_init` are written down beside it.
-/

namespace Switcher

open Lib.Program Lib.Resource

structure Watched (κ : Type) where
  env : Env κ
  log : List Call

variable {ω δ β κ α : Type}

def watch (act : DrvM δ β (Env κ) α) : DrvM δ β (Watched κ) α := fun s =>
  match act ⟨s.dev, s.buf, s.world.env⟩ with
  | .ok a t => .ok a ⟨t.dev, t.buf, { s.world with env := t.world }⟩
  | .error e t => .error e ⟨t.dev, t.buf, { s.world with env := t.world }⟩

def watchBus (act : BusM (Env κ) α) : BusM (Watched κ) α := fun s =>
  match act ⟨s.busData, s.world.env⟩ with
  | .ok a t => .ok a ⟨t.busData, { s.world with env := t.world }⟩
  | .error e t => .error e ⟨t.busData, { s.world with env := t.world }⟩

def watchData (f : CString → Env κ → Option α × Env κ) (parameter : CString) (w : Watched κ) :
    Option α × Watched κ :=
  ((f parameter w.env).1, { w with env := (f parameter w.env).2 })

def noteSpi (call : Call) : DrvM δ β (Watched κ) Unit :=
  modify fun s => { s with world := { s.world with log := s.world.log ++ [call] } }

/-- A driver that has nothing to do with `pfio.c`. -/
def DevDrv.watched (drv : DevDrv ω δ β (Env κ)) : DevDrv ω δ β (Watched κ) where
  init := drv.init.map fun init bus => watch (init bus)
  read cbError bus value := watch (drv.read cbError bus value)
  write cbError bus value := watch (drv.write cbError bus value)
  deinit := drv.deinit.map fun deinit bus => watch (deinit bus)

def BusDrv.watched (drv : BusDrv (Env κ)) : BusDrv (Watched κ) where
  getBusData := drv.getBusData.map watchData
  getBusDevData := drv.getBusDevData.map watchData
  openBus := drv.openBus.map watchBus
  closeBus := drv.closeBus.map watchBus

variable (K : Kernel κ)

/-- `dev_piface.c`, with its calls of `pfio_init`, `pfio_read_output`,
`pfio_write_output` and `pfio_deinit` written down. -/
def watchedPiface : DevDrv ω δ β (Watched κ) where
  init := some fun bus => do
    noteSpi .acquire
    let rc ← watch (pifaceInit K bus)
    noteSpi (.acquired (rc = exitSuccess))
    return rc
  read cbError bus value := do
    noteSpi .use
    watch (pifaceRead K cbError bus value)
  write cbError bus value := do
    noteSpi .use
    watch (pifaceWrite K cbError bus value)
  deinit := some fun bus => do
    noteSpi .release
    watch (pifaceDeinit K bus)

def watchedDrv : DevHandle → DevDrv BusHandle DevHandle β (Watched κ)
  | .piface => watchedPiface K
  | handle => (devDrv K handle).watched

def watchedBusDrv (handle : BusHandle) : BusDrv (Watched κ) := (busDrv K handle).watched

section Watches

def DrvState.unwatched (t : DrvState δ β (Watched κ)) : DrvState δ β (Env κ) :=
  ⟨t.dev, t.buf, t.world.env⟩

/-- The two functions do the same, apart from the record. -/
def Watches (act : DrvM δ β (Watched κ) α) (act' : DrvM δ β (Env κ) α) : Prop :=
  ∀ t, (∀ a u, act t = .ok a u → act' t.unwatched = .ok a u.unwatched) ∧
    ∀ e u, act t = .error e u → act' t.unwatched = .error e u.unwatched

theorem watch_watches (act : DrvM δ β (Env κ) α) : Watches (watch act) act := by
  intro t
  unfold watch DrvState.unwatched
  cases hrun : act ⟨t.dev, t.buf, t.world.env⟩ with
  | ok a u =>
      constructor
      · intro a' u' h
        obtain ⟨rfl, rfl⟩ := EStateM.Result.ok.inj h
        rfl
      · intro e u' h
        cases h
  | error e u =>
      constructor
      · intro a u' h
        cases h
      · intro e' u' h
        obtain ⟨rfl, rfl⟩ := EStateM.Result.error.inj h
        rfl

theorem Watches.noteSpi {act : DrvM δ β (Watched κ) α} {act' : DrvM δ β (Env κ) α}
    (h : Watches act act') (call : Call) : Watches (Switcher.noteSpi call >>= fun _ => act) act' :=
  fun _ => h _

/-- A call written down behind a function. -/
theorem Watches.thenNote {act : DrvM δ β (Watched κ) α} {act' : DrvM δ β (Env κ) α}
    (h : Watches act act') (call : α → Call) :
    Watches (act >>= fun a => Switcher.noteSpi (call a) >>= fun _ => pure a) act' := by
  intro t
  obtain ⟨hok, herror⟩ := h t
  cases hrun : act t with
  | ok a u =>
      rw [bind_of_ok hrun]
      constructor
      · intro a' u' h'
        obtain ⟨rfl, rfl⟩ := EStateM.Result.ok.inj h'
        exact hok a u hrun
      · intro e u' h'
        cases h'
  | error e u =>
      rw [bind_of_error hrun]
      constructor
      · intro a u' h'
        cases h'
      · intro e' u' h'
        obtain ⟨rfl, rfl⟩ := EStateM.Result.error.inj h'
        exact herror e u hrun

/-- Watching the drivers changes nothing of what they do. -/
theorem watchedDrv_watches (handle : DevHandle) (cbError : CbError β) (bus : IoBus BusHandle)
    (value : Value) :
    Watches ((watchedDrv K handle).read cbError bus value)
        ((devDrv K handle).read cbError bus value) ∧
      Watches ((watchedDrv K handle).write cbError bus value)
        ((devDrv K handle).write cbError bus value) := by
  cases handle with
  | pcf8574 => exact ⟨watch_watches _, watch_watches _⟩
  | mcp23017 => exact ⟨watch_watches _, watch_watches _⟩
  | piface => exact ⟨(watch_watches _).noteSpi .use, (watch_watches _).noteSpi .use⟩

/-- The hooks that are there are the same as well. -/
theorem watchedDrv_hooks (handle : DevHandle) (bus : IoBus BusHandle) :
    Option.Rel Watches (((watchedDrv K handle).init (β := β)).map (· bus))
        ((devDrv K handle).init.map (· bus)) ∧
      Option.Rel Watches (((watchedDrv K handle).deinit (β := β)).map (· bus))
        ((devDrv K handle).deinit.map (· bus)) := by
  cases handle with
  | pcf8574 => exact ⟨.none, .none⟩
  | mcp23017 => exact ⟨.some (watch_watches _), .some (watch_watches _)⟩
  | piface =>
      refine ⟨.some ?_, .some ((watch_watches _).noteSpi .release)⟩
      exact ((watch_watches _).thenNote fun rc => .acquired (rc = exitSuccess)).noteSpi .acquire

end Watches

section Untouched

/-- The pointer `spi` and the driver of the device are as they were. -/
structure Untouched (spi : SpiHandle) (handle : Option δ) (t : DrvState δ β (Env κ)) : Prop where
  spi : t.world.spi = spi
  drvHandle : t.dev.drvHandle = handle

variable {K} {spi : SpiHandle} {handle : Option δ} {cbError : CbError β} {bus : IoBus ω}

theorem syscall_untouched (f : κ → α × κ) :
    Keeps (Untouched spi handle) (syscall f : DrvM δ β (Env κ) α) :=
  fun _ h => ⟨h.spi, h.drvHandle⟩

theorem deref_untouched (p : Option α) :
    Keeps (Untouched spi handle) (deref p : DrvM δ β (Env κ) α) := by
  cases p with
  | none => exact Keeps.throw _
  | some a => exact Keeps.pure a

theorem setDevData_untouched (devData : Option Mcp23017Data) :
    Keeps (Untouched spi handle)
      (modify fun s => { s with dev := { s.dev with devData := devData } } :
        DrvM δ β (Env κ) Unit) :=
  Keeps.modified fun _ h => ⟨h.spi, h.drvHandle⟩

theorem drvError_untouched (msg : List Char) :
    Keeps (Untouched spi handle) (drvError cbError msg : DrvM δ β (Env κ) Unit) :=
  Keeps.modified fun _ h => ⟨h.spi, h.drvHandle⟩

theorem i2cLinuxSetAddr_untouched :
    Keeps (Untouched spi handle) (i2cLinuxSetAddr K cbError bus : DrvM δ β (Env κ) Int) := by
  refine (deref_untouched _).bind fun busData => Keeps.get.bind fun s => ?_
  refine (deref_untouched _).bind fun devBusData => (syscall_untouched _).bind fun rc => ?_
  apply Keeps.ite
  · exact Keeps.get.bind fun _ => (drvError_untouched _).bind fun _ => Keeps.pure _
  · exact Keeps.pure _

theorem i2cLinuxTransmit_untouched (args : Smbus) :
    Keeps (Untouched spi handle)
      (i2cLinuxTransmit K cbError bus args : DrvM δ β (Env κ) Int) := by
  refine i2cLinuxSetAddr_untouched.bind fun _ => (deref_untouched _).bind fun busData => ?_
  exact (syscall_untouched _).bind fun _ => Keeps.pure _

theorem i2cLinuxReceive_untouched (args : Smbus) (value : BitVec 8) :
    Keeps (Untouched spi handle)
      (i2cLinuxReceive K cbError bus args value : DrvM δ β (Env κ) (Int × BitVec 8)) := by
  have hread (fh : Int) :
      Keeps (Untouched spi handle) (i2cSmbusRead K fh args : DrvM δ β (Env κ) Int) :=
    (syscall_untouched _).bind fun _ => Keeps.ite (Keeps.pure _) (Keeps.pure _)
  refine i2cLinuxSetAddr_untouched.bind fun _ => (deref_untouched _).bind fun busData => ?_
  exact (hread _).bind fun _ => Keeps.ite (Keeps.pure _) (Keeps.pure _)

theorem mcp23017IoState_untouched :
    Keeps (Untouched spi handle) (mcp23017IoState : DrvM δ β (Env κ) Mcp23017IoState) :=
  Keeps.get.bind fun _ => (deref_untouched _).bind fun _ => Keeps.pure _

theorem mcp23017SetIoState_untouched (state : Mcp23017IoState) :
    Keeps (Untouched spi handle) (mcp23017SetIoState state : DrvM δ β (Env κ) Unit) :=
  Keeps.get.bind fun _ => (deref_untouched _).bind fun _ => setDevData_untouched _

theorem mcp23017ConfigureIo_untouched (desiredState : Mcp23017IoState) :
    Keeps (Untouched spi handle)
      (mcp23017ConfigureIo K cbError bus desiredState : DrvM δ β (Env κ) Unit) := by
  refine (mcp23017SetIoState_untouched _).bind fun _ => Keeps.ite (Keeps.pure _) ?_
  refine (i2cLinuxTransmit_untouched _).bind fun rcA => Keeps.ite ?_ (Keeps.pure _)
  refine (i2cLinuxTransmit_untouched _).bind fun rcB => Keeps.ite ?_ (Keeps.pure _)
  exact mcp23017SetIoState_untouched _

theorem mcp23017EnsureIo_untouched (desiredState : Mcp23017IoState) :
    Keeps (Untouched spi handle)
      (mcp23017EnsureIo K cbError bus desiredState : DrvM δ β (Env κ) Mcp23017IoState) := by
  refine mcp23017IoState_untouched.bind fun state => Keeps.ite ?_ mcp23017IoState_untouched
  exact (mcp23017ConfigureIo_untouched _).bind fun _ => mcp23017IoState_untouched

theorem mcp23017Write_untouched (value : Value) :
    Keeps (Untouched spi handle)
      (mcp23017Write K cbError bus value : DrvM δ β (Env κ) Int) := by
  refine (mcp23017EnsureIo_untouched _).bind fun state => Keeps.ite ?_ ?_
  · refine (i2cLinuxTransmit_untouched _).bind fun rcA => Keeps.ite ?_ (Keeps.pure _)
    exact (i2cLinuxTransmit_untouched _).bind fun _ => Keeps.ite (Keeps.pure _) (Keeps.pure _)
  · exact (drvError_untouched _).bind fun _ => Keeps.pure _

theorem mcp23017Read_untouched (value : Value) :
    Keeps (Untouched spi handle)
      (mcp23017Read K cbError bus value : DrvM δ β (Env κ) (Int × Value)) := by
  refine (mcp23017EnsureIo_untouched _).bind fun state => Keeps.ite ?_ ?_
  · refine (i2cLinuxReceive_untouched _ _).bind fun portA => Keeps.ite ?_ (Keeps.pure _)
    exact (i2cLinuxReceive_untouched _ _).bind fun _ => Keeps.ite (Keeps.pure _) (Keeps.pure _)
  · exact (drvError_untouched _).bind fun _ => Keeps.pure _

theorem mcp23017Init_untouched (bus : IoBus ω) :
    Keeps (Untouched spi handle) (mcp23017Init K bus : DrvM δ β (Env κ) Int) := by
  refine (syscall_untouched _).bind fun ok => Keeps.ite ?_ ?_
  · exact (setDevData_untouched _).bind fun _ => Keeps.pure _
  · exact (setDevData_untouched _).bind fun _ => Keeps.pure _

theorem spiTransfer_untouched (txbuffer : List (BitVec 8)) :
    Keeps (Untouched spi handle)
      (spiTransfer K txbuffer : DrvM δ β (Env κ) (BitVec 8)) := by
  have hfd : Keeps (Untouched spi handle) (spiFd : DrvM δ β (Env κ) Int) := by
    refine Keeps.get.bind fun s => ?_
    cases s.world.spi with
    | null => exact Keeps.throw _
    | live fd => exact Keeps.pure fd
    | freed => exact Keeps.throw _
  exact hfd.bind fun _ => (syscall_untouched _).bind fun _ => Keeps.pure _

/-- No driver reads or writes a device in a way that touches the pointer, and none
ever replaces the driver of a device. -/
theorem devDrv_untouched (K : Kernel κ) (handle' : DevHandle) (cbError : CbError β)
    (bus : IoBus BusHandle) (value : Value) (spi : SpiHandle) (handle : Option DevHandle) :
    Keeps (Untouched spi handle) ((devDrv K handle').read cbError bus value) ∧
      Keeps (Untouched spi handle) ((devDrv K handle').write cbError bus value) := by
  cases handle' with
  | pcf8574 =>
      exact ⟨(i2cLinuxReceive_untouched _ _).bind fun _ => Keeps.pure _,
        (i2cLinuxTransmit_untouched _).bind fun _ => Keeps.pure _⟩
  | mcp23017 => exact ⟨mcp23017Read_untouched value, mcp23017Write_untouched value⟩
  | piface =>
      exact ⟨(spiTransfer_untouched _).bind fun _ => Keeps.pure _,
        ((spiTransfer_untouched _).bind fun _ => Keeps.pure _).bind fun _ => Keeps.pure _⟩

theorem busPtr_keeps {I : BusState (Env κ) → Prop} : Keeps I busPtr := by
  refine Keeps.get.bind fun t => ?_
  cases t.busData with
  | none => exact Keeps.throw _
  | some data => exact Keeps.pure data

theorem i2cLinuxOpen_spi (spi : SpiHandle) :
    Keeps (fun t => t.world.spi = spi) (i2cLinuxOpen K) := by
  refine busPtr_keeps.bind fun data => Keeps.ite (Keeps.throw _) ?_
  have hopen : Keeps (fun t : BusState (Env κ) => t.world.spi = spi)
      (busCall (K.openFile data.device)) := fun _ h => h
  have hstore (fh : Int) : Keeps (fun t : BusState (Env κ) => t.world.spi = spi)
      (modify fun s => { s with busData := some { data with fh := fh } } : BusM (Env κ) Unit) :=
    Keeps.modified fun _ h => h
  exact hopen.bind fun fh => (hstore fh).bind fun _ => Keeps.pure _

theorem i2cLinuxClose_spi (spi : SpiHandle) :
    Keeps (fun t => t.world.spi = spi) (i2cLinuxClose K) := by
  refine busPtr_keeps.bind fun data => ?_
  have hclose : Keeps (fun t : BusState (Env κ) => t.world.spi = spi)
      (busCall (K.closeFile data.fh)) := fun _ h => h
  exact hclose.bind fun _ => Keeps.pure _

end Untouched

end Switcher
