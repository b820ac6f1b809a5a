import Switcher.Service.Bounds
import Switcher.Service.Shutdown

/-!
The one pointer `spi` that all PiFace devices share. `io_init` drops the result of
`pfio_init`, and `signal_handler` calls `pfio_deinit` for every PiFace device of
the configuration, whatever has been initialised so far.
-/

namespace Switcher

open Lib.Program Lib.Interleaving Lib.History Lib.Resource

variable {β κ α : Type} {K : Kernel κ}

/-- The device in `slot` is configured, and is a PiFace. -/
structure IoConfig.HasPiface (config : IoConfig BusHandle DevHandle) (slot : Slot) : Prop where
  hasSlot : config.HasSlot slot
  piface : (config.devices slot).drvHandle = some .piface

/-- A request to a PiFace is served, and the signal arrives where there is one, only
while the last `pfio_init` has succeeded; and it arrives where there are not two. -/
def Permitted (action : MainAction κ) (p : Process β κ) : Prop :=
  match action with
  | .advance => True
  | .serve data _ => ∀ slot : Slot, data.idxBus = slot.1.val → data.idxDev = slot.2.val →
      (p.config.devices slot).drvHandle = some .piface → status p.world.log = .live
  | .signal => ∀ slot, p.config.HasPiface slot →
      status p.world.log = .live ∧ ∀ other, p.config.HasPiface other → other = slot
  | .interrupt _ => ∀ cntBus cntDev rest, p.todo = .hook (.initDev cntBus cntDev) :: rest →
      drivesPiface p.config cntBus cntDev = false

/-- Every action of the run is permitted in the state that it finds. -/
def RunPermitted (K : Kernel κ) (cb : Callbacks β) (p : Process β κ)
    (actions : List (MainAction κ)) : Prop :=
  Always (fun past action => ∀ outputs t, runAll (mainStep K cb) past p = .ok outputs t →
    Permitted action t) actions

/-- What is used was acquired before, and the pointer is live where the record says
so. -/
structure Sound (w : Watched κ) : Prop where
  used : UsedLive w.log
  stored : status w.log = .live → ∃ fd, w.env.spi = .live fd

section Drivers

variable {δ ω : Type} {t u : DrvState δ β (Watched κ)}

/-- The driver has neither called `pfio.c` nor changed the pointer. -/
structure Quiet (t u : DrvState δ β (Watched κ)) : Prop where
  log : u.world.log = t.world.log
  spi : u.world.env.spi = t.world.env.spi
  drvHandle : u.dev.drvHandle = t.dev.drvHandle

theorem Sound.of_same {w w' : Watched κ} (h : Sound w) (hlog : w'.log = w.log)
    (hspi : w'.env.spi = w.env.spi) : Sound w' := by
  constructor
  · rw [hlog]
    exact h.used
  · rw [hlog, hspi]
    exact h.stored

theorem Sound.quiet (h : Sound t.world) (hq : Quiet t u) : Sound u.world :=
  h.of_same hq.log hq.spi

theorem final_watch (act : DrvM δ β (Env κ) α) (t : DrvState δ β (Watched κ)) :
    final (watch act) t =
      ⟨(final act ⟨t.dev, t.buf, t.world.env⟩).dev, (final act ⟨t.dev, t.buf, t.world.env⟩).buf,
        { t.world with env := (final act ⟨t.dev, t.buf, t.world.env⟩).world }⟩ := by
  simp only [final, watch]
  cases act ⟨t.dev, t.buf, t.world.env⟩ with
  | ok a u => rfl
  | error e u => rfl

theorem watch_quiet {act : DrvM δ β (Env κ) α}
    (hact : ∀ spi handle, Keeps (Untouched spi handle) act) (t : DrvState δ β (Watched κ)) :
    Quiet t (final (watch act) t) := by
  have h := hact t.world.env.spi t.dev.drvHandle ⟨t.dev, t.buf, t.world.env⟩ ⟨rfl, rfl⟩
  rw [final_watch]
  exact ⟨rfl, h.spi, h.drvHandle⟩

/-- The state with one more call written down. -/
def noted (call : Call) (t : DrvState δ β (Watched κ)) : DrvState δ β (Watched κ) :=
  { t with world := { t.world with log := t.world.log ++ [call] } }

theorem noteSpi_bind (call : Call) (act : Unit → DrvM δ β (Watched κ) α)
    (t : DrvState δ β (Watched κ)) : (noteSpi call >>= act) t = act () (noted call t) :=
  bind_of_ok (run_modify _ t)

theorem Sound.noted_use (h : Sound t.world) (hlive : status t.world.log = .live) :
    Sound (noted .use t).world := by
  constructor
  · exact usedLive_concat.mpr ⟨h.used, fun _ => hlive⟩
  · intro _
    exact h.stored hlive

theorem Sound.noted_release (h : Sound t.world) (hlive : status t.world.log = .live) :
    UsedLive (noted .release t).world.log ∧ status (noted .release t).world.log ≠ .live := by
  refine ⟨usedLive_concat.mpr ⟨h.used, fun _ => hlive⟩, ?_⟩
  have hstatus : status (t.world.log ++ [.release]) = .released := status_concat
  rw [noted, hstatus]
  exact Status.noConfusion

/-- `pifaceRead` and `pifaceWrite` as they are watched. -/
theorem use_sound {act : DrvM δ β (Env κ) α}
    (hact : ∀ spi handle, Keeps (Untouched spi handle) act) (h : Sound t.world)
    (hlive : status t.world.log = .live) :
    Sound (final (noteSpi .use >>= fun _ => watch act) t).world ∧
      status (final (noteSpi .use >>= fun _ => watch act) t).world.log = .live ∧
      (final (noteSpi .use >>= fun _ => watch act) t).dev.drvHandle = t.dev.drvHandle := by
  have hq := watch_quiet hact (noted .use t)
  have hstatus : status (t.world.log ++ [.use]) = _ := status_concat
  have hfinal : final (noteSpi .use >>= fun _ => watch act) t =
      final (watch act) (noted .use t) := by
    rw [final, noteSpi_bind, final]
  rw [hfinal]
  refine ⟨(h.noted_use hlive).quiet hq, ?_, hq.drvHandle⟩
  rw [hq.log]
  exact hstatus.trans hlive

theorem pifaceInit_run (bus : IoBus ω) (t : DrvState δ β (Env κ)) :
    ∃ rc u, pifaceInit K bus t = .ok rc u ∧ u.dev = t.dev ∧
      (rc = exitSuccess → ∃ fd, u.world.spi = .live fd) := by
  have hpfio : ∃ rc u, pfioInit K t = .ok rc u ∧ u.dev = t.dev ∧
      (¬ rc < 0 → ∃ fd, u.world.spi = .live fd) := by
    by_cases hmalloc : (K.malloc t.world.os).1 = true
    · obtain ⟨rc, u, hrun, fd, hdev, hspi⟩ := pfioInit_returns t ⟨hmalloc, rfl⟩
      exact ⟨rc, u, hrun, hdev, fun _ => ⟨fd, hspi⟩⟩
    · have hrun : pfioInit K t =
          .ok (-1) { t with world := ⟨.null, (K.malloc t.world.os).2⟩ } := by
        unfold pfioInit
        rw [bind_of_ok (syscall_run K.malloc t), if_neg hmalloc]
        exact bind_of_ok (run_modify _ _)
      exact ⟨-1, _, hrun, rfl, fun h => absurd (by decide) h⟩
  obtain ⟨rc, u, hrun, hdev, hspi⟩ := hpfio
  unfold pifaceInit
  rw [bind_of_ok hrun]
  by_cases hrc : rc < 0
  · rw [if_pos hrc]
    exact ⟨exitFailure, u, rfl, hdev, fun h => absurd h (by decide)⟩
  · rw [if_neg hrc]
    exact ⟨exitSuccess, u, rfl, hdev, fun _ => hspi hrc⟩

theorem pifaceDeinit_dev (bus : IoBus ω) (t : DrvState δ β (Env κ)) :
    (final (pifaceDeinit K bus) t).dev = t.dev := by
  have hkeeps : Keeps (fun u : DrvState δ β (Env κ) => u.dev = t.dev) (pifaceDeinit K bus) := by
    have hfd : Keeps (fun u : DrvState δ β (Env κ) => u.dev = t.dev) spiFd := by
      refine Keeps.get.bind fun s => ?_
      cases s.world.spi with
      | null => exact Keeps.throw _
      | live fd => exact Keeps.pure fd
      | freed => exact Keeps.throw _
    have hclose (fd : Int) : Keeps (fun u : DrvState δ β (Env κ) => u.dev = t.dev)
        (syscall (K.closeFile fd)) := fun _ h => h
    have hfree : Keeps (fun u : DrvState δ β (Env κ) => u.dev = t.dev) (setSpi .freed) :=
      Keeps.modified fun _ h => h
    refine Keeps.bind ?_ fun rc => Keeps.ite (Keeps.pure _) (Keeps.pure _)
    exact hfd.bind fun fd => (hclose fd).bind fun _ => hfree.bind fun _ => Keeps.pure _
  exact hkeeps t rfl

/-- `piface_init`, whatever comes of it. -/
theorem watchedPiface_init (bus : IoBus BusHandle) {init : IoBus BusHandle →
      DrvM DevHandle β (Watched κ) Int} (hinit : (watchedPiface K).init = some init)
    {t : DrvState DevHandle β (Watched κ)} (h : Sound t.world) :
    Sound (final (init bus) t).world ∧ (final (init bus) t).dev.drvHandle = t.dev.drvHandle := by
  obtain rfl := Option.some.inj hinit
  obtain ⟨rc, u, hrun, hdev, hspi⟩ := pifaceInit_run (K := K) bus
    (⟨t.dev, t.buf, t.world.env⟩ : DrvState DevHandle β (Env κ))
  have hwatch : watch (pifaceInit K bus) (noted .acquire t) =
      .ok rc ⟨u.dev, u.buf, ⟨u.world, t.world.log ++ [.acquire]⟩⟩ := by
    simp only [watch, noted, hrun]
  have hstatus : status ((t.world.log ++ [.acquire]) ++ [.acquired (rc = exitSuccess)]) = _ :=
    status_concat
  have hwhole : (noteSpi .acquire >>= fun _ => watch (pifaceInit K bus) >>= fun rc =>
      noteSpi (.acquired (rc = exitSuccess)) >>= fun _ => pure rc) t =
        .ok rc ⟨t.dev, u.buf,
          ⟨u.world, t.world.log ++ [.acquire] ++ [.acquired (rc = exitSuccess)]⟩⟩ := by
    rw [noteSpi_bind, bind_of_ok hwatch, noteSpi_bind, run_pure, noted, hdev]
  rw [show final _ t = _ from final_of_ok hwhole]
  refine ⟨⟨?_, ?_⟩, rfl⟩
  · apply usedLive_concat.mpr
    refine ⟨usedLive_concat.mpr ⟨h.used, ?_⟩, ?_⟩
    · intro hneeds
      cases hneeds
    · intro hneeds
      cases hneeds
  · intro hlive
    apply hspi
    by_contra hrc
    rw [hstatus, Status.after, if_neg (by simpa using hrc)] at hlive
    cases hlive

end Drivers

section Table

variable {handle : DevHandle} {t : DrvState DevHandle β (Watched κ)}

/-- The `init` hook of any device. -/
theorem watchedDrv_init {hook : IoBus BusHandle → DrvM DevHandle β (Watched κ) Int}
    (hhook : (watchedDrv K handle).init = some hook) (bus : IoBus BusHandle)
    (h : Sound t.world) :
    Sound (final (hook bus) t).world ∧ (final (hook bus) t).dev.drvHandle = t.dev.drvHandle := by
  cases handle with
  | pcf8574 => cases hhook
  | mcp23017 =>
      obtain rfl := Option.some.inj hhook
      have hq : Quiet t (final (watch (mcp23017Init K bus)) t) :=
        watch_quiet (fun _ _ => mcp23017Init_untouched bus) t
      exact ⟨h.quiet hq, hq.drvHandle⟩
  | piface => exact watchedPiface_init bus hhook h

theorem watchedDrv_deinit_quiet {hook : IoBus BusHandle → DrvM DevHandle β (Watched κ) Int}
    (hhook : (watchedDrv K handle).deinit = some hook) (hne : handle ≠ .piface)
    (bus : IoBus BusHandle) (t : DrvState DevHandle β (Watched κ)) :
    Quiet t (final (hook bus) t) := by
  cases handle with
  | pcf8574 => cases hhook
  | mcp23017 =>
      obtain rfl := Option.some.inj hhook
      apply watch_quiet
      intro spi handle
      exact (setDevData_untouched _).bind fun _ => Keeps.pure _
  | piface => exact absurd rfl hne

theorem watchedDrv_deinit_piface {hook : IoBus BusHandle → DrvM DevHandle β (Watched κ) Int}
    (hhook : (watchedDrv K .piface).deinit = some hook) (bus : IoBus BusHandle)
    (h : Sound t.world) (hlive : status t.world.log = .live) :
    Sound (final (hook bus) t).world ∧ (final (hook bus) t).dev.drvHandle = t.dev.drvHandle := by
  obtain rfl := Option.some.inj hhook
  obtain ⟨hused, hreleased⟩ := h.noted_release hlive
  have hfinal : final (noteSpi .release >>= fun _ => watch (pifaceDeinit K bus)) t =
      final (watch (pifaceDeinit K bus)) (noted .release t) := by
    rw [final, noteSpi_bind, final]
  simp only [hfinal, final_watch, pifaceDeinit_dev]
  exact ⟨⟨hused, fun hlive' => absurd hlive' hreleased⟩, rfl⟩

/-- A read or a write keeps the record sound, if the pointer is live where the
device is a PiFace. -/
def Careful (handle : DevHandle) (act : IoBus BusHandle → DrvM DevHandle β (Watched κ) α) : Prop :=
  ∀ bus t, Sound t.world → (handle = .piface → status t.world.log = .live) →
    Sound (final (act bus) t).world ∧
      (status t.world.log = .live → status (final (act bus) t).world.log = .live) ∧
      (final (act bus) t).dev.drvHandle = t.dev.drvHandle

theorem watched_careful {act : IoBus BusHandle → DrvM DevHandle β (Env κ) α}
    (hact : ∀ bus spi handle, Keeps (Untouched spi handle) (act bus)) :
    Careful handle fun bus => watch (act bus) := by
  intro bus t h _
  have hq := watch_quiet (hact bus) t
  refine ⟨h.quiet hq, ?_, hq.drvHandle⟩
  rw [hq.log]
  exact id

theorem use_careful {act : IoBus BusHandle → DrvM DevHandle β (Env κ) α}
    (hact : ∀ bus spi handle, Keeps (Untouched spi handle) (act bus)) :
    Careful .piface fun bus => noteSpi .use >>= fun _ => watch (act bus) := by
  intro bus t h hlive
  obtain ⟨hsound, hstill, hhandle⟩ := use_sound (hact bus) h (hlive rfl)
  exact ⟨hsound, fun _ => hstill, hhandle⟩

theorem watchedDrv_careful (handle : DevHandle) (cbError : CbError β) (value : Value) :
    Careful handle (fun bus => (watchedDrv K handle).read cbError bus value) ∧
      Careful handle (fun bus => (watchedDrv K handle).write cbError bus value) := by
  have hkeeps (bus : IoBus BusHandle) := devDrv_untouched K handle cbError bus value
  cases handle with
  | pcf8574 =>
      exact ⟨watched_careful fun bus spi h => (hkeeps bus spi h).1,
        watched_careful fun bus spi h => (hkeeps bus spi h).2⟩
  | mcp23017 =>
      exact ⟨watched_careful fun bus spi h => (hkeeps bus spi h).1,
        watched_careful fun bus spi h => (hkeeps bus spi h).2⟩
  | piface =>
      exact ⟨use_careful fun bus spi h => (hkeeps bus spi h).1,
        use_careful fun bus spi h => (hkeeps bus spi h).2⟩

end Table

section Hooks

variable {config : IoConfig BusHandle DevHandle} {live : Prop}
  {s : Life BusHandle DevHandle β (Watched κ)}

/-- The counts and drivers are as configured, and the record is sound; the pointer is
live where that matters. -/
structure Steady (config : IoConfig BusHandle DevHandle) (live : Prop)
    (s : Sys BusHandle DevHandle β (Watched κ)) : Prop where
  shaped : Shaped config s
  sound : Sound s.world
  live : live → status s.world.log = .live

theorem Steady.imp {live' : Prop} (h : Steady config live s.sys) (himp : live' → live) :
    Steady config live' s.sys :=
  ⟨h.shaped, h.sound, fun h' => h.live (himp h')⟩

theorem callDevHook_steady {live' : Prop} {slot : Slot} {call : HookCall}
    {f : DevDrv BusHandle DevHandle β (Watched κ) →
      Option (IoBus BusHandle → DrvM DevHandle β (Watched κ) Int)}
    (hf : ∀ handle hook, (config.devices slot).drvHandle = some handle →
      f (watchedDrv K handle) = some hook → ∀ bus (t : DrvState DevHandle β (Watched κ)),
        Sound t.world → (live → status t.world.log = .live) →
          Sound (final (hook bus) t).world ∧
            (live' → status (final (hook bus) t).world.log = .live) ∧
            (final (hook bus) t).dev.drvHandle = t.dev.drvHandle)
    (himp : live' → live) (hs : Steady config live s.sys) :
    Steady config live' (final (callDevHook (watchedDrv K) slot call f) s).sys := by
  cases hhook : (s.sys.config.devices slot).drvHandle.bind
      fun handle => f (watchedDrv K handle) with
  | none =>
      rw [final_of_ok (callDevHook_none hhook)]
      exact hs.imp himp
  | some hook =>
      obtain ⟨handle, hhandle, hsome⟩ := Option.bind_eq_some_iff.mp hhook
      rw [hs.shaped.drvHandle] at hhandle
      obtain ⟨hsound, hlive, hkept⟩ := hf handle hook hhandle hsome
        (s.sys.config.busses slot.1) (s.sys.drvState slot) hs.sound hs.live
      rw [final_callDevHook hhook]
      exact ⟨hs.shaped.storeDrv hkept, hsound, hlive⟩

theorem watchBus_kept {act : BusM (Env κ) Int}
    (hact : ∀ spi, Keeps (fun t => t.world.spi = spi) act) (t : BusState (Watched κ)) :
    (final (watchBus act) t).world.log = t.world.log ∧
      (final (watchBus act) t).world.env.spi = t.world.env.spi := by
  have hkept := hact t.world.env.spi ⟨t.busData, t.world.env⟩ rfl
  simp only [final, watchBus] at hkept ⊢
  cases hrun : act ⟨t.busData, t.world.env⟩ with
  | ok a u =>
      rw [hrun] at hkept
      exact ⟨rfl, hkept⟩
  | error e u =>
      rw [hrun] at hkept
      exact ⟨rfl, hkept⟩

theorem callBusHook_steady (b : Fin maxBusses) (call : HookCall)
    {f : BusDrv (Watched κ) → Option (BusM (Watched κ) Int)}
    (hf : ∀ handle hook, f (watchedBusDrv K handle) = some hook → ∃ act : BusM (Env κ) Int,
      hook = watchBus act ∧ ∀ spi, Keeps (fun t => t.world.spi = spi) act) :
    Keeps (fun s => Steady config live s.sys) (callBusHook (watchedBusDrv K) b call f :
      LifeM BusHandle DevHandle β (Watched κ) Unit) := by
  intro s hs
  cases hhook : (s.sys.config.busses b).drvHandle.bind fun handle => f (watchedBusDrv K handle) with
  | none =>
      rw [final_of_ok (callBusHook_none hhook)]
      exact hs
  | some hook =>
      obtain ⟨handle, -, hsome⟩ := Option.bind_eq_some_iff.mp hhook
      obtain ⟨act, rfl, hact⟩ := hf handle hook hsome
      obtain ⟨hlog, hspi⟩ := watchBus_kept hact ⟨(s.sys.config.busses b).busData, s.sys.world⟩
      rw [final_callBusHook hhook]
      refine ⟨hs.shaped.storeBus b _, hs.sound.of_same hlog hspi, ?_⟩
      intro h
      exact (congrArg status hlog).trans (hs.live h)

end Hooks

section Passes

variable {config : IoConfig BusHandle DevHandle} {live : Prop}
  {s : Life BusHandle DevHandle β (Watched κ)}

def HookStage.Inits : HookStage → Prop
  | .openBus _ | .initDev _ _ => True
  | .deinitDev _ _ | .closeBus _ => False

/-- The stage calls `pfio_deinit`. -/
def HookStage.Releases (config : IoConfig BusHandle DevHandle) : HookStage → Prop
  | .deinitDev cntBus cntDev => drivesPiface config cntBus cntDev = true
  | _ => False

theorem openBus_steady (cntBus : Nat) :
    Keeps (fun s => Steady config live s.sys)
      (runStage (watchedBusDrv K) (watchedDrv K) (.openBus cntBus) :
        LifeM BusHandle DevHandle β (Watched κ) Unit) := by
  refine (onSys_busIndex_keeps _).bind fun b => callBusHook_steady b _ ?_
  intro handle hook hhook
  exact ⟨i2cLinuxOpen K, (Option.some.inj hhook).symm, i2cLinuxOpen_spi⟩

theorem closeBus_steady (cntBus : Nat) :
    Keeps (fun s => Steady config live s.sys)
      (runStage (watchedBusDrv K) (watchedDrv K) (.closeBus cntBus) :
        LifeM BusHandle DevHandle β (Watched κ) Unit) := by
  refine (onSys_busIndex_keeps _).bind fun b => callBusHook_steady b _ ?_
  intro handle hook hhook
  exact ⟨i2cLinuxClose K, (Option.some.inj hhook).symm, i2cLinuxClose_spi⟩

/-- A stage of `io_init`. -/
theorem initStage_steady {stage : HookStage} (hstage : stage.Inits) :
    Keeps (fun s => Steady config False s.sys)
      (runStage (watchedBusDrv K) (watchedDrv K) stage :
        LifeM BusHandle DevHandle β (Watched κ) Unit) := by
  cases stage with
  | openBus cntBus => exact openBus_steady cntBus
  | initDev cntBus cntDev =>
      refine (onSys_busIndex_keeps _).bind fun b => (onSys_devIndex_keeps _).bind fun d => ?_
      intro s hs
      refine callDevHook_steady ?_ id hs
      intro handle hook _ hhook bus t ht _
      obtain ⟨hsound, hkept⟩ := watchedDrv_init hhook bus ht
      exact ⟨hsound, False.elim, hkept⟩
  | deinitDev => exact hstage.elim
  | closeBus => exact hstage.elim

theorem drivesPiface_slot (slot : Slot) :
    drivesPiface config slot.1.val slot.2.val = true ↔
      (config.devices slot).drvHandle = some .piface := by
  have hin : slot.1.val < maxBusses ∧ slot.2.val < maxIoDevices := ⟨slot.1.isLt, slot.2.isLt⟩
  rw [drivesPiface, dif_pos hin, decide_eq_true_iff]

/-- A stage of `io_deinit` that reaches a device. -/
theorem runStage_deinitDev_slot (slot : Slot) :
    runStage (watchedBusDrv K) (watchedDrv K) (.deinitDev slot.1.val slot.2.val) =
      (callDevHook (watchedDrv K) slot (.deinit slot) (·.deinit) :
        LifeM BusHandle DevHandle β (Watched κ) Unit) := by
  funext s
  rw [runStage_deinitDev slot.1.isLt, deinitDevice, bind_of_ok (devIndex_nat _ slot.2.isLt s)]

theorem runStage_deinitDev_out {cntBus cntDev : Nat}
    (hout : ¬ (cntBus < maxBusses ∧ cntDev < maxIoDevices))
    (s : Life BusHandle DevHandle β (Watched κ)) :
    final (runStage (watchedBusDrv K) (watchedDrv K) (.deinitDev cntBus cntDev)) s = s := by
  by_cases hbus : cntBus < maxBusses
  · have hdev : ¬ (0 ≤ (cntDev : Int) ∧ (cntDev : Int) < maxIoDevices) := by omega
    rw [runStage_deinitDev hbus, deinitDevice]
    simp only [final, run_bind, onSys, devIndex, dif_neg hdev]
    rfl
  · have hstage : runStage (watchedBusDrv K) (watchedDrv K) (.deinitDev cntBus cntDev) s = _ :=
      bind_of_error (busIndex_out hbus s)
    exact final_of_error hstage

/-- A stage of `io_deinit`: what it has released is not live any more, and if it
releases nothing, what is live stays so. -/
theorem deinitStage_steady {stage : HookStage} (hstage : ¬ stage.Inits) {live' : Prop}
    (hreleases : stage.Releases config → live ∧ ¬ live') (himp : live' → live)
    (hs : Steady config live s.sys) :
    Steady config live' (final (runStage (watchedBusDrv K) (watchedDrv K) stage) s).sys := by
  cases stage with
  | openBus => exact absurd trivial hstage
  | initDev => exact absurd trivial hstage
  | closeBus cntBus => exact (closeBus_steady cntBus s hs).imp himp
  | deinitDev cntBus cntDev =>
      by_cases hin : cntBus < maxBusses ∧ cntDev < maxIoDevices
      · let slot : Slot := (⟨cntBus, hin.1⟩, ⟨cntDev, hin.2⟩)
        have hstage := runStage_deinitDev_slot (K := K) (β := β) slot
        rw [hstage]
        refine callDevHook_steady ?_ himp hs
        intro handle hook hhandle hhook bus t ht hlive
        by_cases hpiface : handle = .piface
        · subst hpiface
          obtain ⟨hl, hnot⟩ := hreleases ((drivesPiface_slot slot).mpr hhandle)
          obtain ⟨hsound, hkept⟩ := watchedDrv_deinit_piface hhook bus ht (hlive hl)
          exact ⟨hsound, fun h => absurd h hnot, hkept⟩
        · have hq := watchedDrv_deinit_quiet hhook hpiface bus t
          refine ⟨ht.quiet hq, ?_, hq.drvHandle⟩
          rw [hq.log]
          exact fun h => hlive (himp h)
      · rw [runStage_deinitDev_out hin]
        exact hs.imp himp

/-- A pass that releases at most once, and only what is live. -/
theorem deinitPass_sound {stages : List HookStage} (hdeinit : ∀ stage ∈ stages, ¬ stage.Inits)
    (honce : stages.Pairwise fun a b => ¬ (a.Releases config ∧ b.Releases config))
    (hs : Steady config (∃ stage ∈ stages, stage.Releases config) s.sys) :
    Sound (final (forAll (runStage (watchedBusDrv K) (watchedDrv K)) stages) s).sys.world := by
  induction stages generalizing s with
  | nil => exact hs.sound
  | cons stage rest ih =>
      obtain ⟨hfirst, hrest⟩ := List.pairwise_cons.mp honce
      have hstep : Steady config (∃ stage ∈ rest, stage.Releases config)
          (final (runStage (watchedBusDrv K) (watchedDrv K) stage) s).sys := by
        refine deinitStage_steady (hdeinit stage (by simp)) ?_ ?_ hs
        · intro hreleases
          refine ⟨⟨stage, by simp, hreleases⟩, ?_⟩
          rintro ⟨other, hother, hreleases'⟩
          exact hfirst other hother ⟨hreleases, hreleases'⟩
        · rintro ⟨other, hother, hreleases⟩
          exact ⟨other, List.mem_cons_of_mem _ hother, hreleases⟩
      cases hrun : runStage (watchedBusDrv K) (watchedDrv K) stage s with
      | ok a t =>
          rw [final_of_ok hrun] at hstep
          have hnext := ih (fun other hother => hdeinit other (List.mem_cons_of_mem _ hother))
            hrest hstep
          simpa only [final, forAll, bind_of_ok hrun] using hnext
      | error e t =>
          rw [final_of_error hrun] at hstep
          simpa only [final, forAll, bind_of_error hrun] using hstep.sound

theorem mem_deinitStages {stage : HookStage} (h : stage ∈ deinitStages config) :
    ¬ stage.Inits ∧ (stage.Releases config → ∃ slot : Slot,
      stage = .deinitDev slot.1.val slot.2.val ∧ config.HasPiface slot) := by
  obtain ⟨cntBus, hcntBus, hmem⟩ := List.mem_flatMap.mp h
  rcases List.mem_append.mp hmem with hdev | hclose
  · obtain ⟨cntDev, hcntDev, rfl⟩ := List.mem_map.mp hdev
    refine ⟨id, ?_⟩
    intro hreleases
    have hbus : cntBus < maxBusses := by
      by_contra hout
      rw [devicesAt_out hout] at hcntDev
      cases hcntDev
    rw [devicesAt_eq (s := ⟨⟨config, (), (), []⟩, []⟩) hbus fun _ => rfl] at hcntDev
    have hdrives : drivesPiface config cntBus cntDev = true := hreleases
    have hdevices : cntDev < maxIoDevices := by
      by_contra hout
      rw [drivesPiface, dif_neg fun hin => hout hin.2] at hdrives
      cases hdrives
    refine ⟨(⟨cntBus, hbus⟩, ⟨cntDev, hdevices⟩), rfl, ⟨?_, ?_⟩,
      (drivesPiface_slot (⟨cntBus, hbus⟩, ⟨cntDev, hdevices⟩)).mp hdrives⟩
    · exact Int.lt_of_toNat_lt (List.mem_range.mp hcntBus)
    · exact Int.lt_of_toNat_lt (List.mem_range.mp hcntDev)
  · obtain rfl := List.mem_singleton.mp hclose
    exact ⟨id, False.elim⟩

/-- With one PiFace device at most, `io_deinit` releases at most once. -/
theorem deinitStages_once
    (hone : ∀ slot other, config.HasPiface slot → config.HasPiface other → slot = other) :
    (deinitStages config).Pairwise fun a b => ¬ (a.Releases config ∧ b.Releases config) := by
  apply (deinitStages_nodup config).imp_of_mem
  rintro stage other hstage hother hne ⟨hreleases, hreleases'⟩
  obtain ⟨slot, rfl, hpiface⟩ := (mem_deinitStages hstage).2 hreleases
  obtain ⟨slot', rfl, hpiface'⟩ := (mem_deinitStages hother).2 hreleases'
  exact hne (by rw [hone slot slot' hpiface hpiface'])

end Passes

section Parser

variable {spi : SpiHandle}

theorem atCursor_keeps {I : BusConfigs κ → Prop} (size : Nat) (cursor : Int) :
    Keeps I (atCursor size cursor) := by
  unfold atCursor
  by_cases h : 0 ≤ cursor ∧ cursor < size
  · rw [dif_pos h]
    exact Keeps.pure _
  · rw [dif_neg h]
    exact Keeps.throw _

theorem currentDev_keeps {I : BusConfigs κ → Prop} : Keeps I currentDev :=
  Keeps.get.bind fun _ => (atCursor_keeps _ _).bind fun _ => (atCursor_keeps _ _).bind fun _ =>
    Keeps.pure _

theorem setBus_spi (b : Fin maxBusses) (bus : IoBus BusHandle) {w : Env κ} (hw : w.spi = spi) :
    Keeps (fun s : BusConfigs κ => s.world.spi = spi) (setBus b bus w) :=
  Keeps.modified fun _ _ => hw

theorem setDev_spi (slot : Slot) (dev : IoDev DevHandle) {w : Env κ} (hw : w.spi = spi) :
    Keeps (fun s : BusConfigs κ => s.world.spi = spi) (setDev slot dev w) :=
  Keeps.modified fun _ _ => hw

theorem updateUserData_spi (sectionName : Lib.Text.CString) :
    Keeps (fun s : BusConfigs κ => s.world.spi = spi) (updateUserData sectionName) := by
  have hmove (f : BusConfigs κ → BusConfigs κ) (hf : ∀ s, (f s).world = s.world) :
      Keeps (fun s : BusConfigs κ => s.world.spi = spi) (modify f : ParserM κ Unit) := by
    apply Keeps.modified
    intro s hs
    rwa [hf]
  unfold updateUserData
  refine Keeps.get.bind fun s => Keeps.ite (Keeps.ite ?_ (Keeps.ite ?_ ?_)) ?_
  · exact (hmove _ fun _ => rfl).bind fun _ => hmove _ fun _ => rfl
  · exact (hmove _ fun _ => rfl).bind fun _ => hmove _ fun _ => rfl
  · exact hmove _ fun _ => rfl
  · exact hmove _ fun _ => rfl

theorem busParameter_spi (value : Lib.Text.CString) :
    Keeps (fun s : BusConfigs κ => s.world.spi = spi) (busParameter K value) := by
  refine Keeps.get_bind fun s hs => (atCursor_keeps _ _).bind fun b => ?_
  cases hdata : (s.config.busses b).drvHandle.bind fun handle => (busDrv K handle).getBusData with
  | none =>
      simp only [hdata]
      exact Keeps.pure _
  | some getBusData =>
      obtain ⟨handle, -, hsome⟩ := Option.bind_eq_some_iff.mp hdata
      obtain rfl := Option.some.inj hsome
      simp only [hdata]
      exact setBus_spi b _ hs

theorem devParameter_spi (value : Lib.Text.CString) :
    Keeps (fun s : BusConfigs κ => s.world.spi = spi) (devParameter K value) := by
  refine Keeps.get_bind fun s hs => (atCursor_keeps _ _).bind fun b => ?_
  cases hdata : (s.config.busses b).drvHandle.bind
      fun handle => (busDrv K handle).getBusDevData with
  | none => exact Keeps.pure _
  | some getBusDevData =>
      obtain ⟨handle, -, hsome⟩ := Option.bind_eq_some_iff.mp hdata
      obtain rfl := Option.some.inj hsome
      exact currentDev_keeps.bind fun slot => setDev_spi slot _ hs

theorem busType_spi (value : Lib.Text.CString) :
    Keeps (fun s : BusConfigs κ => s.world.spi = spi) (busType value) := by
  refine Keeps.ite ?_ (Keeps.pure _)
  exact Keeps.get_bind fun s hs => (atCursor_keeps _ _).bind fun b => setBus_spi b _ hs

theorem devDriver_spi (value : Lib.Text.CString) :
    Keeps (fun s : BusConfigs κ => s.world.spi = spi) (devDriver value) := by
  have hcount : Keeps (fun s : BusConfigs κ => s.world.spi = spi) countDevice :=
    Keeps.get_bind fun s hs => (atCursor_keeps _ _).bind fun b => setBus_spi b _ hs
  refine Keeps.bind ?_ fun _ => hcount
  cases namedDriver value with
  | none => exact Keeps.pure _
  | some handle =>
      exact currentDev_keeps.bind fun slot => Keeps.get_bind fun s hs => setDev_spi slot _ hs

/-- The parser calls nothing of `pfio.c`. -/
theorem parserHandler_spi (e : IniEntry) :
    Keeps (fun s : BusConfigs κ => s.world.spi = spi) (parserHandler K e) := by
  apply (updateUserData_spi _).bind
  intro _
  refine Keeps.ite ?_ (Keeps.ite ?_ (Keeps.ite ?_ (Keeps.ite ?_ ?_)))
  · exact (busParameter_spi _).bind fun _ => Keeps.pure _
  · exact (busType_spi _).bind fun _ => Keeps.pure _
  · exact (devDriver_spi _).bind fun _ => Keeps.pure _
  · exact (devParameter_spi _).bind fun _ => Keeps.pure _
  · exact Keeps.pure _

end Parser

section Serving

variable {config : IoConfig BusHandle DevHandle} {live : Prop} {data : IoData}

theorem reply_steady (f : β → β) :
    Keeps (Steady config live)
      (modify fun t => { t with buf := f t.buf } : SysM BusHandle DevHandle β (Watched κ) Unit) :=
  Keeps.modified fun _ h =>
    ⟨⟨h.shaped.numBusses, h.shaped.numDevices, h.shaped.busHandle, h.shaped.drvHandle⟩,
      h.sound, h.live⟩

/-- A driver call on the device that the request names. -/
theorem callDrv_steady {call : DrvCall}
    {f : DevDrv BusHandle DevHandle β (Watched κ) → IoBus BusHandle →
      DrvM DevHandle β (Watched κ) α}
    (hf : ∀ handle, Careful handle (f (watchedDrv K handle)))
    (hlive : ∀ slot : Slot, data.idxBus = slot.1.val → data.idxDev = slot.2.val →
      (config.devices slot).drvHandle = some .piface → live) :
    Keeps (Steady config live) (callDrv (watchedDrv K) data.idxBus data.idxDev call f) := by
  intro s hs
  rcases callDrv_cases (watchedDrv K) data.idxBus data.idxDev call f s with
    ⟨slot, hbus, hdev⟩ | hout
  · cases hhandle : (s.config.devices slot).drvHandle with
    | none =>
        rw [hbus, hdev, final_of_error (callDrv_null _ slot call f hhandle)]
        exact hs
    | some handle =>
        have hconfigured := (hs.shaped.drvHandle slot).symm.trans hhandle
        obtain ⟨hsound, hstill, hkept⟩ := hf handle (s.config.busses slot.1) (s.drvState slot)
          hs.sound fun hpiface => hs.live (hlive slot hbus hdev (hpiface ▸ hconfigured))
        have hnoted : Shaped config { s with calls := s.calls ++ [call] } :=
          ⟨hs.shaped.numBusses, hs.shaped.numDevices, hs.shaped.busHandle, hs.shaped.drvHandle⟩
        rw [hbus, hdev, final, callDrv_slot _ slot call f hhandle, ← final, final_onDevice]
        exact ⟨hnoted.storeDrv hkept, hsound, fun h => hstill (hs.live h)⟩
  · rw [final_of_error hout]
    exact hs

theorem performIo_steady (cb : Callbacks β) (cmd : IoCmd)
    (hlive : ∀ slot : Slot, data.idxBus = slot.1.val → data.idxDev = slot.2.val →
      (config.devices slot).drvHandle = some .piface → live) :
    Keeps (Steady config live) (performIo (watchedDrv K) cb data cmd) := by
  have hread : Keeps (Steady config live) (drvRead (watchedDrv K) cb data) :=
    callDrv_steady (fun handle => (watchedDrv_careful handle cb.error data.value).1) hlive
  have hwrite (value : Value) :
      Keeps (Steady config live) (drvWrite (watchedDrv K) cb data value) :=
    callDrv_steady (fun handle => (watchedDrv_careful handle cb.error value).2) hlive
  exact performIo_keeps reply_steady hread hwrite cmd

end Serving

section Process

variable {p : Process β κ} {cb : Callbacks β}

/-- The record is sound, and no hook that is still to be called is one of
`io_deinit`. -/
structure Underway (p : Process β κ) : Prop where
  sound : Sound p.world
  todo : ∀ stage, .hook stage ∈ p.todo → stage.Inits

theorem mem_initStages {config : IoConfig BusHandle DevHandle} {stage : HookStage}
    (h : stage ∈ initStages config) : stage.Inits := by
  obtain ⟨cntBus, -, hmem⟩ := List.mem_flatMap.mp h
  rcases List.mem_cons.mp hmem with rfl | hdev
  · trivial
  · obtain ⟨cntDev, -, rfl⟩ := List.mem_map.mp hdev
    trivial

theorem shaped_self (s : Sys BusHandle DevHandle β (Watched κ)) : Shaped s.config s :=
  ⟨rfl, fun _ => rfl, fun _ => rfl, fun _ => rfl⟩

theorem final_onLife (act : LifeM BusHandle DevHandle β (Watched κ) α) (p : Process β κ) :
    final (onLife act) p = { p with life := final act p.life } := by
  simp only [final, onLife]
  cases act p.life with
  | ok a t => rfl
  | error e t => rfl

theorem final_onUserData (act : ParserM κ α) (p : Process β κ) :
    final (onUserData act) p = p.storeUserData (final act p.userData) := by
  simp only [final, onUserData]
  cases act p.userData with
  | ok a t => rfl
  | error e t => rfl

theorem final_serveIo (data : IoData) (cmd : IoCmd) (s : Life BusHandle DevHandle β (Watched κ)) :
    (final (serveIo (watchedDrv K) cb data cmd) s).sys =
      final (performIo (watchedDrv K) cb data cmd) { s.sys with calls := [] } := by
  simp only [final, serveIo]
  cases performIo (watchedDrv K) cb data cmd { s.sys with calls := [] } with
  | ok a t => rfl
  | error e t => rfl

theorem performStage_underway {stage : MainStage} (h : Underway p)
    (hstage : ∀ hook, stage = .hook hook → hook.Inits) :
    Underway (final (performStage K stage) p) := by
  cases stage with
  | confInit => exact ⟨h.sound, h.todo⟩
  | parseConfig file =>
      cases file with
      | none => exact ⟨h.sound, h.todo⟩
      | some lines =>
          refine ⟨h.sound, ?_⟩
          intro hook hmem
          rcases List.mem_append.mp hmem with hentry | htodo
          · obtain ⟨e, -, he⟩ := List.mem_map.mp hentry
            cases he
          · exact h.todo hook htodo
  | entry e =>
      have hspi : (final (parserHandler K e) p.userData).world.spi = p.world.env.spi :=
        parserHandler_spi e p.userData rfl
      rw [performStage, final_bind_pure, final_onUserData]
      exact ⟨h.sound.of_same rfl hspi, h.todo⟩
  | ioInit =>
      refine ⟨h.sound, ?_⟩
      intro hook hmem
      rcases List.mem_append.mp hmem with hinit | htodo
      · obtain ⟨stage, hstage, he⟩ := List.mem_map.mp hinit
        cases he
        exact mem_initStages hstage
      · exact h.todo hook htodo
  | hook hook =>
      have hsteady : Steady p.config False p.life.sys := ⟨shaped_self _, h.sound, False.elim⟩
      have hfinal := initStage_steady (K := K) (hstage hook rfl) p.life hsteady
      rw [performStage, final_onLife]
      exact ⟨hfinal.sound, h.todo⟩

/-- `signal_handler`, where it is permitted. -/
theorem signalHandler_underway (h : Underway p)
    (hpermitted : Permitted (.signal : MainAction κ) p) :
    Underway (final (signalHandler K) p) := by
  have hstart : Steady p.config
      (∃ stage ∈ deinitStages p.config, stage.Releases p.config) p.life.sys := by
    refine ⟨shaped_self _, h.sound, ?_⟩
    rintro ⟨stage, hstage, hreleases⟩
    obtain ⟨slot, -, hpiface⟩ := (mem_deinitStages hstage).2 hreleases
    exact (hpermitted slot hpiface).1
  have honce := deinitStages_once fun slot other hslot hother =>
    ((hpermitted slot hslot).2 other hother).symm
  have hpass := deinitPass_sound (K := K) (fun stage hstage => (mem_deinitStages hstage).1)
    honce hstart
  have hdeinit : Underway (final (onLife (ioDeinit (watchedBusDrv K) (watchedDrv K))) p) := by
    have hstages : final (ioDeinit (watchedBusDrv K) (watchedDrv K)) p.life =
        final (forAll (runStage (watchedBusDrv K) (watchedDrv K)) (deinitStages p.config)) p.life :=
      (final_congr (ioDeinit_stages p.life)).trans (final_bind_pure _ _ _)
    rw [final_onLife, hstages]
    exact ⟨hpass, h.todo⟩
  cases hrun : onLife (ioDeinit (watchedBusDrv K) (watchedDrv K)) p with
  | ok rc q =>
      have hhandled : signalHandler K p = .ok () { q with exited := true } :=
        (bind_of_ok hrun).trans (run_modify _ _)
      rw [final_of_ok hrun] at hdeinit
      rw [final_of_ok hhandled]
      exact ⟨hdeinit.sound, hdeinit.todo⟩
  | error e q =>
      have hhandled : signalHandler K p = .error e q := bind_of_error hrun
      rw [final_of_error hrun] at hdeinit
      rw [final_of_error hhandled]
      exact hdeinit

/-- Every permitted action keeps the record sound. -/
theorem mainStep_underway {action : MainAction κ} (h : Underway p)
    (hpermitted : Permitted action p) : Underway (final (mainStep K cb action) p) := by
  by_cases hexited : p.exited = true
  · rw [final_of_ok (mainStep_exited action hexited)]
    exact h
  · cases action with
    | advance =>
        cases htodo : p.todo with
        | nil =>
            rw [final_of_ok (mainStep_idle hexited htodo)]
            exact h
        | cons stage rest =>
            rw [final_congr (mainStep_stage hexited htodo)]
            apply performStage_underway
            · refine ⟨h.sound, ?_⟩
              intro hook hmem
              exact h.todo hook (by rw [htodo]; exact List.mem_cons_of_mem _ hmem)
            · rintro hook rfl
              exact h.todo hook (by rw [htodo]; exact List.mem_cons_self)
    | serve data cmd =>
        by_cases htodo : p.todo = []
        · rw [final_congr (mainStep_serve hexited data cmd htodo), final_bind_pure, final_onLife]
          have hsteady : Steady p.config (status p.world.log = .live)
              { p.life.sys with calls := [] } :=
            ⟨⟨rfl, fun _ => rfl, fun _ => rfl, fun _ => rfl⟩, h.sound, id⟩
          have hserved := performIo_steady (K := K) cb cmd hpermitted _ hsteady
          refine ⟨?_, h.todo⟩
          show Sound (final (serveIo (watchedDrv K) cb data cmd) p.life).sys.world
          rw [final_serveIo]
          exact hserved.sound
        · rw [final_of_ok (mainStep_notServing hexited data cmd htodo)]
          exact h
    | signal =>
        rw [final_congr (mainStep_signal hexited)]
        exact signalHandler_underway h hpermitted
    | interrupt found =>
        rw [final_of_ok (mainStep_uninterrupted hexited found hpermitted)]
        exact h

theorem runAll_underway {actions : List (MainAction κ)} (h : Underway p)
    (hpermitted : RunPermitted K cb p actions) :
    Underway (final (runAll (mainStep K cb) actions) p) := by
  induction actions using List.reverseRecOn with
  | nil => exact h
  | append_singleton actions action ih =>
      obtain ⟨hpast, hlast⟩ := always_concat.mp hpermitted
      have hfinal := ih hpast
      cases hrun : runAll (mainStep K cb) actions p with
      | ok outputs q =>
          rw [final_of_ok hrun] at hfinal
          have hstep : Underway (final (mainStep K cb action) q) :=
            mainStep_underway hfinal (hlast outputs q hrun)
          rw [runAll_concat, final_congr (bind_of_ok hrun), final_bind_pure]
          exact hstep
      | error e q =>
          rw [final_of_error hrun] at hfinal
          rw [final_of_error (runAll_append_of_error hrun)]
          exact hfinal

/-- The PiFace's pointer over a run of `main`, with requests and a signal at any stage
of it: whatever configuration is parsed and whatever comes of the calls of `pfio_init`,
the pointer is live wherever it is used or released, and nothing is released twice. -/
theorem handle_safe (K : Kernel κ) (cb : Callbacks β) (file : Option (List IniLine)) (buf : β)
    (os : κ) (actions : List (MainAction κ))
    (hpermitted : RunPermitted K cb (installed file buf os) actions) :
    let p := final (runAll (mainStep K cb) actions) (installed file buf os)
    Safe p.world.log ∧ (status p.world.log = .live → ∃ fd, p.world.env.spi = .live fd) := by
  have hstart : Underway (installed file buf os) := by
    refine ⟨⟨always_nil, fun hlive => by cases hlive⟩, ?_⟩
    intro hook hmem
    simp [installed] at hmem
  have hend := runAll_underway hstart hpermitted
  exact ⟨hend.sound.used.safe, hend.sound.stored⟩

end Process

/-- A bus with these devices, each of which has the driver of the PiFace. -/
def pifaceLines (devices : List String) : List IniLine :=
  fileOf (("bus-0", "bus_type", "piface") :: devices.map fun device => (device, "devdrv", "piface"))

/-- The steps of `main` for one PiFace, a request to it and the signal. -/
def onePifaceRun : List (MainAction Unit) :=
  List.replicate 7 .advance ++ [.serve ⟨0, 0, idxInvalid, 0xff⟩ .write, .signal]

theorem onePifaceRun_permitted :
    RunPermitted calmKernel recorder
      (installed (some (pifaceLines ["device-0"])) [] ()) onePifaceRun := by
  have hready : yields (runAll (mainStep calmKernel recorder) (List.replicate 7 .advance))
      (installed (some (pifaceLines ["device-0"])) [] ())
      (fun _ p => status p.world.log = .live) = true := by
    decide +kernel
  have hserved : yields (runAll (mainStep calmKernel recorder)
      (List.replicate 7 .advance ++ [.serve ⟨0, 0, idxInvalid, 0xff⟩ .write]))
      (installed (some (pifaceLines ["device-0"])) [] ())
      (fun _ p => status p.world.log = .live ∧ p.config.numBusses = 1 ∧
        (p.config.busses 0).numDevices = 1) = true := by
    decide +kernel
  obtain ⟨_, p, hrun, htest⟩ := exists_of_yields hready
  obtain ⟨_, q, hrun', htest'⟩ := exists_of_yields hserved
  obtain ⟨hlive, hbusses, hdevices⟩ := of_decide_eq_true htest'
  have honly : ∀ slot, q.config.HasPiface slot → slot = (0, 0) := by
    rintro ⟨b, d⟩ hpiface
    obtain ⟨hb, hd⟩ := hpiface.hasSlot
    rw [hbusses] at hb
    obtain rfl : b = 0 := Fin.ext (Int.ofNat.inj (Int.le_antisymm (Int.lt_add_one_iff.mp hb)
      (Int.natCast_nonneg _)))
    rw [hdevices] at hd
    obtain rfl : d = 0 := Fin.ext (Int.ofNat.inj (Int.le_antisymm (Int.lt_add_one_iff.mp hd)
      (Int.natCast_nonneg _)))
    rfl
  have hsplit : onePifaceRun =
      List.replicate 7 .advance ++ [.serve ⟨0, 0, idxInvalid, 0xff⟩ .write] ++ [.signal] := rfl
  rw [RunPermitted, hsplit, always_concat, always_concat]
  refine ⟨⟨?_, ?_⟩, ?_⟩
  · rintro past action rest hpast outputs t -
    have hadvance : action = .advance := List.eq_of_mem_replicate (by rw [hpast]; simp)
    rw [hadvance]
    trivial
  · intro outputs t h slot _ _ _
    obtain ⟨-, rfl⟩ := EStateM.Result.ok.inj (hrun.symm.trans h)
    exact of_decide_eq_true htest
  · intro outputs t h slot hslot
    obtain ⟨-, rfl⟩ := EStateM.Result.ok.inj (hrun'.symm.trans h)
    refine ⟨hlive, ?_⟩
    intro other hother
    rw [honly slot hslot, honly other hother]

theorem handle_safe_onePiface :
    let p := final (runAll (mainStep calmKernel recorder) onePifaceRun)
      (installed (some (pifaceLines ["device-0"])) [] ())
    Safe p.world.log ∧ (status p.world.log = .live → ∃ fd, p.world.env.spi = .live fd) :=
  handle_safe calmKernel recorder _ [] () onePifaceRun onePifaceRun_permitted

/-- Two PiFace devices that are both initialised, and a signal while the server waits:
the second `pfio_deinit` releases what the first has released. -/
theorem released_twice :
    ¬ Safe (final (runAll (mainStep calmKernel recorder)
        (List.replicate 9 .advance ++ [.signal]))
      (installed (some (pifaceLines ["device-0", "device-1"])) [] ())).world.log := by
  have hlog : (final (runAll (mainStep calmKernel recorder)
        (List.replicate 9 .advance ++ [.signal]))
      (installed (some (pifaceLines ["device-0", "device-1"])) [] ())).world.log =
        [.acquire, .acquired true, .acquire, .acquired true, .release, .release] := by
    decide +kernel
  rw [hlog]
  intro hsafe
  have hmem := hsafe.once [.acquire, .acquired true, .acquire, .acquired true] [] [] rfl
  cases hmem

end Switcher
