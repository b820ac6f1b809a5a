import Switcher.Config.Ready
import Switcher.Driver.Watched
import Switcher.Io.Stages

/-!
`main` from the moment when its signal handlers are installed, one step at a
time, and `signal_handler`, which may run in front of any step. `validate_config`
accepts everything, and `conf_deinit` runs behind the last call of a driver.
-/

namespace Switcher

open Lib.Program Lib.Interleaving Lib.Resource

/-- What `main` does before it serves. -/
inductive MainStage where
  | confInit
  | parseConfig (file : Option (List IniLine))
  | entry (e : IniEntry)
  | ioInit
  | hook (stage : HookStage)

/-- The process with the variables of `parse_config`, and what `main` has still to
do before it serves. -/
structure Process (β κ : Type) where
  life : Life BusHandle DevHandle β (Watched κ)
  lastSection : List Char
  currentBusId : Int
  currentDevId : Int
  todo : List MainStage
  exited : Bool

abbrev ProcessM (β κ α : Type) := EStateM Fault (Process β κ) α

variable {β κ α : Type}

def Process.config (p : Process β κ) : IoConfig BusHandle DevHandle := p.life.sys.config

def Process.world (p : Process β κ) : Watched κ := p.life.sys.world

def Process.userData (p : Process β κ) : BusConfigs κ :=
  ⟨p.config, p.lastSection, p.currentBusId, p.currentDevId, p.world.env⟩

def Process.storeUserData (p : Process β κ) (t : BusConfigs κ) : Process β κ :=
  { p with
    life := { p.life with
      sys := { p.life.sys with config := t.config, world := { p.world with env := t.world } } }
    lastSection := t.lastSection
    currentBusId := t.currentBusId
    currentDevId := t.currentDevId }

def onUserData (act : ParserM κ α) : ProcessM β κ α := fun p =>
  match act p.userData with
  | .ok a t => .ok a (p.storeUserData t)
  | .error e t => .error e (p.storeUserData t)

def onLife (act : LifeM BusHandle DevHandle β (Watched κ) α) : ProcessM β κ α := fun p =>
  match act p.life with
  | .ok a t => .ok a { p with life := t }
  | .error e t => .error e { p with life := t }

def enterStages (stages : List MainStage) : ProcessM β κ Unit :=
  modify fun p => { p with todo := stages ++ p.todo }

variable (K : Kernel κ)

/-- `main` exits where the configuration file cannot be opened. -/
def performStage : MainStage → ProcessM β κ Unit
  | .confInit => modify fun p =>
      { p with life.sys.config := (confInit p.config).2 }
  | .parseConfig none => modify fun p => { p with exited := true }
  | .parseConfig (some lines) => do
      modify fun p => p.storeUserData (userData p.config p.world.env)
      enterStages ((entriesOf lines).map .entry)
  | .entry e => do
      let _ ← onUserData (parserHandler K e)
  | .ioInit => do
      let p ← get
      enterStages ((initStages p.config).map .hook)
  | .hook stage => onLife (runStage (watchedBusDrv K) (watchedDrv K) stage)

/-- `signal_handler`, as far as drivers are concerned. -/
def signalHandler : ProcessM β κ Unit := do
  let _ ← onLife (ioDeinit (watchedBusDrv K) (watchedDrv K))
  modify fun p => { p with exited := true }

/-- The driver of the device is the one of the PiFace. -/
def drivesPiface (config : IoConfig BusHandle DevHandle) (cntBus cntDev : Nat) : Bool :=
  if h : cntBus < maxBusses ∧ cntDev < maxIoDevices then
    (config.devices (⟨cntBus, h.1⟩, ⟨cntDev, h.2⟩)).drvHandle = some .piface
  else
    false

/-- `main` goes on, the server serves a request, or a signal arrives. A signal that
interrupts `pfio_init` finds the pointer and the system in whatever state; none is taken
in the middle of a request. -/
inductive MainAction (κ : Type) where
  | advance
  | serve (data : IoData) (cmd : IoCmd)
  | signal
  | interrupt (found : Env κ)

def mainStep (cb : Callbacks β) (action : MainAction κ) : ProcessM β κ Unit := do
  let p ← get
  if p.exited then
    return ()
  else
    match action, p.todo with
    | .advance, [] => return ()
    | .advance, stage :: rest => do
        modify fun p => { p with todo := rest }
        performStage K stage
    | .serve data cmd, [] => do
        let _ ← onLife (serveIo (watchedDrv K) cb data cmd)
    | .serve _ _, _ :: _ => return ()
    | .signal, _ => signalHandler K
    | .interrupt found, .hook (.initDev cntBus cntDev) :: _ =>
        if drivesPiface p.config cntBus cntDev then do
          modify fun p => { p with life.sys.world := ⟨found, p.world.log ++ [.acquire]⟩ }
          signalHandler K
        else
          return ()
    | .interrupt _, _ => return ()

/-- The process once its signal handlers are installed. -/
def installed (file : Option (List IniLine)) (buf : β) (os : κ) : Process β κ :=
  ⟨⟨⟨zeroConfig, buf, ⟨⟨.null, os⟩, []⟩, []⟩, []⟩, [], -1, -1,
    [.confInit, .parseConfig file, .ioInit], false⟩

section Steps

variable {K} {cb : Callbacks β} {p : Process β κ}

theorem mainStep_exited (action : MainAction κ) (hexited : p.exited = true) :
    mainStep K cb action p = .ok () p := by
  unfold mainStep
  rw [bind_of_ok (run_get p), if_pos hexited, run_pure]

variable (hexited : ¬ p.exited = true)
include hexited

theorem mainStep_idle (htodo : p.todo = []) : mainStep K cb .advance p = .ok () p := by
  unfold mainStep
  rw [bind_of_ok (run_get p), if_neg hexited, htodo]
  exact run_pure _ _

theorem mainStep_stage {stage : MainStage} {rest : List MainStage}
    (htodo : p.todo = stage :: rest) :
    mainStep K cb .advance p = performStage K stage { p with todo := rest } := by
  unfold mainStep
  rw [bind_of_ok (run_get p), if_neg hexited, htodo]
  exact bind_of_ok (run_modify _ _)

theorem mainStep_serve (data : IoData) (cmd : IoCmd) (htodo : p.todo = []) :
    mainStep K cb (.serve data cmd) p =
      (do let _ ← onLife (serveIo (watchedDrv K) cb data cmd)) p := by
  unfold mainStep
  rw [bind_of_ok (run_get p), if_neg hexited, htodo]

theorem mainStep_notServing (data : IoData) (cmd : IoCmd) (htodo : p.todo ≠ []) :
    mainStep K cb (.serve data cmd) p = .ok () p := by
  unfold mainStep
  rw [bind_of_ok (run_get p), if_neg hexited]
  cases htodo' : p.todo with
  | nil => exact absurd htodo' htodo
  | cons stage rest => exact run_pure _ _

theorem mainStep_signal : mainStep K cb .signal p = signalHandler K p := by
  unfold mainStep
  rw [bind_of_ok (run_get p), if_neg hexited]

theorem mainStep_uninterrupted (found : Env κ)
    (hnot : ∀ cntBus cntDev rest, p.todo = .hook (.initDev cntBus cntDev) :: rest →
      drivesPiface p.config cntBus cntDev = false) :
    mainStep K cb (.interrupt found) p = .ok () p := by
  unfold mainStep
  rw [bind_of_ok (run_get p), if_neg hexited]
  cases htodo : p.todo with
  | nil => exact run_pure _ _
  | cons stage rest =>
      cases stage with
      | hook hook =>
          cases hook with
          | initDev cntBus cntDev =>
              simp only [hnot cntBus cntDev rest htodo]
              exact run_pure _ _
          | openBus | deinitDev | closeBus => exact run_pure _ _
      | confInit | parseConfig | entry | ioInit => exact run_pure _ _

end Steps

section Undisturbed

variable {K} {cb : Callbacks β} {p q r : Process β κ}

/-- Left alone, `main` comes from one state to the other. -/
def ComesTo (K : Kernel κ) (cb : Callbacks β) (p q : Process β κ) : Prop :=
  ∃ n outputs, runAll (mainStep K cb) (List.replicate n .advance) p = .ok outputs q

theorem ComesTo.refl (p : Process β κ) : ComesTo K cb p p := ⟨0, [], rfl⟩

theorem ComesTo.trans (h : ComesTo K cb p q) (h' : ComesTo K cb q r) : ComesTo K cb p r := by
  obtain ⟨n, outputs, hrun⟩ := h
  obtain ⟨n', outputs', hrun'⟩ := h'
  refine ⟨n + n', outputs ++ outputs', ?_⟩
  rw [List.replicate_add, runAll_append, bind_of_ok hrun, bind_of_ok hrun', run_pure]

theorem ComesTo.stage {stage : MainStage} {rest : List MainStage} (hexited : p.exited = false)
    (htodo : p.todo = stage :: rest)
    (hrun : performStage K stage { p with todo := rest } = .ok () q) : ComesTo K cb p q := by
  have hstep : mainStep K cb .advance p = .ok () q :=
    (mainStep_stage (by simp [hexited]) htodo).trans hrun
  exact ⟨1, [()], runAll_cons_of_ok hstep rfl⟩

/-- The entries of the file are handled one after another. -/
theorem comesTo_entries {entries : List IniEntry} {rest : List MainStage} {codes : List Int}
    {t : BusConfigs κ} (hexited : p.exited = false) (htodo : p.todo = entries.map .entry ++ rest)
    (hrun : runAll (parserHandler K) entries p.userData = .ok codes t) :
    ComesTo K cb p { p.storeUserData t with todo := rest } := by
  induction entries generalizing p codes with
  | nil =>
      obtain ⟨-, rfl⟩ := EStateM.Result.ok.inj hrun
      have hsame : { p.storeUserData p.userData with todo := rest } = p := by
        rw [← show p.todo = rest from htodo]
        rfl
      rw [hsame]
      exact .refl p
  | cons e entries ih =>
      rw [runAll, run_bind] at hrun
      cases hhandled : parserHandler K e p.userData with
      | error fault u => simp [hhandled] at hrun
      | ok code u =>
          simp only [hhandled, run_bind] at hrun
          cases hrest : runAll (parserHandler K) entries u with
          | error fault v => simp [hrest] at hrun
          | ok codes' v =>
              simp only [hrest, run_pure] at hrun
              obtain ⟨-, rfl⟩ := EStateM.Result.ok.inj hrun
              let next : Process β κ :=
                { p.storeUserData u with todo := entries.map .entry ++ rest }
              have hentry : performStage K (.entry e)
                  { p with todo := entries.map .entry ++ rest } = .ok () next := by
                have hparsed : onUserData (parserHandler K e)
                    { p with todo := entries.map .entry ++ rest } = .ok code next := by
                  have hsame : parserHandler K e
                      (Process.userData { p with todo := entries.map .entry ++ rest }) =
                        .ok code u := hhandled
                  simp only [onUserData, hsame]
                  rfl
                exact bind_of_ok hparsed
              exact (ComesTo.stage hexited htodo hentry).trans (ih (p := next) hexited rfl hrest)

/-- The hooks are called one after another. -/
theorem comesTo_hooks {hooks : List HookStage} {life : Life BusHandle DevHandle β (Watched κ)}
    (hexited : p.exited = false) (htodo : p.todo = hooks.map .hook)
    (hrun : forAll (runStage (watchedBusDrv K) (watchedDrv K)) hooks p.life = .ok () life) :
    ComesTo K cb p { p with life := life, todo := [] } := by
  induction hooks generalizing p with
  | nil =>
      obtain ⟨-, rfl⟩ := EStateM.Result.ok.inj hrun
      rw [← show p.todo = [] from htodo]
      exact .refl p
  | cons hook hooks ih =>
      rw [forAll, run_bind] at hrun
      cases hcalled : runStage (watchedBusDrv K) (watchedDrv K) hook p.life with
      | error fault t => simp [hcalled] at hrun
      | ok _ t =>
          simp only [hcalled] at hrun
          let next : Process β κ := { p with life := t, todo := hooks.map .hook }
          have hstage : performStage K (.hook hook) { p with todo := hooks.map .hook } =
              .ok () next := by
            simp only [performStage, onLife, hcalled]
            rfl
          exact (ComesTo.stage hexited htodo hstage).trans (ih (p := next) hexited rfl hrun)

/-- Left alone, `main` comes to serve with what `parse_config` and `io_init` have made
of the file. -/
theorem comesTo_serving {lines : List IniLine} {buf : β} {os : κ} {codes : List Int}
    {t : BusConfigs κ} {life : Life BusHandle DevHandle β (Watched κ)} {rc : Int}
    (hparse : runAll (parserHandler K) (entriesOf lines)
      (userData (confInit zeroConfig).2 ⟨.null, os⟩) = .ok codes t)
    (hinit : ioInit (watchedBusDrv K) (watchedDrv K)
      ⟨⟨t.config, buf, ⟨t.world, []⟩, []⟩, []⟩ = .ok rc life) :
    ∃ p, ComesTo K cb (installed (some lines) buf os) p ∧ p.life = life ∧ p.todo = [] ∧
      p.exited = false := by
  let start : Process β κ := installed (some lines) buf os
  let cleared : Process β κ :=
    { start with
      life.sys.config := (confInit zeroConfig).2
      todo := [.parseConfig (some lines), .ioInit] }
  let opened : Process β κ :=
    { cleared.storeUserData (userData (confInit zeroConfig).2 ⟨.null, os⟩) with
      todo := (entriesOf lines).map .entry ++ [.ioInit] }
  let parsed : Process β κ := { opened.storeUserData t with todo := [.ioInit] }
  let entered : Process β κ :=
    { parsed with todo := (initStages t.config).map .hook ++ [] }
  have hclear : ComesTo K cb start cleared := .stage rfl rfl rfl
  have hopen : ComesTo K cb cleared opened := .stage rfl rfl rfl
  have hentries : ComesTo K cb opened parsed := comesTo_entries rfl rfl hparse
  have henter : ComesTo K cb parsed entered := .stage rfl rfl rfl
  have hhooks : forAll (runStage (watchedBusDrv K) (watchedDrv K)) (initStages t.config)
      entered.life = .ok () life := by
    rw [ioInit_stages, run_bind] at hinit
    cases hrun : forAll (runStage (watchedBusDrv K) (watchedDrv K)) (initStages t.config)
        entered.life with
    | ok _ u =>
        have hsame : forAll (runStage (watchedBusDrv K) (watchedDrv K)) (initStages t.config)
          ⟨⟨t.config, buf, ⟨t.world, []⟩, []⟩, []⟩ = .ok () u := hrun
        simp only [hsame, run_pure] at hinit
        obtain ⟨-, rfl⟩ := EStateM.Result.ok.inj hinit
        rfl
    | error e u =>
        have hsame : forAll (runStage (watchedBusDrv K) (watchedDrv K)) (initStages t.config)
          ⟨⟨t.config, buf, ⟨t.world, []⟩, []⟩, []⟩ = .error e u := hrun
        simp [hsame] at hinit
  have hinited : ComesTo K cb entered { entered with life := life, todo := [] } :=
    comesTo_hooks rfl (List.append_nil _) hhooks
  exact ⟨_, ((hclear.trans hopen).trans hentries).trans (henter.trans hinited), rfl, rfl, rfl⟩

end Undisturbed

end Switcher
