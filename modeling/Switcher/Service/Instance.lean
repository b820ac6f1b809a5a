import Mathlib.Data.List.Basic
import Mathlib.Logic.Function.Iterate
import Switcher.Lib.FileLock

/-!
The instances of the program on one host, each taking one step at a time: `main` with
`daemonize`, and `signal_handler`. Only an instance that runs as a daemon locks the
PID file. The two `fork`s of `daemonize` belong to the first step, behind which the
instance has the PID of the process that goes on.
-/

namespace Switcher

open Lib.FileLock Function

/-- How far `main`, or its signal handler, has come. -/
inductive Stage where
  | start
  | chdir | stat | mkdir | openPid | lock | openStream | writePid
  | ioInit | serve
  | ioDeinit | unlock | closeStream | unlink
  | exited
  deriving DecidableEq, Repr

structure Instance where
  stage : Stage
  runAsDaemon : Bool
  cwd : List Char
  /-- The file that `fh_pid` refers to. -/
  fhPid : Option Nat
  /-- `stream_pid` is not `NULL`. -/
  streamPid : Bool

/-- The names and files of the host, whether `PID_DIR` exists, and its instances by PID. -/
structure Host where
  volume : Volume (List Char) Nat
  pidDirExists : Bool
  instances : Nat → Instance

def pidFile : List Char := "switcher.pid".toList

def pidDir : List Char := "/var/run/switcher".toList

/-- `WORK_DIR`. -/
def workDir : List Char := "/".toList

/-- `pid_path`. -/
def pidPath : List Char := pidDir ++ '/' :: pidFile

/-- What a name without a directory means. -/
def absolute (cwd name : List Char) : List Char :=
  if cwd = workDir then workDir ++ name else cwd ++ '/' :: name

/-- What is printed to the PID file. -/
def pidText (pid : Nat) : List Char := Nat.toDigits 10 pid ++ ['\n']

def Host.put (h : Host) (pid : Nat) (p : Instance) : Host :=
  { h with instances := update h.instances pid p }

def Host.goto (h : Host) (pid : Nat) (stage : Stage) : Host :=
  h.put pid { h.instances pid with stage := stage }

/-- The end of a process, which closes what it has open. -/
def Host.exit (h : Host) (pid : Nat) : Host :=
  let p := h.instances pid
  { h with volume := h.volume.close p.fhPid pid }.put pid
    { p with stage := .exited, fhPid := none, streamPid := false }

/-- The next step of an instance. A system call fails if told to, or if it has to. -/
def advance (pid : Nat) (fails : Bool) (h : Host) : Host :=
  let p := h.instances pid
  match p.stage with
  | .start => if fails then h.exit pid else h.goto pid (if p.runAsDaemon then .chdir else .ioInit)
  -- the result of `chdir` is not looked at
  | .chdir => h.put pid { p with stage := .stat, cwd := if fails then p.cwd else workDir }
  | .stat => h.goto pid (if h.pidDirExists && !fails then .openPid else .mkdir)
  | .mkdir =>
      if fails || h.pidDirExists then h.exit pid
      else { h with pidDirExists := true }.goto pid .openPid
  -- nor is that of `open`
  | .openPid =>
      if fails || !h.pidDirExists then h.put pid { p with stage := .lock, fhPid := none }
      else
        let (i, v) := h.volume.openFile pidPath
        { h with volume := v }.put pid { p with stage := .lock, fhPid := some i }
  | .lock =>
      match p.fhPid with
      | none => h.goto pid .openStream
      | some i =>
          match h.volume.lock i pid with
          | none => h.exit pid
          | some v => { h with volume := v }.goto pid .openStream
  | .openStream =>
      if fails || p.fhPid.isNone then h.exit pid
      else h.put pid { p with stage := .writePid, streamPid := true }
  | .writePid =>
      match p.fhPid with
      | none => h.goto pid .ioInit
      | some i =>
          if fails then h.goto pid .ioInit
          else { h with volume := h.volume.overwrite i (pidText pid) }.goto pid .ioInit
  | .ioInit => h.goto pid .serve
  | .serve => h
  | .ioDeinit => h.goto pid (if p.streamPid then .unlock else .unlink)
  | .unlock => { h with volume := h.volume.close p.fhPid pid }.goto pid .closeStream
  | .closeStream =>
      { h with volume := h.volume.close p.fhPid pid }.put pid
        { p with stage := .unlink, fhPid := none, streamPid := false }
  | .unlink => { h with volume := h.volume.unlink (absolute p.cwd pidFile) }.exit pid
  | .exited => h

/-- Something happens on the host: an instance is started in a directory, takes a step,
is told by `flock` that something else is wrong than a lock that is held, gets a signal
that it handles, or is killed. -/
inductive HostAction where
  | spawn (pid : Nat) (runAsDaemon : Bool) (cwd : List Char)
  | advance (pid : Nat) (fails : Bool)
  | lockFails (pid : Nat)
  | signal (pid : Nat)
  | kill (pid : Nat)
  deriving DecidableEq

def hostStep (h : Host) : HostAction → Host
  | .spawn pid runAsDaemon cwd =>
      if (h.instances pid).stage = .exited then
        h.put pid ⟨.start, runAsDaemon, cwd, none, false⟩
      else h
  | .advance pid fails => advance pid fails h
  | .lockFails pid => if (h.instances pid).stage = .lock then h.goto pid .openStream else h
  | .signal pid => if (h.instances pid).stage = .exited then h else h.goto pid .ioDeinit
  | .kill pid => h.exit pid

def hostRun (actions : List HostAction) (h : Host) : Host := actions.foldl hostStep h

/-- An instance that does not run. -/
def Instance.gone : Instance := ⟨.exited, false, workDir, none, false⟩

/-- No instance runs and no file is locked. There may be files left by earlier ones. -/
structure Host.Quiet (h : Host) : Prop where
  gone : ∀ pid, h.instances pid = .gone
  unlocked : ∀ i, h.volume.holder i = none

section Live

/-- The stages in which an instance has no PID file open. -/
def Stage.Closed (stage : Stage) : Prop :=
  stage ∈ [Stage.start, .chdir, .stat, .mkdir, .openPid, .exited]

/-- Who holds a lock has the file open, and runs. -/
structure Host.Live (h : Host) : Prop where
  holder : ∀ i pid, h.volume.holder i = some pid → (h.instances pid).fhPid = some i
  closed : ∀ pid, (h.instances pid).stage.Closed → (h.instances pid).fhPid = none

variable {h : Host} {pid : Nat} {fails : Bool}

theorem live_of_put (hlive : h.Live) {p : Instance} {v : Volume (List Char) Nat} {exists' : Bool}
    (hothers : ∀ i q, q ≠ pid → v.holder i = some q → h.volume.holder i = some q)
    (hself : ∀ i, v.holder i = some pid → p.fhPid = some i)
    (hclosed : p.stage.Closed → p.fhPid = none) :
    (Host.put ⟨v, exists', h.instances⟩ pid p).Live := by
  have hat : (Host.put ⟨v, exists', h.instances⟩ pid p).instances pid = p := update_self ..
  have hother {q : Nat} (hne : q ≠ pid) :
      (Host.put ⟨v, exists', h.instances⟩ pid p).instances q = h.instances q :=
    update_of_ne hne _ _
  constructor
  · intro i q hi
    rcases eq_or_ne q pid with rfl | hne
    · rw [hat]
      exact hself i hi
    · rw [hother hne]
      exact hlive.holder i q (hothers i q hne hi)
  · intro q hq
    rcases eq_or_ne q pid with rfl | hne
    · rw [hat] at hq ⊢
      exact hclosed hq
    · rw [hother hne] at hq ⊢
      exact hlive.closed q hq

/-- An instance whose handle stays moves on. -/
theorem live_goto (hlive : h.Live) {p : Instance} {exists' : Bool}
    (hfh : p.fhPid = (h.instances pid).fhPid)
    (hclosed : p.stage.Closed → (h.instances pid).stage.Closed) :
    (Host.put ⟨h.volume, exists', h.instances⟩ pid p).Live := by
  apply live_of_put hlive
  · exact fun _ _ _ hi => hi
  · intro i hi
    rw [hfh]
    exact hlive.holder i pid hi
  · intro hp
    rw [hfh]
    exact hlive.closed pid (hclosed hp)

/-- With its handle, an instance loses its lock. -/
theorem live_close (hlive : h.Live) {p : Instance} {v : Volume (List Char) Nat}
    (hholder : v.holder = h.volume.holder) (hfh : p.fhPid = none) :
    (Host.put ⟨v.close (h.instances pid).fhPid pid, h.pidDirExists, h.instances⟩ pid p).Live := by
  apply live_of_put hlive
  · intro i q _ hi
    rw [← hholder]
    exact (holder_of_close hi).1
  · intro i hi
    obtain ⟨hheld, hnot⟩ := holder_of_close hi
    rw [hholder] at hheld
    exact absurd ⟨hlive.holder i pid hheld, rfl⟩ hnot
  · exact fun _ => hfh

theorem live_exit (hlive : h.Live) : (h.exit pid).Live := live_close hlive rfl rfl

theorem live_openPid (hlive : h.Live) (hstage : (h.instances pid).stage = .openPid) :
    (advance pid fails h).Live := by
  have hnone : (h.instances pid).fhPid = none := hlive.closed pid (by simp [hstage, Stage.Closed])
  simp only [advance, hstage]
  split
  · exact live_goto hlive hnone.symm fun hbad => by simp [Stage.Closed] at hbad
  · apply live_of_put hlive
    · exact fun i q _ hi => holder_of_openFile hi
    · intro i hi
      cases hnone.symm.trans (hlive.holder i pid (holder_of_openFile hi))
    · simp [Stage.Closed]

theorem live_lock (hlive : h.Live) (hstage : (h.instances pid).stage = .lock) :
    (advance pid fails h).Live := by
  simp only [advance, hstage]
  cases hfh : (h.instances pid).fhPid with
  | none => exact live_goto hlive rfl fun hbad => by simp [Stage.Closed] at hbad
  | some i =>
      dsimp only
      cases hlock : h.volume.lock i pid with
      | none => exact live_exit hlive
      | some v =>
          apply live_of_put hlive
          · intro j q hne hj
            exact (holder_of_lock hlock hj).resolve_right fun hself => hne hself.2
          · intro j hj
            rcases holder_of_lock hlock hj with hheld | ⟨rfl, -⟩
            · exact hlive.holder j pid hheld
            · exact hfh
          · simp [Stage.Closed]

theorem live_writePid (hlive : h.Live) (hstage : (h.instances pid).stage = .writePid) :
    (advance pid fails h).Live := by
  simp only [advance, hstage]
  cases hfh : (h.instances pid).fhPid with
  | none => exact live_goto hlive rfl fun hbad => by simp [Stage.Closed] at hbad
  | some i =>
      dsimp only
      split
      · exact live_goto hlive rfl fun hbad => by simp [Stage.Closed] at hbad
      · apply live_of_put hlive
        · exact fun _ _ _ hi => hi
        · exact fun j hj => hlive.holder j pid hj
        · simp [Stage.Closed]

theorem live_unlock (hlive : h.Live) (hstage : (h.instances pid).stage = .unlock) :
    (advance pid fails h).Live := by
  simp only [advance, hstage]
  apply live_of_put hlive
  · exact fun _ _ _ hi => (holder_of_close hi).1
  · exact fun i hi => hlive.holder i pid (holder_of_close hi).1
  · simp [Stage.Closed]

theorem live_advance (hlive : h.Live) : (advance pid fails h).Live := by
  cases hstage : (h.instances pid).stage with
  | start =>
      simp only [advance, hstage]
      split
      · exact live_exit hlive
      · exact live_goto hlive rfl fun _ => by simp [hstage, Stage.Closed]
  | chdir =>
      simp only [advance, hstage]
      exact live_goto hlive rfl fun _ => by simp [hstage, Stage.Closed]
  | stat =>
      simp only [advance, hstage]
      exact live_goto hlive rfl fun _ => by simp [hstage, Stage.Closed]
  | mkdir =>
      simp only [advance, hstage]
      split
      · exact live_exit hlive
      · exact live_goto hlive rfl fun _ => by simp [hstage, Stage.Closed]
  | openPid => exact live_openPid hlive hstage
  | lock => exact live_lock hlive hstage
  | openStream =>
      simp only [advance, hstage]
      split
      · exact live_exit hlive
      · exact live_goto hlive rfl fun hbad => by simp [Stage.Closed] at hbad
  | writePid => exact live_writePid hlive hstage
  | ioInit =>
      simp only [advance, hstage]
      exact live_goto hlive rfl fun hbad => by simp [Stage.Closed] at hbad
  | ioDeinit =>
      simp only [advance, hstage]
      refine live_goto hlive rfl fun hbad => ?_
      split at hbad <;> simp [Stage.Closed] at hbad
  | unlock => exact live_unlock hlive hstage
  | closeStream =>
      simp only [advance, hstage]
      exact live_close hlive rfl rfl
  | unlink =>
      simp only [advance, hstage]
      exact live_close hlive rfl rfl
  | serve | exited =>
      simp only [advance, hstage]
      exact hlive

/-- Whatever happens, no lock is left behind. -/
theorem hostStep_live (hlive : h.Live) (action : HostAction) : (hostStep h action).Live := by
  cases action with
  | spawn pid runAsDaemon cwd =>
      simp only [hostStep]
      split
      · next hexited =>
          have hnone := hlive.closed pid (by simp [hexited, Stage.Closed])
          exact live_goto hlive hnone.symm fun _ => by simp [hexited, Stage.Closed]
      · exact hlive
  | advance pid fails => exact live_advance hlive
  | lockFails pid =>
      simp only [hostStep]
      split
      · exact live_goto hlive rfl fun hbad => by simp [Stage.Closed] at hbad
      · exact hlive
  | signal pid =>
      simp only [hostStep]
      split
      · exact hlive
      · exact live_goto hlive rfl fun hbad => by simp [Stage.Closed] at hbad
  | kill pid => exact live_exit hlive

theorem hostRun_live (hlive : h.Live) (actions : List HostAction) : (hostRun actions h).Live := by
  induction actions generalizing h with
  | nil => exact hlive
  | cons action rest ih => exact ih (hostStep_live hlive action)

theorem Host.Quiet.live (hquiet : h.Quiet) : h.Live := by
  constructor
  · intro i pid hi
    cases (hquiet.unlocked i).symm.trans hi
  · intro pid _
    rw [hquiet.gone]
    rfl

end Live

section Restart

variable {h : Host} {pid : Nat}

/-- The instance runs, as a daemon that is not told to stop, and has come to a stage. -/
structure Host.At (h : Host) (pid : Nat) (stage : Stage) : Prop where
  live : h.Live
  daemon : (h.instances pid).runAsDaemon = true
  stage : (h.instances pid).stage = stage

/-- The PID file is open. -/
structure Host.Opened (h : Host) (pid : Nat) (stage : Stage) : Prop extends h.At pid stage where
  opened : ∃ i, (h.instances pid).fhPid = some i ∧ h.volume.entry pidPath = some i

/-- The instance has found another one in its way. -/
def Host.Met (h : Host) (pid : Nat) : Prop :=
  (h.instances pid).stage = .exited ∧ ∃ other, other ≠ pid ∧
    (h.instances other).stage ≠ .exited ∧ h.volume.Owns pidPath other

/-- Left alone, the instance takes the host to a state with this property. -/
def Host.Reaches (h : Host) (pid : Nat) (Q : Host → Prop) : Prop :=
  ∃ n, Q ((advance pid false)^[n] h)

theorem Host.Reaches.now {Q : Host → Prop} (hQ : Q h) : h.Reaches pid Q := ⟨0, hQ⟩

theorem Host.Reaches.step {Q : Host → Prop} (h' : (advance pid false h).Reaches pid Q) :
    h.Reaches pid Q := by
  obtain ⟨n, hQ⟩ := h'
  exact ⟨n + 1, hQ⟩

/-- Where a step has taken the instance. -/
theorem at_of_step {p : Instance} {v : Volume (List Char) Nat} {exists' : Bool} {stage : Stage}
    (hlive : h.Live) (hstep : advance pid false h = Host.put ⟨v, exists', h.instances⟩ pid p)
    (hdaemon : p.runAsDaemon = true) (hstage : p.stage = stage) :
    (advance pid false h).At pid stage := by
  have hself : (advance pid false h).instances pid = p := by
    rw [hstep]
    exact update_self ..
  refine ⟨live_advance hlive, ?_, ?_⟩
  · rw [hself]
    exact hdaemon
  · rw [hself]
    exact hstage

theorem opened_of_step {p : Instance} {v : Volume (List Char) Nat} {exists' : Bool}
    {stage : Stage} (hlive : h.Live)
    (hstep : advance pid false h = Host.put ⟨v, exists', h.instances⟩ pid p)
    (hdaemon : p.runAsDaemon = true) (hstage : p.stage = stage)
    (hopened : ∃ i, p.fhPid = some i ∧ v.entry pidPath = some i) :
    (advance pid false h).Opened pid stage := by
  refine ⟨at_of_step hlive hstep hdaemon hstage, ?_⟩
  rw [hstep]
  have hself : (Host.put ⟨v, exists', h.instances⟩ pid p).instances pid = p := update_self ..
  rw [hself]
  exact hopened

theorem at_chdir (h' : h.At pid .start) : (advance pid false h).At pid .chdir := by
  have hstep : advance pid false h = h.goto pid .chdir := by
    simp [advance, h'.stage, h'.daemon]
  exact at_of_step h'.live hstep h'.daemon rfl

theorem at_stat (h' : h.At pid .chdir) : (advance pid false h).At pid .stat := by
  have hstep : advance pid false h =
      h.put pid { h.instances pid with stage := .stat, cwd := workDir } := by
    simp [advance, h'.stage]
  exact at_of_step h'.live hstep h'.daemon rfl

theorem at_openPid_or_mkdir (h' : h.At pid .stat) :
    (advance pid false h).At pid .openPid ∧ (advance pid false h).pidDirExists = true ∨
      (advance pid false h).At pid .mkdir ∧ (advance pid false h).pidDirExists = false := by
  cases hexists : h.pidDirExists with
  | true =>
      have hstep : advance pid false h = h.goto pid .openPid := by
        simp [advance, h'.stage, hexists]
      refine .inl ⟨at_of_step h'.live hstep h'.daemon rfl, ?_⟩
      rw [hstep]
      exact hexists
  | false =>
      have hstep : advance pid false h = h.goto pid .mkdir := by
        simp [advance, h'.stage, hexists]
      refine .inr ⟨at_of_step h'.live hstep h'.daemon rfl, ?_⟩
      rw [hstep]
      exact hexists

theorem at_openPid (h' : h.At pid .mkdir) (hexists : h.pidDirExists = false) :
    (advance pid false h).At pid .openPid ∧ (advance pid false h).pidDirExists = true := by
  have hstep : advance pid false h = { h with pidDirExists := true }.goto pid .openPid := by
    simp [advance, h'.stage, hexists]
  refine ⟨at_of_step h'.live hstep h'.daemon rfl, ?_⟩
  rw [hstep]
  rfl

theorem opened_lock (h' : h.At pid .openPid) (hexists : h.pidDirExists = true) :
    (advance pid false h).Opened pid .lock := by
  have hstep : advance pid false h =
      { h with volume := (h.volume.openFile pidPath).2 }.put pid
        { h.instances pid with stage := .lock, fhPid := some (h.volume.openFile pidPath).1 } := by
    simp [advance, h'.stage, hexists]
  exact opened_of_step h'.live hstep h'.daemon rfl ⟨_, rfl, entry_openFile⟩

theorem opened_openStream (h' : h.Opened pid .lock) :
    (advance pid false h).Opened pid .openStream ∨ (advance pid false h).Met pid := by
  obtain ⟨i, hfh, hentry⟩ := h'.opened
  cases hlock : h.volume.lock i pid with
  | some v =>
      left
      have hstep : advance pid false h = { h with volume := v }.goto pid .openStream := by
        simp [advance, h'.stage, hfh, hlock]
      exact opened_of_step h'.live hstep h'.daemon rfl
        ⟨i, hfh, (congrFun (entry_lock hlock) pidPath).trans hentry⟩
  | none =>
      right
      obtain ⟨other, hne, hholder⟩ := holder_of_refused hlock
      have hstep : advance pid false h = h.exit pid := by
        simp [advance, h'.stage, hfh, hlock]
      have hother : (h.exit pid).instances other = h.instances other := update_of_ne hne _ _
      have howns : h.volume.Owns pidPath other := ⟨i, hentry, hholder⟩
      rw [hstep]
      refine ⟨?_, other, hne, ?_, howns.spared (spares_close _) hne⟩
      · simp [Host.exit, Host.put]
      · rw [hother]
        intro hexited
        have hnone := h'.live.closed other (by simp [hexited, Stage.Closed])
        cases hnone.symm.trans (h'.live.holder i other hholder)

theorem opened_writePid (h' : h.Opened pid .openStream) :
    (advance pid false h).Opened pid .writePid := by
  obtain ⟨i, hfh, hentry⟩ := h'.opened
  have hstep : advance pid false h =
      h.put pid { h.instances pid with stage := .writePid, streamPid := true } := by
    simp [advance, h'.stage, hfh]
  exact opened_of_step h'.live hstep h'.daemon rfl ⟨i, hfh, hentry⟩

theorem at_ioInit (h' : h.Opened pid .writePid) : (advance pid false h).At pid .ioInit := by
  obtain ⟨i, hfh, -⟩ := h'.opened
  have hstep : advance pid false h =
      { h with volume := h.volume.overwrite i (pidText pid) }.goto pid .ioInit := by
    simp [advance, h'.stage, hfh]
  exact at_of_step h'.live hstep h'.daemon rfl

theorem at_serve (h' : h.At pid .ioInit) : (advance pid false h).At pid .serve := by
  have hstep : advance pid false h = h.goto pid .serve := by simp [advance, h'.stage]
  exact at_of_step h'.live hstep h'.daemon rfl

/-- It serves, or it has found another instance that holds the lock. -/
def Host.Settled (pid : Nat) (h : Host) : Prop := h.At pid .serve ∨ h.Met pid

theorem settles_of_openPid (h' : h.At pid .openPid) (hexists : h.pidDirExists = true) :
    h.Reaches pid (Host.Settled pid) := by
  apply Host.Reaches.step
  have hlock := opened_lock h' hexists
  apply Host.Reaches.step
  rcases opened_openStream hlock with hstream | hmet
  · have hserves := at_serve (at_ioInit (opened_writePid hstream))
    exact .step (.step (.step (.now (.inl hserves))))
  · exact .now (.inr hmet)

theorem settles_of_start (h' : h.At pid .start) : h.Reaches pid (Host.Settled pid) := by
  apply Host.Reaches.step
  apply Host.Reaches.step
  have hstat := at_stat (at_chdir h')
  apply Host.Reaches.step
  rcases at_openPid_or_mkdir hstat with ⟨hopen, hexists⟩ | ⟨hmkdir, hmissing⟩
  · exact settles_of_openPid hopen hexists
  · apply Host.Reaches.step
    obtain ⟨hopen, hexists⟩ := at_openPid hmkdir hmissing
    exact settles_of_openPid hopen hexists

/-- Whatever has happened on the host before, kills and failed calls included: a daemon
that is started, whose own calls do not fail, comes to serve, or meets another instance
that runs and holds the lock. Nothing left behind keeps it from serving. -/
theorem start_settles (hquiet : h.Quiet) (actions : List HostAction)
    (hexited : ((hostRun actions h).instances pid).stage = .exited) (cwd : List Char) :
    (hostStep (hostRun actions h) (.spawn pid true cwd)).Reaches pid (Host.Settled pid) := by
  have hlive := hostStep_live (hostRun_live hquiet.live actions) (.spawn pid true cwd)
  apply settles_of_start
  have hstep : hostStep (hostRun actions h) (.spawn pid true cwd) =
      (hostRun actions h).put pid ⟨.start, true, cwd, none, false⟩ := by
    simp only [hostStep, hexited, if_true]
  have hself : (hostStep (hostRun actions h) (.spawn pid true cwd)).instances pid =
      ⟨.start, true, cwd, none, false⟩ := by
    rw [hstep]
    exact update_self ..
  refine ⟨hlive, ?_, ?_⟩
  · rw [hself]
  · rw [hself]

/-- A host where a PID file has been left. -/
def leftoverHost : Host where
  volume :=
    { entry := fun name => if name = pidPath then some 0 else none
      content := fun _ => "31337\n".toList
      holder := fun _ => none
      fresh := 1
      entry_lt := fun name i hi => by
        split at hi
        · exact Option.some.inj hi ▸ Nat.zero_lt_one
        · cases hi }
  pidDirExists := true
  instances _ := .gone

theorem leftoverHost_quiet : leftoverHost.Quiet := ⟨fun _ => rfl, fun _ => rfl⟩

/-- A daemon is started and goes on for eight steps. -/
def startDaemon (pid : Nat) : List HostAction :=
  .spawn pid true "/".toList :: List.replicate 8 (.advance pid false)

/-- One daemon serves and is killed, another one is started. -/
theorem start_settles_killed :
    (hostStep (hostRun (startDaemon 7 ++ [.kill 7]) leftoverHost)
      (.spawn 8 true "/".toList)).Reaches 8 (Host.Settled 8) :=
  start_settles leftoverHost_quiet _ (by decide +kernel) _

end Restart

end Switcher
