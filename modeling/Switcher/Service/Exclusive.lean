import Switcher.Lib.Numeral
import Switcher.Service.Instance

/-!
What the lock of the PID file is good for: the devices have one user at a time, and the
file tells which. The signal handler removes a `switcher.pid` of the directory that it
runs in, which must not be the locked one.
-/

namespace Switcher

open Lib.FileLock Lib.Numeral Function

/-- No instance is started in the directory of the PID file, and `flock` fails for no
other reason than a lock that is held. -/
def HostAction.Regular : HostAction → Prop
  | .spawn _ _ cwd => cwd ≠ pidDir
  | .lockFails _ => False
  | .advance _ _ | .signal _ | .kill _ => True

/-- The instance is a daemon that uses the devices: `io_init` has been called, and no
signal has arrived. -/
def Instance.Drives (p : Instance) : Prop :=
  p.runAsDaemon = true ∧ (p.stage = .ioInit ∨ p.stage = .serve)

/-- The instance is behind its `flock`, and not told to stop. -/
def Instance.Behind (p : Instance) : Prop :=
  p.stage = .openStream ∨ p.stage = .writePid ∨ p.Drives

/-- The first line of a text. -/
def firstLine (text : List Char) : List Char := text.takeWhile (· ≠ '\n')

/-- The PID file names the process. -/
def Names (v : Volume (List Char) Nat) (pid : Nat) : Prop :=
  ∃ i, v.entry pidPath = some i ∧ firstLine (v.content i) = Nat.toDigits 10 pid

/-- What holds of an instance on the way of a regular run. -/
structure Instance.Sound (careful : Prop) (p : Instance) (v : Volume (List Char) Nat) (pid : Nat) :
    Prop where
  cwd : p.cwd ≠ pidDir
  opened : ∀ i, p.fhPid = some i → v.entry pidPath = some i
  owns : p.Behind → p.fhPid.isSome → v.Owns pidPath pid
  handle : p.stage = .writePid ∨ p.Drives → p.fhPid.isSome
  names : careful → p.Drives → Names v pid

/-- One instance has moved, and has left the others what they own. -/
structure Moved (careful : Prop) (pid : Nat) (h h' : Host) : Prop where
  others : ∀ q, q ≠ pid → h'.instances q = h.instances q
  spares : h.volume.Spares pidPath pid h'.volume
  sound : (h'.instances pid).Sound careful h'.volume pid

section Files

theorem workDir_ne : workDir ≠ pidDir := by decide

theorem absolute_ne {cwd : List Char} (h : cwd ≠ pidDir) : pidPath ≠ absolute cwd pidFile := by
  unfold absolute
  split
  · decide
  · intro heq
    exact h (List.append_cancel_right heq).symm

theorem firstLine_pidText (pid : Nat) (rest : List Char) :
    firstLine (pidText pid ++ rest) = Nat.toDigits 10 pid := by
  have hdigits : ∀ c ∈ Nat.toDigits 10 pid, decide (c ≠ '\n') = true := by
    intro c hc
    have hdigit := isDigit_toDigits decimal pid c hc
    apply decide_eq_true
    rintro rfl
    exact absurd hdigit (by decide)
  rw [firstLine, pidText, List.append_assoc, List.takeWhile_append_of_pos hdigits]
  simp

variable {v w : Volume (List Char) Nat} {pid q i : Nat}

theorem Names.spared (h : Names v q) (howns : v.Owns pidPath q)
    (hspares : v.Spares pidPath pid w) (hne : q ≠ pid) : Names w q := by
  obtain ⟨i, hentry, hline⟩ := h
  obtain ⟨j, hentry', hholder⟩ := howns
  obtain rfl := Option.some.inj (hentry.symm.trans hentry')
  exact ⟨i, hspares.entry i hentry, by rw [hspares.content i q hne hentry hholder]; exact hline⟩

theorem names_overwrite (hentry : v.entry pidPath = some i) :
    Names (v.overwrite i (pidText pid)) pid := by
  refine ⟨i, hentry, ?_⟩
  have hcontent : (v.overwrite i (pidText pid)).content i = _ := update_self ..
  rw [hcontent]
  exact firstLine_pidText pid _

end Files

section Sound

variable {careful : Prop} {p : Instance} {v w : Volume (List Char) Nat} {pid q : Nat}

theorem Instance.Sound.spared (h : p.Sound careful v q) (hspares : v.Spares pidPath pid w)
    (hne : q ≠ pid) : p.Sound careful w q where
  cwd := h.cwd
  opened i hi := hspares.entry i (h.opened i hi)
  owns hbehind hopen := (h.owns hbehind hopen).spared hspares hne
  handle := h.handle
  names hcareful hdrives :=
    (h.names hcareful hdrives).spared
      (h.owns (.inr (.inr hdrives)) (h.handle (.inr hdrives))) hspares hne

theorem nothing_opened (i : Nat) (hi : none = some i) : v.entry pidPath = some i := by
  cases hi

/-- An instance that is not behind its `flock` relies on little. -/
theorem sound_of_early (hcwd : p.cwd ≠ pidDir)
    (hopened : ∀ i, p.fhPid = some i → v.entry pidPath = some i) (hearly : ¬ p.Behind) :
    p.Sound careful v pid where
  cwd := hcwd
  opened := hopened
  owns hbehind := absurd hbehind hearly
  handle hstage := absurd (.inr hstage) hearly
  names _ hdrives := absurd (.inr (.inr hdrives)) hearly

theorem early_of_stage (h : p.stage ∉ [.openStream, .writePid, .ioInit, .serve]) : ¬ p.Behind := by
  rintro (hstage | hstage | ⟨-, hstage | hstage⟩) <;> simp [hstage] at h

end Sound

section Moves

variable {careful : Prop} {h h' : Host} {pid : Nat} {fails : Bool}

/-- The instance has come to a stage, and the files have changed. -/
theorem moved_of_put {p : Instance} {v : Volume (List Char) Nat} {exists' : Bool}
    (hspares : h.volume.Spares pidPath pid v) (hsound : p.Sound careful v pid) :
    Moved careful pid h (Host.put ⟨v, exists', h.instances⟩ pid p) where
  others _ hne := update_of_ne hne _ _
  spares := hspares
  sound := by
    have hself : (Host.put ⟨v, exists', h.instances⟩ pid p).instances pid = p := update_self ..
    rw [hself]
    exact hsound

theorem moved_of_stay {p : Instance} (hsound : p.Sound careful h.volume pid) :
    Moved careful pid h (h.put pid p) :=
  moved_of_put (spares_refl ..) hsound

variable (hs : (h.instances pid).Sound careful h.volume pid)
include hs

theorem moved_refl : Moved careful pid h h := ⟨fun _ _ => rfl, spares_refl .., hs⟩

/-- A step to a stage that is not behind the `flock`. -/
theorem moved_early {stage : Stage} (hearly : stage ∉ [.openStream, .writePid, .ioInit, .serve]) :
    Moved careful pid h (h.goto pid stage) :=
  moved_of_stay (sound_of_early hs.cwd hs.opened (early_of_stage hearly))

theorem moved_exit : Moved careful pid h (h.exit pid) := by
  refine moved_of_put (spares_close _) (sound_of_early hs.cwd nothing_opened ?_)
  exact early_of_stage (by simp)

theorem moved_start (hstage : (h.instances pid).stage = .start) :
    Moved careful pid h (advance pid fails h) := by
  simp only [advance, hstage]
  split
  · exact moved_exit hs
  · split
    · exact moved_early hs (by simp)
    · next hforeground =>
        refine moved_of_stay (sound_of_early hs.cwd hs.opened ?_)
        rintro (hbad | hbad | ⟨hdaemon, -⟩)
        · cases hbad
        · cases hbad
        · exact hforeground hdaemon

theorem moved_chdir (hstage : (h.instances pid).stage = .chdir) :
    Moved careful pid h (advance pid fails h) := by
  simp only [advance, hstage]
  refine moved_of_stay (sound_of_early ?_ hs.opened (early_of_stage (by simp)))
  cases fails with
  | true => exact hs.cwd
  | false => exact workDir_ne

theorem moved_mkdir (hstage : (h.instances pid).stage = .mkdir) :
    Moved careful pid h (advance pid fails h) := by
  simp only [advance, hstage]
  split
  · exact moved_exit hs
  · exact moved_of_put (spares_refl ..)
      (sound_of_early hs.cwd hs.opened (early_of_stage (by simp)))

theorem moved_openPid (hstage : (h.instances pid).stage = .openPid) :
    Moved careful pid h (advance pid fails h) := by
  simp only [advance, hstage]
  split
  · exact moved_of_stay
      (sound_of_early hs.cwd nothing_opened (early_of_stage (by simp)))
  · refine moved_of_put spares_openFile (sound_of_early hs.cwd ?_ (early_of_stage (by simp)))
    intro i hi
    rw [← Option.some.inj hi]
    exact entry_openFile

theorem moved_lock (hstage : (h.instances pid).stage = .lock) :
    Moved careful pid h (advance pid fails h) := by
  simp only [advance, hstage]
  cases hfh : (h.instances pid).fhPid with
  | none =>
      refine moved_of_stay ⟨hs.cwd, hs.opened, ?_, ?_, ?_⟩
      · intro _ hopen
        simp [hfh] at hopen
      · rintro (hbad | ⟨-, hbad | hbad⟩) <;> cases hbad
      · rintro - ⟨-, hbad | hbad⟩ <;> cases hbad
  | some i =>
      dsimp only
      cases hlock : h.volume.lock i pid with
      | none => exact moved_exit hs
      | some v =>
          refine moved_of_put (spares_lock hlock) ⟨hs.cwd, ?_, ?_, ?_, ?_⟩
          · intro j hj
            rw [entry_lock hlock]
            exact hs.opened j hj
          · exact fun _ _ => owns_of_lock (hs.opened i hfh) hlock
          · rintro (hbad | ⟨-, hbad | hbad⟩) <;> cases hbad
          · rintro - ⟨-, hbad | hbad⟩ <;> cases hbad

theorem moved_openStream (hstage : (h.instances pid).stage = .openStream) :
    Moved careful pid h (advance pid fails h) := by
  simp only [advance, hstage]
  split
  · exact moved_exit hs
  · next hok =>
      have hopen : (h.instances pid).fhPid.isSome := by
        cases hfh : (h.instances pid).fhPid with
        | none => simp [hfh] at hok
        | some i => rfl
      refine moved_of_stay ⟨hs.cwd, hs.opened, ?_, fun _ => hopen, ?_⟩
      · exact fun _ _ => hs.owns (.inl hstage) hopen
      · rintro - ⟨-, hbad | hbad⟩ <;> cases hbad

theorem moved_writePid (hstage : (h.instances pid).stage = .writePid)
    (hfails : careful → fails = false) : Moved careful pid h (advance pid fails h) := by
  have hopen := hs.handle (.inl hstage)
  obtain ⟨i, hfh⟩ := Option.isSome_iff_exists.mp hopen
  have howns := hs.owns (.inr (.inl hstage)) hopen
  simp only [advance, hstage, hfh]
  cases fails with
  | true =>
      refine moved_of_stay ⟨hs.cwd, hs.opened, fun _ _ => howns, fun _ => hopen, ?_⟩
      intro hcareful
      cases hfails hcareful
  | false =>
      have hentry := hs.opened i hfh
      have hholder : h.volume.holder i = some pid := by
        obtain ⟨j, hentry', hholder⟩ := howns
        obtain rfl := Option.some.inj (hentry.symm.trans hentry')
        exact hholder
      exact moved_of_put (spares_overwrite hholder _)
        ⟨hs.cwd, hs.opened, fun _ _ => howns, fun _ => hopen, fun _ _ => names_overwrite hentry⟩

theorem moved_ioInit (hstage : (h.instances pid).stage = .ioInit) :
    Moved careful pid h (advance pid fails h) := by
  simp only [advance, hstage]
  have hdrives (hdaemon : (h.instances pid).runAsDaemon = true) : (h.instances pid).Drives :=
    ⟨hdaemon, .inl hstage⟩
  refine moved_of_stay ⟨hs.cwd, hs.opened, ?_, ?_, ?_⟩
  · rintro (hbad | hbad | hserves) hopen
    · cases hbad
    · cases hbad
    · exact hs.owns (.inr (.inr (hdrives hserves.1))) hopen
  · rintro (hbad | hserves)
    · cases hbad
    · exact hs.handle (.inr (hdrives hserves.1))
  · intro hcareful hserves
    exact hs.names hcareful (hdrives hserves.1)

theorem moved_unlock (hstage : (h.instances pid).stage = .unlock) :
    Moved careful pid h (advance pid fails h) := by
  simp only [advance, hstage]
  refine moved_of_put (spares_close _) (sound_of_early hs.cwd ?_ (early_of_stage (by simp)))
  intro i hi
  rw [entry_close]
  exact hs.opened i hi

theorem moved_closeStream (hstage : (h.instances pid).stage = .closeStream) :
    Moved careful pid h (advance pid fails h) := by
  simp only [advance, hstage]
  exact moved_of_put (spares_close _)
    (sound_of_early hs.cwd nothing_opened (early_of_stage (by simp)))

theorem moved_unlink (hstage : (h.instances pid).stage = .unlink) :
    Moved careful pid h (advance pid fails h) := by
  simp only [advance, hstage]
  exact moved_of_put ((spares_unlink (absolute_ne hs.cwd)).trans (spares_close _))
    (sound_of_early hs.cwd nothing_opened (early_of_stage (by simp)))

/-- One step of `main` or of the signal handler. -/
theorem moved_advance (hfails : careful → fails = false) :
    Moved careful pid h (advance pid fails h) := by
  cases hstage : (h.instances pid).stage with
  | start => exact moved_start hs hstage
  | chdir => exact moved_chdir hs hstage
  | stat =>
      simp only [advance, hstage]
      split <;> exact moved_early hs (by simp)
  | mkdir => exact moved_mkdir hs hstage
  | openPid => exact moved_openPid hs hstage
  | lock => exact moved_lock hs hstage
  | openStream => exact moved_openStream hs hstage
  | writePid => exact moved_writePid hs hstage hfails
  | ioInit => exact moved_ioInit hs hstage
  | ioDeinit =>
      simp only [advance, hstage]
      split <;> exact moved_early hs (by simp)
  | unlock => exact moved_unlock hs hstage
  | closeStream => exact moved_closeStream hs hstage
  | unlink => exact moved_unlink hs hstage
  | serve | exited =>
      simp only [advance, hstage]
      exact moved_refl hs

end Moves

section Runs

variable {h h' : Host} {actions : List HostAction} {careful : Nat → Prop}

/-- Every instance may rely on what it relies on. -/
def Host.Sound (careful : Nat → Prop) (h : Host) : Prop :=
  ∀ pid, (h.instances pid).Sound (careful pid) h.volume pid

theorem Moved.soundAll {pid : Nat} (hs : h.Sound careful) (hmoved : Moved (careful pid) pid h h') :
    h'.Sound careful := by
  intro q
  rcases eq_or_ne q pid with rfl | hne
  · exact hmoved.sound
  · rw [hmoved.others q hne]
    exact (hs q).spared hmoved.spares hne

/-- One action keeps what the instances rely on. -/
theorem hostStep_sound (hs : h.Sound careful) {action : HostAction} (hregular : action.Regular)
    (hcareful : ∀ pid, careful pid → action ≠ .advance pid true) :
    (hostStep h action).Sound careful := by
  cases action with
  | spawn pid runAsDaemon cwd =>
      have hcwd : cwd ≠ pidDir := hregular
      simp only [hostStep]
      split
      · have hearly : (⟨.start, runAsDaemon, cwd, none, false⟩ : Instance).Sound (careful pid)
            h.volume pid :=
          sound_of_early hcwd nothing_opened (early_of_stage (by simp))
        exact (moved_of_stay hearly).soundAll hs
      · exact hs
  | advance pid fails =>
      have hfails : careful pid → fails = false := by
        intro hpid
        cases fails with
        | false => rfl
        | true => exact absurd rfl (hcareful pid hpid)
      exact (moved_advance (hs pid) hfails).soundAll hs
  | lockFails pid => exact hregular.elim
  | signal pid =>
      simp only [hostStep]
      split
      · exact hs
      · exact (moved_early (hs pid) (by simp)).soundAll hs
  | kill pid => exact (moved_exit (hs pid)).soundAll hs

theorem Host.Quiet.sound (hquiet : h.Quiet) : h.Sound careful := by
  intro pid
  rw [hquiet.gone]
  exact sound_of_early workDir_ne nothing_opened (early_of_stage (by simp [Instance.gone]))

theorem hostRun_sound (hs : h.Sound careful) (hregular : ∀ action ∈ actions, action.Regular)
    (hcareful : ∀ pid, careful pid → ∀ action ∈ actions, action ≠ .advance pid true) :
    (hostRun actions h).Sound careful := by
  induction actions generalizing h with
  | nil => exact hs
  | cons action rest ih =>
      have hstep := hostStep_sound hs (hregular action (List.mem_cons_self ..))
        fun pid hpid => hcareful pid hpid action (List.mem_cons_self ..)
      exact ih hstep (fun other hmem => hregular other (List.mem_cons_of_mem _ hmem))
        fun pid hpid other hmem => hcareful pid hpid other (List.mem_cons_of_mem _ hmem)

theorem Instance.Sound.drives_owns {careful : Prop} {p : Instance} {v : Volume (List Char) Nat}
    {pid : Nat} (hs : p.Sound careful v pid) (hdrives : p.Drives) : v.Owns pidPath pid :=
  hs.owns (.inr (.inr hdrives)) (hs.handle (.inr hdrives))

/-- However the instances on a host take turns, and whichever of their system calls
fail: no two daemons use the devices at a time. -/
theorem devices_exclusive (hquiet : h.Quiet) (hregular : ∀ action ∈ actions, action.Regular)
    {pid other : Nat} (hpid : ((hostRun actions h).instances pid).Drives)
    (hother : ((hostRun actions h).instances other).Drives) : pid = other := by
  have hsound : (hostRun actions h).Sound fun _ => False :=
    hostRun_sound hquiet.sound hregular fun _ hfalse => hfalse.elim
  exact ((hsound pid).drives_owns hpid).unique ((hsound other).drives_owns hother)

/-- While a daemon uses the devices, and none of its system calls has failed, the PID
file names it, whatever was left in the file. -/
theorem pid_file_names (hquiet : h.Quiet) (hregular : ∀ action ∈ actions, action.Regular)
    {pid : Nat} (hcareful : ∀ action ∈ actions, action ≠ .advance pid true)
    (hdrives : ((hostRun actions h).instances pid).Drives) :
    Names (hostRun actions h).volume pid := by
  have hsound : (hostRun actions h).Sound (· = pid) := by
    apply hostRun_sound hquiet.sound hregular
    rintro pid rfl
    exact hcareful
  exact (hsound pid).names rfl hdrives

end Runs

/-- Two daemons are started; the second one ends at the lock. -/
def twoDaemons : List HostAction := startDaemon 7 ++ startDaemon 9

theorem startDaemon_regular (pid : Nat) : ∀ action ∈ startDaemon pid, action.Regular := by
  intro action hmem
  rcases List.mem_cons.mp hmem with rfl | hmem
  · exact workDir_ne
  · obtain rfl := List.eq_of_mem_replicate hmem
    trivial

theorem twoDaemons_regular : ∀ action ∈ twoDaemons, action.Regular := by
  intro action hmem
  rcases List.mem_append.mp hmem with hmem | hmem
  · exact startDaemon_regular 7 action hmem
  · exact startDaemon_regular 9 action hmem

theorem devices_exclusive_two :
    ((hostRun twoDaemons leftoverHost).instances 7).Drives ∧
      ∀ other, ((hostRun twoDaemons leftoverHost).instances other).Drives → 7 = other := by
  have hdrives : ((hostRun twoDaemons leftoverHost).instances 7).Drives := by
    unfold Instance.Drives
    decide +kernel
  exact ⟨hdrives, fun _ => devices_exclusive leftoverHost_quiet twoDaemons_regular hdrives⟩

/-- An instance that is started in the directory of the PID file removes the file when
it is stopped, and a second daemon gets a lock of its own. -/
example :
    let t := hostRun (startDaemon 7 ++
      [.spawn 8 false pidDir, .signal 8, .advance 8 false, .advance 8 false] ++ startDaemon 9)
      leftoverHost
    (t.instances 7).Drives ∧ (t.instances 9).Drives := by
  unfold Instance.Drives
  decide +kernel

theorem pid_file_names_two : Names (hostRun twoDaemons leftoverHost).volume 7 := by
  apply pid_file_names leftoverHost_quiet twoDaemons_regular
  · decide
  · unfold Instance.Drives
    decide +kernel

end Switcher
