import Switcher.Config.Ready

/-!
What becomes of a faulty file. `ini_parse` reports a fault by a positive line
number, `parse_config` only takes a negative result for an error, and
`validate_config` accepts everything.
-/

namespace Switcher

open Lib.Program Lib.Interleaving Lib.Text

variable {κ : Type} (K : Kernel κ)

/-- `main` from `parse_config` to `validate_config`: what it exits with, or
`EXIT_SUCCESS` where it goes on. -/
def acceptConfig (file : Option (List IniLine)) : ParserM κ Int := do
  if (← parseConfig K file) = exitFailure then
    return exitFailure
  else
    let userData ← get
    if validateConfig userData.config = exitFailure then
      return exitFailure
    return exitSuccess

/-- `INI_BUS_TYPE_PIFACE`, which nothing is compared with. -/
def iniBusTypePiface : List Char := "piface".toList

/-- The key is one of the four, and the type or the driver it gives is one of those
that exist. -/
def IniEntry.Recognised (e : IniEntry) : Prop :=
  match e.setting with
  | .busParameter _ => True
  | .busType handle => handle.isSome ∨ e.value.chars = iniBusTypePiface
  | .devDriver handle => handle.isSome
  | .devParameter _ => True
  | .unknown => False

def IniLine.Faultless : IniLine → Prop
  | .entry e => e.Recognised
  | .malformed => False
  | .other => True

/-- A file is accepted only if `ini_parse` accepted every line and every entry is
recognised, and is rejected otherwise. -/
structure RightlyJudged (lines : List IniLine) (s : BusConfigs κ) : Prop where
  accepted : ∀ t, acceptConfig K (some lines) s = .ok exitSuccess t →
    (∃ u, iniParse K (some lines) s = .ok 0 u) ∧ ∀ e ∈ entriesOf lines, e.Recognised
  rejected : (¬ ∀ line ∈ lines, line.Faultless) →
    ∃ t, acceptConfig K (some lines) s = .ok exitFailure t

variable {K} {lines : List IniLine} {s t : BusConfigs κ} {rc : Int}

section Verdict

/-- Every file that can be opened and read is accepted. -/
theorem acceptConfig_eq (h : iniParse K (some lines) s = .ok rc t) :
    acceptConfig K (some lines) s = .ok exitSuccess t := by
  unfold acceptConfig
  rw [bind_of_ok (parseConfig_of_parsed h), if_neg (by decide), bind_of_ok (run_get t)]
  rfl

theorem acceptConfig_error {e : Fault} (h : iniParse K (some lines) s = .error e t) :
    acceptConfig K (some lines) s = .error e t := by
  unfold acceptConfig parseConfig
  rw [bind_of_error (bind_of_error h)]

theorem never_rejected (lines : List IniLine) (s t : BusConfigs κ) :
    acceptConfig K (some lines) s ≠ .ok exitFailure t := by
  intro h
  cases hparse : iniParse K (some lines) s with
  | ok rc u => cases (acceptConfig_eq hparse).symm.trans h
  | error e u => cases (acceptConfig_error hparse).symm.trans h

/-- What is rejected is a file that cannot be opened. -/
theorem rejected_iff (file : Option (List IniLine)) (s : BusConfigs κ) :
    (∃ t, acceptConfig K file s = .ok exitFailure t) ↔ file = none := by
  cases file with
  | none => exact iff_of_true ⟨s, rfl⟩ rfl
  | some lines => exact iff_of_false (fun ⟨t, h⟩ => never_rejected lines s t h) (by simp)

theorem recognised_of_faultless (h : ∀ line ∈ lines, line.Faultless) :
    ∀ e ∈ entriesOf lines, e.Recognised := by
  intro e he
  obtain ⟨line, hline, hentry⟩ := List.mem_filterMap.mp he
  cases line with
  | entry e' =>
      obtain rfl : e' = e := Option.some.inj hentry
      exact h _ hline
  | malformed => cases hentry
  | other => cases hentry

theorem not_fails_of_faultless {line : IniLine} (h : line.Faultless) : ¬ line.Fails := by
  cases line with
  | entry e =>
      intro hunknown
      have hunknown : e.setting = .unknown := hunknown
      simp [IniLine.Faultless, IniEntry.Recognised, hunknown] at h
  | malformed => exact fun _ => h
  | other => exact id

end Verdict

/-- A file that can be opened is judged as it should be exactly if there is nothing
wrong with it. -/
theorem rightlyJudged_iff (K : Kernel κ) (config : IoConfig BusHandle DevHandle) (w : Env κ)
    (lines : List IniLine) :
    RightlyJudged K lines (userData config w) ↔ ∀ line ∈ lines, line.Faultless := by
  constructor
  · intro h
    by_contra hfaulty
    cases (rejected_iff (some lines) _).mp (h.rejected hfaulty)
  · intro hfaultless
    refine ⟨?_, fun hfaulty => absurd hfaultless hfaulty⟩
    intro t haccepted
    refine ⟨?_, recognised_of_faultless hfaultless⟩
    cases hparse : iniParse K (some lines) (userData config w) with
    | error e u => cases (acceptConfig_error hparse).symm.trans haccepted
    | ok rc u =>
        have hcode := (iniParseFile_code (Int.le_refl 0) (Int.le_refl 0) hparse).2
        have hzero : rc = 0 := hcode.mpr ⟨rfl, fun line hline =>
          not_fails_of_faultless (hfaultless line hline)⟩
        exact ⟨u, by rw [hzero]⟩

/-- One bus, with its key misspelt. -/
def unknownKeyFile : List IniLine := fileOf [("bus-0", "bustype", "i2c")]

/-- `ini_parse` returns the number of the line, and the file is accepted. -/
theorem unknownKey_accepted : ¬ RightlyJudged calmKernel unknownKeyFile
    (userData (confInit zeroConfig).2 calmWorld) := by
  intro h
  have haccepted : yields (acceptConfig calmKernel (some unknownKeyFile))
      (userData (confInit zeroConfig).2 calmWorld) (fun rc _ => rc == exitSuccess) = true := by
    decide +kernel
  have hline : yields (iniParse calmKernel (some unknownKeyFile))
      (userData (confInit zeroConfig).2 calmWorld) (fun rc _ => rc == 1) = true := by
    decide +kernel
  obtain ⟨rc, t, hrun, hrc⟩ := exists_of_yields haccepted
  obtain rfl := eq_of_beq hrc
  obtain ⟨⟨u, hparse⟩, -⟩ := h.accepted t hrun
  obtain ⟨code, v, hrun', hcode⟩ := exists_of_yields hline
  obtain rfl := eq_of_beq hcode
  cases hrun'.symm.trans hparse

end Switcher
