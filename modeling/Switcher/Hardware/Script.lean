import Switcher.Driver.Table
import Switcher.Driver.Rounds

/-!
An operating system that answers by a script, so that every pattern of failing
selections and transfers can be played through, and that notes which of the
calls it answered succeeded.
-/

namespace Switcher

open Lib.Program

/-- The answers to the selections, I2C transfers and SPI messages to come. -/
structure Script where
  selections : Nat → Int
  transfers : Nat → Int × BitVec 8
  messages : Nat → Int × BitVec 8
  strerror : List Char

/-- How many answers of each kind have been given. -/
structure Progress where
  selections : Nat
  transfers : Nat
  messages : Nat
  deriving DecidableEq, Repr

/-- `log` has an entry for every call answered: whether it succeeded. -/
structure Playing where
  progress : Progress
  log : List Bool
  deriving DecidableEq, Repr

/-- A negative result of `I2C_SLAVE`, any but zero of `I2C_SMBUS` and one below 1
of `SPI_IOC_MESSAGE` are failures. -/
def Script.kernel (p : Script) : Kernel Playing where
  i2cSlave _ _ k :=
    let rc := p.selections k.progress.selections
    (rc, ⟨{ k.progress with selections := k.progress.selections + 1 }, k.log ++ [decide (0 ≤ rc)]⟩)
  i2cSmbus _ _ k :=
    let answer := p.transfers k.progress.transfers
    (answer, ⟨{ k.progress with transfers := k.progress.transfers + 1 },
      k.log ++ [decide (answer.1 = 0)]⟩)
  spiMessage _ _ k :=
    let answer := p.messages k.progress.messages
    (answer, ⟨{ k.progress with messages := k.progress.messages + 1 },
      k.log ++ [decide (1 ≤ answer.1)]⟩)
  spiQuery _ _ k := (0, k)
  openFile _ k := (0, k)
  closeFile _ k := (0, k)
  strerror _ := p.strerror
  malloc k := (true, k)

/-- The progress after `n` answered rounds, or messages, of a driver. -/
def Progress.advance (handle : DevHandle) (k : Progress) (n : Nat) : Progress :=
  match handle with
  | .piface => { k with messages := k.messages + n }
  | _ => { k with selections := k.selections + n, transfers := k.transfers + n }

/-- The driver finds nothing wrong in the answer to its call `j` from here. -/
def Script.Passes (p : Script) (handle : DevHandle) (k : Progress) (j : Nat) : Prop :=
  match handle with
  | .piface => True
  | _ => (p.transfers (k.transfers + j)).1 = 0

/-- The call `j` from here succeeds, with the selection in front of it. -/
def Script.Succeeds (p : Script) (handle : DevHandle) (k : Progress) (j : Nat) : Prop :=
  match handle with
  | .piface => 1 ≤ (p.messages (k.messages + j)).1
  | _ => 0 ≤ p.selections (k.selections + j) ∧ (p.transfers (k.transfers + j)).1 = 0

def Script.AllPass (p : Script) (handle : DevHandle) (k : Progress) (n : Nat) : Prop :=
  ∀ j < n, p.Passes handle k j

def Script.AllSucceed (p : Script) (handle : DevHandle) (k : Progress) (n : Nat) : Prop :=
  ∀ j < n, p.Succeeds handle k j

section Counting

variable {p : Script} {handle : DevHandle} {k : Progress} {m n : Nat}

theorem Script.Succeeds.passes {j : Nat} (h : p.Succeeds handle k j) : p.Passes handle k j := by
  cases handle with
  | pcf8574 => exact h.2
  | mcp23017 => exact h.2
  | piface => exact trivial

theorem Script.AllSucceed.allPass (h : p.AllSucceed handle k n) : p.AllPass handle k n :=
  fun j hj => (h j hj).passes

theorem Script.passes_advance (j : Nat) :
    p.Passes handle (k.advance handle m) j ↔ p.Passes handle k (m + j) := by
  cases handle <;> simp [Script.Passes, Progress.advance, Nat.add_assoc]

theorem Script.succeeds_advance (j : Nat) :
    p.Succeeds handle (k.advance handle m) j ↔ p.Succeeds handle k (m + j) := by
  cases handle <;> simp [Script.Succeeds, Progress.advance, Nat.add_assoc]

theorem Progress.advance_advance :
    (k.advance handle m).advance handle n = k.advance handle (m + n) := by
  cases handle <;> simp [Progress.advance, Nat.add_assoc]

theorem forall_lt_add {P : Nat → Prop} :
    (∀ j < m + n, P j) ↔ (∀ j < m, P j) ∧ ∀ j < n, P (m + j) := by
  refine ⟨fun h => ⟨fun j hj => h j (by omega), fun j hj => h (m + j) (by omega)⟩, ?_⟩
  rintro ⟨hlow, hhigh⟩ j hj
  by_cases hjm : j < m
  · exact hlow j hjm
  · have hsum : m + (j - m) = j := by omega
    rw [← hsum]
    exact hhigh (j - m) (by omega)

theorem Script.allPass_add : p.AllPass handle k (m + n) ↔
    p.AllPass handle k m ∧ p.AllPass handle (k.advance handle m) n := by
  simp only [Script.AllPass, Script.passes_advance]
  exact forall_lt_add

theorem Script.allSucceed_add : p.AllSucceed handle k (m + n) ↔
    p.AllSucceed handle k m ∧ p.AllSucceed handle (k.advance handle m) n := by
  simp only [Script.AllSucceed, Script.succeeds_advance]
  exact forall_lt_add

end Counting

/-- Calls that the driver counts as good exactly if `good`: it planned `n` of
them and gave up at the first that did not pass. -/
structure Attempt (p : Script) (handle : DevHandle) (n : Nat) (k k' : Playing)
    (good : Prop) : Prop where
  passes : good ↔ p.AllPass handle k.progress n
  log : ∃ entries, k'.log = k.log ++ entries ∧
    (entries.all id = true ↔ p.AllSucceed handle k.progress n)
  progress : good → k'.progress = k.progress.advance handle n

variable {p : Script} {handle : DevHandle}

theorem Attempt.nothing (k : Playing) : Attempt p handle 0 k k True := by
  refine ⟨?_, ⟨[], by simp, ?_⟩, ?_⟩
  · simp [Script.AllPass]
  · simp [Script.AllSucceed]
  · intro _
    cases handle <;> rfl

theorem Attempt.imp {n : Nat} {k k' : Playing} {good good' : Prop}
    (h : Attempt p handle n k k' good) (hiff : good' ↔ good) : Attempt p handle n k k' good' :=
  ⟨hiff.trans h.passes, h.log, fun hgood => h.progress (hiff.mp hgood)⟩

/-- Calls that go on after good ones and stop after others. -/
theorem Attempt.append {m n : Nat} {k k' k'' : Playing} {good good' : Prop}
    (h : Attempt p handle m k k' good) (hmore : good → Attempt p handle n k' k'' good')
    (hstop : ¬ good → k'' = k') : Attempt p handle (m + n) k k'' (good ∧ good') := by
  by_cases hgood : good
  · have h' := hmore hgood
    have hprogress := h.progress hgood
    refine ⟨?_, ?_, ?_⟩
    · rw [h.passes, h'.passes, hprogress, Script.allPass_add]
    · obtain ⟨entries, hlog, hall⟩ := h.log
      obtain ⟨entries', hlog', hall'⟩ := h'.log
      refine ⟨entries ++ entries', by rw [hlog', hlog, List.append_assoc], ?_⟩
      rw [List.all_append, Bool.and_eq_true, hall, hall', hprogress, Script.allSucceed_add]
    · intro hboth
      rw [h'.progress hboth.2, hprogress, Progress.advance_advance]
  · have hfails : ¬ p.AllPass handle k.progress (m + n) := fun hall =>
      hgood (h.passes.mpr (Script.allPass_add.mp hall).1)
    refine ⟨?_, ?_, fun hboth => absurd hboth.1 hgood⟩
    · exact ⟨fun hboth => absurd hboth.1 hgood, fun hall => absurd hall hfails⟩
    · obtain ⟨entries, hlog, hall⟩ := h.log
      refine ⟨entries, by rw [hstop hgood, hlog], ?_⟩
      rw [hall]
      refine ⟨fun hsucceed => ?_, fun hsucceed => (Script.allSucceed_add.mp hsucceed).1⟩
      exact absurd (h.passes.mpr hsucceed.allPass) hgood

/-- Nothing follows calls that were not good. -/
theorem Attempt.stopped {m n : Nat} {k k' : Playing} {good : Prop}
    (h : Attempt p handle m k k' good) (hnot : ¬ good) : Attempt p handle (m + n) k k' False := by
  have hstopped : Attempt p handle (m + n) k k' (good ∧ False) :=
    h.append (fun hgood => absurd hgood hnot) (fun _ => rfl)
  exact hstopped.imp (by simp)

end Switcher
