import Switcher.Lib.History

/-!
One place that holds a resource, and the calls of a program that acquire, use and
release what is held there. An acquisition may fail, and takes the place of what
was held before it in either case.
-/

namespace Lib.Resource

open Lib.History

inductive Call where
  | acquire
  | acquired (ok : Bool)
  | use
  | release
  deriving DecidableEq, Repr

inductive Status where
  | vacant | pending | failed | live | released
  deriving DecidableEq, Repr

def Status.after : Status → Call → Status
  | _, .acquire => .pending
  | _, .acquired ok => if ok then .live else .failed
  | status, .use => status
  | _, .release => .released

/-- What the place holds once these calls are made. -/
def status (log : List Call) : Status := log.foldl Status.after .vacant

/-- The calls that something has to be held for. -/
def Call.Needs : Call → Prop
  | .use | .release => True
  | .acquire | .acquired _ => False

def UsedLive (log : List Call) : Prop :=
  Always (fun past call => call.Needs → status past = .live) log

/-- What is used or released was acquired and not released since, and nothing is
released twice. -/
structure Safe (log : List Call) : Prop where
  live : UsedLive log
  once : ∀ front between back, log = front ++ .release :: between ++ .release :: back →
    .acquired true ∈ between

variable {log : List Call} {call : Call}

theorem status_concat : status (log ++ [call]) = (status log).after call := by
  rw [status, List.foldl_append]
  rfl

theorem usedLive_concat :
    UsedLive (log ++ [call]) ↔ UsedLive log ∧ (call.Needs → status log = .live) :=
  always_concat

/-- What is held behind further calls was held before, or they have acquired it. -/
theorem acquired_of_live {more : List Call} (h : status (log ++ more) = .live) :
    status log = .live ∨ .acquired true ∈ more := by
  induction more using List.reverseRecOn with
  | nil =>
      left
      rwa [List.append_nil] at h
  | append_singleton more call ih =>
      rw [← List.append_assoc, status_concat] at h
      cases call with
      | acquire => cases h
      | acquired ok =>
          cases ok with
          | true => exact .inr (by simp)
          | false => cases h
      | use => exact (ih h).imp_right (List.mem_append_left _)
      | release => cases h

theorem UsedLive.safe (h : UsedLive log) : Safe log := by
  refine ⟨h, ?_⟩
  intro front between back hsplit
  have hreleased : status (front ++ [.release]) ≠ .live := by
    rw [status_concat]
    exact Status.noConfusion
  have hlive : status (front ++ .release :: between) = .live := by
    apply h (front ++ .release :: between) .release back
    · rw [hsplit]
    · trivial
  rw [List.append_cons] at hlive
  exact (acquired_of_live hlive).resolve_left hreleased

end Lib.Resource
