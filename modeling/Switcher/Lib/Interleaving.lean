import Mathlib.Data.List.Basic
import Switcher.Lib.Program

/-!
A program serving inputs one after another, and streams of inputs interleaved
into one trace. Every entry of a trace is tagged with the stream it belongs to,
so a trace is the same thing as a choice of streams and an interleaving of them.

The unwinding conditions are the local form of isolation: a step of the own
stream depends on what the relation `R` compares only, and a step of any other
stream changes nothing of it. They imply that a stream interleaved with others
sees exactly what it sees alone.
-/

namespace Lib.Interleaving

open Lib.Program

variable {ε σ ι ο κ α : Type}

def runAll (step : ι → EStateM ε σ ο) : List ι → EStateM ε σ (List ο)
  | [] => pure []
  | input :: rest => do
      let output ← step input
      let outputs ← runAll step rest
      return output :: outputs

def runTagged (step : ι → EStateM ε σ ο) : List (κ × ι) → EStateM ε σ (List (κ × ο))
  | [] => pure []
  | (tag, input) :: rest => do
      let output ← step input
      let outputs ← runTagged step rest
      return (tag, output) :: outputs

/-- The entries of one stream, in order. -/
def own [DecidableEq κ] (tag : κ) : List (κ × α) → List α
  | [] => []
  | (other, a) :: rest => if other = tag then a :: own tag rest else own tag rest

theorem mem_own [DecidableEq κ] {tag : κ} {a : α} {trace : List (κ × α)} :
    a ∈ own tag trace ↔ (tag, a) ∈ trace := by
  induction trace with
  | nil => simp [own]
  | cons entry rest ih =>
      obtain ⟨other, b⟩ := entry
      by_cases htag : other = tag
      · simp [own, htag, ih]
      · have hne : ¬ tag = other := fun h => htag h.symm
        simp [own, htag, hne, ih]

theorem runAll_cons_of_ok {step : ι → EStateM ε σ ο} {input : ι} {rest : List ι}
    {output : ο} {outputs : List ο} {s t u : σ} (hstep : step input s = .ok output t)
    (hrest : runAll step rest t = .ok outputs u) :
    runAll step (input :: rest) s = .ok (output :: outputs) u := by
  rw [runAll, bind_of_ok hstep, bind_of_ok hrest, run_pure]

/-- A run that returns has made its first step, and the rest of them. -/
theorem runAll_cons_ok {step : ι → EStateM ε σ ο} {input : ι} {rest : List ι}
    {outputs : List ο} {s u : σ} (h : runAll step (input :: rest) s = .ok outputs u) :
    ∃ output t more, step input s = .ok output t ∧ runAll step rest t = .ok more u ∧
      outputs = output :: more := by
  rw [runAll, run_bind] at h
  cases hstep : step input s with
  | error e t => simp [hstep] at h
  | ok output t =>
      simp only [hstep, run_bind] at h
      cases hrest : runAll step rest t with
      | error e v => simp [hrest] at h
      | ok more v =>
          simp only [hrest, run_pure] at h
          obtain ⟨rfl, rfl⟩ := EStateM.Result.ok.inj h
          exact ⟨output, t, more, rfl, hrest, rfl⟩

theorem runAll_append (step : ι → EStateM ε σ ο) (a b : List ι) :
    runAll step (a ++ b) = (do
      let outputs ← runAll step a
      let more ← runAll step b
      return outputs ++ more) := by
  induction a with
  | nil => simp [runAll]
  | cons input rest ih => simp [runAll, ih]

theorem runAll_concat (step : ι → EStateM ε σ ο) (inputs : List ι) (input : ι) :
    runAll step (inputs ++ [input]) = (do
      let outputs ← runAll step inputs
      let output ← step input
      return outputs ++ [output]) := by
  simp [runAll_append, runAll]

theorem runAll_append_of_error {step : ι → EStateM ε σ ο} {a b : List ι} {e : ε} {s t : σ}
    (ha : runAll step a s = .error e t) : runAll step (a ++ b) s = .error e t := by
  rw [runAll_append, bind_of_error ha]

theorem runAll_concat_of_ok {step : ι → EStateM ε σ ο} {inputs : List ι} {input : ι}
    {outputs : List ο} {output : ο} {s t u : σ} (hrun : runAll step inputs s = .ok outputs t)
    (hstep : step input t = .ok output u) :
    runAll step (inputs ++ [input]) s = .ok (outputs ++ [output]) u := by
  rw [runAll_concat, bind_of_ok hrun, bind_of_ok hstep, run_pure]

theorem runAll_concat_of_error {step : ι → EStateM ε σ ο} {inputs : List ι} {input : ι}
    {outputs : List ο} {e : ε} {s t u : σ} (hrun : runAll step inputs s = .ok outputs t)
    (hstep : step input t = .error e u) :
    runAll step (inputs ++ [input]) s = .error e u := by
  rw [runAll_concat, bind_of_ok hrun, bind_of_error hstep]

theorem runTagged_cons_of_ok {step : ι → EStateM ε σ ο} {tag : κ} {input : ι}
    {rest : List (κ × ι)} {output : ο} {outputs : List (κ × ο)} {s t u : σ}
    (hstep : step input s = .ok output t)
    (hrest : runTagged step rest t = .ok outputs u) :
    runTagged step ((tag, input) :: rest) s = .ok ((tag, output) :: outputs) u := by
  rw [runTagged, bind_of_ok hstep, bind_of_ok hrest, run_pure]

/-- An invariant that every step keeps, and under which every step returns,
holds after every run, and the run returns. -/
theorem runAll_returns {step : ι → EStateM ε σ ο} {I : σ → Prop} {inputs : List ι}
    (hstep : ∀ input ∈ inputs, Returns I (step input) (fun _ => I)) :
    Returns I (runAll step inputs) (fun _ => I) := by
  induction inputs with
  | nil => exact Returns.pure fun _ hs => hs
  | cons input rest ih =>
      intro s hs
      obtain ⟨output, t, hrun, ht⟩ := hstep input (by simp) s hs
      obtain ⟨outputs, u, hrest, hu⟩ :=
        ih (fun i hi => hstep i (List.mem_cons_of_mem _ hi)) t ht
      exact ⟨_, u, runAll_cons_of_ok hrun hrest, hu⟩

/-- A counting loop, with an invariant that knows how far it has come. -/
theorem runAll_range_returns {step : Nat → EStateM ε σ ο} {I : Nat → σ → Prop} {n : Nat}
    (hstep : ∀ i < n, Returns (I i) (step i) (fun _ => I (i + 1))) :
    Returns (I 0) (runAll step (List.range n)) (fun _ => I n) := by
  induction n with
  | zero => exact Returns.pure fun _ hs => hs
  | succ n ih =>
      rw [List.range_succ, runAll_concat]
      refine (ih fun i hi => hstep i (by omega)).bind fun _ => ?_
      exact (hstep n (Nat.lt_succ_self n)).bind fun _ => Returns.pure fun _ hs => hs

theorem runAll_range_avoids {bad : ε} {step : Nat → EStateM ε σ ο} {I : Nat → σ → Prop} {n : Nat}
    (hstep : ∀ i < n, Avoids bad (I i) (step i) (fun _ => I (i + 1))) :
    Avoids bad (I 0) (runAll step (List.range n)) (fun _ => I n) := by
  induction n with
  | zero => exact Avoids.pure fun _ hs => hs
  | succ n ih =>
      rw [List.range_succ, runAll_concat]
      refine (ih fun i hi => hstep i (by omega)).bind fun _ => ?_
      exact (hstep n (Nat.lt_succ_self n)).bind fun _ => Avoids.pure fun _ hs => hs

theorem runAll_avoids {bad : ε} {step : ι → EStateM ε σ ο} {I : σ → Prop} {inputs : List ι}
    (hstep : ∀ input ∈ inputs, Avoids bad I (step input) (fun _ => I)) :
    Avoids bad I (runAll step inputs) (fun _ => I) := by
  induction inputs with
  | nil => exact Avoids.pure fun _ hs => hs
  | cons input rest ih =>
      have hrest := ih fun i hi => hstep i (List.mem_cons_of_mem _ hi)
      exact (hstep input (by simp)).bind fun _ => hrest.bind fun _ => Avoids.pure fun _ hs => hs

/-- A loop whose results are dropped. -/
def forAll (step : ι → EStateM ε σ Unit) : List ι → EStateM ε σ Unit
  | [] => pure ()
  | input :: rest => do
      step input
      forAll step rest

/-- A loop with an invariant that knows the rounds that are left. -/
theorem forAll_returns {step : ι → EStateM ε σ Unit} {I : List ι → σ → Prop}
    (hstep : ∀ input rest, Returns (I (input :: rest)) (step input) (fun _ => I rest))
    (inputs : List ι) : Returns (I inputs) (forAll step inputs) (fun _ => I []) := by
  induction inputs with
  | nil => exact Returns.pure fun _ hs => hs
  | cons input rest ih => exact (hstep input rest).bind fun _ => ih

theorem forAll_keeps {step : ι → EStateM ε σ Unit} {I : σ → Prop} {inputs : List ι}
    (hstep : ∀ input ∈ inputs, Keeps I (step input)) : Keeps I (forAll step inputs) := by
  induction inputs with
  | nil => exact Keeps.pure _
  | cons input rest ih =>
      exact (hstep input (by simp)).bind fun _ => ih fun i hi => hstep i (List.mem_cons_of_mem _ hi)

/-- Results that are dropped in every round may as well be dropped at the end. -/
theorem forAll_drop {step : ι → EStateM ε σ Unit} {kept : ι → EStateM ε σ ο}
    (h : ∀ input, step input = (do let _ ← kept input)) (inputs : List ι) :
    forAll step inputs = (do let _ ← runAll kept inputs) := by
  induction inputs with
  | nil => rfl
  | cons input rest ih => simp only [forAll, runAll, h, ih, bind_assoc, pure_bind]

theorem forAll_eq_runAll (step : ι → EStateM ε σ Unit) (inputs : List ι) :
    forAll step inputs = (do let _ ← runAll step inputs) :=
  forAll_drop (fun input => (bind_pure_unit (x := step input)).symm) inputs

theorem forAll_append (step : ι → EStateM ε σ Unit) (a b : List ι) :
    forAll step (a ++ b) = (do forAll step a; forAll step b) := by
  induction a with
  | nil => simp [forAll]
  | cons input rest ih => simp [forAll, ih]

theorem forAll_map (step : ι → EStateM ε σ Unit) (f : κ → ι) (inputs : List κ) :
    forAll step (inputs.map f) = forAll (fun input => step (f input)) inputs := by
  induction inputs with
  | nil => rfl
  | cons input rest ih => rw [List.map_cons, forAll, ih, forAll]

/-- A loop in a loop is one loop, if the rounds of the inner one do not depend on
what the steps change. -/
theorem forAll_flatMap {step : ι → EStateM ε σ Unit} {body : κ → EStateM ε σ Unit}
    {parts : κ → List ι} {I : σ → Prop} (hstep : ∀ input, Keeps I (step input))
    (hbody : ∀ input s, I s → forAll step (parts input) s = body input s) (inputs : List κ) {s : σ}
    (hs : I s) : forAll step (inputs.flatMap parts) s = forAll body inputs s := by
  induction inputs generalizing s with
  | nil => rfl
  | cons input rest ih =>
      have hkept : Keeps I (forAll step (parts input)) := forAll_keeps fun i _ => hstep i
      have hfinal := hkept s hs
      have hrun := hbody input s hs
      rw [List.flatMap_cons, forAll_append, forAll]
      cases hparts : forAll step (parts input) s with
      | ok a t =>
          rw [final_of_ok hparts] at hfinal
          rw [bind_of_ok hparts, bind_of_ok (hrun.symm.trans hparts)]
          exact ih hfinal
      | error e t => rw [bind_of_error hparts, bind_of_error (hrun.symm.trans hparts)]

/-- Every input is served, and `Q` holds of it and the state it is served in. -/
def Along (step : ι → EStateM ε σ ο) (Q : ι → σ → Prop) : List ι → σ → Prop
  | [], _ => True
  | input :: rest, s =>
      Q input s ∧ ∃ output t, step input s = .ok output t ∧ Along step Q rest t

/-- Two properties that agree wherever an invariant holds agree along runs. -/
theorem along_congr {step : ι → EStateM ε σ ο} {I : σ → Prop} {Q Q' : ι → σ → Prop}
    {inputs : List ι} (hstep : ∀ input ∈ inputs, Returns I (step input) (fun _ => I))
    (hQ : ∀ input ∈ inputs, ∀ s, I s → (Q input s ↔ Q' input s)) {s : σ} (hs : I s) :
    Along step Q inputs s ↔ Along step Q' inputs s := by
  induction inputs generalizing s with
  | nil => exact Iff.rfl
  | cons input rest ih =>
      obtain ⟨output, t, hrun, ht⟩ := hstep input (by simp) s hs
      have hrest := ih (fun i hi => hstep i (List.mem_cons_of_mem _ hi))
        (fun i hi => hQ i (List.mem_cons_of_mem _ hi)) ht
      simp only [Along, hrun, hQ input (by simp) s hs]
      constructor
      · rintro ⟨hq, _, _, hok, halong⟩
        obtain ⟨rfl, rfl⟩ := EStateM.Result.ok.inj hok
        exact ⟨hq, _, _, rfl, hrest.mp halong⟩
      · rintro ⟨hq, _, _, hok, halong⟩
        obtain ⟨rfl, rfl⟩ := EStateM.Result.ok.inj hok
        exact ⟨hq, _, _, rfl, hrest.mpr halong⟩

structure Unwinding (step : ι → EStateM ε σ ο) (mine other : ι → Prop)
    (R : σ → σ → Prop) : Prop where
  mine : ∀ input, mine input → Matches R (step input) (step input)
  other : ∀ input, other input → ∀ s t, R s t →
    ∃ output s', step input s = .ok output s' ∧ R s' t

/-- The tagged run and the run of one stream alone both return; the stream gets
the same outputs, and the final states are related. -/
theorem Unwinding.isolated [DecidableEq κ] {step : ι → EStateM ε σ ο} {mine other : ι → Prop}
    {R : σ → σ → Prop} (h : Unwinding step mine other R) (tag : κ)
    (trace : List (κ × ι)) (hmine : ∀ entry ∈ trace, entry.1 = tag → mine entry.2)
    (hother : ∀ entry ∈ trace, entry.1 ≠ tag → other entry.2)
    (s t : σ) (hst : R s t) :
    ∃ outputs s' t', runTagged step trace s = .ok outputs s' ∧
      runAll step (own tag trace) t = .ok (own tag outputs) t' ∧ R s' t' := by
  induction trace generalizing s t with
  | nil => exact ⟨[], s, t, rfl, rfl, hst⟩
  | cons entry rest ih =>
      obtain ⟨k, input⟩ := entry
      have hmine' : ∀ entry ∈ rest, entry.1 = tag → mine entry.2 :=
        fun e he => hmine e (List.mem_cons_of_mem _ he)
      have hother' : ∀ entry ∈ rest, entry.1 ≠ tag → other entry.2 :=
        fun e he => hother e (List.mem_cons_of_mem _ he)
      by_cases htag : k = tag
      · obtain ⟨output, s₁, t₁, hs, ht, hst₁⟩ :=
          h.mine input (hmine (k, input) (by simp) htag) s t hst
        obtain ⟨outputs, s', t', hs', ht', hst'⟩ := ih hmine' hother' s₁ t₁ hst₁
        refine ⟨(k, output) :: outputs, s', t', runTagged_cons_of_ok hs hs', ?_, hst'⟩
        simp only [own, if_pos htag]
        exact runAll_cons_of_ok ht ht'
      · obtain ⟨output, s₁, hs, hst₁⟩ :=
          h.other input (hother (k, input) (by simp) htag) s t hst
        obtain ⟨outputs, s', t', hs', ht', hst'⟩ := ih hmine' hother' s₁ t hst₁
        refine ⟨(k, output) :: outputs, s', t', runTagged_cons_of_ok hs hs', ?_, hst'⟩
        simp only [own, if_neg htag]
        exact ht'

end Lib.Interleaving
