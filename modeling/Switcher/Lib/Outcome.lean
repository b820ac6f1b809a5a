import Switcher.Lib.Interleaving

/-!
Rules for programs of which the exceptions matter as well. `Ends` says what holds where
the program returns and what holds where it raises. `Mirrors` compares two programs run
side by side that return the same values and raise the same exceptions.
-/

namespace Lib.Program

open Lib.Interleaving

variable {ε σ τ α β ι ο : Type}

def Ends (P : σ → Prop) (m : EStateM ε σ α) (Q : α → σ → Prop) (E : σ → Prop) : Prop :=
  ∀ s, P s → (∀ a t, m s = .ok a t → Q a t) ∧ ∀ e t, m s = .error e t → E t

/-- Both programs have returned the same value or raised the same exception. -/
inductive SameOutcome (S E : σ → τ → Prop) :
    EStateM.Result ε σ α → EStateM.Result ε τ α → Prop where
  | ok {a : α} {s : σ} {t : τ} (h : S s t) : SameOutcome S E (.ok a s) (.ok a t)
  | error {e : ε} {s : σ} {t : τ} (h : E s t) : SameOutcome S E (.error e s) (.error e t)

def Mirrors (R : σ → τ → Prop) (p : EStateM ε σ α) (q : EStateM ε τ α) (S E : σ → τ → Prop) :
    Prop :=
  ∀ s t, R s t → SameOutcome S E (p s) (q t)

/-- The programs keep a relation, also where they raise. -/
def Parallel (R : σ → τ → Prop) (p : EStateM ε σ α) (q : EStateM ε τ α) : Prop :=
  Mirrors R p q R R

section Ends

variable {P P' : σ → Prop} {Q Q' : α → σ → Prop} {E E' : σ → Prop}

theorem Ends.of_ok {m : EStateM ε σ α} {s t : σ} {a : α} (h : m s = .ok a t) (hq : Q a t) :
    Ends (fun u => u = s) m Q E := by
  rintro _ rfl
  constructor
  · intro a' t' hok
    obtain ⟨rfl, rfl⟩ := EStateM.Result.ok.inj (h.symm.trans hok)
    exact hq
  · intro e t' herr
    cases h.symm.trans herr

theorem Ends.pure {a : α} (h : ∀ s, P s → Q a s) :
    Ends P (Pure.pure a : EStateM ε σ α) Q E := by
  intro s hs
  exact Ends.of_ok rfl (h s hs) s rfl

theorem Ends.throw {e : ε} (h : ∀ s, P s → E s) :
    Ends P (MonadExcept.throw e : EStateM ε σ α) Q E := by
  intro s hs
  constructor
  · intro a t hok
    cases hok
  · intro e' t herr
    obtain ⟨-, rfl⟩ := EStateM.Result.error.inj herr
    exact h s hs

theorem Ends.bind {m : EStateM ε σ α} {f : α → EStateM ε σ β} {S : β → σ → Prop}
    (hm : Ends P m Q E) (hf : ∀ a, Ends (Q a) (f a) S E) : Ends P (m >>= f) S E := by
  intro s hs
  cases hrun : m s with
  | ok a t =>
      rw [bind_of_ok hrun]
      exact hf a t ((hm s hs).1 a t hrun)
  | error e t =>
      rw [bind_of_error hrun]
      constructor
      · intro b u hok
        cases hok
      · intro e' u herr
        obtain ⟨-, rfl⟩ := EStateM.Result.error.inj herr
        exact (hm s hs).2 e t hrun

theorem Ends.imp {m : EStateM ε σ α} (hm : Ends P m Q E) (hpre : ∀ s, P' s → P s)
    (hpost : ∀ a s, Q a s → Q' a s) (herr : ∀ s, E s → E' s) : Ends P' m Q' E' := by
  intro s hs
  obtain ⟨hok, herror⟩ := hm s (hpre s hs)
  exact ⟨fun a t hrun => hpost a t (hok a t hrun), fun e t hrun => herr t (herror e t hrun)⟩

/-- The state that is read is the state the program goes on from. -/
theorem Ends.get_bind {f : σ → EStateM ε σ α}
    (h : ∀ s, P s → Ends (fun t => t = s) (f s) Q E) :
    Ends P (MonadState.get >>= f) Q E := by
  intro s hs
  rw [bind_of_ok (run_get s)]
  exact h s hs s rfl

theorem Ends.ite {c : Prop} [Decidable c] {m m' : EStateM ε σ α} (hyes : c → Ends P m Q E)
    (hno : ¬ c → Ends P m' Q E) : Ends P (if c then m else m') Q E := by
  by_cases hc : c
  · rw [if_pos hc]
    exact hyes hc
  · rw [if_neg hc]
    exact hno hc

/-- What a program leaves, whichever way it ends. -/
theorem Ends.final {m : EStateM ε σ α} (hm : Ends P m (fun _ => E) E) {s : σ} (hs : P s) :
    E (final m s) := by
  obtain ⟨hok, herror⟩ := hm s hs
  cases hrun : m s with
  | ok a t =>
      rw [final_of_ok hrun]
      exact hok a t hrun
  | error e t =>
      rw [final_of_error hrun]
      exact herror e t hrun

theorem Keeps.ends {m : EStateM ε σ α} (hm : Keeps P m) : Ends P m (fun _ => P) P := by
  intro s hs
  have hfinal := hm s hs
  constructor
  · intro a t hrun
    rwa [final_of_ok hrun] at hfinal
  · intro e t hrun
    rwa [final_of_error hrun] at hfinal

theorem Ends.keeps {m : EStateM ε σ α} (hm : Ends P m (fun _ => P) P) : Keeps P m :=
  fun _ hs => hm.final hs

/-- A loop without early exit. -/
theorem Keeps.forIn {f : ι → EStateM ε σ PUnit} (inputs : List ι) (hf : ∀ i, Keeps P (f i)) :
    Keeps P (ForIn.forIn inputs PUnit.unit fun i _ => do
      f i
      Pure.pure (ForInStep.yield PUnit.unit)) := by
  induction inputs with
  | nil => exact Keeps.pure _
  | cons i rest ih =>
      rw [List.forIn_cons, bind_assoc]
      simp only [pure_bind]
      exact (hf i).bind fun _ => ih

end Ends

section Mirrors

variable {R R' S S' E E' : σ → τ → Prop}

theorem Mirrors.pure (a : α) (h : ∀ s t, R s t → S s t) :
    Mirrors R (Pure.pure a : EStateM ε σ α) (Pure.pure a : EStateM ε τ α) S E :=
  fun s t hst => .ok (h s t hst)

theorem Mirrors.throw (e : ε) (h : ∀ s t, R s t → E s t) :
    Mirrors R (MonadExcept.throw e : EStateM ε σ α) (MonadExcept.throw e : EStateM ε τ α) S E :=
  fun s t hst => .error (h s t hst)

theorem Mirrors.bind {p : EStateM ε σ α} {q : EStateM ε τ α} {f : α → EStateM ε σ β}
    {g : α → EStateM ε τ β} (hpq : Mirrors R p q S E) (hfg : ∀ a, Mirrors S (f a) (g a) S' E) :
    Mirrors R (p >>= f) (q >>= g) S' E := by
  intro s t hst
  have houtcome := hpq s t hst
  rw [run_bind, run_bind]
  generalize p s = x, q t = y at houtcome ⊢
  cases houtcome with
  | ok h => exact hfg _ _ _ h
  | error h => exact .error h

theorem Mirrors.imp {p : EStateM ε σ α} {q : EStateM ε τ α} (hpq : Mirrors R p q S E)
    (hpre : ∀ s t, R' s t → R s t) (hpost : ∀ s t, S s t → S' s t)
    (herr : ∀ s t, E s t → E' s t) : Mirrors R' p q S' E' := by
  intro s t hst
  have houtcome := hpq s t (hpre s t hst)
  generalize p s = x, q t = y at houtcome ⊢
  cases houtcome with
  | ok h => exact .ok (hpost _ _ h)
  | error h => exact .error (herr _ _ h)

theorem Mirrors.modified {f : σ → σ} {g : τ → τ} (h : ∀ s t, R s t → S (f s) (g t)) :
    Mirrors R (modify f : EStateM ε σ PUnit) (modify g : EStateM ε τ PUnit) S E :=
  fun s t hst => .ok (h s t hst)

theorem Mirrors.read_bind {f : σ → EStateM ε σ α} {g : τ → EStateM ε τ α}
    (h : ∀ s t, R s t → Mirrors R (f s) (g t) S E) :
    Mirrors R (MonadState.get >>= f) (MonadState.get >>= g) S E := by
  intro s t hst
  rw [bind_of_ok (run_get s), bind_of_ok (run_get t)]
  exact h s t hst s t hst

theorem Mirrors.ite {c : Prop} [Decidable c] {p p' : EStateM ε σ α} {q q' : EStateM ε τ α}
    (hyes : Mirrors R p q S E) (hno : Mirrors R p' q' S E) :
    Mirrors R (if c then p else p') (if c then q else q') S E := by
  by_cases hc : c
  · rw [if_pos hc, if_pos hc]
    exact hyes
  · rw [if_neg hc, if_neg hc]
    exact hno

theorem Parallel.pure (a : α) :
    Parallel R (Pure.pure a : EStateM ε σ α) (Pure.pure a : EStateM ε τ α) :=
  Mirrors.pure a fun _ _ h => h

theorem Parallel.throw (e : ε) :
    Parallel R (MonadExcept.throw e : EStateM ε σ α) (MonadExcept.throw e : EStateM ε τ α) :=
  Mirrors.throw e fun _ _ h => h

theorem Parallel.bind {p : EStateM ε σ α} {q : EStateM ε τ α} {f : α → EStateM ε σ β}
    {g : α → EStateM ε τ β} (hpq : Parallel R p q) (hfg : ∀ a, Parallel R (f a) (g a)) :
    Parallel R (p >>= f) (q >>= g) :=
  Mirrors.bind hpq hfg

/-- Loops whose rounds keep a relation keep it. -/
theorem Parallel.runAll {step : ι → EStateM ε σ ο} {step' : ι → EStateM ε τ ο} {inputs : List ι}
    (hstep : ∀ input ∈ inputs, Parallel R (step input) (step' input)) :
    Parallel R (runAll step inputs) (runAll step' inputs) := by
  induction inputs with
  | nil => exact Parallel.pure _
  | cons input rest ih =>
      have hrest := ih fun i hi => hstep i (List.mem_cons_of_mem _ hi)
      exact (hstep input (by simp)).bind fun _ => hrest.bind fun _ => Parallel.pure _

/-- A loop without early exit. -/
theorem Parallel.forIn {f : ι → EStateM ε σ PUnit} {g : ι → EStateM ε τ PUnit} (inputs : List ι)
    (hfg : ∀ i, Parallel R (f i) (g i)) :
    Parallel R
      (ForIn.forIn inputs PUnit.unit fun i _ => do
        f i
        Pure.pure (ForInStep.yield PUnit.unit))
      (ForIn.forIn inputs PUnit.unit fun i _ => do
        g i
        Pure.pure (ForInStep.yield PUnit.unit)) := by
  induction inputs with
  | nil => exact Parallel.pure _
  | cons i rest ih =>
      rw [List.forIn_cons, List.forIn_cons, bind_assoc, bind_assoc]
      simp only [pure_bind]
      exact (hfg i).bind fun _ => ih

end Mirrors

section Alone

variable {R : σ → σ → Prop} {I J : σ → Prop} {m : EStateM ε σ α}

/-- What one program keeps is a relation of its runs with themselves. -/
theorem Mirrors.alone (h : ∀ s, J s → I (final m s)) :
    Mirrors (fun s t => t = s ∧ J s) m m (fun s t => t = s ∧ I s) (fun s t => t = s ∧ I s) := by
  rintro s _ ⟨rfl, hs⟩
  have hfinal := h _ hs
  unfold final at hfinal
  generalize m _ = x at hfinal ⊢
  cases x with
  | ok a t => exact .ok ⟨rfl, hfinal⟩
  | error e t => exact .error ⟨rfl, hfinal⟩

/-- Conversely, what relates the runs with themselves holds of each. -/
theorem Parallel.keeps (h : Parallel R m m) (hself : ∀ s, I s → R s s)
    (hleft : ∀ s t, R s t → I s) : Keeps I m := by
  intro s hs
  have houtcome := h s s (hself s hs)
  unfold final
  generalize m s = x at houtcome ⊢
  cases houtcome with
  | ok hst => exact hleft _ _ hst
  | error hst => exact hleft _ _ hst

end Alone

end Lib.Program
