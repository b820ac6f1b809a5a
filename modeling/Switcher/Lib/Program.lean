import Mathlib.Logic.Basic

/-!
Rules for programs that read and change a state and may raise an exception.
`Returns` is total correctness: the program returns and its result is as
stated. `Avoids` is weaker: the program may raise anything but one exception.
`Keeps` is an invariant of every state the program can leave, also by an
exception. `Matches` compares two programs run side by side.
-/

namespace Lib.Program

variable {ε σ τ α β : Type}

/-- The state the program leaves, by returning or by raising. -/
def final (m : EStateM ε σ α) (s : σ) : σ :=
  match m s with
  | .ok _ t => t
  | .error _ t => t

def Returns (P : σ → Prop) (m : EStateM ε σ α) (Q : α → σ → Prop) : Prop :=
  ∀ s, P s → ∃ a t, m s = .ok a t ∧ Q a t

/-- The program does not raise `bad`, and what it returns is as stated. -/
def Avoids (bad : ε) (P : σ → Prop) (m : EStateM ε σ α) (Q : α → σ → Prop) : Prop :=
  ∀ s, P s → (∀ a t, m s = .ok a t → Q a t) ∧ ∀ e t, m s = .error e t → e ≠ bad

def Keeps (I : σ → Prop) (m : EStateM ε σ α) : Prop :=
  ∀ s, I s → I (final m s)

/-- From related states both programs return the same value, in related states. -/
def Matches (R : σ → τ → Prop) (p : EStateM ε σ α) (q : EStateM ε τ α) : Prop :=
  ∀ s t, R s t → ∃ a s' t', p s = .ok a s' ∧ q t = .ok a t' ∧ R s' t'

theorem run_pure (a : α) (s : σ) : (pure a : EStateM ε σ α) s = .ok a s := rfl

theorem run_get (s : σ) : (get : EStateM ε σ σ) s = .ok s s := rfl

theorem run_modify (f : σ → σ) (s : σ) :
    (modify f : EStateM ε σ PUnit) s = .ok ⟨⟩ (f s) := rfl

theorem run_ite_pure (c : Prop) [Decidable c] (a b : α) (s : σ) :
    (if c then pure a else pure b : EStateM ε σ α) s = .ok (if c then a else b) s := by
  by_cases hc : c
  · rw [if_pos hc, if_pos hc, run_pure]
  · rw [if_neg hc, if_neg hc, run_pure]

theorem run_bind (m : EStateM ε σ α) (f : α → EStateM ε σ β) (s : σ) :
    (m >>= f) s =
      match m s with
      | .ok a t => f a t
      | .error e t => .error e t := rfl

theorem bind_of_ok {m : EStateM ε σ α} {f : α → EStateM ε σ β} {s t : σ} {a : α}
    (h : m s = .ok a t) : (m >>= f) s = f a t := by
  rw [run_bind, h]

theorem bind_of_error {m : EStateM ε σ α} {f : α → EStateM ε σ β} {s t : σ} {e : ε}
    (h : m s = .error e t) : (m >>= f) s = .error e t := by
  rw [run_bind, h]

/-- A program that ends in a fixed result returns it. -/
theorem eq_of_return {m : EStateM ε σ α} {b b' : β} {s t : σ}
    (h : (m >>= fun _ => pure b) s = .ok b' t) : b' = b := by
  rw [run_bind] at h
  cases hm : m s with
  | error e u => simp [hm] at h
  | ok a u =>
      simp only [hm, run_pure] at h
      exact (EStateM.Result.ok.inj h).1.symm

theorem final_of_ok {m : EStateM ε σ α} {s t : σ} {a : α} (h : m s = .ok a t) :
    final m s = t := by
  simp [final, h]

theorem final_of_error {m : EStateM ε σ α} {s t : σ} {e : ε} (h : m s = .error e t) :
    final m s = t := by
  simp [final, h]

theorem final_congr {m m' : EStateM ε σ α} {s s' : σ} (h : m s = m' s') :
    final m s = final m' s' := by
  rw [final, h, final]

/-- A result computed from another one leaves the same state. -/
theorem final_bind_pure (m : EStateM ε σ α) (f : α → β) (s : σ) :
    final (m >>= fun a => pure (f a)) s = final m s := by
  simp only [final, run_bind]
  cases m s with
  | ok a t => rfl
  | error e t => rfl

/-- The program returns, and its result passes a test. -/
def yields (m : EStateM ε σ α) (s : σ) (test : α → σ → Bool) : Bool :=
  match m s with
  | .ok a t => test a t
  | .error _ _ => false

theorem exists_of_yields {m : EStateM ε σ α} {s : σ} {test : α → σ → Bool}
    (h : yields m s test = true) : ∃ a t, m s = .ok a t ∧ test a t = true := by
  cases hrun : m s with
  | ok a t => exact ⟨a, t, rfl, by simpa [yields, hrun] using h⟩
  | error e t => simp [yields, hrun] at h

section Returns

variable {P P' : σ → Prop} {Q Q' : α → σ → Prop}

theorem Returns.pure {a : α} (h : ∀ s, P s → Q a s) :
    Returns P (Pure.pure a : EStateM ε σ α) Q :=
  fun s hs => ⟨a, s, rfl, h s hs⟩

theorem Returns.bind {m : EStateM ε σ α} {f : α → EStateM ε σ β} {S : β → σ → Prop}
    (hm : Returns P m Q) (hf : ∀ a, Returns (Q a) (f a) S) :
    Returns P (m >>= f) S := by
  intro s hs
  obtain ⟨a, t, hrun, hq⟩ := hm s hs
  obtain ⟨b, u, hnext, hs'⟩ := hf a t hq
  exact ⟨b, u, by rw [bind_of_ok hrun, hnext], hs'⟩

theorem Returns.imp {m : EStateM ε σ α} (hm : Returns P m Q)
    (hpre : ∀ s, P' s → P s) (hpost : ∀ a s, Q a s → Q' a s) : Returns P' m Q' := by
  intro s hs
  obtain ⟨a, t, hrun, hq⟩ := hm s (hpre s hs)
  exact ⟨a, t, hrun, hpost a t hq⟩

/-- The state that is read is the state the program goes on from. -/
theorem Returns.get_bind {f : σ → EStateM ε σ α}
    (h : ∀ s, P s → Returns (fun t => t = s) (f s) Q) : Returns P (MonadState.get >>= f) Q := by
  intro s hs
  rw [bind_of_ok (run_get s)]
  exact h s hs s rfl

theorem Returns.modified {f : σ → σ} {S : σ → Prop} (h : ∀ s, P s → S (f s)) :
    Returns P (modify f : EStateM ε σ PUnit) (fun _ => S) :=
  fun s hs => ⟨⟨⟩, f s, rfl, h s hs⟩

/-- A loop without early exit. -/
theorem Returns.forIn {ι : Type} {I : σ → Prop} {f : ι → EStateM ε σ PUnit} (inputs : List ι)
    (hf : ∀ i ∈ inputs, Returns I (f i) (fun _ => I)) :
    Returns I (ForIn.forIn inputs PUnit.unit fun i _ => do
      f i
      Pure.pure (ForInStep.yield PUnit.unit)) (fun _ => I) := by
  induction inputs with
  | nil => exact Returns.pure fun _ hs => hs
  | cons i rest ih =>
      have hrest := ih fun j hj => hf j (List.mem_cons_of_mem _ hj)
      rw [List.forIn_cons]
      refine Returns.bind ((hf i (by simp)).bind fun _ => Returns.pure
        (Q := fun r s => r = ForInStep.yield PUnit.unit ∧ I s) fun s hs => ⟨rfl, hs⟩) ?_
      rintro r s ⟨rfl, hs⟩
      exact hrest s hs

end Returns

section Avoids

variable {bad : ε} {P P' : σ → Prop} {Q Q' : α → σ → Prop}

theorem Returns.avoids {m : EStateM ε σ α} (h : Returns P m Q) : Avoids bad P m Q := by
  intro s hs
  obtain ⟨a, t, hrun, hq⟩ := h s hs
  constructor
  · intro a' t' hok
    obtain ⟨rfl, rfl⟩ := EStateM.Result.ok.inj (hrun.symm.trans hok)
    exact hq
  · intro e t' herr
    cases hrun.symm.trans herr

/-- A single run that is known. -/
theorem Avoids.of_ok {m : EStateM ε σ α} {s t : σ} {a : α} (h : m s = .ok a t) (hq : Q a t) :
    Avoids bad (fun u => u = s) m Q := by
  apply Returns.avoids
  rintro _ rfl
  exact ⟨a, t, h, hq⟩

theorem Avoids.of_error {m : EStateM ε σ α} {e : ε} {s t : σ} (h : m s = .error e t)
    (hne : e ≠ bad) : Avoids bad (fun u => u = s) m Q := by
  rintro _ rfl
  constructor
  · intro a u hok
    cases h.symm.trans hok
  · intro e' u herr
    obtain ⟨rfl, -⟩ := EStateM.Result.error.inj (h.symm.trans herr)
    exact hne

theorem Avoids.throw {e : ε} (h : e ≠ bad) :
    Avoids bad P (MonadExcept.throw e : EStateM ε σ α) Q := by
  intro s hs
  constructor
  · intro a t hok
    cases hok
  · intro e' t herr
    obtain ⟨rfl, rfl⟩ := EStateM.Result.error.inj herr
    exact h

theorem Avoids.bind {m : EStateM ε σ α} {f : α → EStateM ε σ β} {S : β → σ → Prop}
    (hm : Avoids bad P m Q) (hf : ∀ a, Avoids bad (Q a) (f a) S) :
    Avoids bad P (m >>= f) S := by
  intro s hs
  cases hrun : m s with
  | ok a t =>
      rw [bind_of_ok hrun]
      exact hf a t ((hm s hs).1 a t hrun)
  | error e t =>
      rw [bind_of_error hrun]
      constructor
      · intro b u hok
        cases hok
      · intro e' u herr
        obtain ⟨rfl, rfl⟩ := EStateM.Result.error.inj herr
        exact (hm s hs).2 e t hrun

theorem Avoids.imp {m : EStateM ε σ α} (hm : Avoids bad P m Q) (hpre : ∀ s, P' s → P s)
    (hpost : ∀ a s, Q a s → Q' a s) : Avoids bad P' m Q' := by
  intro s hs
  obtain ⟨hok, herr⟩ := hm s (hpre s hs)
  exact ⟨fun a t hrun => hpost a t (hok a t hrun), herr⟩

theorem Avoids.pure {a : α} (h : ∀ s, P s → Q a s) :
    Avoids bad P (Pure.pure a : EStateM ε σ α) Q :=
  (Returns.pure h).avoids

theorem Avoids.modified {f : σ → σ} {S : σ → Prop} (h : ∀ s, P s → S (f s)) :
    Avoids bad P (modify f : EStateM ε σ PUnit) (fun _ => S) :=
  (Returns.modified h).avoids

theorem Avoids.get_bind {f : σ → EStateM ε σ α}
    (h : ∀ s, P s → Avoids bad (fun t => t = s) (f s) Q) :
    Avoids bad P (MonadState.get >>= f) Q := by
  intro s hs
  rw [bind_of_ok (run_get s)]
  exact h s hs s rfl

end Avoids

section Keeps

variable {I : σ → Prop}

theorem Keeps.pure (a : α) : Keeps I (Pure.pure a : EStateM ε σ α) :=
  fun _ hs => hs

theorem Keeps.throw (e : ε) : Keeps I (MonadExcept.throw e : EStateM ε σ α) :=
  fun _ hs => hs

theorem Keeps.get : Keeps I (MonadState.get : EStateM ε σ σ) :=
  fun _ hs => hs

theorem Keeps.get_bind {f : σ → EStateM ε σ α} (h : ∀ s, I s → Keeps I (f s)) :
    Keeps I (MonadState.get >>= f) :=
  fun s hs => h s hs s hs

theorem Keeps.modified {f : σ → σ} (h : ∀ s, I s → I (f s)) :
    Keeps I (modify f : EStateM ε σ PUnit) :=
  fun s hs => h s hs

theorem final_bind_keeps {m : EStateM ε σ α} {f : α → EStateM ε σ β} {s : σ}
    (hm : I (final m s)) (hf : ∀ a, Keeps I (f a)) : I (final (m >>= f) s) := by
  cases hrun : m s with
  | ok a t =>
      rw [final_of_ok hrun] at hm
      rw [final_congr (bind_of_ok hrun)]
      exact hf a t hm
  | error e t =>
      rw [final_of_error hrun] at hm
      rw [final_of_error (bind_of_error hrun)]
      exact hm

theorem Keeps.bind {m : EStateM ε σ α} {f : α → EStateM ε σ β}
    (hm : Keeps I m) (hf : ∀ a, Keeps I (f a)) : Keeps I (m >>= f) :=
  fun s hs => final_bind_keeps (hm s hs) hf

theorem Keeps.ite {c : Prop} [Decidable c] {m m' : EStateM ε σ α} (hyes : Keeps I m)
    (hno : Keeps I m') : Keeps I (if c then m else m') := by
  by_cases hc : c
  · rw [if_pos hc]
    exact hyes
  · rw [if_neg hc]
    exact hno

end Keeps

section Matches

variable {R : σ → τ → Prop}

theorem Matches.pure (a : α) :
    Matches R (Pure.pure a : EStateM ε σ α) (Pure.pure a : EStateM ε τ α) :=
  fun s t hst => ⟨a, s, t, rfl, rfl, hst⟩

theorem Matches.bind {p : EStateM ε σ α} {q : EStateM ε τ α}
    {f : α → EStateM ε σ β} {g : α → EStateM ε τ β}
    (hpq : Matches R p q) (hfg : ∀ a, Matches R (f a) (g a)) :
    Matches R (p >>= f) (q >>= g) := by
  intro s t hst
  obtain ⟨a, s', t', hp, hq, hst'⟩ := hpq s t hst
  obtain ⟨b, s'', t'', hf, hg, hst''⟩ := hfg a s' t' hst'
  exact ⟨b, s'', t'', by rw [bind_of_ok hp, hf], by rw [bind_of_ok hq, hg], hst''⟩

theorem Matches.ite {c : Prop} [Decidable c] {p p' : EStateM ε σ α}
    {q q' : EStateM ε τ α} (hyes : Matches R p q) (hno : Matches R p' q') :
    Matches R (if c then p else p') (if c then q else q') := by
  by_cases hc : c
  · rw [if_pos hc, if_pos hc]
    exact hyes
  · rw [if_neg hc, if_neg hc]
    exact hno

theorem Matches.modified {f : σ → σ} {g : τ → τ} (h : ∀ s t, R s t → R (f s) (g t)) :
    Matches R (modify f : EStateM ε σ PUnit) (modify g : EStateM ε τ PUnit) :=
  fun s t hst => ⟨⟨⟩, f s, g t, rfl, rfl, h s t hst⟩

end Matches

end Lib.Program
