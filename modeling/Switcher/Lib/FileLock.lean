import Mathlib.Logic.Function.Basic

/-!
Files with advisory locks. A lock belongs to the file and not to the name that the
file was opened under: when the name is gone, whoever opens it anew gets, and may
lock, another file.
-/

namespace Lib.FileLock

open Function

/-- Names, the files that they lead to, and who holds the lock of each file. -/
structure Volume (Path Owner : Type) where
  entry : Path → Option Nat
  content : Nat → List Char
  holder : Nat → Option Owner
  fresh : Nat
  entry_lt : ∀ name i, entry name = some i → i < fresh

variable {Path Owner : Type} [DecidableEq Path]

theorem entry_lt_update {entry : Path → Option Nat} {n m : Nat}
    (h : ∀ name i, entry name = some i → i < n) (hle : n ≤ m) {name : Path} {file : Option Nat}
    (hfile : ∀ i, file = some i → i < m) (other : Path) (i : Nat)
    (hother : update entry name file other = some i) : i < m := by
  rcases eq_or_ne other name with rfl | hne
  · rw [update_self] at hother
    exact hfile i hother
  · rw [update_of_ne hne] at hother
    exact Nat.lt_of_lt_of_le (h other i hother) hle

/-- A new, empty file under a name. -/
def Volume.create (v : Volume Path Owner) (name : Path) : Volume Path Owner where
  entry := update v.entry name (some v.fresh)
  content := update v.content v.fresh []
  holder := update v.holder v.fresh none
  fresh := v.fresh + 1
  entry_lt := entry_lt_update v.entry_lt (Nat.le_succ _)
    fun _ hi => Option.some.inj hi ▸ Nat.lt_succ_self _

/-- `open` with `O_CREAT`. -/
def Volume.openFile (v : Volume Path Owner) (name : Path) : Nat × Volume Path Owner :=
  match v.entry name with
  | some i => (i, v)
  | none => (v.fresh, v.create name)

def Volume.unlink (v : Volume Path Owner) (name : Path) : Volume Path Owner :=
  { v with
    entry := update v.entry name none
    entry_lt := entry_lt_update v.entry_lt (Nat.le_refl _) fun _ hi => nomatch hi }

/-- A write at the start of the file. -/
def Volume.overwrite (v : Volume Path Owner) (i : Nat) (text : List Char) : Volume Path Owner :=
  { v with content := update v.content i (text ++ (v.content i).drop text.length) }

variable [DecidableEq Owner]

/-- `flock` with `LOCK_EX | LOCK_NB`: nothing if the call would block. -/
def Volume.lock (v : Volume Path Owner) (i : Nat) (o : Owner) : Option (Volume Path Owner) :=
  if v.holder i = none ∨ v.holder i = some o then
    some { v with holder := update v.holder i (some o) }
  else
    none

/-- `flock` with `LOCK_UN`. -/
def Volume.unlock (v : Volume Path Owner) (i : Nat) (o : Owner) : Volume Path Owner :=
  if v.holder i = some o then { v with holder := update v.holder i none } else v

/-- The last use of a file, if any, is over. -/
def Volume.close (v : Volume Path Owner) (fh : Option Nat) (o : Owner) : Volume Path Owner :=
  fh.elim v fun i => v.unlock i o

/-- The party holds the lock of the file that the name leads to. -/
def Volume.Owns (v : Volume Path Owner) (name : Path) (o : Owner) : Prop :=
  ∃ i, v.entry name = some i ∧ v.holder i = some o

variable {v w : Volume Path Owner} {name other : Path} {o o' : Owner} {i j : Nat}

omit [DecidableEq Path] [DecidableEq Owner] in
/-- A name has one owner. -/
theorem Volume.Owns.unique (h : v.Owns name o) (h' : v.Owns name o') : o = o' := by
  obtain ⟨i, hentry, hholder⟩ := h
  obtain ⟨j, hentry', hholder'⟩ := h'
  obtain rfl := Option.some.inj (hentry.symm.trans hentry')
  exact Option.some.inj (hholder.symm.trans hholder')

section Entry

omit [DecidableEq Owner] in
theorem entry_openFile : (v.openFile name).2.entry name = some (v.openFile name).1 := by
  unfold Volume.openFile
  cases hentry : v.entry name with
  | some i => exact hentry
  | none => exact update_self ..

omit [DecidableEq Owner] in
/-- A name keeps its file, whatever is opened. -/
theorem entry_openFile_of_some (h : v.entry other = some i) :
    (v.openFile name).2.entry other = some i := by
  unfold Volume.openFile
  cases hentry : v.entry name with
  | some j => exact h
  | none =>
      have hne : other ≠ name := by
        rintro rfl
        cases hentry.symm.trans h
      exact (update_of_ne hne _ _).trans h

omit [DecidableEq Owner] in
theorem entry_unlink_of_ne (hne : name ≠ other) : (v.unlink other).entry name = v.entry name :=
  update_of_ne hne _ _

omit [DecidableEq Path] in
theorem entry_lock (h : v.lock i o = some w) : w.entry = v.entry := by
  unfold Volume.lock at h
  split at h
  · rw [← Option.some.inj h]
  · cases h

omit [DecidableEq Path] in
theorem entry_close (fh : Option Nat) : (v.close fh o).entry = v.entry := by
  cases fh with
  | none => rfl
  | some i =>
      simp only [Volume.close, Option.elim, Volume.unlock]
      split <;> rfl

end Entry

section Holder

omit [DecidableEq Owner] in
/-- The lock of a file that a name leads to is kept, whatever is opened. -/
theorem holder_openFile (h : v.entry other = some i) :
    (v.openFile name).2.holder i = v.holder i := by
  unfold Volume.openFile
  cases v.entry name with
  | some j => rfl
  | none => exact update_of_ne (Nat.ne_of_lt (v.entry_lt other i h)) _ _

omit [DecidableEq Owner] in
/-- Opening a file gives nobody a lock. -/
theorem holder_of_openFile (h : (v.openFile name).2.holder i = some o) : v.holder i = some o := by
  unfold Volume.openFile at h
  cases hentry : v.entry name with
  | some j => rwa [hentry] at h
  | none =>
      rw [hentry] at h
      rcases eq_or_ne i v.fresh with rfl | hne
      · cases (update_self ..).symm.trans h
      · exact (update_of_ne hne _ _).symm.trans h

omit [DecidableEq Path] in
theorem holder_lock_self (h : v.lock i o = some w) : w.holder i = some o := by
  unfold Volume.lock at h
  split at h
  · rw [← Option.some.inj h]
    exact update_self ..
  · cases h

omit [DecidableEq Path] in
/-- Nobody else's lock is taken away. -/
theorem holder_lock (h : v.lock i o = some w) (hj : v.holder j = some o') :
    w.holder j = some o' := by
  unfold Volume.lock at h
  split at h
  · next hfree =>
      rw [← Option.some.inj h]
      rcases eq_or_ne j i with rfl | hne
      · rw [hj] at hfree
        obtain rfl := Option.some.inj (hfree.resolve_left (fun hnone => nomatch hnone))
        exact update_self ..
      · exact (update_of_ne hne _ _).trans hj
  · cases h

omit [DecidableEq Path] in
theorem holder_of_lock (h : v.lock i o = some w) (hj : w.holder j = some o') :
    v.holder j = some o' ∨ j = i ∧ o' = o := by
  rcases eq_or_ne j i with rfl | hne
  · exact .inr ⟨rfl, Option.some.inj (hj.symm.trans (holder_lock_self h))⟩
  · unfold Volume.lock at h
    split at h
    · rw [← Option.some.inj h] at hj
      exact .inl ((update_of_ne hne _ _).symm.trans hj)
    · cases h

omit [DecidableEq Path] in
/-- A lock that is refused is somebody else's. -/
theorem holder_of_refused (h : v.lock i o = none) : ∃ o', o' ≠ o ∧ v.holder i = some o' := by
  unfold Volume.lock at h
  split at h
  · cases h
  · next hheld =>
      obtain ⟨hsome, hother⟩ := not_or.mp hheld
      obtain ⟨o', ho'⟩ := Option.ne_none_iff_exists'.mp hsome
      refine ⟨o', ?_, ho'⟩
      rintro rfl
      exact hother ho'

omit [DecidableEq Path] in
theorem holder_unlock (hne : o' ≠ o) (h : v.holder j = some o') :
    (v.unlock i o).holder j = some o' := by
  unfold Volume.unlock
  split
  · next hheld =>
      have hij : j ≠ i := by
        rintro rfl
        exact hne (Option.some.inj (h.symm.trans hheld))
      exact (update_of_ne hij _ _).trans h
  · exact h

omit [DecidableEq Path] in
theorem holder_of_unlock (h : (v.unlock i o).holder j = some o') :
    v.holder j = some o' ∧ ¬ (j = i ∧ o' = o) := by
  unfold Volume.unlock at h
  split at h
  · rcases eq_or_ne j i with rfl | hne
    · cases (update_self ..).symm.trans h
    · exact ⟨(update_of_ne hne _ _).symm.trans h, fun hji => hne hji.1⟩
  · next hheld =>
      refine ⟨h, ?_⟩
      rintro ⟨rfl, rfl⟩
      exact hheld h

omit [DecidableEq Path] in
theorem holder_close (fh : Option Nat) (hne : o' ≠ o) (h : v.holder j = some o') :
    (v.close fh o).holder j = some o' := by
  cases fh with
  | none => exact h
  | some i => exact holder_unlock hne h

omit [DecidableEq Path] in
theorem holder_of_close {fh : Option Nat} (h : (v.close fh o).holder j = some o') :
    v.holder j = some o' ∧ ¬ (fh = some j ∧ o' = o) := by
  cases fh with
  | none => exact ⟨h, fun hfh => nomatch hfh.1⟩
  | some i =>
      obtain ⟨hheld, hnot⟩ := holder_of_unlock h
      exact ⟨hheld, fun hfh => hnot ⟨(Option.some.inj hfh.1).symm, hfh.2⟩⟩

end Holder

omit [DecidableEq Path] in
theorem owns_of_lock (hentry : v.entry name = some i) (hlock : v.lock i o = some w) :
    w.Owns name o :=
  ⟨i, (congrFun (entry_lock hlock) name).trans hentry, holder_lock_self hlock⟩

section Spares

/-- What one party does with a name leaves the others what they own there. -/
structure Volume.Spares (name : Path) (o : Owner) (v w : Volume Path Owner) : Prop where
  entry : ∀ i, v.entry name = some i → w.entry name = some i
  holder : ∀ i o', o' ≠ o → v.entry name = some i → v.holder i = some o' → w.holder i = some o'
  content : ∀ i o', o' ≠ o → v.entry name = some i → v.holder i = some o' →
    w.content i = v.content i

omit [DecidableEq Path] [DecidableEq Owner] in
theorem Volume.Owns.spared (h : v.Owns name o') (hspares : v.Spares name o w) (hne : o' ≠ o) :
    w.Owns name o' := by
  obtain ⟨i, hentry, hholder⟩ := h
  exact ⟨i, hspares.entry i hentry, hspares.holder i o' hne hentry hholder⟩

omit [DecidableEq Path] [DecidableEq Owner] in
theorem spares_refl (v : Volume Path Owner) (name : Path) (o : Owner) : v.Spares name o v :=
  ⟨fun _ h => h, fun _ _ _ _ h => h, fun _ _ _ _ _ => rfl⟩

omit [DecidableEq Owner] in
theorem spares_openFile : v.Spares name o (v.openFile other).2 where
  entry _ h := entry_openFile_of_some h
  holder _ _ _ hentry h := (holder_openFile hentry).trans h
  content i _ _ hentry _ := by
    unfold Volume.openFile
    cases v.entry other with
    | some j => rfl
    | none => exact update_of_ne (Nat.ne_of_lt (v.entry_lt name i hentry)) _ _

omit [DecidableEq Path] in
theorem spares_lock (h : v.lock i o = some w) : v.Spares name o w where
  entry j hentry := (congrFun (entry_lock h) name).trans hentry
  holder _ _ _ _ hj := holder_lock h hj
  content _ _ _ _ _ := by
    unfold Volume.lock at h
    split at h
    · rw [← Option.some.inj h]
    · cases h

omit [DecidableEq Path] in
theorem spares_close (fh : Option Nat) : v.Spares name o (v.close fh o) where
  entry j hentry := (congrFun (entry_close fh) name).trans hentry
  holder _ _ hne _ h := holder_close fh hne h
  content _ _ _ _ _ := by
    cases fh with
    | none => rfl
    | some i =>
        simp only [Volume.close, Option.elim, Volume.unlock]
        split <;> rfl

omit [DecidableEq Owner] in
theorem spares_unlink (hne : name ≠ other) : v.Spares name o (v.unlink other) where
  entry _ h := (entry_unlink_of_ne hne).trans h
  holder _ _ _ _ h := h
  content _ _ _ _ _ := rfl

omit [DecidableEq Path] [DecidableEq Owner] in
/-- Who holds the lock of a file may write to it. -/
theorem spares_overwrite (h : v.holder i = some o) (text : List Char) :
    v.Spares name o (v.overwrite i text) where
  entry _ h := h
  holder _ _ _ _ h := h
  content j o' hne _ hj := by
    have hij : j ≠ i := by
      rintro rfl
      exact hne (Option.some.inj (hj.symm.trans h))
    exact update_of_ne hij _ _

omit [DecidableEq Path] [DecidableEq Owner] in
theorem Volume.Spares.trans {u : Volume Path Owner} (h : u.Spares name o v)
    (h' : v.Spares name o w) : u.Spares name o w where
  entry i hi := h'.entry i (h.entry i hi)
  holder i o' hne hentry hi := h'.holder i o' hne (h.entry i hentry) (h.holder i o' hne hentry hi)
  content i o' hne hentry hi :=
    (h'.content i o' hne (h.entry i hentry) (h.holder i o' hne hentry hi)).trans
      (h.content i o' hne hentry hi)

end Spares

end Lib.FileLock
