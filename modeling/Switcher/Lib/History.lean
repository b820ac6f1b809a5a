import Mathlib.Data.List.Basic
import Mathlib.Data.List.Induction

/-!
Streams read with their past: what holds of every element together with the
elements in front of it, what holds of some element, and the last element that
has a value.
-/

namespace Lib.History

variable {α β : Type} {Q Q' : List α → α → Prop} {l : List α} {a : α}

def Always (Q : List α → α → Prop) (l : List α) : Prop :=
  ∀ past a rest, l = past ++ a :: rest → Q past a

def Occurs (Q : List α → α → Prop) (l : List α) : Prop :=
  ∃ past a rest, l = past ++ a :: rest ∧ Q past a

/-- The value of the last element that has one. -/
def lastSome (f : α → Option β) (l : List α) : Option β :=
  l.foldl (fun last a => (f a).or last) none

/-- A split of a stream that has one more element is a split of the stream, or
the element comes last. -/
theorem split_concat {past rest : List α} {b : α} (h : l ++ [a] = past ++ b :: rest) :
    (∃ rest', l = past ++ b :: rest') ∨ past = l ∧ b = a := by
  rcases rest.eq_nil_or_concat with rfl | ⟨rest', c, rfl⟩
  · obtain ⟨hpast, hb⟩ := List.append_inj' h rfl
    exact .inr ⟨hpast.symm, (List.cons.inj hb).1.symm⟩
  · rw [List.concat_eq_append, ← List.cons_append, ← List.append_assoc] at h
    exact .inl ⟨rest', (List.append_inj' h rfl).1⟩

theorem exists_split {i : Nat} (h : l[i]? = some a) :
    ∃ front back, l = front ++ a :: back ∧ front.length = i ∧ l.eraseIdx i = front ++ back := by
  obtain ⟨hi, hget⟩ := List.getElem?_eq_some_iff.mp h
  refine ⟨l.take i, l.drop (i + 1), ?_, List.length_take_of_le (Nat.le_of_lt hi), ?_⟩
  · rw [← hget, List.getElem_cons_drop, List.take_append_drop]
  · exact List.eraseIdx_eq_take_drop_succ l i

@[simp] theorem always_nil : Always Q [] := by
  intro past a rest h
  simp at h

@[simp] theorem not_occurs_nil : ¬ Occurs Q [] := by
  rintro ⟨past, a, rest, h, -⟩
  simp at h

theorem always_concat : Always Q (l ++ [a]) ↔ Always Q l ∧ Q l a := by
  constructor
  · intro h
    refine ⟨?_, h l a [] rfl⟩
    intro past b rest hsplit
    exact h past b (rest ++ [a]) (by rw [hsplit, List.append_assoc]; rfl)
  · rintro ⟨hall, hlast⟩ past b rest hsplit
    rcases split_concat hsplit with ⟨rest', hl⟩ | ⟨rfl, rfl⟩
    · exact hall past b rest' hl
    · exact hlast

theorem occurs_concat : Occurs Q (l ++ [a]) ↔ Occurs Q l ∨ Q l a := by
  constructor
  · rintro ⟨past, b, rest, hsplit, hb⟩
    rcases split_concat hsplit with ⟨rest', hl⟩ | ⟨rfl, rfl⟩
    · exact .inl ⟨past, b, rest', hl, hb⟩
    · exact .inr hb
  · rintro (⟨past, b, rest, hl, hb⟩ | hlast)
    · exact ⟨past, b, rest ++ [a], by rw [hl, List.append_assoc]; rfl, hb⟩
    · exact ⟨l, a, [], rfl, hlast⟩

theorem Always.imp (h : Always Q l) (himp : ∀ past, ∀ b ∈ l, Q past b → Q' past b) :
    Always Q' l := by
  intro past b rest hsplit
  exact himp past b (by simp [hsplit]) (h past b rest hsplit)

theorem always_congr (h : ∀ past, ∀ b ∈ l, Q past b ↔ Q' past b) : Always Q l ↔ Always Q' l := by
  constructor
  · intro hl
    exact hl.imp fun past b hb => (h past b hb).mp
  · intro hl
    exact hl.imp fun past b hb => (h past b hb).mpr

theorem always_append {m : List α} :
    Always Q (l ++ m) ↔ Always Q l ∧ Always (fun past b => Q (l ++ past) b) m := by
  induction m using List.reverseRecOn with
  | nil => simp
  | append_singleton m a ih =>
      rw [← List.append_assoc, always_concat, ih, always_concat, and_assoc]

theorem always_cons : Always Q (a :: l) ↔ Q [] a ∧ Always (fun past b => Q (a :: past) b) l := by
  have hsingle : Always Q [a] ↔ Q [] a := by
    rw [show [a] = [] ++ [a] from rfl, always_concat]
    simp
  rw [show a :: l = [a] ++ l from rfl, always_append, hsingle]
  rfl

theorem Always.of_append {m : List α} (h : Always Q (l ++ m)) : Always Q l :=
  (always_append.mp h).1

theorem always_mapIdx {γ : Type} {Q : List γ → γ → Prop} (f : Nat → α → γ) :
    Always Q (l.mapIdx f) ↔ Always (fun past a => Q (past.mapIdx f) (f past.length a)) l := by
  induction l using List.reverseRecOn with
  | nil => simp
  | append_singleton l a ih => rw [List.mapIdx_concat, always_concat, ih, always_concat]

/-- A stream of streams: what is in front of an element are the streams in front
of its own, and what precedes it there. -/
theorem always_flatMap {γ : Type} {Q : List γ → γ → Prop} (f : α → List γ) :
    Always Q (l.flatMap f) ↔
      Always (fun past a => Always (fun front b => Q (past.flatMap f ++ front) b) (f a)) l := by
  induction l using List.reverseRecOn with
  | nil => simp
  | append_singleton l a ih =>
      rw [List.flatMap_append, List.flatMap_singleton, always_append, ih, always_concat]

theorem lastSome_concat (f : α → Option β) :
    lastSome f (l ++ [a]) = (f a).or (lastSome f l) := by
  simp [lastSome]

theorem lastSome_eq_getLast? (f : α → Option β) : lastSome f l = (l.filterMap f).getLast? := by
  induction l using List.reverseRecOn with
  | nil => rfl
  | append_singleton l a ih =>
      rw [lastSome_concat, List.filterMap_append, ih]
      cases hf : f a with
      | none => simp [hf]
      | some b => simp [hf]

theorem lastSome_eq_none {f : α → Option β} : lastSome f l = none ↔ ∀ a ∈ l, f a = none := by
  rw [lastSome_eq_getLast?, List.getLast?_eq_none_iff, List.filterMap_eq_nil_iff]

theorem lastSome_append (f : α → Option β) (m : List α) :
    lastSome f (l ++ m) = (lastSome f m).or (lastSome f l) := by
  induction m using List.reverseRecOn with
  | nil => simp [lastSome]
  | append_singleton m a ih =>
      rw [← List.append_assoc, lastSome_concat, ih, lastSome_concat, Option.or_assoc]

/-- The first element with a property. -/
theorem exists_first {P : α → Prop} (h : ∃ a ∈ l, P a) :
    ∃ past a rest, l = past ++ a :: rest ∧ P a ∧ ∀ b ∈ past, ¬ P b := by
  induction l with
  | nil => simp at h
  | cons c l ih =>
      by_cases hc : P c
      · exact ⟨[], c, l, rfl, hc, by simp⟩
      · obtain ⟨past, a, rest, rfl, ha, hpast⟩ := ih (by simpa [hc] using h)
        refine ⟨c :: past, a, rest, rfl, ha, ?_⟩
        intro b hb
        rcases List.mem_cons.mp hb with rfl | hb
        · exact hc
        · exact hpast b hb

/-- An element may be moved in front of elements that have no value, and one that
has no value may be moved anywhere. -/
theorem lastSome_move {f : α → Option β} {m n : List α} (h : f a = none ∨ ∀ b ∈ m, f b = none) :
    lastSome f (l ++ (m ++ a :: n)) = lastSome f (l ++ [a] ++ (m ++ n)) := by
  have hfilter : (m ++ a :: n).filterMap f = ([a] ++ (m ++ n)).filterMap f := by
    rcases h with ha | hm
    · simp [ha]
    · have hnil : m.filterMap f = [] := List.filterMap_eq_nil_iff.mpr hm
      rw [List.filterMap_append, hnil, List.filterMap_append, List.filterMap_append, hnil,
        List.filterMap_cons, List.filterMap_cons]
      cases f a with
      | none => rfl
      | some b => rfl
  simp only [lastSome_eq_getLast?, List.append_assoc]
  rw [List.filterMap_append, hfilter, ← List.filterMap_append]

/-- Some element has a value if and only if the last value exists. -/
theorem isSome_lastSome (f : α → Option β) : (lastSome f l).isSome ↔ ∃ b ∈ l, (f b).isSome := by
  induction l using List.reverseRecOn with
  | nil => simp [lastSome]
  | append_singleton l a ih =>
      rw [lastSome_concat, Option.isSome_or, Bool.or_eq_true, ih]
      simp [or_comm]

/-- A front part does not matter exactly if, unless nothing has a value, something
behind it has one. -/
theorem lastSome_append_eq_iff {f : α → Option β} {m : List α} :
    lastSome f (l ++ m) = lastSome f m ↔
      ((∃ b ∈ l ++ m, (f b).isSome) → ∃ b ∈ m, (f b).isSome) := by
  rw [← isSome_lastSome, ← isSome_lastSome, lastSome_append]
  cases lastSome f m with
  | none => simp
  | some b => simp

/-- In any order, if only one element can have a value. -/
theorem lastSome_eq_of_perm {f : α → Option β} {m : List α} (hperm : m.Perm l)
    (honce : l.Pairwise fun a b => f a = none ∨ f b = none) : lastSome f m = lastSome f l := by
  have hshort : ∀ l : List α, (l.Pairwise fun a b => f a = none ∨ f b = none) →
      (l.filterMap f).length ≤ 1 := by
    intro l hl
    induction l with
    | nil => simp
    | cons a l ih =>
        obtain ⟨ha, hrest⟩ := List.pairwise_cons.mp hl
        cases hf : f a with
        | none =>
            rw [List.filterMap_cons_none hf]
            exact ih hrest
        | some b =>
            have hnil : l.filterMap f = [] := by
              rw [List.filterMap_eq_nil_iff]
              intro c hc
              simpa [hf] using ha c hc
            rw [List.filterMap_cons_some hf, hnil]
            exact Nat.le_refl 1
  have hvalues := hperm.filterMap f
  have hlength := hshort l honce
  rw [lastSome_eq_getLast?, lastSome_eq_getLast?]
  rcases hl : l.filterMap f with _ | ⟨b, _ | ⟨c, rest⟩⟩
  · rw [hl, List.perm_nil] at hvalues
    rw [hvalues]
  · rw [hl, List.perm_singleton] at hvalues
    rw [hvalues]
  · simp [hl] at hlength

end Lib.History
