import Mathlib.Data.List.DropRight
import Mathlib.Data.List.TakeWhile
import Mathlib.Data.Nat.Init

/-!
A text read line by line through a buffer of a fixed size, and texts without the
white space around them. A line that does not fit comes in several pieces, so
only texts that end with a line end can be read one behind the other.
-/

namespace Lib.Lines

variable {α : Type}

section Trim

variable (space : α → Bool)

def lskip (s : List α) : List α := s.dropWhile space

def rstrip (s : List α) : List α := s.rdropWhile space

/-- Nothing to strip at either end. -/
structure Trimmed (s : List α) : Prop where
  first : ∀ c ∈ s.head?, space c = false
  last : ∀ c ∈ s.getLast?, space c = false

variable {space} {s pad tail : List α}

theorem trimmed_nil : Trimmed space [] := ⟨by simp, by simp⟩

/-- A text without white space is trimmed. -/
theorem trimmed_of_forall (h : ∀ c ∈ s, space c = false) : Trimmed space s :=
  ⟨fun c hc => h c (List.mem_of_head? hc), fun c hc => h c (List.mem_of_getLast? hc)⟩

theorem lskip_append (hpad : ∀ c ∈ pad, space c = true) : lskip space (pad ++ s) = lskip space s :=
  List.dropWhile_append_of_pos hpad

theorem lskip_self (h : ∀ c ∈ s.head?, space c = false) : lskip space s = s := by
  cases s with
  | nil => rfl
  | cons c s => exact List.dropWhile_cons_of_neg (by simp [h c rfl])

theorem rstrip_append (htail : ∀ c ∈ tail, space c = true) :
    rstrip space (s ++ tail) = rstrip space s := by
  induction tail using List.reverseRecOn with
  | nil => rw [List.append_nil]
  | append_singleton tail c ih =>
      rw [← List.append_assoc, rstrip, List.rdropWhile_concat_pos _ _ _ (htail c (by simp))]
      exact ih fun d hd => htail d (by simp [hd])

theorem rstrip_self (h : ∀ c ∈ s.getLast?, space c = false) : rstrip space s = s := by
  rw [rstrip, List.rdropWhile_eq_self_iff]
  intro hne
  simp [h (s.getLast hne) (List.getLast?_eq_some_getLast hne)]

theorem rstrip_eq_nil : rstrip space s = [] ↔ ∀ c ∈ s, space c = true := by
  rw [rstrip, List.rdropWhile_eq_nil_iff]

theorem lskip_first : ∀ c ∈ (lskip space s).head?, space c = false := by
  intro c hc
  have hnot := List.head?_dropWhile_not space s
  rw [show (s.dropWhile space).head? = some c from hc] at hnot
  simpa using hnot

theorem rstrip_last : ∀ c ∈ (rstrip space s).getLast?, space c = false := by
  intro c hc
  obtain ⟨hne, rfl⟩ := List.mem_getLast?_eq_getLast hc
  have hlast := List.rdropWhile_last_not space s hne
  rwa [Bool.not_eq_true] at hlast

theorem lskip_split (space : α → Bool) (s : List α) :
    ∃ pad, (∀ c ∈ pad, space c = true) ∧ s = pad ++ lskip space s :=
  ⟨s.takeWhile space, fun _ hc => List.mem_takeWhile_imp hc, List.takeWhile_append_dropWhile.symm⟩

theorem rstrip_split (space : α → Bool) (s : List α) :
    ∃ tail, (∀ c ∈ tail, space c = true) ∧ s = rstrip space s ++ tail :=
  ⟨s.rtakeWhile space, fun _ hc => List.mem_rtakeWhile_imp hc,
    (List.rdropWhile_append_rtakeWhile ..).symm⟩

/-- Stripping the end keeps what stands in front. -/
theorem rstrip_keep {c : α} (hc : space c = false) (front back : List α) :
    rstrip space (front ++ c :: back) = front ++ c :: rstrip space back := by
  induction back using List.reverseRecOn with
  | nil =>
      rw [rstrip_self]
      · rfl
      · simpa using hc
  | append_singleton back d ih =>
      cases hd : space d with
      | true =>
          have htail : ∀ e ∈ [d], space e = true := by simpa using hd
          rw [← List.cons_append, ← List.append_assoc, rstrip_append htail, ih,
            rstrip_append htail]
      | false =>
          have hend (s : List α) : rstrip space (s ++ [d]) = s ++ [d] :=
            rstrip_self (by simpa using hd)
          rw [hend, ← List.cons_append, ← List.append_assoc, hend]

theorem rstrip_first (h : ∀ c ∈ s.head?, space c = false) :
    ∀ c ∈ (rstrip space s).head?, space c = false := by
  intro c hc
  obtain ⟨tail, -, hsplit⟩ := rstrip_split space s
  refine h c ?_
  rw [hsplit, List.head?_append, show (rstrip space s).head? = some c from hc]
  rfl

theorem trimmed_rstrip (h : ∀ c ∈ s.head?, space c = false) : Trimmed space (rstrip space s) :=
  ⟨rstrip_first h, rstrip_last⟩

/-- What both ends leave of a text whose middle is trimmed. -/
theorem strip_middle (hpad : ∀ c ∈ pad, space c = true) (htail : ∀ c ∈ tail, space c = true)
    (hs : Trimmed space s) : lskip space (rstrip space (pad ++ s ++ tail)) = s := by
  rw [rstrip_append htail]
  cases s with
  | nil =>
      rw [List.append_nil, rstrip_eq_nil.mpr hpad]
      rfl
  | cons c s =>
      rw [rstrip_self, lskip_append hpad, lskip_self hs.first]
      intro d hd
      rw [List.getLast?_append_of_ne_nil _ (by simp)] at hd
      exact hs.last d hd

/-- A text is what is left of it, with white space around. -/
theorem strip_split (space : α → Bool) (s : List α) : ∃ pad tail, (∀ c ∈ pad, space c = true) ∧
    (∀ c ∈ tail, space c = true) ∧ s = pad ++ lskip space (rstrip space s) ++ tail := by
  obtain ⟨tail, htail, hs⟩ := rstrip_split space s
  obtain ⟨pad, hpad, hrest⟩ := lskip_split space (rstrip space s)
  refine ⟨pad, tail, hpad, htail, ?_⟩
  rw [← hrest]
  exact hs

theorem trimmed_strip : Trimmed space (lskip space (rstrip space s)) := by
  refine ⟨lskip_first, ?_⟩
  intro c hc
  refine rstrip_last (s := s) c ?_
  obtain ⟨pad, -, hpad⟩ := lskip_split space (rstrip space s)
  have hne : lskip space (rstrip space s) ≠ [] := by
    intro hnil
    rw [hnil] at hc
    cases hc
  rw [hpad, List.getLast?_append_of_ne_nil _ hne]
  exact hc

end Trim

section Ended

variable (newline : α) {a b : List α}

/-- The text ends with a line end, if it is not empty. -/
def Ended (s : List α) : Prop := ∀ c ∈ s.getLast?, c = newline

variable {newline}

theorem ended_append (ha : Ended newline a) (hb : Ended newline b) : Ended newline (a ++ b) := by
  intro c hc
  rw [List.getLast?_append] at hc
  cases hlast : b.getLast? with
  | none =>
      rw [hlast] at hc
      exact ha c hc
  | some d =>
      rw [hlast] at hc
      exact hb c (by rw [hlast]; exact hc)

theorem ended_concat (line : List α) : Ended newline (line ++ [newline]) := by
  intro c hc
  simpa [eq_comm] using hc

end Ended

section Read

variable [DecidableEq α] (newline : α)

/-- Up to `n` characters of a text, not beyond a line end, and the rest. -/
def takeLine : Nat → List α → List α × List α
  | 0, s => ([], s)
  | _ + 1, [] => ([], [])
  | n + 1, c :: s =>
      if c = newline then ([c], s) else (c :: (takeLine n s).1, (takeLine n s).2)

/-- `fgets` with a buffer of `size` characters: what it stores, without the
terminator, and the rest of the file. -/
def fgets (size : Nat) (file : List α) : Option (List α × List α) :=
  if file = [] then none else some (takeLine newline (size - 1) file)

def linesFrom (size : Nat) : Nat → List α → List (List α)
  | 0, _ => []
  | fuel + 1, file =>
      match fgets newline size file with
      | none => []
      | some (line, rest) => line :: linesFrom size fuel rest

/-- What calls of `fgets` store until the file ends. -/
def linesOf (size : Nat) (file : List α) : List (List α) :=
  linesFrom newline size file.length file

variable {newline} {n size fuel : Nat} {s line rest a b : List α}

theorem takeLine_append (newline : α) (n : Nat) (s : List α) :
    (takeLine newline n s).1 ++ (takeLine newline n s).2 = s := by
  induction n generalizing s with
  | zero => rfl
  | succ n ih =>
      cases s with
      | nil => rfl
      | cons c s =>
          rw [takeLine]
          split
          · rfl
          · exact congrArg (c :: ·) (ih s)

theorem takeLine_length (newline : α) (n : Nat) (s : List α) :
    (takeLine newline n s).1.length ≤ n := by
  induction n generalizing s with
  | zero => exact Nat.le_refl 0
  | succ n ih =>
      cases s with
      | nil => exact Nat.zero_le _
      | cons c s =>
          rw [takeLine]
          split
          · simp
          · exact Nat.succ_le_succ (ih s)

theorem takeLine_ne_nil (hn : 0 < n) (hs : s ≠ []) : (takeLine newline n s).1 ≠ [] := by
  obtain ⟨n, rfl⟩ := Nat.exists_eq_succ_of_ne_zero (Nat.ne_of_gt hn)
  cases s with
  | nil => exact absurd rfl hs
  | cons c s =>
      rw [takeLine]
      split <;> simp

theorem takeLine_line (hline : newline ∉ line) (hn : line.length < n) :
    takeLine newline n (line ++ newline :: rest) = (line ++ [newline], rest) := by
  induction line generalizing n with
  | nil =>
      obtain ⟨n, rfl⟩ := Nat.exists_eq_succ_of_ne_zero (Nat.ne_of_gt hn)
      simp [takeLine]
  | cons c line ih =>
      obtain ⟨n, rfl⟩ := Nat.exists_eq_succ_of_ne_zero (Nat.ne_of_gt (Nat.zero_lt_of_lt hn))
      rw [List.mem_cons, not_or] at hline
      rw [List.cons_append, takeLine, if_neg (Ne.symm hline.1),
        ih hline.2 (Nat.lt_of_succ_lt_succ hn)]
      rfl

theorem takeLine_last (hline : newline ∉ line) (hn : line.length ≤ n) :
    takeLine newline n line = (line, []) := by
  induction line generalizing n with
  | nil =>
      cases n with
      | zero => rfl
      | succ n => rfl
  | cons c line ih =>
      obtain ⟨n, rfl⟩ := Nat.exists_eq_succ_of_ne_zero (Nat.ne_of_gt (Nat.zero_lt_of_lt hn))
      rw [List.mem_cons, not_or] at hline
      rw [takeLine, if_neg (Ne.symm hline.1), ih hline.2 (Nat.le_of_succ_le_succ hn)]

/-- No line end but at the end of a piece. -/
theorem takeLine_newline (n : Nat) (s : List α) :
    newline ∉ (takeLine newline n s).1.dropLast := by
  induction n generalizing s with
  | zero => simp [takeLine]
  | succ n ih =>
      cases s with
      | nil => simp [takeLine]
      | cons c s =>
          rw [takeLine]
          split
          · simp
          · next hc =>
            intro hmem
            dsimp only at hmem
            by_cases hnil : (takeLine newline n s).1 = []
            · rw [hnil] at hmem
              simp at hmem
            · rw [List.dropLast_cons_of_ne_nil hnil, List.mem_cons] at hmem
              rcases hmem with h | h
              · exact hc h.symm
              · exact ih s h

theorem linesFrom_fuel {fuel' : Nat} (hsize : 1 < size) (h : s.length ≤ fuel)
    (h' : s.length ≤ fuel') : linesFrom newline size fuel s = linesFrom newline size fuel' s := by
  induction fuel generalizing s fuel' with
  | zero =>
      obtain rfl := List.length_eq_zero_iff.mp (Nat.le_zero.mp h)
      cases fuel' with
      | zero => rfl
      | succ fuel' => rfl
  | succ fuel ih =>
      cases fuel' with
      | zero =>
          obtain rfl := List.length_eq_zero_iff.mp (Nat.le_zero.mp h')
          rfl
      | succ fuel' =>
          rw [linesFrom, linesFrom, fgets]
          by_cases hs : s = []
          · rw [if_pos hs]
          · rw [if_neg hs]
            have hne : (takeLine newline (size - 1) s).1 ≠ [] := takeLine_ne_nil (by omega) hs
            have hlength := congrArg List.length (takeLine_append newline (size - 1) s)
            rw [List.length_append] at hlength
            have hpos := List.length_pos_of_ne_nil hne
            exact congrArg _ (ih (by omega) (by omega))

@[simp] theorem linesOf_nil : linesOf newline size [] = [] := rfl

theorem linesOf_cons (hsize : 1 < size) (hs : s ≠ []) :
    linesOf newline size s = (takeLine newline (size - 1) s).1 ::
      linesOf newline size (takeLine newline (size - 1) s).2 := by
  have hne : (takeLine newline (size - 1) s).1 ≠ [] := takeLine_ne_nil (by omega) hs
  have hlength := congrArg List.length (takeLine_append newline (size - 1) s)
  rw [List.length_append] at hlength
  have hpos := List.length_pos_of_ne_nil hne
  obtain ⟨fuel, hfuel⟩ := Nat.exists_eq_succ_of_ne_zero
    (Nat.ne_of_gt (List.length_pos_of_ne_nil hs))
  rw [linesOf, hfuel, linesFrom, fgets, if_neg hs]
  exact congrArg _ (linesFrom_fuel hsize (by omega) (Nat.le_refl _))

/-- The lines of a text, one behind the other. -/
theorem linesOf_induction (newline : α) {size : Nat} (hsize : 1 < size)
    {motive : List α → Prop} (nil : motive [])
    (cons : ∀ s, s ≠ [] → motive (takeLine newline (size - 1) s).2 → motive s) (s : List α) :
    motive s := by
  induction hlength : s.length using Nat.strong_induction_on generalizing s with
  | _ n ih =>
      by_cases hs : s = []
      · rw [hs]
        exact nil
      · refine cons s hs (ih _ ?_ _ rfl)
        have hne : (takeLine newline (size - 1) s).1 ≠ [] := takeLine_ne_nil (by omega) hs
        have happend := congrArg List.length (takeLine_append newline (size - 1) s)
        rw [List.length_append] at happend
        have hpos := List.length_pos_of_ne_nil hne
        omega

/-- A piece of a text as `fgets` stores it. -/
structure Piece (newline : α) (size : Nat) (line : List α) : Prop where
  nonempty : line ≠ []
  fits : line.length < size
  newline_notMem : newline ∉ line.dropLast

theorem piece_of_mem_linesOf (hsize : 1 < size) (h : line ∈ linesOf newline size s) :
    Piece newline size line := by
  induction s using linesOf_induction newline hsize with
  | nil => cases h
  | cons s hs ih =>
      rw [linesOf_cons hsize hs, List.mem_cons] at h
      rcases h with rfl | h
      · have hlength := takeLine_length newline (size - 1) s
        exact ⟨takeLine_ne_nil (by omega) hs, by omega, takeLine_newline _ _⟩
      · exact ih h

theorem takeLine_ended (ha : Ended newline a) (hne : a ≠ []) :
    takeLine newline n (a ++ b) =
        ((takeLine newline n a).1, (takeLine newline n a).2 ++ b) ∧
      Ended newline (takeLine newline n a).2 := by
  induction n generalizing a with
  | zero => exact ⟨rfl, ha⟩
  | succ n ih =>
      cases a with
      | nil => exact absurd rfl hne
      | cons c s =>
          rw [List.cons_append, takeLine, takeLine]
          by_cases hc : c = newline
          · rw [if_pos hc, if_pos hc]
            refine ⟨rfl, ?_⟩
            intro d hd
            refine ha d ?_
            cases s with
            | nil => cases hd
            | cons e s => exact hd
          · rw [if_neg hc, if_neg hc]
            cases s with
            | nil => exact absurd (ha c rfl) hc
            | cons e s =>
                obtain ⟨happend, hended⟩ := ih (a := e :: s) (fun d hd => ha d hd) (by simp)
                rw [happend]
                exact ⟨rfl, hended⟩

theorem linesOf_append (hsize : 1 < size) (ha : Ended newline a) (b : List α) :
    linesOf newline size (a ++ b) = linesOf newline size a ++ linesOf newline size b := by
  induction a using linesOf_induction newline hsize with
  | nil => rfl
  | cons a hne ih =>
      obtain ⟨happend, hended⟩ := takeLine_ended (n := size - 1) (b := b) ha hne
      rw [linesOf_cons hsize (by simp [hne]), happend, linesOf_cons hsize hne, List.cons_append,
        ih hended]

/-- A line that fits. -/
theorem linesOf_line (hline : newline ∉ line) (hfits : line.length + 1 < size) :
    linesOf newline size (line ++ [newline]) = [line ++ [newline]] := by
  rw [linesOf_cons (by omega) (by simp), takeLine_line hline (by omega), linesOf_nil]

theorem linesOf_lines {lines : List (List α)}
    (hlines : ∀ line ∈ lines, newline ∉ line ∧ line.length + 1 < size) (hsize : 1 < size) :
    linesOf newline size (lines.flatMap (· ++ [newline])) = lines.map (· ++ [newline]) := by
  induction lines with
  | nil => rfl
  | cons line lines ih =>
      rw [List.forall_mem_cons] at hlines
      rw [List.flatMap_cons, linesOf_append hsize (ended_concat line),
        linesOf_line hlines.1.1 hlines.1.2, ih hlines.2]
      rfl

/-- Lines that fit, and a last one without its line end. -/
theorem linesOf_text {lines : List (List α)} {last : List α}
    (hlines : ∀ line ∈ lines, newline ∉ line ∧ line.length + 1 < size)
    (hlast : newline ∉ last ∧ last.length < size) (hsize : 1 < size) :
    linesOf newline size (lines.flatMap (· ++ [newline]) ++ last) =
      lines.map (· ++ [newline]) ++ if last = [] then [] else [last] := by
  have hended (lines : List (List α)) : Ended newline (lines.flatMap (· ++ [newline])) := by
    induction lines with
    | nil =>
        intro c hc
        cases hc
    | cons line lines ih => exact ended_append (ended_concat line) ih
  rw [linesOf_append hsize (hended lines), linesOf_lines hlines hsize]
  split
  · next hnil => rw [hnil, linesOf_nil]
  · next hne => rw [linesOf_cons hsize hne, takeLine_last hlast.1 (by omega), linesOf_nil]

end Read

end Lib.Lines
