import Switcher.Config.IniText

/-!
What a line of a configuration file says, as a grammar that knows nothing of how
`ini.c` searches it: white space around everything, comments from a mark at the
start or from a `;` behind white space, and lines that go on with the value of the
name before them.
-/

namespace Switcher.Ini

open Lib.Text Lib.Numeral Lib.Lines

inductive LineKind where
  | silent
  | continuation (value : CString)
  | header (name : CString)
  | pair (name value : CString)
  | malformed
  deriving DecidableEq

def Blank (s : List Char) : Prop := ∀ c ∈ s, isSpace c = true

/-- No `;` stands behind white space. -/
def NoComment (s : List Char) : Prop :=
  ∀ a d b, s = a ++ d :: ';' :: b → isSpace d = false

/-- The character only stands in a comment. -/
def Hidden (c : Char) (s : List Char) : Prop :=
  ∀ a b, s = a ++ c :: b → ¬ NoComment a

/-- Neither empty nor a comment, and without white space in front. -/
def Speaks (s : List Char) : Prop :=
  ∃ c rest, s = c :: rest ∧ isSpace c = false ∧ c ≠ ';' ∧ c ≠ '#'

/-- What may stand behind a value: nothing that counts. -/
def Trails (value tail : List Char) : Prop :=
  Blank tail ∨ value ≠ [] ∧ ∃ gap rest, gap ≠ [] ∧ Blank gap ∧ tail = gap ++ ';' :: rest

/-- A name and a value with a separator between them. An equals sign takes
precedence over a colon. -/
structure PairText (name value gap gap' tail : List Char) (sep : Char) : Prop where
  name_trimmed : Trimmed isSpace name
  name_noComment : NoComment name
  name_first : ∀ c ∈ name.head?, c ≠ ';' ∧ c ≠ '#' ∧ c ≠ '['
  gap_blank : Blank gap
  gap_empty : name = [] → gap = []
  separates : sep = '=' ∧ '=' ∉ name ∨
    sep = ':' ∧ ':' ∉ name ∧ Hidden '=' (name ++ gap ++ ':' :: (gap' ++ value ++ tail))
  gap'_blank : Blank gap'
  value_trimmed : Trimmed isSpace value
  value_noComment : NoComment value
  trails : Trails value tail

/-- What a line says, where `continuing` tells if there is a value to go on with. -/
inductive Spells (continuing : Bool) : List Char → LineKind → Prop
  | blank {s : List Char} (hs : Blank s) : Spells continuing s .silent
  | comment {pad rest : List Char} {mark : Char} (hpad : Blank pad)
      (hmark : mark = ';' ∨ mark = '#') : Spells continuing (pad ++ mark :: rest) .silent
  | continuation {pad tail : List Char} {value : CString} (hcontinuing : continuing = true)
      (hindent : pad ≠ []) (hpad : Blank pad) (htail : Blank tail)
      (hvalue : Trimmed isSpace value.chars) (hspeaks : Speaks value.chars) :
      Spells continuing (pad ++ value.chars ++ tail) (.continuation value)
  | header {pad rest : List Char} {name : CString} (hpad : Blank pad)
      (hflush : continuing = true → pad = []) (hname : ']' ∉ name.chars)
      (hcomment : NoComment name.chars) :
      Spells continuing (pad ++ '[' :: (name.chars ++ ']' :: rest)) (.header name)
  | unclosed {pad rest : List Char} (hpad : Blank pad) (hflush : continuing = true → pad = [])
      (hhidden : Hidden ']' rest) : Spells continuing (pad ++ '[' :: rest) .malformed
  | pair {pad gap gap' tail : List Char} {sep : Char} {name value : CString} (hpad : Blank pad)
      (hflush : continuing = true → pad = [])
      (htext : PairText name.chars value.chars gap gap' tail sep) :
      Spells continuing (pad ++ (name.chars ++ gap ++ sep :: (gap' ++ value.chars ++ tail)))
        (.pair name value)
  | bare {pad s : List Char} (hpad : Blank pad) (hflush : continuing = true → pad = [])
      (hspeaks : Speaks s) (hheader : s.head? ≠ some '[') (hequals : Hidden '=' s)
      (hcolon : Hidden ':' s) : Spells continuing (pad ++ s) .malformed

/-- What the meaning of a line depends on: the section it is in and the name above
it, as far as they are kept. -/
structure Context where
  sectionName : CString
  prevName : CString

def Context.start : Context := ⟨.empty, .empty⟩

def Context.continuing (c : Context) : Bool := c.prevName.chars ≠ []

def Context.next (c : Context) : LineKind → Context
  | .header name => ⟨name.take (maxSection - 1), .empty⟩
  | .pair name _ => { c with prevName := name.take (maxName - 1) }
  | _ => c

/-- What the parser tells of a line. -/
def Context.tell (c : Context) : LineKind → IniLine
  | .continuation value => .entry ⟨c.sectionName, c.prevName, value⟩
  | .pair name value => .entry ⟨c.sectionName, name, value⟩
  | .malformed => .malformed
  | _ => .other

/-- The lines of a text, what each of them says, and what is told of them. -/
inductive Denotes : Context → List (List Char) → List LineKind → List IniLine → Prop
  | nil {c : Context} : Denotes c [] [] []
  | cons {c : Context} {line : List Char} {lines : List (List Char)} {kind : LineKind}
      {kinds : List LineKind} {told : List IniLine} (spells : Spells c.continuing line kind)
      (rest : Denotes (c.next kind) lines kinds told) :
      Denotes c (line :: lines) (kind :: kinds) (c.tell kind :: told)

def dropBom (s : List Char) : List Char := if bom <+: s then s.drop bom.length else s

/-- The lines of a file, without a byte order mark. -/
def textLines (file : List Char) : List (List Char) :=
  ((linesOf '\n' iniMaxLine file).map fun line => (CString.ofBuffer line).chars).modifyHead dropBom

section Search

variable {a b s : List Char} {c d : Char} {w : Bool}

theorem noComment_nil : NoComment [] := by
  intro a d b h
  simp at h

theorem noComment_cons : NoComment (c :: s) ↔
    (isSpace c = true → s.head? ≠ some ';') ∧ NoComment s := by
  constructor
  · intro h
    refine ⟨?_, fun a d b hs => h (c :: a) d b (by rw [hs]; rfl)⟩
    intro hspace hhead
    obtain ⟨rest, rfl⟩ := List.head?_eq_some_iff.mp hhead
    have := h [] c rest rfl
    rw [hspace] at this
    cases this
  · rintro ⟨hc, hs⟩ a d b h
    cases a with
    | nil =>
        obtain ⟨rfl, rfl⟩ := List.cons.inj h
        by_contra hspace
        exact hc (by simpa using hspace) rfl
    | cons e a => exact hs a d b (List.cons.inj h).2

theorem NoComment.of_append (h : NoComment (a ++ b)) : NoComment a :=
  fun front d back hs => h front d (back ++ b) (by rw [hs]; simp)

theorem noComment_append_blank (ha : NoComment a) (hb : Blank b) : NoComment (a ++ b) := by
  induction a with
  | nil =>
      intro front d back h
      rw [List.nil_append] at h
      have hmark := hb ';' (by rw [h]; simp)
      exact absurd hmark (by decide)
  | cons e a ih =>
      rw [noComment_cons] at ha
      rw [List.cons_append, noComment_cons]
      refine ⟨?_, ih ha.2⟩
      intro hspace hhead
      rw [List.head?_append] at hhead
      cases a with
      | nil =>
          cases b with
          | nil => cases hhead
          | cons f b =>
              obtain rfl : f = ';' := by simpa using hhead
              exact absurd (hb ';' (by simp)) (by decide)
      | cons f a => exact ha.1 hspace hhead

theorem Hidden.of_append (h : Hidden c (a ++ b)) : Hidden c a :=
  fun front back hs => h front (back ++ b) (by rw [hs]; simp)

theorem blank_append (ha : Blank a) (hb : Blank b) : Blank (a ++ b) := by
  intro c hc
  rcases List.mem_append.mp hc with hc | hc
  · exact ha c hc
  · exact hb c hc

theorem notMem_blank (hc : isSpace c = false) (hs : Blank s) : c ∉ s := by
  intro hmem
  rw [hs c hmem] at hc
  cases hc

theorem Hidden.append_blank (h : Hidden c s) (hc : isSpace c = false) (hb : Blank b) :
    Hidden c (s ++ b) := by
  intro front back heq
  have hnot : c ∉ b := notMem_blank hc hb
  rcases List.append_eq_append_iff.mp heq with ⟨more, rfl, hmore⟩ | ⟨more, rfl, hmore⟩
  · exact absurd (by rw [hmore]; simp) hnot
  · cases more with
    | nil => exact absurd (by rw [← show c :: back = b from hmore]; simp) hnot
    | cons d more =>
        obtain ⟨rfl, -⟩ := List.cons.inj hmore
        exact h front more rfl

theorem Trails.append_blank {value tail : List Char} (h : Trails value tail) (hb : Blank b) :
    Trails value (tail ++ b) := by
  rcases h with htail | ⟨hne, gap, rest, hgapne, hgap, rfl⟩
  · exact .inl (blank_append htail hb)
  · exact .inr ⟨hne, gap, rest ++ b, hgapne, hgap, by simp⟩

/-- `was_whitespace` behind a text. -/
theorem wasWhitespace_cons (w : Bool) (c : Char) (s : List Char) :
    ((c :: s).getLast?.map isSpace).getD w = (s.getLast?.map isSpace).getD (isSpace c) := by
  cases s with
  | nil => rfl
  | cons d s => rfl

/-- Nothing stops the search in front of a text. -/
theorem find_through (hc : c ∉ a) (hcomment : NoComment a) (hw : w = true → a.head? ≠ some ';') :
    findCharOrComment c w (a ++ b) =
      (a ++ (findCharOrComment c ((a.getLast?.map isSpace).getD w) b).1,
        (findCharOrComment c ((a.getLast?.map isSpace).getD w) b).2) := by
  induction a generalizing w with
  | nil => rfl
  | cons e a ih =>
      rw [List.mem_cons, not_or] at hc
      rw [noComment_cons] at hcomment
      have hstop : ¬ (e = c ∨ (w = true ∧ e = ';')) := by
        rintro (rfl | ⟨rfl, rfl⟩)
        · exact hc.1 rfl
        · exact hw rfl rfl
      rw [List.cons_append, findCharOrComment, if_neg hstop, ih hc.2 hcomment.2 hcomment.1,
        wasWhitespace_cons]
      rfl

theorem find_char (hc : c ∉ a) (hcomment : NoComment a) :
    findCharOrComment c false (a ++ c :: b) = (a, c :: b) := by
  rw [find_through hc hcomment (by simp), findCharOrComment, if_pos (Or.inl rfl), List.append_nil]

theorem find_none (hc : c ∉ a) (hcomment : NoComment a) :
    findCharOrComment c false a = (a, []) := by
  have h := find_through (b := []) hc hcomment (w := false) (by simp)
  simp only [findCharOrComment, List.append_nil] at h
  exact h

/-- A comment ends the search. -/
theorem find_comment (hc : c ∉ a) (hcomment : NoComment a) (hne : a ≠ [])
    (hspace : ∀ d ∈ a.getLast?, isSpace d = true) :
    findCharOrComment c false (a ++ ';' :: b) = (a, ';' :: b) := by
  have hlast : (a.getLast?.map isSpace).getD false = true := by
    rw [List.getLast?_eq_some_getLast hne, Option.map_some, Option.getD_some]
    exact hspace _ (List.getLast?_eq_some_getLast hne)
  rw [find_through hc hcomment (by simp), hlast, findCharOrComment,
    if_pos (Or.inr ⟨rfl, rfl⟩), List.append_nil]

/-- Where the search stops. -/
structure Stops (c : Char) (w : Bool) (front back : List Char) : Prop where
  notMem : c ∉ front
  noComment : NoComment front
  first : w = true → front.head? ≠ some ';'
  stop : ∀ d ∈ back.head?, d = c ∨ d = ';' ∧ (front.getLast?.map isSpace).getD w = true

theorem find_split (c : Char) (w : Bool) (s : List Char) :
    (findCharOrComment c w s).1 ++ (findCharOrComment c w s).2 = s := by
  induction s generalizing w with
  | nil => rfl
  | cons a s ih =>
      rw [findCharOrComment]
      split
      · rfl
      · exact congrArg (a :: ·) (ih (isSpace a))

theorem find_stops (c : Char) (w : Bool) (s : List Char) :
    Stops c w (findCharOrComment c w s).1 (findCharOrComment c w s).2 := by
  induction s generalizing w with
  | nil => exact ⟨by simp [findCharOrComment], noComment_nil, by simp [findCharOrComment],
      by simp [findCharOrComment]⟩
  | cons a s ih =>
      rw [findCharOrComment]
      split
      · next hstop =>
        refine ⟨by simp, noComment_nil, by simp, ?_⟩
        intro d hd
        obtain rfl : a = d := by simpa using hd
        rcases hstop with rfl | ⟨rfl, rfl⟩
        · exact .inl rfl
        · exact .inr ⟨rfl, rfl⟩
      · next hstop =>
        rw [not_or] at hstop
        obtain ⟨hnot, hcomment, hfirst, hback⟩ := ih (isSpace a)
        refine ⟨?_, noComment_cons.mpr ⟨hfirst, hcomment⟩, ?_, ?_⟩
        · rw [List.mem_cons, not_or]
          exact ⟨Ne.symm hstop.1, hnot⟩
        · intro hw hhead
          exact hstop.2 ⟨hw, by simpa using hhead⟩
        · intro d hd
          rcases hback d hd with rfl | ⟨rfl, hspace⟩
          · exact .inl rfl
          · exact .inr ⟨rfl, (wasWhitespace_cons w a _).trans hspace⟩

/-- The search misses a character exactly where a comment hides it. -/
theorem find_misses_iff : (findCharOrComment c false s).2.head? ≠ some c ↔ Hidden c s := by
  constructor
  · intro hmiss a b hs hcomment
    have hmem : c ∈ s := by rw [hs]; simp
    have hfirst : ∃ front back, s = front ++ c :: back ∧ c ∉ front ∧ NoComment front := by
      by_cases hc : c ∈ a
      · obtain ⟨front, back, rfl, hfront⟩ := List.eq_append_cons_of_mem hc
        exact ⟨front, back ++ c :: b, by rw [hs]; simp, hfront, hcomment.of_append⟩
      · exact ⟨a, b, hs, hc, hcomment⟩
    obtain ⟨front, back, rfl, hfront, hclear⟩ := hfirst
    rw [find_char hfront hclear] at hmiss
    exact hmiss rfl
  · intro hhidden hhead
    obtain ⟨rest, hrest⟩ := List.head?_eq_some_iff.mp hhead
    have hsplit := find_split c false s
    rw [hrest] at hsplit
    exact hhidden _ _ hsplit.symm (find_stops c false s).noComment

end Search

end Switcher.Ini
