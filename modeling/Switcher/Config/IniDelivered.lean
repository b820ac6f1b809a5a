import Switcher.Config.IniLines

/-!
Which entries a configuration file can deliver. Names and values come trimmed and
without comments, except where a value goes on in a line of its own; section
names, and names that are repeated, are cut to the size of their buffers.
-/

namespace Switcher.Ini

open Lib.Program Lib.Text Lib.Numeral Lib.Lines

/-- What may stand between the brackets of a header. -/
structure SectionText (s : List Char) : Prop where
  closing : ']' ∉ s
  noComment : NoComment s
  newline : '\n' ∉ s

/-- What may stand in front of an equals sign, up to white space at its end. -/
structure NameText (s : List Char) : Prop where
  first : ∀ c ∈ s.head?, isSpace c = false ∧ c ≠ ';' ∧ c ≠ '#' ∧ c ≠ '['
  equals : '=' ∉ s
  noComment : NoComment s
  newline : '\n' ∉ s

/-- A name and a value from one line. -/
structure OneLine (name value : List Char) : Prop where
  name_text : NameText name
  name_trimmed : Trimmed isSpace name
  value_trimmed : Trimmed isSpace value
  value_noComment : NoComment value
  value_newline : '\n' ∉ value
  fits : name.length + 1 + value.length < iniMaxLine

/-- A name that a line above has left, and what that line goes on with. -/
structure FurtherLine (name value : List Char) : Prop where
  name_ne_nil : name ≠ []
  name_text : NameText name
  name_fits : name.length < maxName
  name_last : name.length + 1 = maxName ∨ Trimmed isSpace name
  value_trimmed : Trimmed isSpace value
  value_speaks : Speaks value
  value_newline : '\n' ∉ value
  fits : 1 + value.length < iniMaxLine

structure Deliverable (e : IniEntry) : Prop where
  section_text : SectionText e.sectionName.chars
  section_fits : e.sectionName.chars.length < maxSection
  line : OneLine e.name.chars e.value.chars ∨ FurtherLine e.name.chars e.value.chars

section Delivered

/-- What a line is made of. -/
structure Fits (s : List Char) : Prop where
  length : s.length < iniMaxLine
  newline : '\n' ∉ s.dropLast

theorem Fits.of_append {a b s : List Char} {c : Char} (h : Fits s) (hs : s = a ++ c :: b) :
    '\n' ∉ a := by
  intro hmem
  refine h.newline ?_
  rw [hs, List.dropLast_append_of_ne_nil (by simp)]
  exact List.mem_append_left _ hmem

/-- The line end is white space, so it does not count as part of a text. -/
theorem Fits.of_trimmed {pad text tail s : List Char} (h : Fits s) (hs : s = pad ++ text ++ tail)
    (htext : Trimmed isSpace text) : '\n' ∉ text := by
  rcases text.eq_nil_or_concat with rfl | ⟨front, d, rfl⟩
  · simp
  · rw [List.concat_eq_append] at hs htext ⊢
    have hd : isSpace d = false := htext.last d (by simp)
    rw [List.mem_append, not_or]
    constructor
    · have hfront := h.of_append (a := pad ++ front) (c := d) (b := tail) (by rw [hs]; simp)
      exact fun hmem => hfront (List.mem_append_right _ hmem)
    · rw [List.mem_singleton]
      rintro rfl
      cases hd

theorem fits_of_prefix {s t : List Char} (h : Fits t) (hs : s <+: t) : Fits s := by
  obtain ⟨rest, rfl⟩ := hs
  have hlength := h.length
  rw [List.length_append] at hlength
  refine ⟨by omega, ?_⟩
  cases rest with
  | nil => simpa using h.newline
  | cons c rest => exact fun hmem => h.of_append rfl (List.mem_of_mem_dropLast hmem)

theorem fits_of_suffix {s t : List Char} (h : Fits t) (hs : s <:+ t) : Fits s := by
  obtain ⟨front, rfl⟩ := hs
  have hlength := h.length
  rw [List.length_append] at hlength
  refine ⟨by omega, ?_⟩
  cases s with
  | nil => simp
  | cons c s =>
      intro hmem
      refine h.newline ?_
      rw [List.dropLast_append_of_ne_nil (by simp)]
      exact List.mem_append_right _ hmem

/-- Every line of a file fits the buffer and has its line end, if any, last. -/
theorem fits_of_mem_textLines {file line : List Char} (h : line ∈ textLines file) : Fits line := by
  have hpiece (line : List Char) (h : line ∈ linesOf '\n' iniMaxLine file) :
      Fits (CString.ofBuffer line).chars := by
    have hline := piece_of_mem_linesOf (by decide) h
    exact fits_of_prefix ⟨hline.fits, hline.newline_notMem⟩ (List.takeWhile_prefix _)
  rw [textLines_eq] at h
  cases hlines : linesOf '\n' iniMaxLine file with
  | nil =>
      rw [hlines] at h
      cases h
  | cons first rest =>
      rw [hlines] at h hpiece
      rw [seenLines, seenLine, if_pos rfl, List.mem_cons] at h
      rcases h with rfl | h
      · have hfirst := hpiece first (by simp)
        unfold dropBom
        split
        · exact fits_of_suffix hfirst (List.drop_suffix _ _)
        · exact hfirst
      · obtain ⟨line, hline, rfl⟩ := List.mem_map.mp h
        exact hpiece line (by simp [hline])

/-- What the variables of the parser can hold. -/
structure Context.Kept (c : Context) : Prop where
  section_text : SectionText c.sectionName.chars
  section_fits : c.sectionName.chars.length < maxSection
  prev_text : NameText c.prevName.chars
  prev_fits : c.prevName.chars.length < maxName
  prev_last : c.prevName.chars.length + 1 = maxName ∨ Trimmed isSpace c.prevName.chars

theorem SectionText.take {s : List Char} (h : SectionText s) (n : Nat) :
    SectionText (s.take n) := by
  refine ⟨fun hmem => h.closing (List.mem_of_mem_take hmem), ?_,
    fun hmem => h.newline (List.mem_of_mem_take hmem)⟩
  have hall := h.noComment
  rw [← List.take_append_drop n s] at hall
  exact hall.of_append

theorem NameText.take {s : List Char} (h : NameText s) (n : Nat) : NameText (s.take n) := by
  refine ⟨?_, fun hmem => h.equals (List.mem_of_mem_take hmem), ?_,
    fun hmem => h.newline (List.mem_of_mem_take hmem)⟩
  · intro c hc
    refine h.first c ?_
    cases n with
    | zero => cases hc
    | succ n =>
        cases s with
        | nil => cases hc
        | cons d s => exact hc
  · have hall := h.noComment
    rw [← List.take_append_drop n s] at hall
    exact hall.of_append

theorem kept_start : Context.start.Kept := by
  refine ⟨⟨?_, noComment_nil, ?_⟩, ?_, ⟨?_, ?_, noComment_nil, ?_⟩, ?_, .inr trimmed_nil⟩ <;>
    simp [Context.start, CString.empty, maxSection, maxName]

/-- The name and the value of a line. -/
theorem oneLine_of_text {pad gap gap' tail : List Char} {sep : Char} {name value : CString}
    (h : PairText name.chars value.chars gap gap' tail sep)
    (hfits : Fits (pad ++ (name.chars ++ gap ++ sep :: (gap' ++ value.chars ++ tail)))) :
    OneLine name.chars value.chars := by
  have hlength := hfits.length
  simp only [List.length_append, List.length_cons] at hlength
  have hname : '\n' ∉ pad ++ (name.chars ++ gap) :=
    hfits.of_append (c := sep) (b := gap' ++ value.chars ++ tail) (by simp)
  have hequals : '=' ∉ name.chars := by
    rcases h.separates with ⟨-, hequals⟩ | ⟨rfl, -, hhidden⟩
    · exact hequals
    · intro hmem
      obtain ⟨front, back, hfront⟩ := List.append_of_mem hmem
      have hclear := h.name_noComment
      rw [hfront] at hclear
      exact hhidden front (back ++ gap ++ ':' :: (gap' ++ value.chars ++ tail))
        (by rw [hfront]; simp) hclear.of_append
  refine ⟨⟨?_, hequals, h.name_noComment, ?_⟩, h.name_trimmed, h.value_trimmed,
    h.value_noComment, ?_, ?_⟩
  · exact fun c hc => ⟨h.name_trimmed.first c hc, h.name_first c hc⟩
  · exact fun hmem => hname (by simp [hmem])
  · have hsplit : pad ++ (name.chars ++ gap ++ sep :: (gap' ++ value.chars ++ tail)) =
        pad ++ (name.chars ++ gap ++ sep :: gap') ++ value.chars ++ tail := by simp
    exact hfits.of_trimmed hsplit h.value_trimmed
  · omega

/-- What a line leaves, and what it delivers. -/
theorem Context.Kept.line {c : Context} (h : c.Kept) {line : List Char} {kind : LineKind}
    (hfits : Fits line) (hspells : Spells c.continuing line kind) :
    (c.next kind).Kept ∧ ∀ e, c.tell kind = .entry e → Deliverable e := by
  cases hspells with
  | blank hs => exact ⟨h, fun e he => by cases he⟩
  | comment hpad hmark => exact ⟨h, fun e he => by cases he⟩
  | @continuation pad tail value hcontinuing hindent hpad htail hvalue hspeaks =>
      refine ⟨h, fun e he => ?_⟩
      obtain rfl := IniLine.entry.inj he
      refine ⟨h.section_text, h.section_fits, .inr ⟨?_, h.prev_text, h.prev_fits, h.prev_last,
        hvalue, hspeaks, hfits.of_trimmed rfl hvalue, ?_⟩⟩
      · simpa [Context.continuing] using hcontinuing
      · have hlength := hfits.length
        have hpos := List.length_pos_of_ne_nil hindent
        simp only [List.length_append] at hlength
        show 1 + value.chars.length < iniMaxLine
        omega
  | @header pad rest name hpad hflush hname hcomment =>
      refine ⟨?_, fun e he => by cases he⟩
      have htext : SectionText name.chars := by
        refine ⟨hname, hcomment, ?_⟩
        have hall :=
          hfits.of_append (a := pad ++ '[' :: name.chars) (c := ']') (b := rest) (by simp)
        exact fun hmem => hall (by simp [hmem])
      refine ⟨htext.take _, ?_, kept_start.prev_text, kept_start.prev_fits,
        kept_start.prev_last⟩
      show (name.chars.take (maxSection - 1)).length < maxSection
      rw [List.length_take]
      exact Nat.lt_of_le_of_lt (Nat.min_le_left _ _) (by decide)
  | unclosed hpad hflush hhidden => exact ⟨h, fun e he => by cases he⟩
  | @pair pad gap gap' tail sep name value hpad hflush htext =>
      have hline := oneLine_of_text htext hfits
      constructor
      · refine ⟨h.section_text, h.section_fits, hline.name_text.take _, ?_, ?_⟩
        · show (name.chars.take (maxName - 1)).length < maxName
          rw [List.length_take]
          exact Nat.lt_of_le_of_lt (Nat.min_le_left _ _) (by decide)
        · show (name.chars.take (maxName - 1)).length + 1 = maxName ∨
            Trimmed isSpace (name.chars.take (maxName - 1))
          by_cases hshort : name.chars.length ≤ maxName - 1
          · rw [List.take_of_length_le hshort]
            exact .inr hline.name_trimmed
          · rw [List.length_take, Nat.min_eq_left (by omega)]
            exact .inl (by decide)
      · intro e he
        obtain rfl := IniLine.entry.inj he
        exact ⟨h.section_text, h.section_fits, .inl hline⟩
  | bare hpad hflush hspeaks hheader hequals hcolon => exact ⟨h, fun e he => by cases he⟩

theorem deliverable_of_denotes {c : Context} (h : c.Kept) {lines : List (List Char)}
    {kinds : List LineKind} {told : List IniLine} (hfits : ∀ line ∈ lines, Fits line)
    (hdenotes : Denotes c lines kinds told) : ∀ e ∈ entriesOf told, Deliverable e := by
  induction hdenotes with
  | nil =>
      intro e he
      cases he
  | @cons c line lines kind kinds told hspells hrest ih =>
      rw [List.forall_mem_cons] at hfits
      obtain ⟨hnext, hline⟩ := h.line hfits.1 hspells
      intro e he
      rw [entriesOf, List.mem_filterMap] at he
      obtain ⟨t, ht, he⟩ := he
      rcases List.mem_cons.mp ht with rfl | ht
      · cases htell : c.tell kind with
        | entry e' =>
            rw [htell] at he
            obtain rfl := Option.some.inj he
            exact hline e' htell
        | malformed => rw [htell] at he; cases he
        | other => rw [htell] at he; cases he
      · exact ih hnext hfits.2 e (List.mem_filterMap.mpr ⟨t, ht, he⟩)

end Delivered

section Constructed

variable {name value : List Char}

/-- The text between brackets, as a line. -/
def headerLine (name : List Char) : List Char := '[' :: (name ++ [']'])

theorem spells_header (continuing : Bool) {name : CString} (h : SectionText name.chars) :
    Spells continuing (headerLine name.chars ++ ['\n']) (.header name) := by
  have hline : Spells continuing ([] ++ '[' :: (name.chars ++ ']' :: ['\n'])) (.header name) :=
    .header (fun c hc => by cases hc) (fun _ => rfl) h.closing h.noComment
  simpa [headerLine] using hline

theorem newline_notMem_header (h : SectionText name) : '\n' ∉ headerLine name := by
  simpa [headerLine] using h.newline

theorem OneLine.pairText (h : OneLine name value) {tail : List Char} (htail : Blank tail) :
    PairText name value [] [] tail '=' where
  name_trimmed := h.name_trimmed
  name_noComment := h.name_text.noComment
  name_first c hc := (h.name_text.first c hc).2
  gap_blank c hc := by cases hc
  gap_empty _ := rfl
  separates := .inl ⟨rfl, h.name_text.equals⟩
  gap'_blank c hc := by cases hc
  value_trimmed := h.value_trimmed
  value_noComment := h.value_noComment
  trails := .inl htail

/-- A line that can be written into a file. -/
structure Writable (line : List Char) : Prop where
  newline : '\n' ∉ line
  nul_notMem : nul ∉ line
  fits : line.length + 1 < iniMaxLine

/-- A text of such lines is read as it stands. -/
theorem textLines_text {lines : List (List Char)} {last : List Char}
    (hlines : ∀ line ∈ lines, Writable line)
    (hlast : '\n' ∉ last ∧ nul ∉ last ∧ last.length < iniMaxLine)
    (hbom : ¬ bom <+: lines.flatMap (· ++ ['\n']) ++ last) :
    textLines (lines.flatMap (· ++ ['\n']) ++ last) =
      lines.map (· ++ ['\n']) ++ if last = [] then [] else [last] := by
  have hread := linesOf_text (fun line hline => ⟨(hlines line hline).newline,
    (hlines line hline).fits⟩) ⟨hlast.1, hlast.2.2⟩ (by decide : 1 < iniMaxLine)
  have hbuffer : (lines.map (· ++ ['\n']) ++ if last = [] then [] else [last]).map
      (fun line => (CString.ofBuffer line).chars) =
        lines.map (· ++ ['\n']) ++ if last = [] then [] else [last] := by
    rw [List.map_congr_left, List.map_id]
    intro line hline
    have hnul : nul ∉ line := by
      rcases List.mem_append.mp hline with hline | hline
      · obtain ⟨line, hmem, rfl⟩ := List.mem_map.mp hline
        simpa using ⟨(hlines line hmem).nul_notMem, by decide⟩
      · split at hline
        · cases hline
        · rw [List.mem_singleton.mp hline]
          exact hlast.2.1
    rw [ofBuffer_of_nul_notMem hnul]
    rfl
  have hkeep {first back : List Char}
      (h : first ++ back = lines.flatMap (· ++ ['\n']) ++ last) : dropBom first = first := by
    rw [← h] at hbom
    exact if_neg fun hstart => hbom (hstart.trans (List.prefix_append first back))
  rw [textLines, hread, hbuffer]
  cases lines with
  | nil =>
      split
      · rfl
      · exact congrArg (· :: []) (hkeep (List.append_nil last))
  | cons line lines => exact congrArg (· :: _) (hkeep (List.append_assoc ..).symm)

theorem bom_head {s : List Char} {c : Char} (h : s.head? = some c) (hc : c ≠ Char.ofNat 0xEF) :
    ¬ bom <+: s := by
  rintro ⟨rest, rfl⟩
  exact hc (Option.some.inj h).symm

theorem writable_header {name : CString} (h : SectionText name.chars)
    (hfits : name.chars.length < maxSection) : Writable (headerLine name.chars) := by
  refine ⟨newline_notMem_header h, ?_, ?_⟩
  · have hnul : nul ≠ '[' ∧ nul ≠ ']' := by decide
    simpa [headerLine, hnul] using name.nul_notMem
  · have hsize : maxSection + 2 < iniMaxLine := by decide
    simp only [headerLine, List.length_cons, List.length_append, List.length_nil]
    omega

/-- A line that delivers an entry, in a section of its own. -/
theorem handed_of_line {lines : List (List Char)} {last : List Char} {kinds : List LineKind}
    {told : List IniLine} {sectionName : CString} (hsection : SectionText sectionName.chars)
    (hfits : sectionName.chars.length < maxSection) (hlines : ∀ line ∈ lines, Writable line)
    (hlast : '\n' ∉ last ∧ nul ∉ last ∧ last.length < iniMaxLine)
    (hdenotes : Denotes ⟨sectionName, .empty⟩
      (lines.map (· ++ ['\n']) ++ if last = [] then [] else [last]) kinds told) :
    ∃ file, handed file = entriesOf told := by
  refine ⟨(headerLine sectionName.chars :: lines).flatMap (· ++ ['\n']) ++ last, ?_⟩
  have htake : sectionName.take (maxSection - 1) = sectionName :=
    CString.ext (List.take_of_length_le (by omega))
  have hall : ∀ line ∈ headerLine sectionName.chars :: lines, Writable line := by
    rw [List.forall_mem_cons]
    exact ⟨writable_header hsection hfits, hlines⟩
  have hbracket : '[' ≠ Char.ofNat 0xEF := by decide
  have hfile : Denotes .start (textLines
      ((headerLine sectionName.chars :: lines).flatMap (· ++ ['\n']) ++ last))
      (.header sectionName :: kinds) (.other :: told) := by
    rw [textLines_text hall hlast (bom_head rfl hbracket)]
    refine .cons (spells_header _ hsection) ?_
    show Denotes ⟨sectionName.take (maxSection - 1), .empty⟩ _ kinds told
    rw [htake]
    exact hdenotes
  exact (handed_eq hfile).trans rfl

theorem noComment_concat {s : List Char} {c : Char} (h : NoComment s) (hc : c ≠ ';') :
    NoComment (s ++ [c]) := by
  intro front d back hs
  rcases back.eq_nil_or_concat with rfl | ⟨back, e, rfl⟩
  · have hlast := congrArg List.getLast? hs
    simp at hlast
    exact absurd hlast hc
  · have hfront : s ++ [c] = (front ++ d :: ';' :: back) ++ [e] := by simpa using hs
    exact h front d back (List.append_inj_left' hfront rfl)

theorem OneLine.of_name (h : NameText name) (htrimmed : Trimmed isSpace name)
    (hfits : name.length ≤ maxName) : OneLine name [] where
  name_text := h
  name_trimmed := htrimmed
  value_trimmed := trimmed_nil
  value_noComment := noComment_nil
  value_newline := by simp
  fits := Nat.lt_of_le_of_lt (Nat.succ_le_succ hfits) (by decide)

/-- A name that a kept name may have been cut from. -/
theorem exists_name {name : CString} {value : List Char} (h : FurtherLine name.chars value) :
    ∃ whole : CString, whole.take (maxName - 1) = name ∧ OneLine whole.chars CString.empty.chars ∧
      whole.chars.length ≤ maxName := by
  have hfits := h.name_fits
  rcases h.name_last with hfull | htrimmed
  · have hnul : nul ∉ name.chars ++ ['x'] := by
      have hx : nul ≠ 'x' := by decide
      simpa [hx] using name.nul_notMem
    have hhead : (name.chars ++ ['x']).head? = name.chars.head? :=
      List.head?_append_of_ne_nil _ h.name_ne_nil
    have hlength : (name.chars ++ ['x']).length = maxName := by
      rw [List.length_append, List.length_singleton, hfull]
    refine ⟨⟨name.chars ++ ['x'], hnul⟩, CString.ext ?_,
      OneLine.of_name ⟨?_, ?_, ?_, ?_⟩ ⟨?_, ?_⟩ (Nat.le_of_eq hlength), Nat.le_of_eq hlength⟩
    · exact List.take_left' (by omega)
    · rw [hhead]
      exact h.name_text.first
    · simpa using h.name_text.equals
    · exact noComment_concat h.name_text.noComment (by decide)
    · simpa using h.name_text.newline
    · rw [hhead]
      exact fun c hc => (h.name_text.first c hc).1
    · intro c hc
      obtain rfl : 'x' = c := by simpa using hc
      decide
  · exact ⟨name, CString.ext (List.take_of_length_le (by omega)),
      OneLine.of_name h.name_text htrimmed (Nat.le_of_lt hfits), Nat.le_of_lt hfits⟩

/-- The line of a name and a value. -/
def pairLine (name value : List Char) : List Char := name ++ '=' :: value

theorem spells_pair (continuing : Bool) {name value : CString}
    (h : OneLine name.chars value.chars) {tail : List Char} (htail : Blank tail) :
    Spells continuing (pairLine name.chars value.chars ++ tail) (.pair name value) := by
  have hline : Spells continuing
      ([] ++ (name.chars ++ [] ++ '=' :: ([] ++ value.chars ++ tail))) (.pair name value) :=
    .pair (fun c hc => by cases hc) (fun _ => rfl) (h.pairText htail)
  simpa [pairLine] using hline

theorem OneLine.writable {name value : CString} (h : OneLine name.chars value.chars) :
    '\n' ∉ pairLine name.chars value.chars ∧ nul ∉ pairLine name.chars value.chars ∧
      (pairLine name.chars value.chars).length < iniMaxLine := by
  have hfits := h.fits
  have hequals : '\n' ≠ '=' ∧ nul ≠ '=' := by decide
  refine ⟨?_, ?_, ?_⟩
  · simpa [pairLine, hequals] using ⟨h.name_text.newline, h.value_newline⟩
  · simpa [pairLine, hequals] using ⟨name.nul_notMem, value.nul_notMem⟩
  · simp only [pairLine, List.length_append, List.length_cons]
    omega

theorem blank_newline : Blank ['\n'] := List.forall_mem_singleton.mpr rfl

/-- A file can deliver exactly the entries that are deliverable. -/
theorem handed_iff (e : IniEntry) : (∃ file, e ∈ handed file) ↔ Deliverable e := by
  constructor
  · rintro ⟨file, he⟩
    obtain ⟨kinds, told, hdenotes⟩ := exists_denotes file
    rw [handed_eq hdenotes] at he
    exact deliverable_of_denotes kept_start (fun line => fits_of_mem_textLines) hdenotes e he
  · intro h
    obtain ⟨sectionName, name, value⟩ := e
    rcases h.line with hline | hline
    · have hdenotes : Denotes ⟨sectionName, .empty⟩ [pairLine name.chars value.chars]
          [.pair name value] [.entry ⟨sectionName, name, value⟩] := by
        refine .cons ?_ .nil
        have hnil : Blank [] := fun c hc => by cases hc
        have hspells := spells_pair false hline hnil
        rwa [List.append_nil] at hspells
      obtain ⟨file, hfile⟩ := handed_of_line h.section_text h.section_fits
        (List.forall_mem_nil Writable) hline.writable
        (by rw [if_neg (by simp [pairLine])]; exact hdenotes)
      exact ⟨file, by rw [hfile]; simp [entriesOf]⟩
    · obtain ⟨whole, hwhole, hname, hlength⟩ := exists_name hline
      have hindented : Spells true (' ' :: value.chars) (.continuation value) := by
        have hspace : Blank [' '] := List.forall_mem_singleton.mpr rfl
        have hspells : Spells true ([' '] ++ value.chars ++ []) (.continuation value) :=
          .continuation rfl (by simp) hspace (fun c hc => by cases hc) hline.value_trimmed
            hline.value_speaks
        simpa using hspells
      have hcontinuing : Context.continuing ⟨sectionName, name⟩ = true := by
        simpa [Context.continuing] using hline.name_ne_nil
      have hdenotes : Denotes ⟨sectionName, .empty⟩
          [pairLine whole.chars CString.empty.chars ++ ['\n'], ' ' :: value.chars]
          [.pair whole .empty, .continuation value]
          [.entry ⟨sectionName, whole, .empty⟩, .entry ⟨sectionName, name, value⟩] := by
        refine .cons (spells_pair _ hname blank_newline) ?_
        show Denotes ⟨sectionName, whole.take (maxName - 1)⟩ _ _ _
        rw [hwhole]
        exact .cons (by rw [hcontinuing]; exact hindented) .nil
      have hwritable := hname.writable
      have hshort : (pairLine whole.chars CString.empty.chars).length + 1 < iniMaxLine := by
        simp only [pairLine, CString.empty, List.length_append, List.length_cons, List.length_nil]
        have hsize : maxName + 2 < iniMaxLine := by decide
        omega
      have hlast : '\n' ∉ ' ' :: value.chars ∧ nul ∉ ' ' :: value.chars ∧
          (' ' :: value.chars).length < iniMaxLine := by
        have hspace : '\n' ≠ ' ' ∧ nul ≠ ' ' := by decide
        have hfits : 1 + value.chars.length < iniMaxLine := hline.fits
        refine ⟨by simpa [hspace] using hline.value_newline,
          by simpa [hspace] using value.nul_notMem, ?_⟩
        rw [List.length_cons]
        omega
      have hwhole : Writable (pairLine whole.chars CString.empty.chars) :=
        ⟨hwritable.1, hwritable.2.1, hshort⟩
      obtain ⟨file, hfile⟩ := handed_of_line h.section_text h.section_fits
        (List.forall_mem_singleton.mpr hwhole) hlast
        (by rw [if_neg (by simp)]; exact hdenotes)
      exact ⟨file, by rw [hfile]; simp [entriesOf]⟩

end Constructed

end Switcher.Ini
