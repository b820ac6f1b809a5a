import Switcher.Config.IniGrammar

/-!
The searches of `ini.c` find what the grammar says: each line has one reading,
and `readLine` computes it.
-/

namespace Switcher.Ini

open Lib.Program Lib.Interleaving Lib.Text Lib.Numeral Lib.Lines

section ReadLine

/-- The name and the value on either side of a separator. -/
def pairAt (found : List Char × List Char) : LineKind :=
  .pair (.ofBuffer (rstrip isSpace found.1)) (.ofBuffer
    (rstrip isSpace (findCharOrComment nul false (lskip isSpace found.2.tail)).1))

/-- What `parsePair` takes the rest of a line for. -/
def readPair (start : List Char) : LineKind :=
  if (findCharOrComment '=' false start).2.head? = some '=' then
    pairAt (findCharOrComment '=' false start)
  else if (findCharOrComment ':' false start).2.head? = some ':' then
    pairAt (findCharOrComment ':' false start)
  else .malformed

/-- What follows a bracket. -/
def readHeader (s : List Char) : LineKind :=
  let found := findCharOrComment ']' false s
  if found.2.head? = some ']' then .header (.ofBuffer found.1) else .malformed

/-- What `parseLine` takes a line for. -/
def readLine (continuing : Bool) (s : List Char) : LineKind :=
  let start := lskip isSpace (rstrip isSpace s)
  if start.head? = some ';' ∨ start.head? = some '#' then .silent
  else if continuing = true ∧ start ≠ [] ∧ s.head?.any isSpace = true then
    .continuation (.ofBuffer start)
  else if start.head? = some '[' then readHeader start.tail
  else if start = [] then .silent
  else readPair start

variable {continuing : Bool} {s pad rest : List Char} {c : Char} {k : LineKind}

theorem strip_keep (hpad : Blank pad) (hc : isSpace c = false) :
    lskip isSpace (rstrip isSpace (pad ++ c :: rest)) = c :: rstrip isSpace rest := by
  rw [rstrip_keep hc, lskip_append hpad, lskip_self]
  simpa using hc

theorem strip_blank (hs : Blank s) : lskip isSpace (rstrip isSpace s) = [] := by
  rw [rstrip_eq_nil.mpr hs]
  rfl

/-- A line that is not indented does not go on with a value. -/
theorem flush_not_indented (hflush : continuing = true → pad = []) (hc : isSpace c = false) :
    ¬ (continuing = true ∧ c :: s ≠ [] ∧ (pad ++ c :: rest).head?.any isSpace = true) := by
  rintro ⟨hcontinuing, -, hindented⟩
  rw [hflush hcontinuing] at hindented
  simp [hc] at hindented

/-- A line that does not go on with a value and is no comment. -/
theorem readLine_flush (hpad : Blank pad) (hflush : continuing = true → pad = [])
    (hc : isSpace c = false) (hmark : c ≠ ';') (hhash : c ≠ '#') :
    readLine continuing (pad ++ c :: rest) =
      if c = '[' then readHeader (rstrip isSpace rest)
      else readPair (c :: rstrip isSpace rest) := by
  rw [readLine, strip_keep hpad hc, if_neg (by simp [hmark, hhash]),
    if_neg (flush_not_indented hflush hc)]
  simp

theorem indented_of_pad (hindent : pad ≠ []) (hpad : Blank pad) :
    (pad ++ s).head?.any isSpace = true := by
  cases pad with
  | nil => exact absurd rfl hindent
  | cons d pad => simpa using hpad d (by simp)

theorem Hidden.rstrip (h : Hidden c s) : Hidden c (Lib.Lines.rstrip isSpace s) := by
  obtain ⟨tail, -, hsplit⟩ := rstrip_split isSpace s
  rw [hsplit] at h
  exact h.of_append

end ReadLine

section Value

variable {value gap' tail : List Char}

/-- The value in what follows a separator. -/
theorem read_value (hgap : Blank gap') (hvalue : Trimmed isSpace value)
    (hcomment : NoComment value) (hnul : nul ∉ value) (htrails : Trails value tail) :
    rstrip isSpace (findCharOrComment nul false
      (lskip isSpace (rstrip isSpace (gap' ++ value ++ tail)))).1 = value := by
  rcases htrails with hblank | ⟨hne, gap, rest, hgapne, hgapblank, rfl⟩
  · rw [strip_middle hgap hblank hvalue, find_none hnul hcomment]
    exact rstrip_self hvalue.last
  · have hstrip : lskip isSpace (rstrip isSpace (gap' ++ value ++ (gap ++ ';' :: rest))) =
        value ++ gap ++ ';' :: rstrip isSpace rest := by
      rw [← List.append_assoc, rstrip_keep (by decide), List.append_assoc, List.append_assoc,
        lskip_append hgap, lskip_self]
      · simp
      · intro c hc
        rw [List.head?_append_of_ne_nil _ hne] at hc
        exact hvalue.first c hc
    have hnul' : nul ∉ value ++ gap := by
      rw [List.mem_append, not_or]
      exact ⟨hnul, notMem_blank (by decide) hgapblank⟩
    rw [hstrip, find_comment hnul' (noComment_append_blank hcomment hgapblank) (by simp [hne]),
      rstrip_append hgapblank]
    · exact rstrip_self hvalue.last
    · intro d hd
      rw [List.getLast?_append_of_ne_nil _ hgapne] at hd
      exact hgapblank d (List.mem_of_getLast? hd)

/-- The search for the end of a value leaves what may trail it. -/
theorem value_trails {text front back : List Char} (hnul : nul ∉ text)
    (hfirst : ∀ c ∈ text.head?, isSpace c = false)
    (hfind : findCharOrComment nul false text = (front, back)) :
    ∃ tail, text = rstrip isSpace front ++ tail ∧ Trails (rstrip isSpace front) tail := by
  have hsplit := find_split nul false text
  have hstops := find_stops nul false text
  rw [hfind] at hsplit hstops
  obtain ⟨gap, hgap, hfront⟩ := rstrip_split isSpace front
  refine ⟨gap ++ back, ?_, ?_⟩
  · rw [← List.append_assoc, ← hfront]
    exact hsplit.symm
  · cases back with
    | nil => exact .inl (by rwa [List.append_nil])
    | cons d back =>
        rcases hstops.stop d rfl with rfl | ⟨rfl, hspace⟩
        · exact absurd (by rw [← hsplit]; simp) hnul
        · -- a comment starts behind white space, so there is a value in front of it
          have hne : front ≠ [] := by
            rintro rfl
            cases hspace
          rw [List.getLast?_eq_some_getLast hne, Option.map_some, Option.getD_some] at hspace
          have hhead : isSpace (front.head hne) = false := by
            refine hfirst _ ?_
            rw [← hsplit, List.head?_append_of_ne_nil _ hne, List.head?_eq_some_head hne]
            rfl
          refine .inr ⟨?_, gap, back, ?_, hgap, rfl⟩
          · intro hnil
            rw [rstrip_eq_nil.mp hnil _ (List.head_mem hne)] at hhead
            cases hhead
          · rintro rfl
            rw [List.append_nil] at hfront
            have hmem : front.getLast hne ∈ (rstrip isSpace front).getLast? := by
              rw [← hfront]
              exact List.getLast?_eq_some_getLast hne
            have hlast := rstrip_last _ hmem
            rw [hspace] at hlast
            cases hlast

end Value

section Pair

variable {gap gap' tail start front more : List Char} {sep : Char}

theorem PairText.notMem_front {name value : List Char} {c : Char}
    (h : PairText name value gap gap' tail sep) (hc : isSpace c = false) (hname : c ∉ name) :
    c ∉ name ++ gap := by
  rw [List.mem_append, not_or]
  exact ⟨hname, notMem_blank hc h.gap_blank⟩

theorem PairText.find {name value : List Char} (h : PairText name value gap gap' tail sep)
    (hsep : isSpace sep = false) (hname : sep ∉ name) (back : List Char) :
    findCharOrComment sep false (name ++ gap ++ sep :: back) = (name ++ gap, sep :: back) :=
  find_char (h.notMem_front hsep hname) (noComment_append_blank h.name_noComment h.gap_blank)

theorem PairText.sep_space {name value : List Char} (h : PairText name value gap gap' tail sep) :
    isSpace sep = false := by
  rcases h.separates with ⟨rfl, -⟩ | ⟨rfl, -⟩ <;> decide

/-- A line with a name and a value starts with the one or with the separator. -/
theorem PairText.first {name value : List Char} (h : PairText name value gap gap' tail sep) :
    ∃ c rest, name ++ gap ++ sep :: (gap' ++ value ++ tail) = c :: rest ∧
      isSpace c = false ∧ c ≠ ';' ∧ c ≠ '#' ∧ c ≠ '[' := by
  cases name with
  | nil =>
      refine ⟨sep, gap' ++ value ++ tail, by rw [h.gap_empty rfl]; rfl, h.sep_space, ?_⟩
      rcases h.separates with ⟨rfl, -⟩ | ⟨rfl, -⟩ <;> decide
  | cons c name =>
      exact ⟨c, _, rfl, h.name_trimmed.first c rfl, h.name_first c rfl⟩

theorem readPair_of_text {name value : CString}
    (h : PairText name.chars value.chars gap gap' tail sep) :
    readPair (name.chars ++ gap ++ sep :: rstrip isSpace (gap' ++ value.chars ++ tail)) =
      .pair name value := by
  have hpair : pairAt (name.chars ++ gap, sep :: rstrip isSpace (gap' ++ value.chars ++ tail)) =
      .pair name value := by
    have hvalue := read_value h.gap'_blank h.value_trimmed h.value_noComment value.nul_notMem
      h.trails
    rw [pairAt, List.tail_cons, hvalue, rstrip_append h.gap_blank, rstrip_self h.name_trimmed.last,
      ofBuffer_chars, ofBuffer_chars]
  unfold readPair
  rcases h.separates with ⟨rfl, hequals⟩ | ⟨rfl, hcolon, hhidden⟩
  · rw [h.find (by decide) hequals]
    exact (if_pos rfl).trans hpair
  · have hmiss : Hidden '=' (name.chars ++ gap ++
        ':' :: rstrip isSpace (gap' ++ value.chars ++ tail)) := by
      rw [← rstrip_keep (by decide)]
      exact hhidden.rstrip
    rw [if_neg (find_misses_iff.mpr hmiss), h.find (by decide) hcolon]
    exact (if_pos rfl).trans hpair

/-- A separator that the search finds makes a name and a value. -/
theorem pairText_of_found (hspeaks : Speaks start) (hheader : start.head? ≠ some '[')
    (hnul : nul ∉ start) (hfind : findCharOrComment sep false start = (front, sep :: more))
    (hsep : sep = '=' ∨ sep = ':' ∧ Hidden '=' start) :
    ∃ gap gap' tail, let name := rstrip isSpace front
      let value := rstrip isSpace (findCharOrComment nul false (lskip isSpace more)).1
      start = name ++ gap ++ sep :: (gap' ++ value ++ tail) ∧
        PairText name value gap gap' tail sep := by
  have hsplit := find_split sep false start
  have hstops := find_stops sep false start
  rw [hfind] at hsplit hstops
  dsimp only at hsplit
  obtain ⟨gap, hgap, hfront⟩ := rstrip_split isSpace front
  obtain ⟨gap', hgap', hmore⟩ := lskip_split isSpace more
  have hnulmore : nul ∉ lskip isSpace more := by
    intro hmem
    refine hnul ?_
    rw [← hsplit, hmore]
    simp [hmem]
  obtain ⟨tail, hvalue, htrails⟩ := value_trails hnulmore lskip_first rfl
  have hfirst : ∀ c ∈ front.head?, isSpace c = false ∧ c ≠ ';' ∧ c ≠ '#' ∧ c ≠ '[' := by
    obtain ⟨d, rest, hstart, hspace, hmark, hhash⟩ := hspeaks
    intro c hc
    obtain ⟨back, hback⟩ := List.head?_eq_some_iff.mp hc
    rw [hback] at hsplit
    obtain ⟨rfl, -⟩ := List.cons.inj (hsplit.trans hstart)
    refine ⟨hspace, hmark, hhash, ?_⟩
    rintro rfl
    exact hheader (by rw [hstart]; rfl)
  have hname : ∀ c ∈ (rstrip isSpace front).head?, c ∈ front.head? := by
    intro c hc
    rw [hfront, List.head?_append, show (rstrip isSpace front).head? = some c from hc]
    rfl
  have hcomment : NoComment (rstrip isSpace front) := by
    have hclear := hstops.noComment
    rw [hfront] at hclear
    exact hclear.of_append
  have hnot : sep ∉ rstrip isSpace front := by
    have hclear := hstops.notMem
    rw [hfront, List.mem_append, not_or] at hclear
    exact hclear.1
  have hall : start = rstrip isSpace front ++ gap ++ sep :: (gap' ++ rstrip isSpace
      (findCharOrComment nul false (lskip isSpace more)).1 ++ tail) := by
    rw [← hfront, List.append_assoc gap', ← hvalue, ← hmore]
    exact hsplit.symm
  refine ⟨gap, gap', tail, hall, ?_⟩
  refine ⟨trimmed_rstrip fun c hc => (hfirst c hc).1, hcomment,
    fun c hc => (hfirst c (hname c hc)).2, hgap, ?_, ?_, hgap', ?_, ?_, htrails⟩
  · intro hnil
    rw [hnil, List.nil_append] at hfront
    cases hfront' : front with
    | nil => exact hfront.symm.trans hfront'
    | cons c rest =>
        have hblank := rstrip_eq_nil.mp hnil c (by rw [hfront']; simp)
        rw [(hfirst c (by rw [hfront']; rfl)).1] at hblank
        cases hblank
  · rcases hsep with rfl | ⟨rfl, hhidden⟩
    · exact .inl ⟨rfl, hnot⟩
    · refine .inr ⟨rfl, hnot, ?_⟩
      rwa [← hall]
  · refine trimmed_rstrip fun c hc => ?_
    refine lskip_first (s := more) c ?_
    have hback := find_split nul false (lskip isSpace more)
    rw [← hback, List.head?_append,
      show (findCharOrComment nul false (lskip isSpace more)).1.head? = some c from hc]
    rfl
  · have hclear := (find_stops nul false (lskip isSpace more)).noComment
    obtain ⟨rest, -, hrest⟩ := rstrip_split isSpace
      (findCharOrComment nul false (lskip isSpace more)).1
    rw [hrest] at hclear
    exact hclear.of_append

end Pair

section Reading

variable {continuing : Bool} {s pad tail start : List Char} {k : LineKind}

theorem speaks_of_marks {c : Char} {rest : List Char} (hs : s = c :: rest)
    (hc : isSpace c = false) (hmark : ¬ (s.head? = some ';' ∨ s.head? = some '#')) : Speaks s := by
  rw [not_or] at hmark
  refine ⟨c, rest, hs, hc, ?_, ?_⟩
  · rintro rfl
    exact hmark.1 (by rw [hs]; rfl)
  · rintro rfl
    exact hmark.2 (by rw [hs]; rfl)

/-- What `readPair` finds stands in the line. -/
theorem spells_readPair (hpad : Blank pad) (hflush : continuing = true → pad = [])
    (htail : Blank tail) (hspeaks : Speaks start) (hheader : start.head? ≠ some '[')
    (hnul : nul ∉ start) : Spells continuing (pad ++ start ++ tail) (readPair start) := by
  have hfound (sep : Char)
      (hhead : (findCharOrComment sep false start).2.head? = some sep)
      (hsep : sep = '=' ∨ sep = ':' ∧ Hidden '=' (start ++ tail)) :
      Spells continuing (pad ++ start ++ tail) (pairAt (findCharOrComment sep false start)) := by
    obtain ⟨more, hmore⟩ := List.head?_eq_some_iff.mp hhead
    have hfind : findCharOrComment sep false start =
        ((findCharOrComment sep false start).1, sep :: more) := by rw [← hmore]
    have hsep' : sep = '=' ∨ sep = ':' ∧ Hidden '=' start :=
      hsep.imp_right fun h => ⟨h.1, h.2.of_append⟩
    obtain ⟨gap, gap', rest, hstart, htext⟩ := pairText_of_found hspeaks hheader hnul hfind hsep'
    have hname : nul ∉ rstrip isSpace (findCharOrComment sep false start).1 := by
      intro hmem
      refine hnul ?_
      rw [hstart]
      simp [hmem]
    have hvalue : nul ∉ rstrip isSpace
        (findCharOrComment nul false (lskip isSpace more)).1 := by
      intro hmem
      refine hnul ?_
      rw [hstart]
      simp [hmem]
    rw [pairAt, hmore, List.tail_cons, ofBuffer_of_nul_notMem hname,
      ofBuffer_of_nul_notMem hvalue]
    have htext' : PairText (CString.mk _ hname).chars (CString.mk _ hvalue).chars gap gap'
        (rest ++ tail) sep := by
      refine { htext with separates := ?_, trails := htext.trails.append_blank htail }
      rcases htext.separates with h | ⟨rfl, hcolon, -⟩
      · exact .inl h
      · refine .inr ⟨rfl, hcolon, ?_⟩
        rcases hsep with h | ⟨-, hhidden⟩
        · cases h
        · rw [hstart] at hhidden
          simpa using hhidden
    have hline : pad ++ start ++ tail = pad ++ (rstrip isSpace
        (findCharOrComment sep false start).1 ++ gap ++ sep :: (gap' ++ rstrip isSpace
          (findCharOrComment nul false (lskip isSpace more)).1 ++ (rest ++ tail))) := by
      conv_lhs => rw [hstart]
      simp
    rw [hline]
    exact Spells.pair hpad hflush htext'
  unfold readPair
  split
  · next hequals => exact hfound '=' hequals (.inl rfl)
  · next hequals =>
    have hhidden := find_misses_iff.mp hequals
    split
    · next hcolon =>
      exact hfound ':' hcolon (.inr ⟨rfl, hhidden.append_blank (by decide) htail⟩)
    · next hcolon =>
      have hline := find_misses_iff.mp hcolon
      rw [List.append_assoc]
      refine .bare hpad hflush ?_ ?_ (hhidden.append_blank (by decide) htail)
        (hline.append_blank (by decide) htail)
      · obtain ⟨c, rest, rfl, hc⟩ := hspeaks
        exact ⟨c, rest ++ tail, rfl, hc⟩
      · obtain ⟨c, rest, rfl, hc⟩ := hspeaks
        exact hheader

/-- Every line says what `readLine` takes it for. -/
theorem spells_readLine (continuing : Bool) (hnul : nul ∉ s) :
    Spells continuing s (readLine continuing s) := by
  obtain ⟨pad, tail, hpad, htail, hs⟩ := strip_split isSpace s
  have htrimmed : Trimmed isSpace (lskip isSpace (rstrip isSpace s)) := trimmed_strip
  unfold readLine
  generalize lskip isSpace (rstrip isSpace s) = start at hs htrimmed
  subst hs
  have hnul' : nul ∉ start := fun hmem => hnul (by simp [hmem])
  dsimp only
  split
  · next hmark =>
    cases start with
    | nil => simp at hmark
    | cons mark rest =>
        rw [List.append_assoc, List.cons_append]
        exact .comment hpad (by simpa using hmark)
  · next hmark =>
    cases hstart : start with
    | nil =>
        have hblank : Blank (pad ++ [] ++ tail) := by
          rw [List.append_nil]
          exact blank_append hpad htail
        rw [if_neg (by simp), if_neg (by simp), if_pos rfl]
        exact .blank hblank
    | cons c rest =>
        have hc : isSpace c = false := htrimmed.first c (by rw [hstart]; rfl)
        have hspeaks : Speaks start := speaks_of_marks hstart hc hmark
        rw [← hstart]
        split
        · next hcontinues =>
          have hindent : pad ≠ [] := by
            rintro rfl
            have hindented := hcontinues.2.2
            rw [hstart] at hindented
            simp [hc] at hindented
          rw [ofBuffer_of_nul_notMem hnul']
          have hspeaks' : Speaks (CString.mk start hnul').chars := hspeaks
          exact Spells.continuation hcontinues.1 hindent hpad htail htrimmed hspeaks'
        · next hcontinues =>
          have hflush : continuing = true → pad = [] := by
            intro hcontinuing
            by_contra hindent
            refine hcontinues ⟨hcontinuing, by simp [hstart], ?_⟩
            rw [List.append_assoc]
            exact indented_of_pad hindent hpad
          split
          · next hheader =>
            obtain rfl : c = '[' := by
              rw [hstart] at hheader
              simpa using hheader
            have hsplit := find_split ']' false rest
            have hstops := find_stops ']' false rest
            rw [hstart, List.tail_cons, List.append_assoc, List.cons_append, readHeader]
            split
            · next hclosed =>
              obtain ⟨back, hback⟩ := List.head?_eq_some_iff.mp hclosed
              have hname : nul ∉ (findCharOrComment ']' false rest).1 := by
                intro hmem
                refine hnul' ?_
                rw [hstart, ← hsplit]
                simp [hmem]
              have hline : rest ++ tail =
                  (findCharOrComment ']' false rest).1 ++ ']' :: (back ++ tail) := by
                rw [← List.cons_append, ← hback, ← List.append_assoc, hsplit]
              rw [ofBuffer_of_nul_notMem hname, hline]
              have hclosing : ']' ∉ (CString.mk _ hname).chars := hstops.notMem
              exact Spells.header hpad hflush hclosing hstops.noComment
            · next hunclosed =>
              exact .unclosed hpad hflush
                ((find_misses_iff.mp hunclosed).append_blank (by decide) htail)
          · next hheader =>
            rw [if_neg (by simp [hstart])]
            exact spells_readPair hpad hflush htail hspeaks hheader hnul'

/-- The grammar leaves no choice. -/
theorem readLine_of_spells (h : Spells continuing s k) : readLine continuing s = k := by
  cases h with
  | blank hs =>
      rw [readLine, strip_blank hs]
      simp
  | @comment pad rest mark hpad hmark =>
      have hspace : isSpace mark = false := by
        rcases hmark with rfl | rfl <;> decide
      rw [readLine, strip_keep hpad hspace, if_pos]
      rcases hmark with rfl | rfl
      · exact .inl rfl
      · exact .inr rfl
  | @continuation pad tail value hcontinuing hindent hpad htail hvalue hspeaks =>
      obtain ⟨c, rest, hchars, hc, hmark, hhash⟩ := hspeaks
      have hhead : value.chars.head? = some c := by rw [hchars]; rfl
      have hindented : (pad ++ value.chars ++ tail).head?.any isSpace = true := by
        rw [List.append_assoc]
        exact indented_of_pad hindent hpad
      rw [readLine, strip_middle hpad htail hvalue, hhead, if_neg (by simp [hmark, hhash]),
        if_pos ⟨hcontinuing, by simp [hchars], hindented⟩, ofBuffer_chars]
  | @header pad rest name hpad hflush hname hcomment =>
      rw [readLine_flush hpad hflush (by decide) (by decide) (by decide), if_pos rfl,
        rstrip_keep (by decide), readHeader, find_char hname hcomment]
      simp
  | @unclosed pad rest hpad hflush hhidden =>
      rw [readLine_flush hpad hflush (by decide) (by decide) (by decide), if_pos rfl, readHeader]
      exact if_neg (find_misses_iff.mpr hhidden.rstrip)
  | @pair pad gap gap' tail sep name value hpad hflush htext =>
      obtain ⟨c, rest, hrest, hc, hmark, hhash, hheader⟩ := htext.first
      have hkept : c :: rstrip isSpace rest =
          name.chars ++ gap ++ sep :: rstrip isSpace (gap' ++ value.chars ++ tail) := by
        rw [← rstrip_keep htext.sep_space, hrest]
        exact (rstrip_keep hc [] rest).symm
      rw [hrest, readLine_flush hpad hflush hc hmark hhash, if_neg hheader, hkept]
      exact readPair_of_text htext
  | @bare pad s hpad hflush hspeaks hheader hequals hcolon =>
      obtain ⟨c, rest, rfl, hc, hmark, hhash⟩ := hspeaks
      have hkept : rstrip isSpace (c :: rest) = c :: rstrip isSpace rest :=
        rstrip_keep hc [] rest
      have hequals' := hequals.rstrip
      have hcolon' := hcolon.rstrip
      rw [hkept] at hequals' hcolon'
      rw [readLine_flush hpad hflush hc hmark hhash, if_neg (by simpa using hheader), readPair,
        if_neg (find_misses_iff.mpr hequals'), if_neg (find_misses_iff.mpr hcolon')]

end Reading

end Switcher.Ini
