import Switcher.Config.IniReading
import Switcher.Config.Ready

/-!
`ini_parse_file` does what its header promises for the lines that a file denotes,
with any handler.
-/

namespace Switcher.Ini

open Lib.Program Lib.Interleaving Lib.Text Lib.Numeral Lib.Lines

section Refinement

variable {ε σ : Type} (handler : IniEntry → EStateM ε σ Int)

/-- Whether a line counts as an error. -/
def report : IniLine → EStateM ε σ Bool
  | .entry e => do
      let rc ← handler e
      pure (decide (rc = 0))
  | .malformed => pure true
  | .other => pure false

/-- What the header of `ini.c` promises for the lines of a file, with any handler. -/
def deliver (lineno error : Int) : List IniLine → EStateM ε σ Int
  | [] => pure error
  | line :: rest => do
      let failed ← report handler line
      deliver (lineno + 1) (if failed ∧ error = 0 then lineno + 1 else error) rest

theorem deliver_parserHandler {κ : Type} (K : Kernel κ) (lineno error : Int)
    (lines : List IniLine) :
    deliver (parserHandler K) lineno error lines =
      Switcher.iniParseFile K lineno error lines := by
  induction lines generalizing lineno error with
  | nil => rfl
  | cons line rest ih =>
      cases line with
      | entry e => simp only [deliver, Switcher.iniParseFile, ih, report, bind_assoc, pure_bind]
      | malformed => simp only [deliver, Switcher.iniParseFile, ih, report, pure_bind]
      | other => simp only [deliver, Switcher.iniParseFile, ih, report, pure_bind]

/-- What `parseLine` does with a line. -/
def perform (v : Locals) : LineKind → EStateM ε σ Locals
  | .silent => pure v
  | .continuation value =>
      callHandler handler (.ofBuffer v.sectionName) (.ofBuffer v.prevName) value v
  | .header name => pure { v with
      sectionName := strncpy0 name maxSection
      prevName := v.prevName.set 0 nul }
  | .pair name value => callHandler handler (.ofBuffer v.sectionName) name value
      { v with prevName := strncpy0 name maxName }
  | .malformed => pure v.fail

theorem parsePair_eq (start : List Char) (v : Locals) :
    parsePair handler start v = perform handler v (readPair start) := by
  unfold parsePair readPair
  by_cases hequals : (findCharOrComment '=' false start).2.head? = some '='
  · simp only [hequals, ne_eq, not_true_eq_false, if_false, true_or, if_true]
    rfl
  · have hnot : (findCharOrComment ':' false start).2.head? ≠ some '=' := by
      intro hhead
      rcases (find_stops ':' false start).stop '=' hhead with h | ⟨h, -⟩
      · cases h
      · cases h
    simp only [hequals, ne_eq, not_false_eq_true, if_true, if_false, hnot, false_or]
    by_cases hcolon : (findCharOrComment ':' false start).2.head? = some ':'
    · simp only [hcolon, if_true]
      rfl
    · simp only [hcolon, if_false]
      rfl

/-- The white space in front of a line moves its start. -/
theorem offset_iff {s : List Char} (hne : lskip isSpace (rstrip isSpace s) ≠ []) :
    0 < (rstrip isSpace s).length - (lskip isSpace (rstrip isSpace s)).length ↔
      s.head?.any isSpace = true := by
  obtain ⟨pad, tail, hpad, htail, hs⟩ := strip_split isSpace s
  have htrimmed : Trimmed isSpace (lskip isSpace (rstrip isSpace s)) := trimmed_strip
  have hlength : (rstrip isSpace s).length =
      pad.length + (lskip isSpace (rstrip isSpace s)).length := by
    have hstart : rstrip isSpace s = pad ++ lskip isSpace (rstrip isSpace s) := by
      conv_lhs => rw [hs]
      rw [rstrip_append htail, rstrip_self]
      intro c hc
      rw [List.getLast?_append_of_ne_nil _ hne] at hc
      exact htrimmed.last c hc
    conv_lhs => rw [hstart]
    rw [List.length_append]
  rw [hlength, Nat.add_sub_cancel]
  cases pad with
  | nil =>
      obtain ⟨c, rest, hstart⟩ := List.exists_cons_of_ne_nil hne
      have hc := htrimmed.first c (by rw [hstart]; rfl)
      rw [hs, hstart]
      simp [hc]
  | cons d pad =>
      rw [hs]
      simpa using hpad d (by simp)

theorem parseLine_eq (line : List Char) (v : Locals)
    (hfirst : v.lineno = 0 → v.prevName.head? = some nul) :
    parseLine handler line v = perform handler { v with lineno := v.lineno + 1 }
      (readLine (decide (v.prevName.head? ≠ some nul))
        (if v.lineno = 0 then dropBom (CString.ofBuffer line).chars
          else (CString.ofBuffer line).chars)) := by
  have hseen : (if v.lineno = 0 then dropBom (CString.ofBuffer line).chars
      else (CString.ofBuffer line).chars) = (CString.ofBuffer line).chars.drop
        (if v.lineno + 1 = 1 ∧ bom <+: (CString.ofBuffer line).chars then bom.length else 0) := by
    by_cases hlineno : v.lineno = 0
    · rw [if_pos hlineno, dropBom, hlineno]
      by_cases hbom : bom <+: (CString.ofBuffer line).chars
      · simp [hbom]
      · simp [hbom]
    · have hlater : v.lineno + 1 ≠ 1 := by omega
      simp [hlineno, hlater]
  have hskipped : (if v.lineno + 1 = 1 ∧ bom <+: (CString.ofBuffer line).chars then bom.length
      else 0) = 0 ∨ v.prevName.head? = some nul := by
    by_cases hlineno : v.lineno = 0
    · exact .inr (hfirst hlineno)
    · have hlater : v.lineno + 1 ≠ 1 := by omega
      simp [hlater]
  rw [hseen, parseLine]
  dsimp only
  generalize (if v.lineno + 1 = 1 ∧ bom <+: (CString.ofBuffer line).chars then bom.length
    else 0) = skipped at hskipped
  generalize (CString.ofBuffer line).chars.drop skipped = s
  have hcontinues (hne : lskip isSpace (rstrip isSpace s) ≠ []) :
      (v.prevName.head? ≠ some nul ∧ lskip isSpace (rstrip isSpace s) ≠ [] ∧
        0 < skipped + ((rstrip isSpace s).length - (lskip isSpace (rstrip isSpace s)).length)) ↔
      decide (v.prevName.head? ≠ some nul) = true ∧ lskip isSpace (rstrip isSpace s) ≠ [] ∧
        s.head?.any isSpace = true := by
    rw [decide_eq_true_iff]
    rcases hskipped with rfl | hprev
    · rw [Nat.zero_add, offset_iff hne]
    · simp [hprev]
  unfold readLine
  dsimp only
  generalize lskip isSpace (rstrip isSpace s) = start at hcontinues
  by_cases hmark : start.head? = some ';' ∨ start.head? = some '#'
  · rw [if_pos hmark, if_pos hmark]
    rfl
  · rw [if_neg hmark, if_neg hmark]
    by_cases hnil : start = []
    · rw [hnil]
      simp [perform]
    · by_cases hcont : decide (v.prevName.head? ≠ some nul) = true ∧ start ≠ [] ∧
          s.head?.any isSpace = true
      · rw [if_pos ((hcontinues hnil).mpr hcont), if_pos hcont]
        rfl
      · rw [if_neg (mt (hcontinues hnil).mp hcont), if_neg hcont]
        by_cases hheader : start.head? = some '['
        · rw [if_pos hheader, if_pos hheader, readHeader]
          split <;> rfl
        · have hspeaks : start ≠ [] ∧ start.head? ≠ some ';' :=
            ⟨hnil, fun h => hmark (.inl h)⟩
          rw [if_neg hheader, if_neg hheader, if_pos hspeaks, if_neg hnil]
          exact parsePair_eq handler start _

/-- The variables of the parser stand for a context. -/
structure Holds (c : Context) (v : Locals) : Prop where
  sectionName : CString.ofBuffer v.sectionName = c.sectionName
  prevName : CString.ofBuffer v.prevName = c.prevName
  length : v.prevName.length = maxName

theorem length_strncpy0 (src : CString) (n : Nat) : (strncpy0 src n).length = n := by
  simp [strncpy0, strncpy]

theorem ofBuffer_strncpy0 (src : CString) {n : Nat} (hn : 0 < n) :
    CString.ofBuffer (strncpy0 src n) = src.take (n - 1) := by
  apply CString.ext
  have hcopy : strncpy0 src n = src.chars.take (n - 1) ++
      (List.replicate (n - 1 - src.chars.length) nul ++ [nul]) := by
    have hlength : n - 1 < (strncpy src n).length := by
      simp [strncpy]
      omega
    rw [strncpy0, List.set_eq_take_append_cons_drop, if_pos hlength, strncpy, List.take_take,
      Nat.min_eq_left (Nat.sub_le n 1), List.take_append, List.take_replicate,
      List.drop_eq_nil_of_le (by simp; omega), List.append_assoc]
    congr
    omega
  have hstop : (List.replicate (n - 1 - src.chars.length) nul ++ [nul]).takeWhile (· ≠ nul) =
      [] := by
    cases n - 1 - src.chars.length with
    | zero => rfl
    | succ m => rfl
  show (strncpy0 src n).takeWhile (· ≠ nul) = _
  rw [hcopy, List.takeWhile_append_of_pos, hstop, List.append_nil]
  · rfl
  · intro c hc
    have hne : c ≠ nul := by
      rintro rfl
      exact src.nul_notMem (List.mem_of_mem_take hc)
    simpa using hne

theorem holds_init : Holds .start .init := by
  refine ⟨CString.ext ?_, CString.ext ?_, List.length_replicate ..⟩ <;> rfl

theorem Holds.continuing {c : Context} {v : Locals} (h : Holds c v) :
    decide (v.prevName.head? ≠ some nul) = c.continuing := by
  rw [Context.continuing, ← h.prevName]
  have hlength := h.length
  cases hbuf : v.prevName with
  | nil =>
      rw [hbuf] at hlength
      cases hlength
  | cons d buf =>
      by_cases hd : d = nul
      · simp [CString.ofBuffer, hd]
      · simp [CString.ofBuffer, hd]

/-- The variables behind a line, whatever the handler says of it. -/
theorem Holds.next {c : Context} {v : Locals} (h : Holds c v) (kind : LineKind) :
    ∃ u : Locals, Holds (c.next kind) u ∧ u.lineno = v.lineno ∧ u.error = v.error ∧
      perform handler v kind = report handler (c.tell kind) >>= fun failed =>
        pure (if failed = true then u.fail else u) := by
  cases kind with
  | silent => exact ⟨v, h, rfl, rfl, rfl⟩
  | continuation value =>
      refine ⟨v, h, rfl, rfl, ?_⟩
      simp only [perform, callHandler, h.sectionName, h.prevName, Context.tell, report, bind_assoc,
        pure_bind, decide_eq_true_eq]
  | header name =>
      refine ⟨{ v with
        sectionName := strncpy0 name maxSection
        prevName := v.prevName.set 0 nul }, ⟨?_, ?_, ?_⟩, rfl, rfl, rfl⟩
      · exact ofBuffer_strncpy0 name (by decide)
      · have hlength := h.length
        cases hbuf : v.prevName with
        | nil =>
            rw [hbuf] at hlength
            cases hlength
        | cons d buf => exact CString.ext rfl
      · exact (List.length_set ..).trans h.length
  | pair name value =>
      refine ⟨{ v with prevName := strncpy0 name maxName }, ⟨h.sectionName, ?_, ?_⟩, rfl, rfl, ?_⟩
      · exact ofBuffer_strncpy0 name (by decide)
      · exact length_strncpy0 name maxName
      · simp only [perform, callHandler, h.sectionName, Context.tell, report, bind_assoc,
          pure_bind, decide_eq_true_eq]
  | malformed => exact ⟨v, h, rfl, rfl, rfl⟩

theorem holds_fail {c : Context} {v : Locals} (h : Holds c v) (failed : Bool) :
    Holds c (if failed = true then v.fail else v) ∧
      (if failed = true then v.fail else v).lineno = v.lineno ∧
      (if failed = true then v.fail else v).error =
        if failed = true ∧ v.error = 0 then v.lineno else v.error := by
  cases failed with
  | false => exact ⟨h, rfl, rfl⟩
  | true =>
      simp only [if_true, true_and, Locals.fail]
      split
      · exact ⟨⟨h.sectionName, h.prevName, h.length⟩, rfl, rfl⟩
      · exact ⟨h, rfl, rfl⟩

/-- What is left of a line. -/
def seenLine (lineno : Int) (line : List Char) : List Char :=
  if lineno = 0 then dropBom (CString.ofBuffer line).chars else (CString.ofBuffer line).chars

/-- The lines that are left, when one of them is the first of the file. -/
def seenLines (lineno : Int) : List (List Char) → List (List Char)
  | [] => []
  | line :: rest => seenLine lineno line :: rest.map fun line => (CString.ofBuffer line).chars

theorem seenLines_later {lineno : Int} (h : lineno ≠ 0) (lines : List (List Char)) :
    seenLines lineno lines = lines.map fun line => (CString.ofBuffer line).chars := by
  cases lines with
  | nil => rfl
  | cons line rest => rw [seenLines, seenLine, if_neg h, List.map_cons]

/-- The loop does what the lines that are left ask for. -/
theorem parseLines_eq {lines : List (List Char)} {c : Context} {v : Locals}
    {kinds : List LineKind} {told : List IniLine} (hlineno : 0 ≤ v.lineno)
    (hfirst : v.lineno = 0 → v.prevName.head? = some nul) (h : Holds c v)
    (hdenotes : Denotes c (seenLines v.lineno lines) kinds told) :
    parseLines handler lines v = deliver handler v.lineno v.error told := by
  induction lines generalizing c v kinds told with
  | nil =>
      cases hdenotes
      rfl
  | cons line rest ih =>
      cases hdenotes with
      | cons hspells hrest =>
          have hstart : Holds c { v with lineno := v.lineno + 1 } :=
            ⟨h.sectionName, h.prevName, h.length⟩
          obtain ⟨u, hu, hulineno, huerror, hperform⟩ := hstart.next handler _
          rw [parseLines, parseLine_eq handler line v hfirst, h.continuing,
            show (if v.lineno = 0 then dropBom (CString.ofBuffer line).chars else
              (CString.ofBuffer line).chars) = seenLine v.lineno line from rfl,
            readLine_of_spells hspells, hperform, deliver, bind_assoc]
          congr
          funext failed
          obtain ⟨hnext, hnextlineno, hnexterror⟩ := holds_fail hu failed
          have hlater : (if failed = true then u.fail else u).lineno ≠ 0 := by
            rw [hnextlineno, hulineno]
            show v.lineno + 1 ≠ 0
            omega
          have hpos : 0 ≤ (if failed = true then u.fail else u).lineno := by
            rw [hnextlineno, hulineno]
            show 0 ≤ v.lineno + 1
            omega
          have hrest' := hrest
          rw [← seenLines_later hlater] at hrest'
          rw [pure_bind, ih hpos (fun hzero => absurd hzero hlater) hnext hrest', hnextlineno,
            hnexterror, hulineno, huerror]

theorem textLines_eq (file : List Char) :
    textLines file = seenLines 0 (linesOf '\n' iniMaxLine file) := by
  rw [textLines]
  cases linesOf '\n' iniMaxLine file with
  | nil => rfl
  | cons line rest => rfl

theorem nul_notMem_textLines {file line : List Char} (h : line ∈ textLines file) :
    nul ∉ line := by
  rw [textLines_eq] at h
  cases hlines : linesOf '\n' iniMaxLine file with
  | nil =>
      rw [hlines] at h
      cases h
  | cons first rest =>
      rw [hlines, seenLines, seenLine, if_pos rfl, List.mem_cons] at h
      rcases h with rfl | h
      · unfold dropBom
        split
        · exact fun hmem => (CString.ofBuffer first).nul_notMem (List.mem_of_mem_drop hmem)
        · exact (CString.ofBuffer first).nul_notMem
      · obtain ⟨line, -, rfl⟩ := List.mem_map.mp h
        exact (CString.ofBuffer line).nul_notMem

/-- The readings of the lines of a text. -/
def readAll : Context → List (List Char) → List LineKind
  | _, [] => []
  | c, line :: rest =>
      let kind := readLine c.continuing line
      kind :: readAll (c.next kind) rest

def tellAll : Context → List LineKind → List IniLine
  | _, [] => []
  | c, kind :: rest => c.tell kind :: tellAll (c.next kind) rest

theorem denotes_readAll (c : Context) {lines : List (List Char)}
    (hnul : ∀ line ∈ lines, nul ∉ line) :
    Denotes c lines (readAll c lines) (tellAll c (readAll c lines)) := by
  induction lines generalizing c with
  | nil => exact .nil
  | cons line lines ih =>
      rw [List.forall_mem_cons] at hnul
      exact .cons (spells_readLine c.continuing hnul.1) (ih _ hnul.2)

/-- Every text has a reading. -/
theorem exists_denotes (file : List Char) :
    ∃ kinds told, Denotes .start (textLines file) kinds told :=
  ⟨_, _, denotes_readAll .start fun _ => nul_notMem_textLines⟩

theorem told_eq {c : Context} {lines : List (List Char)} {kinds : List LineKind}
    {told : List IniLine} (h : Denotes c lines kinds told) : told = tellAll c kinds := by
  induction h with
  | nil => rfl
  | cons hspells hrest ih => rw [tellAll, ih]

theorem denotes_unique {c : Context} {lines : List (List Char)} {kinds kinds' : List LineKind}
    {told told' : List IniLine} (h : Denotes c lines kinds told)
    (h' : Denotes c lines kinds' told') : kinds' = kinds ∧ told' = told := by
  induction h generalizing kinds' told' with
  | nil =>
      cases h'
      exact ⟨rfl, rfl⟩
  | cons hspells hrest ih =>
      cases h' with
      | cons hspells' hrest' =>
          obtain rfl := (readLine_of_spells hspells).symm.trans (readLine_of_spells hspells')
          obtain ⟨rfl, rfl⟩ := ih hrest'
          exact ⟨rfl, rfl⟩

/-- `ini_parse_file` reads a text as its grammar does. -/
theorem iniParseFile_eq {file : List Char} {kinds : List LineKind} {told : List IniLine}
    (h : Denotes .start (textLines file) kinds told) :
    iniParseFile handler file = deliver handler 0 0 told := by
  rw [textLines_eq] at h
  exact parseLines_eq handler (Int.le_refl 0) (fun _ => rfl) holds_init h

end Refinement

/-- Every text has exactly one reading, and the handler gets its entries, line by
line, in a run that ends with the number of the first line at fault. -/
theorem iniParse_reads (file : List Char) :
    ∃ kinds told, Denotes .start (textLines file) kinds told ∧
      (∀ kinds' told', Denotes .start (textLines file) kinds' told' →
        kinds' = kinds ∧ told' = told) ∧
      ∀ (ε σ : Type) (handler : IniEntry → EStateM ε σ Int),
        iniParse handler (some file) = deliver handler 0 0 told := by
  obtain ⟨kinds, told, h⟩ := exists_denotes file
  exact ⟨kinds, told, h, fun _ _ h' => denotes_unique h h',
    fun _ _ handler => iniParseFile_eq handler h⟩

/-- `parse_config` on a text, and on the lines that the text denotes. -/
theorem parseConfig_told {κ : Type} (K : Kernel κ) {file : List Char} {kinds : List LineKind}
    {told : List IniLine} (h : Denotes .start (textLines file) kinds told) :
    parseConfig K (some file) = Switcher.parseConfig K (some told) := by
  rw [parseConfig, Switcher.parseConfig, iniParse, iniParseFile_eq _ h, deliver_parserHandler]
  rfl

section Handed

/-- A handler that notes what it is called with. -/
def note (e : IniEntry) : EStateM Empty (List IniEntry) Int := do
  modify fun calls => calls ++ [e]
  return 1

/-- The calls of the handler for a file. -/
def handed (file : List Char) : List IniEntry := final (iniParse note (some file)) []

theorem deliver_note (lineno error : Int) (told : List IniLine) (calls : List IniEntry) :
    ∃ rc, deliver note lineno error told calls = .ok rc (calls ++ entriesOf told) := by
  induction told generalizing lineno error calls with
  | nil =>
      refine ⟨error, ?_⟩
      rw [deliver, run_pure, entriesOf, List.filterMap_nil, List.append_nil]
  | cons line rest ih =>
      cases line with
      | entry e =>
          have hcons :
              calls ++ entriesOf (.entry e :: rest) = (calls ++ [e]) ++ entriesOf rest := by
            rw [List.append_assoc]
            rfl
          rw [hcons]
          exact ih (lineno + 1) error (calls ++ [e])
      | malformed => exact ih (lineno + 1) _ calls
      | other => exact ih (lineno + 1) error calls

theorem handed_eq {file : List Char} {kinds : List LineKind} {told : List IniLine}
    (h : Denotes .start (textLines file) kinds told) : handed file = entriesOf told := by
  obtain ⟨rc, hrc⟩ := deliver_note 0 0 told []
  rw [handed, iniParse, iniParseFile_eq _ h, final_of_ok hrc, List.nil_append]

end Handed

end Switcher.Ini
