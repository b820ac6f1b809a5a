import Mathlib.Data.Bool.AllAny
import Switcher.Config.Canonical
import Switcher.Config.IniDelivered

/-!
Configuration files as text. Lines that say nothing or make no sense leave the
configuration alone, and a text that says what a configuration consists of, in
whatever spelling, is parsed into that configuration.
-/

namespace Switcher.Ini

open Lib.Program Lib.Interleaving Lib.Text Lib.Numeral Lib.Lines

variable {κ : Type} {K : Kernel κ}

def LineKind.isSilent : LineKind → Bool
  | .silent => true
  | _ => false

/-- The line delivers nothing, and it stands for nothing below it. -/
def LineKind.isInert : LineKind → Bool
  | .silent => true
  | .malformed => true
  | _ => false

section Inert

variable {c : Context} {kind : LineKind}

theorem inert_of_silent (h : kind.isSilent = true) : kind.isInert = true := by
  cases kind with
  | silent => rfl
  | _ => cases h

theorem next_of_inert (h : kind.isInert = true) : c.next kind = c := by
  cases kind with
  | silent => rfl
  | malformed => rfl
  | _ => cases h

theorem entriesOf_append (a b : List IniLine) : entriesOf (a ++ b) = entriesOf a ++ entriesOf b :=
  List.filterMap_append

theorem entriesOf_tell (h : kind.isInert = true) (rest : List IniLine) :
    entriesOf (c.tell kind :: rest) = entriesOf rest := by
  cases kind with
  | silent => rfl
  | malformed => rfl
  | _ => cases h

/-- The entries come from the lines that are not inert. -/
theorem entriesOf_tellAll (c : Context) (drop : LineKind → Bool)
    (hdrop : ∀ kind, drop kind = true → kind.isInert = true) (kinds : List LineKind) :
    entriesOf (tellAll c kinds) = entriesOf (tellAll c (kinds.filter fun kind => !drop kind)) := by
  induction kinds generalizing c with
  | nil => rfl
  | cons kind kinds ih =>
      cases h : drop kind with
      | true =>
          rw [List.filter_cons_of_neg (by simp [h]), tellAll, entriesOf_tell (hdrop kind h),
            next_of_inert (hdrop kind h), ih]
      | false =>
          rw [List.filter_cons_of_pos (by simp [h]), tellAll, tellAll, ← List.singleton_append,
            entriesOf_append, ih, ← entriesOf_append, List.singleton_append]

/-- `parse_config` only depends on the entries of a file. -/
theorem parseConfig_entries {lines lines' : List IniLine} (h : entriesOf lines = entriesOf lines')
    (s : BusConfigs κ) :
    Switcher.parseConfig K (some lines) s = Switcher.parseConfig K (some lines') s := by
  cases hrun : runAll (parserHandler K) (entriesOf lines) s with
  | error e t =>
      rw [parseConfig_error hrun]
      rw [h] at hrun
      rw [parseConfig_error hrun]
  | ok codes t =>
      rw [parseConfig_ok hrun]
      rw [h] at hrun
      rw [parseConfig_ok hrun]

/-- Some of the inert lines of a text are left out. -/
inductive Thins : Context → List (List Char) → List (List Char) → Prop
  | nil {c : Context} : Thins c [] []
  | keep {c : Context} {line : List Char} {lines lines' : List (List Char)} {kind : LineKind}
      (spells : Spells c.continuing (line ++ ['\n']) kind)
      (rest : Thins (c.next kind) lines lines') : Thins c (line :: lines) (line :: lines')
  | drop {c : Context} {line : List Char} {lines lines' : List (List Char)} {kind : LineKind}
      (spells : Spells c.continuing (line ++ ['\n']) kind) (inert : kind.isInert = true)
      (rest : Thins c lines lines') : Thins c (line :: lines) lines'

theorem Thins.denotes {lines lines' : List (List Char)} (h : Thins c lines lines') :
    ∃ kinds told kinds' told', Denotes c (lines.map (· ++ ['\n'])) kinds told ∧
      Denotes c (lines'.map (· ++ ['\n'])) kinds' told' ∧ entriesOf told = entriesOf told' := by
  induction h with
  | nil => exact ⟨[], [], [], [], .nil, .nil, rfl⟩
  | @keep c line lines lines' kind hspells hrest ih =>
      obtain ⟨kinds, told, kinds', told', hdenotes, hdenotes', htold⟩ := ih
      refine ⟨_, _, _, _, .cons hspells hdenotes, .cons hspells hdenotes', ?_⟩
      rw [← List.singleton_append, entriesOf_append, htold, ← entriesOf_append,
        List.singleton_append]
  | @drop c line lines lines' kind hspells hinert hrest ih =>
      obtain ⟨kinds, told, kinds', told', hdenotes, hdenotes', htold⟩ := ih
      refine ⟨kind :: kinds, c.tell kind :: told, kinds', told', .cons hspells ?_, hdenotes', ?_⟩
      · rwa [next_of_inert hinert]
      · rw [entriesOf_tell hinert, htold]

theorem Thins.mem {lines lines' : List (List Char)} (h : Thins c lines lines') :
    ∀ line ∈ lines', line ∈ lines := by
  induction h with
  | nil => simp
  | keep hspells hrest ih => grind
  | drop hspells hinert hrest ih => grind

def unlines (lines : List (List Char)) : List Char := lines.flatMap (· ++ ['\n'])

theorem prefix_line {a b p : List Char} {d : Char} (hd : d ∉ p) (h : p <+: a ++ d :: b) :
    p <+: a := by
  rcases List.prefix_or_prefix_of_prefix h (List.prefix_append a (d :: b)) with hp | ⟨q, rfl⟩
  · exact hp
  · cases q with
    | nil => simp
    | cons e q =>
        rw [List.prefix_append_right_inj, List.cons_prefix_cons] at h
        exact absurd (by rw [h.1]; simp) hd

theorem textLines_unlines {lines : List (List Char)} (hlines : ∀ line ∈ lines, Writable line)
    (hbom : ∀ line ∈ lines, ¬ bom <+: line) :
    textLines (unlines lines) = lines.map (· ++ ['\n']) := by
  have hfile : ¬ bom <+: unlines lines ++ [] := by
    intro hstart
    cases lines with
    | nil => exact absurd hstart (by decide)
    | cons line lines =>
        refine hbom line (by simp) (prefix_line (d := '\n') (by decide) (b := unlines lines) ?_)
        simpa [unlines] using hstart
  have hlast : '\n' ∉ ([] : List Char) ∧ nul ∉ ([] : List Char) ∧
      ([] : List Char).length < iniMaxLine := by decide
  have htext := textLines_text hlines hlast hfile
  rwa [List.append_nil, if_pos rfl, List.append_nil] at htext

/-- Comments, blank lines and lines that make no sense can be taken out of a file
without changing what is configured. -/
theorem inert_lines {lines lines' : List (List Char)} (hlines : ∀ line ∈ lines, Writable line)
    (hbom : ∀ line ∈ lines, ¬ bom <+: line) (h : Thins .start lines lines')
    (s : BusConfigs κ) :
    parseConfig K (some (unlines lines)) s = parseConfig K (some (unlines lines')) s := by
  obtain ⟨kinds, told, kinds', told', hdenotes, hdenotes', htold⟩ := h.denotes
  rw [← textLines_unlines hlines hbom] at hdenotes
  rw [← textLines_unlines (fun line hline => hlines line (h.mem line hline))
    (fun line hline => hbom line (h.mem line hline))] at hdenotes'
  rw [parseConfig_told K hdenotes, parseConfig_told K hdenotes', parseConfig_entries htold]

/-- A file with a comment, a blank line, a header that is not closed and a line
without a separator. -/
def noisyLines : List (List Char) :=
  ["; relays", "[bus-0]", "", "bus_type = i2c", "[device-0", "pcf8574"].map String.toList

theorem inert_lines_noisy :
    parseConfig calmKernel (some (unlines noisyLines))
        (userData (confInit zeroConfig).2 calmWorld) =
      parseConfig calmKernel (some (unlines (["[bus-0]", "bus_type = i2c"].map String.toList)))
        (userData (confInit zeroConfig).2 calmWorld) := by
  have hlines : ∀ line ∈ noisyLines, '\n' ∉ line ∧ nul ∉ line ∧ line.length + 1 < iniMaxLine ∧
      ¬ bom <+: line := by
    decide +kernel
  refine inert_lines (fun line hline => ⟨(hlines line hline).1, (hlines line hline).2.1,
    (hlines line hline).2.2.1⟩) (fun line hline => (hlines line hline).2.2.2) ?_ _
  refine .drop (spells_readLine _ (by decide)) (by decide +kernel) ?_
  refine .keep (spells_readLine _ (by decide)) ?_
  refine .drop (spells_readLine _ (by decide)) (by decide +kernel) ?_
  refine .keep (spells_readLine _ (by decide)) ?_
  refine .drop (spells_readLine _ (by decide)) (by decide +kernel) ?_
  exact .drop (spells_readLine _ (by decide)) (by decide +kernel) .nil

end Inert

section Sections

variable {c : Context} {sections : List IniSection}

/-- The lines of a section, apart from those that say nothing. -/
def sectionKinds (s : IniSection) : List LineKind :=
  .header s.name :: s.entries.map fun e => .pair e.1 e.2

theorem tellAll_pairs (c : Context) (entries : List (CString × CString)) (rest : List LineKind) :
    ∃ c', tellAll c (entries.map (fun e => .pair e.1 e.2) ++ rest) =
      entries.map (fun e => .entry ⟨c.sectionName, e.1, e.2⟩) ++ tellAll c' rest := by
  induction entries generalizing c with
  | nil => exact ⟨c, rfl⟩
  | cons e entries ih =>
      obtain ⟨c', hc'⟩ := ih (c.next (.pair e.1 e.2))
      refine ⟨c', ?_⟩
      rw [List.map_cons, List.cons_append, tellAll, hc']
      rfl

/-- A name that fits its buffer is the name of the section. -/
theorem entriesOf_sectionKinds (c : Context)
    (hfits : ∀ s ∈ sections, s.name.chars.length < maxSection) :
    entriesOf (tellAll c (sections.flatMap sectionKinds)) = streamOf sections := by
  induction sections generalizing c with
  | nil => rfl
  | cons s sections ih =>
      rw [List.forall_mem_cons] at hfits
      have hname : s.name.take (maxSection - 1) = s.name :=
        CString.ext (List.take_of_length_le (by omega))
      obtain ⟨c', hc'⟩ := tellAll_pairs ⟨s.name, .empty⟩ s.entries (sections.flatMap sectionKinds)
      have hnext : c.next (.header s.name) = ⟨s.name, .empty⟩ := by
        rw [Context.next, hname]
      have hentries : entriesOf (s.entries.map fun e => .entry ⟨s.name, e.1, e.2⟩) = s.stream := by
        rw [entriesOf, List.filterMap_map, IniSection.stream, ← List.filterMap_eq_map]
        rfl
      rw [List.flatMap_cons, sectionKinds, List.cons_append, tellAll, hnext, hc',
        ← List.singleton_append, entriesOf_append, entriesOf_append, hentries, ih c' hfits.2]
      rfl

theorem mem_tellAll {kinds : List LineKind} {line : IniLine} (h : line ∈ tellAll c kinds) :
    ∃ (c' : Context) (kind : LineKind), kind ∈ kinds ∧ line = c'.tell kind := by
  induction kinds generalizing c with
  | nil => cases h
  | cons kind kinds ih =>
      rcases List.mem_cons.mp h with rfl | h
      · exact ⟨c, kind, by simp, rfl⟩
      · obtain ⟨c', kind', hkind, rfl⟩ := ih h
        exact ⟨c', kind', by simp [hkind], rfl⟩

end Sections

section Plans

variable {plan : Plan} {w : Env κ}

theorem numbered_fits {base : Nat} (hbase : Radix base) {word : List Char} (hword : nul ∉ word)
    {n : Nat} (hlength : word.length ≤ 8) (hn : n < base ^ 40) :
    (numbered hbase word hword n).chars.length < maxSection := by
  have hdigits : (Nat.toDigits base n).length ≤ 40 := by
    rwa [Nat.length_toDigits_le_iff hbase.one_lt (by omega)]
  simp only [numbered, List.length_append, maxSection]
  omega

theorem plan_names (plan : Plan) :
    ∀ s ∈ sectionsOf plan.file.busses, s.name.chars.length < maxSection := by
  intro s hs
  obtain ⟨busSection, hbus, hs⟩ := List.mem_flatMap.mp hs
  obtain ⟨k, hk, rfl⟩ := List.mem_mapIdx.mp hbus
  have hfew := plan.few
  rcases List.mem_cons.mp hs with rfl | hs
  · exact numbered_fits decimal (by decide) (by decide)
      (lt_of_lt_of_le (by omega : k < maxBusses + 1) (by decide))
  · obtain ⟨j, hj, rfl⟩ := List.mem_mapIdx.mp hs
    have hdevices := plan.busses[k].length_devices
    exact numbered_fits decimal (by decide) (by decide)
      (lt_of_lt_of_le (by omega : j < maxIoDevices + 1) (by decide))

/-- What the entries of a configuration leave behind. -/
theorem plan_parsed (hK : K.Allocates) (plan : Plan) (w : Env κ) {told : List IniLine}
    (htold : entriesOf told = streamOf (sectionsOf plan.file.busses))
    (hsound : .malformed ∉ told) :
    ∃ t, Switcher.iniParse K (some told) (userData (confInit zeroConfig).2 w) = .ok 0 t ∧
      t.config = plan.ioConfig := by
  obtain ⟨t, hrun, ht⟩ := run_follows (K := K) rfl w plan.legible.fits
  rw [← htold] at hrun
  obtain ⟨rc, hparse⟩ : ∃ rc, Switcher.iniParseFile K 0 0 told
      (userData (confInit zeroConfig).2 w) = .ok rc t := iniParseFile_ok hrun
  have hfails : ∀ line ∈ told, ¬ line.Fails := by
    intro line hline
    cases line with
    | entry e =>
        have hmem : e ∈ streamOf (sectionsOf plan.file.busses) := by
          rw [← htold]
          exact List.mem_filterMap.mpr ⟨.entry e, hline, rfl⟩
        intro hunknown
        have hcode := (Setting.code_eq_zero e.setting).mpr hunknown
        rw [plan_codes plan e hmem] at hcode
        cases hcode
    | malformed => exact absurd hline hsound
    | other => exact id
  have hzero := (iniParseFile_code (Int.le_refl 0) (Int.le_refl 0) hparse).2.mpr ⟨rfl, hfails⟩
  subst hzero
  exact ⟨t, hparse, plan_config hK plan rfl ht⟩

/-- The lines that describe a configuration. -/
def planKinds (plan : Plan) : List LineKind :=
  (sectionsOf plan.file.busses).flatMap sectionKinds

theorem malformed_notMem_planKinds (plan : Plan) : .malformed ∉ planKinds plan := by
  intro hmem
  obtain ⟨s, -, hs⟩ := List.mem_flatMap.mp hmem
  rcases List.mem_cons.mp hs with h | h
  · cases h
  · obtain ⟨e, -, he⟩ := List.mem_map.mp h
    cases he

theorem told_of_plan (plan : Plan) {kinds : List LineKind}
    (hkinds : kinds.filter (fun kind => !kind.isSilent) = planKinds plan) :
    entriesOf (tellAll .start kinds) = streamOf (sectionsOf plan.file.busses) ∧
      .malformed ∉ tellAll .start kinds := by
  constructor
  · rw [entriesOf_tellAll _ LineKind.isSilent (fun _ => inert_of_silent), hkinds]
    exact entriesOf_sectionKinds _ (plan_names plan)
  · intro hmem
    obtain ⟨c', kind, hkind, htell⟩ := mem_tellAll hmem
    cases kind with
    | malformed =>
        refine malformed_notMem_planKinds plan ?_
        rw [← hkinds]
        exact List.mem_filter.mpr ⟨hkind, rfl⟩
    | _ => cases htell

/-- A text that says what a configuration consists of, between comments and blank
lines, is read without an error and yields that configuration. -/
theorem plan_read (hK : K.Allocates) (plan : Plan) (w : Env κ) {file : List Char}
    {kinds : List LineKind} {told : List IniLine}
    (h : Denotes .start (textLines file) kinds told)
    (hkinds : kinds.filter (fun kind => !kind.isSilent) = planKinds plan) :
    ∃ t, iniParse (parserHandler K) (some file) (userData (confInit zeroConfig).2 w) = .ok 0 t ∧
      t.config = plan.ioConfig := by
  obtain ⟨hentries, hsound⟩ := told_of_plan plan hkinds
  rw [iniParse, iniParseFile_eq _ h, deliver_parserHandler, told_eq h]
  exact plan_parsed hK plan w hentries hsound

/-- The text of `config/io_ext.ini`. -/
def ioExtIni : List Char := unlines
  (["[bus-0]", "", "bus_type = i2c", "bus_parameter = /dev/i2c-1", "",
    "[device-0]", "", "devdrv = pcf8574", "dev_parameter = 0x20", "",
    "[device-1]", "", "devdrv = pcf8574", "dev_parameter = 0x38", "",
    "[bus-1]", "", "bus_type = piface", "",
    "[device-0]", "", "devdrv = piface"].map String.toList)

theorem ioExtIni_kinds :
    (readAll .start (textLines ioExtIni)).filter (fun kind => !kind.isSilent) =
      planKinds ioExtPlan := by
  decide +kernel

theorem plan_read_ioExt :
    ∃ t, iniParse (parserHandler calmKernel) (some ioExtIni)
        (userData (confInit zeroConfig).2 calmWorld) = .ok 0 t ∧
      t.config = ioExtPlan.ioConfig :=
  plan_read (fun _ => rfl) ioExtPlan calmWorld
    (denotes_readAll .start fun _ => nul_notMem_textLines) ioExtIni_kinds

/-- A path that can be written behind an equals sign. -/
structure PlainPath (path : DevicePath) : Prop where
  trimmed : Trimmed isSpace path.text.chars
  noComment : NoComment path.text.chars
  newline : '\n' ∉ path.text.chars

/-- A section as lines, each with what it says. -/
def sectionLines (s : IniSection) : List (List Char × LineKind) :=
  (headerLine s.name.chars, .header s.name) ::
    s.entries.map fun e => (pairLine e.1.chars e.2.chars, .pair e.1 e.2)

def planLines (plan : Plan) : List (List Char × LineKind) :=
  (sectionsOf plan.file.busses).flatMap sectionLines

/-- The text of a configuration. -/
def planText (plan : Plan) : List Char := unlines ((planLines plan).map (·.1))

/-- The line says the same behind any other. -/
structure Says (p : List Char × LineKind) : Prop where
  writable : Writable p.1
  bom : ¬ bom <+: p.1
  spells : ∀ continuing, Spells continuing (p.1 ++ ['\n']) p.2

theorem says_header {name : CString} (h : SectionText name.chars)
    (hfits : name.chars.length < maxSection) : Says (headerLine name.chars, .header name) := by
  have hbracket : '[' ≠ Char.ofNat 0xEF := by decide
  exact ⟨writable_header h hfits, bom_head rfl hbracket,
    fun continuing => spells_header continuing h⟩

theorem says_pair {name value : CString} (h : OneLine name.chars value.chars)
    (hfits : name.chars.length + 1 + value.chars.length + 1 < iniMaxLine)
    (hbom : ¬ bom <+: pairLine name.chars value.chars) :
    Says (pairLine name.chars value.chars, .pair name value) := by
  refine ⟨⟨h.writable.1, h.writable.2.1, ?_⟩, hbom,
    fun continuing => spells_pair continuing h blank_newline⟩
  simp only [pairLine, List.length_append, List.length_cons]
  omega

theorem denotes_says (c : Context) {pairs : List (List Char × LineKind)}
    (h : ∀ p ∈ pairs, Says p) :
    Denotes c ((pairs.map (·.1)).map (· ++ ['\n'])) (pairs.map (·.2))
      (tellAll c (pairs.map (·.2))) := by
  induction pairs generalizing c with
  | nil => exact .nil
  | cons p pairs ih =>
      rw [List.forall_mem_cons] at h
      exact .cons (h.1.spells _) (ih _ h.2)

theorem planLines_kinds (plan : Plan) : (planLines plan).map (·.2) = planKinds plan := by
  rw [planLines, planKinds, List.map_flatMap]
  congr
  funext s
  simp [sectionLines, sectionKinds]

theorem filter_planKinds (plan : Plan) :
    (planKinds plan).filter (fun kind => !kind.isSilent) = planKinds plan := by
  rw [List.filter_eq_self]
  intro kind hkind
  obtain ⟨s, -, hs⟩ := List.mem_flatMap.mp hkind
  rcases List.mem_cons.mp hs with rfl | hs
  · rfl
  · obtain ⟨e, -, rfl⟩ := List.mem_map.mp hs
    rfl

theorem noComment_of_forall {s : List Char} (h : ∀ c ∈ s, isSpace c = false) : NoComment s :=
  fun a d b hs => h d (by rw [hs]; simp)

theorem newline_notMem_of_forall {s : List Char} (h : ∀ c ∈ s, isSpace c = false) : '\n' ∉ s := by
  intro hmem
  cases h _ hmem

theorem numbered_solid {base : Nat} (hbase : Radix base) {word : List Char} (hword : nul ∉ word)
    (hsolid : ∀ c ∈ word, isSpace c = false ∧ c ≠ ']') (n : Nat) :
    ∀ c ∈ (numbered hbase word hword n).chars, isSpace c = false ∧ c ≠ ']' := by
  intro c hc
  rcases List.mem_append.mp hc with hc | hc
  · exact hsolid c hc
  · obtain ⟨d, hd, -⟩ := isDigit_iff.mp (isDigit_toDigits hbase n c hc)
    constructor
    · by_contra hspace
      rw [digitValue_of_isSpace (by simpa using hspace)] at hd
      cases hd
    · rintro rfl
      cases hd

theorem sectionText_of_solid {s : List Char} (h : ∀ c ∈ s, isSpace c = false ∧ c ≠ ']') :
    SectionText s :=
  ⟨fun hmem => (h _ hmem).2 rfl, noComment_of_forall fun c hc => (h c hc).1,
    newline_notMem_of_forall fun c hc => (h c hc).1⟩

/-- A value that can be written behind an equals sign. -/
structure ValueText (s : List Char) : Prop where
  trimmed : Trimmed isSpace s
  noComment : NoComment s
  newline : '\n' ∉ s
  short : s.length < 100

theorem valueText_of_solid {s : List Char} (h : ∀ c ∈ s, isSpace c = false)
    (hshort : s.length < 100) : ValueText s :=
  ⟨trimmed_of_forall h, noComment_of_forall h, newline_notMem_of_forall h, hshort⟩

/-- The keys that `process_entries` knows. -/
def iniKeys : List (List Char) := [iniBusType, iniBusParam, iniDevDrv, iniDevParam]

theorem says_setting {name value : CString} (hname : name.chars ∈ iniKeys)
    (hvalue : ValueText value.chars) :
    Says (pairLine name.chars value.chars, .pair name value) := by
  have hkeys : ∀ key ∈ iniKeys, (key.all fun c => isSpace c = false ∧ c ≠ '=') = true ∧
      (key.head?.toList.all fun c => c ≠ ';' ∧ c ≠ '#' ∧ c ≠ '[' ∧ c ≠ Char.ofNat 0xEF) = true ∧
      key ≠ [] ∧ key.length < 50 := by
    decide
  obtain ⟨hall, hfirst, hne, hlength⟩ := hkeys _ hname
  have hsolid := List.all_iff_forall_prop.mp hall
  have hhead (c : Char) (hc : c ∈ name.chars.head?) :=
    List.all_iff_forall_prop.mp hfirst c (Option.mem_toList.mpr hc)
  have hspace : ∀ c ∈ name.chars, isSpace c = false := fun c hc => (hsolid c hc).1
  have hshort := hvalue.short
  have hsize : iniMaxLine = 200 := rfl
  have htext : NameText name.chars := by
    refine ⟨?_, fun hmem => (hsolid _ hmem).2 rfl, noComment_of_forall hspace,
      newline_notMem_of_forall hspace⟩
    intro c hc
    obtain ⟨hmark, hhash, hbracket, -⟩ := hhead c hc
    exact ⟨hspace c (List.mem_of_head? hc), hmark, hhash, hbracket⟩
  refine says_pair ⟨htext, trimmed_of_forall hspace, hvalue.trimmed, hvalue.noComment,
    hvalue.newline, by omega⟩ (by omega) ?_
  obtain ⟨c, rest, hchars⟩ := List.exists_cons_of_ne_nil hne
  have hc : c ≠ Char.ofNat 0xEF := (hhead c (by rw [hchars]; rfl)).2.2.2
  exact bom_head (by rw [hchars]; rfl) hc

theorem says_section {s : IniSection}
    (hname : ∀ c ∈ s.name.chars, isSpace c = false ∧ c ≠ ']')
    (hfits : s.name.chars.length < maxSection)
    (hentries : ∀ e ∈ s.entries, e.1.chars ∈ iniKeys ∧ ValueText e.2.chars) :
    ∀ p ∈ sectionLines s, Says p := by
  intro p hp
  rcases List.mem_cons.mp hp with rfl | hp
  · exact says_header (sectionText_of_solid hname) hfits
  · obtain ⟨e, he, rfl⟩ := List.mem_map.mp hp
    exact says_setting (hentries e he).1 (hentries e he).2

theorem addressText_value (address : BitVec 8) : ValueText (addressText address).chars := by
  have hlt := address.isLt
  refine valueText_of_solid (fun c hc => ?_) ?_
  · exact (numbered_solid hexadecimal (by decide) (List.all_iff_forall_prop.mp (by decide))
      address.toNat c hc).1
  · have hfits : (addressText address).chars.length < maxSection :=
      numbered_fits hexadecimal (by decide) (by decide) (lt_trans hlt (by decide))
    exact lt_trans hfits (by decide)

theorem header_value {bus : BusPlan} (hplain : ∀ path ∈ bus.path, PlainPath path) (k : Nat) :
    ∀ e ∈ (bus.header k).entries, e.1.chars ∈ iniKeys ∧ ValueText e.2.chars := by
  have hconstant : ∀ value ∈ [iniDrvPiface, iniBusTypeI2c],
      (value.all fun c => isSpace c = false) = true ∧ value.length < 100 := by
    decide
  have hconst (value : List Char) (h : value ∈ [iniDrvPiface, iniBusTypeI2c]) : ValueText value :=
    valueText_of_solid (List.all_iff_forall_prop.mp (hconstant value h).1) (hconstant value h).2
  have hkeys : iniBusType ∈ iniKeys ∧ iniBusParam ∈ iniKeys := by decide
  intro e he
  cases bus with
  | i2c path devices few =>
      have hpath := hplain path rfl
      rcases List.mem_pair.mp he with rfl | rfl
      · exact ⟨hkeys.1, hconst _ (by simp)⟩
      · exact ⟨hkeys.2, hpath.trimmed, hpath.noComment, hpath.newline,
          lt_trans path.fits (by decide)⟩
  | piface devices few =>
      obtain rfl := List.mem_singleton.mp he
      exact ⟨hkeys.1, hconst _ (by simp)⟩

theorem device_value (dev : DevPlan) (j : Nat) :
    ∀ e ∈ (dev.iniSection j).entries, e.1.chars ∈ iniKeys ∧ ValueText e.2.chars := by
  have hdriver : ValueText (driverName dev.driver).chars := by
    have hconstant : ∀ value ∈ [iniDrvPcf8574, iniDrvPiface, iniDrvMcp23017],
        (value.all fun c => isSpace c = false) = true ∧ value.length < 100 := by
      decide
    have hname : (driverName dev.driver).chars ∈
        [iniDrvPcf8574, iniDrvPiface, iniDrvMcp23017] := by
      cases dev.driver <;> simp [driverName]
    exact valueText_of_solid (List.all_iff_forall_prop.mp (hconstant _ hname).1)
      (hconstant _ hname).2
  have hkeys : iniDevDrv ∈ iniKeys ∧ iniDevParam ∈ iniKeys := by decide
  intro e he
  rcases List.mem_cons.mp he with rfl | he
  · exact ⟨hkeys.1, hdriver⟩
  · cases haddress : dev.address with
    | none =>
        rw [haddress] at he
        cases he
    | some address =>
        rw [haddress] at he
        obtain rfl := List.mem_singleton.mp he
        exact ⟨hkeys.2, addressText_value address⟩

theorem planLines_says (hplain : ∀ bus ∈ plan.busses, ∀ path ∈ bus.path, PlainPath path) :
    ∀ p ∈ planLines plan, Says p := by
  intro p hp
  obtain ⟨s, hs, hp⟩ := List.mem_flatMap.mp hp
  have hfits := plan_names plan s hs
  obtain ⟨busSection, hbus, hs⟩ := List.mem_flatMap.mp hs
  obtain ⟨k, hk, rfl⟩ := List.mem_mapIdx.mp hbus
  rcases List.mem_cons.mp hs with rfl | hs
  · exact says_section
      (numbered_solid decimal (by decide) (List.all_iff_forall_prop.mp (by decide)) k) hfits
      (header_value (hplain _ (List.getElem_mem hk)) k) p hp
  · obtain ⟨j, hj, rfl⟩ := List.mem_mapIdx.mp hs
    exact says_section
      (numbered_solid decimal (by decide) (List.all_iff_forall_prop.mp (by decide)) j) hfits
      (device_value _ j) p hp

/-- Writing a configuration down and reading it back. -/
theorem plan_write_read (hK : K.Allocates) (plan : Plan) (w : Env κ)
    (hplain : ∀ bus ∈ plan.busses, ∀ path ∈ bus.path, PlainPath path) :
    ∃ t, iniParse (parserHandler K) (some (planText plan))
        (userData (confInit zeroConfig).2 w) = .ok 0 t ∧ t.config = plan.ioConfig := by
  have hspeak := planLines_says hplain
  have hlines : textLines (planText plan) = ((planLines plan).map (·.1)).map (· ++ ['\n']) :=
    textLines_unlines (List.forall_mem_map.mpr fun p hp => (hspeak p hp).writable)
      (List.forall_mem_map.mpr fun p hp => (hspeak p hp).bom)
  have hdenotes := denotes_says .start hspeak
  rw [planLines_kinds, ← hlines] at hdenotes
  obtain ⟨hentries, hsound⟩ := told_of_plan plan (filter_planKinds plan)
  rw [iniParse, iniParseFile_eq _ hdenotes, deliver_parserHandler]
  exact plan_parsed hK plan w hentries hsound

theorem plan_write_read_ioExt :
    ∃ t, iniParse (parserHandler calmKernel) (some (planText ioExtPlan))
        (userData (confInit zeroConfig).2 calmWorld) = .ok 0 t ∧
      t.config = ioExtPlan.ioConfig := by
  refine plan_write_read (fun _ => rfl) ioExtPlan calmWorld ?_
  intro bus hbus path hpath
  rcases List.mem_pair.mp hbus with rfl | rfl
  · obtain rfl := Option.some.inj hpath
    have hsolid : ∀ c ∈ (cString "/dev/i2c-1").chars, isSpace c = false :=
      List.all_iff_forall_prop.mp (by decide)
    exact ⟨trimmed_of_forall hsolid, noComment_of_forall hsolid, newline_notMem_of_forall hsolid⟩
  · cases hpath

end Plans

end Switcher.Ini
