import Switcher.Config.Ready

/-!
A configuration file read as sections. The parser infers a section from a change of
the section name between entries: its cursors count the sections that have an entry,
and a name that differs from the one before.
-/

namespace Switcher

open Lib.Text Lib.History

/-- A section header with the names and values below it. -/
structure IniSection where
  name : CString
  entries : List (CString × CString)

/-- A bus section with the device sections in front of the next bus header. -/
structure BusSection where
  header : IniSection
  isBus : iniBus <+: header.name.chars
  devices : List IniSection
  areDevices : ∀ s ∈ devices, iniDev <+: s.name.chars
  fewDevices : devices.length ≤ maxIoDevices

/-- A file of bus and device sections that begins with a bus. -/
structure SectionFile where
  busses : List BusSection
  fewBusses : busses.length ≤ maxBusses

def BusSection.sections (bus : BusSection) : List IniSection := bus.header :: bus.devices

def sectionsOf (busses : List BusSection) : List IniSection := busses.flatMap (·.sections)

def IniSection.stream (s : IniSection) : List IniEntry :=
  s.entries.map fun e => ⟨s.name, e.1, e.2⟩

/-- The handler calls for a list of sections. -/
def streamOf (sections : List IniSection) : List IniEntry := sections.flatMap (·.stream)

def IniSection.lines (s : IniSection) : List IniLine := .other :: s.stream.map .entry

def SectionFile.lines (file : SectionFile) : List IniLine :=
  (sectionsOf file.busses).flatMap (·.lines)

theorem entriesOf_sections (sections : List IniSection) :
    entriesOf (sections.flatMap (·.lines)) = streamOf sections := by
  have hsection (s : IniSection) : entriesOf s.lines = s.stream := by
    simp [entriesOf, IniSection.lines, List.filterMap_map]
  rw [entriesOf, List.filterMap_flatMap]
  exact congrArg (fun f => List.flatMap f _) (funext hsection)

theorem entriesOf_lines (file : SectionFile) :
    entriesOf file.lines = streamOf (sectionsOf file.busses) :=
  entriesOf_sections _

theorem not_bus_of_dev {name : List Char} (hdev : iniDev <+: name) : ¬ iniBus <+: name := by
  rintro ⟨rest, rfl⟩
  obtain ⟨rest', hrest⟩ := hdev
  cases (List.cons.inj hrest).1

/-- A list of sections that begins with a bus falls into buses with their devices. -/
theorem exists_busses {sections : List IniSection}
    (hnamed : ∀ s ∈ sections, iniBus <+: s.name.chars ∨ iniDev <+: s.name.chars)
    (hfirst : ∀ s rest, sections = s :: rest → iniBus <+: s.name.chars)
    (hdevices : ∀ past run rest, sections = past ++ run ++ rest →
      (∀ s ∈ run, iniDev <+: s.name.chars) → run.length ≤ maxIoDevices) :
    ∃ busses : List BusSection, sectionsOf busses = sections := by
  induction sections using List.reverseRecOn with
  | nil => exact ⟨[], rfl⟩
  | append_singleton sections s ih =>
      obtain ⟨busses, hbusses⟩ := ih (fun s' hs' => hnamed s' (by simp [hs']))
        (fun s' rest h => hfirst s' (rest ++ [s]) (by rw [h]; rfl))
        (fun past run rest h => hdevices past run (rest ++ [s]) (by simp [h]))
      rcases hnamed s (by simp) with hbus | hdev
      · refine ⟨busses ++ [⟨s, hbus, [], by simp, by simp⟩], ?_⟩
        simp [sectionsOf, BusSection.sections, ← hbusses]
      · rcases busses.eq_nil_or_concat with rfl | ⟨past, bus, rfl⟩
        · -- the list would begin with a device
          have hnil : sections = [] := hbusses.symm
          have hbus := hfirst s [] (by rw [hnil]; rfl)
          exact absurd hbus (not_bus_of_dev hdev)
        · have hlast : sections ++ [s] =
              (sectionsOf past ++ [bus.header]) ++ (bus.devices ++ [s]) ++ [] := by
            simp [← hbusses, sectionsOf, BusSection.sections]
          have hall : ∀ s' ∈ bus.devices ++ [s], iniDev <+: s'.name.chars := by
            intro s' hs'
            rcases List.mem_append.mp hs' with hs' | hs'
            · exact bus.areDevices s' hs'
            · rwa [List.mem_singleton.mp hs']
          refine ⟨past ++ [⟨bus.header, bus.isBus, bus.devices ++ [s], hall,
            hdevices _ _ _ hlast hall⟩], ?_⟩
          rw [hlast]
          simp [sectionsOf, BusSection.sections]

theorem length_busses (busses : List BusSection) :
    ((sectionsOf busses).filter fun s => iniBus <+: s.name.chars).length = busses.length := by
  induction busses with
  | nil => rfl
  | cons bus rest ih =>
      have hdevices : (bus.devices.filter fun s => iniBus <+: s.name.chars) = [] := by
        rw [List.filter_eq_nil_iff]
        intro s hs
        simpa using not_bus_of_dev (bus.areDevices s hs)
      have hcons : sectionsOf (bus :: rest) = bus.header :: (bus.devices ++ sectionsOf rest) := rfl
      rw [hcons, List.filter_cons_of_pos (by simpa using bus.isBus), List.filter_append, hdevices,
        List.nil_append, List.length_cons, ih, List.length_cons]

/-- Every list of bus and device sections that begins with a bus is such a file,
as long as there are neither too many buses nor too many devices in a row. -/
theorem exists_sectionFile {sections : List IniSection}
    (hnamed : ∀ s ∈ sections, iniBus <+: s.name.chars ∨ iniDev <+: s.name.chars)
    (hfirst : ∀ s rest, sections = s :: rest → iniBus <+: s.name.chars)
    (hbusses : (sections.filter fun s => iniBus <+: s.name.chars).length ≤ maxBusses)
    (hdevices : ∀ past run rest, sections = past ++ run ++ rest →
      (∀ s ∈ run, iniDev <+: s.name.chars) → run.length ≤ maxIoDevices) :
    ∃ file : SectionFile, sectionsOf file.busses = sections := by
  obtain ⟨busses, rfl⟩ := exists_busses hnamed hfirst hdevices
  exact ⟨⟨busses, (length_busses busses).symm.trans_le hbusses⟩, rfl⟩

/-- The name of the last section with an entry, as far as it is compared. -/
def lastName (past : List IniSection) : List Char :=
  (lastSome (fun s => if s.entries = [] then none
    else some (s.name.chars.take maxIniEntryLen)) past).getD []

/-- The parser notices the section: it has an entry, and not the name of the last
section that has one. -/
def Stands (past : List IniSection) (s : IniSection) : Prop :=
  s.entries ≠ [] ∧ s.name.chars.take maxIniEntryLen ≠ lastName past

section Streams

variable (c : Cursor) (s : IniSection)

theorem always_place {Q : List Placed → Placed → Prop} (entries : List IniEntry) :
    Always Q (place c entries) ↔
      Always (fun past e => Q (place c past) (e.placed ((c.after past).enter e.sectionName)))
        entries := by
  induction entries using List.reverseRecOn with
  | nil => simp
  | append_singleton entries e ih => rw [place_concat, always_concat, ih, always_concat]

theorem mem_stream {e : IniEntry} (h : e ∈ s.stream) : e.sectionName = s.name := by
  obtain ⟨entry, -, rfl⟩ := List.mem_map.mp h
  rfl

theorem stream_eq_nil : s.stream = [] ↔ s.entries = [] := by
  rw [IniSection.stream, List.map_eq_nil_iff]

/-- Within a section the cursors stay. -/
theorem enter_after {front : List IniEntry} (h : ∀ e ∈ front, e.sectionName = s.name) :
    (c.after front).enter s.name = c.enter s.name := by
  induction front using List.reverseRecOn with
  | nil => rfl
  | append_singleton front e ih =>
      rw [after_concat, h e (by simp), enter_enter]
      exact ih fun e' he => h e' (by simp [he])

theorem after_stream : c.after s.stream = if s.entries = [] then c else c.enter s.name := by
  rcases s.stream.eq_nil_or_concat with hnil | ⟨front, e, hsplit⟩
  · rw [if_pos ((stream_eq_nil s).mp hnil), hnil]
    rfl
  · rw [List.concat_eq_append] at hsplit
    have hname (e' : IniEntry) (he' : e' ∈ front ++ [e]) : e'.sectionName = s.name :=
      mem_stream s (hsplit ▸ he')
    have hne : s.entries ≠ [] := by
      rw [Ne, ← stream_eq_nil, hsplit]
      simp
    rw [if_neg hne, hsplit, after_concat, hname e (by simp)]
    exact enter_after c s fun e' he' => hname e' (by simp [he'])

end Streams

section Cursors

variable {past : List IniSection} {s : IniSection}

/-- The cursors behind these sections. -/
def seen (past : List IniSection) : Cursor := Cursor.start.after (streamOf past)

theorem seen_concat (past : List IniSection) (s : IniSection) :
    seen (past ++ [s]) = if s.entries = [] then seen past else (seen past).enter s.name := by
  rw [seen, streamOf, List.flatMap_append, List.flatMap_singleton, after_append]
  exact after_stream _ s

theorem after_streamOf (past more : List IniSection) :
    (seen past).after (streamOf more) = seen (past ++ more) := by
  rw [seen, seen, ← after_append, streamOf, streamOf, streamOf, List.flatMap_append]

theorem seen_entry (past : List IniSection) {s : IniSection} {front rest : List IniEntry}
    {e : IniEntry} (hsplit : s.stream = front ++ e :: rest) :
    ((seen past).after front).enter e.sectionName = seen (past ++ [s]) := by
  have hname (e' : IniEntry) (he' : e' ∈ front ++ e :: rest) : e'.sectionName = s.name :=
    mem_stream s (hsplit ▸ he')
  have hne : s.entries ≠ [] := by
    rw [Ne, ← stream_eq_nil, hsplit]
    simp
  rw [seen_concat, if_neg hne, hname e (by simp)]
  exact enter_after _ s fun e' he' => hname e' (List.mem_append_left _ he')

theorem seen_last (past : List IniSection) : (seen past).last = lastName past := by
  induction past using List.reverseRecOn with
  | nil => rfl
  | append_singleton past s ih =>
      rw [seen_concat, lastName, lastSome_concat]
      by_cases hs : s.entries = []
      · rw [if_pos hs, if_pos hs, Option.none_or]
        exact ih
      · rw [if_neg hs, if_neg hs, enter_last]
        rfl

theorem lastName_concat (past : List IniSection) (hs : s.entries ≠ []) :
    lastName (past ++ [s]) = s.name.chars.take maxIniEntryLen := by
  rw [← seen_last, seen_concat, if_neg hs, enter_last]

/-- A bus section that is noticed starts a bus; another one changes nothing. -/
theorem seen_bus (hbus : iniBus <+: s.name.chars) (h : Stands past s) :
    (seen (past ++ [s])).bus = (seen past).bus + 1 ∧ (seen (past ++ [s])).dev = -1 := by
  rw [Stands, ← seen_last] at h
  rw [seen_concat, if_neg h.1, Cursor.enter, if_neg (Ne.symm h.2), if_pos hbus]
  exact ⟨rfl, rfl⟩

theorem seen_dev (hdev : iniDev <+: s.name.chars) (h : Stands past s) :
    (seen (past ++ [s])).bus = (seen past).bus ∧
      (seen (past ++ [s])).dev = (seen past).dev + 1 := by
  rw [Stands, ← seen_last] at h
  rw [seen_concat, if_neg h.1, Cursor.enter, if_neg (Ne.symm h.2), if_neg (not_bus_of_dev hdev),
    if_pos hdev]
  exact ⟨rfl, rfl⟩

theorem seen_unnoticed (h : ¬ Stands past s) : (seen (past ++ [s])).bus = (seen past).bus ∧
    (seen (past ++ [s])).dev = (seen past).dev := by
  rw [seen_concat]
  by_cases hs : s.entries = []
  · rw [if_pos hs]
    exact ⟨rfl, rfl⟩
  · have hlast : (seen past).last = s.name.chars.take maxIniEntryLen := by
      rw [seen_last]
      by_contra hne
      exact h ⟨hs, Ne.symm hne⟩
    rw [if_neg hs, Cursor.enter, if_pos hlast]
    exact ⟨rfl, rfl⟩

/-- The device sections of a bus leave the bus cursor where it is, and move the
device cursor once for each that is noticed. -/
theorem seen_devices (past : List IniSection) {devices : List IniSection}
    (hdev : ∀ s ∈ devices, iniDev <+: s.name.chars) :
    (seen (past ++ devices)).bus = (seen past).bus ∧
      (seen (past ++ devices)).dev ≤ (seen past).dev + devices.length ∧
      ((seen (past ++ devices)).dev = (seen past).dev + devices.length ↔
        Always (fun front s => Stands (past ++ front) s) devices) := by
  induction devices using List.reverseRecOn with
  | nil => simp
  | append_singleton devices s ih =>
      obtain ⟨hbus, hle, hiff⟩ := ih fun s' hs' => hdev s' (by simp [hs'])
      rw [← List.append_assoc, always_concat, ← hiff, List.length_append, List.length_singleton]
      push_cast
      by_cases hs : Stands (past ++ devices) s
      · obtain ⟨hsbus, hsdev⟩ := seen_dev (hdev s (by simp)) hs
        refine ⟨hsbus.trans hbus, by omega, ?_⟩
        simp only [hs, and_true]
        constructor <;> intro heq <;> omega
      · obtain ⟨hsbus, hsdev⟩ := seen_unnoticed hs
        refine ⟨hsbus.trans hbus, by omega, ?_⟩
        simp only [hs, and_false, iff_false]
        omega

end Cursors

section Busses

variable {past : List BusSection} {bus : BusSection} {front : List IniSection}

theorem sectionsOf_append (past rest : List BusSection) :
    sectionsOf (past ++ rest) = sectionsOf past ++ sectionsOf rest := List.flatMap_append

theorem streamOf_append (past rest : List IniSection) :
    streamOf (past ++ rest) = streamOf past ++ streamOf rest := List.flatMap_append

theorem sectionsOf_concat (past : List BusSection) (bus : BusSection) :
    sectionsOf (past ++ [bus]) = sectionsOf past ++ [bus.header] ++ bus.devices := by
  rw [sectionsOf_append, List.append_assoc]
  simp [sectionsOf, BusSection.sections]

def HeadersStand (busses : List BusSection) : Prop :=
  Always (fun past bus => Stands (sectionsOf past) bus.header) busses

/-- The bus cursor counts the bus headers that are noticed. -/
theorem seen_busses (busses : List BusSection) :
    (seen (sectionsOf busses)).bus + 1 ≤ busses.length ∧
      ((seen (sectionsOf busses)).bus + 1 = busses.length ↔ HeadersStand busses) := by
  induction busses using List.reverseRecOn with
  | nil => simp [HeadersStand, sectionsOf, seen, streamOf, Cursor.after, Cursor.start]
  | append_singleton busses bus ih =>
      obtain ⟨hle, hiff⟩ := ih
      obtain ⟨hdevs, -⟩ := seen_devices (sectionsOf busses ++ [bus.header]) bus.areDevices
      rw [sectionsOf_concat, hdevs, HeadersStand, always_concat, ← HeadersStand, ← hiff,
        List.length_append, List.length_singleton]
      push_cast
      by_cases hs : Stands (sectionsOf busses) bus.header
      · rw [(seen_bus bus.isBus hs).1]
        simp only [hs, and_true]
        constructor
        · omega
        · constructor <;> intro heq <;> omega
      · rw [(seen_unnoticed hs).1]
        simp only [hs, and_false, iff_false]
        constructor <;> omega

theorem seen_header (hpast : HeadersStand past) (hbus : Stands (sectionsOf past) bus.header) :
    (seen (sectionsOf past ++ [bus.header])).bus = past.length ∧
      (seen (sectionsOf past ++ [bus.header])).dev = -1 := by
  have hcount := (seen_busses past).2.mpr hpast
  obtain ⟨hheader, hdev⟩ := seen_bus bus.isBus hbus
  exact ⟨hheader.trans hcount, hdev⟩

/-- The cursors among the device sections of a bus whose header is noticed. -/
theorem seen_within (hpast : HeadersStand past) (hbus : Stands (sectionsOf past) bus.header)
    (hfront : ∀ s ∈ front, iniDev <+: s.name.chars) :
    (seen (sectionsOf past ++ bus.header :: front)).bus = past.length ∧
      (seen (sectionsOf past ++ bus.header :: front)).dev < front.length ∧
      ((seen (sectionsOf past ++ bus.header :: front)).dev + 1 = front.length ↔
        Always (fun front s => Stands (sectionsOf past ++ bus.header :: front) s) front) := by
  obtain ⟨hheader, hdev⟩ := seen_header hpast hbus
  have hdevices := seen_devices (sectionsOf past ++ [bus.header]) hfront
  simp only [List.append_assoc, List.singleton_append] at hdevices
  obtain ⟨hsame, hle, hiff⟩ := hdevices
  refine ⟨by omega, by omega, ?_⟩
  rw [← hiff]
  constructor <;> intro heq <;> omega

theorem split_busses (past : List BusSection) (bus : BusSection) (rest : List BusSection)
    (front : List IniSection) (s : IniSection) (back : List IniSection)
    (hdevices : bus.devices = front ++ s :: back) :
    sectionsOf (past ++ bus :: rest) =
      (sectionsOf past ++ bus.header :: front) ++ s :: (back ++ sectionsOf rest) := by
  simp [sectionsOf, BusSection.sections, hdevices]

end Busses

section Places

theorem bus_of_mem_place {c : Cursor} {entries : List IniEntry} {p : Placed}
    (hp : p ∈ place c entries) : c.bus ≤ p.bus ∧ p.bus ≤ (c.after entries).bus := by
  induction entries using List.reverseRecOn with
  | nil => simp at hp
  | append_singleton entries e ih =>
      have hge := cursor_bus_ge (c.after entries) [e]
      rw [← after_append] at hge
      rw [place_concat] at hp
      rcases List.mem_append.mp hp with hp | hp
      · obtain ⟨hlow, hhigh⟩ := ih hp
        exact ⟨hlow, hhigh.trans hge⟩
      · rw [List.mem_singleton.mp hp, after_concat]
        refine ⟨?_, Int.le_refl _⟩
        rw [← after_concat]
        exact cursor_bus_ge c _

theorem countP_place (f : Setting → Bool) (c : Cursor) (entries : List IniEntry) :
    (place c entries).countP (fun p => f p.setting) = entries.countP (fun e => f e.setting) := by
  induction entries generalizing c with
  | nil => rfl
  | cons e rest ih => rw [place, List.countP_cons, ih, List.countP_cons]; rfl

/-- Within a section every entry is placed where the cursors stand behind it. -/
theorem place_stream (past : List IniSection) {s : IniSection} {front rest : List IniEntry}
    (hsplit : s.stream = front ++ rest) :
    place (seen past) front = front.map (·.placed (seen (past ++ [s]))) := by
  induction front using List.reverseRecOn generalizing rest with
  | nil => rfl
  | append_singleton front e ih =>
      rw [List.append_assoc] at hsplit
      rw [place_concat, ih hsplit, List.map_append, List.map_singleton]
      congr 3
      exact seen_entry past hsplit

theorem place_todo (past : List IniSection) {s : IniSection} {done todo : List IniEntry}
    (hsplit : s.stream = done ++ todo) :
    place ((seen past).after done) todo = todo.map (·.placed (seen (past ++ [s]))) := by
  have hall : s.stream = (done ++ todo) ++ [] := by rw [hsplit, List.append_nil]
  have hplace := place_stream past hall
  rw [place_append, place_stream past hsplit, List.map_append] at hplace
  exact List.append_cancel_left hplace

/-- An entry of these sections is placed where the cursors stand in its own. -/
theorem mem_place_streamOf (past : List IniSection) {sections : List IniSection} {p : Placed}
    (hp : p ∈ place (seen past) (streamOf sections)) :
    ∃ front s back, sections = front ++ s :: back ∧
      ∃ e ∈ s.stream, p = e.placed (seen (past ++ (front ++ [s]))) := by
  induction sections using List.reverseRecOn with
  | nil => simp [streamOf] at hp
  | append_singleton sections s ih =>
      have hlast : streamOf [s] = s.stream := List.flatMap_singleton ..
      rw [streamOf_append, place_append, after_streamOf, hlast,
        place_stream _ (List.append_nil _).symm] at hp
      rcases List.mem_append.mp hp with hp | hp
      · obtain ⟨front, s', back, rfl, he⟩ := ih hp
        exact ⟨front, s', back ++ [s], by simp, he⟩
      · obtain ⟨e, he, rfl⟩ := List.mem_map.mp hp
        exact ⟨sections, s, [], rfl, e, he, by rw [List.append_assoc]⟩

variable {past : List BusSection} {bus : BusSection}

theorem place_busses (past rest : List BusSection) :
    place .start (streamOf (sectionsOf (past ++ rest))) =
      place .start (streamOf (sectionsOf past)) ++
        place (seen (sectionsOf past)) (streamOf (sectionsOf rest)) := by
  rw [sectionsOf_append, streamOf_append, place_append]
  rfl

/-- The entries of a bus are placed on it. -/
theorem bus_of_mem_sections (hpast : HeadersStand past)
    (hbus : Stands (sectionsOf past) bus.header) {p : Placed}
    (hp : p ∈ place (seen (sectionsOf past)) (streamOf bus.sections)) : p.bus = past.length := by
  have hheader := (seen_header hpast hbus).1
  have hdevices := (seen_within hpast hbus bus.areDevices).1
  have hsections : streamOf bus.sections = bus.header.stream ++ streamOf bus.devices := rfl
  rw [hsections, place_append, place_stream _ (List.append_nil _).symm] at hp
  have hafter : (seen (sectionsOf past)).after bus.header.stream =
      seen (sectionsOf past ++ [bus.header]) := by
    rw [after_stream, seen_concat]
  rcases List.mem_append.mp hp with hp | hp
  · obtain ⟨e, -, rfl⟩ := List.mem_map.mp hp
    exact hheader
  · obtain ⟨hlow, hhigh⟩ := bus_of_mem_place hp
    have hend : ((seen (sectionsOf past)).after bus.header.stream).after (streamOf bus.devices) =
        seen (sectionsOf past ++ bus.header :: bus.devices) := by
      rw [← after_append, ← hsections, seen, seen, streamOf_append, after_append]
      rfl
    rw [hend] at hhigh
    rw [hafter] at hlow
    omega

/-- The entries of further buses are placed on others. -/
theorem bus_of_mem_rest {rest : List BusSection} (hheaders : HeadersStand (past ++ rest))
    {p : Placed} (hp : p ∈ place (seen (sectionsOf past)) (streamOf (sectionsOf rest))) :
    past.length ≤ p.bus := by
  induction rest using List.reverseRecOn with
  | nil => simp [sectionsOf, streamOf] at hp
  | append_singleton rest last ih =>
      rw [← List.append_assoc] at hheaders
      obtain ⟨hpast, hbus⟩ := always_concat.mp hheaders
      have hlast : sectionsOf [last] = last.sections := List.flatMap_singleton ..
      rw [sectionsOf_append, streamOf_append, place_append, after_streamOf, ← sectionsOf_append,
        hlast] at hp
      rcases List.mem_append.mp hp with hp | hp
      · exact ih hpast hp
      · rw [bus_of_mem_sections hpast hbus hp, List.length_append]
        omega

variable (b : Fin maxBusses)

theorem onShelf_append (l m : List Placed) : onShelf b (l ++ m) = onShelf b l ++ onShelf b m :=
  List.filter_append ..

theorem onShelf_none {l : List Placed} (h : ∀ p ∈ l, p.bus ≠ b.val) : onShelf b l = [] := by
  simpa [onShelf] using h

theorem onShelf_all {l : List Placed} (h : ∀ p ∈ l, p.bus = b.val) : onShelf b l = l := by
  simpa [onShelf] using h

theorem onShelf_past (past : List BusSection) (hb : past.length ≤ b.val) :
    onShelf b (place .start (streamOf (sectionsOf past))) = [] := by
  apply onShelf_none
  intro p hp
  have hhigh := (bus_of_mem_place hp).2
  have hcount := (seen_busses past).1
  rw [seen] at hcount
  omega

/-- What is placed on a bus are the entries of its sections. -/
theorem onShelf_busses {rest : List BusSection} (hheaders : HeadersStand (past ++ bus :: rest))
    (hb : b.val = past.length) :
    onShelf b (place .start (streamOf (sectionsOf (past ++ bus :: rest)))) =
      place (seen (sectionsOf past)) (streamOf bus.sections) := by
  induction rest using List.reverseRecOn with
  | nil =>
      obtain ⟨hpast, hbus⟩ := always_concat.mp hheaders
      have hsections : sectionsOf [bus] = bus.sections := by simp [sectionsOf]
      rw [place_busses, onShelf_append, onShelf_past b past (by omega), List.nil_append, hsections]
      apply onShelf_all
      intro p hp
      rw [bus_of_mem_sections hpast hbus hp, hb]
  | append_singleton rest last ih =>
      rw [← List.cons_append, ← List.append_assoc] at hheaders ⊢
      obtain ⟨hpast, hbus⟩ := always_concat.mp hheaders
      have hsections : sectionsOf [last] = last.sections := by simp [sectionsOf]
      rw [place_busses, onShelf_append, ih hpast, hsections, onShelf_none b, List.append_nil]
      intro p hp
      rw [bus_of_mem_sections hpast hbus hp, List.length_append, List.length_cons]
      omega

end Places

section Fitting

variable {config : IoConfig BusHandle DevHandle} {past : List BusSection} {bus : BusSection}

theorem always_section {Q : List Placed → Placed → Prop} (past : List IniSection)
    (s : IniSection) :
    Always (fun done e => Q (place .start (streamOf past ++ done))
        (e.placed ((Cursor.start.after (streamOf past ++ done)).enter e.sectionName))) s.stream ↔
      Always (fun done e => Q (place .start (streamOf past ++ done))
        (e.placed (seen (past ++ [s])))) s.stream := by
  have hcursor {done todo : List IniEntry} {e : IniEntry} (hsplit : s.stream = done ++ e :: todo) :
      (Cursor.start.after (streamOf past ++ done)).enter e.sectionName = seen (past ++ [s]) := by
    rw [after_append]
    exact seen_entry past hsplit
  constructor
  · intro h done e todo hsplit
    rw [← hcursor hsplit]
    exact h done e todo hsplit
  · intro h done e todo hsplit
    rw [hcursor hsplit]
    exact h done e todo hsplit

/-- What holds of every entry of the file, section by section. -/
theorem always_streamOf {Q : List Placed → Placed → Prop} (busses : List BusSection) :
    Always Q (place .start (streamOf (sectionsOf busses))) ↔
      Always (fun past bus =>
        Always (fun done e => Q (place .start (streamOf (sectionsOf past) ++ done))
          (e.placed (seen (sectionsOf past ++ [bus.header])))) bus.header.stream ∧
        Always (fun front s => Always (fun done e =>
            Q (place .start (streamOf (sectionsOf past ++ bus.header :: front) ++ done))
              (e.placed (seen (sectionsOf past ++ bus.header :: (front ++ [s]))))) s.stream)
          bus.devices) busses := by
  rw [always_place, streamOf, always_flatMap, sectionsOf, always_flatMap]
  apply always_congr
  intro past bus _
  rw [BusSection.sections, always_cons, List.append_nil]
  refine and_congr (always_section _ _) (always_congr ?_)
  intro front s _
  have h := always_section (Q := Q) (sectionsOf past ++ bus.header :: front) s
  rw [List.append_assoc, List.cons_append] at h
  exact h

theorem exists_place {P : Setting → Prop} (c : Cursor) (entries : List IniEntry) :
    (∃ p ∈ place c entries, P p.setting) ↔ ∃ e ∈ entries, P e.setting := by
  induction entries generalizing c with
  | nil => simp
  | cons e rest ih =>
      rw [place, List.exists_mem_cons_iff, ih, List.exists_mem_cons_iff]
      rfl

/-- Whether the bus has a driver when the entries `done` of its sections are handled. -/
theorem typed_bus {done todo : List IniEntry} (hpast : HeadersStand past)
    (hbus : Stands (sectionsOf past) bus.header) (hsplit : streamOf bus.sections = done ++ todo)
    (b : Fin maxBusses) (hb : b.val = past.length) :
    Typed config (place .start (streamOf (sectionsOf past) ++ done)) past.length ↔
      ((config.busses b).drvHandle.isSome ∨ ∃ q ∈ done, q.setting.TypesBus) := by
  have hall : ∀ p ∈ place (seen (sectionsOf past)) done, p.bus = b.val := by
    intro p hp
    rw [hb]
    apply bus_of_mem_sections hpast hbus
    rw [hsplit, place_append]
    exact List.mem_append_left _ hp
  have hshelf : onShelf b (place .start (streamOf (sectionsOf past) ++ done)) =
      place (seen (sectionsOf past)) done := by
    rw [place_append, onShelf_append, onShelf_past b past (by omega), List.nil_append]
    exact onShelf_all b hall
  rw [typed_iff (b := b) (by rw [hb]), shelfOf, fill_handle, hshelf, exists_place]
  rfl

/-- The entries of a device section find the driver that the bus section has set up. -/
theorem typed_device {front back : List IniSection} {s : IniSection} {done todo : List IniEntry}
    {e : IniEntry} (hpast : HeadersStand past) (hbus : Stands (sectionsOf past) bus.header)
    (hdevices : bus.devices = front ++ s :: back) (hstream : s.stream = done ++ e :: todo)
    (hplain : ∀ s ∈ bus.devices, ∀ e ∈ s.stream, ¬ e.setting.TypesBus)
    (b : Fin maxBusses) (hb : b.val = past.length) :
    Typed config (place .start (streamOf (sectionsOf past ++ bus.header :: front) ++ done))
        past.length ↔
      ((config.busses b).drvHandle.isSome ∨ ∃ q ∈ bus.header.stream, q.setting.TypesBus) := by
  have hsplit : streamOf bus.sections = (bus.header.stream ++ (streamOf front ++ done)) ++
      (e :: todo ++ streamOf back) := by
    simp [BusSection.sections, streamOf, hdevices, hstream]
  have hstart : streamOf (sectionsOf past ++ bus.header :: front) ++ done =
      streamOf (sectionsOf past) ++ (bus.header.stream ++ (streamOf front ++ done)) := by
    simp [streamOf]
  have hfront : ∀ q ∈ streamOf front ++ done, ¬ q.setting.TypesBus := by
    intro q hq
    rcases List.mem_append.mp hq with hq | hq
    · obtain ⟨s', hs', hq⟩ := List.mem_flatMap.mp hq
      exact hplain s' (by simp [hdevices, hs']) q hq
    · exact hplain s (by simp [hdevices]) q (by simp [hstream, hq])
  rw [hstart, typed_bus hpast hbus hsplit b hb]
  refine or_congr_right ⟨?_, ?_⟩
  · rintro ⟨q, hq, htypes⟩
    rcases List.mem_append.mp hq with hq | hq
    · exact ⟨q, hq, htypes⟩
    · exact absurd htypes (hfront q hq)
  · rintro ⟨q, hq, htypes⟩
    exact ⟨q, List.mem_append_left _ hq, htypes⟩

/-- An entry of a bus section finds no device behind the cursor. -/
theorem fits_header {done todo : List IniEntry} {e : IniEntry} (hpast : HeadersStand past)
    (hbus : Stands (sectionsOf past) bus.header) (hsplit : bus.header.stream = done ++ e :: todo)
    (b : Fin maxBusses) (hb : b.val = past.length) :
    Fits config (place .start (streamOf (sectionsOf past) ++ done))
        (e.placed (seen (sectionsOf past ++ [bus.header]))) ↔
      ¬ e.setting.UsesDev ((config.busses b).drvHandle.isSome ∨
        ∃ q ∈ done, q.setting.TypesBus) := by
  obtain ⟨hcursor, hdev⟩ := seen_header hpast hbus
  have hsections : streamOf bus.sections = done ++ (e :: todo ++ streamOf bus.devices) := by
    simp [BusSection.sections, streamOf, hsplit]
  rw [← typed_bus hpast hbus hsections b hb]
  constructor
  · rintro ⟨-, hfits⟩ huse
    have hin : InTable maxIoDevices (seen (sectionsOf past ++ [bus.header])).dev :=
      hfits (by rw [IniEntry.placed, hcursor]; exact huse)
    rw [hdev] at hin
    exact absurd hin.1 (by decide)
  · intro hnot
    refine ⟨fun _ => inTable_of_fin b (by rw [hb]; exact hcursor.symm), fun huse => ?_⟩
    rw [IniEntry.placed, hcursor] at huse
    exact absurd huse hnot

end Fitting

end Switcher
