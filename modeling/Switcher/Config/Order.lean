import Switcher.Config.Contents
import Switcher.Config.Sections

/-!
The order of the keys in a section. Whether a parameter is kept depends on whether
the driver of its bus is known when it is read, so that the order matters where a
section names the driver and gives parameters.
-/

namespace Switcher

open Lib.Program Lib.Text Lib.History

variable {κ : Type} {K : Kernel κ}

/-- A section whose entries also stand in another order, with every key at most
once. -/
structure Shuffled where
  name : CString
  entries : List (CString × CString)
  shuffled : List (CString × CString)
  perm : shuffled.Perm entries
  once : (entries.map fun e => e.1.chars).Nodup

def Shuffled.original (s : Shuffled) : IniSection := ⟨s.name, s.entries⟩

def Shuffled.permuted (s : Shuffled) : IniSection := ⟨s.name, s.shuffled⟩

def originals (file : List Shuffled) : List IniSection := file.map (·.original)

def permutations (file : List Shuffled) : List IniSection := file.map (·.permuted)

/-- The entries of the sections `more` behind the sections `past`, as far as they are
placed on the bus. -/
def placedOn (b : Fin maxBusses) (past more : List IniSection) : List Placed :=
  onShelf b (place (seen past) (streamOf more))

/-- The order `block` or `block'` of a section does not matter for a parameter: it is
given again behind it, or given behind the type of the bus in both orders or in
neither, or has the given value to begin with. -/
def Settled {α : Type} (π : Parameter α) (shelf : Shelf) (block block' rest : List Placed) : Prop :=
  (∃ p ∈ rest, (π.given p).isSome) ∨ (Behind π block ↔ Behind π block') ∨
    π.get shelf = lastSome π.given block

section Blocks

/-- Streams of blocks of unique keys, in two orders within each block. -/
inductive Shuffles : List Placed → List Placed → Prop where
  | nil : Shuffles [] []
  | block {l l' m m' : List Placed} (h : Shuffles l l') (perm : m'.Perm m)
      (apart : m.Pairwise fun p q => p.setting.Apart q.setting) : Shuffles (l ++ m) (l' ++ m')

variable {l l' m m' : List Placed}

theorem Shuffles.perm (h : Shuffles l l') : l'.Perm l := by
  induction h with
  | nil => exact .refl _
  | block h perm apart ih => exact ih.append perm

theorem Shuffles.lastSome_eq {α : Type} {f : Placed → Option α} (h : Shuffles l l')
    (hf : ∀ p q, p.setting.Apart q.setting → f p = none ∨ f q = none) :
    lastSome f l' = lastSome f l := by
  induction h with
  | nil => rfl
  | block h perm apart ih =>
      rw [lastSome_append, lastSome_append, ih,
        lastSome_eq_of_perm perm (apart.imp fun {p q} => hf p q)]

theorem Shuffles.typed_iff (h : Shuffles l l') :
    (∃ p ∈ l', p.setting.TypesBus) ↔ ∃ p ∈ l, p.setting.TypesBus := by
  simp only [h.perm.mem_iff]

theorem driverAt_apart (d : Fin maxIoDevices) (p q : Placed) (h : p.setting.Apart q.setting) :
    driverAt d p = none ∨ driverAt d q = none := by
  unfold driverAt
  cases hp : p.setting <;> cases hq : q.setting <;> simp_all [Setting.Apart]

end Blocks

section Typing

variable {α : Type} (π : Parameter α) {shelf : Shelf} {front block rest : List Placed}

theorem get_typing (hshelf : ¬ shelf.bus.drvHandle.isSome)
    (hfront : ∀ p ∈ front, ¬ p.setting.TypesBus) {past post : List Placed} {q : Placed}
    (hpast : ∀ p ∈ past, ¬ p.setting.TypesBus) (hq : q.setting.TypesBus) :
    π.get (shelf.fill (front ++ (past ++ q :: post) ++ rest)) =
      ((lastSome π.given rest).or (lastSome π.given post)).or (π.get shelf) := by
  have hsplit : front ++ (past ++ q :: post) ++ rest = (front ++ past) ++ q :: (post ++ rest) := by
    simp
  have hnone : ∀ p ∈ front ++ past, ¬ p.setting.TypesBus := by
    intro p hp
    rcases List.mem_append.mp hp with hp | hp
    · exact hfront p hp
    · exact hpast p hp
  rw [hsplit, fill_first π hshelf hnone hq, lastSome_append]

theorem lastSome_post (f : Placed → Option α) (past post : List Placed) (q : Placed) :
    lastSome f post = none ∨ lastSome f post = lastSome f (past ++ q :: post) := by
  rw [← List.singleton_append, ← List.append_assoc, lastSome_append]
  cases lastSome f post with
  | none => exact .inl rfl
  | some a => exact .inr rfl

/-- One of two values kept or lost in two runs, in front of the same default. -/
theorem or_eq_or_iff {x y kept init : Option α} (hx : x = none ∨ x = kept)
    (hy : y = none ∨ y = kept) :
    y.or init = x.or init ↔ (x.isSome ↔ y.isSome) ∨ init = kept := by
  rcases hx with rfl | rfl <;> rcases hy with rfl | rfl
  · simp
  · cases y with
    | none => simp
    | some a => simp [eq_comm]
  · cases x <;> simp
  · simp

/-- The section that types the bus is the one whose order can matter. -/
theorem get_block_iff (hshelf : ¬ shelf.bus.drvHandle.isSome) {front' block' rest' : List Placed}
    (hfront : ∀ p ∈ front, ¬ p.setting.TypesBus) (hfront' : ∀ p ∈ front', ¬ p.setting.TypesBus)
    (hperm : block'.Perm block) (hapart : block.Pairwise fun p q => p.setting.Apart q.setting)
    (hrest : Shuffles rest rest') (htyped : ∃ p ∈ block, p.setting.TypesBus) :
    π.get (shelf.fill (front' ++ block' ++ rest')) =
        π.get (shelf.fill (front ++ block ++ rest)) ↔
      Settled π shelf block block' rest := by
  have htyped' : ∃ p ∈ block', p.setting.TypesBus := by
    simpa only [hperm.mem_iff] using htyped
  have hkept : lastSome π.given block' = lastSome π.given block :=
    lastSome_eq_of_perm hperm (hapart.imp fun {p q} => π.apart p q)
  obtain ⟨past, q, post, rfl, hq, hpast⟩ := exists_first htyped
  obtain ⟨past', q', post', rfl, hq', hpast'⟩ := exists_first htyped'
  rw [Settled, behind_first π hpast hq, behind_first π hpast' hq', ← isSome_lastSome,
    ← isSome_lastSome, ← isSome_lastSome, get_typing π hshelf hfront hpast hq,
    get_typing π hshelf hfront' hpast' hq', hrest.lastSome_eq π.apart]
  cases lastSome π.given rest with
  | some a => simp
  | none =>
      have hpost' := lastSome_post π.given past' post' q'
      rw [hkept] at hpost'
      simpa using or_eq_or_iff (lastSome_post π.given past post q) hpost'

end Typing

section Keys

/-- The key that asks for the setting. -/
def Setting.key : Setting → Option (List Char)
  | .busParameter _ => some iniBusParam
  | .busType _ => some iniBusType
  | .devDriver _ => some iniDevDrv
  | .devParameter _ => some iniDevParam
  | .unknown => none

theorem name_of_key {e : IniEntry} {key : List Char} (h : e.setting.key = some key) :
    e.name.chars = key := by
  unfold IniEntry.setting at h
  split at h
  · next hname => exact hname.trans (Option.some.inj h)
  · split at h
    · next hname => exact hname.trans (Option.some.inj h)
    · split at h
      · next hname => exact hname.trans (Option.some.inj h)
      · split at h
        · next hname => exact hname.trans (Option.some.inj h)
        · cases h

theorem apart_of_keys {s s' : Setting} (h : ∀ key, s.key = some key → s'.key ≠ some key) :
    s.Apart s' := by
  cases s <;> cases s' <;> simp_all [Setting.Apart, Setting.key]

theorem setting_apart {e e' : IniEntry} (h : e.name.chars ≠ e'.name.chars) :
    e.setting.Apart e'.setting := by
  apply apart_of_keys
  intro key hkey hkey'
  exact h ((name_of_key hkey).trans (name_of_key hkey').symm)

end Keys

section Files

variable (b : Fin maxBusses)

theorem Shuffled.entries_eq_nil (s : Shuffled) :
    s.permuted.entries = [] ↔ s.original.entries = [] := by
  constructor
  · intro hnil
    have hperm := s.perm
    rw [show s.shuffled = [] from hnil] at hperm
    exact List.nil_perm.mp hperm
  · intro hnil
    have hperm := s.perm
    rw [show s.entries = [] from hnil] at hperm
    exact List.perm_nil.mp hperm

/-- The cursors do not depend on the order. -/
theorem seen_permutations (file : List Shuffled) :
    seen (permutations file) = seen (originals file) := by
  induction file using List.reverseRecOn with
  | nil => rfl
  | append_singleton file s ih =>
      have hname : s.permuted.name = s.original.name := rfl
      simp only [permutations, originals, List.map_append, List.map_singleton] at ih ⊢
      rw [seen_concat, seen_concat, ih, hname]
      simp only [s.entries_eq_nil]

theorem placedOn_append (past more rest : List IniSection) :
    placedOn b past (more ++ rest) = placedOn b past more ++ placedOn b (past ++ more) rest := by
  rw [placedOn, streamOf_append, place_append, onShelf_append, after_streamOf]
  rfl

theorem placedOn_split (past : List IniSection) (s : IniSection) (rest : List IniSection) :
    placedOn b [] (past ++ s :: rest) =
      placedOn b [] past ++ placedOn b past [s] ++ placedOn b (past ++ [s]) rest := by
  rw [List.append_cons, placedOn_append, placedOn_append, List.nil_append, List.nil_append]

theorem placedOn_section (past : List IniSection) (s : IniSection) :
    placedOn b past [s] = onShelf b (s.stream.map (·.placed (seen (past ++ [s])))) := by
  have hstream : streamOf [s] = s.stream := List.flatMap_singleton ..
  rw [placedOn, hstream, place_stream past (List.append_nil _).symm]

theorem block_perm (past : List Shuffled) (s : Shuffled) :
    (placedOn b (permutations past) [s.permuted]).Perm
      (placedOn b (originals past) [s.original]) := by
  have hseen :
      seen (permutations past ++ [s.permuted]) = seen (originals past ++ [s.original]) := by
    simpa [permutations, originals] using seen_permutations (past ++ [s])
  rw [placedOn_section, placedOn_section, hseen]
  exact ((s.perm.map _).map _).filter _

theorem block_apart (past : List IniSection) (s : Shuffled) :
    (placedOn b past [s.original]).Pairwise fun p q => p.setting.Apart q.setting := by
  have honce : s.entries.Pairwise fun e e' => e.1.chars ≠ e'.1.chars :=
    List.pairwise_map.mp s.once
  rw [placedOn_section]
  apply List.Pairwise.filter
  simp only [IniSection.stream, List.map_map, List.pairwise_map]
  exact honce.imp fun hne => setting_apart hne

/-- Behind any sections, the others are placed as blocks in two orders. -/
theorem shuffles_placedOn (past more : List Shuffled) :
    Shuffles (placedOn b (originals past) (originals more))
      (placedOn b (permutations past) (permutations more)) := by
  induction more using List.reverseRecOn with
  | nil => exact .nil
  | append_singleton more s ih =>
      have hperm := block_perm b (past ++ more) s
      have hapart := block_apart b (originals (past ++ more)) s
      simp only [permutations, originals, List.map_append, List.map_singleton] at ih hperm hapart ⊢
      rw [placedOn_append, placedOn_append]
      exact .block ih hperm hapart

end Files

section Result

variable (config : IoConfig BusHandle DevHandle) (b : Fin maxBusses)

/-- The bus has a driver in front of the next section. -/
def HasDriver (past : List Shuffled) : Prop :=
  (config.busses b).drvHandle.isSome ∨ ∃ p ∈ placedOn b [] (originals past), p.setting.TypesBus

/-- The order does not matter for the parameter in any section that finds the bus
without a driver. -/
def SettledIn {α : Type} (π : Parameter α) (file : List Shuffled) : Prop :=
  ∀ past s rest, file = past ++ s :: rest → ¬ HasDriver config b past →
    Settled π (config.shelf b) (placedOn b (originals past) [s.original])
      (placedOn b (permutations past) [s.permuted])
      (placedOn b (originals (past ++ [s])) (originals rest))

variable {config b} {α : Type} {π : Parameter α}

/-- The first section that types the bus. -/
theorem exists_typing {file : List Shuffled}
    (h : ∃ p ∈ placedOn b [] (originals file), p.setting.TypesBus) :
    ∃ past s rest, file = past ++ s :: rest ∧
      (∀ p ∈ placedOn b [] (originals past), ¬ p.setting.TypesBus) ∧
      ∃ p ∈ placedOn b (originals past) [s.original], p.setting.TypesBus := by
  induction file using List.reverseRecOn with
  | nil => simp [originals, placedOn, streamOf, onShelf] at h
  | append_singleton file s ih =>
      by_cases hfile : ∃ p ∈ placedOn b [] (originals file), p.setting.TypesBus
      · obtain ⟨past, s', rest, rfl, hpast, htyped⟩ := ih hfile
        exact ⟨past, s', rest ++ [s], by simp, hpast, htyped⟩
      · refine ⟨file, s, [], rfl, fun p hp htype => hfile ⟨p, hp, htype⟩, ?_⟩
        obtain ⟨p, hp, htype⟩ := h
        rw [originals, List.map_append, List.map_singleton, placedOn_append] at hp
        rcases List.mem_append.mp hp with hp | hp
        · exact absurd ⟨p, hp, htype⟩ hfile
        · exact ⟨p, hp, htype⟩

theorem not_behind {block : List Placed} (h : ∀ p ∈ block, ¬ p.setting.TypesBus) :
    ¬ Behind π block := by
  rintro ⟨past, p, rest, rfl, -, q, hq, htype⟩
  exact h q (by simp [hq]) htype

/-- The section that types the bus, in front of which it has no driver. -/
theorem get_section_iff {past rest : List Shuffled} {s : Shuffled}
    (hdriver : ¬ HasDriver config b past)
    (htyped : ∃ p ∈ placedOn b (originals past) [s.original], p.setting.TypesBus) :
    π.get ((config.shelf b).fill (placedOn b [] (permutations (past ++ s :: rest)))) =
        π.get ((config.shelf b).fill (placedOn b [] (originals (past ++ s :: rest)))) ↔
      Settled π (config.shelf b) (placedOn b (originals past) [s.original])
        (placedOn b (permutations past) [s.permuted])
        (placedOn b (originals (past ++ [s])) (originals rest)) := by
  obtain ⟨hnone, hpast⟩ := not_or.mp hdriver
  have hpast' : ¬ ∃ p ∈ placedOn b [] (permutations past), p.setting.TypesBus := fun h =>
    hpast ((shuffles_placedOn b [] past).typed_iff.mp h)
  have hrest := shuffles_placedOn b (past ++ [s]) rest
  simp only [permutations, originals, List.map_append, List.map_cons, List.map_nil]
    at hpast hpast' hrest htyped ⊢
  rw [placedOn_split, placedOn_split]
  exact get_block_iff π hnone (fun p hp htype => hpast ⟨p, hp, htype⟩)
    (fun p hp htype => hpast' ⟨p, hp, htype⟩) (block_perm b past s)
    (block_apart b (originals past) s) hrest htyped

/-- A parameter comes out the same exactly if its order does not matter. -/
theorem get_shuffled_iff (file : List Shuffled) :
    π.get ((config.shelf b).fill (placedOn b [] (permutations file))) =
        π.get ((config.shelf b).fill (placedOn b [] (originals file))) ↔
      SettledIn config b π file := by
  have hshuffles : Shuffles (placedOn b [] (originals file)) (placedOn b [] (permutations file)) :=
    shuffles_placedOn b [] file
  constructor
  · rintro heq past s rest rfl hdriver
    by_cases htyped : ∃ p ∈ placedOn b (originals past) [s.original], p.setting.TypesBus
    · exact (get_section_iff hdriver htyped).mp heq
    · have hblock := fun p hp htype => htyped ⟨p, hp, htype⟩
      have hblock' := fun p hp htype =>
        htyped ⟨p, (block_perm b past s).mem_iff.mp hp, htype⟩
      exact .inr (.inl (iff_of_false (not_behind hblock) (not_behind hblock')))
  · intro hsettled
    by_cases hdrv : (config.shelf b).bus.drvHandle.isSome
    · rw [fill_typed π hdrv, fill_typed π hdrv, hshuffles.lastSome_eq π.apart]
    · by_cases htyped : ∃ p ∈ placedOn b [] (originals file), p.setting.TypesBus
      · obtain ⟨past, s, rest, rfl, hpast, htyped⟩ := exists_typing htyped
        have hdriver : ¬ HasDriver config b past := by
          rintro (hsome | ⟨p, hp, htype⟩)
          · exact hdrv hsome
          · exact hpast p hp htype
        exact (get_section_iff hdriver htyped).mpr (hsettled past s rest rfl hdriver)
      · have htyped' := fun h => htyped (hshuffles.typed_iff.mp h)
        rw [fill_untyped π hdrv fun p hp htype => htyped ⟨p, hp, htype⟩,
          fill_untyped π hdrv fun p hp htype => htyped' ⟨p, hp, htype⟩]

/-- The bus comes out the same exactly if the order matters for none of its
parameters. -/
theorem fill_shuffled_iff (file : List Shuffled) :
    (config.shelf b).fill (placedOn b [] (permutations file)) =
        (config.shelf b).fill (placedOn b [] (originals file)) ↔
      SettledIn config b busParam file ∧ ∀ d, SettledIn config b (devParam d) file := by
  have hshuffles : Shuffles (placedOn b [] (originals file)) (placedOn b [] (permutations file)) :=
    shuffles_placedOn b [] file
  have hnum : ((config.shelf b).fill (placedOn b [] (permutations file))).bus.numDevices =
      ((config.shelf b).fill (placedOn b [] (originals file))).bus.numDevices := by
    rw [fill_numDevices, fill_numDevices, hshuffles.perm.countP_eq]
  have hdriver (d : Fin maxIoDevices) :
      (((config.shelf b).fill (placedOn b [] (permutations file))).devices d).drvHandle =
        (((config.shelf b).fill (placedOn b [] (originals file))).devices d).drvHandle := by
    rw [fill_driver, fill_driver, hshuffles.lastSome_eq (driverAt_apart d)]
  have hhandle : ((config.shelf b).fill (placedOn b [] (permutations file))).bus.drvHandle.isSome ↔
      ((config.shelf b).fill (placedOn b [] (originals file))).bus.drvHandle.isSome := by
    rw [fill_handle, fill_handle, hshuffles.typed_iff]
  rw [fill_eq_iff hnum hdriver fun _ => rfl, and_iff_right hhandle, get_shuffled_iff]
  exact and_congr_right fun _ => forall_congr' fun d => get_shuffled_iff file

theorem shelfOf_streamOf (config : IoConfig BusHandle DevHandle) (sections : List IniSection)
    (b : Fin maxBusses) : shelfOf config (place .start (streamOf sections)) b =
      (config.shelf b).fill (placedOn b [] sections) := rfl

theorem streamOf_permutations (file : List Shuffled) :
    streamOf (permutations file) = [] ↔ streamOf (originals file) = [] := by
  simp only [streamOf, permutations, originals, List.flatMap_map, List.flatMap_eq_nil_iff,
    stream_eq_nil, Shuffled.entries_eq_nil]

end Result

/-- Reading a file and a permutation of the keys in its sections, into the same
configuration: the results are equal exactly if, for the parameter of each bus and
for that of each device, the order does not matter in any section that finds the
bus without a driver. -/
theorem parseConfig_permuted_iff (hK : K.Allocates) {config : IoConfig BusHandle DevHandle}
    {w w' : Env κ} {file : List Shuffled} {rc rc' : Int} {t t' : BusConfigs κ}
    (h : parseConfig K (some ((originals file).flatMap (·.lines))) (userData config w) = .ok rc t)
    (h' : parseConfig K (some ((permutations file).flatMap (·.lines))) (userData config w') =
      .ok rc' t') :
    t'.config = t.config ↔ ∀ b, SettledIn config b busParam file ∧
      ∀ d, SettledIn config b (devParam d) file := by
  obtain ⟨hshelf, hnum⟩ := shelf_of_parse hK h
  obtain ⟨hshelf', hnum'⟩ := shelf_of_parse hK h'
  rw [entriesOf_sections] at hshelf hnum hshelf' hnum'
  have hcursor : Cursor.start.after (streamOf (permutations file)) =
      Cursor.start.after (streamOf (originals file)) := seen_permutations file
  have hcount : t'.config.numBusses = t.config.numBusses := by
    rw [hnum, hnum', hcursor]
    simp only [streamOf_permutations]
  rw [config_eq_iff, and_iff_right hcount]
  apply forall_congr'
  intro b
  rw [hshelf, hshelf', shelfOf_streamOf, shelfOf_streamOf]
  exact fill_shuffled_iff file

/-- A bus section as `io-ext.ini` has it, and with its two keys swapped. -/
def swappedBus : Shuffled where
  name := cString "bus-0"
  entries := [(cString "bus_type", cString "i2c"), (cString "bus_parameter", cString "/dev/i2c-1")]
  shuffled := [(cString "bus_parameter", cString "/dev/i2c-1"), (cString "bus_type", cString "i2c")]
  perm := .swap ..
  once := by decide +kernel

theorem swappedBus_parse :
    ∃ rc t rc' t',
      parseConfig calmKernel (some ((originals [swappedBus]).flatMap (·.lines)))
          (userData zeroConfig calmWorld) = .ok rc t ∧
        parseConfig calmKernel (some ((permutations [swappedBus]).flatMap (·.lines)))
          (userData zeroConfig calmWorld) = .ok rc' t' ∧
        (t.config.busses 0).busData.isSome ∧ (t'.config.busses 0).busData.isNone := by
  have hkept : yields (parseConfig calmKernel
      (some ((originals [swappedBus]).flatMap (·.lines)))) (userData zeroConfig calmWorld)
      (fun _ t => (t.config.busses 0).busData.isSome) = true := by decide +kernel
  have hlost : yields (parseConfig calmKernel
      (some ((permutations [swappedBus]).flatMap (·.lines)))) (userData zeroConfig calmWorld)
      (fun _ t => (t.config.busses 0).busData.isNone) = true := by decide +kernel
  obtain ⟨rc, t, hrun, hsome⟩ := exists_of_yields hkept
  obtain ⟨rc', t', hrun', hnone⟩ := exists_of_yields hlost
  exact ⟨rc, t, rc', t', hrun, hrun', hsome, hnone⟩

theorem parseConfig_permuted_iff_swapped :
    ∃ rc t rc' t',
      parseConfig calmKernel (some ((originals [swappedBus]).flatMap (·.lines)))
          (userData zeroConfig calmWorld) = .ok rc t ∧
        parseConfig calmKernel (some ((permutations [swappedBus]).flatMap (·.lines)))
          (userData zeroConfig calmWorld) = .ok rc' t' ∧
        (t'.config = t.config ↔ ∀ b, SettledIn zeroConfig b busParam [swappedBus] ∧
          ∀ d, SettledIn zeroConfig b (devParam d) [swappedBus]) := by
  obtain ⟨rc, t, rc', t', hrun, hrun', -⟩ := swappedBus_parse
  exact ⟨rc, t, rc', t', hrun, hrun', parseConfig_permuted_iff (fun _ => rfl) hrun hrun'⟩

/-- In front of the type of the bus, its parameter is lost. -/
theorem swappedBus_differs :
    ∃ rc t rc' t',
      parseConfig calmKernel (some ((originals [swappedBus]).flatMap (·.lines)))
          (userData zeroConfig calmWorld) = .ok rc t ∧
        parseConfig calmKernel (some ((permutations [swappedBus]).flatMap (·.lines)))
          (userData zeroConfig calmWorld) = .ok rc' t' ∧
        t'.config ≠ t.config := by
  obtain ⟨rc, t, rc', t', hrun, hrun', hsome, hnone⟩ := swappedBus_parse
  refine ⟨rc, t, rc', t', hrun, hrun', ?_⟩
  intro heq
  rw [heq, Option.isNone_iff_eq_none] at hnone
  rw [hnone] at hsome
  cases hsome

end Switcher
