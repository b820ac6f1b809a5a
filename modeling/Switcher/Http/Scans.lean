import Switcher.Http.Grammar

/-!
What `parse_uri` reads and writes in `buf_uri`: its programs again, with a record
of every search for a token and of every number that is parsed. Forgetting the
record gives the programs back.
-/

namespace Switcher

open Lib.Program Lib.Numeral Lib.Text

/-- A call of `strtok_r`, or of `strtol` or `strtoul` at a pointer that may be
`NULL`. -/
inductive Access where
  | strtok (delim : List Char) (start : Nat)
  | number (nptr : Option Nat)

/-- An access and the buffer it finds. -/
structure Scan where
  access : Access
  buf : List Char

structure Scanning where
  buf : List Char
  scans : List Scan

abbrev ScanM (α : Type) := EStateM Fault Scanning α

def scanning {α : Type} (access : Access) (act : UriM α) : ScanM α := fun s =>
  match act s.buf with
  | .ok a buf => .ok a ⟨buf, s.scans ++ [⟨access, s.buf⟩]⟩
  | .error e buf => .error e ⟨buf, s.scans ++ [⟨access, s.buf⟩]⟩

def scanToken (delim : List Char) (start : Nat) : ScanM (Option Nat × Nat) :=
  scanning (.strtok delim start) (strtok delim start)

def scanBus (token : Nat) (parts : IoData) : ScanM (IoSuccess × IoData) :=
  scanning (.number (some token)) (parseBus token parts)

def scanDev (token : Nat) (parts : IoData) : ScanM (IoSuccess × IoData) := do
  let (devToken, saveptr) ← scanToken devDelim token
  match devToken with
  | none => scanning (.number none) (throw .nullDeref)
  | some devToken => do
      let (rc, idx) ← scanning (.number (some devToken)) (parseIdx devToken)
      let parts := { parts with idxDev := idx }
      match rc with
      | .error => return (.error, parts)
      | .ok => do
          let (devToken, _) ← scanToken devDelim saveptr
          match devToken with
          | none => return (.ok, parts)
          | some devToken => do
              let (rc, idx) ← scanning (.number (some devToken)) (parseIdx devToken)
              return (rc, { parts with idxSubDev := idx })

def scanValue (token : Nat) (parts : IoData) : ScanM (IoSuccess × IoData) :=
  scanning (.number (some token)) (parseValue token parts)

def scanStage (stage : UriStage) (token : Nat) (parts : IoData) : ScanM (IoSuccess × IoData) :=
  match stage with
  | .bus => scanBus token parts
  | .dev => scanDev token parts
  | .value => scanValue token parts

def scanStages : List UriStage → Option Nat × Nat → RequestT → IoData →
    ScanM (RequestT × IoData)
  | stage :: stages, (some token, rest), result, parts => do
      let (rc, parts) ← scanStage stage token parts
      match rc with
      | .error => return (.err, parts)
      | .ok => do
          let next ← scanToken uriDelim rest
          scanStages stages next (stage.next result) parts
  | _, _, result, parts => return (result, parts)

def scanBuf : ScanM (RequestT × IoData) := do
  let next ← scanToken uriDelim 0
  scanStages uriStages next .err initIoData

/-- The accesses that parsing the URI makes. -/
def uriScans (uri : CString) : List Scan := (final scanBuf ⟨strncpy uri bufLen, []⟩).scans

/-- The access stays inside the buffer: the tokenizer stops in front of its end,
and a number parser is given a terminated string in it. -/
def Scan.Within (scan : Scan) : Prop :=
  match scan.access with
  | .strtok delim start => (strtokR delim scan.buf start).isSome
  | .number nptr => ∃ i ∈ nptr, nul ∈ scan.buf.drop i

/-- A number parser is given a token, and not an empty one. -/
def Scan.Fed (scan : Scan) : Prop :=
  match scan.access with
  | .strtok _ _ => True
  | .number nptr => ∃ i ∈ nptr, ∃ tok, tok ≠ [] ∧ Reads scan.buf i tok true

section Erasure

variable {α β : Type}

/-- Without the record, the program is the one of the source. -/
def Erases (m : ScanM α) (act : UriM α) : Prop :=
  ∀ s, match m s with
    | .ok a t => act s.buf = .ok a t.buf
    | .error e t => act s.buf = .error e t.buf

theorem Erases.pure (a : α) : Erases (Pure.pure a) (Pure.pure a) := fun _ => rfl

theorem Erases.scanning (access : Access) (act : UriM α) : Erases (scanning access act) act := by
  intro s
  unfold Switcher.scanning
  cases hact : act s.buf with
  | ok a buf => rfl
  | error e buf => rfl

theorem Erases.bind {m : ScanM α} {act : UriM α} {f : α → ScanM β} {g : α → UriM β}
    (hm : Erases m act) (hf : ∀ a, Erases (f a) (g a)) : Erases (m >>= f) (act >>= g) := by
  intro s
  have hfirst := hm s
  cases hrun : m s with
  | ok a t =>
      rw [hrun] at hfirst
      rw [bind_of_ok hrun, bind_of_ok hfirst]
      exact hf a t
  | error e t =>
      rw [hrun] at hfirst
      rw [bind_of_error hrun, bind_of_error hfirst]

theorem scanDev_erases (token : Nat) (parts : IoData) :
    Erases (scanDev token parts) (parseDev token parts) := by
  refine (Erases.scanning _ _).bind ?_
  rintro ⟨devToken, saveptr⟩
  cases devToken with
  | none => exact .scanning _ _
  | some devToken =>
      refine (Erases.scanning _ _).bind ?_
      rintro ⟨rc, idx⟩
      cases rc with
      | error => exact .pure _
      | ok =>
          refine (Erases.scanning _ _).bind ?_
          rintro ⟨devToken, _⟩
          cases devToken with
          | none => exact .pure _
          | some devToken => exact (Erases.scanning _ _).bind fun _ => .pure _

theorem scanStage_erases (stage : UriStage) (token : Nat) (parts : IoData) :
    Erases (scanStage stage token parts) (parseStage stage token parts) := by
  cases stage with
  | bus => exact .scanning _ _
  | dev => exact scanDev_erases token parts
  | value => exact .scanning _ _

theorem scanStages_erases (stages : List UriStage) :
    ∀ (next : Option Nat × Nat) (result : RequestT) (parts : IoData),
      Erases (scanStages stages next result parts) (parseStages stages next result parts) := by
  induction stages with
  | nil => exact fun _ _ _ => .pure _
  | cons stage stages ih =>
      rintro ⟨token, rest⟩ result parts
      cases token with
      | none => exact .pure _
      | some token =>
          refine (scanStage_erases stage token parts).bind ?_
          rintro ⟨rc, parts⟩
          cases rc with
          | error => exact .pure _
          | ok => exact (Erases.scanning _ _).bind fun next => ih next _ parts

/-- The recorded program computes what `parse_uri` does. -/
theorem scanBuf_erases : Erases scanBuf parseBuf :=
  (Erases.scanning _ _).bind fun next => scanStages_erases uriStages next .err initIoData

end Erasure

section Sound

variable {α β : Type} {P : List Char → Prop} {Q : α → List Char → Prop}

/-- The access is inside the buffer, and no number parser goes without a token. -/
def Scan.Sound (scan : Scan) : Prop := scan.Within ∧ scan.Fed

/-- The program records sound accesses only, unless a number parser is given
`NULL`; then it does not return. -/
def Recorded (P : List Char → Prop) (m : ScanM α) (Q : α → List Char → Prop) : Prop :=
  ∀ s, P s.buf → (∀ scan ∈ s.scans, scan.Sound) →
    match m s with
    | .ok a t => (∀ scan ∈ t.scans, scan.Sound) ∧ Q a t.buf
    | .error _ t => ∃ buf, ⟨.number none, buf⟩ ∈ t.scans

theorem Recorded.pure {a : α} (h : ∀ buf, P buf → Q a buf) : Recorded P (Pure.pure a) Q :=
  fun s hs hscans => ⟨hscans, h s.buf hs⟩

theorem Recorded.bind {m : ScanM α} {f : α → ScanM β} {S : β → List Char → Prop}
    (hm : Recorded P m Q) (hf : ∀ a, Recorded (Q a) (f a) S) : Recorded P (m >>= f) S := by
  intro s hs hscans
  have hfirst := hm s hs hscans
  cases hrun : m s with
  | ok a t =>
      rw [hrun] at hfirst
      rw [bind_of_ok hrun]
      exact hf a t hfirst.2 hfirst.1
  | error e t =>
      rw [hrun] at hfirst
      rw [bind_of_error hrun]
      exact hfirst

/-- One buffer at a time. -/
theorem Recorded.each {m : ScanM α} (h : ∀ buf, P buf → Recorded (· = buf) m Q) : Recorded P m Q :=
  fun s hs => h s.buf hs s rfl

theorem Recorded.imp {P' : List Char → Prop} {m : ScanM α} (h : Recorded P m Q)
    (hpre : ∀ buf, P' buf → P buf) : Recorded P' m Q :=
  fun s hs => h s (hpre s.buf hs)

/-- A sound access that returns. -/
theorem Recorded.access {access : Access} {act : UriM α}
    (hsound : ∀ buf, P buf → Scan.Sound ⟨access, buf⟩)
    (hact : ∀ buf, P buf → ∃ a t, act buf = .ok a t ∧ Q a t) :
    Recorded P (scanning access act) Q := by
  intro s hs hscans
  obtain ⟨a, t, hrun, hq⟩ := hact s.buf hs
  unfold scanning
  rw [hrun]
  refine ⟨?_, hq⟩
  intro scan hscan
  rcases List.mem_append.mp hscan with hold | hnew
  · exact hscans scan hold
  · rw [List.mem_singleton.mp hnew]
    exact hsound s.buf hs

theorem Recorded.null : Recorded P (scanning (.number none) (throw .nullDeref)) Q :=
  fun s _ _ => ⟨s.buf, List.mem_append_right _ (List.mem_singleton_self _)⟩

section Run

variable {s text tok delim : List Char} {start i bound : Nat}

theorem strtok_sound (hdelim : nul ∉ delim) (h : Reads s start text true) :
    Scan.Sound ⟨.strtok delim start, s⟩ := by
  refine ⟨?_, trivial⟩
  cases htoks : tokens delim text true with
  | nil =>
      obtain ⟨saveptr, hend⟩ := strtokR_end hdelim h htoks
      simp [Scan.Within, hend]
  | cons tok more =>
      obtain ⟨r, i, rest, hr, -⟩ := strtokR_found hdelim h htoks
      simp [Scan.Within, hr]

theorem number_sound (hne : tok ≠ []) (h : Reads s i tok true) :
    Scan.Sound ⟨.number (some i), s⟩ := by
  obtain ⟨junk, hdrop⟩ := h.closed_tail
  exact ⟨⟨i, rfl, by simp [hdrop]⟩, ⟨i, rfl, tok, hne, h⟩⟩

/-- The tokenizer on a terminated text. -/
theorem scanToken_recorded (hdelim : nul ∉ delim) (h : Reads s start text true) :
    Recorded (· = s) (scanToken delim start) fun next t =>
      (∃ toks, Ready delim true (start + text.length) t next toks) ∧
        Unchanged (start + text.length) s t := by
  apply Recorded.access
  · rintro buf rfl
    exact strtok_sound hdelim h
  · rintro buf rfl
    rcases strtok_run hdelim h with ⟨hopen, -⟩ | ⟨next, t, hrun, hready, hsame⟩
    · cases hopen
    · exact ⟨next, t, hrun, ⟨_, hready⟩, hsame⟩

theorem scanIdx_recorded (hne : tok ≠ []) (h : Reads s i tok true) :
    Recorded (· = s) (scanning (.number (some i)) (parseIdx i)) fun _ t => t = s := by
  apply Recorded.access
  · rintro buf rfl
    exact number_sound hne h
  · rintro buf rfl
    exact ⟨_, _, parseIdx_eq h, rfl⟩

/-- What a component parser leaves of the buffer where it does not reject. -/
def LeavesRest (bound : Nat) (s : List Char) (r : IoSuccess × IoData) (t : List Char) : Prop :=
  r.1 = .ok → Unchanged bound s t

theorem scanBus_recorded (parts : IoData) (hne : tok ≠ []) (h : Reads s i tok true) :
    Recorded (· = s) (scanBus i parts) (LeavesRest (i + tok.length) s) := by
  apply Recorded.access
  · rintro buf rfl
    exact number_sound hne h
  · rintro buf rfl
    exact ⟨_, _, bind_of_ok (parseIdx_eq h), fun _ _ _ => rfl⟩

theorem scanValue_recorded (parts : IoData) (hne : tok ≠ []) (h : Reads s i tok true) :
    Recorded (· = s) (scanValue i parts) (LeavesRest (i + tok.length) s) := by
  apply Recorded.access
  · rintro buf rfl
    exact number_sound hne h
  · rintro buf rfl
    exact ⟨_, _, parseValue_eq parts h, fun _ _ _ => rfl⟩

theorem scanDev_recorded (parts : IoData) (h : Reads s i tok true) :
    Recorded (· = s) (scanDev i parts) (LeavesRest (i + tok.length) s) := by
  have hdelim : nul ∉ devDelim := by decide
  refine (scanToken_recorded hdelim h).bind ?_
  rintro ⟨devToken, saveptr⟩
  cases devToken with
  | none => exact .null
  | some devToken =>
      refine .each fun t ht => ?_
      obtain ⟨⟨toks, hready⟩, hsame⟩ := ht
      cases hready with
      | token hne reads saved order extent =>
          refine (scanIdx_recorded hne reads).bind ?_
          rintro ⟨rc, idx⟩
          cases rc with
          | error => exact .pure fun _ _ hok => by cases hok
          | ok =>
              refine .each fun _ hbuf => ?_
              subst hbuf
              refine (scanToken_recorded hdelim saved).bind ?_
              rintro ⟨devToken', saveptr'⟩
              refine .each fun u hu => ?_
              obtain ⟨⟨toks', hready'⟩, hsame'⟩ := hu
              have hkept : Unchanged (i + tok.length) s u := hsame.trans hsame' (by omega)
              cases hready' with
              | done => exact .pure fun buf hbuf _ => hbuf ▸ hkept
              | token hne' reads' _ _ _ =>
                  refine (scanIdx_recorded hne' reads').bind fun _ => ?_
                  exact .pure fun buf hbuf _ => hbuf ▸ hkept

theorem scanStage_recorded (stage : UriStage) (parts : IoData) (hne : tok ≠ [])
    (h : Reads s i tok true) :
    Recorded (· = s) (scanStage stage i parts) (LeavesRest (i + tok.length) s) := by
  cases stage with
  | bus => exact scanBus_recorded parts hne h
  | dev => exact scanDev_recorded parts h
  | value => exact scanValue_recorded parts hne h

theorem scanStages_recorded (stages : List UriStage) :
    ∀ (next : Option Nat × Nat) (result : RequestT) (parts : IoData),
      Recorded (fun t => ∃ bound toks, Ready uriDelim true bound t next toks)
        (scanStages stages next result parts) fun _ _ => True := by
  have hdelim : nul ∉ uriDelim := by decide
  induction stages with
  | nil => exact fun _ _ _ => .pure fun _ _ => trivial
  | cons stage stages ih =>
      intro next result parts
      refine .each fun t ht => ?_
      obtain ⟨bound, toks, hready⟩ := ht
      cases hready with
      | done => exact .pure fun _ _ => trivial
      | token hne reads saved order extent =>
          refine (scanStage_recorded stage parts hne reads).bind ?_
          rintro ⟨rc, parts⟩
          cases rc with
          | error => exact .pure fun _ _ => trivial
          | ok =>
              refine .each fun u hu => ?_
              have hsaved := (hu rfl).reads order saved
              refine (scanToken_recorded hdelim hsaved).bind fun next => ?_
              apply (ih next (stage.next result) parts).imp
              rintro v ⟨⟨toks, hready⟩, -⟩
              exact ⟨_, toks, hready⟩

end Run

/-- On a URI that the copy holds with its terminator, every access is sound or the
parsing stops at a number parser without a token. -/
theorem scanBuf_recorded {uri : CString} (h : uri.chars.length < bufLen) :
    Recorded (· = strncpy uri bufLen) scanBuf fun _ _ => True := by
  have hdelim : nul ∉ uriDelim := by decide
  have hreads := strncpy_reads uri
  rw [(components_of_fits h).1] at hreads
  refine (scanToken_recorded hdelim hreads).bind fun next => ?_
  apply (scanStages_recorded uriStages next .err initIoData).imp
  rintro t ⟨⟨toks, hready⟩, -⟩
  exact ⟨_, toks, hready⟩

theorem not_sound_of_null {buf : List Char} :
    ¬ Scan.Within ⟨.number none, buf⟩ ∧ ¬ Scan.Fed ⟨.number none, buf⟩ := by
  simp [Scan.Within, Scan.Fed]

end Sound

section Blank

/-- A number for the bus and a device component of dots alone. -/
def BlankDevice (uri : CString) : Prop :=
  ∃ busTok devTok more, uriComponents uri = busTok :: devTok :: more ∧
    Number 10 busTok ∧ ∀ c ∈ devTok, c = '.'

theorem deviceParts_eq_nil {devTok : List Char} :
    deviceParts devTok = [] ↔ ∀ c ∈ devTok, c = '.' := by
  simp [deviceParts, tokens_eq_nil_iff, devDelim]

variable {uri : CString} (h : uri.chars.length < bufLen)
include h

theorem parseUri_of_blankDevice (hblank : BlankDevice uri) :
    parseUri uri = .error .nullDeref := by
  obtain ⟨busTok, devTok, more, hcomps, hbus, hdots⟩ := hblank
  obtain ⟨bus, hbus'⟩ := Option.isSome_iff_exists.mp hbus
  have hparts : tokens devDelim devTok true = [] := deviceParts_eq_nil.mpr hdots
  have hread : readUri uri = .error .nullDeref := by
    simp [readUri, components_eq_uriComponents h, hcomps, uriStages, readStages, readStage,
      readBus, hbus', readDev, hparts]
  have hagrees := parseUri_agrees uri
  rw [hread] at hagrees
  exact hagrees

theorem blankDevice_of_error {e : Fault} (herr : parseUri uri = .error e) : BlankDevice uri := by
  have hagrees := parseUri_agrees uri
  obtain ⟨hfits, hcomps⟩ := components_of_fits h
  unfold readUri at hagrees
  rcases readStages_outcome (fitsBuf uri) (components uri) with
    ⟨-, parts, hrun⟩ | ⟨w, -, -, hrun⟩ | ⟨hnot, hbad, -⟩
  · rw [hrun] at hagrees
    obtain ⟨parts', hcode⟩ := hagrees
    cases herr.symm.trans hcode
  · rw [hrun] at hagrees
    cases herr.symm.trans (agrees_accepted hagrees w.type_ne_err)
  · rw [hfits] at hnot hbad
    rcases spelled_or_blank hnot with ⟨w, hw⟩ | ⟨busTok, devTok, more, heq, hbus, hblank⟩
    · rcases hbad with hnone | hincomplete
      · cases hw.symm.trans hnone
      · exact absurd (.inl rfl) hincomplete
    · exact ⟨busTok, devTok, more, (components_eq_uriComponents h).symm.trans heq, hbus,
        deviceParts_eq_nil.mp hblank⟩

/-- Either all accesses are sound and the URI is answered, or a number parser gets
`NULL`, which happens on a blank device component. -/
theorem uriScans_cases :
    (¬ BlankDevice uri ∧ (∀ scan ∈ uriScans uri, scan.Sound) ∧
        ∃ type parts, parseUri uri = .ok (type, parts)) ∨
      BlankDevice uri ∧ ∃ scan ∈ uriScans uri, ¬ scan.Within ∧ ¬ scan.Fed := by
  have htraced := scanBuf_recorded h ⟨strncpy uri bufLen, []⟩ rfl (by simp)
  have herased := scanBuf_erases ⟨strncpy uri bufLen, []⟩
  cases hrun : scanBuf ⟨strncpy uri bufLen, []⟩ with
  | ok r t =>
      rw [hrun] at htraced herased
      have hcode : parseUri uri = .ok r := outcome_of_ok herased
      refine .inl ⟨?_, ?_, r.1, r.2, hcode⟩
      · intro hblank
        cases hcode.symm.trans (parseUri_of_blankDevice h hblank)
      · rw [uriScans, final_of_ok hrun]
        exact htraced.1
  | error e t =>
      rw [hrun] at htraced herased
      obtain ⟨buf, hmem⟩ := htraced
      refine .inr ⟨blankDevice_of_error h (outcome_of_error herased), ⟨.number none, buf⟩, ?_,
        not_sound_of_null⟩
      rw [uriScans, final_of_error hrun]
      exact hmem

end Blank

/-- The copy in `buf_uri` is terminated, and every access while parsing the URI
stays inside it. -/
structure ScansWithin (uri : CString) : Prop where
  terminated : nul ∈ strncpy uri bufLen
  within : ∀ scan ∈ uriScans uri, scan.Within

/-- Every number parser is given a token that is not empty, and the URI is answered
with a request type. -/
structure TokensFed (uri : CString) : Prop where
  fed : ∀ scan ∈ uriScans uri, scan.Fed
  answered : ∃ type parts, parseUri uri = .ok (type, parts)

/-- The copy of the URI is terminated and parsed without leaving it exactly if the
URI is shorter than the buffer and its device component is not blank. -/
theorem scansWithin_iff (uri : CString) :
    ScansWithin uri ↔ uri.chars.length < bufLen ∧ ¬ BlankDevice uri := by
  constructor
  · rintro ⟨hnul, hwithin⟩
    have hfits : uri.chars.length < bufLen := by
      by_contra hlong
      rw [strncpy, List.take_append_of_le_length (by omega)] at hnul
      exact uri.nul_notMem (List.mem_of_mem_take hnul)
    refine ⟨hfits, ?_⟩
    rcases uriScans_cases hfits with ⟨hnot, -⟩ | ⟨-, scan, hmem, hbad, -⟩
    · exact hnot
    · exact absurd (hwithin scan hmem) hbad
  · rintro ⟨hfits, hnot⟩
    have hreads := strncpy_reads uri
    rw [(components_of_fits hfits).1] at hreads
    obtain ⟨junk, hdrop⟩ := hreads.closed_tail
    rw [List.drop_zero] at hdrop
    rcases uriScans_cases hfits with ⟨-, hsound, -⟩ | ⟨hblank, -⟩
    · exact ⟨by simp [hdrop], fun scan hmem => (hsound scan hmem).1⟩
    · exact absurd hblank hnot

/-- As many slashes as the buffer has characters. -/
def fullUri : CString :=
  ⟨List.replicate bufLen '/', fun h => absurd (List.eq_of_mem_replicate h) (by decide)⟩

set_option maxRecDepth 20000 in
/-- The copy has no terminator, and the tokenizer reads on behind it. -/
theorem full_buffer_overrun :
    nul ∉ strncpy fullUri bufLen ∧ parseUri fullUri = .error .outOfBounds ∧
      ¬ ScansWithin fullUri := by
  have hopen : nul ∉ strncpy fullUri bufLen := by decide +kernel
  exact ⟨hopen, by decide +kernel, fun h => hopen h.terminated⟩

/-- The number parsers are fed, and the URI answered, exactly if the device
component is not blank. -/
theorem tokensFed_iff {uri : CString} (h : uri.chars.length < bufLen) :
    TokensFed uri ↔ ¬ BlankDevice uri := by
  rcases uriScans_cases h with ⟨hnot, hsound, hok⟩ | ⟨hblank, scan, hmem, -, hbad⟩
  · exact ⟨fun _ => hnot, fun _ => ⟨fun scan hmem => (hsound scan hmem).2, hok⟩⟩
  · exact ⟨fun hfed => absurd (hfed.fed scan hmem) hbad, fun hnot => absurd hblank hnot⟩

theorem tokensFed_iff_doorOpener :
    TokensFed ⟨"/2/0/".toList, by decide⟩ ↔ ¬ BlankDevice ⟨"/2/0/".toList, by decide⟩ :=
  tokensFed_iff (by decide)

/-- A device component without parts makes `strtol` read at `NULL`. -/
theorem dot_device_unfed :
    "/0/./".toList.length < bufLen ∧
      parseUri ⟨"/0/./".toList, by decide⟩ = .error .nullDeref ∧
      ¬ TokensFed ⟨"/0/./".toList, by decide⟩ := by
  have herr : parseUri ⟨"/0/./".toList, by decide⟩ = .error .nullDeref := by decide +kernel
  refine ⟨by decide, herr, ?_⟩
  intro hfed
  obtain ⟨type, parts, hok⟩ := hfed.answered
  cases herr.symm.trans hok

end Switcher
