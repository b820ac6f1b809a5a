import Switcher.Http.ParseUri

/-!
The component parsers on a text that ends within the buffer. Each is a conversion
of its component, which reports whether it has consumed the whole text; what is
behind the component stays as it is.
-/

namespace Switcher

open Lib.Program Lib.Numeral Lib.Text

/-- The non-empty pieces of a text between separators. -/
def pieces (sep : Char) (text : List Char) : List (List Char) :=
  (text.splitOn sep).filter (· ≠ [])

/-- A conversion stores its number, and goes on if it has consumed the whole
text. -/
def converted {α : Type} (number : α × List Char) (store : α → IoData) : Except IoData IoData :=
  if number.2 = [] then .ok (store number.1) else .error (store number.1)

def convertBus (parts : IoData) (text : List Char) : Except IoData IoData :=
  converted (strtol text 10) fun n => { parts with idxBus := toIdx n }

def convertDev (parts : IoData) (text : List Char) : Except IoData IoData :=
  converted (strtol text 10) fun n => { parts with idxDev := toIdx n }

def convertSubDev (parts : IoData) (text : List Char) : Except IoData IoData :=
  converted (strtol text 10) fun n => { parts with idxSubDev := toIdx n }

def convertValue (parts : IoData) (text : List Char) : Except IoData IoData :=
  converted (strtoul text 16) fun n => { parts with value := toValue n }

/-- A conversion of a text that need not be there. -/
def ifPresent (text : Option (List Char)) (convert : IoData → List Char → Except IoData IoData)
    (parts : IoData) : Except IoData IoData :=
  match text with
  | none => .ok parts
  | some text => convert parts text

/-- The conversions of one component. -/
def convertStage (stage : UriStage) (parts : IoData) (tok : List Char) : Except IoData IoData :=
  match stage with
  | .bus => convertBus parts tok
  | .dev => do
      let parts ← ifPresent (pieces '.' tok)[0]? convertDev parts
      ifPresent (pieces '.' tok)[1]? convertSubDev parts
  | .value => convertValue parts tok

theorem pieces_eq_tokens (sep : Char) (text : List Char) :
    pieces sep text = tokens [sep] text true := by
  simp [pieces, tokens, List.splitOn, beq_eq_decide]

/-- `strtok_r` has returned into a buffer whose remaining tokens are `toks`, in a
text that ends at `bound`. -/
inductive Ready (delim : List Char) (closed : Bool) (bound : Nat) (s : List Char) :
    Option Nat × Nat → List (List Char) → Prop where
  | done {saveptr : Nat} (hclosed : closed = true) :
      Ready delim closed bound s (none, saveptr) []
  | token {i saveptr : Nat} {tok rest : List Char} (hne : tok ≠ [])
      (reads : Reads s i tok true) (saved : Reads s saveptr rest closed)
      (order : i + tok.length ≤ saveptr) (extent : saveptr + rest.length = bound) :
      Ready delim closed bound s (some i, saveptr) (tok :: tokens delim rest closed)

section Run

variable {s : List Char} {delim text tok : List Char} {start i : Nat} {closed : Bool}

/-- Nothing has changed from index `bound` on. -/
def Unchanged (bound : Nat) (s t : List Char) : Prop :=
  ∀ j, bound ≤ j → t.drop j = s.drop j

theorem Unchanged.reads {bound : Nat} {t : List Char} (h : Unchanged bound s t)
    (hle : bound ≤ start) (hreads : Reads s start text closed) : Reads t start text closed := by
  obtain ⟨hnul, tail, hdrop, hend⟩ := hreads
  exact ⟨hnul, tail, (h start hle).trans hdrop, hend⟩

theorem Unchanged.trans {bound bound' : Nat} {t u : List Char} (h : Unchanged bound s t)
    (h' : Unchanged bound' t u) (hle : bound' ≤ bound) : Unchanged bound s u :=
  fun j hj => (h' j (Nat.le_trans hle hj)).trans (h j hj)

theorem strtok_of_none (h : strtokR delim s start = none) :
    strtok delim start s = .error .outOfBounds s := by
  unfold strtok
  rw [bind_of_ok (run_get s), h]
  rfl

theorem strtok_of_some {r : Tokenized} (h : strtokR delim s start = some r) :
    strtok delim start s = .ok (r.token, r.saveptr) r.buf := by
  unfold strtok
  rw [bind_of_ok (run_get s), h]
  rfl

theorem strtok_run (hdelim : nul ∉ delim) (h : Reads s start text closed) :
    (closed = false ∧ tokens delim text closed = [] ∧
      strtok delim start s = .error .outOfBounds s) ∨
    ∃ next t, strtok delim start s = .ok next t ∧
      Ready delim closed (start + text.length) t next (tokens delim text closed) ∧
      Unchanged (start + text.length) s t := by
  cases htoks : tokens delim text closed with
  | nil =>
      cases closed with
      | false => exact .inl ⟨rfl, rfl, strtok_of_none (strtokR_overrun h htoks)⟩
      | true =>
          obtain ⟨saveptr, hend⟩ := strtokR_end hdelim h htoks
          exact .inr ⟨_, _, strtok_of_some hend, .done rfl, fun j _ => rfl⟩
  | cons tok more =>
      obtain ⟨r, i, rest, hr, hfound⟩ := strtokR_found hdelim h htoks
      have hne : tok ≠ [] := ne_nil_of_mem_tokens (htoks ▸ List.mem_cons_self)
      refine .inr ⟨_, _, strtok_of_some hr, ?_, hfound.frame⟩
      rw [hfound.token, ← hfound.more]
      exact .token hne hfound.reads hfound.saved hfound.order hfound.extent

/-- The end pointer of a number parser in a terminated text. -/
theorem checkEnd_append {rest : List Char} (hnul : nul ∉ rest) (junk : List Char) :
    checkEnd (rest ++ nul :: junk) s = .ok (if rest = [] then .ok else .error) s := by
  cases rest with
  | nil => rfl
  | cons c rest =>
      have hc : c ≠ nul := by
        rintro rfl
        exact hnul List.mem_cons_self
      simp [checkEnd, hc, run_pure]

theorem parseIdx_eq (h : Reads s i tok true) :
    parseIdx i s =
      .ok (if (strtol tok 10).2 = [] then .ok else .error, toIdx (strtol tok 10).1) s := by
  obtain ⟨junk, hdrop⟩ := h.closed_tail
  have hnul : nul ∉ (strtol tok 10).2 := by
    rw [strtol_endptr]
    exact fun hmem => h.nul_notMem ((endptr_suffix 10 tok).subset hmem)
  unfold parseIdx
  rw [bind_of_ok (run_get s), hdrop, strtol_append_ends ends_nul,
    bind_of_ok (checkEnd_append hnul junk)]
  rfl

theorem parseValue_eq (parts : IoData) (h : Reads s i tok true) :
    parseValue i parts s =
      .ok (if (strtoul tok 16).2 = [] then .ok else .error,
        { parts with value := toValue (strtoul tok 16).1 }) s := by
  obtain ⟨junk, hdrop⟩ := h.closed_tail
  have hnul : nul ∉ (strtoul tok 16).2 := by
    rw [strtoul_endptr]
    exact fun hmem => h.nul_notMem ((endptr_suffix 16 tok).subset hmem)
  unfold parseValue
  rw [bind_of_ok (run_get s), hdrop, strtoul_append_ends ends_nul,
    bind_of_ok (checkEnd_append hnul junk)]
  rfl

/-- The program stores what the conversion does and reports its outcome; where it
goes on, the rest of the buffer is as before. -/
def Converts (m : UriM (IoSuccess × IoData)) (conversion : Except IoData IoData)
    (bound : Nat) (s : List Char) : Prop :=
  match conversion with
  | .error parts => ∃ t, m s = .ok (.error, parts) t
  | .ok parts => ∃ t, m s = .ok (.ok, parts) t ∧ Unchanged bound s t

theorem converts_of_run {α : Type} {m : UriM (IoSuccess × IoData)} {number : α × List Char}
    {store : α → IoData} {t : List Char} (hsame : Unchanged bound s t)
    (h : m s = .ok (if number.2 = [] then .ok else .error, store number.1) t) :
    Converts m (converted number store) bound s := by
  unfold converted
  by_cases hrest : number.2 = []
  · rw [if_pos hrest] at h ⊢
    exact ⟨t, h, hsame⟩
  · rw [if_neg hrest] at h ⊢
    exact ⟨t, h⟩

theorem parseBus_converts (parts : IoData) (h : Reads s i tok true) :
    Converts (parseBus i parts) (convertBus parts tok) (i + tok.length) s := by
  apply converts_of_run (t := s) (fun _ _ => rfl)
  unfold parseBus
  rw [bind_of_ok (parseIdx_eq h)]
  rfl

theorem parseValue_converts (parts : IoData) (h : Reads s i tok true) :
    Converts (parseValue i parts) (convertValue parts tok) (i + tok.length) s :=
  converts_of_run (fun _ _ => rfl) (parseValue_eq parts h)

theorem parseDev_converts (parts : IoData) (h : Reads s i tok true)
    (htoks : tokens devDelim tok true ≠ []) :
    Converts (parseDev i parts) (convertStage .dev parts tok) (i + tok.length) s := by
  have hdelim : nul ∉ devDelim := by decide
  rcases strtok_run hdelim h with ⟨hopen, -⟩ | ⟨next, t, hrun, hready, hsame⟩
  · cases hopen
  · unfold parseDev convertStage
    rw [pieces_eq_tokens, ← devDelim]
    generalize tokens devDelim tok true = toks at hready htoks
    cases hready with
    | done => exact absurd rfl htoks
    | @token j saveptr devTok rest hne reads saved order extent =>
        have hidx := parseIdx_eq reads
        simp only [List.getElem?_cons_zero, List.getElem?_cons_succ, ifPresent, convertDev,
          converted]
        by_cases hdev : (strtol devTok 10).2 = []
        · rw [if_pos hdev] at hidx ⊢
          rcases strtok_run hdelim saved with ⟨hopen, -⟩ | ⟨next', u, hrun', hready', hsame'⟩
          · cases hopen
          · have hkept : Unchanged (i + tok.length) s u := hsame.trans hsame' (by omega)
            generalize tokens devDelim rest true = more at hready'
            cases hready' with
            | done =>
                exact ⟨u, (bind_of_ok hrun).trans ((bind_of_ok hidx).trans (bind_of_ok hrun')),
                  hkept⟩
            | @token k _ subTok _ _ reads' _ _ _ =>
                change Converts _ (convertSubDev
                  { parts with idxDev := toIdx (strtol devTok 10).1 } subTok) _ _
                apply converts_of_run hkept
                exact (bind_of_ok hrun).trans ((bind_of_ok hidx).trans
                  ((bind_of_ok hrun').trans (bind_of_ok (parseIdx_eq reads'))))
        · rw [if_neg hdev] at hidx ⊢
          exact ⟨t, (bind_of_ok hrun).trans (bind_of_ok hidx)⟩

/-- A device component without a part is followed as a null pointer. -/
theorem parseDev_null (parts : IoData) (h : Reads s i tok true)
    (hnil : tokens devDelim tok true = []) : ∃ t, parseDev i parts s = .error .nullDeref t := by
  have hdelim : nul ∉ devDelim := by decide
  rcases strtok_run hdelim h with ⟨hopen, -⟩ | ⟨next, t, hrun, hready, -⟩
  · cases hopen
  · rw [hnil] at hready
    cases hready with
    | done => exact ⟨t, bind_of_ok hrun⟩

theorem parseStage_converts (stage : UriStage) (parts : IoData) (h : Reads s i tok true)
    (htoks : stage = .dev → tokens devDelim tok true ≠ []) :
    Converts (parseStage stage i parts) (convertStage stage parts tok) (i + tok.length) s := by
  cases stage with
  | bus => exact parseBus_converts parts h
  | dev => exact parseDev_converts parts h (htoks rfl)
  | value => exact parseValue_converts parts h

end Run

end Switcher
