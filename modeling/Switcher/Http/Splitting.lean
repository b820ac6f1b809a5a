import Switcher.Http.Components

/-!
`parse_uri` as splitting without a buffer: the URI is split into its components,
the second component into its parts, and the conversions are made one after the
other until one leaves something of its text.
-/

namespace Switcher

open Lib.Program Lib.Numeral Lib.Text

/-- The conversions of the components `c1`, `c2` with its parts, and `c3`. -/
def convertComponents (comps : List (List Char)) : Except IoData IoData := do
  let devParts := pieces '.' (comps[1]?.getD [])
  let parts ← ifPresent comps[0]? convertBus initIoData
  let parts ← ifPresent devParts[0]? convertDev parts
  let parts ← ifPresent devParts[1]? convertSubDev parts
  ifPresent comps[2]? convertValue parts

def requestOfCount (n : Nat) : RequestT :=
  if n < 2 then .err else if n = 2 then .get else .set

/-- The request type and the data that splitting the URI gives. -/
def splitUri (uri : CString) : RequestT × IoData :=
  let comps := pieces '/' uri.chars
  match convertComponents comps with
  | .error parts => (.err, parts)
  | .ok parts => (requestOfCount comps.length, parts)

section Stages

def convertStages : List UriStage → List (List Char) → RequestT → IoData → RequestT × IoData
  | stage :: stages, tok :: toks, result, parts =>
      match convertStage stage parts tok with
      | .error parts => (.err, parts)
      | .ok parts => convertStages stages toks (stage.next result) parts
  | _, _, result, parts => (result, parts)

theorem convertComponents_eq (comps : List (List Char)) :
    convertComponents comps = (do
      let parts ← ifPresent comps[0]? (convertStage .bus) initIoData
      let parts ← ifPresent comps[1]? (convertStage .dev) parts
      ifPresent comps[2]? (convertStage .value) parts) := by
  unfold convertComponents
  cases comps[1]? with
  | none => rfl
  | some c2 => simp [ifPresent, convertStage]

/-- Stage by stage is component by component. -/
theorem convertStages_eq_splitUri (uri : CString) :
    convertStages uriStages (pieces '/' uri.chars) .err initIoData = splitUri uri := by
  unfold splitUri uriStages
  generalize pieces '/' uri.chars = comps
  simp only [convertComponents_eq]
  rcases comps with _ | ⟨c1, rest⟩
  · rfl
  · cases hbus : convertStage .bus initIoData c1 with
    | error parts => simp [convertStages, ifPresent, hbus, bind, Except.bind]
    | ok parts =>
        rcases rest with _ | ⟨c2, rest⟩
        · simp [convertStages, ifPresent, hbus, bind, Except.bind, requestOfCount, UriStage.next]
        · cases hdev : convertStage .dev parts c2 with
          | error parts' => simp [convertStages, ifPresent, hbus, hdev, bind, Except.bind]
          | ok parts' =>
              rcases rest with _ | ⟨c3, rest⟩
              · simp [convertStages, ifPresent, hbus, hdev, bind, Except.bind, requestOfCount,
                  UriStage.next]
              · cases hvalue : convertStage .value parts' c3 with
                | error parts'' =>
                    simp [convertStages, ifPresent, hbus, hdev, hvalue, bind, Except.bind]
                | ok parts'' =>
                    simp [convertStages, ifPresent, hbus, hdev, hvalue, bind, Except.bind,
                      requestOfCount, UriStage.next]

end Stages

/-- The loop over the stages makes the conversions of its tokens. -/
theorem parseStages_converts (stages : List UriStage) :
    ∀ {s : List Char} {next : Option Nat × Nat} {toks : List (List Char)} {bound : Nat}
      (result : RequestT) (parts : IoData), Ready uriDelim true bound s next toks →
      (∀ tok, (UriStage.dev, tok) ∈ stages.zip toks → tokens devDelim tok true ≠ []) →
      outcome (parseStages stages next result parts) s =
        .ok (convertStages stages toks result parts) := by
  have hdelim : nul ∉ uriDelim := by decide
  induction stages with
  | nil => exact fun _ _ _ _ => rfl
  | cons stage stages ih =>
      intro s next toks bound result parts hready hpart
      cases hready with
      | done => rfl
      | @token i saveptr tok rest hne reads saved order extent =>
          have hstage := parseStage_converts stage parts reads fun hdev =>
            hpart tok (by simp [hdev])
          unfold convertStages
          cases hconv : convertStage stage parts tok with
          | error parts' =>
              rw [hconv] at hstage
              obtain ⟨t, hrun⟩ := hstage
              exact outcome_of_ok (bind_of_ok hrun)
          | ok parts' =>
              rw [hconv] at hstage
              obtain ⟨t, hrun, hsame⟩ := hstage
              rcases strtok_run hdelim (hsame.reads order saved) with
                ⟨hopen, -⟩ | ⟨next', u, hrun', hready', -⟩
              · cases hopen
              · have hloop := ih (stage.next result) parts' hready' fun tok' hmem =>
                  hpart tok' (List.mem_cons_of_mem _ hmem)
                rw [← hloop]
                simp only [outcome, parseStages, bind_of_ok hrun, bind_of_ok hrun']

theorem parseUri_eq_convertStages {uri : CString} (h : uri.chars.length < bufLen)
    (hpart : ∀ c2, (pieces '/' uri.chars)[1]? = some c2 → ∃ c ∈ c2, c ≠ '.') :
    parseUri uri = .ok (convertStages uriStages (pieces '/' uri.chars) .err initIoData) := by
  have hdelim : nul ∉ uriDelim := by decide
  have hreads := strncpy_reads uri
  obtain ⟨hfits, -⟩ := components_of_fits h
  rw [hfits, List.take_of_length_le (Nat.le_of_lt h)] at hreads
  rw [pieces_eq_tokens, ← uriDelim] at hpart ⊢
  rcases strtok_run hdelim hreads with ⟨hopen, -⟩ | ⟨next, t, hrun, hready, -⟩
  · cases hopen
  · rw [← parseStages_converts uriStages .err initIoData hready]
    · simp only [parseUri, parseBuf, outcome, bind_of_ok hrun]
    · intro tok hmem hnil
      have hdots := tokens_eq_nil_iff.mp hnil
      obtain ⟨c, hc, hne⟩ : ∃ c ∈ tok, c ≠ '.' := by
        apply hpart
        generalize tokens uriDelim uri.chars true = toks at hmem
        rcases toks with _ | ⟨c1, _ | ⟨c2, _ | ⟨c3, toks⟩⟩⟩ <;> simp_all [uriStages]
      exact hne (List.mem_singleton.mp (hdots c hc))

/-- Parsing in place is splitting: where the device component has a part, the
nested tokens give the request that the pure pieces give. -/
theorem parseUri_eq_splitUri {uri : CString} (h : uri.chars.length < bufLen)
    (hpart : ∀ c2, (pieces '/' uri.chars)[1]? = some c2 → ∃ c ∈ c2, c ≠ '.') :
    parseUri uri = .ok (splitUri uri) := by
  rw [parseUri_eq_convertStages h hpart, convertStages_eq_splitUri]

/-- Repeated and leading delimiters on both levels. -/
theorem parseUri_eq_splitUri_nested :
    parseUri ⟨"//0/.1..2./1f".toList, by decide⟩ =
      .ok (splitUri ⟨"//0/.1..2./1f".toList, by decide⟩) := by
  apply parseUri_eq_splitUri (by decide)
  intro c2 hc2
  have hsecond : (pieces '/' "//0/.1..2./1f".toList)[1]? = some ".1..2.".toList := by
    decide +kernel
  obtain rfl := Option.some.inj (hc2.symm.trans hsecond)
  exact ⟨'1', by decide, by decide⟩

end Switcher
