import Switcher.Http.Conversions

/-!
`parse_uri` read as a function of the components of the URI, without buffer and
pointers: the tokens of both levels, the numbers they spell, and what the 32-bit
fields keep of them. `parseUri_agrees` connects it to the code.
-/

namespace Switcher

open Lib.Program Lib.Numeral Lib.Text

/-- What a number becomes on its way through `strtol` into an `idx_t`. -/
def keptIdx (z : Int) : Int := toIdx (max longMin (min z longMax))

/-- What a number becomes on its way through `strtoul` into a `value_t`. -/
def keptValue (z : Int) : Value :=
  toValue (if ulongMax < z.natAbs then ulongMax else (z % 2 ^ 64).toNat)

/-- The number fits an `idx_t`. -/
def FitsIdx (z : Int) : Prop := -2 ^ 31 ≤ z ∧ z < 2 ^ 31

/-- The number fits a `value_t`. -/
def FitsValue (z : Int) : Prop := 0 ≤ z ∧ z < 2 ^ 32

theorem keptIdx_of_fits {z : Int} (h : FitsIdx z) : keptIdx z = z := by
  obtain ⟨hlow, hhigh⟩ := h
  have hclamp : max longMin (min z longMax) = z := by
    simp only [longMin, longMax]
    omega
  rw [keptIdx, hclamp, toIdx]
  apply Int.bmod_eq_of_le <;> omega

theorem keptValue_of_fits {z : Int} (h : FitsValue z) : ((keptValue z).toNat : Int) = z := by
  obtain ⟨hlow, hhigh⟩ := h
  have hfits : ¬ ulongMax < z.natAbs := by
    simp only [ulongMax]
    omega
  rw [keptValue, if_neg hfits, toValue, BitVec.toNat_ofNat]
  omega

/-- A component read: a fault, a rejection, or what it stores. -/
abbrev Reading := Except Fault (Option (IoData → IoData))

def readBus (tok : List Char) : Reading :=
  match readInt 10 tok with
  | none => .ok none
  | some bus => .ok (some fun parts => { parts with idxBus := keptIdx bus })

/-- The device number and the sub-device number, if there is one, that the dotted
parts of a device component spell. Further parts are not looked at. -/
def deviceNumbers : List (List Char) → Option (Int × Option Int)
  | [] => none
  | devTok :: more =>
      match readInt 10 devTok with
      | none => none
      | some dev =>
          match more with
          | [] => some (dev, none)
          | subTok :: _ =>
              match readInt 10 subTok with
              | none => none
              | some sub => some (dev, some sub)

def storeDev (numbers : Int × Option Int) (parts : IoData) : IoData :=
  { parts with
    idxDev := keptIdx numbers.1
    idxSubDev := numbers.2.elim parts.idxSubDev keptIdx }

def readDev (tok : List Char) : Reading :=
  match tokens devDelim tok true with
  | [] => .error .nullDeref
  | devTok :: more => .ok ((deviceNumbers (devTok :: more)).map storeDev)

def readValue (tok : List Char) : Reading :=
  match readInt 16 tok with
  | none => .ok none
  | some value => .ok (some fun parts => { parts with value := keptValue value })

def readStage (stage : UriStage) (tok : List Char) : Reading :=
  match stage with
  | .bus => readBus tok
  | .dev => readDev tok
  | .value => readValue tok

def readStages (closed : Bool) : List UriStage → List (List Char) → RequestT → IoData →
    Except Fault (RequestT × IoData)
  | _, [], result, parts => if closed then .ok (result, parts) else .error .outOfBounds
  | [], _ :: _, result, parts => .ok (result, parts)
  | stage :: stages, tok :: toks, result, parts =>
      match readStage stage tok with
      | .error e => .error e
      | .ok none => .ok (.err, parts)
      | .ok (some store) => readStages closed stages toks (stage.next result) (store parts)

/-- The URI ends within `buf_uri`. -/
def fitsBuf (uri : CString) : Bool := decide (uri.chars.length < bufLen)

/-- The components of the URI that `parse_uri` gets to see. -/
def components (uri : CString) : List (List Char) :=
  tokens uriDelim (uri.chars.take bufLen) (fitsBuf uri)

def readUri (uri : CString) : Except Fault (RequestT × IoData) :=
  readStages (fitsBuf uri) uriStages (components uri) .err initIoData

/-- Equal results, up to the parts of a rejected request. -/
def Agrees (code spec : Except Fault (RequestT × IoData)) : Prop :=
  match spec with
  | .ok (.err, _) => ∃ parts, code = .ok (.err, parts)
  | other => code = other

section Readings

variable {tok : List Char}

/-- A conversion stores what the reading of its component says. -/
def Reading.Stores (reading : Reading) (parts : IoData) (conversion : Except IoData IoData) :
    Prop :=
  match reading with
  | .error _ => False
  | .ok none => ∃ parts', conversion = .error parts'
  | .ok (some store) => conversion = .ok (store parts)

/-- The conversion of an index consumes a numeral, and leaves something of any
other text. -/
theorem converted_idx (hne : tok ≠ []) (store : Int → IoData) :
    converted (strtol tok 10) (fun n => store (toIdx n)) =
      match readInt 10 tok with
      | none => .error (store (toIdx (strtol tok 10).1))
      | some z => .ok (store (keptIdx z)) := by
  cases hread : readInt 10 tok with
  | none =>
      have hrest := endptr_of_not hread hne
      rw [← strtol_endptr] at hrest
      exact if_neg hrest
  | some z =>
      rw [strtol_of_readInt hread]
      rfl

theorem readBus_stores (parts : IoData) (hne : tok ≠ []) :
    (readBus tok).Stores parts (convertBus parts tok) := by
  rw [convertBus, converted_idx hne fun idx => { parts with idxBus := idx }, readBus]
  cases readInt 10 tok with
  | none => exact ⟨_, rfl⟩
  | some z => rfl

theorem readValue_stores (parts : IoData) (hne : tok ≠ []) :
    (readValue tok).Stores parts (convertValue parts tok) := by
  rw [convertValue, readValue]
  cases hread : readInt 16 tok with
  | none =>
      have hrest := endptr_of_not hread hne
      rw [← strtoul_endptr] at hrest
      exact ⟨_, if_neg hrest⟩
  | some z =>
      rw [strtoul_of_readInt hread]
      rfl

theorem readDev_stores (parts : IoData) (htoks : tokens devDelim tok true ≠ []) :
    (readDev tok).Stores parts (convertStage .dev parts tok) := by
  have hpart : ∀ part ∈ tokens devDelim tok true, part ≠ [] := fun _ => ne_nil_of_mem_tokens
  rw [convertStage, readDev, pieces_eq_tokens, ← devDelim]
  generalize tokens devDelim tok true = toks at htoks hpart
  rcases toks with _ | ⟨devTok, more⟩
  · exact absurd rfl htoks
  · have hdev : convertDev parts devTok = _ :=
      converted_idx (hpart devTok (by simp)) fun idx => { parts with idxDev := idx }
    simp only [List.getElem?_cons_zero, List.getElem?_cons_succ, ifPresent, hdev, deviceNumbers]
    cases readInt 10 devTok with
    | none => exact ⟨_, rfl⟩
    | some dev =>
        rcases more with _ | ⟨subTok, more⟩
        · rfl
        · have hsub : convertSubDev { parts with idxDev := keptIdx dev } subTok = _ :=
            converted_idx (hpart subTok (by simp)) fun idx =>
              { parts with idxDev := keptIdx dev, idxSubDev := idx }
          simp only [List.getElem?_cons_zero]
          cases hread : readInt 10 subTok with
          | none =>
              rw [hread] at hsub
              exact ⟨_, hsub⟩
          | some sub =>
              rw [hread] at hsub
              exact hsub

/-- A component parser does what the reading of its token says, and changes the
buffer within the token only. -/
def Implements (m : UriM (IoSuccess × IoData)) (reading : Reading) (parts : IoData)
    (s : List Char) (bound : Nat) : Prop :=
  match reading with
  | .error e => ∃ t, m s = .error e t
  | .ok none => ∃ parts' t, m s = .ok (.error, parts') t
  | .ok (some store) => ∃ t, m s = .ok (.ok, store parts) t ∧ Unchanged bound s t

theorem implements_of_converts {m : UriM (IoSuccess × IoData)} {reading : Reading}
    {parts : IoData} {conversion : Except IoData IoData} {s : List Char} {bound : Nat}
    (hstores : reading.Stores parts conversion) (h : Converts m conversion bound s) :
    Implements m reading parts s bound := by
  cases reading with
  | error e => exact hstores.elim
  | ok stored =>
      cases stored with
      | none =>
          obtain ⟨parts', rfl⟩ := hstores
          exact ⟨parts', h⟩
      | some store =>
          obtain rfl := hstores
          exact h

theorem parseStage_run {s : List Char} {i : Nat} (stage : UriStage) (parts : IoData)
    (hne : tok ≠ []) (h : Reads s i tok true) :
    Implements (parseStage stage i parts) (readStage stage tok) parts s (i + tok.length) := by
  cases stage with
  | bus => exact implements_of_converts (readBus_stores parts hne) (parseBus_converts parts h)
  | dev =>
      by_cases htoks : tokens devDelim tok true = []
      · have hnull := parseDev_null parts h htoks
        unfold readStage readDev
        rw [htoks]
        exact hnull
      · exact implements_of_converts (readDev_stores parts htoks)
          (parseDev_converts parts h htoks)
  | value =>
      exact implements_of_converts (readValue_stores parts hne) (parseValue_converts parts h)

end Readings

theorem outcome_of_ok {α : Type} {m : UriM α} {s t : List Char} {a : α} (h : m s = .ok a t) :
    outcome m s = .ok a := by
  simp [outcome, h]

theorem outcome_of_error {α : Type} {m : UriM α} {s t : List Char} {e : Fault}
    (h : m s = .error e t) : outcome m s = .error e := by
  simp [outcome, h]

theorem agrees_refl (code : Except Fault (RequestT × IoData)) : Agrees code code := by
  rcases code with e | ⟨type, parts⟩
  · rfl
  · cases type with
    | err => exact ⟨parts, rfl⟩
    | get => rfl
    | set => rfl

/-- The loop from `strtok_r` on, if it is right from a token on. -/
theorem nextStages_agrees {closed : Bool} {stages : List UriStage} {result : RequestT}
    {parts : IoData} {s text : List Char} {start : Nat} (h : Reads s start text closed)
    (hloop : ∀ {t : List Char} {next : Option Nat × Nat} {toks : List (List Char)} {bound : Nat},
      Ready uriDelim closed bound t next toks →
      Agrees (outcome (parseStages stages next result parts) t)
        (readStages closed stages toks result parts)) :
    Agrees (outcome (do
        let next ← strtok uriDelim start
        parseStages stages next result parts) s)
      (readStages closed stages (tokens uriDelim text closed) result parts) := by
  have hdelim : nul ∉ uriDelim := by decide
  rcases strtok_run hdelim h with ⟨rfl, hnone, hrun⟩ | ⟨next, t, hrun, hready, -⟩
  · rw [hnone, outcome_of_error (bind_of_error hrun)]
    cases stages <;> rfl
  · have hsame : outcome (do
        let next ← strtok uriDelim start
        parseStages stages next result parts) s =
        outcome (parseStages stages next result parts) t := by
      simp only [outcome, bind_of_ok hrun]
    rw [hsame]
    exact hloop hready

theorem parseStages_agrees (closed : Bool) (stages : List UriStage) :
    ∀ {s : List Char} {next : Option Nat × Nat} {toks : List (List Char)} {bound : Nat}
      (result : RequestT) (parts : IoData), Ready uriDelim closed bound s next toks →
      Agrees (outcome (parseStages stages next result parts) s)
        (readStages closed stages toks result parts) := by
  have hdelim : nul ∉ uriDelim := by decide
  induction stages with
  | nil =>
      intro s next toks bound result parts hready
      cases hready with
      | done hclosed =>
          subst hclosed
          exact agrees_refl _
      | token => exact agrees_refl _
  | cons stage stages ih =>
      intro s next toks bound result parts hready
      cases hready with
      | done hclosed =>
          subst hclosed
          exact agrees_refl _
      | @token i saveptr tok rest hne reads saved order extent =>
          have hstage := parseStage_run stage parts hne reads
          unfold readStages
          cases hread : readStage stage tok with
          | error e =>
              rw [hread] at hstage
              obtain ⟨t, hrun⟩ := hstage
              exact outcome_of_error (bind_of_error hrun)
          | ok reading =>
              rw [hread] at hstage
              cases reading with
              | none =>
                  obtain ⟨parts', t, hrun⟩ := hstage
                  exact ⟨parts', outcome_of_ok (bind_of_ok hrun)⟩
              | some store =>
                  obtain ⟨t, hrun, hsame⟩ := hstage
                  have hloop := nextStages_agrees (hsame.reads order saved)
                    (ih (stage.next result) (store parts))
                  have hrest : outcome (parseStages (stage :: stages) (some i, saveptr) result
                      parts) s = outcome (do
                        let next ← strtok uriDelim saveptr
                        parseStages stages next (stage.next result) (store parts)) t := by
                    simp only [outcome, parseStages, bind_of_ok hrun]
                  rw [hrest]
                  exact hloop

/-- The copy of the URI, as the tokenizer finds it. -/
theorem strncpy_reads (uri : CString) :
    Reads (strncpy uri bufLen) 0 (uri.chars.take bufLen) (fitsBuf uri) := by
  have hnul : nul ∉ uri.chars.take bufLen := fun h => uri.nul_notMem (List.mem_of_mem_take h)
  by_cases hfits : uri.chars.length < bufLen
  · obtain ⟨n, hn⟩ : ∃ n, bufLen - uri.chars.length = n + 1 := ⟨_, (Nat.succ_pred (by omega)).symm⟩
    refine ⟨hnul, List.replicate (n + 1) nul, ?_, ?_⟩
    · rw [List.drop_zero, strncpy, List.take_append, List.take_replicate, hn]
      congr 2
      omega
    · simp only [fitsBuf, decide_eq_true hfits, if_true]
      exact ⟨List.replicate n nul, rfl⟩
  · refine ⟨hnul, [], ?_, by simp [fitsBuf, hfits]⟩
    rw [List.drop_zero, strncpy, List.append_nil, List.take_append_of_le_length (by omega)]

/-- The code computes the reading of the components. -/
theorem parseUri_agrees (uri : CString) : Agrees (parseUri uri) (readUri uri) :=
  nextStages_agrees (strncpy_reads uri) (parseStages_agrees (fitsBuf uri) uriStages .err initIoData)

theorem agrees_accepted {code : Except Fault (RequestT × IoData)} {type : RequestT}
    {parts : IoData} (h : Agrees code (.ok (type, parts))) (htype : type ≠ .err) :
    code = .ok (type, parts) := by
  cases type with
  | err => exact absurd rfl htype
  | get => exact h
  | set => exact h

theorem components_of_fits {uri : CString} (h : uri.chars.length < bufLen) :
    fitsBuf uri = true ∧ components uri = tokens uriDelim uri.chars true := by
  have hfits : fitsBuf uri = true := decide_eq_true h
  refine ⟨hfits, ?_⟩
  rw [components, hfits, List.take_of_length_le (Nat.le_of_lt h)]

section Accepted

variable {uri : CString} {busTok devTok valueTok : List Char} {bus value : Int}
  {store : IoData → IoData}

/-- Two good components are a `GET`. -/
theorem parseUri_get (hfits : fitsBuf uri = true) (hcomps : components uri = [busTok, devTok])
    (hbus : readInt 10 busTok = some bus) (hdev : readDev devTok = .ok (some store)) :
    parseUri uri = .ok (.get, store { initIoData with idxBus := keptIdx bus }) := by
  refine agrees_accepted ?_ (by decide)
  have hread : readUri uri = .ok (.get, store { initIoData with idxBus := keptIdx bus }) := by
    simp [readUri, hfits, hcomps, uriStages, readStages, readStage, readBus, hbus, hdev,
      UriStage.next]
  exact hread ▸ parseUri_agrees uri

/-- Three good components are a `SET`. -/
theorem parseUri_set (hfits : fitsBuf uri = true)
    (hcomps : components uri = [busTok, devTok, valueTok])
    (hbus : readInt 10 busTok = some bus) (hdev : readDev devTok = .ok (some store))
    (hvalue : readInt 16 valueTok = some value) :
    parseUri uri = .ok (.set,
      { store { initIoData with idxBus := keptIdx bus } with value := keptValue value }) := by
  refine agrees_accepted ?_ (by decide)
  have hread : readUri uri = .ok (.set,
      { store { initIoData with idxBus := keptIdx bus } with value := keptValue value }) := by
    simp [readUri, hfits, hcomps, uriStages, readStages, readStage, readBus, readValue, hbus,
      hdev, hvalue, UriStage.next]
  exact hread ▸ parseUri_agrees uri

end Accepted

end Switcher
