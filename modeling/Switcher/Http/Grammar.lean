import Switcher.Http.Components
import Switcher.Http.Handler

/-!
The grammar of request URIs, and where `parse_uri` departs from it. The code
looks at three components and at two parts of the device component; what comes
behind them is ignored, not rejected.
-/

namespace Switcher

open Lib.Program Lib.Numeral Lib.Text

/-- The numbers that the components of an accepted URI spell. -/
structure Spelled where
  bus : Int
  dev : Int
  subDev : Option Int
  value : Option Int
  deriving DecidableEq, Repr

def valueNumber : List (List Char) → Option (Option Int)
  | [] => some none
  | valueTok :: _ =>
      match readInt 16 valueTok with
      | none => none
      | some value => some (some value)

def deviceParts (devTok : List Char) : List (List Char) := tokens devDelim devTok true

def spelled : List (List Char) → Option Spelled
  | busTok :: devTok :: more =>
      match readInt 10 busTok, deviceNumbers (deviceParts devTok), valueNumber more with
      | some bus, some (dev, subDev), some value => some ⟨bus, dev, subDev, value⟩
      | _, _, _ => none
  | _ => none

def Spelled.type (w : Spelled) : RequestT := if w.value.isSome then .set else .get

/-- The request that the code makes of the numbers. -/
def Spelled.kept (w : Spelled) : IoData :=
  ⟨keptIdx w.bus, keptIdx w.dev, w.subDev.elim idxInvalid keptIdx, w.value.elim 0 keptValue⟩

/-- The tokenizer finds the end of the last component it is asked for within the
buffer. -/
def Complete (closed : Bool) (comps : List (List Char)) : Prop :=
  closed = true ∨ 4 ≤ comps.length

/-- The components give the code a reason to answer `REQUEST_ERR`: too few of
them, or a bus, device, sub-device or value that is no number. -/
def Rejects (closed : Bool) : List (List Char) → Prop
  | [] => closed = true
  | [busTok] => readInt 10 busTok = none ∨ closed = true
  | busTok :: devTok :: more =>
      readInt 10 busTok = none ∨ deviceParts devTok ≠ [] ∧
        (deviceNumbers (deviceParts devTok) = none ∨ valueNumber more = none)

theorem Spelled.type_ne_err (w : Spelled) : w.type ≠ .err := by
  unfold Spelled.type
  split <;> simp

/-- The components are rejected, or accepted with the numbers they spell, or the
code runs into a fault. -/
def Outcome (closed : Bool) (comps : List (List Char)) : Prop :=
  (Rejects closed comps ∧ ∃ parts,
      readStages closed uriStages comps .err initIoData = .ok (.err, parts)) ∨
    (∃ w, spelled comps = some w ∧ Complete closed comps ∧
      readStages closed uriStages comps .err initIoData = .ok (w.type, w.kept)) ∨
    (¬ Rejects closed comps ∧ (spelled comps = none ∨ ¬ Complete closed comps) ∧
      ∃ e, readStages closed uriStages comps .err initIoData = .error e)

/-- The outcomes behind a good bus and device component. -/
theorem readTail_outcome (closed : Bool) {busTok devTok : List Char} (more : List (List Char))
    {bus : Int} {numbers : Int × Option Int} {part : List Char} {parts : List (List Char)}
    (hbus : readInt 10 busTok = some bus) (hparts : deviceParts devTok = part :: parts)
    (hnumbers : deviceNumbers (deviceParts devTok) = some numbers)
    (hread : readDev devTok = .ok (some (storeDev numbers))) :
    Outcome closed (busTok :: devTok :: more) := by
  obtain ⟨dev, subDev⟩ := numbers
  rcases more with _ | ⟨valueTok, rest⟩
  · have hrun : readStages closed uriStages [busTok, devTok] .err initIoData =
        if closed then
          .ok (.get, storeDev (dev, subDev) { initIoData with idxBus := keptIdx bus })
        else .error .outOfBounds := by
      simp [uriStages, readStages, readStage, readBus, hbus, hread, UriStage.next]
    cases closed with
    | true =>
        refine .inr (.inl ⟨⟨bus, dev, subDev, none⟩, ?_, .inl rfl, hrun⟩)
        simp [spelled, hbus, hnumbers, valueNumber]
    | false =>
        refine .inr (.inr ⟨?_, .inr (by simp [Complete]), _, hrun⟩)
        simp [Rejects, hbus, hnumbers, valueNumber]
  · cases hvalue : readInt 16 valueTok with
    | none =>
        refine .inl ⟨.inr ⟨by simp [hparts], .inr (by simp [valueNumber, hvalue])⟩,
          storeDev (dev, subDev) { initIoData with idxBus := keptIdx bus }, ?_⟩
        simp [uriStages, readStages, readStage, readBus, readValue, hbus, hread, hvalue]
    | some value =>
        have hspelled : spelled (busTok :: devTok :: valueTok :: rest) =
            some ⟨bus, dev, subDev, some value⟩ := by
          simp [spelled, hbus, hnumbers, valueNumber, hvalue]
        have hrun : readStages closed uriStages (busTok :: devTok :: valueTok :: rest) .err
            initIoData = readStages closed [] rest .set
              { storeDev (dev, subDev) { initIoData with idxBus := keptIdx bus } with
                value := keptValue value } := by
          simp [uriStages, readStages, readStage, readBus, readValue, hbus, hread, hvalue,
            UriStage.next]
        rcases rest with _ | ⟨_, _⟩
        · cases closed with
          | true => exact .inr (.inl ⟨_, hspelled, .inl rfl, hrun⟩)
          | false =>
              refine .inr (.inr ⟨?_, .inr (by simp [Complete]), _, hrun⟩)
              simp [Rejects, hbus, hnumbers, valueNumber, hvalue]
        · exact .inr (.inl ⟨_, hspelled, .inr (by simp), hrun⟩)

theorem readStages_outcome (closed : Bool) (comps : List (List Char)) :
    Outcome closed comps := by
  rcases comps with _ | ⟨busTok, _ | ⟨devTok, more⟩⟩
  · cases closed with
    | true => exact .inl ⟨rfl, _, rfl⟩
    | false => exact .inr (.inr ⟨by simp [Rejects], .inl rfl, _, rfl⟩)
  · cases hbus : readInt 10 busTok with
    | none =>
        exact .inl ⟨.inl hbus, initIoData, by
          simp [uriStages, readStages, readStage, readBus, hbus]⟩
    | some bus =>
        have hrun : readStages closed uriStages [busTok] .err initIoData =
            if closed then .ok (.err, { initIoData with idxBus := keptIdx bus })
            else .error .outOfBounds := by
          simp [uriStages, readStages, readStage, readBus, hbus, UriStage.next]
        cases closed with
        | true => exact .inl ⟨.inr rfl, _, hrun⟩
        | false => exact .inr (.inr ⟨by simp [Rejects, hbus], .inl rfl, _, hrun⟩)
  · cases hbus : readInt 10 busTok with
    | none =>
        exact .inl ⟨.inl hbus, initIoData, by
          simp [uriStages, readStages, readStage, readBus, hbus]⟩
    | some bus =>
        cases hparts : deviceParts devTok with
        | nil =>
            have hread : readDev devTok = .error .nullDeref := by
              rw [readDev, ← deviceParts, hparts]
            refine .inr (.inr ⟨by simp [Rejects, hbus, hparts], .inl ?_, .nullDeref, ?_⟩)
            · simp [spelled, hparts, deviceNumbers]
            · simp [uriStages, readStages, readStage, readBus, hbus, hread]
        | cons part parts =>
            have hread : readDev devTok =
                .ok ((deviceNumbers (deviceParts devTok)).map storeDev) := by
              rw [readDev, ← deviceParts, hparts]
            cases hnumbers : deviceNumbers (deviceParts devTok) with
            | none =>
                refine .inl ⟨.inr ⟨by simp [hparts], .inl hnumbers⟩,
                  { initIoData with idxBus := keptIdx bus }, ?_⟩
                simp [uriStages, readStages, readStage, readBus, hbus, hread, hnumbers]
            | some numbers =>
                rw [hnumbers, Option.map_some] at hread
                exact readTail_outcome closed more hbus hparts hnumbers hread

theorem spelled_eq_some {comps : List (List Char)} {w : Spelled} :
    spelled comps = some w ↔ ∃ busTok devTok more, comps = busTok :: devTok :: more ∧
      readInt 10 busTok = some w.bus ∧
      deviceNumbers (deviceParts devTok) = some (w.dev, w.subDev) ∧
      valueNumber more = some w.value := by
  constructor
  · intro h
    rcases comps with _ | ⟨busTok, _ | ⟨devTok, more⟩⟩
    · cases h
    · cases h
    · refine ⟨busTok, devTok, more, rfl, ?_⟩
      simp only [spelled] at h
      split at h
      · next hbus hnumbers hvalue =>
          obtain rfl := Option.some.inj h
          exact ⟨hbus, hnumbers, hvalue⟩
      · cases h
  · rintro ⟨busTok, devTok, more, rfl, hbus, hnumbers, hvalue⟩
    simp [spelled, hbus, hnumbers, hvalue]

theorem Rejects.spelled_eq_none {closed : Bool} {comps : List (List Char)}
    (h : Rejects closed comps) : spelled comps = none := by
  rcases comps with _ | ⟨busTok, _ | ⟨devTok, more⟩⟩
  · rfl
  · rfl
  · rcases h with hbus | ⟨-, hnumbers | hvalue⟩
    · simp [spelled, hbus]
    · simp [spelled, hnumbers]
    · simp [spelled, hvalue]

section Outcomes

variable {uri : CString}

theorem parseUri_of_rejects (h : Rejects (fitsBuf uri) (components uri)) :
    ∃ parts, parseUri uri = .ok (.err, parts) := by
  have hagrees := parseUri_agrees uri
  unfold readUri at hagrees
  rcases readStages_outcome (fitsBuf uri) (components uri) with
    ⟨-, parts, hrun⟩ | ⟨w, hw, -⟩ | ⟨hnot, -⟩
  · rw [hrun] at hagrees
    exact hagrees
  · rw [h.spelled_eq_none] at hw
    cases hw
  · exact absurd h hnot

theorem parseUri_of_spelled {w : Spelled} (hw : spelled (components uri) = some w)
    (hcomplete : Complete (fitsBuf uri) (components uri)) :
    parseUri uri = .ok (w.type, w.kept) := by
  have hagrees := parseUri_agrees uri
  unfold readUri at hagrees
  rcases readStages_outcome (fitsBuf uri) (components uri) with
    ⟨hrejects, -⟩ | ⟨w', hw', -, hrun⟩ | ⟨-, hnone | hincomplete, -⟩
  · rw [hrejects.spelled_eq_none] at hw
    cases hw
  · obtain rfl := Option.some.inj (hw.symm.trans hw')
    rw [hrun] at hagrees
    exact agrees_accepted hagrees w.type_ne_err
  · rw [hnone] at hw
    cases hw
  · exact absurd hcomplete hincomplete

theorem parseUri_eq_ok {type : RequestT} {parts : IoData}
    (h : parseUri uri = .ok (type, parts)) :
    type = .err ∧ Rejects (fitsBuf uri) (components uri) ∨
      ∃ w, spelled (components uri) = some w ∧ Complete (fitsBuf uri) (components uri) ∧
        type = w.type ∧ parts = w.kept := by
  have hagrees := parseUri_agrees uri
  unfold readUri at hagrees
  rcases readStages_outcome (fitsBuf uri) (components uri) with
    ⟨hrejects, parts', hrun⟩ | ⟨w, hw, hcomplete, -⟩ | ⟨-, -, e, hrun⟩
  · rw [hrun] at hagrees
    obtain ⟨parts'', hcode⟩ := hagrees
    obtain ⟨rfl, -⟩ := Prod.mk.inj (Except.ok.inj (h.symm.trans hcode))
    exact .inl ⟨rfl, hrejects⟩
  · have hcode := parseUri_of_spelled hw hcomplete
    obtain ⟨htype, hparts⟩ := Prod.mk.inj (Except.ok.inj (h.symm.trans hcode))
    exact .inr ⟨w, hw, hcomplete, htype, hparts⟩
  · rw [hrun] at hagrees
    cases h.symm.trans hagrees

/-- Exactly the components that give a reason to are answered with
`REQUEST_ERR`. -/
theorem parseUri_err_iff :
    (∃ parts, parseUri uri = .ok (.err, parts)) ↔
      Rejects (fitsBuf uri) (components uri) := by
  refine ⟨?_, parseUri_of_rejects⟩
  rintro ⟨parts, h⟩
  rcases parseUri_eq_ok h with ⟨-, hrejects⟩ | ⟨w, -, -, htype, -⟩
  · exact hrejects
  · exact absurd htype.symm w.type_ne_err

end Outcomes

/-- The non-empty components of the URI between slashes. -/
def uriComponents (uri : CString) : List (List Char) := tokens uriDelim uri.chars true

def Number (base : Nat) (tok : List Char) : Prop := (readInt base tok).isSome

/-- A number, or two with a dot between them. -/
def DeviceText (tok : List Char) : Prop :=
  ∃ dev, Number 10 dev ∧ (tok = dev ∨ ∃ subDev, Number 10 subDev ∧ tok = dev ++ '.' :: subDev)

def GetText (comps : List (List Char)) : Prop :=
  ∃ busTok devTok, comps = [busTok, devTok] ∧ Number 10 busTok ∧ DeviceText devTok

def SetText (comps : List (List Char)) : Prop :=
  ∃ busTok devTok valueTok, comps = [busTok, devTok, valueTok] ∧ Number 10 busTok ∧
    DeviceText devTok ∧ Number 16 valueTok

/-- `perform_io` is never called: the handler does the same whatever stands for it. -/
def NeverPerforms (uri : CString) : Prop :=
  ∀ (ω δ W : Type) (perform perform' : IoData → IoCmd → SysM ω δ (List Char) W (Int × IoData))
    (s : Sys ω δ (List Char) W), handleRequest perform uri s = handleRequest perform' uri s

def RefusesUri (uri : CString) : Prop :=
  (∃ parts, parseUri uri = .ok (.err, parts)) ∧ NeverPerforms uri

/-- Exactly the URIs of the grammar are accepted, and all others refused. -/
structure FollowsGrammar (uri : CString) : Prop where
  get : (∃ parts, parseUri uri = .ok (.get, parts)) ↔ GetText (uriComponents uri)
  set : (∃ parts, parseUri uri = .ok (.set, parts)) ↔ SetText (uriComponents uri)
  err : ¬ GetText (uriComponents uri) → ¬ SetText (uriComponents uri) → RefusesUri uri

/-- A number for the bus is followed by a device component of dots alone, or by
one whose first one or two parts are numbers while the component has more to it
than these, or by more than a good device component and a value. -/
def Misread : List (List Char) → Prop
  | busTok :: devTok :: more =>
      Number 10 busTok ∧ (deviceParts devTok = [] ∨
        (deviceNumbers (deviceParts devTok)).isSome ∧ (valueNumber more).isSome ∧
          (1 < more.length ∨ ¬ DeviceText devTok))
  | _ => False

/-- A refused URI is answered, or its line does not fit the log; nothing is performed
either way. -/
theorem refusesUri_of_err {uri : CString} {parts : IoData}
    (h : parseUri uri = .ok (.err, parts)) : RefusesUri uri := by
  refine ⟨⟨parts, h⟩, ?_⟩
  intro ω δ W perform perform' s
  by_cases hfits : (requestText uri parts .err).length < bufLen
  · rw [handleRequest_refused h hfits, handleRequest_refused h hfits]
  · rw [handleRequest_over h hfits, handleRequest_over h hfits]

theorem Number.plain {base : Nat} {tok : List Char} (h : Number base tok) :
    tok ≠ [] ∧ ∀ c ∈ tok, c ∉ devDelim := by
  constructor
  · rintro rfl
    simp [Number, readInt_nil] at h
  · intro c hc hdot
    obtain rfl := List.mem_singleton.mp hdot
    have hends : Ends '.' := by constructor <;> decide
    simp [Number, readInt_eq_none_of_mem hends hc] at h

/-- The numbers of a well-formed device component are those of its parts. -/
theorem DeviceText.numbers {devTok : List Char} (h : DeviceText devTok) :
    deviceParts devTok ≠ [] ∧ (deviceNumbers (deviceParts devTok)).isSome := by
  obtain ⟨dev, hdev, hshape⟩ := h
  obtain ⟨hne, hplain⟩ := hdev.plain
  obtain ⟨d, hd⟩ := Option.isSome_iff_exists.mp hdev
  rcases hshape with rfl | ⟨subDev, hsub, rfl⟩
  · have hparts : deviceParts devTok = [devTok] := by
      rw [deviceParts, tokens_last hne hplain, if_pos rfl]
    simp [hparts, deviceNumbers, hd]
  · obtain ⟨hne', hplain'⟩ := hsub.plain
    obtain ⟨i, hi⟩ := Option.isSome_iff_exists.mp hsub
    have hparts : deviceParts (dev ++ '.' :: subDev) = [dev, subDev] := by
      rw [deviceParts, tokens_token hne hplain (by decide), tokens_last hne' hplain', if_pos rfl]
    simp [hparts, deviceNumbers, hd, hi]

section Texts

variable {comps : List (List Char)} {closed : Bool}

theorem GetText.spelled (h : GetText comps) :
    ∃ w, Switcher.spelled comps = some w ∧ w.type = .get := by
  obtain ⟨busTok, devTok, rfl, hbus, hdev⟩ := h
  obtain ⟨bus, hbus'⟩ := Option.isSome_iff_exists.mp hbus
  obtain ⟨⟨dev, subDev⟩, hnumbers⟩ := Option.isSome_iff_exists.mp hdev.numbers.2
  exact ⟨⟨bus, dev, subDev, none⟩,
    spelled_eq_some.mpr ⟨busTok, devTok, [], rfl, hbus', hnumbers, rfl⟩, rfl⟩

theorem SetText.spelled (h : SetText comps) :
    ∃ w, Switcher.spelled comps = some w ∧ w.type = .set := by
  obtain ⟨busTok, devTok, valueTok, rfl, hbus, hdev, hvalue⟩ := h
  obtain ⟨bus, hbus'⟩ := Option.isSome_iff_exists.mp hbus
  obtain ⟨⟨dev, subDev⟩, hnumbers⟩ := Option.isSome_iff_exists.mp hdev.numbers.2
  obtain ⟨value, hvalue'⟩ := Option.isSome_iff_exists.mp hvalue
  exact ⟨⟨bus, dev, subDev, some value⟩, spelled_eq_some.mpr
    ⟨busTok, devTok, [valueTok], rfl, hbus', hnumbers, by simp [valueNumber, hvalue']⟩, rfl⟩

/-- Numbers that are not misread stand in a text of the grammar. -/
theorem text_of_spelled {w : Spelled} (hw : spelled comps = some w) (h : ¬ Misread comps) :
    w.type = .get ∧ GetText comps ∨ w.type = .set ∧ SetText comps := by
  obtain ⟨busTok, devTok, more, rfl, hbus, hnumbers, hvalue⟩ := spelled_eq_some.mp hw
  have hbus' : Number 10 busTok := by simp [Number, hbus]
  have hgood : ¬ (1 < more.length ∨ ¬ DeviceText devTok) := fun hbad =>
    h ⟨hbus', .inr ⟨by simp [hnumbers], by simp [hvalue], hbad⟩⟩
  obtain ⟨hshort, hdev⟩ := not_or.mp hgood
  rcases more with _ | ⟨valueTok, _ | ⟨surplus, rest⟩⟩
  · obtain hnone : none = w.value := Option.some.inj hvalue
    exact .inl ⟨by simp [Spelled.type, ← hnone], busTok, devTok, rfl, hbus', not_not.mp hdev⟩
  · cases hread : readInt 16 valueTok with
    | none => simp [valueNumber, hread] at hvalue
    | some value =>
        simp only [valueNumber, hread, Option.some.injEq] at hvalue
        exact .inr ⟨by simp [Spelled.type, ← hvalue], busTok, devTok, valueTok, rfl, hbus',
          not_not.mp hdev, by simp [Number, hread]⟩
  · simp at hshort

/-- What the code has no reason to reject spells a request, unless the device
component has no parts. -/
theorem spelled_or_blank (hnot : ¬ Rejects true comps) :
    (∃ w, spelled comps = some w) ∨
      ∃ busTok devTok more, comps = busTok :: devTok :: more ∧ Number 10 busTok ∧
        deviceParts devTok = [] := by
  rcases comps with _ | ⟨busTok, _ | ⟨devTok, more⟩⟩
  · simp [Rejects] at hnot
  · simp [Rejects] at hnot
  · obtain ⟨hbus, hdev⟩ := not_or.mp hnot
    obtain ⟨bus, hbus'⟩ := Option.ne_none_iff_exists'.mp hbus
    by_cases hparts : deviceParts devTok = []
    · exact .inr ⟨busTok, devTok, more, rfl, by simp [Number, hbus'], hparts⟩
    · obtain ⟨hnumbers, hvalue⟩ := not_or.mp fun hbad => hdev ⟨hparts, hbad⟩
      obtain ⟨⟨dev, subDev⟩, hnumbers'⟩ := Option.ne_none_iff_exists'.mp hnumbers
      obtain ⟨value, hvalue'⟩ := Option.ne_none_iff_exists'.mp hvalue
      exact .inl ⟨⟨bus, dev, subDev, value⟩, spelled_eq_some.mpr
        ⟨busTok, devTok, more, rfl, hbus', hnumbers', hvalue'⟩⟩

/-- Without a reason to reject and without a device component of dots, every
number is there. -/
theorem spelled_of_not_rejects (h : ¬ Misread comps) (hnot : ¬ Rejects true comps) :
    ∃ w, spelled comps = some w := by
  rcases spelled_or_blank hnot with hspelled | ⟨busTok, devTok, more, rfl, hbus, hblank⟩
  · exact hspelled
  · exact absurd ⟨hbus, .inl hblank⟩ h

theorem Misread.not_text (h : Misread comps) : ¬ GetText comps ∧ ¬ SetText comps := by
  constructor
  · rintro ⟨busTok, devTok, rfl, -, hdev⟩
    rcases h with ⟨-, hdots | ⟨-, -, hlong | hnot⟩⟩
    · exact hdev.numbers.1 hdots
    · simp at hlong
    · exact hnot hdev
  · rintro ⟨busTok, devTok, valueTok, rfl, -, hdev, -⟩
    rcases h with ⟨-, hdots | ⟨-, -, hlong | hnot⟩⟩
    · exact hdev.numbers.1 hdots
    · simp at hlong
    · exact hnot hdev

/-- What is misread gives the code no reason to reject it. -/
theorem Misread.not_rejects (h : Misread comps) : ¬ Rejects closed comps := by
  rcases comps with _ | ⟨busTok, _ | ⟨devTok, more⟩⟩
  · exact False.elim h
  · exact False.elim h
  · obtain ⟨hbus, hdev⟩ := h
    rintro (hbad | ⟨hparts, hbad⟩)
    · simp [Number, hbad] at hbus
    · rcases hdev with hdots | ⟨hnumbers, hvalue, -⟩
      · exact hparts hdots
      · rcases hbad with hbad | hbad
        · simp [hbad] at hnumbers
        · simp [hbad] at hvalue

end Texts

section FollowsGrammar

variable {uri : CString} (hlength : uri.chars.length < bufLen)
include hlength

theorem components_eq_uriComponents : components uri = uriComponents uri :=
  (components_of_fits hlength).2

theorem complete_of_length : Complete (fitsBuf uri) (components uri) :=
  .inl (components_of_fits hlength).1

theorem parseUri_accepts_iff {type : RequestT} (htype : type ≠ .err) :
    (∃ parts, parseUri uri = .ok (type, parts)) ↔
      ∃ w, spelled (uriComponents uri) = some w ∧ w.type = type := by
  rw [← components_eq_uriComponents hlength]
  constructor
  · rintro ⟨parts, hok⟩
    rcases parseUri_eq_ok hok with ⟨herr, -⟩ | ⟨w, hw, -, hwtype, -⟩
    · exact absurd herr htype
    · exact ⟨w, hw, hwtype.symm⟩
  · rintro ⟨w, hw, rfl⟩
    exact ⟨w.kept, parseUri_of_spelled hw (complete_of_length hlength)⟩

theorem followsGrammar_of_not_misread (h : ¬ Misread (uriComponents uri)) :
    FollowsGrammar uri := by
  refine ⟨?_, ?_, ?_⟩
  · rw [parseUri_accepts_iff hlength (by decide)]
    refine ⟨?_, GetText.spelled⟩
    rintro ⟨w, hw, htype⟩
    rcases text_of_spelled hw h with ⟨-, hget⟩ | ⟨hset, -⟩
    · exact hget
    · cases htype.symm.trans hset
  · rw [parseUri_accepts_iff hlength (by decide)]
    refine ⟨?_, SetText.spelled⟩
    rintro ⟨w, hw, htype⟩
    rcases text_of_spelled hw h with ⟨hget, -⟩ | ⟨-, hset⟩
    · cases htype.symm.trans hget
    · exact hset
  · intro hnoget hnoset
    have hrejects : Rejects (fitsBuf uri) (components uri) := by
      rw [components_eq_uriComponents hlength, (components_of_fits hlength).1]
      by_contra hnot
      obtain ⟨w, hw⟩ := spelled_of_not_rejects h hnot
      rcases text_of_spelled hw h with ⟨-, hget⟩ | ⟨-, hset⟩
      · exact hnoget hget
      · exact hnoset hset
    obtain ⟨parts, hok⟩ := parseUri_of_rejects hrejects
    exact refusesUri_of_err hok

/-- Within the length of the buffer, `parse_uri` follows the grammar on exactly
the URIs that have no ignored tail and no device component of dots. -/
theorem followsGrammar_iff : FollowsGrammar uri ↔ ¬ Misread (uriComponents uri) := by
  refine ⟨?_, followsGrammar_of_not_misread hlength⟩
  intro hgrammar hmisread
  obtain ⟨hnoget, hnoset⟩ := hmisread.not_text
  obtain ⟨hrefused, -⟩ := hgrammar.err hnoget hnoset
  have hrejects := parseUri_err_iff.mp hrefused
  rw [components_eq_uriComponents hlength] at hrejects
  exact hmisread.not_rejects hrejects

end FollowsGrammar

/-- What `print_request` makes of a URI. -/
def requestLine (uri : CString) : List Char :=
  match spelled (uriComponents uri) with
  | none => requestText uri initIoData .err
  | some w => requestText uri w.kept w.type

section Line

variable {uri : CString}

theorem length_lt_of_requestText {parts : IoData} {type : RequestT}
    (h : (requestText uri parts type).length < bufLen) : uri.chars.length < bufLen := by
  simp only [requestText, uriText, List.length_append] at h
  omega

theorem length_lt_of_line (h : (requestLine uri).length < bufLen) : uri.chars.length < bufLen := by
  unfold requestLine at h
  split at h
  · exact length_lt_of_requestText h
  · exact length_lt_of_requestText h

variable (hlength : uri.chars.length < bufLen) {type : RequestT} {parts : IoData}
  (hparse : parseUri uri = .ok (type, parts))
include hlength hparse

/-- What the code makes of a URI that fits is what the URI spells. -/
theorem request_of_parseUri :
    type = .err ∧ Rejects true (uriComponents uri) ∨
      ∃ w, spelled (uriComponents uri) = some w ∧ type = w.type ∧ parts = w.kept := by
  have hcomps := components_eq_uriComponents hlength
  have hclosed := (components_of_fits hlength).1
  rcases parseUri_eq_ok hparse with ⟨rfl, hrejects⟩ | ⟨w, hw, -, rfl, rfl⟩
  · rw [hcomps, hclosed] at hrejects
    exact .inl ⟨rfl, hrejects⟩
  · rw [hcomps] at hw
    exact .inr ⟨w, hw, rfl, rfl⟩

theorem requestText_eq_line : requestText uri parts type = requestLine uri := by
  rcases request_of_parseUri hlength hparse with ⟨rfl, hrejects⟩ | ⟨w, hw, rfl, rfl⟩
  · rw [requestLine, hrejects.spelled_eq_none]
    rfl
  · rw [requestLine, hw]

end Line

section Fitting

variable {uri : CString} (hline : (requestLine uri).length < bufLen)
include hline

theorem parseUri_of_fitting {w : Spelled} (hw : spelled (uriComponents uri) = some w) :
    parseUri uri = .ok (w.type, w.kept) := by
  have hlength := length_lt_of_line hline
  rw [← components_eq_uriComponents hlength] at hw
  exact parseUri_of_spelled hw (complete_of_length hlength)

theorem refused_of_fitting (h : Rejects true (uriComponents uri)) :
    ∃ parts, parseUri uri = .ok (.err, parts) := by
  have hlength := length_lt_of_line hline
  apply parseUri_of_rejects
  rw [components_eq_uriComponents hlength, (components_of_fits hlength).1]
  exact h

end Fitting

theorem followsGrammar_iff_doorOpener :
    FollowsGrammar ⟨"/2/0/".toList, by decide⟩ ↔
      ¬ Misread (uriComponents ⟨"/2/0/".toList, by decide⟩) :=
  followsGrammar_iff (by decide)

/-- A fourth component does not keep a `SET` from being accepted. -/
theorem surplus_component_accepted :
    ("/0/0/1/2".toList.length < bufLen) ∧
      parseUri ⟨"/0/0/1/2".toList, by decide⟩ = .ok (.set, ⟨0, 0, idxInvalid, 1⟩) ∧
      ¬ FollowsGrammar ⟨"/0/0/1/2".toList, by decide⟩ := by
  have hok : parseUri ⟨"/0/0/1/2".toList, by decide⟩ = .ok (.set, ⟨0, 0, idxInvalid, 1⟩) := by
    decide +kernel
  refine ⟨by decide, hok, ?_⟩
  intro hgrammar
  obtain ⟨_, _, _, heq, -⟩ := hgrammar.set.mp ⟨_, hok⟩
  have hfour : (uriComponents ⟨"/0/0/1/2".toList, by decide⟩).length = 4 := by decide +kernel
  rw [heq] at hfour
  exact absurd hfour (by simp)

end Switcher
