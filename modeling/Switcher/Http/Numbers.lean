import Switcher.Http.Grammar

/-!
The numbers that a URI spells and the ones that reach `perform_io`. Nothing
checks a range on the way, so a number that does not fit its field arrives as
another one.
-/

namespace Switcher

open Lib.Numeral Lib.Text

/-- The bus, device, sub-device or value component spells a number that does not
fit its field. -/
def Oversized (comps : List (List Char)) : Prop :=
  (∃ busTok z, comps[0]? = some busTok ∧ readInt 10 busTok = some z ∧ ¬ FitsIdx z) ∨
    (∃ devTok part z, comps[1]? = some devTok ∧ part ∈ (deviceParts devTok).take 2 ∧
      readInt 10 part = some z ∧ ¬ FitsIdx z) ∨
    ∃ valueTok z, comps[2]? = some valueTok ∧ readInt 16 valueTok = some z ∧ ¬ FitsValue z

/-- The components that `parse_uri` asks for end within its buffer and are numbers. -/
def Readable (uri : CString) : Prop :=
  ∃ w, spelled (components uri) = some w ∧ Complete (fitsBuf uri) (components uri)

/-- `parse_uri` comes to an end. An accepted URI gives every field the number that its
component spells, and a number that does not fit is refused. -/
structure KeepsNumbers (uri : CString) : Prop where
  returns : ∃ type parts, parseUri uri = .ok (type, parts)
  equal : ∀ type parts, type ≠ .err → parseUri uri = .ok (type, parts) →
    ∃ w, spelled (uriComponents uri) = some w ∧ parts.idxBus = w.bus ∧ parts.idxDev = w.dev ∧
      (∀ i ∈ w.subDev, parts.idxSubDev = i) ∧ ∀ v ∈ w.value, (parts.value.toNat : Int) = v
  refuse : Oversized (uriComponents uri) → ∃ parts, parseUri uri = .ok (.err, parts)

theorem components_prefix (uri : CString) : components uri <+: uriComponents uri := by
  by_cases hlength : uri.chars.length < bufLen
  · rw [components_eq_uriComponents hlength]
  · have hopen : fitsBuf uri = false := decide_eq_false hlength
    have hcut := tokens_cut_prefix uriDelim (uri.chars.take bufLen) (uri.chars.drop bufLen)
    rw [List.take_append_drop] at hcut
    rw [components, hopen]
    exact hcut

/-- The components that an accepted request was read from are those of the URI. -/
theorem spelled_uriComponents {uri : CString} {w : Spelled}
    (hw : spelled (components uri) = some w)
    (hcomplete : Complete (fitsBuf uri) (components uri)) :
    spelled (uriComponents uri) = some w := by
  rcases hcomplete with hclosed | hlong
  · rw [← components_eq_uriComponents (of_decide_eq_true hclosed)]
    exact hw
  · obtain ⟨extra, heq⟩ := components_prefix uri
    obtain ⟨busTok, devTok, more, hcomps, hbus, hnumbers, hvalue⟩ := spelled_eq_some.mp hw
    rcases more with _ | ⟨valueTok, rest⟩
    · simp [hcomps] at hlong
    · refine spelled_eq_some.mpr ⟨busTok, devTok, valueTok :: (rest ++ extra), ?_, hbus,
        hnumbers, hvalue⟩
      rw [← heq, hcomps]
      rfl

/-- The device number is the first part, and a sub-device number the second. -/
theorem parts_of_deviceNumbers {parts : List (List Char)} {dev : Int} {subDev : Option Int}
    (h : deviceNumbers parts = some (dev, subDev)) :
    (∃ part ∈ parts.take 2, readInt 10 part = some dev) ∧
      ∀ i ∈ subDev, ∃ part ∈ parts.take 2, readInt 10 part = some i := by
  rcases parts with _ | ⟨devPart, parts⟩
  · cases h
  · cases hread : readInt 10 devPart with
    | none => simp [deviceNumbers, hread] at h
    | some z =>
        rcases parts with _ | ⟨subPart, parts⟩
        · simp only [deviceNumbers, hread, Option.some.injEq, Prod.mk.injEq] at h
          obtain ⟨rfl, rfl⟩ := h
          exact ⟨⟨devPart, by simp, hread⟩, by simp⟩
        · cases hread' : readInt 10 subPart with
          | none => simp [deviceNumbers, hread, hread'] at h
          | some z' =>
              simp only [deviceNumbers, hread, hread', Option.some.injEq, Prod.mk.injEq] at h
              obtain ⟨rfl, rfl⟩ := h
              refine ⟨⟨devPart, by simp, hread⟩, ?_⟩
              intro i hi
              obtain rfl := Option.some.inj hi
              exact ⟨subPart, by simp, hread'⟩

theorem component_of_valueNumber {more : List (List Char)} {value : Option Int} {v : Int}
    (h : valueNumber more = some value) (hv : v ∈ value) :
    ∃ valueTok, more[0]? = some valueTok ∧ readInt 16 valueTok = some v := by
  rcases more with _ | ⟨valueTok, rest⟩
  · obtain rfl := Option.some.inj h
    cases hv
  · cases hread : readInt 16 valueTok with
    | none => simp [valueNumber, hread] at h
    | some z =>
        simp only [valueNumber, hread, Option.some.injEq] at h
        obtain rfl : z = v := Option.some.inj (h.trans hv)
        exact ⟨valueTok, rfl, hread⟩

theorem Spelled.fits {comps : List (List Char)} {w : Spelled} (hw : spelled comps = some w)
    (h : ¬ Oversized comps) :
    FitsIdx w.bus ∧ FitsIdx w.dev ∧ (∀ i ∈ w.subDev, FitsIdx i) ∧ ∀ v ∈ w.value, FitsValue v := by
  obtain ⟨busTok, devTok, more, rfl, hbus, hnumbers, hvalue⟩ := spelled_eq_some.mp hw
  obtain ⟨hbusFits, hrest⟩ := not_or.mp h
  obtain ⟨hdevFits, hvalueFits⟩ := not_or.mp hrest
  obtain ⟨⟨devPart, hdevPart, hdev⟩, hsub⟩ := parts_of_deviceNumbers hnumbers
  refine ⟨?_, ?_, ?_, ?_⟩
  · by_contra hbad
    exact hbusFits ⟨busTok, w.bus, rfl, hbus, hbad⟩
  · by_contra hbad
    exact hdevFits ⟨devTok, devPart, w.dev, rfl, hdevPart, hdev, hbad⟩
  · intro i hi
    obtain ⟨subPart, hsubPart, hread⟩ := hsub i hi
    by_contra hbad
    exact hdevFits ⟨devTok, subPart, i, rfl, hsubPart, hread, hbad⟩
  · intro v hv
    obtain ⟨valueTok, htok, hread⟩ := component_of_valueNumber hvalue hv
    by_contra hbad
    exact hvalueFits ⟨valueTok, v, htok, hread, hbad⟩

theorem keepsNumbers_of_readable {uri : CString} (hread : Readable uri)
    (h : ¬ Oversized (uriComponents uri)) : KeepsNumbers uri := by
  obtain ⟨w, hw, hcomplete⟩ := hread
  have hparse := parseUri_of_spelled hw hcomplete
  have hspelled := spelled_uriComponents hw hcomplete
  obtain ⟨hbus, hdev, hsub, hvalue⟩ := Spelled.fits hspelled h
  refine ⟨⟨_, _, hparse⟩, ?_, fun hbad => absurd hbad h⟩
  intro type parts _ hok
  obtain ⟨-, rfl⟩ := Prod.mk.inj (Except.ok.inj (hparse.symm.trans hok))
  refine ⟨w, hspelled, keptIdx_of_fits hbus, keptIdx_of_fits hdev, ?_, ?_⟩
  · intro i hi
    have hsome : w.subDev = some i := hi
    simp only [Spelled.kept, hsome, Option.elim_some]
    exact keptIdx_of_fits (hsub i hi)
  · intro v hv
    have hsome : w.value = some v := hv
    simp only [Spelled.kept, hsome, Option.elim_some]
    exact keptValue_of_fits (hvalue v hv)

theorem keepsNumbers_of_rejects {uri : CString} (h : Rejects (fitsBuf uri) (components uri)) :
    KeepsNumbers uri := by
  obtain ⟨parts', herr⟩ := parseUri_of_rejects h
  refine ⟨⟨_, _, herr⟩, ?_, fun _ => ⟨parts', herr⟩⟩
  intro type parts htype hok
  obtain ⟨rfl, -⟩ := Prod.mk.inj (Except.ok.inj (hok.symm.trans herr))
  exact absurd rfl htype

/-- The numbers of a URI are kept exactly if the code gets to see all of them and they
all fit, or if the URI is refused for its form anyway. -/
theorem keepsNumbers_iff (uri : CString) :
    KeepsNumbers uri ↔
      Rejects (fitsBuf uri) (components uri) ∨
        Readable uri ∧ ¬ Oversized (uriComponents uri) := by
  constructor
  · intro hkeeps
    obtain ⟨type, parts, hparse⟩ := hkeeps.returns
    rcases parseUri_eq_ok hparse with ⟨-, hrejects⟩ | ⟨w, hw, hcomplete, -, -⟩
    · exact .inl hrejects
    · by_cases hbad : Oversized (uriComponents uri)
      · exact .inl (parseUri_err_iff.mp (hkeeps.refuse hbad))
      · exact .inr ⟨⟨w, hw, hcomplete⟩, hbad⟩
  · rintro (hrejects | ⟨hread, hfits⟩)
    · exact keepsNumbers_of_rejects hrejects
    · exact keepsNumbers_of_readable hread hfits

/-- Bus 4294967296 is taken for bus 0. -/
theorem large_bus_wraps :
    parseUri ⟨"/4294967296/0".toList, by decide⟩ = .ok (.get, ⟨0, 0, idxInvalid, 0⟩) ∧
      ¬ KeepsNumbers ⟨"/4294967296/0".toList, by decide⟩ := by
  have hok : parseUri ⟨"/4294967296/0".toList, by decide⟩ = .ok (.get, ⟨0, 0, idxInvalid, 0⟩) := by
    decide +kernel
  have hread : spelled (uriComponents ⟨"/4294967296/0".toList, by decide⟩) =
      some ⟨4294967296, 0, none, none⟩ := by
    decide +kernel
  refine ⟨hok, ?_⟩
  intro hkeeps
  obtain ⟨w, hw, hbus, -⟩ := hkeeps.equal .get _ (by decide) hok
  obtain rfl := Option.some.inj (hread.symm.trans hw)
  exact absurd hbus (by decide)

end Switcher
