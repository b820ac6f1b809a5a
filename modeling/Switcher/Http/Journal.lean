import Mathlib.Data.List.DropRight
import Switcher.Http.Replies

/-!
The lines of `print_request` read back. A line is read from its end, since the URI in it
may hold anything, also what looks like the rest of a line.
-/

namespace Switcher

open Lib.Numeral Lib.Text

def lineBus : List Char := ", Bus: ".toList
def lineDevice : List Char := ", Device: ".toList
def lineSubDevice : List Char := ", Sub-Device: ".toList
def lineValue : List Char := ", Value: 0x".toList

/-- The number at the end of a text, behind a fixed one, and the text in front. -/
def readBack (fixed : List Char) (base : Nat) (text : List Char) : Option (Int × List Char) := do
  let number ← readInt base (text.rtakeWhile isNumeral)
  let front := text.rdropWhile isNumeral
  if fixed <:+ front then return (number, front.take (front.length - fixed.length)) else none

/-- The bus and the device at the end of a text. -/
def readDevice (idxSubDev : Int) (value : Value) (text : List Char) : Option IoData := do
  let (dev, text) ← readBack lineDevice 10 text
  let (bus, _) ← readBack lineBus 10 text
  return ⟨bus, dev, idxSubDev, value⟩

/-- The same with a sub-device, if there is one. -/
def readAddress (value : Value) (text : List Char) : Option IoData :=
  match readBack lineSubDevice 10 text with
  | some (subDev, text) => readDevice subDev value text
  | none => readDevice idxInvalid value text

/-- The request that a line tells of. -/
def readLogLine (line : List Char) : Option (RequestT × IoData) :=
  if RequestT.word .get <+: line then do
    let parts ← readAddress 0 line
    return (.get, parts)
  else if RequestT.word .set <+: line then do
    let (value, text) ← readBack lineValue 16 line
    let parts ← readAddress (BitVec.ofInt 32 value) text
    return (.set, parts)
  else none

section Numbers

theorem digitValue_toUpper : ∀ d < 16, digitValue d.digitChar.toUpper = some d := by
  decide

theorem ofDigits_map {f : Char → Char} (base : Nat) {digits : List Char}
    (h : ∀ c ∈ digits, digitValue (f c) = digitValue c) :
    ofDigits base (digits.map f) = ofDigits base digits := by
  induction digits using List.reverseRecOn with
  | nil => rfl
  | append_singleton digits c ih =>
      have hlast := h c (List.mem_append_right _ (List.mem_singleton_self c))
      rw [List.map_append, List.map_singleton, ofDigits_concat, ofDigits_concat, hlast,
        ih fun d hd => h d (List.mem_append_left _ hd)]

theorem ofDigits_zeros (base k : Nat) (digits : List Char) :
    ofDigits base (List.replicate k '0' ++ digits) = ofDigits base digits := by
  have hzeros : ofDigits base (List.replicate k '0') = 0 := by
    induction k with
    | zero => rfl
    | succ k ih => rw [List.replicate_succ', ofDigits_concat, ih]; rfl
  unfold ofDigits at hzeros ⊢
  rw [List.foldl_append, hzeros]

theorem formatHexByte_digits (value : Value) :
    ∀ c ∈ formatHexByte value, isDigit 16 c = true := by
  intro c hc
  rcases List.mem_append.mp hc with hzero | hdigit
  · obtain rfl := List.eq_of_mem_replicate hzero
    rfl
  · obtain ⟨c, hmem, rfl⟩ := List.mem_map.mp hdigit
    obtain ⟨d, hd, rfl⟩ := digitChar_of_mem_toDigits hexadecimal _ c hmem
    exact isDigit_iff.mpr ⟨d, digitValue_toUpper d hd, hd⟩

/-- A value is read back from upper case and behind zeros. -/
theorem readInt_formatHexByte (value : Value) :
    readInt 16 (formatHexByte value) = some (value.toNat : Int) := by
  have hne : formatHexByte value ≠ [] := by
    intro h
    have hdigits := (List.append_eq_nil_iff.mp h).2
    exact Nat.toDigits_ne_nil (List.map_eq_nil_iff.mp hdigits)
  have hnumber : ofDigits 16 (formatHexByte value) = value.toNat := by
    have hsame : ∀ c ∈ Nat.toDigits 16 value.toNat, digitValue c.toUpper = digitValue c := by
      intro c hc
      obtain ⟨d, hd, rfl⟩ := digitChar_of_mem_toDigits hexadecimal _ c hc
      rw [digitValue_toUpper d hd, digitValue_digitChar d hd]
    rw [formatHexByte, ofDigits_zeros, ofDigits_map 16 hsame, ofDigits_toDigits hexadecimal]
  rw [readInt, scan_digits (Nat.le_refl 16) hne (formatHexByte_digits value)]
  simp [Scanned.value, hnumber]

theorem isNumeral_formatHexByte (value : Value) :
    ∀ c ∈ formatHexByte value, isNumeral c = true := by
  intro c hc
  simp [isNumeral, formatHexByte_digits value c hc]

end Numbers

section Fields

variable {number : List Char} {base : Nat} {z : Int}

theorem rtakeWhile_append {p : Char → Bool} {front : List Char}
    (hnumber : ∀ c ∈ number, p c = true) (hfront : front.getLast?.any p = false) :
    (front ++ number).rtakeWhile p = number ∧ (front ++ number).rdropWhile p = front := by
  have hreversed : ∀ c ∈ number.reverse, p c = true := fun c hc =>
    hnumber c (List.mem_reverse.mp hc)
  have hnone : front.reverse.takeWhile p = [] ∧ front.reverse.dropWhile p = front.reverse := by
    rw [← List.head?_reverse] at hfront
    cases hcases : front.reverse with
    | nil => exact ⟨rfl, rfl⟩
    | cons c rest =>
        rw [hcases] at hfront
        have hc : p c = false := hfront
        simp [hc]
  constructor
  · rw [List.rtakeWhile, List.reverse_append, List.takeWhile_append_of_pos hreversed, hnone.1,
      List.append_nil, List.reverse_reverse]
  · rw [List.rdropWhile, List.reverse_append, List.dropWhile_append_of_pos hreversed, hnone.2,
      List.reverse_reverse]

/-- A text that a field ends with in front of its number. -/
structure IsLabel (fixed : List Char) : Prop where
  ne_nil : fixed ≠ []
  last : fixed.getLast?.any isNumeral = false

variable {fixed : List Char} (hfixed : IsLabel fixed) (front : List Char)
include hfixed

theorem IsLabel.split (hnumber : ∀ c ∈ number, isNumeral c = true) :
    (front ++ (fixed ++ number)).rtakeWhile isNumeral = number ∧
      (front ++ (fixed ++ number)).rdropWhile isNumeral = front ++ fixed := by
  rw [← List.append_assoc]
  apply rtakeWhile_append hnumber
  rw [List.getLast?_append_of_ne_nil _ hfixed.ne_nil]
  exact hfixed.last

/-- The field that ends a text is read back. -/
theorem IsLabel.readBack (hread : readInt base number = some z)
    (hnumber : ∀ c ∈ number, isNumeral c = true) :
    readBack fixed base (front ++ (fixed ++ number)) = some (z, front) := by
  obtain ⟨htake, hdrop⟩ := hfixed.split front hnumber
  rw [Switcher.readBack, htake, hread, hdrop]
  simp

/-- It is not taken for another one. -/
theorem IsLabel.readBack_other {other : List Char} (hnumber : ∀ c ∈ number, isNumeral c = true)
    (hlength : fixed.length ≤ other.length) (hother : ¬ fixed <:+ other) :
    Switcher.readBack other base (front ++ (fixed ++ number)) = none := by
  obtain ⟨htake, hdrop⟩ := hfixed.split front hnumber
  have hnot : ¬ other <:+ front ++ fixed := fun h =>
    hother (List.suffix_of_suffix_length_le (List.suffix_append _ _) h hlength)
  rw [Switcher.readBack, htake, hdrop]
  cases readInt base number with
  | none => rfl
  | some z => simp [hnot]

end Fields

section Lines

variable {parts : IoData}

theorem lineBus_isLabel : IsLabel lineBus := ⟨by decide +kernel, rfl⟩

theorem lineDevice_isLabel : IsLabel lineDevice := ⟨by decide +kernel, rfl⟩

theorem lineSubDevice_isLabel : IsLabel lineSubDevice := ⟨by decide +kernel, rfl⟩

theorem lineValue_isLabel : IsLabel lineValue := ⟨by decide +kernel, rfl⟩

theorem deviceText_eq (parts : IoData) : deviceText parts =
    (lineBus ++ formatInt parts.idxBus) ++ (lineDevice ++ formatInt parts.idxDev) :=
  List.append_assoc ..

theorem readDevice_text (front : List Char) (idxSubDev : Int) (value : Value) :
    readDevice idxSubDev value (front ++ deviceText parts) =
      some ⟨parts.idxBus, parts.idxDev, idxSubDev, value⟩ := by
  have hdev := lineDevice_isLabel.readBack (front ++ (lineBus ++ formatInt parts.idxBus))
    (readInt_formatInt parts.idxDev) (isNumeral_formatInt _)
  have hbus := lineBus_isLabel.readBack front (readInt_formatInt parts.idxBus)
    (isNumeral_formatInt _)
  rw [deviceText_eq, ← List.append_assoc, readDevice]
  simp only [Option.bind_eq_bind, hdev, Option.bind_some, hbus]
  rfl

theorem readAddress_text (front : List Char) (value : Value) :
    readAddress value (front ++ (deviceText parts ++
      if parts.idxSubDev ≠ idxInvalid then subDeviceText parts else [])) =
      some { parts with value := value } := by
  by_cases hsub : parts.idxSubDev ≠ idxInvalid
  · have hread := lineSubDevice_isLabel.readBack (front ++ deviceText parts)
      (readInt_formatInt parts.idxSubDev) (isNumeral_formatInt _)
    have htext : front ++ (deviceText parts ++ subDeviceText parts) =
        (front ++ deviceText parts) ++ (lineSubDevice ++ formatInt parts.idxSubDev) :=
      (List.append_assoc ..).symm
    rw [if_pos hsub, htext, readAddress, hread]
    exact readDevice_text _ _ _
  · have hnone : readBack lineSubDevice 10 (front ++ deviceText parts) = none := by
      rw [deviceText_eq, ← List.append_assoc]
      exact lineDevice_isLabel.readBack_other _ (isNumeral_formatInt _) (by decide +kernel)
        (by decide +kernel)
    have hinvalid : parts.idxSubDev = idxInvalid := not_not.mp hsub
    rw [if_neg hsub, List.append_nil, readAddress, hnone]
    exact (readDevice_text front idxInvalid value).trans (by rw [← hinvalid])

theorem word_injective {type type' : RequestT} {rest : List Char}
    (h : type.word <+: type'.word ++ rest) : type = type' := by
  have hlength (type : RequestT) : type.word.length = 14 := by
    cases type <;> rfl
  have hword : type.word <+: type'.word :=
    List.prefix_of_prefix_length_le h (List.prefix_append _ _) (by rw [hlength, hlength])
  have heq := hword.eq_of_length (by rw [hlength, hlength])
  cases type <;> cases type' <;> first | rfl | exact absurd heq (by decide +kernel)

/-- A request that is printed is read back from the line, whatever its URI is. -/
theorem readLogLine_requestText (uri : CString) {type : RequestT}
    (hvalue : type = .get → parts.value = 0) :
    readLogLine (requestText uri parts type) =
      if type = .err then none else some (type, parts) := by
  have hword : type.word <+: requestText uri parts type := List.prefix_append _ _
  have hother (other : RequestT) (hne : other ≠ type) :
      ¬ other.word <+: requestText uri parts type := fun h => hne (word_injective h)
  cases type with
  | get =>
      have htext : requestText uri parts .get = (RequestT.word .get ++ uriText uri) ++
          (deviceText parts ++
            if parts.idxSubDev ≠ idxInvalid then subDeviceText parts else []) := by
        simp [requestText, partsText]
      rw [readLogLine, if_pos hword, htext, readAddress_text, ← hvalue rfl]
      rfl
  | set =>
      have htext : requestText uri parts .set = ((RequestT.word .set ++ uriText uri) ++
          (deviceText parts ++
            if parts.idxSubDev ≠ idxInvalid then subDeviceText parts else [])) ++
              (lineValue ++ formatHexByte parts.value) := by
        have hset : RequestT.set ≠ .err := by simp
        simp only [requestText, partsText, if_pos hset, if_pos, List.append_assoc]
        rfl
      have hread := lineValue_isLabel.readBack ((RequestT.word .set ++ uriText uri) ++
          (deviceText parts ++
            if parts.idxSubDev ≠ idxInvalid then subDeviceText parts else []))
        (readInt_formatHexByte parts.value) (isNumeral_formatHexByte _)
      have hkept : BitVec.ofInt 32 parts.value.toNat = parts.value := by simp
      rw [readLogLine, if_neg (hother .get (by simp)), if_pos hword, htext, hread]
      simp only [Option.bind_eq_bind, Option.bind_some, readAddress_text, hkept]
      rfl
  | err =>
      rw [readLogLine, if_neg (hother .get (by simp)), if_neg (hother .set (by simp))]
      rfl

end Lines

end Switcher
