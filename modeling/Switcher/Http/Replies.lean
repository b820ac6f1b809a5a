import Switcher.Http.PrintRequest
import Switcher.Http.Splitting
import Switcher.Service.Truth

/-!
Replies read back. The body that `io_data_to_json` prints fits its buffer whatever
it describes, and the numbers in it are delimited, so that it can be decoded.
-/

namespace Switcher

open Lib.Program Lib.Numeral Lib.Text

def bodyBus : List Char := "callback(\x7b \"bus_idx\": \"".toList
def bodyDev : List Char := "\", \"dev_idx\": ".toList
def bodySubDev : List Char := ", \"dev_sub_idx\": ".toList
def bodyValue : List Char := ", \"value\": \"".toList
def bodyEnd : List Char := "\" \x7d)".toList

/-- A character of a number in a body. -/
def isNumeral (c : Char) : Bool := c = '-' || isDigit 16 c

def skipText (fixed text : List Char) : Option (List Char) :=
  if fixed <+: text then some (text.drop fixed.length) else none

/-- The number behind a fixed text, and the text behind the number. -/
def readField (fixed : List Char) (base : Nat) (text : List Char) : Option (Int × List Char) := do
  let text ← skipText fixed text
  let number ← readInt base (text.takeWhile isNumeral)
  return (number, text.dropWhile isNumeral)

/-- What the body of a reply says. -/
def decodeBody (body : List Char) : Option IoData := do
  let (bus, text) ← readField bodyBus 10 body
  let (dev, text) ← readField bodyDev 10 text
  let (subDev, text) ← readField bodySubDev 10 text
  let (value, text) ← readField bodyValue 16 text
  if text = bodyEnd then return ⟨bus, dev, subDev, BitVec.ofInt 32 value⟩ else none

theorem readInt_formatInt (n : Int) : readInt 10 (formatInt n) = some n := by
  unfold formatInt
  split
  · next hneg =>
    rw [readInt_neg_toDigits decimal]
    congr 1
    omega
  · next hpos =>
    rw [readInt_toDigits decimal]
    congr 1
    omega

theorem isNumeral_toDigits {base : Nat} (hbase : Radix base) (n : Nat) :
    ∀ c ∈ Nat.toDigits base n, isNumeral c = true := by
  intro c hc
  obtain ⟨d, hd, hlt⟩ := isDigit_iff.mp (isDigit_toDigits hbase n c hc)
  have hdigit : isDigit 16 c = true :=
    isDigit_iff.mpr ⟨d, hd, Nat.lt_of_lt_of_le hlt hbase.le_sixteen⟩
  simp [isNumeral, hdigit]

theorem isNumeral_formatInt (n : Int) : ∀ c ∈ formatInt n, isNumeral c = true := by
  have hdigits := isNumeral_toDigits decimal n.natAbs
  unfold formatInt
  split
  · exact List.forall_mem_cons.mpr ⟨rfl, hdigits⟩
  · exact hdigits

theorem readField_append {fixed number rest : List Char} {base : Nat} {z : Int}
    (hread : readInt base number = some z) (hnumeral : ∀ c ∈ number, isNumeral c = true)
    (hrest : rest.head?.any isNumeral = false) :
    readField fixed base (fixed ++ (number ++ rest)) = some (z, rest) := by
  have hskip : skipText fixed (fixed ++ (number ++ rest)) = some (number ++ rest) := by
    rw [skipText, if_pos (List.prefix_append _ _), List.drop_left]
  have hnone : rest.takeWhile isNumeral = [] ∧ rest.dropWhile isNumeral = rest := by
    cases rest with
    | nil => exact ⟨rfl, rfl⟩
    | cons c rest =>
        have hc : isNumeral c = false := hrest
        simp [hc]
  rw [readField, hskip]
  simp only [Option.bind_eq_bind, Option.bind_some, List.takeWhile_append_of_pos hnumeral,
    List.dropWhile_append_of_pos hnumeral, hnone.1, hnone.2, List.append_nil, hread]
  rfl

theorem ioDataJson_eq (data : IoData) :
    ioDataJson data = bodyBus ++ (formatInt data.idxBus ++ (bodyDev ++ (formatInt data.idxDev ++
      (bodySubDev ++ (formatInt data.idxSubDev ++ (bodyValue ++ (formatHex data.value ++
        bodyEnd))))))) := by
  simp only [← List.append_assoc]
  rfl

/-- What is printed is read back. -/
theorem decodeBody_ioDataJson (data : IoData) : decodeBody (ioDataJson data) = some data := by
  have hvalue : readInt 16 (formatHex data.value) = some (data.value.toNat : Int) :=
    readInt_toDigits hexadecimal _
  have hkept : BitVec.ofInt 32 data.value.toNat = data.value := by simp
  rw [ioDataJson_eq]
  refine Option.bind_eq_some_iff.mpr
    ⟨_, readField_append (readInt_formatInt _) (isNumeral_formatInt _) rfl, ?_⟩
  refine Option.bind_eq_some_iff.mpr
    ⟨_, readField_append (readInt_formatInt _) (isNumeral_formatInt _) rfl, ?_⟩
  refine Option.bind_eq_some_iff.mpr
    ⟨_, readField_append (readInt_formatInt _) (isNumeral_formatInt _) rfl, ?_⟩
  refine Option.bind_eq_some_iff.mpr
    ⟨_, readField_append hvalue (isNumeral_toDigits hexadecimal _) rfl, ?_⟩
  simp [hkept]

theorem length_formatInt {n : Int} (h : FitsIdx n) : (formatInt n).length ≤ 11 := by
  have hdigits : (Nat.toDigits 10 n.natAbs).length ≤ 10 := by
    rw [Nat.length_toDigits_le_iff (by omega) (by omega)]
    unfold FitsIdx at h
    omega
  unfold formatInt
  split
  · rw [List.length_cons]
    omega
  · omega

theorem length_formatHex (value : Value) : (formatHex value).length ≤ 8 := by
  rw [formatHex, Nat.length_toDigits_le_iff (by omega) (by omega)]
  exact value.isLt

theorem nul_notMem_ioDataJson (data : IoData) : nul ∉ ioDataJson data := by
  rw [ioDataJson_eq]
  refine List.not_mem_append (by decide) (List.not_mem_append (nul_notMem_formatInt _) ?_)
  refine List.not_mem_append (by decide) (List.not_mem_append (nul_notMem_formatInt _) ?_)
  refine List.not_mem_append (by decide) (List.not_mem_append (nul_notMem_formatInt _) ?_)
  exact List.not_mem_append (by decide)
    (List.not_mem_append (nul_notMem_toDigits hexadecimal _) (by decide))

/-- The indices are those of an `idx_t`. -/
structure IoData.FitsIdxs (data : IoData) : Prop where
  bus : FitsIdx data.idxBus
  dev : FitsIdx data.idxDev
  subDev : FitsIdx data.idxSubDev

theorem length_ioDataJson {data : IoData} (h : data.FitsIdxs) :
    (ioDataJson data).length < bufLen := by
  have hbus := length_formatInt h.bus
  have hdev := length_formatInt h.dev
  have hsub := length_formatInt h.subDev
  have hvalue := length_formatHex data.value
  have hbodyBus : bodyBus.length = 23 := by decide
  have hbodyDev : bodyDev.length = 14 := by decide
  have hbodySub : bodySubDev.length = 17 := by decide
  have hbodyValue : bodyValue.length = 12 := by decide
  have hbodyEnd : bodyEnd.length = 4 := by decide
  rw [ioDataJson_eq]
  simp only [List.length_append, bufLen]
  omega

theorem cText_ioDataToJson_eq {data : IoData} (h : data.FitsIdxs) (buf : List Char) :
    cText (ioDataToJson data buf) = ioDataJson data := by
  have hlength := length_ioDataJson h
  have hnul : ∀ c ∈ ioDataJson data, decide (c ≠ nul) = true := by
    intro c hc
    have hne : c ≠ nul := fun h => nul_notMem_ioDataJson data (h ▸ hc)
    simpa using hne
  rw [ioDataToJson, cText_snprintf, List.take_of_length_le (by omega)]
  exact List.takeWhile_eq_self_iff.mpr hnul

/-- Everything that is printed in front of the length of the body. -/
def replyHead : List Char :=
  "HTTP/1.1 200 OK\r\nContent-Type: text/javascript\r\nContent-Length: ".toList

theorem httpReply_eq (content : List Char) :
    httpReply content = replyHead ++ Nat.toDigits 10 (cText content).length ++
      "\r\n\r\n".toList ++ cText content := rfl

/-- The reply with the data in a content buffer says what the data is. -/
structure Tells (data : IoData) (buf : List Char) : Prop where
  untruncated : (ioDataJson data).length < bufLen ∧
    cText (ioDataToJson data buf) = ioDataJson data
  contentLength : ∃ length body,
    httpReply (ioDataToJson data buf) = replyHead ++ length ++ "\r\n\r\n".toList ++ body ∧
      readInt 10 length = some body.length ∧ body = ioDataJson data
  decoded : decodeBody (cText (ioDataToJson data buf)) = some data
  distinct : ∀ data' buf', IoData.FitsIdxs data' →
    cText (ioDataToJson data' buf') = cText (ioDataToJson data buf) → data' = data
  value : ∀ text i parts, Reads text i (formatHex data.value) true →
    parseValue i parts text = .ok (.ok, { parts with value := data.value }) text

theorem parseValue_formatHex {value : Value} {text : List Char} {i : Nat} (parts : IoData)
    (h : Reads text i (formatHex value) true) :
    parseValue i parts text = .ok (.ok, { parts with value := value }) text := by
  have hsmall : value.toNat ≤ ulongMax := by
    have := value.isLt
    simp only [ulongMax]
    omega
  have hnumber : strtoul (formatHex value) 16 = (value.toNat, []) :=
    strtoul_toDigits hexadecimal hsmall
  have hkept : toValue value.toNat = value := by simp [toValue]
  rw [parseValue_eq parts h, hnumber, hkept]
  rfl

/-- Whatever the data is, its reply tells it. -/
theorem ioDataToJson_tells {data : IoData} (h : data.FitsIdxs) (buf : List Char) :
    Tells data buf := by
  have hbody := cText_ioDataToJson_eq h buf
  refine ⟨⟨length_ioDataJson h, hbody⟩, ?_, ?_, ?_, ?_⟩
  · refine ⟨Nat.toDigits 10 (ioDataJson data).length, ioDataJson data, ?_, ?_, rfl⟩
    · rw [httpReply_eq, hbody]
    · exact readInt_toDigits decimal _
  · rw [hbody, decodeBody_ioDataJson]
  · intro data' buf' h' heq
    rw [hbody, cText_ioDataToJson_eq h'] at heq
    have hdecoded := decodeBody_ioDataJson data'
    rw [heq, decodeBody_ioDataJson] at hdecoded
    exact (Option.some.inj hdecoded).symm
  · intro text i parts hreads
    exact parseValue_formatHex parts hreads

/-- The least indices and the greatest value. -/
theorem ioDataToJson_tells_extreme :
    Tells ⟨-2147483648, -1, 2147483647, 0xffffffff⟩ freshContent :=
  ioDataToJson_tells
    ⟨⟨by decide, by decide⟩, ⟨by decide, by decide⟩, ⟨by decide, by decide⟩⟩ freshContent

end Switcher
