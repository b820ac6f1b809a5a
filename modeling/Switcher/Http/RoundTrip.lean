import Switcher.Http.Components

/-!
The URIs that the clients of the daemon write, and that `parse_uri` reads back
what they mean.
-/

namespace Switcher

open Lib.Numeral Lib.Text

/-- The largest numbers a client can name are those of an `idx_t`. -/
abbrev Index := Fin (2 ^ 31)

structure Address where
  bus : Index
  dev : Index
  subDev : Option Index
  deriving DecidableEq, Repr

/-- The request that an address stands for. -/
def Address.parts (a : Address) (value : Value) : IoData :=
  ⟨a.bus.val, a.dev.val, a.subDev.elim idxInvalid fun i => i.val, value⟩

def Address.devText (a : Address) : List Char :=
  Nat.toDigits 10 a.dev.val ++ a.subDev.elim [] fun i => '.' :: Nat.toDigits 10 i.val

/-- `/bus/dev` or `/bus/dev.sub`. -/
def Address.text (a : Address) : List Char :=
  '/' :: (Nat.toDigits 10 a.bus.val ++ '/' :: a.devText)

/-- A character that a client writes. -/
def UriChar (c : Char) : Prop := c = '/' ∨ c = '.' ∨ isDigit 16 c = true

theorem nul_notMem_of_uriChars {text : List Char} (h : ∀ c ∈ text, UriChar c) : nul ∉ text := by
  intro hmem
  rcases h nul hmem with hslash | hdot | hdigit
  · exact absurd hslash (by decide)
  · exact absurd hdot (by decide)
  · exact absurd hdigit (by decide)

theorem uriChar_toDigits {base : Nat} (hbase : Radix base) (n : Nat) :
    ∀ c ∈ Nat.toDigits base n, UriChar c := by
  intro c hc
  obtain ⟨d, hd, hlt⟩ := isDigit_iff.mp (isDigit_toDigits hbase n c hc)
  exact .inr (.inr (isDigit_iff.mpr ⟨d, hd, Nat.lt_of_lt_of_le hlt hbase.le_sixteen⟩))

/-- A character that is no digit does not separate within a number. -/
theorem toDigits_unseparated {base : Nat} (hbase : Radix base) (n : Nat) {d : Char}
    (hd : digitValue d = none) : ∀ c ∈ Nat.toDigits base n, c ∉ [d] := by
  intro c hc hmem
  obtain rfl := List.mem_singleton.mp hmem
  obtain ⟨m, hm, -⟩ := isDigit_iff.mp (isDigit_toDigits hbase n c hc)
  rw [hd] at hm
  cases hm

theorem toDigits_noSlash {base : Nat} (hbase : Radix base) (n : Nat) :
    ∀ c ∈ Nat.toDigits base n, c ∉ uriDelim :=
  toDigits_unseparated hbase n rfl

theorem toDigits_noDot (n : Nat) : ∀ c ∈ Nat.toDigits 10 n, c ∉ devDelim :=
  toDigits_unseparated decimal n rfl

theorem Address.uriChar_devText (a : Address) : ∀ c ∈ a.devText, UriChar c := by
  intro c hc
  rcases List.mem_append.mp hc with hc | hc
  · exact uriChar_toDigits decimal _ c hc
  · cases hsub : a.subDev with
    | none => simp [hsub] at hc
    | some i =>
        simp only [hsub, Option.elim_some] at hc
        rcases List.mem_cons.mp hc with rfl | hc
        · exact .inr (.inl rfl)
        · exact uriChar_toDigits decimal _ c hc

theorem Address.uriChar_text (a : Address) : ∀ c ∈ a.text, UriChar c := by
  intro c hc
  rcases List.mem_cons.mp hc with rfl | hc
  · exact .inl rfl
  · rcases List.mem_append.mp hc with hc | hc
    · exact uriChar_toDigits decimal _ c hc
    · rcases List.mem_cons.mp hc with rfl | hc
      · exact .inl rfl
      · exact a.uriChar_devText c hc

theorem Address.uriChar_append (a : Address) {rest : List Char}
    (h : ∀ c ∈ rest, UriChar c) : ∀ c ∈ a.text ++ rest, UriChar c := by
  intro c hc
  rcases List.mem_append.mp hc with hc | hc
  · exact a.uriChar_text c hc
  · exact h c hc

/-- The text of a `GET`, with or without a trailing slash. -/
def Address.getUri (a : Address) (slash : Bool) : CString where
  chars := a.text ++ if slash then ['/'] else []
  nul_notMem := nul_notMem_of_uriChars <| a.uriChar_append <| by
    cases slash with
    | false => simp
    | true => simp [UriChar]

/-- The text of a `SET`, the value in lower-case hexadecimal. -/
def Address.setUri (a : Address) (value : Value) : CString where
  chars := a.text ++ '/' :: Nat.toDigits 16 value.toNat
  nul_notMem := nul_notMem_of_uriChars <| a.uriChar_append <| by
    intro c hc
    rcases List.mem_cons.mp hc with rfl | hc
    · exact .inl rfl
    · exact uriChar_toDigits hexadecimal _ c hc

theorem length_decimal (n : Index) : (Nat.toDigits 10 n.val).length ≤ 10 := by
  rw [Nat.length_toDigits_le_iff (by omega) (by omega)]
  have := n.isLt
  omega

theorem Address.length_text (a : Address) : a.text.length ≤ 33 := by
  have hbus := length_decimal a.bus
  have hdev := length_decimal a.dev
  have hsub : (a.subDev.elim [] fun i => '.' :: Nat.toDigits 10 i.val).length ≤ 11 := by
    cases a.subDev with
    | none => simp
    | some i =>
        have := length_decimal i
        rw [Option.elim_some, List.length_cons]
        omega
  simp only [Address.text, Address.devText, List.length_cons, List.length_append]
  omega

theorem keptIdx_of_index (n : Index) : keptIdx n.val = n.val := by
  apply keptIdx_of_fits
  have := n.isLt
  constructor <;> omega

theorem keptValue_of_value (value : Value) : keptValue value.toNat = value := by
  have hfits : FitsValue value.toNat := by
    have := value.isLt
    constructor <;> omega
  exact BitVec.eq_of_toNat_eq (Int.ofNat.inj (keptValue_of_fits hfits))

theorem Address.devText_ne_nil (a : Address) : a.devText ≠ [] := by
  simp [Address.devText]

theorem Address.devText_noSlash (a : Address) : ∀ c ∈ a.devText, c ∉ uriDelim := by
  intro c hc
  rcases List.mem_append.mp hc with hc | hc
  · exact toDigits_noSlash decimal _ c hc
  · cases hsub : a.subDev with
    | none => simp [hsub] at hc
    | some i =>
        simp only [hsub, Option.elim_some] at hc
        rcases List.mem_cons.mp hc with rfl | hc
        · decide
        · exact toDigits_noSlash decimal _ c hc

theorem Address.tokens_text (a : Address) (rest : List Char) :
    tokens uriDelim (a.text ++ rest) true =
      Nat.toDigits 10 a.bus.val :: tokens uriDelim (a.devText ++ rest) true := by
  have htext : a.text ++ rest =
      '/' :: (Nat.toDigits 10 a.bus.val ++ '/' :: (a.devText ++ rest)) := by
    simp [Address.text]
  rw [htext, tokens_cons_delim (by decide),
    tokens_token Nat.toDigits_ne_nil (toDigits_noSlash decimal _) (by decide)]

/-- The device component reads as the indices it was written from. -/
theorem Address.readDev_devText (a : Address) :
    readDev a.devText =
      .ok (some (storeDev (a.dev.val, a.subDev.map fun i => (i.val : Int)))) := by
  have hdot := toDigits_noDot a.dev.val
  have hdev : readInt 10 (Nat.toDigits 10 a.dev.val) = some (a.dev.val : Int) :=
    readInt_toDigits decimal _
  cases hsub : a.subDev with
  | none =>
      have htoks : tokens devDelim a.devText true = [Nat.toDigits 10 a.dev.val] := by
        rw [Address.devText, hsub, Option.elim_none, List.append_nil,
          tokens_last Nat.toDigits_ne_nil hdot, if_pos rfl]
      simp [readDev, htoks, deviceNumbers, hdev]
  | some i =>
      have hdot' := toDigits_noDot i.val
      have hread : readInt 10 (Nat.toDigits 10 i.val) = some (i.val : Int) :=
        readInt_toDigits decimal _
      have htoks : tokens devDelim a.devText true =
          [Nat.toDigits 10 a.dev.val, Nat.toDigits 10 i.val] := by
        rw [Address.devText, hsub, Option.elim_some,
          tokens_token Nat.toDigits_ne_nil hdot (by decide),
          tokens_last Nat.toDigits_ne_nil hdot', if_pos rfl]
      simp [readDev, htoks, deviceNumbers, hdev, hread]

theorem Address.storeDev_parts (a : Address) (parts : IoData)
    (hinit : parts.idxSubDev = idxInvalid) :
    storeDev (a.dev.val, a.subDev.map fun i => (i.val : Int)) parts =
      { parts with
        idxDev := a.dev.val
        idxSubDev := a.subDev.elim idxInvalid fun i => i.val } := by
  cases hsub : a.subDev with
  | none => simp [storeDev, keptIdx_of_index, hinit]
  | some i => simp [storeDev, keptIdx_of_index]

section RoundTrip

variable (a : Address)

theorem Address.parseUri_getUri (slash : Bool) :
    parseUri (a.getUri slash) = .ok (.get, a.parts 0) := by
  have hlength : (a.getUri slash).chars.length < bufLen := by
    have := a.length_text
    cases slash <;> simp [Address.getUri, bufLen] <;> omega
  obtain ⟨hfits, hcomps⟩ := components_of_fits hlength
  have hdev : tokens uriDelim (a.devText ++ if slash then ['/'] else []) true = [a.devText] := by
    cases slash with
    | false =>
        rw [if_neg (by decide), List.append_nil, tokens_last a.devText_ne_nil a.devText_noSlash,
          if_pos rfl]
    | true =>
        rw [if_pos rfl, tokens_token a.devText_ne_nil a.devText_noSlash (by decide), tokens_nil]
  have hcomponents : components (a.getUri slash) = [Nat.toDigits 10 a.bus.val, a.devText] := by
    rw [hcomps, Address.getUri, a.tokens_text, hdev]
  rw [parseUri_get hfits hcomponents (readInt_toDigits decimal _)
      a.readDev_devText,
    a.storeDev_parts _ rfl, keptIdx_of_index]
  rfl

theorem Address.parseUri_setUri (value : Value) :
    parseUri (a.setUri value) = .ok (.set, a.parts value) := by
  have hhex : (Nat.toDigits 16 value.toNat).length ≤ 8 := by
    rw [Nat.length_toDigits_le_iff (by omega) (by omega)]
    have := value.isLt
    omega
  have hlength : (a.setUri value).chars.length < bufLen := by
    have := a.length_text
    simp only [Address.setUri, bufLen, List.length_append, List.length_cons]
    omega
  obtain ⟨hfits, hcomps⟩ := components_of_fits hlength
  have hslash := toDigits_noSlash hexadecimal value.toNat
  have hcomponents : components (a.setUri value) =
      [Nat.toDigits 10 a.bus.val, a.devText, Nat.toDigits 16 value.toNat] := by
    rw [hcomps, Address.setUri, a.tokens_text,
      tokens_token a.devText_ne_nil a.devText_noSlash (by decide),
      tokens_last Nat.toDigits_ne_nil hslash, if_pos rfl]
  rw [parseUri_set hfits hcomponents (readInt_toDigits decimal _)
      a.readDev_devText (readInt_toDigits hexadecimal _),
    a.storeDev_parts _ rfl, keptIdx_of_index, keptValue_of_value]
  rfl

/-- Every address and value that a client writes into a URI is what `parse_uri`
reads from it. -/
theorem parseUri_round_trip (value : Value) :
    parseUri (a.setUri value) = .ok (.set, a.parts value) ∧
      ∀ slash, parseUri (a.getUri slash) = .ok (.get, a.parts 0) :=
  ⟨a.parseUri_setUri value, a.parseUri_getUri⟩

end RoundTrip

end Switcher
