import Mathlib.Algebra.Ring.Int.Defs
import Mathlib.Algebra.Ring.Nat
import Mathlib.Data.List.TakeWhile
import Mathlib.Data.Nat.Init

/-!
Integers as the C library reads them from text: white space, a sign, `0x` in
base sixteen, and digits, with results that saturate at the limits of a 64-bit
`long`. Printing a natural in a base and reading it back is the identity.
-/

namespace Lib.Numeral

/-- `isspace` in the C locale. -/
def isSpace (c : Char) : Bool := decide (c = ' ' ∨ 9 ≤ c.toNat ∧ c.toNat ≤ 13)

/-- Letters count on from ten, in either case. -/
def digitValue (c : Char) : Option Nat :=
  if '0' ≤ c ∧ c ≤ '9' then some (c.toNat - '0'.toNat)
  else if 'a' ≤ c ∧ c ≤ 'z' then some (c.toNat - 'a'.toNat + 10)
  else if 'A' ≤ c ∧ c ≤ 'Z' then some (c.toNat - 'A'.toNat + 10)
  else none

def isDigit (base : Nat) (c : Char) : Bool := (digitValue c).any (· < base)

def ofDigits (base : Nat) (digits : List Char) : Nat :=
  digits.foldl (fun n c => base * n + (digitValue c).getD 0) 0

/-- A numeral at the start of a text, and the text behind it. -/
structure Scanned where
  negative : Bool
  magnitude : Nat
  rest : List Char
  deriving DecidableEq, Repr

def Scanned.value (n : Scanned) : Int :=
  if n.negative then -n.magnitude else n.magnitude

def Scanned.append (n : Scanned) (tail : List Char) : Scanned :=
  { n with rest := n.rest ++ tail }

def takeSign : List Char → Bool × List Char
  | [] => (false, [])
  | c :: s => if c = '-' then (true, s) else if c = '+' then (false, s) else (false, c :: s)

/-- `0x` counts as a prefix only in front of a digit. -/
def skipPrefix (base : Nat) : List Char → List Char
  | zero :: x :: c :: s =>
      if base = 16 ∧ zero = '0' ∧ (x = 'x' ∨ x = 'X') ∧ isDigit 16 c then c :: s
      else zero :: x :: c :: s
  | s => s

def scan (base : Nat) (s : List Char) : Option Scanned :=
  let signed := takeSign (s.dropWhile isSpace)
  let body := skipPrefix base signed.2
  if body.takeWhile (isDigit base) = [] then none
  else some ⟨signed.1, ofDigits base (body.takeWhile (isDigit base)),
    body.dropWhile (isDigit base)⟩

/-- The integer that the whole text spells. -/
def readInt (base : Nat) (s : List Char) : Option Int :=
  match scan base s with
  | none => none
  | some n => if n.rest = [] then some n.value else none

def longMin : Int := -2 ^ 63

def longMax : Int := 2 ^ 63 - 1

def ulongMax : Nat := 2 ^ 64 - 1

/-- `strtol`: the number and what `endptr` points to. -/
def strtol (s : List Char) (base : Nat) : Int × List Char :=
  match scan base s with
  | none => (0, s)
  | some n => (max longMin (min n.value longMax), n.rest)

/-- `strtoul`: a minus sign negates within `unsigned long`. -/
def strtoul (s : List Char) (base : Nat) : Nat × List Char :=
  match scan base s with
  | none => (0, s)
  | some n =>
      if ulongMax < n.magnitude then (ulongMax, n.rest)
      else ((n.value % 2 ^ 64).toNat, n.rest)

/-- What both functions leave `endptr` at: the text itself where no number
starts it. -/
def endptr (base : Nat) (s : List Char) : List Char :=
  match scan base s with
  | none => s
  | some n => n.rest

theorem strtol_endptr (s : List Char) (base : Nat) : (strtol s base).2 = endptr base s := by
  unfold strtol endptr
  cases scan base s with
  | none => rfl
  | some n => rfl

theorem strtoul_endptr (s : List Char) (base : Nat) : (strtoul s base).2 = endptr base s := by
  unfold strtoul endptr
  cases scan base s with
  | none => rfl
  | some n =>
      dsimp only
      split <;> rfl

theorem readInt_eq_some {base : Nat} {s : List Char} {z : Int} (h : readInt base s = some z) :
    ∃ n, scan base s = some n ∧ n.rest = [] ∧ n.value = z := by
  unfold readInt at h
  cases hscan : scan base s with
  | none => simp [hscan] at h
  | some n =>
      simp only [hscan] at h
      by_cases hrest : n.rest = []
      · rw [if_pos hrest] at h
        exact ⟨n, rfl, hrest, Option.some.inj h⟩
      · rw [if_neg hrest] at h
        cases h

/-- A text that is a numeral as a whole is consumed as a whole. -/
theorem strtol_of_readInt {base : Nat} {s : List Char} {z : Int} (h : readInt base s = some z) :
    strtol s base = (max longMin (min z longMax), []) := by
  obtain ⟨n, hscan, hrest, rfl⟩ := readInt_eq_some h
  rw [strtol, hscan, ← hrest]

theorem strtoul_of_readInt {base : Nat} {s : List Char} {z : Int} (h : readInt base s = some z) :
    strtoul s base = (if ulongMax < z.natAbs then ulongMax else (z % 2 ^ 64).toNat, []) := by
  obtain ⟨n, hscan, hrest, rfl⟩ := readInt_eq_some h
  have habs : n.value.natAbs = n.magnitude := by
    unfold Scanned.value
    split <;> simp
  rw [strtoul, hscan, habs, ← hrest]
  dsimp only
  split <;> rfl

/-- Of any other text something is left. -/
theorem endptr_of_not {base : Nat} {s : List Char} (h : readInt base s = none) (hne : s ≠ []) :
    endptr base s ≠ [] := by
  unfold endptr
  cases hscan : scan base s with
  | none => exact hne
  | some n =>
      intro hnil
      simp [readInt, hscan, hnil] at h

theorem takeSign_suffix (s : List Char) : (takeSign s).2 <:+ s := by
  cases s with
  | nil => exact List.suffix_refl _
  | cons a s =>
      simp only [takeSign]
      split
      · exact List.suffix_cons a s
      · split
        · exact List.suffix_cons a s
        · exact List.suffix_refl _

theorem skipPrefix_suffix (base : Nat) (s : List Char) : skipPrefix base s <:+ s := by
  unfold skipPrefix
  split
  · split
    · exact (List.suffix_cons _ _).trans (List.suffix_cons _ _)
    · exact List.suffix_refl _
  · exact List.suffix_refl _

theorem scan_rest_suffix {base : Nat} {s : List Char} {n : Scanned}
    (h : scan base s = some n) : n.rest <:+ s := by
  simp only [scan] at h
  split at h
  · cases h
  · obtain rfl := Option.some.inj h
    exact (List.dropWhile_suffix _).trans ((skipPrefix_suffix base _).trans
      ((takeSign_suffix _).trans (List.dropWhile_suffix _)))

theorem endptr_suffix (base : Nat) (s : List Char) : endptr base s <:+ s := by
  unfold endptr
  cases hscan : scan base s with
  | none => exact List.suffix_refl s
  | some n => exact scan_rest_suffix hscan

/-- A character that ends every numeral in front of it. -/
structure Ends (c : Char) : Prop where
  space : isSpace c = false
  minus : c ≠ '-'
  plus : c ≠ '+'
  digit : digitValue c = none

section Ends

variable {c : Char} (hc : Ends c) (tail : List Char)

theorem dropWhile_append_ends {p : Char → Bool} (hp : p c = false) (s : List Char) :
    (s ++ c :: tail).dropWhile p = s.dropWhile p ++ c :: tail := by
  rw [List.dropWhile_append]
  cases h : s.dropWhile p with
  | nil => simp [hp]
  | cons a t => simp

theorem takeWhile_append_ends {p : Char → Bool} (hp : p c = false) (s : List Char) :
    (s ++ c :: tail).takeWhile p = s.takeWhile p := by
  induction s with
  | nil => simp [hp]
  | cons a s ih =>
      rw [List.cons_append, List.takeWhile_cons, List.takeWhile_cons, ih]

include hc

theorem Ends.isDigit (base : Nat) : isDigit base c = false := by
  simp [Numeral.isDigit, hc.digit]

theorem Ends.ne_of_digit {d : Char} (hd : (digitValue d).isSome) : c ≠ d := by
  rintro rfl
  simp [hc.digit] at hd

theorem takeSign_append_ends (s : List Char) :
    takeSign (s ++ c :: tail) = ((takeSign s).1, (takeSign s).2 ++ c :: tail) := by
  cases s with
  | nil => simp [takeSign, hc.minus, hc.plus]
  | cons a s =>
      simp only [List.cons_append, takeSign]
      split
      · rfl
      · split <;> rfl

theorem skipPrefix_append_ends (base : Nat) (s : List Char) :
    skipPrefix base (s ++ c :: tail) = skipPrefix base s ++ c :: tail := by
  have hzero : c ≠ '0' := hc.ne_of_digit rfl
  have hx : c ≠ 'x' := hc.ne_of_digit rfl
  have hX : c ≠ 'X' := hc.ne_of_digit rfl
  rcases s with _ | ⟨a, _ | ⟨b, _ | ⟨d, s⟩⟩⟩
  · rcases tail with _ | ⟨x, _ | ⟨y, t⟩⟩
    · rfl
    · rfl
    · simp [skipPrefix, hzero]
  · rcases tail with _ | ⟨y, t⟩
    · rfl
    · simp [skipPrefix, hx, hX]
  · simp [skipPrefix, hc.isDigit]
  · simp only [List.cons_append, skipPrefix]
    split <;> rfl

theorem scan_append_ends (base : Nat) (s : List Char) :
    scan base (s ++ c :: tail) = (scan base s).map (Scanned.append · (c :: tail)) := by
  unfold scan
  simp only [dropWhile_append_ends tail hc.space, takeSign_append_ends hc tail,
    skipPrefix_append_ends hc tail base, takeWhile_append_ends tail (hc.isDigit base),
    dropWhile_append_ends tail (hc.isDigit base)]
  split <;> rfl

theorem strtol_append_ends (s : List Char) (base : Nat) :
    strtol (s ++ c :: tail) base = ((strtol s base).1, (strtol s base).2 ++ c :: tail) := by
  unfold strtol
  rw [scan_append_ends hc]
  cases scan base s with
  | none => rfl
  | some n => rfl

theorem strtoul_append_ends (s : List Char) (base : Nat) :
    strtoul (s ++ c :: tail) base = ((strtoul s base).1, (strtoul s base).2 ++ c :: tail) := by
  unfold strtoul
  rw [scan_append_ends hc]
  cases scan base s with
  | none => rfl
  | some n =>
      simp only [Option.map_some, Scanned.append, Scanned.value]
      split <;> rfl

/-- No numeral contains the character. -/
theorem readInt_eq_none_of_mem {base : Nat} {s : List Char} (hmem : c ∈ s) :
    readInt base s = none := by
  obtain ⟨a, b, rfl⟩ := List.append_of_mem hmem
  rw [readInt, scan_append_ends hc b]
  cases scan base a with
  | none => rfl
  | some n => simp [Scanned.append]

end Ends

theorem readInt_nil (base : Nat) : readInt base [] = none := rfl

section Digits

variable {base : Nat} {digits : List Char}

theorem isDigit_iff {c : Char} : isDigit base c = true ↔ ∃ d, digitValue c = some d ∧ d < base := by
  simp [isDigit, Option.any_eq_true]

/-- All digits come after the white space in the character set. -/
theorem digitValue_of_isSpace {c : Char} (hspace : isSpace c = true) : digitValue c = none := by
  have hlow : c.toNat ≤ 32 := by
    simp only [isSpace, decide_eq_true_eq] at hspace
    rcases hspace with rfl | h
    · exact Nat.le_refl _
    · omega
  have h0 : ¬ '0' ≤ c := fun h => by
    have : (48 : Nat) ≤ c.toNat := h
    omega
  have ha : ¬ 'a' ≤ c := fun h => by
    have : (97 : Nat) ≤ c.toNat := h
    omega
  have hA : ¬ 'A' ≤ c := fun h => by
    have : (65 : Nat) ≤ c.toNat := h
    omega
  simp [digitValue, h0, ha, hA]

/-- A digit of a base up to sixteen is no part of the other syntax of numerals. -/
theorem isDigit_plain (hbase : base ≤ 16) {c : Char} (hc : isDigit base c = true) :
    isSpace c = false ∧ c ≠ '-' ∧ c ≠ '+' ∧ c ≠ 'x' ∧ c ≠ 'X' := by
  obtain ⟨d, hd, hlt⟩ := isDigit_iff.mp hc
  refine ⟨?_, ?_, ?_, ?_, ?_⟩
  · by_contra hspace
    rw [digitValue_of_isSpace (Bool.not_eq_false _ ▸ hspace)] at hd
    cases hd
  · rintro rfl
    cases hd
  · rintro rfl
    cases hd
  · rintro rfl
    obtain rfl : 33 = d := Option.some.inj hd
    omega
  · rintro rfl
    obtain rfl : 33 = d := Option.some.inj hd
    omega

theorem skipPrefix_digits (hbase : base ≤ 16) (h : ∀ c ∈ digits, isDigit base c = true) :
    skipPrefix base digits = digits := by
  rcases digits with _ | ⟨a, _ | ⟨x, _ | ⟨d, s⟩⟩⟩
  · rfl
  · rfl
  · rfl
  · obtain ⟨-, -, -, hx, hX⟩ := isDigit_plain hbase (h x (by simp))
    simp [skipPrefix, hx, hX]

theorem scan_digits (hbase : base ≤ 16) (hne : digits ≠ [])
    (h : ∀ c ∈ digits, isDigit base c = true) :
    scan base digits = some ⟨false, ofDigits base digits, []⟩ := by
  obtain ⟨c, s, rfl⟩ := List.exists_cons_of_ne_nil hne
  obtain ⟨hspace, hminus, hplus, -, -⟩ := isDigit_plain hbase (h c (by simp))
  have hsign : takeSign ((c :: s).dropWhile isSpace) = (false, c :: s) := by
    simp [hspace, takeSign, hminus, hplus]
  have htake : (c :: s).takeWhile (isDigit base) = c :: s := List.takeWhile_eq_self_iff.mpr h
  have hdrop : (c :: s).dropWhile (isDigit base) = [] := List.dropWhile_eq_nil_iff.mpr h
  simp only [scan, hsign, skipPrefix_digits hbase h, htake, hdrop]
  simp

theorem scan_prefixed (hne : digits ≠ []) (h : ∀ c ∈ digits, isDigit 16 c = true) :
    scan 16 ('0' :: 'x' :: digits) = some ⟨false, ofDigits 16 digits, []⟩ := by
  have hsign : takeSign (('0' :: 'x' :: digits).dropWhile isSpace) =
      (false, '0' :: 'x' :: digits) := rfl
  have hskip : skipPrefix 16 ('0' :: 'x' :: digits) = digits := by
    obtain ⟨c, s, rfl⟩ := List.exists_cons_of_ne_nil hne
    rw [skipPrefix, if_pos ⟨rfl, rfl, .inl rfl, h c (by simp)⟩]
  have htake : digits.takeWhile (isDigit 16) = digits := List.takeWhile_eq_self_iff.mpr h
  have hdrop : digits.dropWhile (isDigit 16) = [] := List.dropWhile_eq_nil_iff.mpr h
  simp only [scan, hsign, hskip, htake, hdrop]
  simp [hne]

theorem ofDigits_concat (digits : List Char) (c : Char) :
    ofDigits base (digits ++ [c]) = base * ofDigits base digits + (digitValue c).getD 0 := by
  simp [ofDigits]

theorem digitValue_digitChar : ∀ d < 16, digitValue d.digitChar = some d := by
  decide

/-- A base in which every number has digits to be printed with. -/
structure Radix (base : Nat) : Prop where
  one_lt : 1 < base
  le_sixteen : base ≤ 16

theorem decimal : Radix 10 := ⟨by omega, by omega⟩

theorem hexadecimal : Radix 16 := ⟨by omega, by omega⟩

variable (hbase : Radix base)
include hbase

theorem digitChar_of_mem_toDigits (n : Nat) :
    ∀ c ∈ Nat.toDigits base n, ∃ d < base, c = d.digitChar := by
  have hlow := hbase.one_lt
  induction n using Nat.strong_induction_on with
  | _ n ih =>
      intro c hc
      rw [Nat.toDigits_eq_if hlow] at hc
      by_cases hn : n < base
      · rw [if_pos hn, List.mem_singleton] at hc
        exact ⟨n, hn, hc⟩
      · rw [if_neg hn, List.mem_append, List.mem_singleton] at hc
        rcases hc with hc | rfl
        · exact ih (n / base) (Nat.div_lt_self (by omega) hlow) c hc
        · exact ⟨n % base, Nat.mod_lt n (by omega), rfl⟩

theorem isDigit_toDigits (n : Nat) : ∀ c ∈ Nat.toDigits base n, isDigit base c = true := by
  intro c hc
  have hhigh := hbase.le_sixteen
  obtain ⟨d, hd, rfl⟩ := digitChar_of_mem_toDigits hbase n c hc
  exact isDigit_iff.mpr ⟨d, digitValue_digitChar d (by omega), hd⟩

theorem Ends.notMem_toDigits {c : Char} (hc : Ends c) (n : Nat) : c ∉ Nat.toDigits base n := by
  intro hmem
  obtain ⟨d, hd, -⟩ := isDigit_iff.mp (isDigit_toDigits hbase n c hmem)
  simp [hc.digit] at hd

theorem ofDigits_toDigits (n : Nat) : ofDigits base (Nat.toDigits base n) = n := by
  obtain ⟨hlow, hhigh⟩ := hbase
  induction n using Nat.strong_induction_on with
  | _ n ih =>
      rw [Nat.toDigits_eq_if hlow]
      by_cases hn : n < base
      · rw [if_pos hn]
        simp [ofDigits, digitValue_digitChar n (by omega)]
      · have hmod : n % base < base := Nat.mod_lt n (by omega)
        rw [if_neg hn, ofDigits_concat, ih (n / base) (Nat.div_lt_self (by omega) hlow),
          digitValue_digitChar _ (by omega)]
        exact Nat.div_add_mod n base

/-- What was printed is read back. -/
theorem readInt_toDigits (n : Nat) :
    readInt base (Nat.toDigits base n) = some (n : Int) := by
  have hscan := scan_digits hbase.le_sixteen Nat.toDigits_ne_nil (isDigit_toDigits hbase n)
  rw [readInt, hscan]
  simp [Scanned.value, ofDigits_toDigits hbase n]

theorem readInt_neg_toDigits (n : Nat) :
    readInt base ('-' :: Nat.toDigits base n) = some (-n : Int) := by
  have hdigits := isDigit_toDigits hbase n
  have hskip := skipPrefix_digits hbase.le_sixteen hdigits
  have htake := List.takeWhile_eq_self_iff.mpr hdigits
  have hdrop := List.dropWhile_eq_nil_iff.mpr hdigits
  have hscan : scan base ('-' :: Nat.toDigits base n) =
      some ⟨true, ofDigits base (Nat.toDigits base n), []⟩ := by
    have hsign : takeSign (('-' :: Nat.toDigits base n).dropWhile isSpace) =
        (true, Nat.toDigits base n) := rfl
    simp only [scan, hsign, hskip, htake, hdrop, if_neg Nat.toDigits_ne_nil]
  rw [readInt, hscan]
  simp [Scanned.value, ofDigits_toDigits hbase n]

theorem strtoul_toDigits {n : Nat} (hn : n ≤ ulongMax) :
    strtoul (Nat.toDigits base n) base = (n, []) := by
  have hmod : ((n : Int) % 2 ^ 64).toNat = n := by
    simp only [ulongMax] at hn
    omega
  rw [strtoul_of_readInt (readInt_toDigits hbase n), Int.natAbs_natCast,
    if_neg (Nat.not_lt.mpr hn), hmod]

theorem toDigits_injective {m n : Nat} (h : Nat.toDigits base m = Nat.toDigits base n) : m = n := by
  rw [← ofDigits_toDigits hbase m, h, ofDigits_toDigits hbase]

omit hbase in
/-- A number printed with its prefix in base sixteen. -/
theorem strtol_hexadecimal (n : Nat) :
    (strtol ('0' :: 'x' :: Nat.toDigits 16 n) 16).1 = max longMin (min n longMax) := by
  have hscan := scan_prefixed Nat.toDigits_ne_nil (isDigit_toDigits hexadecimal n)
  rw [strtol, hscan]
  simp [Scanned.value, ofDigits_toDigits hexadecimal n]

end Digits

end Lib.Numeral
