import Mathlib.Data.BitVec

/-!
Bits and bytes of a word: setting, clearing and reading one bit with the usual
masks, also through a narrowing, and taking a word apart.
-/

namespace Lib.Bits

variable {v w : Nat}

/-- `x` with bit `i` replaced by `on`; a bit outside the word does not exist. -/
def setBit (x : BitVec w) (i : Nat) (on : Bool) : BitVec w :=
  if on then x ||| BitVec.twoPow w i else x &&& ~~~BitVec.twoPow w i

@[simp] theorem getLsbD_setBit (x : BitVec w) (i j : Nat) (on : Bool) :
    (setBit x i on).getLsbD j = if j = i then decide (i < w) && on else x.getLsbD j := by
  by_cases hj : j < w
  · by_cases hij : j = i
    · subst hij
      cases on <;> simp [setBit, hj]
    · cases on <;> simp [setBit, hj, hij]
  · rw [BitVec.getLsbD_of_ge _ j (by omega), BitVec.getLsbD_of_ge x j (by omega)]
    by_cases hij : j = i
    · subst hij
      simp [hj]
    · simp [hij]

theorem setBit_self (x : BitVec w) (i : Nat) : setBit x i (x.getLsbD i) = x := by
  apply BitVec.eq_of_getLsbD_eq
  intro j hj
  rw [getLsbD_setBit]
  split
  · next hij => rw [hij, decide_eq_true (hij ▸ hj), Bool.true_and]
  · rfl

/-- Replacing bit `i` of a sample keeps the other bits of what was there before
exactly if the sample has them. -/
theorem setBit_keeps_iff {i : Nat} (hi : i < w) (sample before : BitVec w) (on : Bool) :
    ((setBit sample i on).getLsbD i = on ∧
        ∀ j < w, j ≠ i → (setBit sample i on).getLsbD j = before.getLsbD j) ↔
      ∀ j < w, j ≠ i → sample.getLsbD j = before.getLsbD j := by
  have hself : (setBit sample i on).getLsbD i = on := by
    rw [getLsbD_setBit, if_pos rfl, decide_eq_true hi, Bool.true_and]
  have hother (j : Nat) (hj : j ≠ i) :
      (setBit sample i on).getLsbD j = sample.getLsbD j := by
    rw [getLsbD_setBit, if_neg hj]
  constructor
  · rintro ⟨-, hkeeps⟩ j hlt hj
    rw [← hother j hj]
    exact hkeeps j hlt hj
  · intro hsample
    refine ⟨hself, ?_⟩
    intro j hlt hj
    rw [hother j hj]
    exact hsample j hlt hj

theorem getLsbD_one_shiftLeft {i : Nat} (hi : i < w) (j : Nat) :
    (1#w <<< i).getLsbD j = decide (j = i) := by
  rw [← BitVec.twoPow_eq, BitVec.getLsbD_twoPow]
  simp [hi, eq_comm]

/-- Setting or clearing a bit with a mask and narrowing the result is narrowing
first and then replacing the bit. -/
theorem setWidth_masked (x : BitVec v) {i : Nat} (hi : i < v) (hwv : w ≤ v) (c : Prop)
    [Decidable c] :
    (if c then x ||| 1#v <<< i else x &&& ~~~(1#v <<< i)).setWidth w =
      setBit (x.setWidth w) i (decide c) := by
  apply BitVec.eq_of_getLsbD_eq
  intro j hj
  have hjv : j < v := Nat.lt_of_lt_of_le hj hwv
  have hbit := getLsbD_one_shiftLeft hi j
  by_cases hc : c
  · rw [if_pos hc, BitVec.getLsbD_setWidth, BitVec.getLsbD_or, hbit, getLsbD_setBit]
    by_cases hij : j = i
    · subst hij
      simp [hj, hc]
    · simp [hj, hij]
  · rw [if_neg hc, BitVec.getLsbD_setWidth, BitVec.getLsbD_and, BitVec.getLsbD_not, hbit,
      getLsbD_setBit]
    by_cases hij : j = i
    · subst hij
      simp [hj, hc]
    · simp [hj, hjv, hij]

theorem shiftRight_and_one (x : BitVec w) (i : Nat) :
    x >>> i &&& 1#w = if x.getLsbD i then 1#w else 0#w := by
  apply BitVec.eq_of_getLsbD_eq
  intro j hj
  rw [BitVec.getLsbD_and, BitVec.getLsbD_ushiftRight, BitVec.getLsbD_one]
  by_cases hzero : j = 0
  · subst hzero
    cases x.getLsbD i <;> simp [hj]
  · cases x.getLsbD i <;> simp [hzero, hj]

/-- A word is its high and its low byte. -/
theorem halves_append (x : BitVec 16) :
    ((x &&& 0xFF00) >>> 8).setWidth 8 ++ x.setWidth 8 = x := by
  apply BitVec.eq_of_getLsbD_eq
  intro i hi
  rw [BitVec.getLsbD_append]
  by_cases hlow : i < 8
  · simp [hlow]
  · have hmask : (0xFF00 : BitVec 16).getLsbD i = true := by
      have hcases : i = 8 ∨ i = 9 ∨ i = 10 ∨ i = 11 ∨ i = 12 ∨ i = 13 ∨ i = 14 ∨ i = 15 := by
        omega
      rcases hcases with h | h | h | h | h | h | h | h <;> subst h <;> rfl
    have hsum : 8 + (i - 8) = i := by omega
    have hlt : i - 8 < 8 := by omega
    rw [if_neg hlow, BitVec.getLsbD_setWidth, BitVec.getLsbD_ushiftRight, BitVec.getLsbD_and,
      hsum, hmask]
    simp [hlt]

theorem toNat_append_bytes (high low : BitVec 8) :
    (high ++ low).toNat = low.toNat + 256 * high.toNat := by
  rw [BitVec.toNat_append, ← Nat.shiftLeft_add_eq_or_of_lt low.isLt, Nat.shiftLeft_eq]
  omega

/-- The high byte of a word is what division by 256 leaves. -/
theorem toNat_highByte (x : BitVec 16) :
    (((x &&& 0xFF00) >>> 8).setWidth 8).toNat = x.toNat / 256 := by
  have hsplit := congrArg BitVec.toNat (halves_append x)
  rw [toNat_append_bytes, BitVec.toNat_setWidth 8 x] at hsplit
  omega

/-- Two bytes packed into a wider word. -/
theorem toNat_packed (low high : BitVec 8) :
    (low.setWidth 32 ||| high.setWidth 32 <<< 8).toNat = low.toNat + 256 * high.toNat := by
  have hpack : low.setWidth 32 ||| high.setWidth 32 <<< 8 = (high ++ low).setWidth 32 := by
    rw [BitVec.setWidth_append_eq_shiftLeft_setWidth_or, BitVec.or_comm]
  have hlow := low.isLt
  have hhigh := high.isLt
  rw [hpack, BitVec.toNat_setWidth, toNat_append_bytes]
  omega

end Lib.Bits
