import Mathlib.Data.List.TakeWhile
import Mathlib.Data.Nat.Init

/-!
C strings in a buffer, and `strtok_r` writing terminators into it. What a
sequence of calls yields are the non-empty pieces of the text between
delimiters, as far as the text ends within the buffer.
-/

namespace Lib.Text

def nul : Char := Char.ofNat 0

/-- The characters of a C string, up to its terminator. -/
structure CString where
  chars : List Char
  nul_notMem : nul ∉ chars

/-- The string at the start of a buffer. -/
def CString.ofBuffer (buf : List Char) : CString :=
  ⟨buf.takeWhile (· ≠ nul), fun h => by simpa using List.mem_takeWhile_imp h⟩

def CString.empty : CString := ⟨[], List.not_mem_nil⟩

def CString.take (s : CString) (n : Nat) : CString :=
  ⟨s.chars.take n, fun h => s.nul_notMem (List.mem_of_mem_take h)⟩

theorem CString.ext {s t : CString} (h : s.chars = t.chars) : s = t := by
  cases s
  cases t
  cases h
  rfl

instance : DecidableEq CString := fun _ _ =>
  decidable_of_iff _ ⟨CString.ext, congrArg CString.chars⟩

@[simp] theorem ofBuffer_chars (s : CString) : CString.ofBuffer s.chars = s := by
  apply CString.ext
  apply List.takeWhile_eq_self_iff.mpr
  intro c hc
  have hne : c ≠ nul := by
    rintro rfl
    exact s.nul_notMem hc
  simpa using hne

theorem ofBuffer_of_nul_notMem {buf : List Char} (h : nul ∉ buf) :
    CString.ofBuffer buf = ⟨buf, h⟩ :=
  ofBuffer_chars ⟨buf, h⟩

/-- The buffer of `n` characters that `strncpy` leaves. -/
def strncpy (src : CString) (n : Nat) : List Char :=
  (src.chars ++ List.replicate n nul).take n

/-- `strncmp(a, b, n) == 0`. -/
def StrncmpEq (a b : List Char) (n : Nat) : Prop :=
  (a.take n).takeWhile (· ≠ nul) = (b.take n).takeWhile (· ≠ nul)

instance (a b : List Char) (n : Nat) : Decidable (StrncmpEq a b n) :=
  inferInstanceAs (Decidable (_ = _))

/-- `*strtok_r(...)`, `*saveptr` and the buffer, with pointers as indices. -/
structure Tokenized where
  token : Option Nat
  saveptr : Nat
  buf : List Char

/-- `strtok_r` at an index of a buffer; no result where it reads beyond it. -/
def strtokR (delim buf : List Char) (start : Nat) : Option Tokenized :=
  let s := start + ((buf.drop start).takeWhile (· ∈ delim)).length
  match buf[s]? with
  | none => none
  | some c =>
      if c = nul then some ⟨none, s, buf⟩
      else
        let e := s + ((buf.drop s).takeWhile fun c => c ≠ nul ∧ c ∉ delim).length
        match buf[e]? with
        | none => none
        | some c =>
            if c = nul then some ⟨some s, e, buf⟩
            else some ⟨some s, e + 1, buf.set e nul⟩

/-- From `start` on the buffer holds `text`, and then a terminator or, if it is
not `closed`, nothing. -/
structure Reads (buf : List Char) (start : Nat) (text : List Char) (closed : Bool) : Prop where
  nul_notMem : nul ∉ text
  tail : ∃ tail, buf.drop start = text ++ tail ∧
    if closed then ∃ junk, tail = nul :: junk else tail = []

/-- The pieces of a text that a tokenizer gets to see: one that runs up to the
end of an unterminated buffer is lost. -/
def tokens (delim text : List Char) (closed : Bool) : List (List Char) :=
  let pieces := text.splitOnP (· ∈ delim)
  (if closed then pieces else pieces.dropLast).filter (· ≠ [])

section Strncmp

variable {n : Nat}

theorem takeWhile_take_of_nul_notMem {a : List Char} (h : nul ∉ a) :
    (a.take n).takeWhile (· ≠ nul) = a.take n := by
  apply List.takeWhile_eq_self_iff.mpr
  intro c hc
  have hne : c ≠ nul := by
    rintro rfl
    exact h (List.mem_of_mem_take hc)
  simpa using hne

theorem strncmpEq_iff {a b : List Char} (ha : nul ∉ a) (hb : nul ∉ b) :
    StrncmpEq a b n ↔ a.take n = b.take n := by
  rw [StrncmpEq, takeWhile_take_of_nul_notMem ha, takeWhile_take_of_nul_notMem hb]

/-- Against a shorter text the bound does not matter. -/
theorem strncmpEq_short {a b : List Char} (ha : nul ∉ a) (hb : nul ∉ b) (hlen : b.length < n) :
    StrncmpEq a b n ↔ a = b := by
  rw [strncmpEq_iff ha hb, List.take_of_length_le (Nat.le_of_lt hlen)]
  constructor
  · intro h
    have hshort : a.length < n := by
      have := congrArg List.length h
      rw [List.length_take] at this
      omega
    rwa [List.take_of_length_le (Nat.le_of_lt hshort)] at h
  · rintro rfl
    exact List.take_of_length_le (Nat.le_of_lt hlen)

theorem strncmpEq_prefix {a b : List Char} (ha : nul ∉ a) (hb : nul ∉ b) :
    StrncmpEq a b b.length ↔ b <+: a := by
  rw [strncmpEq_iff ha hb, List.take_length, List.prefix_iff_eq_take]
  exact eq_comm

/-- What `strncpy` copied compares equal to its source. -/
theorem strncmpEq_strncpy (src : CString) {b : List Char} (hb : nul ∉ b) :
    StrncmpEq (strncpy src n) b n ↔ src.chars.take n = b.take n := by
  have hcopy : ((strncpy src n).take n).takeWhile (· ≠ nul) = src.chars.take n := by
    rw [strncpy, List.take_take, Nat.min_self, List.take_append,
      List.takeWhile_append_of_pos, List.take_replicate]
    · rw [List.takeWhile_replicate]
      simp
    · intro c hc
      have hne : c ≠ nul := by
        rintro rfl
        exact src.nul_notMem (List.mem_of_mem_take hc)
      simpa using hne
  rw [StrncmpEq, hcopy, takeWhile_take_of_nul_notMem hb]

end Strncmp

section Tokens

variable {delim text tok rest : List Char} {closed : Bool}

theorem tokens_cons_delim {c : Char} (hc : c ∈ delim) :
    tokens delim (c :: text) closed = tokens delim text closed := by
  have hsplit : (c :: text).splitOnP (· ∈ delim) = [] :: text.splitOnP (· ∈ delim) := by
    rw [List.splitOnP_cons_eq_if_modifyHead]
    simp [hc]
  have hne := List.splitOnP_ne_nil (fun c => decide (c ∈ delim)) text
  cases closed with
  | true => simp [tokens, hsplit]
  | false => simp [tokens, hsplit, List.dropLast_cons_of_ne_nil hne]

theorem tokens_skip (h : ∀ c ∈ tok, c ∈ delim) :
    tokens delim (tok ++ text) closed = tokens delim text closed := by
  induction tok with
  | nil => rfl
  | cons c tok ih =>
      rw [List.cons_append, tokens_cons_delim (h c (by simp))]
      exact ih fun d hd => h d (by simp [hd])

theorem tokens_nil : tokens delim [] closed = [] := by
  cases closed <;> rfl

theorem tokens_blank (h : ∀ c ∈ text, c ∈ delim) : tokens delim text closed = [] := by
  rw [← List.append_nil text, tokens_skip h, tokens_nil]

theorem tokens_last (hne : tok ≠ []) (h : ∀ c ∈ tok, c ∉ delim) :
    tokens delim tok closed = if closed then [tok] else [] := by
  have hsplit : tok.splitOnP (· ∈ delim) = [tok] :=
    List.splitOnP_eq_singleton fun c hc => by simpa using h c hc
  cases closed with
  | true => simp [tokens, hsplit, hne]
  | false => simp [tokens, hsplit]

theorem tokens_token (hne : tok ≠ []) (h : ∀ c ∈ tok, c ∉ delim) {d : Char} (hd : d ∈ delim) :
    tokens delim (tok ++ d :: rest) closed = tok :: tokens delim rest closed := by
  have hsplit : (tok ++ d :: rest).splitOnP (· ∈ delim) =
      tok :: rest.splitOnP (· ∈ delim) :=
    List.splitOnP_append_cons_of_forall_mem (fun c hc => by simpa using h c hc) d
      (by simpa using hd) rest
  have hrest := List.splitOnP_ne_nil (fun c => decide (c ∈ delim)) rest
  cases closed with
  | true => simp [tokens, hsplit, hne]
  | false => simp [tokens, hsplit, hne, List.dropLast_cons_of_ne_nil hrest]

theorem ne_nil_of_mem_tokens (h : tok ∈ tokens delim text closed) : tok ≠ [] := by
  simpa using (List.mem_filter.mp h).2

end Tokens

/-- A text up to and including its first token. -/
inductive Front (delim : List Char) : List Char → Prop where
  | blank {skip : List Char} (hskip : ∀ c ∈ skip, c ∈ delim) : Front delim skip
  | last {skip tok : List Char} (hskip : ∀ c ∈ skip, c ∈ delim) (hne : tok ≠ [])
      (htok : ∀ c ∈ tok, c ∉ delim) : Front delim (skip ++ tok)
  | token {skip tok rest : List Char} {d : Char} (hskip : ∀ c ∈ skip, c ∈ delim)
      (hne : tok ≠ []) (htok : ∀ c ∈ tok, c ∉ delim) (hd : d ∈ delim) :
      Front delim (skip ++ (tok ++ d :: rest))

theorem front (delim text : List Char) : Front delim text := by
  cases hfind : text.find? (· ∉ delim) with
  | none =>
      exact .blank fun c hc => by simpa using List.find?_eq_none.mp hfind c hc
  | some a =>
      obtain ⟨ha, skip, body, rfl, hskip⟩ := List.find?_eq_some_iff_append.mp hfind
      have hskip' : ∀ c ∈ skip, c ∈ delim := fun c hc => by simpa using hskip c hc
      cases hend : (a :: body).find? (· ∈ delim) with
      | none =>
          exact .last hskip' (by simp) fun c hc => by
            simpa using List.find?_eq_none.mp hend c hc
      | some d =>
          obtain ⟨hd, tok, rest, heq, htok⟩ := List.find?_eq_some_iff_append.mp hend
          have hne : tok ≠ [] := by
            rintro rfl
            obtain ⟨rfl, -⟩ := List.cons.inj heq
            simp at ha hd
            exact ha hd
          rw [heq]
          exact .token hskip' hne (fun c hc => by simpa using htok c hc) (by simpa using hd)

theorem tokens_eq_nil_iff {delim text : List Char} :
    tokens delim text true = [] ↔ ∀ c ∈ text, c ∈ delim := by
  refine ⟨?_, tokens_blank⟩
  intro hnil
  cases front delim text with
  | blank hskip => exact hskip
  | last hskip hne htok =>
      rw [tokens_skip hskip, tokens_last hne htok] at hnil
      cases hnil
  | token hskip hne htok hd =>
      rw [tokens_skip hskip, tokens_token hne htok hd] at hnil
      cases hnil

/-- What is seen of a text that is cut off is a front part of its tokens. -/
theorem tokens_cut_prefix (delim a b : List Char) :
    tokens delim a false <+: tokens delim (a ++ b) true := by
  induction hn : a.length using Nat.strong_induction_on generalizing a with
  | _ n ih =>
      cases front delim a with
      | blank hskip =>
          rw [tokens_blank hskip]
          exact List.nil_prefix
      | last hskip hne htok =>
          rw [tokens_skip hskip, tokens_last hne htok]
          exact List.nil_prefix
      | @token skip tok rest d hskip hne htok hd =>
          have hlength : rest.length < n := by
            simp only [List.length_append, List.length_cons] at hn
            omega
          rw [tokens_skip hskip, tokens_token hne htok hd, List.append_assoc, tokens_skip hskip,
            List.append_assoc, List.cons_append, tokens_token hne htok hd, List.cons_prefix_cons]
          exact ⟨rfl, ih rest.length hlength rest rfl⟩

section Strtok

variable {delim buf text tok : List Char} {start : Nat} {closed : Bool}

theorem drop_of_drop {a b : List Char} (h : buf.drop start = a ++ b) :
    buf.drop (start + a.length) = b := by
  rw [← List.drop_drop, h, List.drop_left]

theorem getElem?_of_drop {a b : List Char} (h : buf.drop start = a ++ b) :
    buf[start + a.length]? = b.head? := by
  rw [List.head?_eq_getElem?, ← drop_of_drop h, List.getElem?_drop, Nat.add_zero]

theorem span_stop {p : Char → Bool} {a b : List Char} (ha : ∀ c ∈ a, p c = true)
    (hb : ∀ c ∈ b.head?, p c = false) : (a ++ b).takeWhile p = a := by
  rw [List.takeWhile_append_of_pos ha]
  cases b with
  | nil => simp
  | cons c b => simp [hb c (by simp)]

/-- What stands at index `s` decides the call, once the delimiters in front are
skipped. -/
theorem strtokR_skip (skip body : List Char) (hskip : ∀ c ∈ skip, c ∈ delim)
    (hbody : ∀ c ∈ body.head?, c ∉ delim) (h : buf.drop start = skip ++ body) :
    strtokR delim buf start =
      match body.head? with
      | none => none
      | some c =>
          if c = nul then some ⟨none, start + skip.length, buf⟩
          else
            let s := start + skip.length
            let e := s + (body.takeWhile fun c => c ≠ nul ∧ c ∉ delim).length
            match buf[e]? with
            | none => none
            | some c =>
                if c = nul then some ⟨some s, e, buf⟩
                else some ⟨some s, e + 1, buf.set e nul⟩ := by
  have hspan : (buf.drop start).takeWhile (· ∈ delim) = skip := by
    rw [h]
    apply span_stop
    · simpa using hskip
    · simpa using hbody
  unfold strtokR
  simp only [hspan, getElem?_of_drop h, drop_of_drop h]

theorem Reads.closed_tail (h : Reads buf start text true) :
    ∃ junk, buf.drop start = text ++ nul :: junk := by
  obtain ⟨tail, hdrop, hend⟩ := h.tail
  obtain ⟨junk, rfl⟩ := hend
  exact ⟨junk, hdrop⟩

theorem Reads.open_tail (h : Reads buf start text false) : buf.drop start = text := by
  obtain ⟨tail, hdrop, hend⟩ := h.tail
  simp only [Bool.false_eq_true, if_false] at hend
  rw [hdrop, hend, List.append_nil]

theorem reads_closed {junk : List Char} (hnul : nul ∉ text)
    (h : buf.drop start = text ++ nul :: junk) : Reads buf start text true :=
  ⟨hnul, nul :: junk, h, junk, rfl⟩

/-- The characters of a token stop neither at a delimiter nor at a terminator. -/
theorem span_token (stop : List Char) (hnul : nul ∉ tok) (htok : ∀ c ∈ tok, c ∉ delim)
    (hstop : ∀ c ∈ stop.head?, c = nul ∨ c ∈ delim) :
    ((tok ++ stop).takeWhile fun c => c ≠ nul ∧ c ∉ delim) = tok := by
  apply span_stop
  · intro c hc
    have hne : c ≠ nul := by
      rintro rfl
      exact hnul hc
    simp [hne, htok c hc]
  · intro c hc
    rcases hstop c hc with rfl | hmem
    · simp
    · simp [hmem]

/-- The call when a token stands behind the skipped delimiters: the character it
stops at decides. -/
theorem strtokR_at_token {skip stop : List Char} (hskip : ∀ c ∈ skip, c ∈ delim) (hne : tok ≠ [])
    (hnul : nul ∉ tok) (htok : ∀ c ∈ tok, c ∉ delim)
    (hstop : ∀ c ∈ stop.head?, c = nul ∨ c ∈ delim) (h : buf.drop start = skip ++ (tok ++ stop)) :
    strtokR delim buf start =
      match stop.head? with
      | none => none
      | some c =>
          let s := start + skip.length
          let e := s + tok.length
          if c = nul then some ⟨some s, e, buf⟩ else some ⟨some s, e + 1, buf.set e nul⟩ := by
  obtain ⟨c, t, rfl⟩ := List.exists_cons_of_ne_nil hne
  have hc : c ≠ nul := by
    rintro rfl
    simp at hnul
  have hend := getElem?_of_drop (drop_of_drop h)
  rw [strtokR_skip _ _ hskip (by simpa using htok c (by simp)) h, span_token _ hnul htok hstop]
  simp only [List.cons_append, List.head?_cons, if_neg hc, hend]

/-- No token left in a text that the buffer cuts off. -/
theorem strtokR_overrun (h : Reads buf start text false)
    (hnone : tokens delim text false = []) : strtokR delim buf start = none := by
  have hdrop := h.open_tail
  have hnul := h.nul_notMem
  cases front delim text with
  | blank hskip =>
      rw [strtokR_skip _ [] hskip (by simp) (by simpa using hdrop)]
      rfl
  | @last skip tok hskip hne htok =>
      have htoknul : nul ∉ tok := fun hmem => hnul (List.mem_append_right _ hmem)
      have hcut : buf.drop start = skip ++ (tok ++ []) := by rw [hdrop, List.append_nil]
      rw [strtokR_at_token hskip hne htoknul htok (by simp) hcut]
      rfl
  | token hskip hne htok hd =>
      rw [tokens_skip hskip, tokens_token hne htok hd] at hnone
      cases hnone

/-- What a call that finds the token `tok` leaves: the token is terminated, the
text after it is still to be read, and nothing behind the text has changed. -/
structure Found (delim buf : List Char) (start : Nat) (text tok : List Char)
    (more : List (List Char)) (closed : Bool) (r : Tokenized) (i : Nat) (rest : List Char) :
    Prop where
  token : r.token = some i
  reads : Reads r.buf i tok true
  saved : Reads r.buf r.saveptr rest closed
  more : tokens delim rest closed = more
  order : i + tok.length ≤ r.saveptr
  extent : r.saveptr + rest.length = start + text.length
  frame : ∀ j, start + text.length ≤ j → r.buf.drop j = buf.drop j

/-- The last token of a text that ends within the buffer is terminated already. -/
theorem strtokR_found_last {skip : List Char} (hskip : ∀ c ∈ skip, c ∈ delim) (hne : tok ≠ [])
    (htok : ∀ c ∈ tok, c ∉ delim) (h : Reads buf start (skip ++ tok) true) :
    ∃ r i rest, strtokR delim buf start = some r ∧
      Found delim buf start (skip ++ tok) tok [] true r i rest := by
  obtain ⟨junk, hdrop⟩ := h.closed_tail
  rw [List.append_assoc] at hdrop
  have htoken := drop_of_drop hdrop
  have hend := drop_of_drop htoken
  have hnul : nul ∉ tok := fun hmem => h.nul_notMem (List.mem_append_right _ hmem)
  refine ⟨⟨some (start + skip.length), start + skip.length + tok.length, buf⟩,
    start + skip.length, [], ?_, rfl, reads_closed hnul htoken,
    reads_closed (by simp) hend, tokens_nil, Nat.le_refl _, ?_, fun j hj => rfl⟩
  · rw [strtokR_at_token hskip hne hnul htok (by simp) hdrop]
    simp only [List.head?_cons, if_true]
  · simp only [List.length_append, List.length_nil]
    omega

variable (hdelim : nul ∉ delim)
include hdelim

/-- No token left in a text that ends within the buffer. -/
theorem strtokR_end (h : Reads buf start text true) (hnone : tokens delim text true = []) :
    ∃ saveptr, strtokR delim buf start = some ⟨none, saveptr, buf⟩ := by
  obtain ⟨junk, hdrop⟩ := h.closed_tail
  cases front delim text with
  | blank hskip =>
      refine ⟨start + text.length, ?_⟩
      rw [strtokR_skip _ _ hskip (by simpa using hdelim) hdrop]
      simp
  | last hskip hne htok =>
      rw [tokens_skip hskip, tokens_last hne htok] at hnone
      cases hnone
  | token hskip hne htok hd =>
      rw [tokens_skip hskip, tokens_token hne htok hd] at hnone
      cases hnone

/-- A token with a delimiter behind it, which gives way to the terminator. -/
theorem strtokR_found_token {skip rest : List Char} {d : Char} (hskip : ∀ c ∈ skip, c ∈ delim)
    (hne : tok ≠ []) (htok : ∀ c ∈ tok, c ∉ delim) (hd : d ∈ delim)
    (h : Reads buf start (skip ++ (tok ++ d :: rest)) closed) :
    ∃ r i rest', strtokR delim buf start = some r ∧
      Found delim buf start (skip ++ (tok ++ d :: rest)) tok (tokens delim rest closed) closed
        r i rest' := by
  obtain ⟨tail, hdrop, hend⟩ := h.tail
  rw [List.append_assoc, List.append_assoc, List.cons_append] at hdrop
  have htoken := drop_of_drop hdrop
  have hrest : buf.drop (start + skip.length + tok.length + 1) = rest ++ tail := by
    rw [← List.drop_drop, drop_of_drop htoken]
    rfl
  have hnul : nul ∉ tok := fun hmem =>
    h.nul_notMem (List.mem_append_right _ (List.mem_append_left _ hmem))
  have hd' : d ≠ nul := by
    rintro rfl
    exact hdelim hd
  have hcut : (buf.set (start + skip.length + tok.length) nul).drop (start + skip.length) =
      tok ++ nul :: (rest ++ tail) := by
    rw [List.drop_set, if_neg (by omega), htoken, Nat.add_sub_cancel_left,
      List.set_append_right _ _ (Nat.le_refl _), Nat.sub_self]
    rfl
  refine ⟨⟨some (start + skip.length), start + skip.length + tok.length + 1,
    buf.set (start + skip.length + tok.length) nul⟩, start + skip.length, rest,
    ?_, rfl, reads_closed hnul hcut, ⟨?_, tail, ?_, hend⟩, rfl, Nat.le_succ _, ?_, ?_⟩
  · rw [strtokR_at_token hskip hne hnul htok (by simp [hd]) hdrop]
    simp only [List.head?_cons, if_neg hd']
  · intro hmem
    apply h.nul_notMem
    simp [hmem]
  · rw [List.drop_set, if_pos (Nat.lt_succ_self _), hrest]
  · simp only [List.length_append, List.length_cons]
    omega
  · intro j hj
    simp only [List.length_append, List.length_cons] at hj
    rw [List.drop_set, if_pos (by omega)]

theorem strtokR_found {more : List (List Char)} (h : Reads buf start text closed)
    (hsome : tokens delim text closed = tok :: more) :
    ∃ r i rest, strtokR delim buf start = some r ∧
      Found delim buf start text tok more closed r i rest := by
  cases front delim text with
  | blank hskip =>
      rw [tokens_blank hskip] at hsome
      cases hsome
  | last hskip hne htok =>
      rw [tokens_skip hskip, tokens_last hne htok] at hsome
      cases closed with
      | false => cases hsome
      | true =>
          obtain ⟨rfl, rfl⟩ := List.cons.inj hsome
          exact strtokR_found_last hskip hne htok h
  | token hskip hne htok hd =>
      rw [tokens_skip hskip, tokens_token hne htok hd] at hsome
      obtain ⟨rfl, rfl⟩ := List.cons.inj hsome
      exact strtokR_found_token hdelim hskip hne htok hd h

end Strtok

end Lib.Text
