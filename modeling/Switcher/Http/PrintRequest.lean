import Switcher.Http.Content

/-!
`print_request`, which logs a request. Every append is given the whole `BUF_LEN`
as its size, wherever in `message` it starts. The model keeps the arguments of
each call of `snprintf`; a character written behind the array is a fault.
-/

namespace Switcher

open Lib.Program Lib.Text Lib.Numeral

/-- The arguments of a call of `snprintf`: the offset in `message` and the size. -/
structure PrintCall where
  start : Int
  size : Nat
  deriving DecidableEq, Repr

/-- `message` and `cnt`, and the calls made so far. -/
structure MessageState where
  message : List Char
  cnt : Int
  calls : List PrintCall

abbrev PrintM (α : Type) := EStateM Fault MessageState α

def freshMessage : MessageState := ⟨List.replicate bufLen nul, 0, []⟩

def intMax : Int := 2 ^ 31 - 1

/-- What `snprintf` returns: the length of the whole text, also of one that it
cuts. -/
def snprintfResult (text : List Char) : Int :=
  if intMax < text.length then -1 else text.length

/-- `cnt += snprintf(message + cnt, BUF_LEN, ...)`. -/
def printAppend (text : List Char) : PrintM Unit := do
  modify fun s => { s with calls := s.calls ++ [⟨s.cnt, bufLen⟩] }
  let s ← get
  if 0 ≤ s.cnt ∧ s.cnt + (text.take (bufLen - 1)).length < s.message.length then
    set { s with
      message := s.message.take s.cnt.toNat ++ snprintf text (s.message.drop s.cnt.toNat)
      cnt := s.cnt + snprintfResult text }
  else throw .outOfBounds

/-- `%02X`. -/
def formatHexByte (value : Value) : List Char :=
  let digits := (Nat.toDigits 16 value.toNat).map Char.toUpper
  List.replicate (2 - digits.length) '0' ++ digits

def RequestT.word : RequestT → List Char
  | .get => "Request: GET, ".toList
  | .set => "Request: SET, ".toList
  | .err => "Request: ERR, ".toList

def uriText (uri : CString) : List Char := "URI: ".toList ++ uri.chars

def deviceText (parts : IoData) : List Char :=
  ", Bus: ".toList ++ formatInt parts.idxBus ++ ", Device: ".toList ++ formatInt parts.idxDev

def subDeviceText (parts : IoData) : List Char :=
  ", Sub-Device: ".toList ++ formatInt parts.idxSubDev

def valueText (parts : IoData) : List Char := ", Value: 0x".toList ++ formatHexByte parts.value

def printIf (c : Prop) [Decidable c] (text : List Char) : PrintM Unit :=
  if c then printAppend text else pure ()

/-- The appends that only an accepted request gets. -/
def printParts (parts : IoData) (type : RequestT) : PrintM Unit :=
  if type ≠ .err then do
    printAppend (deviceText parts)
    printIf (parts.idxSubDev ≠ idxInvalid) (subDeviceText parts)
    printIf (type = .set) (valueText parts)
  else pure ()

/-- `syslog(LOG_INFO, "%s", message)`: the text that is logged. -/
def logMessage : PrintM (List Char) := do
  let s ← get
  if nul ∈ s.message then return cText s.message else throw .outOfBounds

def printRequest (uri : CString) (parts : IoData) (type : RequestT) : PrintM (List Char) := do
  printAppend type.word
  printAppend (uriText uri)
  printParts parts type
  logMessage

def partsText (parts : IoData) (type : RequestT) : List Char :=
  if type ≠ .err then
    deviceText parts ++
      ((if parts.idxSubDev ≠ idxInvalid then subDeviceText parts else []) ++
        if type = .set then valueText parts else [])
  else []

/-- The line that is meant to be logged. -/
def requestText (uri : CString) (parts : IoData) (type : RequestT) : List Char :=
  type.word ++ (uriText uri ++ partsText parts type)

/-- Every append is given what is left of `message`, and what is logged is
terminated. -/
structure PrintsInside (uri : CString) (parts : IoData) (type : RequestT) : Prop where
  calls : ∀ call ∈ (final (printRequest uri parts type) freshMessage).calls,
    0 ≤ call.start ∧ call.start < bufLen ∧ (call.size : Int) ≤ bufLen - call.start
  logged : ∃ text s, printRequest uri parts type freshMessage = .ok text s ∧ nul ∈ s.message

section Appends

variable {past text : List Char} {s : MessageState}

/-- The message is `past`, terminated. -/
structure Holds (past : List Char) (s : MessageState) : Prop where
  cnt : s.cnt = past.length
  text : ∃ tail, s.message = past ++ nul :: tail
  length : s.message.length = bufLen

theorem printAppend_eq (text : List Char) (s : MessageState) :
    printAppend text s =
      if 0 ≤ s.cnt ∧ s.cnt + (text.take (bufLen - 1)).length < s.message.length then
        .ok () ⟨s.message.take s.cnt.toNat ++ snprintf text (s.message.drop s.cnt.toNat),
          s.cnt + snprintfResult text, s.calls ++ [⟨s.cnt, bufLen⟩]⟩
      else .error .outOfBounds { s with calls := s.calls ++ [⟨s.cnt, bufLen⟩] } := by
  unfold printAppend
  rw [bind_of_ok (run_modify _ s), bind_of_ok (run_get _)]
  split <;> rfl

/-- A text that fits is appended. -/
theorem printAppend_fits (h : Holds past s) (hfits : (past ++ text).length < bufLen) :
    ∃ t, printAppend text s = .ok () t ∧ Holds (past ++ text) t := by
  obtain ⟨hcnt, ⟨tail, hmessage⟩, hlength⟩ := h
  rw [List.length_append] at hfits
  have htake : text.take (bufLen - 1) = text := List.take_of_length_le (by omega)
  have hshort : ¬ intMax < text.length := by
    simp only [intMax, bufLen] at hfits ⊢
    omega
  have hprinted : snprintf text (s.message.drop s.cnt.toNat) =
      text ++ nul :: tail.drop text.length := by
    rw [snprintf, htake, hcnt, Int.toNat_natCast, hmessage, List.drop_left]
    rfl
  have hkept : s.message.take s.cnt.toNat = past := by
    rw [hcnt, Int.toNat_natCast, hmessage, List.take_left]
  have htail : past.length + (tail.length + 1) = bufLen := by
    rw [← hlength, hmessage, List.length_append, List.length_cons]
  have hinside : 0 ≤ s.cnt ∧ s.cnt + (text.take (bufLen - 1)).length < s.message.length := by
    rw [htake, hcnt, hlength]
    omega
  rw [printAppend_eq, if_pos hinside, hkept, hprinted]
  refine ⟨_, rfl, ?_, ⟨tail.drop text.length, (List.append_assoc ..).symm⟩, ?_⟩
  · simp [hcnt, snprintfResult, hshort]
  · simp only [List.length_append, List.length_cons, List.length_drop]
    omega

/-- A text that does not fit is written behind the message, once something stands
in front of it. -/
theorem printAppend_over (h : Holds past s) (hne : past ≠ [])
    (hover : bufLen ≤ (past ++ text).length) :
    ∃ t, printAppend text s = .error .outOfBounds t := by
  have hpos : 0 < past.length := List.length_pos_iff.mpr hne
  have houtside : ¬ (0 ≤ s.cnt ∧ s.cnt + (text.take (bufLen - 1)).length < s.message.length) := by
    rw [List.length_append] at hover
    rw [h.cnt, h.length, List.length_take]
    omega
  rw [printAppend_eq, if_neg houtside]
  exact ⟨_, rfl⟩

/-- The program appends the text to a message, or faults where it does not fit. -/
def Prints (m : PrintM Unit) (text : List Char) : Prop :=
  ∀ past s, past ≠ [] → Holds past s →
    if (past ++ text).length < bufLen then ∃ t, m s = .ok () t ∧ Holds (past ++ text) t
    else ∃ t, m s = .error .outOfBounds t

theorem Prints.append (text : List Char) : Prints (printAppend text) text := by
  intro past s hne h
  split
  · next hfits => exact printAppend_fits h hfits
  · next hover => exact printAppend_over h hne (Nat.not_lt.mp hover)

theorem Prints.bind {m m' : PrintM Unit} {text text' : List Char} (h : Prints m text)
    (h' : Prints m' text') : Prints (m >>= fun _ => m') (text ++ text') := by
  intro past s hne hs
  have hfirst := h past s hne hs
  rw [← List.append_assoc]
  split at hfirst
  · next hfits =>
      obtain ⟨t, hrun, ht⟩ := hfirst
      rw [bind_of_ok hrun]
      exact h' (past ++ text) t (by simp [hne]) ht
  · next hover =>
      obtain ⟨t, hrun⟩ := hfirst
      rw [if_neg (by rw [List.length_append]; omega)]
      exact ⟨t, bind_of_error hrun⟩

theorem Prints.optional {c : Prop} [Decidable c] {m : PrintM Unit} (h : Prints m text) :
    Prints (if c then m else pure ()) (if c then text else []) := by
  by_cases hc : c
  · rw [if_pos hc, if_pos hc]
    exact h
  · rw [if_neg hc, if_neg hc]
    intro past s hne hs
    have hfits : past.length < bufLen := by
      obtain ⟨tail, hmessage⟩ := hs.text
      rw [← hs.length, hmessage, List.length_append, List.length_cons]
      omega
    rw [List.append_nil, if_pos hfits]
    exact ⟨s, rfl, hs⟩

theorem Prints.appendIf (c : Prop) [Decidable c] (text : List Char) :
    Prints (printIf c text) (if c then text else []) :=
  (Prints.append text).optional

theorem prints_parts (parts : IoData) (type : RequestT) :
    Prints (printParts parts type) (partsText parts type) :=
  ((Prints.append _).bind ((Prints.appendIf _ _).bind (Prints.appendIf _ _))).optional

/-- The first text of a message. -/
theorem printAppend_word (type : RequestT) :
    ∃ t, printAppend type.word freshMessage = .ok () t ∧ Holds type.word t := by
  have hfresh : Holds [] freshMessage :=
    ⟨rfl, ⟨List.replicate (bufLen - 1) nul, rfl⟩, List.length_replicate⟩
  apply printAppend_fits hfresh
  cases type <;> decide

theorem RequestT.word_ne_nil (type : RequestT) : type.word ≠ [] := by
  cases type <;> decide

end Appends

section Texts

theorem nul_notMem_formatInt (n : Int) : nul ∉ formatInt n := by
  have hdigits := nul_notMem_toDigits decimal n.natAbs
  unfold formatInt
  split
  · rw [List.mem_cons, not_or]
    exact ⟨by decide, hdigits⟩
  · exact hdigits

theorem nul_notMem_formatHexByte (value : Value) : nul ∉ formatHexByte value := by
  have hdigit : ∀ d < 16, nul ≠ d.digitChar.toUpper := by decide
  intro hmem
  rcases List.mem_append.mp hmem with hzero | hmem
  · exact absurd (List.eq_of_mem_replicate hzero) (by decide)
  · obtain ⟨c, hc, hupper⟩ := List.mem_map.mp hmem
    obtain ⟨d, hd, rfl⟩ := digitChar_of_mem_toDigits hexadecimal value.toNat c hc
    exact hdigit d hd hupper.symm

theorem nul_notMem_ite {c : Prop} [Decidable c] {a : List Char} (ha : nul ∉ a) :
    nul ∉ if c then a else [] := by
  split
  · exact ha
  · exact List.not_mem_nil

theorem nul_notMem_deviceText (parts : IoData) : nul ∉ deviceText parts := by
  apply List.not_mem_append
  · apply List.not_mem_append
    · exact List.not_mem_append (by decide) (nul_notMem_formatInt _)
    · decide
  · exact nul_notMem_formatInt _

theorem nul_notMem_requestText (uri : CString) (parts : IoData) (type : RequestT) :
    nul ∉ requestText uri parts type := by
  have hword : nul ∉ type.word := by cases type <;> decide
  have huri : nul ∉ uriText uri := List.not_mem_append (by decide) uri.nul_notMem
  have hsub : nul ∉ subDeviceText parts :=
    List.not_mem_append (by decide) (nul_notMem_formatInt parts.idxSubDev)
  have hvalue : nul ∉ valueText parts :=
    List.not_mem_append (by decide) (nul_notMem_formatHexByte parts.value)
  have hparts : nul ∉ partsText parts type :=
    nul_notMem_ite (List.not_mem_append (nul_notMem_deviceText parts)
      (List.not_mem_append (nul_notMem_ite hsub) (nul_notMem_ite hvalue)))
  exact List.not_mem_append hword (List.not_mem_append huri hparts)

end Texts

section Calls

theorem printAppend_calls (text : List Char) (s : MessageState) :
    (final (printAppend text) s).calls = s.calls ++ [⟨s.cnt, bufLen⟩] := by
  unfold final
  rw [printAppend_eq]
  by_cases hinside : 0 ≤ s.cnt ∧ s.cnt + (text.take (bufLen - 1)).length < s.message.length
  · rw [if_pos hinside]
  · rw [if_neg hinside]

/-- A call that was made stays on record. -/
theorem keeps_call (call : PrintCall) (text : List Char) :
    Keeps (fun s => call ∈ s.calls) (printAppend text) := by
  intro s hs
  rw [printAppend_calls]
  exact List.mem_append_left _ hs

theorem keeps_call_if (call : PrintCall) (c : Prop) [Decidable c] (text : List Char) :
    Keeps (fun s => call ∈ s.calls) (printIf c text) :=
  .ite (keeps_call call text) (.pure _)

theorem keeps_call_parts (call : PrintCall) (parts : IoData) (type : RequestT) :
    Keeps (fun s => call ∈ s.calls) (printParts parts type) :=
  .ite (.bind (keeps_call call _) fun _ =>
    .bind (keeps_call_if call _ _) fun _ => keeps_call_if call _ _) (.pure _)

theorem keeps_call_log (call : PrintCall) : Keeps (fun s => call ∈ s.calls) logMessage :=
  .get_bind fun _ _ => .ite (.pure _) (.throw _)

/-- The second call starts behind the first text and still gets the whole size. -/
theorem printRequest_second_call (uri : CString) (parts : IoData) (type : RequestT) :
    ⟨type.word.length, bufLen⟩ ∈ (final (printRequest uri parts type) freshMessage).calls := by
  obtain ⟨s, hrun, hs⟩ := printAppend_word type
  unfold printRequest
  rw [final_congr (bind_of_ok hrun)]
  refine final_bind_keeps ?_ fun _ => (keeps_call_parts _ parts type).bind fun _ =>
    keeps_call_log _
  rw [printAppend_calls, hs.cnt]
  exact List.mem_append_right _ (List.mem_singleton_self _)

end Calls

theorem logMessage_run {text : List Char} {s : MessageState} (h : Holds text s)
    (hnul : nul ∉ text) : logMessage s = .ok text s := by
  obtain ⟨tail, hmessage⟩ := h.text
  have hmem : nul ∈ s.message := by simp [hmessage]
  have hlogged : cText s.message = text := by
    rw [cText, hmessage, List.takeWhile_append_of_pos]
    · simp
    · intro c hc
      have hne : c ≠ nul := by
        rintro rfl
        exact hnul hc
      simpa using hne
  unfold logMessage
  rw [bind_of_ok (run_get s), if_pos hmem, run_pure, hlogged]

/-- The whole line is logged where it fits; a longer one is written behind the
message. -/
theorem printRequest_run (uri : CString) (parts : IoData) (type : RequestT) :
    if (requestText uri parts type).length < bufLen then
      ∃ s, printRequest uri parts type freshMessage = .ok (requestText uri parts type) s ∧
        nul ∈ s.message
    else ∃ s, printRequest uri parts type freshMessage = .error .outOfBounds s := by
  obtain ⟨s, hrun, hs⟩ := printAppend_word type
  have hrest : if (requestText uri parts type).length < bufLen then _ else _ :=
    ((Prints.append (uriText uri)).bind (prints_parts parts type)) type.word s
      type.word_ne_nil hs
  unfold printRequest
  rw [bind_of_ok hrun, ← bind_assoc]
  by_cases hfits : (requestText uri parts type).length < bufLen
  · rw [if_pos hfits]
    rw [if_pos hfits] at hrest
    obtain ⟨t, hprinted, ht⟩ := hrest
    obtain ⟨tail, hmessage⟩ := ht.text
    refine ⟨t, ?_, by simp [hmessage]⟩
    rw [bind_of_ok hprinted]
    exact logMessage_run ht (nul_notMem_requestText uri parts type)
  · rw [if_neg hfits]
    rw [if_neg hfits] at hrest
    obtain ⟨t, hover⟩ := hrest
    exact ⟨t, bind_of_error hover⟩

/-- No request is printed with the sizes that keep each call inside the message;
what is written stays inside exactly if the whole line fits. -/
theorem printRequest_never_inside (uri : CString) (parts : IoData) (type : RequestT) :
    ¬ PrintsInside uri parts type ∧
      ((∃ text s, printRequest uri parts type freshMessage = .ok text s ∧ nul ∈ s.message) ↔
        (requestText uri parts type).length < bufLen) := by
  have hrun := printRequest_run uri parts type
  constructor
  · intro h
    obtain ⟨-, -, hsize⟩ := h.calls _ (printRequest_second_call uri parts type)
    have hpos : 0 < type.word.length := List.length_pos_iff.mpr type.word_ne_nil
    dsimp only at hsize
    omega
  · constructor
    · rintro ⟨text, s, hok, -⟩
      by_contra hlong
      rw [if_neg hlong] at hrun
      obtain ⟨t, herr⟩ := hrun
      cases hok.symm.trans herr
    · intro hfits
      rw [if_pos hfits] at hrun
      obtain ⟨s, hok, hnul⟩ := hrun
      exact ⟨_, s, hok, hnul⟩

/-- A URI of 1023 slashes, which `parse_uri` can copy. -/
def slashes : CString :=
  ⟨List.replicate (bufLen - 1) '/', fun h => absurd (List.eq_of_mem_replicate h) (by decide)⟩

set_option maxRecDepth 20000 in
theorem slashes_print_over :
    parseUri slashes = .ok (.err, initIoData) ∧
      ¬ PrintsInside slashes initIoData .err ∧
      ∃ s, printRequest slashes initIoData .err freshMessage = .error .outOfBounds s := by
  have hrun := printRequest_run slashes initIoData .err
  rw [if_neg (by decide +kernel)] at hrun
  refine ⟨by decide +kernel, ?_, hrun⟩
  intro h
  obtain ⟨text, s, hok, -⟩ := h.logged
  obtain ⟨t, herr⟩ := hrun
  cases hok.symm.trans herr

end Switcher
