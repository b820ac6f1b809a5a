import Switcher.Http.Replies

/-!
A reply as a client takes it apart: the body by its `Content-Length`, and the data
in it, if it is a success object.
-/

namespace Switcher

open Lib.Numeral Lib.Text

def replyGap : List Char := "\r\n\r\n".toList

/-- The body of a reply that is as long as it says. -/
def readReply (reply : List Char) : Option (List Char) := do
  let (length, text) ← readField replyHead 10 reply
  let body ← skipText replyGap text
  if length = body.length then some body else none

/-- What a reply acknowledges. -/
def heard (reply : List Char) : Option IoData := (readReply reply).bind decodeBody

/-- Whatever is in the content buffer, a client gets it. -/
theorem readReply_httpReply (content : List Char) :
    readReply (httpReply content) = some (cText content) := by
  have hlength : readInt 10 (Nat.toDigits 10 (cText content).length) =
      some ((cText content).length : Int) := readInt_toDigits decimal _
  have hfield : readField replyHead 10 (httpReply content) =
      some (((cText content).length : Int), replyGap ++ cText content) := by
    rw [httpReply_eq, List.append_assoc, List.append_assoc]
    exact readField_append hlength (isNumeral_toDigits decimal _) rfl
  have hgap : skipText replyGap (replyGap ++ cText content) = some (cText content) := by
    rw [skipText, if_pos (List.prefix_append _ _), List.drop_left]
  rw [readReply, hfield]
  simp only [Option.bind_eq_bind, Option.bind_some, hgap, if_pos]

theorem heard_success {data : IoData} (h : data.FitsIdxs) (buf : List Char) :
    heard (httpReply (ioDataToJson data buf)) = some data := by
  rw [heard, readReply_httpReply, Option.bind_some, cText_ioDataToJson_eq h,
    decodeBody_ioDataJson]

/-- Nothing but a success object is decoded. -/
theorem decodeBody_of_head {body : List Char} (h : body.head? ≠ some 'c') :
    decodeBody body = none := by
  have hskip : skipText bodyBus body = none := by
    rw [skipText, if_neg]
    rintro ⟨rest, rfl⟩
    exact h rfl
  rw [decodeBody, readField, hskip]
  rfl

theorem heard_error (msg buf : List Char) : heard (httpReply (errorToJson msg buf)) = none := by
  rw [heard, readReply_httpReply, Option.bind_some, cText_errorToJson]
  apply decodeBody_of_head
  rw [errorBody_head]
  decide

theorem cText_freshContent : cText freshContent = [] := rfl

theorem heard_fresh : heard (httpReply freshContent) = none := by
  rw [heard, readReply_httpReply, Option.bind_some, cText_freshContent]
  exact decodeBody_of_head nofun

end Switcher
