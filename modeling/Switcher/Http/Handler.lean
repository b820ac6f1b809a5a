import Switcher.Http.PrintRequest

/-!
`http_request_handler`: the reply that `mg_printf` sends is the text in the
`content` buffer, which the callbacks of `perform_io` print into. The line for the log
is put together before the request is performed, so a line that does not fit ends the
process with nothing done.
-/

namespace Switcher

open Lib.Program Lib.Text

variable {ω δ W : Type}

def RequestT.cmd (type : RequestT) : IoCmd :=
  if type = .get then .read else .write

/-- `print_request`, on a `message` of its own. -/
def logRequest {β : Type} (uri : CString) (parts : IoData) (type : RequestT) :
    SysM ω δ β W (List Char) := fun s =>
  match printRequest uri parts type freshMessage with
  | .ok line _ => .ok line s
  | .error e _ => .error e s

/-- `http_request_handler` over any function in the place of `perform_io`: the reply
sent and the line logged. -/
def handleRequest (perform : IoData → IoCmd → SysM ω δ (List Char) W (Int × IoData))
    (uri : CString) : SysM ω δ (List Char) W (List Char × List Char) := do
  freshReply freshContent
  match parseUri uri with
  | .error e => throw e
  | .ok (type, parts) => do
      let line ← logRequest uri parts type
      if type ≠ .err then do
        let _ ← perform parts type.cmd
        return (httpReply (← replyContent), line)
      else do
        reportError httpCallbacks "Invalid request type"
        return (httpReply (← replyContent), line)

def httpRequestHandler (table : δ → DevDrv ω δ (List Char) W) (uri : CString) :
    SysM ω δ (List Char) W (List Char × List Char) :=
  handleRequest (performIo table httpCallbacks) uri

/-- The reply of the handler after a program that fills the content buffer. -/
def answered {α : Type} (m : SysM ω δ (List Char) W α) : SysM ω δ (List Char) W (List Char) := do
  freshReply freshContent
  let _ ← m
  return httpReply (← replyContent)

section Answered

variable {α : Type} {m : SysM ω δ (List Char) W α} {s t : Sys ω δ (List Char) W}

theorem freshReply_run (s : Sys ω δ (List Char) W) :
    (freshReply freshContent : SysM ω δ (List Char) W Unit) s =
      .ok ⟨⟩ { s with buf := freshContent } := rfl

theorem answered_of_ok {a : α} (h : m { s with buf := freshContent } = .ok a t) :
    answered m s = .ok (httpReply t.buf) t := by
  unfold answered
  rw [bind_of_ok (freshReply_run s), bind_of_ok h]
  rfl

theorem answered_of_error {e : Fault} (h : m { s with buf := freshContent } = .error e t) :
    answered m s = .error e t := by
  unfold answered
  rw [bind_of_ok (freshReply_run s)]
  exact bind_of_error h

theorem ok_of_answered {reply : List Char} (h : answered m s = .ok reply t) :
    reply = httpReply t.buf ∧ ∃ a, m { s with buf := freshContent } = .ok a t := by
  cases hrun : m { s with buf := freshContent } with
  | ok a u =>
      obtain ⟨rfl, rfl⟩ := EStateM.Result.ok.inj ((answered_of_ok hrun).symm.trans h)
      exact ⟨rfl, a, rfl⟩
  | error e u => cases (answered_of_error hrun).symm.trans h

end Answered

section Handler

variable {perform : IoData → IoCmd → SysM ω δ (List Char) W (Int × IoData)} {uri : CString}
  {type : RequestT} {parts : IoData}

theorem logRequest_run {β : Type} (uri : CString) (parts : IoData) (type : RequestT)
    (s : Sys ω δ β W) :
    logRequest uri parts type s =
      if (requestText uri parts type).length < bufLen then .ok (requestText uri parts type) s
      else .error .outOfBounds s := by
  have hprint := printRequest_run uri parts type
  unfold logRequest
  split at hprint
  · next hfits =>
      obtain ⟨message, hline, -⟩ := hprint
      rw [hline, if_pos hfits]
  · next hover =>
      obtain ⟨message, hline⟩ := hprint
      rw [hline, if_neg hover]

/-- A URI that the parser faults on is not answered. -/
theorem handleRequest_fault {e : Fault} (hparse : parseUri uri = .error e)
    (s : Sys ω δ (List Char) W) :
    handleRequest perform uri s = .error e { s with buf := freshContent } := by
  unfold handleRequest
  rw [bind_of_ok (freshReply_run s), hparse]
  rfl

section Parsed

variable (hparse : parseUri uri = .ok (type, parts))
include hparse

/-- A line that does not fit ends the process before anything is performed. -/
theorem handleRequest_over (hover : ¬ (requestText uri parts type).length < bufLen)
    (s : Sys ω δ (List Char) W) :
    handleRequest perform uri s = .error .outOfBounds { s with buf := freshContent } := by
  unfold handleRequest
  rw [bind_of_ok (freshReply_run s), hparse]
  apply bind_of_error
  rw [logRequest_run, if_neg hover]

/-- An accepted request is answered with what is performed. -/
theorem handleRequest_accepted (htype : type ≠ .err)
    (hfits : (requestText uri parts type).length < bufLen) (s : Sys ω δ (List Char) W) :
    handleRequest perform uri s =
      (answered (perform parts type.cmd) >>= fun reply =>
        pure (reply, requestText uri parts type)) s := by
  unfold handleRequest answered
  rw [bind_assoc, bind_of_ok (freshReply_run s), bind_of_ok (freshReply_run s), hparse]
  simp only [bind_of_ok ((logRequest_run uri parts type _).trans (if_pos hfits)), if_pos htype,
    bind_assoc, pure_bind]

end Parsed

/-- A refused request is answered with an error, and nothing is performed. -/
theorem handleRequest_refused (hparse : parseUri uri = .ok (.err, parts))
    (hfits : (requestText uri parts .err).length < bufLen) (s : Sys ω δ (List Char) W) :
    handleRequest perform uri s =
      .ok (httpReply refusedContent, requestText uri parts .err)
        { s with buf := refusedContent } := by
  unfold handleRequest
  rw [bind_of_ok (freshReply_run s), hparse]
  simp only [bind_of_ok ((logRequest_run uri parts .err _).trans (if_pos hfits))]
  rfl

end Handler

section Performed

variable {table : δ → DevDrv ω δ (List Char) W} {uri : CString} {type : RequestT}
  {parts data : IoData} {rc : Int} {s t : Sys ω δ (List Char) W}

/-- An accepted request is answered with what `perform_io` leaves in the content
buffer. -/
theorem httpRequestHandler_run (hparse : parseUri uri = .ok (type, parts)) (htype : type ≠ .err)
    (hfits : (requestText uri parts type).length < bufLen)
    (hperform : performIo table httpCallbacks parts type.cmd { s with buf := freshContent } =
      .ok (rc, data) t) :
    httpRequestHandler table uri s = .ok (httpReply t.buf, requestText uri parts type) t := by
  unfold httpRequestHandler
  rw [handleRequest_accepted hparse htype hfits, bind_of_ok (answered_of_ok hperform)]
  rfl

/-- What an answered request has done, and what has been logged of it. -/
theorem httpRequestHandler_ok {reply line : List Char}
    (h : httpRequestHandler table uri s = .ok (reply, line) t) :
    ∃ type parts, parseUri uri = .ok (type, parts) ∧ line = requestText uri parts type ∧
      line.length < bufLen ∧ reply = httpReply t.buf ∧
      (type = .err ∧ t = { s with buf := refusedContent } ∨ type ≠ .err ∧
        ∃ result, performIo table httpCallbacks parts type.cmd { s with buf := freshContent } =
          .ok result t) := by
  cases hparse : parseUri uri with
  | error e => cases (handleRequest_fault hparse s).symm.trans h
  | ok request =>
      obtain ⟨type, parts⟩ := request
      by_cases hfits : (requestText uri parts type).length < bufLen
      · by_cases htype : type = .err
        · subst htype
          obtain ⟨hpair, rfl⟩ :=
            EStateM.Result.ok.inj ((handleRequest_refused hparse hfits s).symm.trans h)
          obtain ⟨rfl, rfl⟩ := Prod.mk.inj hpair
          exact ⟨.err, parts, rfl, rfl, hfits, rfl, .inl ⟨rfl, rfl⟩⟩
        · unfold httpRequestHandler at h
          rw [handleRequest_accepted hparse htype hfits, run_bind] at h
          cases hanswer : answered (performIo table httpCallbacks parts type.cmd) s with
          | error e u => simp [hanswer] at h
          | ok reply' u =>
              simp only [hanswer, run_pure] at h
              obtain ⟨hpair, rfl⟩ := EStateM.Result.ok.inj h
              obtain ⟨rfl, rfl⟩ := Prod.mk.inj hpair
              obtain ⟨hreply, result, hperform⟩ := ok_of_answered hanswer
              exact ⟨type, parts, rfl, rfl, hfits, hreply, .inr ⟨htype, result, hperform⟩⟩
      · cases (handleRequest_over hparse hfits s).symm.trans h

end Performed

end Switcher
