import Switcher.Http.Journal
import Switcher.Service.Survival

/-!
The log as a journal: what has been logged, done again, leads to the same state of the
daemon and of whatever its drivers talk to.
-/

namespace Switcher

open Lib.Program Lib.Interleaving Lib.Text

variable {ω δ W : Type}

/-- Do what a line tells of. -/
def replayLine (table : δ → DevDrv ω δ (List Char) W) (line : List Char) :
    SysM ω δ (List Char) W Unit :=
  match readLogLine line with
  | none => pure ()
  | some (type, parts) => do
      freshReply freshContent
      let _ ← performIo table httpCallbacks parts type.cmd

def replay (table : δ → DevDrv ω δ (List Char) W) (lines : List (List Char)) :
    SysM ω δ (List Char) W Unit :=
  forAll (replayLine table) lines

/-- The request that `parse_uri` makes of a URI, unless it refuses it. -/
def requestOf (uri : CString) : Option (RequestT × IoData) :=
  match parseUri uri with
  | .ok (type, parts) => if type = .err then none else some (type, parts)
  | .error _ => none

/-- The states agree up to the reply buffer. -/
structure SameApartFromBuf (s t : Sys ω δ (List Char) W) : Prop where
  config : t.config = s.config
  world : t.world = s.world
  calls : t.calls = s.calls

section Replay

variable {table : δ → DevDrv ω δ (List Char) W} {s t u : Sys ω δ (List Char) W}

theorem SameApartFromBuf.fresh (h : SameApartFromBuf s u) :
    { u with buf := freshContent } = { s with buf := freshContent } := by
  obtain ⟨config, buf, world, calls⟩ := u
  obtain rfl : config = s.config := h.config
  obtain rfl : world = s.world := h.world
  obtain rfl : calls = s.calls := h.calls
  rfl

/-- A `GET` has no value. -/
theorem value_of_get {uri : CString} {parts : IoData}
    (hparse : parseUri uri = .ok (.get, parts)) : parts.value = 0 := by
  rcases parseUri_eq_ok hparse with ⟨hbad, -⟩ | ⟨w, -, -, htype, rfl⟩
  · cases hbad
  · cases hnone : w.value with
    | none => simp [Spelled.kept, hnone]
    | some value => simp [Spelled.type, hnone] at htype

theorem readLogLine_of_parse {uri : CString} {type : RequestT} {parts : IoData}
    (hparse : parseUri uri = .ok (type, parts)) :
    readLogLine (requestText uri parts type) = requestOf uri := by
  rw [requestOf, hparse, readLogLine_requestText]
  rintro rfl
  exact value_of_get hparse

/-- Doing again what a request has done. -/
theorem replayLine_of_answer {uri : CString} {reply line : List Char}
    (h : httpRequestHandler table uri s = .ok (reply, line) t) (hsame : SameApartFromBuf s u) :
    ∃ v, replayLine table line u = .ok () v ∧ SameApartFromBuf t v := by
  obtain ⟨type, parts, hparse, rfl, -, -, heffect⟩ := httpRequestHandler_ok h
  unfold replayLine
  rw [readLogLine_of_parse hparse, requestOf, hparse]
  rcases heffect with ⟨rfl, rfl⟩ | ⟨htype, result, hperform⟩
  · exact ⟨u, rfl, hsame.config, hsame.world, hsame.calls⟩
  · have hfresh : freshReply freshContent u = .ok ⟨⟩ { s with buf := freshContent } := by
      rw [← hsame.fresh]
      rfl
    refine ⟨t, ?_, rfl, rfl, rfl⟩
    simp only [if_neg htype, bind_of_ok hfresh, bind_of_ok hperform, run_pure]

/-- An event is done again by the line that it has logged, if any; the line reads as the
request that the event was. -/
theorem replay_of_event {conn : MgConnection} {event : MgEvent} {answer : Answer}
    (h : eventHandler table conn event s = .ok answer t) (hsame : SameApartFromBuf s u) :
    (∃ v, replay table answer.line.toList u = .ok () v ∧ SameApartFromBuf t v) ∧
      answer.line.toList.map readLogLine = (requestedUris [(conn, event)]).map requestOf := by
  cases event with
  | request =>
      cases hwebsocket : conn.isWebsocket with
      | true =>
          simp only [eventHandler, hwebsocket, if_pos] at h
          obtain ⟨rfl, rfl⟩ := EStateM.Result.ok.inj h
          refine ⟨⟨u, rfl, hsame⟩, ?_⟩
          simp [requestedUris, hwebsocket]
      | false =>
          simp only [eventHandler, hwebsocket, Bool.false_eq_true, if_false, run_bind] at h
          cases hanswer : httpRequestHandler table conn.uri s with
          | error e v => simp [hanswer] at h
          | ok pair v =>
              obtain ⟨reply, line⟩ := pair
              simp only [hanswer, run_pure] at h
              obtain ⟨rfl, rfl⟩ := EStateM.Result.ok.inj h
              obtain ⟨v', hrun, hv'⟩ := replayLine_of_answer hanswer hsame
              obtain ⟨type, parts, hparse, rfl, -⟩ := httpRequestHandler_ok hanswer
              refine ⟨⟨v', ?_, hv'⟩, ?_⟩
              · show (do replayLine table (requestText conn.uri parts type); pure ()) u = _
                rw [bind_of_ok hrun, run_pure]
              · have huris : requestedUris [(conn, MgEvent.request)] = [conn.uri] := by
                  simp [requestedUris, hwebsocket]
                rw [huris, List.map_singleton, ← readLogLine_of_parse hparse]
                rfl
  | auth =>
      obtain ⟨rfl, rfl⟩ := EStateM.Result.ok.inj h
      exact ⟨⟨u, rfl, hsame⟩, rfl⟩
  | other =>
      obtain ⟨rfl, rfl⟩ := EStateM.Result.ok.inj h
      exact ⟨⟨u, rfl, hsame⟩, rfl⟩

theorem replay_of_events {events : List (MgConnection × MgEvent)} {answers : List Answer}
    (hrun : pollServer table events s = .ok answers t) (hsame : SameApartFromBuf s u) :
    (∃ v, replay table (loggedLines answers) u = .ok () v ∧ SameApartFromBuf t v) ∧
      (loggedLines answers).map readLogLine = (requestedUris events).map requestOf := by
  induction events generalizing s u answers with
  | nil =>
      obtain ⟨rfl, rfl⟩ := EStateM.Result.ok.inj hrun
      exact ⟨⟨u, rfl, hsame⟩, rfl⟩
  | cons first rest ih =>
      obtain ⟨answer, s', more, hstep, hrest, rfl⟩ := runAll_cons_ok hrun
      obtain ⟨⟨v, hfirst, hv⟩, hread⟩ := replay_of_event hstep hsame
      obtain ⟨⟨v', hmore, hv'⟩, hreads⟩ := ih hrest hv
      refine ⟨⟨v', ?_, hv'⟩, ?_⟩
      · rw [loggedLines_cons, replay, forAll_append]
        exact (bind_of_ok hfirst).trans hmore
      · rw [loggedLines_cons, requestedUris_cons, List.map_append, List.map_append, hread, hreads]

/-- The log is a journal. From the lines that a run has logged, and nothing else, its
requests can be done again: in the state that the run began in this makes the same driver
calls and ends with the same configuration and the same world behind the drivers,
whatever the drivers are. Each line reads as the request that its URI spells. -/
theorem log_replays {events : List (MgConnection × MgEvent)} {answers : List Answer}
    (hrun : pollServer table events s = .ok answers t) :
    (∃ u, replay table (loggedLines answers) s = .ok () u ∧ SameApartFromBuf t u) ∧
      (loggedLines answers).map readLogLine = (requestedUris events).map requestOf :=
  replay_of_events hrun ⟨rfl, rfl, rfl⟩

end Replay

/-- An output is set, and a URI that is refused looks like the end of a line. -/
def forgedEvents : List (MgConnection × MgEvent) :=
  [(⟨false, ⟨"/0/1.3/1".toList, by decide⟩⟩, .request),
    (⟨false, ⟨"/, Bus: 1, Device: 0, Value: 0xFF".toList, by decide⟩⟩, .request)]

theorem log_replays_forged :
    ∃ answers t u, pollServer (devDrv calmKernel) forgedEvents ioExtDaemon = .ok answers t ∧
      replay (devDrv calmKernel) (loggedLines answers) ioExtDaemon = .ok () u ∧
      SameApartFromBuf t u ∧
      (loggedLines answers).map readLogLine = (requestedUris forgedEvents).map requestOf := by
  have hyields : yields (pollServer (devDrv calmKernel) forgedEvents) ioExtDaemon
      (fun answers _ => answers.length = 2) = true := by
    decide +kernel
  obtain ⟨answers, t, hrun, -⟩ := exists_of_yields hyields
  obtain ⟨⟨u, hreplay, hsame⟩, hread⟩ := log_replays hrun
  exact ⟨answers, t, u, hrun, hreplay, hsame, hread⟩

end Switcher
