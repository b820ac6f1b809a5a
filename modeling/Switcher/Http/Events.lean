import Switcher.Http.Handler
import Switcher.Lib.Interleaving

/-!
What the polled server calls back with: of the events of its connections, a request
is handed to `http_request_handler`, or to that of the web sockets.
-/

namespace Switcher

open Lib.Program Lib.Interleaving Lib.Text

variable {ω δ W : Type}

/-- The events of `mg_event` that `event_handler` tells apart. -/
inductive MgEvent where
  | request | auth | other
  deriving DecidableEq, Repr

structure MgConnection where
  isWebsocket : Bool
  uri : CString

def mgFalse : Int := 0

def mgTrue : Int := 1

/-- What a callback returns, and what it has sent and logged. -/
structure Answer where
  rc : Int
  reply : Option (List Char)
  line : Option (List Char)

def websocketRequestHandler : SysM ω δ (List Char) W Answer := return ⟨mgTrue, none, none⟩

def eventHandler (table : δ → DevDrv ω δ (List Char) W) (conn : MgConnection) (event : MgEvent) :
    SysM ω δ (List Char) W Answer :=
  match event with
  | .request =>
      if conn.isWebsocket then websocketRequestHandler
      else do
        let (reply, line) ← httpRequestHandler table conn.uri
        return ⟨mgTrue, some reply, some line⟩
  | .auth => return ⟨mgTrue, none, none⟩
  | .other => return ⟨mgFalse, none, none⟩

/-- The loop around `mg_poll_server`, as far as these events go. -/
def pollServer (table : δ → DevDrv ω δ (List Char) W) (events : List (MgConnection × MgEvent)) :
    SysM ω δ (List Char) W (List Answer) :=
  runAll (fun event => eventHandler table event.1 event.2) events

end Switcher
