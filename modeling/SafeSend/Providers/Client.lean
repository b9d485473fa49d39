import SafeSend.Connections.Tokens
import SafeSend.Lib.Prog
import SafeSend.Send.Gmail
import SafeSend.Send.Slack
/-!
# The clients' calls

What a provider client does for one call on a connection: the token, the request, and the retry each provider has.  The
token helper is two operations, since Google is asked between them; what a response is worth is said where the provider's
calls are.
-/
namespace SafeSend
namespace Client

open Lib
open Connections (TokenKind)
open Providers (Response)

inductive Op
  /-- `get_token`, as far as it gets without Google. -/
  | readToken (id : Nat) (kind : TokenKind)
  /-- `_refresh_google`, from Google's answer on. -/
  | finishRefresh (id : Nat) (connection : Connections.ConnectionRow)
  | expireAccessToken (id : Nat)
  | request (method path : String)
  | clock
  /-- Nothing the client does: that a call on the connection failed. -/
  | failed (id : Nat) (exc : Exn)

def Op.Ans : Op → Type
  | readToken _ _ => Except Exn Connections.Progress
  | finishRefresh _ _ => Except Exn String
  | request _ _ => Except Exn Response
  | clock => Nat
  | expireAccessToken _ | failed _ _ => Unit

abbrev ClientProg := Prog Op Op.Ans

abbrev perform (o : Op) : ClientProg o.Ans := Prog.perform o

/-- `get_token`. -/
def getToken (id : Nat) (kind : TokenKind) : ClientProg (Except Exn String) := do
  match ← perform (.readToken id kind) with
  | .error e => return .error e
  | .ok (.token value) => return .ok value
  | .ok (.refresh connection _) => perform (.finishRefresh id connection)

/-- One request, under a token of the kind. -/
def ask (id : Nat) (kind : TokenKind) (method path : String) : ClientProg (Except Exn Response) := do
  match ← getToken id kind with
  | .error e => return .error e
  | .ok _ => perform (.request method path)

/-- That a call failed is noted beside it. -/
def noting {α β : Type} (id : Nat) (r : Except Exn α) (x : β) : ClientProg β :=
  match r with
  | .error exc => do
    perform (.failed id exc)
    return x
  | .ok _ => return x

namespace Gmail

open Send.Gmail (Exchange)

/-- `_request`, and once more over a refresh where it is answered `401`. -/
def requests (id : Nat) (method path : String) : ClientProg Exchange := do
  match ← ask id .oauth method path with
  | .error e => return { first := .error e }
  | .ok r =>
    if r.status = 401 then
      perform (.expireAccessToken id)
      let second ← ask id .oauth method path
      return { first := .ok r, second := second }
    else return { first := .ok r }

/-- `_call`. -/
def exchange (id : Nat) (method path : String) : ClientProg Exchange := do
  let x ← requests id method path
  noting id (Send.Gmail.call x) x

end Gmail

namespace Slack

open Send.Slack (Exchange call)

/-- `_call`; `call` says what the response is worth. -/
def request (id : Nat) (kind : TokenKind) (method : String) : ClientProg (Except Exn Response) := do
  let answer ← ask id kind "POST" method
  noting id (call answer) answer

/-- A call in a channel: where the bot has not joined it, it joins and asks once more. -/
def exchange (id : Nat) (method : String) : ClientProg Exchange := do
  let first ← request id .bot method
  match call first with
  | .error (.provider e) =>
    if e.code = "not_in_channel" then
      let joined ← request id .bot "conversations.join"
      match call joined with
      | .error _ => return { first := first, joined := joined }
      | .ok _ =>
        let second ← request id .bot method
        return { first := first, joined := joined, second := second }
    else return { first := first }
  | _ => return { first := first }

end Slack

end Client
end SafeSend
