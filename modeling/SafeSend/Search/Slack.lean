import SafeSend.Connections.Tokens
import SafeSend.Search.Store
import SafeSend.Send.Slack
/-!
# The Slack source

The Slack client's reads for a search, and the adapter over them: one search on the user's token, and where search is
not to be had, a scan of the channels the bot can see.  A call is one operation, token and request; what its response
is worth is the client's `_call`.
-/
namespace SafeSend
namespace Search
namespace Slack

open Lib
open Connections (TokenKind)
open Providers (Json Fields Response)
open Send.Slack (SlackMessage call noAttribute either)

def SOURCE : String := "slack"

def DEFAULT_LIMIT : Nat := 10

/-- How many channels the degraded scan looks at, and how deep. -/
def FALLBACK_CHANNELS : Nat := 10

def FALLBACK_DEPTH : Nat := 50

/-- Search is not available to this connection. -/
def FALLBACK_TRIGGERS : List String := ["missing_scope", "not_allowed_token_type", "no_permission"]

inductive Method | searchMessages | conversationsList | conversationsHistory | getPermalink
  deriving DecidableEq, Repr

def Method.path : Method → String
  | searchMessages => "search.messages"
  | conversationsList => "conversations.list"
  | conversationsHistory => "conversations.history"
  | getPermalink => "chat.getPermalink"

/-- What `datetime.fromtimestamp(float(ts), tz=UTC).isoformat()` comes to, on the platform's `gmtime`. -/
inductive Stamped
  | iso (text : String)
  | valueError
  | overflow
  | os (detail : String)

inductive Op
  /-- A token of the kind, and the request under it. -/
  | call (method : Method) (kind : TokenKind) (params : List (String × String))
  | now
  | fromtimestamp (ts : String)

def Op.Ans : Op → Type
  | call _ _ _ => Except Exn Response
  | now => Int
  | fromtimestamp _ => Stamped

abbrev SlackProg := Prog Op Op.Ans

abbrev perform (o : Op) : SlackProg o.Ans := Prog.perform o

/-! ## The client's reads -/

/-- A message, with where it was found. -/
structure Message extends SlackMessage where
  channelName : String := ""
  permalink : String := ""

/-- `for v in value`. -/
def iterate : Json → Except Exn (List Json)
  | .arr l _ => .ok l
  | .str s => .ok (s.toList.map fun c => .str c.toString)
  | .obj d _ => .ok (d.map fun e => .str e.1)
  | _ => .error (.other "object is not iterable")

/-- `value or []`, iterated. -/
def orNone (v : Json) : Except Exn (List Json) := if v.truthy then iterate v else .ok []

/-- `_from_search_match`. -/
def fromSearchMatch : Json → Except Exn Message
  | .obj d _ =>
    match (Json.get d "channel").orEmpty with
    | .error e => .error e
    | .ok channel =>
      let name := (Json.getOr channel "name" (.str "")).text
      .ok {
        channelId := (Json.getOr channel "id" (.str "")).text
        channelName := if name = "" then "" else "#" ++ name
        ts := (Json.getOr d "ts" (.str "")).text
        text := (Json.getOr d "text" (.str "")).text
        username := (either (either (Json.get d "username") (Json.get d "user")) (.str "")).text
        permalink := (Json.getOr d "permalink" (.str "")).text }
  | _ => .error noAttribute

/-- The matches in a payload. -/
def matchesOf (payload : Fields) : Except Exn (List Message) :=
  match (Json.get payload "messages").orEmpty with
  | .error e => .error e
  | .ok messages =>
    match orNone (Json.get messages "matches") with
    | .error e => .error e
    | .ok l => l.mapM fromSearchMatch

/-- `search_messages`, from the response on. -/
def searchMessages (answer : Except Exn Response) : Except Exn (List Message) :=
  match call answer with
  | .error e => .error e
  | .ok payload => matchesOf payload

/-- `list_channels`, from the response on. -/
def listChannels (answer : Except Exn Response) : Except Exn (List Json) :=
  match call answer with
  | .error e => .error e
  | .ok payload => orNone (Json.get payload "channels")

/-- `channel_history`, from the response on: the scan joins no channel. -/
def channelHistory (channel : String) (answer : Except Exn Response) : Except Exn (List SlackMessage) :=
  Send.Slack.channelHistory { channel := channel, limit := FALLBACK_DEPTH } false { first := answer }

/-- `permalink`, from the response on: no link where Slack gives none, whatever the reason. -/
def permalink (answer : Except Exn Response) : Except Exn (Option String) :=
  match call answer with
  | .error (.provider _) => .ok none
  | .error e => .error e
  | .ok payload =>
    let link := Json.get payload "permalink"
    .ok (if link.truthy then some link.text else none)

/-! ## Results -/

/-- Where `str.splitlines` breaks a line. -/
def isLineBreak (c : Char) : Bool :=
  let n := c.toNat
  (10 ≤ n && n ≤ 13) || (28 ≤ n && n ≤ 30) || n == 0x85 || n == 0x2028 || n == 0x2029

/-- `_first_line`. -/
def firstLine (text : String) : String :=
  if Text.blank text then "(no text)"
  else
    let line := (Text.strip text).toList.takeWhile fun c => !isLineBreak c
    if line.length ≤ 120 then String.ofList line else String.ofList (line.take 117) ++ "…"

/-- `_iso`. -/
def iso : Stamped → Except Exn (Option String)
  | .iso text => .ok (some text)
  | .valueError => .ok none
  | .overflow => .error (.other "timestamp out of range")
  | .os detail => .error (.os detail)

def resultOf (m : Message) (timestamp : Option String) : Result :=
  let channel := if m.channelName = "" then m.channelId else m.channelName
  let text := Text.strip m.text
  { source := SOURCE
    id := m.channelId ++ ":" ++ m.ts
    title := if channel = "" then firstLine text else channel ++ ": " ++ firstLine text
    snippet := if text = "" then firstLine text else text
    author := if m.username = "" then none else some m.username
    timestamp := timestamp
    url := m.permalink }

/-- `_to_result`. -/
def toResult (m : Message) : SlackProg (Except Exn Result) := do
  let stamped ← perform (.fromtimestamp m.ts)
  match iso stamped with
  | .error e => return .error e
  | .ok timestamp => return .ok (resultOf m timestamp)

/-- `[_to_result(match) for match in matches]`. -/
def toResults : List Message → SlackProg (Except Exn (List Result))
  | [] => return .ok []
  | m :: l => do
    match ← toResult m with
    | .error e => return .error e
    | .ok r =>
      match ← toResults l with
      | .error e => return .error e
      | .ok rest => return .ok (r :: rest)

/-! ## The adapter -/

/-- `needle in text`. -/
def occurs (needle text : String) : Bool := decide (needle.toList <:+: text.toList)

/-- Where the scan of a channel leaves the search: it goes on, or it has enough. -/
inductive Scanned
  | more (results : List Result)
  | enough (results : List Result)

def found (channelId name : String) (m : SlackMessage) (link : String) : Message where
  channelId := channelId
  channelName := if name = "" then channelId else "#" ++ name
  ts := m.ts
  text := m.text
  username := m.username
  permalink := link

variable (casefold : String → String) (limit : Nat) (deadline : Int) (query : String)

/-- `for message in history`.  A message without a link is dropped. -/
def scanMessages (channelId name : String) : List SlackMessage → List Result → SlackProg (Except Exn Scanned)
  | [], results => return .ok (.more results)
  | m :: l, results =>
    if occurs (casefold query) (casefold m.text) then do
      let answer ← perform (.call .getPermalink .bot [("channel", channelId), ("message_ts", m.ts)])
      match permalink answer with
      | .error e => return .error e
      | .ok link =>
        if Send.truthy link then do
          match ← toResult (found channelId name m (link.getD "")) with
          | .error e => return .error e
          | .ok r =>
            if limit ≤ (results ++ [r]).length then return .ok (.enough (results ++ [r]))
            else scanMessages channelId name l (results ++ [r])
        else scanMessages channelId name l results
    else scanMessages channelId name l results

/-- `for channel in channels`.  A channel whose history is refused is skipped; the deadline stops the scan where it is. -/
def scanChannels : List Json → List Result → SlackProg (Except Exn (List Result))
  | [], results => return .ok results
  | .obj d _ :: l, results =>
    let channelId := (Json.getOr d "id" (.str "")).text
    let name := (Json.getOr d "name" (.str "")).text
    if channelId = "" then scanChannels l results
    else do
      let now : Int ← perform .now
      if deadline ≤ now then return .ok results
      else do
        let answer ← perform (.call .conversationsHistory .bot
          [("channel", channelId), ("limit", toString FALLBACK_DEPTH)])
        match channelHistory channelId answer with
        | .error (.provider _) => scanChannels l results
        | .error e => return .error e
        | .ok history =>
          match ← scanMessages casefold limit query channelId name history results with
          | .error e => return .error e
          | .ok (.enough results) => return .ok results
          | .ok (.more results) => scanChannels l results
  | _ :: _, _ => return .error noAttribute

/-- `_scan`. -/
def scan : SlackProg (Except Exn (List Result)) := do
  let answer ← perform (.call .conversationsList .bot
    [("types", "public_channel"), ("limit", toString FALLBACK_CHANNELS), ("exclude_archived", "true")])
  match listChannels answer with
  | .error e => return .error e
  | .ok channels => scanChannels casefold limit deadline query channels []

/-- Search is refused to this connection, and the scan stands in for it. -/
def fallsBack : Exn → Bool
  | .provider e => e.code ∈ FALLBACK_TRIGGERS
  | _ => false

/-- `SlackAdapter.search`. -/
def search : SlackProg (Except Exn Found) := do
  let answer ← perform (.call .searchMessages .user [("query", query), ("count", toString limit)])
  match searchMessages answer with
  | .error e =>
    if fallsBack e then do
      match ← scan casefold limit deadline query with
      | .error e => return .error e
      | .ok raw => return .ok { raw := raw, reportedMode := some .degraded }
    else return .error e
  | .ok found => do
    match ← toResults (found.filter fun m => m.permalink != "") with
    | .error e => return .error e
    | .ok raw => return .ok { raw := raw }

end Slack
end Search
end SafeSend
