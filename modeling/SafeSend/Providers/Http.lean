import Mathlib.Data.List.Sort
import SafeSend.Errors
/-!
# What a provider answered

A response as the program reads it: its status, its body parsed as far as it parses, and the `Retry-After` it carried.
The JSON here is looked into deeper than a token endpoint's, arrays included.
-/
namespace SafeSend
namespace Providers

/-- A JSON value.  A number comes with its text, an array and an object with their `str()`. -/
inductive Json
  | null
  | bool (b : Bool)
  | num (text : String) (nonzero : Bool)
  | str (s : String)
  | arr (items : List Json) (text : String)
  | obj (fields : List (String × Json)) (text : String)

abbrev Fields := List (String × Json)

namespace Json

/-- `d.get(key, default)`. -/
def getOr (d : Fields) (key : String) (default : Json) : Json := (d.lookup key).getD default

/-- `d.get(key)`. -/
def get (d : Fields) (key : String) : Json := getOr d key .null

/-- `str(v)`. -/
def text : Json → String
  | null => "None"
  | bool true => "True"
  | bool false => "False"
  | num t _ => t
  | str s => s
  | arr _ t => t
  | obj _ t => t

/-- Python's truth of a value. -/
def truthy : Json → Bool
  | null => false
  | bool b => b
  | num _ nonzero => nonzero
  | str s => s != ""
  | arr l _ => !l.isEmpty
  | obj d _ => !d.isEmpty

/-- `v or {}`, where it is going to be asked for a key; anything else that is true raises `AttributeError`. -/
def orEmpty (v : Json) : Except Exn Fields :=
  if v.truthy then
    match v with
    | obj d _ => .ok d
    | _ => .error (.other "object has no attribute 'get'")
  else .ok []

/-! ### `json.dumps`, with `ensure_ascii` and `sort_keys` -/

def hexDigit (n : Nat) : Char := if n < 10 then Char.ofNat (48 + n) else Char.ofNat (87 + n)

/-- One UTF-16 code unit. -/
def unicodeEscape (n : Nat) : String :=
  String.ofList ['\\', 'u', hexDigit (n / 4096 % 16), hexDigit (n / 256 % 16), hexDigit (n / 16 % 16), hexDigit (n % 16)]

def escapeChar (c : Char) : String :=
  let n := c.toNat
  if c = '"' then "\\\""
  else if c = '\\' then "\\\\"
  else if n = 10 then "\\n"
  else if n = 13 then "\\r"
  else if n = 9 then "\\t"
  else if n = 12 then "\\f"
  else if n = 8 then "\\b"
  else if 32 ≤ n ∧ n ≤ 126 then c.toString
  else if n < 0x10000 then unicodeEscape n
  else unicodeEscape (0xD800 + (n - 0x10000) / 1024) ++ unicodeEscape (0xDC00 + (n - 0x10000) % 1024)

def quote (s : String) : String := "\"" ++ String.join (s.toList.map escapeChar) ++ "\""

def sortKeys (l : List (String × String)) : List (String × String) := l.insertionSort fun a b => a.1 ≤ b.1

def braced (l : List (String × String)) : String :=
  "\x7b" ++ ", ".intercalate ((sortKeys l).map fun e => quote e.1 ++ ": " ++ e.2) ++ "\x7d"

mutual

def dump : Json → String
  | null => "null"
  | bool true => "true"
  | bool false => "false"
  | num t _ => t
  | str s => quote s
  | arr l _ => "[" ++ ", ".intercalate (dumpAll l) ++ "]"
  | obj d _ => braced (dumpFields d)

def dumpAll : List Json → List String
  | [] => []
  | v :: l => dump v :: dumpAll l

def dumpFields : Fields → List (String × String)
  | [] => []
  | (key, v) :: d => (key, dump v) :: dumpFields d

end

end Json

/-- A body: nothing at all, what does not parse, or a JSON value. -/
inductive Body
  | empty
  | text (s : String)
  | json (v : Json)

/-- `not response.content`. -/
def Body.isEmpty : Body → Bool
  | empty => true
  | _ => false

structure Response where
  status : Nat
  body : Body
  retryAfter : Option Seconds := none

/-- `2xx`. -/
def Response.success (r : Response) : Bool := 200 ≤ r.status && r.status < 300

/-- Parse, or hand back the raw text as evidence. -/
def jsonBody : Body → Fields
  | .json (.obj fields _) => fields
  | .json _ => [("error", .str "unexpected_json_shape")]
  | .text s => [("error", .str "non_json_response"), ("detail", .str (String.ofList (s.toList.take 2000)))]
  | .empty => [("error", .str "non_json_response"), ("detail", .str "")]

/-- Where Google put the code this time: flat, or the reason of the first of its `errors`. -/
def googleCode (payload : Fields) : String :=
  match Json.get payload "error" with
  | .str s => s
  | .obj err _ =>
    let reason :=
      match Json.get err "errors" with
      | .arr (.obj first _ :: _) _ => (Json.getOr first "reason" (.str "")).text
      | _ => ""
    if reason = "" then (Json.getOr err "status" (.str "")).text else reason
  | _ => ""

def fromGoogle (payload : Fields) (r : Response) : Exn := .provider {
  provider := "google"
  code := googleCode payload
  detail := Json.braced (Json.dumpFields payload)
  status := some r.status
  retryAfter := r.retryAfter }

def fromSlack (payload : Fields) (r : Response) : Exn := .provider {
  provider := "slack"
  code := (Json.getOr payload "error" (.str "")).text
  detail := Json.braced (Json.dumpFields payload)
  status := some r.status
  retryAfter := r.retryAfter }

end Providers
end SafeSend
