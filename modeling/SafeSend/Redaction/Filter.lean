import SafeSend.Percent
import SafeSend.Redaction.Patterns
/-!
# Log records

A record, the line a handler's formatter makes of it, and the filter in front, which rewrites the record's message, its
arguments and a traceback that was rendered before.
-/
namespace SafeSend
namespace Redaction

open Lib Percent

/-- A record.  `excInfo` is what its exception will be rendered as, `excText` what it was rendered as by an earlier
handler; an empty text is none. -/
structure Record where
  msg : Value
  args : Args
  excInfo : List Char := []
  excText : List Char := []
  stackInfo : List Char := []

/-- A handler's formatter, by what its format has before and after the message. -/
structure Formatter where
  before : List Char := []
  after : List Char := []

/-- `logging.BASIC_FORMAT` -/
def basicFormat (levelname name : List Char) : Formatter := ⟨levelname ++ ':' :: (name ++ [':']), []⟩

variable (printable : Char → Bool)

def Record.getMessage (r : Record) : Option (List Char) := do
  let msg ← r.msg.str
  if r.args.truth then Percent.format printable msg r.args else some msg

/-- Something below the text, if there is anything. -/
def below (s t : List Char) : List Char :=
  if t = [] then s
  else if s.getLast? = some '\n' then s ++ t
  else s ++ '\n' :: t

/-- The traceback: an exception is rendered where no handler has before. -/
def Record.traceback (r : Record) : List Char := if r.excText = [] then r.excInfo else r.excText

def Formatter.format (f : Formatter) (r : Record) : Option (List Char) := do
  let message ← r.getMessage printable
  some (below (below (f.before ++ (message ++ f.after)) r.traceback) r.stackInfo)

variable (beyond : Char → Bool)

def redactValue : Value → Value
  | .text s => .text (redact beyond s)
  | v => v

def redactArgs : Args → Args
  | .mapping l => .mapping (l.map fun e => (e.1, redactValue beyond e.2))
  | .positional l => .positional (l.map (redactValue beyond))
  | .lone v => .lone (redactValue beyond v)

/-- `RedactingFilter.filter`, which always lets the record through. -/
def filter (r : Record) : Record where
  msg := redactValue beyond r.msg
  args := if r.args.truth then redactArgs beyond r.args else r.args
  excInfo := r.excInfo
  excText := if r.excText = [] then r.excText else redact beyond r.excText
  stackInfo := r.stackInfo

end Redaction
end SafeSend
