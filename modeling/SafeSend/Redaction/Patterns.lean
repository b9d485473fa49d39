import SafeSend.Lib.Numerals
import SafeSend.Lib.Rewrite
import SafeSend.Text
/-!
# Redaction

The credential patterns and what a match of each is replaced by.  A pattern is read as its parts: what opens it, the
marker or field name, what separates that from the value, the value, and what closes it.  A substitution takes the
patterns one after another, each over what the ones before left.
-/
namespace SafeSend
namespace Redaction

open Lib

/-! ## Characters -/

/-- A character as a pattern that ignores case sees it. -/
def fold (c : Char) : Char :=
  if c.toNat = 0x130 ∨ c.toNat = 0x131 then 'i'
  else if c.toNat = 0x17F then 's'
  else if c.toNat = 0x212A then 'k'
  else c.toLower

/-- `\w`.  What of the characters beyond Latin-1 is alphanumeric is given by `beyond`. -/
def isWord (beyond : Char → Bool) (c : Char) : Bool :=
  let n := c.toNat
  if n < 128 then c.isAlphanum || c == '_'
  else if n < 256 then
    n == 0xAA || n == 0xB2 || n == 0xB3 || n == 0xB5 || n == 0xB9 || n == 0xBA || (0xBC ≤ n && n ≤ 0xBE) ||
      (0xC0 ≤ n && n != 0xD7 && n != 0xF7)
  else beyond c

/-- `[A-Za-z0-9…]`, with the other characters of the class. -/
def alnumOr (others : List Char) (c : Char) : Bool := c.isAlphanum || others.contains c

/-! ## Patterns -/

def lit (s : String) : Regex Char := s.toList.foldr (fun c e => .seq (.one (· == c)) e) .empty

/-- `(a|b|…)`. -/
def oneOf : List String → Regex Char
  | [] => .one fun _ => false
  | [s] => lit s
  | s :: l => .alt (lit s) (oneOf l)

structure Credential where
  bounded : Bool := true
  opening : Regex Char := .empty
  label : Regex Char
  separator : Regex Char := .empty
  value : Regex Char
  closing : Regex Char := .empty

namespace Credential

def body (p : Credential) : Regex Char := .seq p.opening (.seq p.label (.seq p.separator (.seq p.value p.closing)))

def pattern (p : Credential) : Pattern Char := ⟨p.bounded, p.body⟩

/-- `re.IGNORECASE`. -/
def ignoreCase (p : Credential) : Credential where
  bounded := p.bounded
  opening := p.opening.comap fold
  label := p.label.comap fold
  separator := p.separator.comap fold
  value := p.value.comap fold
  closing := p.closing.comap fold

end Credential

/-- `\bxox[baprse]-[A-Za-z0-9-]{8,}`, ignoring case. -/
def slack : Credential :=
  Credential.ignoreCase {
    label := .seq (lit "xox") (.seq (.one fun c => "baprse".toList.contains c) (lit "-"))
    value := .many (alnumOr ['-']) 8 }

/-- `\bxapp-[A-Za-z0-9-]{8,}`, ignoring case. -/
def slackApp : Credential := Credential.ignoreCase { label := lit "xapp-", value := .many (alnumOr ['-']) 8 }

/-- `\bya29\.[A-Za-z0-9._\-]{10,}` -/
def googleAccess : Credential := { label := lit "ya29.", value := .many (alnumOr ['.', '_', '-']) 10 }

/-- `\b1//[A-Za-z0-9._\-]{10,}` -/
def googleRefresh : Credential := { label := lit "1//", value := .many (alnumOr ['.', '_', '-']) 10 }

/-- `\bGOCSPX-[A-Za-z0-9_\-]{10,}` -/
def googleSecret : Credential := { label := lit "GOCSPX-", value := .many (alnumOr ['_', '-']) 10 }

/-- `\bsk_live_[A-Za-z0-9_]{8,}` -/
def apiKey : Credential := { label := lit "sk_live_", value := .many (alnumOr ['_']) 8 }

/-- `(?i)\b(authorization|bearer)[=:\s]+[A-Za-z0-9._\-]{12,}` -/
def bearer : Credential :=
  Credential.ignoreCase {
    label := oneOf ["authorization", "bearer"]
    separator := .many (fun c => c == '=' || c == ':' || Text.isSpace c) 1
    value := .many (alnumOr ['.', '_', '-']) 12 }

/-- `(?i)"(access_token|refresh_token|client_secret|token|id_token|code)"\s*:\s*"[^"]+"` -/
def jsonField : Credential :=
  Credential.ignoreCase {
    bounded := false
    opening := lit "\""
    label := oneOf ["access_token", "refresh_token", "client_secret", "token", "id_token", "code"]
    separator := .seq (lit "\"") (.seq (.many Text.isSpace 0) (.seq (lit ":") (.seq (.many Text.isSpace 0) (lit "\""))))
    value := .many (· != '"') 1
    closing := lit "\"" }

/-- `(?i)\b(access_token|refresh_token|client_secret|id_token)=[A-Za-z0-9._\-]{6,}` -/
def queryField : Credential :=
  Credential.ignoreCase {
    label := oneOf ["access_token", "refresh_token", "client_secret", "id_token"]
    separator := lit "="
    value := .many (alnumOr ['.', '_', '-']) 6 }

def TOKEN_PATTERNS : List Credential :=
  [slack, slackApp, googleAccess, googleRefresh, googleSecret, apiKey, bearer, jsonField, queryField]

/-! ## Replacement -/

def REDACTED : List Char := "«redacted»".toList

def MARKERS : List (List Char) :=
  ["xoxb-", "xoxp-", "xoxe-", "xoxa-", "xoxr-", "xoxs-", "xapp-", "ya29.", "1//", "GOCSPX-", "sk_live_"].map String.toList

/-- `str.lower`, of the characters beyond ASCII only those whose lowercase begins with an ASCII one. -/
def lowered (l : List Char) : List Char :=
  l.flatMap fun c =>
    if c.toNat = 0x130 then ['i', Char.ofNat 0x307] else if c.toNat = 0x212A then ['k'] else [c.toLower]

/-- The marker the matched text starts with. -/
def markerOf (raw : List Char) : Option (List Char) :=
  MARKERS.find? fun marker => (lowered marker).isPrefixOf (lowered raw)

def stripped (p : Char → Bool) (l : List Char) : List Char := ((l.dropWhile p).reverse.dropWhile p).reverse

/-- `raw.split("=")[0].split(":")[0].strip().strip('"')` -/
def keyOf (raw : List Char) : List Char :=
  stripped (· == '"') (stripped Text.isSpace ((raw.takeWhile (· != '=')).takeWhile (· != ':')))

/-- Keep the shape of what was redacted. -/
def replacement (raw : List Char) : List Char :=
  match markerOf raw with
  | some marker => marker ++ REDACTED
  | none =>
    let key := keyOf raw
    if key = [] then REDACTED else key ++ '=' :: REDACTED

variable (beyond : Char → Bool)

/-- `pattern.sub(_replacement, text)` -/
def Credential.sub (p : Credential) (text : List Char) : List Char :=
  rewrite (p.pattern.matchAt (isWord beyond)) replacement text

def redact (text : List Char) : List Char := TOKEN_PATTERNS.foldl (fun text p => p.sub beyond text) text

example : redact (fun _ => false) "a \"code\" : \"v w\"".toList = "a code=«redacted»".toList := by decide +kernel

end Redaction
end SafeSend
