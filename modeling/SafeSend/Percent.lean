import SafeSend.Lib.Numerals
import SafeSend.Lib.Template
import SafeSend.Numbers
/-!
# The `%` of strings

`template % args`.  A value is what the directives make of it: of a string that is computed, any other object comes with
what it is shown as.  What raises gives nothing.
-/
namespace SafeSend
namespace Percent

open Lib
open Numbers (asciiDigit)

/-! ## Directives -/

/-- A width or a precision. -/
inductive Size
  | given (n : Nat)
  | star
  deriving DecidableEq

structure Directive where
  key : Option (List Char) := none
  flags : List Char := []
  width : Option Size := none
  precision : Option Size := none
  conversion : Char := 's'
  deriving DecidableEq

/-- What of a directive comes next. -/
inductive Stage
  | opening
  | key (depth : Nat) (taken : List Char)
  | flags
  | width
  | point
  | dot
  | precision
  | length
  | conversion

def CONVERSIONS : List Char := "diouxXeEfFgGcrsa%".toList

/-- `PY_SSIZE_T_MAX` -/
def MAX_WIDTH : Nat := 2 ^ 63 - 1

/-- `INT_MAX` -/
def MAX_PRECISION : Nat := 2 ^ 31 - 1

abbrev Progress := Lib.Step (Stage × Directive) Directive

def atConversion (d : Directive) (c : Char) : Progress :=
  if CONVERSIONS.contains c then .done { d with conversion := c } else .refused

/-- `h`, `l` and `L` are skipped. -/
def atLength (d : Directive) (c : Char) : Progress :=
  if c == 'h' || c == 'l' || c == 'L' then .more (.conversion, d) else atConversion d c

def atPoint (d : Directive) (c : Char) : Progress :=
  if c == '.' then .more (.dot, { d with precision := some (.given 0) }) else atLength d c

def atFlags (d : Directive) (c : Char) : Progress :=
  if "-+ #0".toList.contains c then .more (.flags, { d with flags := c :: d.flags })
  else if c == '*' then .more (.point, { d with width := some .star })
  else match asciiDigit c with
    | some n => .more (.width, { d with width := some (.given n) })
    | none => atPoint d c

/-- The number goes on, up to `bound`. -/
def digits (size : Option Size) (n bound : Nat) : Option Size :=
  match size with
  | some (.given m) => if m * 10 + n ≤ bound then some (.given (m * 10 + n)) else none
  | _ => none

def step : Stage × Directive → Char → Progress
  | (.opening, d), c => if c == '(' then .more (.key 1 [], d) else atFlags d c
  | (.key depth taken, d), c =>
    if c == ')' then
      if depth ≤ 1 then .more (.flags, { d with key := some taken }) else .more (.key (depth - 1) (taken ++ [c]), d)
    else if c == '(' then .more (.key (depth + 1) (taken ++ [c]), d)
    else .more (.key depth (taken ++ [c]), d)
  | (.flags, d), c => atFlags d c
  | (.width, d), c =>
    match asciiDigit c with
    | some n =>
      match digits d.width n MAX_WIDTH with
      | some size => .more (.width, { d with width := some size })
      | none => .refused
    | none => atPoint d c
  | (.point, d), c => atPoint d c
  | (.dot, d), c =>
    if c == '*' then .more (.length, { d with precision := some .star })
    else match asciiDigit c with
      | some n => .more (.precision, { d with precision := some (.given n) })
      | none => atLength d c
  | (.precision, d), c =>
    match asciiDigit c with
    | some n =>
      match digits d.precision n MAX_PRECISION with
      | some size => .more (.precision, { d with precision := some size })
      | none => .refused
    | none => atLength d c
  | (.length, d), c => atLength d c
  | (.conversion, d), c => atConversion d c

def reader : Reader Char (Stage × Directive) Directive where
  mark := '%'
  start := (.opening, {})
  step := step

abbrev Hole := Lib.Hole Char Directive

/-! ## Values -/

/-- A directive with its sizes. -/
structure Spec where
  flags : List Char := []
  width : Option Nat := none
  precision : Option Nat := none
  conversion : Char

/-- Of an object, what a directive shows of it, what it is as an integer, its items if it is a mapping, and its truth. -/
inductive Value
  | text (s : List Char)
  | other (shown : Spec → Option (List Char)) (number : Option Int) (item : Option (List Char → Option Value))
      (truth : Bool)

/-- `str(value)` -/
def Value.str : Value → Option (List Char)
  | text s => some s
  | other shown _ _ _ => shown { conversion := 's' }

variable (printable : Char → Bool)

/-- `\x…`, `\u…` or `\U…`. -/
def hexEscape (n : Nat) : List Char :=
  if n < 0x100 then '\\' :: 'x' :: numeral 16 2 n
  else if n < 0x10000 then '\\' :: 'u' :: numeral 16 4 n
  else '\\' :: 'U' :: numeral 16 8 n

/-- A character between quotes.  What prints beyond ASCII is given by `printable`. -/
def reprChar (quote c : Char) : List Char :=
  if c = '\\' ∨ c = quote then ['\\', c]
  else if c = '\t' then ['\\', 't']
  else if c = '\n' then ['\\', 'n']
  else if c = '\r' then ['\\', 'r']
  else if c.toNat < 32 ∨ c.toNat = 127 then hexEscape c.toNat
  else if c.toNat < 127 ∨ printable c then [c]
  else hexEscape c.toNat

/-- `repr(s)` -/
def reprText (s : List Char) : List Char :=
  let quote := if s.contains '\'' && !s.contains '"' then '"' else '\''
  quote :: (s.flatMap (reprChar printable quote) ++ [quote])

/-- `ascii` of what `repr` gave. -/
def escaped (s : List Char) : List Char := s.flatMap fun c => if c.toNat < 128 then [c] else hexEscape c.toNat

def Value.repr : Value → Option (List Char)
  | text s => some (reprText printable s)
  | other shown _ _ _ => shown { conversion := 'r' }

/-- Cut to the precision. -/
def Spec.cut (spec : Spec) (s : List Char) : List Char :=
  match spec.precision with
  | some n => s.take n
  | none => s

/-- Filled to the width. -/
def Spec.fill (spec : Spec) (s : List Char) : List Char :=
  let blank := List.replicate (spec.width.getD 0 - s.length) ' '
  if spec.flags.contains '-' then s ++ blank else blank ++ s

/-- What a directive shows of something with these two forms. -/
def Spec.show (spec : Spec) (str repr : List Char) : Option (List Char) :=
  if spec.conversion = 's' then some (spec.fill (spec.cut str))
  else if spec.conversion = 'r' then some (spec.fill (spec.cut repr))
  else if spec.conversion = 'a' then some (spec.fill (spec.cut (escaped repr)))
  else none

def Spec.showText (spec : Spec) (s : List Char) : Option (List Char) :=
  if spec.conversion = 'c' then if s.length = 1 then some (spec.fill s) else none
  else spec.show s (reprText printable s)

/-- The string as it is. -/
def Spec.plain (spec : Spec) : Bool := spec.conversion == 's' && spec.width.isNone && spec.precision.isNone

theorem showText_plain {spec : Spec} (h : spec.plain = true) (s : List Char) : spec.showText printable s = some s := by
  obtain ⟨flags, width, precision, conversion⟩ := spec
  simp only [Spec.plain, Bool.and_eq_true, beq_iff_eq, Option.isNone_iff_eq_none] at h
  obtain ⟨⟨rfl, rfl⟩, rfl⟩ := h
  simp [Spec.showText, Spec.show, Spec.fill, Spec.cut]

/-! ## Arguments -/

/-- What stands right of the sign: a tuple, a dict, or anything else. -/
inductive Args
  | positional (l : List Value)
  | mapping (l : List (Value × Value))
  | lone (v : Value)

/-- What a directive takes: one of the arguments, the dict itself, or an item of another mapping. -/
inductive Arg
  | value (v : Value)
  | entries (l : List (Value × Value))
  | item (v : Value)

/-- `bool(value)` -/
def Value.truth : Value → Bool
  | text s => !s.isEmpty
  | other _ _ _ truth => truth

def Args.truth : Args → Bool
  | positional l => !l.isEmpty
  | mapping l => !l.isEmpty
  | lone v => v.truth

def isKey (key : List Char) : Value → Bool
  | .text s => s == key
  | .other .. => false

def lookup (l : List (Value × Value)) (key : List Char) : Option Value := (l.find? fun e => isKey key e.1).map Prod.snd

/-- The entries of a dict, the first after no comma. -/
def reprEntries : List (Value × Value) → Option (List Char)
  | [] => some []
  | e :: l => do
    let key ← e.1.repr printable
    let value ← e.2.repr printable
    let rest ← reprEntries l
    some (key ++ ": ".toList ++ value ++ (if l.isEmpty then [] else ", ".toList) ++ rest)

/-- What a directive shows of an argument. -/
def Arg.shown (spec : Spec) : Arg → Option (List Char)
  | value (.text s) => spec.showText printable s
  | item (.text s) => spec.showText printable s
  | value (.other shown _ _ _) => shown spec
  | item (.other shown _ _ _) => shown spec
  | entries l => do
    let inner ← reprEntries printable l
    let form := '{' :: (inner ++ ['}'])
    spec.show form form

def Arg.number : Arg → Option Int
  | value (.other _ number _ _) => number
  | item (.other _ number _ _) => number
  | _ => none

/-! ## Formatting -/

/-- The arguments still to be taken, and the mapping there is for keys. -/
structure Cursor where
  pending : List Arg
  mapping : Option (List Char → Option Arg)

def Args.cursor : Args → Cursor
  | positional l => ⟨l.map .value, none⟩
  | mapping l => ⟨[.entries l], some fun key => (lookup l key).map .value⟩
  | lone (.text s) => ⟨[.value (.text s)], none⟩
  | lone (.other shown number item truth) =>
    ⟨[.value (.other shown number item truth)], item.map fun f key => (f key).map .item⟩

namespace Cursor

def next (k : Cursor) : Option (Arg × Cursor) :=
  match k.pending with
  | [] => none
  | a :: l => some (a, ⟨l, k.mapping⟩)

/-- A key's item is what is taken next. -/
def keyed (k : Cursor) : Option (List Char) → Option Cursor
  | none => some k
  | some key => do
    let f ← k.mapping
    let a ← f key
    some ⟨[a], k.mapping⟩

/-- `*` takes an integer. -/
def size (k : Cursor) (bound : Nat) : Option Size → Option (Option Int × Cursor)
  | none => some (none, k)
  | some (.given n) => some (some n, k)
  | some .star => do
    let (a, k) ← k.next
    let n ← a.number
    if n.natAbs ≤ bound then some (some n, k) else none

end Cursor

/-- What stands for a directive in the text. -/
inductive Part
  | percent
  | shown (spec : Spec) (a : Arg)

def Part.text : Part → Option (List Char)
  | percent => some ['%']
  | shown spec a => a.shown printable spec

/-- A width below zero fills on the right. -/
def Directive.spec (d : Directive) (width precision : Option Int) : Spec where
  flags := if width.any (· < 0) then '-' :: d.flags else d.flags
  width := width.map Int.natAbs
  precision := precision.map Int.toNat
  conversion := d.conversion

def resolve (d : Directive) (k : Cursor) : Option (Part × Cursor) := do
  let k ← k.keyed d.key
  let (width, k) ← k.size MAX_WIDTH d.width
  let (precision, k) ← k.size MAX_PRECISION d.precision
  if d.conversion = '%' then some (.percent, k)
  else
    let (a, k) ← k.next
    some (.shown (d.spec width precision) a, k)

/-- Unless there is a mapping, no argument is left over. -/
def run : List Hole → Cursor → Option (List Part)
  | [], k => if k.pending.isEmpty || k.mapping.isSome then some [] else none
  | s :: holes, k => do
    let (part, k) ← resolve s.directive k
    let parts ← run holes k
    some (part :: parts)

/-- What stands for the directives, each with the text after it. -/
def woven : List Hole → List (List Char) → List Char
  | s :: holes, t :: texts => t ++ (s.after ++ woven holes texts)
  | _, _ => []

/-- `template % args` -/
def format (template : List Char) (args : Args) : Option (List Char) := do
  let T ← reader.parse template
  let parts ← run T.holes args.cursor
  let texts ← parts.mapM (Part.text printable)
  some (T.head ++ woven T.holes texts)

example : format (fun _ => false) "%%%-5s|%(k)r".toList (.lone (.text "x".toList)) = none := by decide +kernel

example : format (fun _ => false) "%-5s|%.*s%%".toList
    (.positional [.text "ab".toList, .other (fun _ => none) (some 1) none true, .text "xyz".toList]) =
      some "ab   |x%".toList := by decide +kernel

end Percent
end SafeSend
