import SafeSend.Redaction.Filter
import SafeSend.Redaction.Pieces
import SafeSend.Redaction.Settled
/-!
# The line that is emitted

What the formatter makes of a record the filter has rewritten, against the pieces of the record as it was.
-/
namespace SafeSend
namespace Redaction

open Lib Percent

variable {beyond printable : Char → Bool} {p : Credential} {f : Formatter} {r : Record}

/-! ## Arguments -/

section
variable (beyond)

def redactArg : Arg → Arg
  | .value v => .value (redactValue beyond v)
  | .entries l => .entries (l.map fun e => (e.1, redactValue beyond e.2))
  | .item v => .item v

def redactPart : Part → Part
  | .percent => .percent
  | .shown spec a => .shown spec (redactArg beyond a)

def redactCursor (k : Cursor) : Cursor where
  pending := k.pending.map (redactArg beyond)
  mapping := k.mapping.map fun f key => (f key).map (redactArg beyond)

end

theorem number_redactArg (a : Arg) : (redactArg beyond a).number = a.number := by
  cases a with
  | value v => cases v <;> simp only [redactArg, redactValue, Arg.number]
  | entries l => rfl
  | item v => rfl

theorem lookup_redact (l : List (Value × Value)) (key : List Char) :
    lookup (l.map fun e => (e.1, redactValue beyond e.2)) key = (lookup l key).map (redactValue beyond) := by
  unfold lookup
  rw [List.find?_map, Option.map_map, Option.map_map]
  rfl

theorem cursor_redactArgs (args : Args) : (redactArgs beyond args).cursor = redactCursor beyond args.cursor := by
  cases args with
  | positional l => simp [redactArgs, Args.cursor, redactCursor, redactArg, Function.comp_def]
  | mapping l =>
    simp only [redactArgs, Args.cursor, redactCursor, List.map_cons, List.map_nil, Option.map_some, lookup_redact,
      Option.map_map]
    rfl
  | lone v =>
    cases v with
    | text s => rfl
    | other shown number item truth =>
      simp only [redactArgs, redactValue, Args.cursor, redactCursor, List.map_cons, List.map_nil, Option.map_map,
        Function.comp_def]
      rfl

theorem truth_redactArgs (args : Args) : (redactArgs beyond args).truth = args.truth := by
  cases args with
  | positional l => simp [redactArgs, Args.truth]
  | mapping l => simp [redactArgs, Args.truth]
  | lone v =>
    cases v with
    | text s =>
      have h := (closing_redact beyond s).1
      simp only [redactArgs, redactValue, Args.truth, Value.truth]
      rw [Bool.eq_iff_iff]
      simp [h]
    | other shown number item truth => rfl

theorem next_redact (k : Cursor) : (redactCursor beyond k).next =
    k.next.map fun x => (redactArg beyond x.1, redactCursor beyond x.2) := by
  obtain ⟨pending, mapping⟩ := k
  cases pending <;> rfl

theorem keyed_redact (k : Cursor) (key : Option (List Char)) : (redactCursor beyond k).keyed key =
    (k.keyed key).map (redactCursor beyond) := by
  obtain ⟨pending, mapping⟩ := k
  cases key with
  | none => rfl
  | some key =>
    cases mapping with
    | none => rfl
    | some item =>
      simp only [Cursor.keyed, redactCursor, Option.map_some, Option.bind_eq_bind, Option.bind_some]
      cases item key <;> rfl

theorem size_redact (k : Cursor) (bound : Nat) (size : Option Size) : (redactCursor beyond k).size bound size =
    (k.size bound size).map fun x => (x.1, redactCursor beyond x.2) := by
  cases size with
  | none => rfl
  | some size =>
    cases size with
    | given n => rfl
    | star =>
      simp only [Cursor.size, next_redact, Option.bind_eq_bind]
      cases hnext : k.next with
      | none => rfl
      | some x =>
        simp only [Option.map_some, Option.bind_some, number_redactArg]
        cases hnumber : x.1.number with
        | none => rfl
        | some n =>
          simp only [Option.bind_some]
          split <;> rfl

/-- **What a directive takes is redacted where the arguments are.** -/
theorem resolve_redact (d : Directive) (k : Cursor) : resolve d (redactCursor beyond k) =
    (resolve d k).map fun x => (redactPart beyond x.1, redactCursor beyond x.2) := by
  unfold resolve
  simp only [keyed_redact, Option.bind_eq_bind]
  cases k.keyed d.key with
  | none => rfl
  | some k₁ =>
    simp only [Option.map_some, Option.bind_some, size_redact]
    cases k₁.size MAX_WIDTH d.width with
    | none => rfl
    | some x =>
      simp only [Option.map_some, Option.bind_some, size_redact]
      cases x.2.size MAX_PRECISION d.precision with
      | none => rfl
      | some y =>
        simp only [Option.map_some, Option.bind_some, next_redact]
        split
        · rfl
        · cases y.2.next <;> rfl

theorem run_redact : ∀ (holes : List Hole) (k : Cursor), run holes (redactCursor beyond k) =
    (run holes k).map fun parts => parts.map (redactPart beyond)
  | [], k => by
    have hpending : (redactCursor beyond k).pending.isEmpty = k.pending.isEmpty := by simp [redactCursor]
    have hmapping : (redactCursor beyond k).mapping.isSome = k.mapping.isSome := by simp [redactCursor]
    rw [run, run, hpending, hmapping]
    split <;> rfl
  | s :: holes, k => by
    simp only [run, resolve_redact, Option.bind_eq_bind]
    cases resolve s.directive k with
    | none => rfl
    | some x =>
      simp only [Option.map_some, Option.bind_some, run_redact holes]
      cases run holes x.2 <;> rfl

/-! ## The pieces of a record -/

section
variable (beyond printable)

/-- A string shown as it is stands as it is, anything else as what the directive shows of it redacted. -/
def argPiece (source : List Char) (part : Part) : Option Piece :=
  match part with
  | .shown spec (.value (.text s)) =>
    if spec.plain then some (.string source s) else (spec.showText printable (redact beyond s)).map (.fixed source)
  | part => ((redactPart beyond part).text printable).map (.fixed source)

/-- The text of a message that is no string is left alone. -/
def literal (own : Bool) (s : List Char) : Piece := if own then .own s else .fixed [] s

def holePieces (own : Bool) : List Hole → List Part → Option (List Piece)
  | [], [] => some []
  | s :: holes, part :: parts => do
    let x ← argPiece beyond printable (if own then s.source else []) part
    let xs ← holePieces own holes parts
    some (x :: literal own s.after :: xs)
  | _, _ => none

def isText : Value → Bool
  | .text _ => true
  | .other .. => false

/-- A message, formatted with what arguments there are. -/
def messagePieces (own : Bool) (msg : List Char) (args : Args) : Option (List Piece) :=
  if args.truth then do
    let T ← reader.parse msg
    let parts ← run T.holes args.cursor
    let xs ← holePieces beyond printable own T.holes parts
    some (literal own T.head :: xs)
  else some [literal own msg]

def belowPieces (xs : List Piece) (x : Piece) : List Piece :=
  if x.shown = [] then xs
  else if (lineOf xs).getLast? = some '\n' then xs ++ [x]
  else xs ++ [.fixed [] ['\n'], x]

/-- A traceback rendered before is redacted, one that is still to be rendered is not. -/
def tracebackPiece (r : Record) : Piece := if r.excText = [] then .fixed [] r.excInfo else .string [] r.excText

def linePieces (f : Formatter) (r : Record) : Option (List Piece) := do
  let msg ← r.msg.str
  let xs ← messagePieces beyond printable (isText r.msg) msg r.args
  let line := .fixed [] f.before :: (xs ++ [.fixed [] f.after])
  some (belowPieces (belowPieces line (tracebackPiece r)) (.fixed [] r.stackInfo))

end

abbrev Redacts (beyond : Char → Bool) : List Piece → List Piece → Prop := List.Forall₂ (Becomes (redact beyond))

theorem forall₂_append {R : Piece → Piece → Prop} : ∀ {xs xs' zs : List Piece}, List.Forall₂ R (xs ++ xs') zs →
    ∃ ys ys', zs = ys ++ ys' ∧ List.Forall₂ R xs ys ∧ List.Forall₂ R xs' ys'
  | [], _, zs, h => ⟨[], zs, rfl, .nil, h⟩
  | _ :: _, _, _ :: _, .cons hx h => by
    obtain ⟨ys, ys', rfl, hys, hys'⟩ := forall₂_append h
    exact ⟨_ :: ys, ys', rfl, .cons hx hys, hys'⟩

/-- **Something put below a line** is below what the line becomes, as what it becomes itself. -/
theorem below_becomes {xs zs : List Piece} {x : Piece} {t : List Char} (hsource : x.source = [])
    (ht : ∀ y, Becomes (redact beyond) x y → y.shown = t) (hclosing : x.shown = [] ↔ t = [])
    (h : Redacts beyond (belowPieces xs x) zs) :
    ∃ ys, Redacts beyond xs ys ∧ lineOf zs = below (lineOf ys) t ∧ sourceOf zs = sourceOf ys := by
  unfold belowPieces at h
  split at h
  · next hx => exact ⟨zs, h, by rw [below, if_pos (hclosing.1 hx)], rfl⟩
  · next hx =>
    have hne : t ≠ [] := fun h => hx (hclosing.2 h)
    split at h
    · next hline =>
      obtain ⟨ys, _, rfl, hys, hys'⟩ := forall₂_append h
      cases hys' with
      | cons hy hnil =>
        cases hnil
        refine ⟨ys, hys, ?_, ?_⟩
        · have hline' := (closing_line (closing_redact beyond) hys).2.1 hline
          rw [below, if_neg hne, if_pos hline', lineOf, List.flatMap_append, List.flatMap_singleton, ht _ hy]
          rfl
        · rw [sourceOf, List.flatMap_append, List.flatMap_singleton, hy.source_nil hsource, List.append_nil]
          rfl
    · next hline =>
      obtain ⟨ys, _, rfl, hys, hys'⟩ := forall₂_append h
      cases hys' with
      | cons hnew hys' =>
        cases hnew
        cases hys' with
        | cons hy hnil =>
          cases hnil
          refine ⟨ys, hys, ?_, ?_⟩
          · have hline' : (lineOf ys).getLast? ≠ some '\n' := fun h =>
              hline ((closing_line (closing_redact beyond) hys).2.2 h)
            rw [below, if_neg hne, if_neg hline', lineOf, List.flatMap_append, List.flatMap_cons, List.flatMap_singleton,
              ht _ hy]
            rfl
          · rw [sourceOf, List.flatMap_append, List.flatMap_cons, List.flatMap_singleton, hy.source_nil hsource,
              List.append_nil]
            exact List.append_nil _

/-! ## The message -/

theorem text_redactPart (spec : Spec) (s : List Char) :
    (redactPart beyond (.shown spec (.value (.text s)))).text printable = spec.showText printable (redact beyond s) := by
  simp only [redactPart, redactArg, redactValue, Part.text, Arg.shown]

theorem argPiece_source {source : List Char} {part : Part} {x : Piece}
    (h : argPiece beyond printable source part = some x) : x.source = source := by
  unfold argPiece at h
  split at h
  · split at h
    · cases h
      rfl
    · obtain ⟨t, -, rfl⟩ := Option.map_eq_some_iff.1 h
      rfl
  · obtain ⟨t, -, rfl⟩ := Option.map_eq_some_iff.1 h
    rfl

theorem argPiece_becomes {source : List Char} {part : Part} {x y : Piece}
    (h : argPiece beyond printable source part = some x) (hy : Becomes (redact beyond) x y) :
    (redactPart beyond part).text printable = some y.shown ∧ y.source = source := by
  unfold argPiece at h
  split at h
  · next spec s =>
    rw [text_redactPart]
    split at h
    · next hplain =>
      cases h
      cases hy with
      | string =>
        rw [showText_plain printable hplain]
        simp only [Piece.shown, Piece.source, and_self]
    · obtain ⟨t, ht, rfl⟩ := Option.map_eq_some_iff.1 h
      cases hy with
      | fixed =>
        rw [ht]
        exact ⟨rfl, rfl⟩
  · obtain ⟨t, ht, rfl⟩ := Option.map_eq_some_iff.1 h
    cases hy with
    | fixed => exact ⟨ht, rfl⟩

/-- The same directive, with a text after it that has no other. -/
structure Rewrites (s s' : Hole) : Prop where
  source : s'.source = s.source
  directive : s'.directive = s.directive
  mark : '%' ∉ s.after → '%' ∉ s'.after

theorem run_rewrites {holes holes' : List Hole} (h : List.Forall₂ Rewrites holes holes') :
    ∀ k : Cursor, run holes' k = run holes k := by
  induction h with
  | nil => exact fun _ => rfl
  | cons hs _ ih =>
    intro k
    rw [run, run, hs.directive]
    simp only [ih]

theorem mem_rewrites {holes holes' : List Hole} (h : List.Forall₂ Rewrites holes holes') :
    ∀ s' ∈ holes', ∃ s ∈ holes, Rewrites s s' := by
  induction h with
  | nil => exact fun s' hs' => absurd hs' List.not_mem_nil
  | cons hs _ ih =>
    rintro s' (_ | ⟨_, hs'⟩)
    · exact ⟨_, List.mem_cons_self, hs⟩
    · obtain ⟨s, hmem, hrewrites⟩ := ih s' hs'
      exact ⟨s, List.mem_cons_of_mem _ hmem, hrewrites⟩

theorem writes_rewrites {T : Template Char Directive} {head' : List Char} {holes' : List Hole} (hT : reader.Writes T)
    (hhead : '%' ∉ T.head → '%' ∉ head') (h : List.Forall₂ Rewrites T.holes holes') : reader.Writes ⟨head', holes'⟩ := by
  refine ⟨hhead hT.head, fun s' hs' => ?_⟩
  obtain ⟨s, hs, hrewrites⟩ := mem_rewrites h s' hs'
  obtain ⟨hreads, hafter⟩ := hT.holes s hs
  rw [hrewrites.source, hrewrites.directive]
  exact ⟨hreads, hrewrites.mark hafter⟩

theorem literal_becomes {own : Bool} {s : List Char} {y : Piece} (h : Becomes (redact beyond) (literal own s) y) :
    y = literal own y.shown ∧ ('%' ∉ s → '%' ∉ y.shown) ∧ (own = false → y.shown = s) := by
  cases own with
  | true =>
    cases h with
    | own hmark _ => exact ⟨rfl, hmark, fun h => by cases h⟩
  | false =>
    cases h with
    | fixed => exact ⟨rfl, id, fun _ => rfl⟩

/-- **The directives stay**, each showing what its piece becomes, with the text after it that comes of it. -/
theorem holes_become {own : Bool} : ∀ {holes : List Hole} {parts : List Part} {xs ys : List Piece},
    holePieces beyond printable own holes parts = some xs → Redacts beyond xs ys →
      ∃ holes' texts, (parts.map (redactPart beyond)).mapM (Part.text printable) = some texts ∧
        woven holes' texts = lineOf ys ∧ List.Forall₂ Rewrites holes holes' ∧ (own = false → holes' = holes) ∧
        (own = true → sourceOf ys = holes'.flatMap fun s => s.source ++ s.after)
  | [], [], _, _, h, hys => by
    cases h
    cases hys
    exact ⟨[], [], rfl, rfl, .nil, fun _ => rfl, fun _ => rfl⟩
  | s :: holes, part :: parts, _, _, h, hys => by
    simp only [holePieces, Option.bind_eq_bind, Option.bind_eq_some_iff, Option.some.injEq] at h
    obtain ⟨x, hx, xs, hxs, rfl⟩ := h
    cases hys with
    | @cons _ y _ _ hy hys =>
      cases hys with
      | @cons _ z _ ys hz hys =>
        obtain ⟨hshown, hsource⟩ := argPiece_becomes hx hy
        obtain ⟨hliteral, hmark, hother⟩ := literal_becomes hz
        obtain ⟨holes', texts, htexts, hwoven, hrewrites, hsame, hown⟩ := holes_become hxs hys
        refine ⟨⟨s.source, s.directive, z.shown⟩ :: holes', y.shown :: texts, ?_, ?_, .cons ⟨rfl, rfl, hmark⟩ hrewrites,
          ?_, ?_⟩
        · rw [List.map_cons, List.mapM_cons, hshown, htexts]
          rfl
        · rw [woven, hwoven]
          rfl
        · intro hfalse
          rw [hsame hfalse, hother hfalse]
        · intro htrue
          subst htrue
          rw [List.flatMap_cons, ← hown rfl, List.append_assoc]
          rw [if_pos rfl] at hsource
          have hzsource : z.source = z.shown := by
            rw [hliteral]
            rfl
          show y.source ++ (z.source ++ sourceOf ys) = _
          rw [hsource, hzsource]
  | [], _ :: _, _, _, h, _ => by cases h
  | _ :: _, [], _, _, h, _ => by cases h

theorem source_holes : ∀ {holes : List Hole} {parts : List Part} {xs : List Piece},
    holePieces beyond printable true holes parts = some xs → sourceOf xs = holes.flatMap fun s => s.source ++ s.after
  | [], [], _, h => by
    cases h
    rfl
  | s :: holes, part :: parts, _, h => by
    simp only [holePieces, Option.bind_eq_bind, Option.bind_eq_some_iff, Option.some.injEq] at h
    obtain ⟨x, hx, xs, hxs, rfl⟩ := h
    have hsource : x.source = s.source := argPiece_source hx
    rw [List.flatMap_cons, ← source_holes hxs, List.append_assoc, ← hsource]
    rfl
  | [], _ :: _, _, h => by cases h
  | _ :: _, [], _, h => by cases h

theorem source_message {msg : List Char} {args : Args} {xs : List Piece}
    (h : messagePieces beyond printable true msg args = some xs) : sourceOf xs = msg := by
  unfold messagePieces at h
  split at h
  · simp only [Option.bind_eq_bind, Option.bind_eq_some_iff, Option.some.injEq] at h
    obtain ⟨T, hT, parts, -, xs, hxs, rfl⟩ := h
    rw [← (Reader.parse_iff.1 hT).1, Template.text, ← source_holes hxs]
    rfl
  · cases h
    exact List.append_nil _

/-- **The redacted message formats to what its pieces become.** -/
theorem message_becomes {own : Bool} {msg msg' : List Char} {args : Args} {xs ys : List Piece}
    (h : messagePieces beyond printable own msg args = some xs) (hys : Redacts beyond xs ys)
    (hown : own = true → sourceOf ys = msg') (hother : own = false → msg' = msg) :
    (if args.truth then Percent.format printable msg' (redactArgs beyond args) else some msg') = some (lineOf ys) := by
  unfold messagePieces at h
  split at h
  · next htruth =>
    simp only [Option.bind_eq_bind, Option.bind_eq_some_iff, Option.some.injEq] at h
    obtain ⟨T, hT, parts, hparts, xs, hxs, rfl⟩ := h
    cases hys with
    | @cons _ y _ ys hy hys =>
      obtain ⟨hliteral, hmark, hsame⟩ := literal_becomes hy
      obtain ⟨holes', texts, htexts, hwoven, hrewrites, hholes, hsource⟩ := holes_become hxs hys
      have hparse : reader.parse msg' = some ⟨y.shown, holes'⟩ := by
        cases own with
        | true =>
          have hysource : y.source = y.shown := by
            rw [hliteral]
            rfl
          refine Reader.parse_iff.2 ⟨?_, writes_rewrites (Reader.parse_iff.1 hT).2 hmark hrewrites⟩
          rw [← hown rfl, Template.text, ← hsource rfl, ← hysource]
          rfl
        | false =>
          rw [hother rfl, hholes rfl, hsame rfl]
          exact hT
      have hrun : run holes' (redactArgs beyond args).cursor = some (parts.map (redactPart beyond)) := by
        rw [run_rewrites hrewrites, cursor_redactArgs, run_redact, hparts]
        rfl
      rw [if_pos htruth, Percent.format, hparse]
      simp only [Option.bind_eq_bind, Option.bind_some, hrun, htexts, hwoven]
      rfl
  · next htruth =>
    cases h
    cases hys with
    | @cons _ y _ ys hy hys =>
      cases hys
      obtain ⟨hliteral, -, hsame⟩ := literal_becomes hy
      have hline : lineOf [y] = y.shown := List.append_nil _
      rw [if_neg htruth, hline]
      cases own with
      | true =>
        have hysource : sourceOf [y] = y.shown := by
          rw [hliteral]
          exact List.append_nil _
        rw [← hown rfl, hysource]
      | false => rw [hother rfl, hsame rfl]

/-! ## The line -/

variable (beyond printable) in
/-- The line formatted after the filter has no match of a pattern. -/
def LineCovered (f : Formatter) (r : Record) : Prop :=
  ∀ line, f.format printable (filter beyond r) = some line → ∀ p ∈ TOKEN_PATTERNS, p.Free beyond line

variable (beyond printable) in
/-- The passes over the line find what they find in the message and the strings one by one, and the line settles. -/
def InStrings (f : Formatter) (r : Record) : Prop :=
  ∃ xs ∈ linePieces beyond printable f r, AllWithin beyond TOKEN_PATTERNS xs ∧ Settles beyond (lineOf xs)

instance (f : Formatter) (r : Record) : Decidable (InStrings beyond printable f r) :=
  inferInstanceAs (Decidable (∃ xs ∈ linePieces beyond printable f r, _ ∧ _))

theorem tracebackPiece_source (r : Record) : (tracebackPiece r).source = [] := by
  unfold tracebackPiece
  split <;> rfl

theorem traceback_filter (r : Record) : (filter beyond r).traceback =
    if r.excText = [] then r.excInfo else redact beyond r.excText := by
  unfold Record.traceback filter
  by_cases h : r.excText = []
  · simp only [if_pos h]
  · have hne : redact beyond r.excText ≠ [] := fun hnil => h ((closing_redact beyond r.excText).1.2 hnil)
    simp only [if_neg h, if_neg hne]

theorem traceback_becomes {y : Piece} (h : Becomes (redact beyond) (tracebackPiece r) y) :
    y.shown = (filter beyond r).traceback := by
  rw [traceback_filter]
  unfold tracebackPiece at h
  split at h
  · next hnil =>
    cases h
    rw [if_pos hnil, Piece.shown]
  · next hne =>
    cases h
    rw [if_neg hne, Piece.shown]

theorem closing_traceback (r : Record) : (tracebackPiece r).shown = [] ↔ (filter beyond r).traceback = [] := by
  rw [traceback_filter]
  unfold tracebackPiece
  split
  · exact Iff.rfl
  · exact (closing_redact beyond r.excText).1

theorem source_below {xs : List Piece} {x : Piece} (hx : x.source = []) :
    sourceOf (belowPieces xs x) = sourceOf xs := by
  unfold belowPieces
  split
  · rfl
  · have hnewline : (Piece.fixed [] ['\n']).source = [] := rfl
    split <;> simp [sourceOf, hx, hnewline]

theorem getMessage_filter {msg : List Char} {xs ys : List Piece} (hmsg : r.msg.str = some msg)
    (h : messagePieces beyond printable (isText r.msg) msg r.args = some xs) (hys : Redacts beyond xs ys)
    (hsource : sourceOf ys = redact beyond (sourceOf xs)) :
    (filter beyond r).getMessage printable = some (lineOf ys) := by
  have htruth : (filter beyond r).args.truth = r.args.truth := by
    unfold filter
    split
    · exact truth_redactArgs r.args
    · rfl
  obtain ⟨msg', hmsg', hown, hother⟩ : ∃ msg', (filter beyond r).msg.str = some msg' ∧
      (isText r.msg = true → sourceOf ys = msg') ∧ (isText r.msg = false → msg' = msg) := by
    unfold filter
    cases hvalue : r.msg with
    | text s =>
      rw [hvalue] at hmsg h
      cases hmsg
      refine ⟨redact beyond msg, by simp only [redactValue, Value.str], fun _ => ?_, fun h => by cases h⟩
      rw [hsource, source_message h]
    | other shown number item truth =>
      rw [hvalue] at hmsg
      exact ⟨msg, hmsg, fun h => (by cases h), fun _ => rfl⟩
  have hbecomes := message_becomes h hys hown hother
  unfold Record.getMessage
  rw [hmsg', htruth]
  simp only [Option.bind_eq_bind, Option.bind_some]
  by_cases hargs : r.args.truth = true
  · rw [if_pos hargs] at hbecomes ⊢
    rw [← hbecomes, filter]
    simp only [if_pos hargs]
  · rw [if_neg hargs] at hbecomes ⊢
    exact hbecomes

/-- **After the filter the line is what comes of the pieces**, the message's being the message redacted. -/
theorem format_becomes {xs zs : List Piece} (h : linePieces beyond printable f r = some xs) (hzs : Redacts beyond xs zs)
    (hsource : sourceOf zs = redact beyond (sourceOf xs)) :
    f.format printable (filter beyond r) = some (lineOf zs) := by
  unfold linePieces at h
  simp only [Option.bind_eq_bind, Option.bind_eq_some_iff, Option.some.injEq] at h
  obtain ⟨msg, hmsg, ms, hms, rfl⟩ := h
  -- From the bottom of the line up: the stack, the traceback, and what the format has around the message.
  obtain ⟨ys₁, hys₁, hline₁, hsource₁⟩ := below_becomes (t := r.stackInfo) rfl (fun y hy => by cases hy; rfl) Iff.rfl hzs
  obtain ⟨ys₂, hys₂, hline₂, hsource₂⟩ := below_becomes (tracebackPiece_source r) (fun y hy => traceback_becomes hy)
    (closing_traceback r) hys₁
  cases hys₂ with
  | cons hbefore hys₂ =>
    cases hbefore
    obtain ⟨ms', _, rfl, hms', hafter⟩ := forall₂_append hys₂
    cases hafter with
    | cons hafter hnil =>
      cases hafter
      cases hnil
      have hline₃ : lineOf (.fixed [] f.before :: (ms' ++ [.fixed [] f.after])) =
          f.before ++ (lineOf ms' ++ f.after) := by
        simp [lineOf, Piece.shown]
      have hsource₃ : ∀ xs : List Piece, sourceOf (.fixed [] f.before :: (xs ++ [.fixed [] f.after])) = sourceOf xs := by
        intro xs
        simp [sourceOf, Piece.source]
      have hmessage : sourceOf ms' = redact beyond (sourceOf ms) := by
        rw [← hsource₃ ms', ← hsource₂, ← hsource₁, hsource, source_below rfl, source_below (tracebackPiece_source r),
          hsource₃ ms]
      unfold Formatter.format
      rw [getMessage_filter hmsg hms hms' hmessage]
      simp only [Option.bind_eq_bind, Option.bind_some]
      rw [hline₁, hline₂, hline₃]
      rfl

/-- **Where the passes find nothing else, the filter has the line redacted whole.** -/
theorem format_filter {xs : List Piece} (h : linePieces beyond printable f r = some xs)
    (hwithin : AllWithin beyond TOKEN_PATTERNS xs) :
    f.format printable (filter beyond r) = some (redact beyond (lineOf xs)) := by
  obtain ⟨hsource, hline⟩ := passes_whole hwithin
  have hzs : Redacts beyond xs (TOKEN_PATTERNS.foldl (fun xs p => p.passed beyond xs) xs) :=
    becomes_passes (fun _ h => h) xs
  rw [redact, ← hline]
  exact format_becomes h hzs hsource

/-- **Where the filter has nothing to rewrite**, the line is what the record is formatted to. -/
theorem format_quiet {xs : List Piece} (h : linePieces beyond printable f r = some xs) (hquiet : Quiet beyond xs) :
    f.format printable (filter beyond r) = some (lineOf xs) := by
  refine format_becomes h (List.forall₂_same.2 fun x hx => ?_) (redact_of_free hquiet.1).symm
  cases x with
  | own s => exact .own id (Closing.refl s)
  | string source s =>
    have hsame : redact beyond s = s := redact_of_free (hquiet.2 source s hx)
    have hbecomes : Becomes (redact beyond) (.string source s) (.string source (redact beyond s)) := .string source s
    rwa [hsame] at hbecomes
  | fixed source t => exact .fixed source t

theorem below_free (hp : p ∈ TOKEN_PATTERNS) {s t : List Char} (h : p.Free beyond (below s t)) :
    p.Free beyond s ∧ p.Free beyond t := by
  have hsplit : ∀ s : List Char, s.getLast? = some '\n' → p.Free beyond (s ++ t) → p.Free beyond t := by
    intro s hs h
    refine (Pattern.Free.right h).congr ?_
    rw [hs]
    rfl
  unfold below at h
  split at h
  · next hnil =>
    rw [hnil]
    exact ⟨h, Pattern.free_nil (P := p.pattern) (pos_of_pattern hp)⟩
  · split at h
    · next hlast => exact ⟨Pattern.Free.left h, hsplit s hlast h⟩
    · rw [← List.singleton_append, ← List.append_assoc] at h
      exact ⟨Pattern.Free.left (Pattern.Free.left h), hsplit (s ++ ['\n']) (by simp) h⟩

/-- **The line is covered** where nothing is found but in the message and the strings the filter rewrites, and where it
has nothing to rewrite in no other case; a traceback still to be rendered and a stack have to be free in any. -/
theorem line_covered (beyond printable : Char → Bool) (f : Formatter) (r : Record) :
    (InStrings beyond printable f r → LineCovered beyond printable f r) ∧
      (∀ xs, linePieces beyond printable f r = some xs → Quiet beyond xs →
        (LineCovered beyond printable f r ↔ InStrings beyond printable f r)) ∧
      ((f.format printable (filter beyond r)).isSome → LineCovered beyond printable f r →
        ∀ p ∈ TOKEN_PATTERNS, p.Free beyond r.stackInfo ∧ (r.excText = [] → p.Free beyond r.excInfo)) := by
  have henough : InStrings beyond printable f r → LineCovered beyond printable f r := by
    rintro ⟨xs, hxs, hwithin, hsettles⟩ line hline
    rw [format_filter hxs hwithin] at hline
    rw [← Option.some.inj hline]
    exact redact_free hsettles
  refine ⟨henough, fun xs hxs hquiet => ⟨fun hcovered => ?_, henough⟩, fun hsome hcovered p hp => ?_⟩
  · have hfree := hcovered _ (format_quiet hxs hquiet)
    exact ⟨xs, hxs, allWithin_of_free hquiet hfree fun _ h => h, settles_of_free hfree⟩
  · obtain ⟨line, hline⟩ := Option.isSome_iff_exists.1 hsome
    have hfree := hcovered line hline p hp
    unfold Formatter.format at hline
    simp only [Option.bind_eq_bind, Option.bind_eq_some_iff, Option.some.injEq] at hline
    obtain ⟨message, -, rfl⟩ := hline
    obtain ⟨habove, hstack⟩ := below_free hp hfree
    refine ⟨hstack, fun hnil => ?_⟩
    have htraceback := (below_free hp habove).2
    rwa [traceback_filter, if_pos hnil] at htraceback

/-- An object with these two forms. -/
def object (str repr : List Char) : Value := .other (fun spec => spec.show str repr) none none true

/-- Of a token given as an argument, with a traceback that was rendered before; and of two objects without a token. -/
theorem line_covered_sample :
    let f := basicFormat "WARNING".toList "core.send".toList
    let rejected : Record := {
      msg := .text "send %s: provider rejected %s".toList
      args := .positional [object "7f3c".toList "UUID('7f3c')".toList, .text "xoxb-12345678".toList]
      excText := "ValueError: sk_live_abcdefgh".toList }
    let failed : Record := {
      msg := .text "probe for send %s failed: %s".toList
      args := .positional [object "7f3c".toList "UUID('7f3c')".toList,
        object "timed out".toList "Timeout('timed out')".toList] }
    (InStrings (fun _ => false) (fun _ => false) f rejected ∧ LineCovered (fun _ => false) (fun _ => false) f rejected ∧
      ∀ p ∈ TOKEN_PATTERNS, p.Free (fun _ => false) rejected.stackInfo) ∧
    (LineCovered (fun _ => false) (fun _ => false) f failed ↔ InStrings (fun _ => false) (fun _ => false) f failed) := by
  intro f rejected failed
  have hstrings : InStrings (fun _ => false) (fun _ => false) f rejected := by decide +kernel
  have hcovered := (line_covered _ _ f rejected).1 hstrings
  have hformats : (f.format (fun _ => false) (filter (fun _ => false) rejected)).isSome := by decide +kernel
  let xs : List Piece := [.fixed [] "WARNING:core.send:".toList, .own "probe for send ".toList,
    .fixed "%s".toList "7f3c".toList, .own " failed: ".toList, .fixed "%s".toList "timed out".toList, .own [],
    .fixed [] []]
  have hpieces : linePieces (fun _ => false) (fun _ => false) f failed = some xs := by decide +kernel
  have hmessage : ∀ p ∈ TOKEN_PATTERNS, p.pattern.search (isWord fun _ => false) (sourceOf xs) = false := by
    decide +kernel
  have hquiet : Quiet (fun _ => false) xs :=
    ⟨fun p hp => (Pattern.search_eq_false_iff (pos_of_pattern hp)).1 (hmessage p hp),
      fun source s hs => by simp [xs] at hs⟩
  exact ⟨⟨hstrings, hcovered, fun p hp => ((line_covered _ _ f rejected).2.2 hformats hcovered p hp).1⟩,
    (line_covered _ _ f failed).2.1 xs hpieces hquiet⟩

theorem not_covered (line : List Char) (hp : p ∈ TOKEN_PATTERNS) (h : f.format printable (filter beyond r) = some line)
    (hsearch : p.pattern.search (isWord beyond) line = true) : ¬ LineCovered beyond printable f r := by
  intro hcovered
  have hfree := (Pattern.search_eq_false_iff (pos_of_pattern hp)).2 (hcovered line h p hp)
  rw [hsearch] at hfree
  cases hfree

/-- **A token is emitted** that is in an exception given as an argument, in a traceback still to be rendered, or behind
its name in the message. -/
theorem failed_probe_leaks :
    let f := basicFormat "WARNING".toList "core.send".toList
    ¬ LineCovered (fun _ => false) (fun _ => false) f {
        msg := .text "probe for send %s failed: %s".toList
        args := .positional [object "7f3c".toList "UUID('7f3c')".toList,
          object "bad xoxb-12345678".toList "ProviderError('bad xoxb-12345678')".toList] } ∧
      ¬ LineCovered (fun _ => false) (fun _ => false) f {
        msg := .text "worker pass failed".toList
        args := .positional []
        excInfo := "ProviderError: bad xoxb-12345678".toList } ∧
      ¬ LineCovered (fun _ => false) (fun _ => false) f {
        msg := .text "exchange with client_secret=%s".toList
        args := .positional [.text "hunter22".toList] } := by
  have hslack : slack ∈ TOKEN_PATTERNS := List.mem_cons_self
  have hquery : queryField ∈ TOKEN_PATTERNS := List.mem_append_right EARLIER (List.mem_cons_of_mem _ List.mem_cons_self)
  refine ⟨?_, ?_, ?_⟩
  · exact not_covered ("WARNING:core.send:probe for send 7f3c failed: bad xoxb-12345678".toList) hslack
      (by decide +kernel) (by decide +kernel)
  · exact not_covered ("WARNING:core.send:worker pass failed\nProviderError: bad xoxb-12345678".toList) hslack
      (by decide +kernel) (by decide +kernel)
  · exact not_covered ("WARNING:core.send:exchange with client_secret=hunter22".toList) hquery
      (by decide +kernel) (by decide +kernel)

end Redaction
end SafeSend
