import SafeSend.Lib.Cuts
import SafeSend.Lib.Json
import SafeSend.Search.Stream
import SafeSend.Utf8
/-!
# The progress stream on the wire

What the generator's events are as bytes, and the web client that reads them as they come: bytes to text, text to frames,
frames to the names it calls `onEvent` with.  Neither the decoder nor the buffer minds where the bytes are cut.
-/
namespace SafeSend
namespace Search

open Lib

/-! ## Frames -/

/-- White space and line terminators, as JavaScript has them. -/
def jsSpace (c : Char) : Bool :=
  let n := c.toNat
  (9 ≤ n && n ≤ 13) || n == 0x20 || n == 0xA0 || n == 0x1680 || (0x2000 ≤ n && n ≤ 0x200A) || n == 0x2028 || n == 0x2029 ||
    n == 0x202F || n == 0x205F || n == 0x3000 || n == 0xFEFF

/-- `trim()`. -/
def jsTrim (l : List Char) : List Char := ((l.dropWhile jsSpace).reverse.dropWhile jsSpace).reverse

/-- A name to send an event under: one line, with nothing to trim. -/
structure EventName where
  text : List Char
  ne_nil : text ≠ []
  oneLine : '\n' ∉ text
  trimmed : jsTrim text = text

/-- What the generator yields. -/
inductive Sent
  | frame (event : EventName) (payload : List (JsonText.Points × JsonText.Json))
  | keepAlive

/-- What stands before the blank line. -/
def Sent.part : Sent → List Char
  | .frame event payload => "event: ".toList ++ event.text ++ '\n' :: ("data: ".toList ++ (JsonText.Json.obj payload).dump)
  | .keepAlive => ": keep-alive".toList

/-- `_sse`, and the comment. -/
def Sent.bytes (s : Sent) : Text.Bytes := (s.part ++ ['\n', '\n']).flatMap Text.encodeChar

def Sent.name : Sent → Option (List Char)
  | .frame event _ => some event.text
  | .keepAlive => none

/-! ## The client -/

def replacement : Char := Char.ofNat 0xFFFD
def byteOrderMark : Char := Char.ofNat 0xFEFF

/-- As `lead`, where what is malformed is replaced. -/
def leadReplacing (b : Nat) : List Char × Option Text.Pending :=
  match Text.lead b with
  | (none, none) => ([replacement], none)
  | (c, p) => (c.toList, p)

/-- As `feed`, where what is malformed is replaced. -/
def feedReplacing (st : Option Text.Pending) (b : Nat) : List Char × Option Text.Pending :=
  match st with
  | none => leadReplacing b
  | some p =>
    if p.lo ≤ b ∧ b ≤ p.hi then ((Text.feed (some p) b).1.toList, (Text.feed (some p) b).2)
    else (replacement :: (leadReplacing b).1, (leadReplacing b).2)

/-- `new TextDecoder()`: whether its first character is still to come, and the sequence it is inside of. -/
structure TextDecoder where
  fresh : Bool := true
  pending : Option Text.Pending := none

/-- One byte.  A byte order mark that comes first is no part of the text. -/
def TextDecoder.step (d : TextDecoder) (b : UInt8) : List Char × TextDecoder :=
  let r := feedReplacing d.pending b.toNat
  match r.1 with
  | [] => ([], ⟨d.fresh, r.2⟩)
  | c :: l => (if d.fresh && c == byteOrderMark then l else c :: l, ⟨false, r.2⟩)

/-- `decoder.decode(value, { stream: true })`. -/
def TextDecoder.decode (d : TextDecoder) (value : Text.Bytes) : List Char × TextDecoder :=
  transduce TextDecoder.step d value

/-- The name of a frame, if a line of it has one. -/
def nameOf (frame : List Char) : Option (List Char) :=
  match (frame.splitOn '\n').find? fun line => "event:".toList.isPrefixOf line with
  | none => none
  | some line =>
    let name := jsTrim (line.drop 6)
    if name = [] then none else some name

/-- The reading loop, and what it calls `onEvent` with. -/
def readEvents : TextDecoder → List Char → List Text.Bytes → List (List Char)
  | _, _, [] => []
  | decoder, buffer, value :: values =>
    let decoded := decoder.decode value
    let frames := splitOff '\n' (buffer ++ decoded.1)
    frames.1.filterMap nameOf ++ readEvents decoded.2 frames.2 values

/-- `streamSearchEvents`, of the chunks the body comes in. -/
def streamSearchEvents (values : List Text.Bytes) : List (List Char) := readEvents {} [] values

/-! ## Decoding -/

theorem feedReplacing_of_goes {st : Option Text.Pending} {b : Nat} (h : Text.Goes st b) :
    feedReplacing st b = ((Text.feed st b).1.toList, (Text.feed st b).2) := by
  cases st with
  | none =>
    have hlead : Text.lead b ≠ (none, none) := h
    unfold feedReplacing leadReplacing Text.feed
    simp only
    split
    · rename_i hnone
      exact absurd hnone hlead
    · rename_i c p hcp
      rw [hcp]
  | some p =>
    have hrange : p.lo ≤ b ∧ b ≤ p.hi := h
    unfold feedReplacing
    simp only
    rw [if_pos hrange]

/-- **A character's bytes give the character**, but for a byte order mark that comes first. -/
theorem transduce_spells {st : Option Text.Pending} {l : Text.Bytes} {c : Char} (h : Text.Spells st l c) (fresh : Bool) :
    transduce TextDecoder.step ⟨fresh, st⟩ l = (if fresh && c == byteOrderMark then [] else [c], ⟨false, none⟩) := by
  induction h with
  | last hb h =>
    rw [transduce, transduce, TextDecoder.step]
    simp only
    rw [feedReplacing_of_goes hb, h]
    simp
  | more hb h hl ih =>
    rw [transduce, TextDecoder.step]
    simp only
    rw [feedReplacing_of_goes hb, h]
    exact ih

theorem transduce_text : ∀ l : List Char,
    transduce TextDecoder.step ⟨false, none⟩ (l.flatMap Text.encodeChar) = (l, ⟨false, none⟩)
  | [] => rfl
  | c :: l => by
    rw [List.flatMap_cons, transduce_append, transduce_spells (Text.spells_encodeChar c), transduce_text l]
    rfl

/-- An encoded text comes out of a new decoder as it was, but for a byte order mark that begins it. -/
theorem decode_text {l : List Char} (h : l.head? ≠ some byteOrderMark) :
    (transduce TextDecoder.step {} (l.flatMap Text.encodeChar)).1 = l := by
  cases l with
  | nil => rfl
  | cons c l =>
    have hc : (c == byteOrderMark) = false := by
      rw [beq_eq_false_iff_ne]
      rintro rfl
      exact h rfl
    rw [List.flatMap_cons, transduce_append, transduce_spells (Text.spells_encodeChar c), transduce_text l, hc]
    rfl

/-! ## Reading in chunks -/

/-- The text of each chunk. -/
def texts : TextDecoder → List Text.Bytes → List (List Char)
  | _, [] => []
  | decoder, value :: values => (decoder.decode value).1 :: texts (decoder.decode value).2 values

theorem flatten_texts : ∀ (values : List Text.Bytes) (decoder : TextDecoder),
    (texts decoder values).flatten = (transduce TextDecoder.step decoder values.flatten).1
  | [], _ => rfl
  | value :: values, decoder => by
    rw [texts, List.flatten_cons, flatten_texts values, List.flatten_cons, transduce_append]
    rfl

theorem readEvents_eq : ∀ (values : List Text.Bytes) (decoder : TextDecoder) (buffer : List Char),
    readEvents decoder buffer values = (readChunks (splitOff '\n') buffer (texts decoder values)).1.filterMap nameOf
  | [], _, _ => rfl
  | value :: values, decoder, buffer => by
    rw [readEvents, texts, readChunks, List.filterMap_append, readEvents_eq values]

/-- **What the client is told depends on the bytes alone**, not on where they are cut. -/
theorem streamSearchEvents_flatten (values : List Text.Bytes) : streamSearchEvents values =
    (splitOff '\n' (transduce TextDecoder.step {} values.flatten).1).1.filterMap nameOf := by
  unfold streamSearchEvents
  rw [readEvents_eq, (resumable_splitOff '\n').readChunks_eq _ [] rfl, flatten_texts, List.nil_append]

/-! ## Parts and names -/

theorem single_append {d : Char} : ∀ {x l : List Char}, d ∉ x → Single d (d :: l) → Single d (x ++ d :: l)
  | [], _, _, hl => hl
  | [_], _, hx, hl => List.isChain_cons_cons.2 ⟨fun h => hx (h.1 ▸ List.mem_cons_self), hl⟩
  | c :: _ :: _, _, hx, hl =>
    List.isChain_cons_cons.2 ⟨fun h => hx (h.1 ▸ List.mem_cons_self),
      single_append (fun h => hx (List.mem_cons_of_mem c h)) hl⟩

theorem eventLine (event : EventName) : '\n' ∉ "event: ".toList ++ event.text := by
  rw [List.mem_append, not_or]
  exact ⟨by decide, event.oneLine⟩

theorem dataLine (payload : List (JsonText.Points × JsonText.Json)) :
    '\n' ∉ "data: ".toList ++ (JsonText.Json.obj payload).dump := by
  rw [List.mem_append, not_or]
  refine ⟨by decide, fun h => ?_⟩
  exact absurd ((JsonText.Json.obj payload).printable _ h) (by decide)

/-- No part has a blank line, nor makes one with what follows it. -/
theorem Sent.single (s : Sent) : Single '\n' (s.part ++ ['\n']) := by
  have hend : ∀ {x : List Char}, '\n' ∉ x → Single '\n' (x ++ ['\n']) := fun hx =>
    single_append hx (.singleton _)
  cases s with
  | frame event payload =>
    unfold Sent.part
    rw [List.append_assoc]
    refine single_append (eventLine event) (List.isChain_cons_cons.2 ⟨by decide, ?_⟩)
    exact hend (dataLine payload)
  | keepAlive => exact hend (by decide)

theorem jsTrim_blank (l : List Char) : jsTrim (' ' :: l) = jsTrim l := by
  unfold jsTrim
  rw [List.dropWhile_cons_of_pos (by decide)]

/-- **A frame has the name it was sent under**, and a comment has none. -/
theorem nameOf_part (s : Sent) : nameOf s.part = s.name := by
  cases s with
  | frame event payload =>
    have hlines : (Sent.frame event payload).part.splitOn '\n' =
        ["event: ".toList ++ event.text, "data: ".toList ++ (JsonText.Json.obj payload).dump] := by
      unfold Sent.part
      rw [List.splitOn_append_cons_self, List.splitOn_eq_singleton (eventLine event),
        List.splitOn_eq_singleton (dataLine payload)]
      rfl
    have hfirst : "event:".toList.isPrefixOf ("event: ".toList ++ event.text) = true := rfl
    have hdrop : ("event: ".toList ++ event.text).drop 6 = ' ' :: event.text := rfl
    unfold nameOf
    rw [hlines, List.find?_cons_of_pos hfirst]
    simp only
    rw [hdrop, jsTrim_blank, event.trimmed, if_neg event.ne_nil]
    rfl
  | keepAlive => decide

theorem head_parts (sent : List Sent) :
    (sent.flatMap fun s => s.part ++ ['\n', '\n']).head? ≠ some byteOrderMark := by
  cases sent with
  | nil => exact fun h => by cases h
  | cons s sent =>
    cases s with
    | frame event payload => exact fun h => absurd (Option.some.inj h) (by decide)
    | keepAlive => exact fun h => absurd (Option.some.inj h) (by decide)

/-- The text of what was sent falls into its parts, with nothing left. -/
theorem splitOff_sent (sent : List Sent) :
    splitOff '\n' (transduce TextDecoder.step {} (sent.flatMap Sent.bytes)).1 = (sent.map Sent.part, []) := by
  have hbytes : sent.flatMap Sent.bytes = (sent.flatMap fun s => s.part ++ ['\n', '\n']).flatMap Text.encodeChar :=
    List.flatMap_assoc.symm
  have hparts : (sent.map Sent.part).flatMap (fun part => part ++ ['\n', '\n']) =
      sent.flatMap fun s => s.part ++ ['\n', '\n'] := by
    rw [List.flatMap_map]
  rw [hbytes, decode_text (head_parts sent), ← hparts, splitOff_parts]
  intro part hpart
  obtain ⟨s, -, rfl⟩ := List.mem_map.1 hpart
  exact s.single

theorem names_of_parts (sent : List Sent) : (sent.map Sent.part).filterMap nameOf = sent.filterMap Sent.name := by
  rw [List.filterMap_map]
  congr 1
  funext s
  exact nameOf_part s

/-- **However the bytes of what was sent come in chunks, the client is told each name, once and in order.** -/
theorem streamSearchEvents_names (sent : List Sent) (values : List Text.Bytes)
    (h : values.flatten = sent.flatMap Sent.bytes) : streamSearchEvents values = sent.filterMap Sent.name := by
  rw [streamSearchEvents_flatten, h, splitOff_sent]
  exact names_of_parts sent

def sourceUpdateName : EventName := ⟨"source_update".toList, by decide, by decide, by decide⟩
def searchCompleteName : EventName := ⟨"search_complete".toList, by decide, by decide, by decide⟩
def streamTimeoutName : EventName := ⟨"stream_timeout".toList, by decide, by decide, by decide⟩

/-- Cut inside a character. -/
theorem streamSearchEvents_names_cut :
    let event : EventName := ⟨"é".toList, by decide, by decide, by decide⟩
    let bytes := [Sent.frame event [], .keepAlive, .frame sourceUpdateName []].flatMap Sent.bytes
    streamSearchEvents [bytes.take 8, bytes.drop 8] = ["é".toList, "source_update".toList] := by
  intro event bytes
  have hcut : [bytes.take 8, bytes.drop 8].flatten = bytes := by
    rw [List.flatten_cons, List.flatten_cons, List.flatten_nil, List.append_nil, List.take_append_drop]
  exact streamSearchEvents_names [.frame event [], .keepAlive, .frame sourceUpdateName []] _ hcut

/-! ## The generator's stream -/

/-- What an event of the stream is sent as, with its payload. -/
def Event.sent (payload : Event → List (JsonText.Points × JsonText.Json)) (event : Event) : Sent :=
  match event with
  | .sourceUpdate _ => .frame sourceUpdateName (payload event)
  | .searchComplete _ _ => .frame searchCompleteName (payload event)
  | .streamTimeout _ => .frame streamTimeoutName (payload event)
  | .keepAlive => .keepAlive

/-- What the client is told of it. -/
def Event.told : Event → Option (List Char)
  | .sourceUpdate _ => some "source_update".toList
  | .searchComplete _ _ => some "search_complete".toList
  | .streamTimeout _ => some "stream_timeout".toList
  | .keepAlive => none

def sentOf (log : List Streamed) : List Event :=
  log.filterMap fun
    | .sent event => some event
    | .read _ => none

/-- **The client is told what the generator sends**, over any run of it. -/
theorem stream_told (payload : Event → List (JsonText.Points × JsonText.Json)) (started : Int) (polls : List Poll)
    (values : List Text.Bytes)
    (h : values.flatten = (sentOf (events started polls)).flatMap fun event => (event.sent payload).bytes) :
    streamSearchEvents values = (sentOf (events started polls)).filterMap Event.told := by
  have hsent : values.flatten = ((sentOf (events started polls)).map (Event.sent payload)).flatMap Sent.bytes := by
    rw [h, List.flatMap_map]
  rw [streamSearchEvents_flatten, hsent, splitOff_sent]
  simp only
  rw [names_of_parts, List.filterMap_map]
  congr 1
  funext event
  cases event <;> rfl

end Search
end SafeSend
