import SafeSend.Lib.Base64
import SafeSend.Paging.Stamp
/-!
# Cursors

`encode` and `decode` of a position, and `page`.  An id and its `str` are one here: the parser tells no two ids apart that
`str` does not.
-/
namespace SafeSend
namespace Paging

open Lib

def MAX_LIMIT : Nat := 100

structure ApiError where
  code : String
  message : String
  deriving DecidableEq, Repr

def invalidCursor : ApiError where
  code := "invalid_cursor"
  message := "this cursor is not one we issued"

structure Cursor where
  createdAt : Datetime
  rowId : Uuid
  deriving DecidableEq

def encode (createdAt : Datetime) (rowId : Uuid) : String :=
  let raw := Text.encode (String.ofList (isoformat createdAt.1 ++ '|' :: str rowId))
  String.ofList (Base64.strip (Base64.encode raw))

/-- `str.partition`, without the separator. -/
def partition (c : Char) (l : List Char) : List Char × List Char :=
  (l.takeWhile (· ≠ c), (l.dropWhile (· ≠ c)).drop 1)

/-- `urlsafe_b64decode(cursor + padding)`: a text that is not ASCII is refused. -/
def unpad (l : List Char) : Option (List UInt8) :=
  if l.all fun c => c.toNat < 128 then Base64.decode (l ++ Base64.padding l.length) else none

/-- What the parsers make of a cursor, none where one of them raises. -/
def readCursor (cursor : String) : Option Cursor := do
  let raw ← unpad cursor.toList
  let text ← Text.decode raw
  let (stamp, rowId) := partition '|' text.toList
  let createdAt ← fromisoformat stamp
  let rowId ← parse rowId
  return ⟨createdAt, rowId⟩

def decode (cursor : String) : Except ApiError Cursor :=
  match readCursor cursor with
  | some c => .ok c
  | none => .error invalidCursor

section

variable {α : Type}

/-- Trims an over-fetched result set and mints the next cursor.  The limit is at least one. -/
def page (rows : List α) (limit : Nat) (timeKey : α → Datetime) (idKey : α → Uuid) : List α × Option String :=
  if rows.length ≤ limit then (rows, none)
  else
    let kept := rows.take limit
    (kept, kept.getLast?.map fun last => encode (timeKey last) (idKey last))

end

theorem partition_append {c : Char} {l : List Char} (h : c ∉ l) (r : List Char) : partition c (l ++ c :: r) = (l, r) := by
  have hall : ∀ d ∈ l, (d ≠ c : Bool) = true := fun d hd => decide_eq_true fun he => h (he ▸ hd)
  unfold partition
  rw [List.takeWhile_append_of_pos hall, List.dropWhile_append_of_pos hall, List.takeWhile_cons_of_neg (by simp),
    List.dropWhile_cons_of_neg (by simp), List.append_nil]
  rfl

theorem unpad_strip (raw : List UInt8) : unpad (Base64.strip (Base64.encode raw)) = some raw := by
  obtain ⟨hbody, hpadded⟩ := Base64.strip_encode raw
  have hascii : (Base64.strip (Base64.encode raw)).all (fun c => c.toNat < 128) = true := by
    rw [hbody, List.all_eq_true]
    exact fun c hc => decide_eq_true (Base64.body_plain hc).2
  unfold unpad
  rw [if_pos hascii, hpadded, Base64.decode_encode]

theorem readCursor_encode (t : Datetime) (u : Uuid) :
    readCursor (encode t u) = (fromisoformat (isoformat t.1)).map fun t => ⟨t, u⟩ := by
  unfold readCursor encode
  rw [String.toList_ofList, unpad_strip, Option.bind_eq_bind, Option.bind_some, Text.decode_encode, Option.bind_eq_bind,
    Option.bind_some, String.toList_ofList, partition_append (bar_not_mem t.1)]
  dsimp only
  rw [fromisoformat_isoformat, Option.bind_eq_bind, Option.bind_some, parse_str, Option.bind_eq_bind, Option.bind_some]
  rfl

/-- **A cursor we issued reads back as the position it was made of**, exactly where the offset reads back. -/
theorem decode_encode_iff (t : Datetime) (u : Uuid) : decode (encode t u) = .ok ⟨t, u⟩ ↔ t.1.whole := by
  unfold decode
  rw [readCursor_encode]
  constructor
  · rw [fromisoformat_isoformat]
    intro h
    have hsame : (⟨{ t.1 with offset := seenOffset t.1.offset }, valid_seen t.2⟩ : Datetime) = t :=
      congrArg Cursor.createdAt (Except.ok.inj h)
    exact seenOffset_eq.1 (congrArg (fun t : Datetime => t.1.offset) hsame)
  · intro h
    rw [fromisoformat_whole h]
    rfl

theorem decode_encode (t : Timestamptz) (u : Uuid) : decode (encode t u) = .ok ⟨t, u⟩ := (decode_encode_iff t u).2 t.2

theorem valid_offset : Civil.valid ⟨2026, 1, 2, 3, 4, 5, 6, 1⟩ := by decide

/-- An offset of a microsecond is read back as none. -/
theorem offset_lost : ¬ ∀ t u, decode (encode t u) = .ok ⟨t, u⟩ := by
  intro h
  have hwhole := (decode_encode_iff _ _).1 (h ⟨_, valid_offset⟩ 0)
  exact absurd hwhole (by decide)

end Paging
end SafeSend
