import SafeSend.Search.Hits
import SafeSend.Send.Gmail
/-!
# The Gmail source

The client's search, one call for the listing and one for each message of it, and the adapter over them.  A search that
answers has a card for every message; a date without an offset is passed on as it is, and fails the ranking of them all.
-/
namespace SafeSend
namespace Search
namespace Gmail

open Lib
open Lib.Prog (Traced)
open Providers (Json Fields)
open Send.Gmail (Exchange call)
open Send.Slack (noAttribute)
open Slack (Stamped iso orNone)

def SOURCE : String := "gmail"

def NO_SUBJECT : String := "(no subject)"

def DEFAULT_LIMIT : Nat := 10

def BASE : String := "https://gmail.googleapis.com/gmail/v1/users/me"

def messagePermalink (messageId : String) : String := "https://mail.google.com/mail/u/0/#all/" ++ messageId

structure GmailMessage where
  id : String
  threadId : String
  subject : String
  snippet : String
  sender : String
  date : Option String

/-- What the platform makes of dates, beside what `datetime.fromisoformat` reads. -/
structure Dates (F : Arithmetic) where
  /-- `parsedate_to_datetime(raw)`, in UTC where it has no zone, by its `isoformat()`. -/
  parsedate : String → Stamped
  /-- `datetime.fromisoformat(raw).isoformat()`. -/
  reread : String → Option String
  /-- `datetime.fromtimestamp(int(raw) / 1000, tz=UTC).isoformat()`. -/
  internalDate : Json → Stamped
  parsedate_aware : ∀ raw t, parsedate raw = .iso t → Aware F t
  reread_same : ∀ raw, (reread raw).bind F.fromisoformat = F.fromisoformat raw
  reread_read : ∀ raw t, reread raw = some t → (F.fromisoformat t).isSome = true
  internalDate_aware : ∀ v t, internalDate v = .iso t → Aware F t

/-- A call: its request, and once more over a refresh where it is answered `401`. -/
inductive Op
  | call (path : String) (params : List (String × String))

def Op.Ans : Op → Type
  | call _ _ => Exchange

abbrev GmailProg := Prog Op Op.Ans

abbrev perform (o : Op) : GmailProg o.Ans := Prog.perform o

variable {F : Arithmetic} (D : Dates F)

/-! ## The client's search -/

/-- `item.get("id")`. -/
def idOf : Json → Except Exn Json
  | .obj d _ => .ok (Json.get d "id")
  | _ => .error noAttribute

/-- The ids of a listing. -/
def listed (answer : Exchange) : Except Exn (List Json) :=
  match call answer with
  | .error e => .error e
  | .ok listing =>
    match orNone (Json.get listing "messages") with
    | .error e => .error e
    | .ok items => items.mapM idOf

/-- A header by its name in lower case.  The names asked for are ASCII, and no other character's lower case is one of
their letters. -/
def headerOf : Json → Except Exn (String × String)
  | .obj d _ => .ok ((Json.getOr d "name" (.str "")).text.toLower, (Json.getOr d "value" (.str "")).text)
  | _ => .error noAttribute

def headersOf (detail : Fields) : Except Exn (List (String × String)) :=
  match (Json.get detail "payload").orEmpty with
  | .error e => .error e
  | .ok payload =>
    match orNone (Json.get payload "headers") with
    | .error e => .error e
    | .ok items => items.mapM headerOf

/-- The last header of a name is the one that stays. -/
def header (headers : List (String × String)) (name : String) : Option String := headers.reverse.lookup name

/-- `headers.get("date") or _from_internal_date(…)`. -/
def dateOf (headers : List (String × String)) (detail : Fields) : Except Exn (Option String) :=
  if Send.truthy (header headers "date") then .ok (header headers "date")
  else iso (D.internalDate (Json.get detail "internalDate"))

/-- `_message_from`. -/
def messageFrom (detail : Fields) : Except Exn GmailMessage :=
  match headersOf detail with
  | .error e => .error e
  | .ok headers => (dateOf D headers detail).map fun date =>
    { id := (Json.getOr detail "id" (.str "")).text
      threadId := (Json.getOr detail "threadId" (.str "")).text
      subject := (header headers "subject").getD ""
      snippet := (Json.getOr detail "snippet" (.str "")).text
      sender := (header headers "from").getD ""
      date := date }

/-- A message, from the response on. -/
def described (answer : Exchange) : Except Exn GmailMessage :=
  match call answer with
  | .error e => .error e
  | .ok detail => messageFrom D detail

def metadataParams : List (String × String) :=
  [("format", "metadata"), ("metadataHeaders", "Subject"), ("metadataHeaders", "From"), ("metadataHeaders", "Date")]

/-- `for message_id in ids`. -/
def describeAll : List Json → GmailProg (Except Exn (List GmailMessage))
  | [] => return .ok []
  | messageId :: ids =>
    if messageId.truthy then do
      let answer ← perform (.call (BASE ++ "/messages/" ++ messageId.text) metadataParams)
      match described D answer with
      | .error e => return .error e
      | .ok message =>
        match ← describeAll ids with
        | .error e => return .error e
        | .ok messages => return .ok (message :: messages)
    else describeAll ids

/-- `GmailClient.search`. -/
def clientSearch (limit : Nat) (query : String) : GmailProg (Except Exn (List GmailMessage)) := do
  let answer ← perform (.call (BASE ++ "/messages") [("q", query), ("maxResults", toString limit)])
  match listed answer with
  | .error e => return .error e
  | .ok ids => describeAll D ids

/-! ## The adapter -/

/-- `_iso`. -/
def isoOf : Option String → Except Exn (Option String)
  | none => .ok none
  | some raw =>
    if raw = "" then .ok none
    else
      match D.parsedate raw with
      | .valueError => .ok (D.reread raw)
      | stamped => iso stamped

def orNoSubject (text : String) : String := if Text.strip text = "" then NO_SUBJECT else Text.strip text

/-- `_to_result`. -/
def toResult (message : GmailMessage) : Except Exn Result :=
  (isoOf D message.date).map fun timestamp =>
    { source := SOURCE
      id := message.id
      title := orNoSubject message.subject
      snippet := orNoSubject message.snippet
      author := if message.sender = "" then none else some message.sender
      timestamp := timestamp
      url := messagePermalink message.id }

/-- `GmailAdapter.search`. -/
def search (limit : Nat) (query : String) : GmailProg (Except Exn Found) := do
  match ← clientSearch D limit query with
  | .error e => return .error e
  | .ok messages =>
    match messages.mapM (toResult D) with
    | .error e => return .error e
    | .ok raw => return .ok { raw := raw }

/-! ## What becomes of a mailbox's hits -/

/-- The exchange of an answered call. -/
def exchangeOf : Sigma Op.Ans → Exchange
  | ⟨.call _ _, x⟩ => x

/-- A header's date the ranking cannot take: it is no mail's date, and says when and not where. -/
def Offsetless (raw : String) : Prop :=
  raw ≠ "" ∧ D.parsedate raw = .valueError ∧ ∃ micros, F.fromisoformat raw = some (.naive micros)

variable {D}

/-- What a date comes to: nothing where there is none, an ISO time where it is no mail's date, or a mail's date. -/
theorem isoOf_eq_ok {date timestamp : Option String} (h : isoOf D date = .ok timestamp) :
    (timestamp = none ∧ ∀ raw, date = some raw → raw = "") ∨
      (∃ raw, date = some raw ∧ raw ≠ "" ∧ D.parsedate raw = .valueError ∧ timestamp = D.reread raw) ∨
      ∃ raw t, date = some raw ∧ D.parsedate raw = .iso t ∧ timestamp = some t := by
  cases date with
  | none =>
    obtain rfl := Except.ok.inj h
    exact .inl ⟨rfl, fun raw hraw => by cases hraw⟩
  | some raw =>
    unfold isoOf at h
    dsimp only at h
    split at h
    next hempty =>
      obtain rfl := Except.ok.inj h
      refine .inl ⟨rfl, fun raw' hraw => ?_⟩
      obtain rfl := Option.some.inj hraw
      exact hempty
    next hne =>
      split at h
      next hvalue =>
        obtain rfl := Except.ok.inj h
        exact .inr (.inl ⟨raw, rfl, hne, hvalue, rfl⟩)
      next hstamped =>
        cases hparse : D.parsedate raw with
        | iso t =>
          rw [hparse] at h
          obtain rfl := Except.ok.inj h
          exact .inr (.inr ⟨raw, t, rfl, hparse, rfl⟩)
        | valueError => exact absurd hparse hstamped
        | overflow =>
          rw [hparse] at h
          cases h
        | os detail =>
          rw [hparse] at h
          cases h

theorem isoOf_naive {date timestamp : Option String} (h : isoOf D date = .ok timestamp) :
    (∃ micros, timestamp.bind F.fromisoformat = some (.naive micros)) ↔ ∃ raw, date = some raw ∧ Offsetless D raw := by
  rcases isoOf_eq_ok h with ⟨rfl, hempty⟩ | ⟨raw, rfl, hne, hvalue, rfl⟩ | ⟨raw, t, rfl, hparse, rfl⟩
  · exact ⟨(fun ⟨_, hm⟩ => by cases hm), fun ⟨raw, hraw, hne, _⟩ => absurd (hempty raw hraw) hne⟩
  · rw [D.reread_same raw]
    constructor
    · exact fun hnaive => ⟨raw, rfl, hne, hvalue, hnaive⟩
    · rintro ⟨raw', hraw, -, -, hnaive⟩
      obtain rfl := Option.some.inj hraw
      exact hnaive
  · obtain ⟨micros, hread⟩ := D.parsedate_aware raw t hparse
    constructor
    · rintro ⟨other, hother⟩
      rw [Option.bind_some, hread] at hother
      cases hother
    · rintro ⟨raw', hraw, -, hvalue, -⟩
      obtain rfl := Option.some.inj hraw
      rw [hparse] at hvalue
      cases hvalue

theorem isoOf_read {date : Option String} {t : String} (h : isoOf D date = .ok (some t)) :
    (F.fromisoformat t).isSome = true := by
  rcases isoOf_eq_ok h with ⟨hnone, -⟩ | ⟨raw, -, -, -, hreread⟩ | ⟨raw, t', -, hparse, ht⟩
  · cases hnone
  · exact D.reread_read raw t hreread.symm
  · obtain rfl := Option.some.inj ht
    obtain ⟨micros, hread⟩ := D.parsedate_aware raw t hparse
    rw [hread]
    rfl

theorem blank_orNoSubject (text : String) : Text.blank (orNoSubject text) = false := by
  unfold orNoSubject
  by_cases ht : Text.strip text = ""
  · rw [if_pos ht]
    decide
  · rw [if_neg ht]
    exact Text.blank_strip ht

theorem blank_messagePermalink (messageId : String) : Text.blank (messagePermalink messageId) = false := by
  have hmark : '#' ∈ ("https://mail.google.com/mail/u/0/#all/").toList := by decide
  refine Text.blank_of_mem (c := '#') ?_ (by decide)
  unfold messagePermalink
  rw [String.toList_append]
  exact List.mem_append_left _ hmark

theorem toResult_eq_ok {message : GmailMessage} {r : Result} (h : toResult D message = .ok r) :
    ∃ timestamp, isoOf D message.date = .ok timestamp ∧ r.timestamp = timestamp ∧ r.id = message.id ∧
      Text.blank r.source = false ∧ Text.blank r.title = false ∧ Text.blank r.snippet = false ∧ Text.blank r.url = false := by
  unfold toResult at h
  cases hiso : isoOf D message.date with
  | error e =>
    rw [hiso] at h
    cases h
  | ok timestamp =>
    have hsource : Text.blank SOURCE = false := by decide
    rw [hiso] at h
    obtain rfl := Except.ok.inj h
    exact ⟨timestamp, rfl, rfl, rfl, hsource, blank_orNoSubject _, blank_orNoSubject _, blank_messagePermalink _⟩

/-- A card is refused for its id alone. -/
theorem normalized_toResult {message : GmailMessage} {r : Result} (h : toResult D message = .ok r) :
    normalized F r = !Text.blank r.id := by
  obtain ⟨timestamp, hiso, ht, -, hsource, htitle, hsnippet, hurl⟩ := toResult_eq_ok h
  rw [Bool.eq_iff_iff, normalized_iff, Bool.not_eq_true']
  refine ⟨fun hall => hall.2.1, fun hid => ⟨hsource, hid, htitle, hsnippet, hurl, fun t hts => ?_⟩⟩
  rw [ht] at hts
  subst hts
  exact isoOf_read hiso

theorem naive_toResult {message : GmailMessage} {r : Result} (h : toResult D message = .ok r) :
    r.naive F = true ↔ ∃ raw, message.date = some raw ∧ Offsetless D raw := by
  obtain ⟨timestamp, hiso, ht, -⟩ := toResult_eq_ok h
  rw [← isoOf_naive hiso, ← ht]
  unfold Result.naive Result.occurredAt
  constructor
  · intro hnaive
    split at hnaive
    next micros hm => exact ⟨micros, hm⟩
    next => cases hnaive
  · rintro ⟨micros, hm⟩
    rw [hm]

theorem forall₂_mapM {α β : Type} {f : α → Except Exn β} : ∀ {l : List α} {l' : List β}, l.mapM f = .ok l' →
    List.Forall₂ (fun a b => f a = .ok b) l l'
  | [], l', h => by
    obtain rfl := Except.ok.inj h
    exact .nil
  | a :: l, l', h => by
    rw [List.mapM_cons] at h
    cases ha : f a with
    | error e =>
      rw [ha] at h
      cases h
    | ok b =>
      cases hl : l.mapM f with
      | error e =>
        rw [ha, hl] at h
        cases h
      | ok rest =>
        rw [ha, hl] at h
        obtain rfl := Except.ok.inj h
        exact .cons ha (forall₂_mapM hl)

theorem exists_of_forall₂ {α β : Type} {R : α → β → Prop} {l : List α} {l' : List β} (h : List.Forall₂ R l l') :
    (∀ b ∈ l', ∃ a ∈ l, R a b) ∧ ∀ a ∈ l, ∃ b ∈ l', R a b := by
  induction h with
  | nil => exact ⟨fun b hb => absurd hb List.not_mem_nil, fun a ha => absurd ha List.not_mem_nil⟩
  | cons hab _ ih =>
    constructor
    · intro b hb
      rcases List.mem_cons.1 hb with rfl | hb
      · exact ⟨_, List.mem_cons_self, hab⟩
      · obtain ⟨a, ha, hr⟩ := ih.1 b hb
        exact ⟨a, List.mem_cons_of_mem _ ha, hr⟩
    · intro a ha
      rcases List.mem_cons.1 ha with rfl | ha
      · exact ⟨_, List.mem_cons_self, hab⟩
      · obtain ⟨b, hb, hr⟩ := ih.2 a ha
        exact ⟨b, List.mem_cons_of_mem _ hb, hr⟩

theorem traced_perform {α : Type} {o : Op} {f : o.Ans → GmailProg α} {l : List (Sigma Op.Ans)} {a : α}
    (h : Traced (perform o >>= f) l a) : ∃ x l', l = ⟨o, x⟩ :: l' ∧ Traced (f x) l' a := Prog.traced_op h

/-- One call for each message that is listed with an id, in the listing's order. -/
theorem describeAll_traced : ∀ {ids : List Json} {l : List (Sigma Op.Ans)} {messages : List GmailMessage},
    Traced (describeAll D ids) l (.ok messages) →
      List.Forall₂ (fun x message => described D (exchangeOf x) = .ok message) l messages ∧
        messages.length = (ids.filter Json.truthy).length
  | [], l, messages, h => by
    obtain ⟨rfl, he⟩ := Prog.traced_ret h
    obtain rfl := Except.ok.inj he
    exact ⟨.nil, rfl⟩
  | messageId :: ids, l, messages, h => by
    unfold describeAll at h
    split at h
    next htruthy =>
      obtain ⟨answer, l', rfl, hk⟩ := traced_perform h
      rw [List.filter_cons_of_pos htruthy, List.length_cons]
      split at hk
      next => cases (Prog.traced_ret hk).2
      next message hd =>
        obtain ⟨rest, l₁, l₂, rfl, hrest, hk⟩ := Prog.traced_bind hk
        cases rest with
        | error e => cases (Prog.traced_ret hk).2
        | ok rest =>
          obtain ⟨rfl, he⟩ := Prog.traced_ret hk
          obtain rfl := Except.ok.inj he
          obtain ⟨hall, hlength⟩ := describeAll_traced hrest
          rw [List.append_nil]
          exact ⟨.cons hd hall, by rw [List.length_cons, hlength]⟩
    next hfalse =>
      rw [List.filter_cons_of_neg hfalse]
      exact describeAll_traced h

/-- Of the cards of some messages only one whose id is blank is dropped, and the rest are ranked exactly where none of
their dates lacks an offset. -/
theorem cards_kept {messages : List GmailMessage} {raw : List Result}
    (hcards : List.Forall₂ (fun message r => toResult D message = .ok r) messages raw) (now : Int) :
    raw.filter (normalized F) = raw.filter (fun r => !Text.blank r.id) ∧
      (Ranks F now (raw.filter (normalized F)) ↔
        ∀ message ∈ messages, Text.blank message.id = false → ∀ date, message.date = some date → ¬ Offsetless D date) := by
  obtain ⟨hright, hleft⟩ := exists_of_forall₂ hcards
  have hnormal : ∀ r ∈ raw, normalized F r = !Text.blank r.id := by
    intro r hr
    obtain ⟨message, -, hm⟩ := hright r hr
    exact normalized_toResult hm
  refine ⟨List.filter_congr hnormal, ?_⟩
  rw [ranks_iff]
  constructor
  · intro hranked message hmessage hid date hdate hoff
    obtain ⟨r, hr, hm⟩ := hleft message hmessage
    obtain ⟨-, -, -, hrid, -⟩ := toResult_eq_ok hm
    have hkept : r ∈ raw.filter (normalized F) := List.mem_filter.2 ⟨hr, by rw [hnormal r hr, hrid, hid]; rfl⟩
    have hnaive := (naive_toResult hm).2 ⟨date, hdate, hoff⟩
    rw [hranked r hkept] at hnaive
    cases hnaive
  · intro hdates r hr
    obtain ⟨hr, hnorm⟩ := List.mem_filter.1 hr
    obtain ⟨message, hmessage, hm⟩ := hright r hr
    obtain ⟨-, -, -, hrid, -⟩ := toResult_eq_ok hm
    rw [hnormal r hr, hrid, Bool.not_eq_true'] at hnorm
    refine Bool.eq_false_iff.2 fun hnaive => ?_
    obtain ⟨date, hdate, hoff⟩ := (naive_toResult hm).1 hnaive
    exact hdates message hmessage hnorm date hdate hoff

/-- **A search of a mailbox that answers has a card for every message listed with an id**, in the listing's order; only a
card whose id is blank is dropped, and the rest are ranked exactly where none of their dates lacks an offset. -/
theorem mailbox_kept {limit : Nat} {query : String} {l : List (Sigma Op.Ans)} {found : Found}
    (h : Traced (search D limit query) l (.ok found)) (now : Int) :
    ∃ listing details ids messages, l = listing :: details ∧ listed (exchangeOf listing) = .ok ids ∧
      messages.length = (ids.filter Json.truthy).length ∧
      List.Forall₂ (fun x message => described D (exchangeOf x) = .ok message) details messages ∧
      List.Forall₂ (fun message r => toResult D message = .ok r) messages found.raw ∧
      found.raw.filter (normalized F) = found.raw.filter (fun r => !Text.blank r.id) ∧
      (Ranks F now (found.raw.filter (normalized F)) ↔
        ∀ message ∈ messages, Text.blank message.id = false → ∀ raw, message.date = some raw → ¬ Offsetless D raw) := by
  obtain ⟨outcome, l₁, l₂, rfl, hclient, htail⟩ := Prog.traced_bind h
  cases outcome with
  | error e => cases (Prog.traced_ret htail).2
  | ok messages =>
    obtain ⟨listing, details, rfl, hk⟩ := traced_perform hclient
    split at hk
    next => cases (Prog.traced_ret hk).2
    next ids hids =>
      obtain ⟨hdescribed, hlength⟩ := describeAll_traced hk
      dsimp only at htail
      cases hraw : messages.mapM (toResult D) with
      | error e =>
        rw [hraw] at htail
        cases (Prog.traced_ret htail).2
      | ok raw =>
        rw [hraw] at htail
        obtain ⟨rfl, he⟩ := Prog.traced_ret htail
        obtain rfl := Except.ok.inj he
        have hcards := forall₂_mapM hraw
        rw [List.append_nil]
        exact ⟨_, details, ids, messages, rfl, hids, hlength, hdescribed, hcards, cards_kept hcards now⟩

def mailTime : String := "Tue, 21 Jul 2026 09:12:33 +0000"

/-- One date of mail, and what `datetime.fromisoformat` reads. -/
def sampleDates : Dates readingDeployment.arithmetic where
  parsedate raw := if raw = mailTime then .iso sampleTime else .valueError
  reread raw := if (readInstant raw).isSome then some raw else none
  internalDate _ := .valueError
  parsedate_aware raw t h := by
    split at h
    next =>
      cases h
      exact aware_sampleTime
    next => cases h
  reread_same raw := by
    cases hread : readInstant raw with
    | none => exact hread.symm
    | some t => rfl
  reread_read raw t h := by
    obtain ⟨hread, ht⟩ := Option.ite_none_right_eq_some.1 h
    cases ht
    exact hread
  internalDate_aware v t h := by cases h

def answered (fields : Fields) : Exchange := { first := .ok { status := 200, body := .json (.obj fields "") } }

/-- Two messages, one with a date. -/
def undated : Fields := [("id", .str "m1"), ("snippet", .str "The launch plan")]

def dated : Fields :=
  [("id", .str "m2"), ("payload", .obj [("headers", .arr [.obj [("name", .str "Date"), ("value", .str mailTime)] ""] "")] "")]

def undatedMessage : GmailMessage := ⟨"m1", "", "", "The launch plan", "", none⟩

def datedMessage : GmailMessage := ⟨"m2", "", "", "", "", some mailTime⟩

theorem described_dated : described sampleDates (answered dated) = .ok datedMessage := by
  have hheader : headerOf (.obj [("name", .str "Date"), ("value", .str mailTime)] "") = .ok ("date", mailTime) := by
    decide +kernel
  have hheaders : headersOf dated = .ok [("date", mailTime)] := by
    show (List.mapM headerOf [_]) = _
    rw [List.mapM_cons, hheader]
    rfl
  show messageFrom sampleDates dated = _
  rw [messageFrom, hheaders]
  rfl

/-- A listing of them, and what each is answered with. -/
def mailbox : List (Sigma Op.Ans) :=
  [⟨.call (BASE ++ "/messages") [("q", "launch"), ("maxResults", toString DEFAULT_LIMIT)],
      answered [("messages", .arr [.obj [("id", .str "m1")] "", .obj [("id", .str "m2")] ""] "")]⟩,
    ⟨.call (BASE ++ "/messages/" ++ "m1") metadataParams, answered undated⟩,
    ⟨.call (BASE ++ "/messages/" ++ "m2") metadataParams, answered dated⟩]

theorem mailbox_kept_two : ∃ found, Traced (search sampleDates DEFAULT_LIMIT "launch") mailbox (.ok found) ∧
    found.raw.map Result.timestamp = [none, some sampleTime] ∧ ∃ messages : List GmailMessage, messages.length = 2 ∧
      (Ranks readingDeployment.arithmetic 0 (found.raw.filter (normalized readingDeployment.arithmetic)) ↔
        ∀ message ∈ messages, Text.blank message.id = false →
          ∀ raw, message.date = some raw → ¬ Offsetless sampleDates raw) := by
  have hraw : ∃ raw, [undatedMessage, datedMessage].mapM (toResult sampleDates) = .ok raw ∧
      raw.map Result.timestamp = [none, some sampleTime] := ⟨_, rfl, rfl⟩
  obtain ⟨raw, hraw, htimes⟩ := hraw
  have htraced : Traced (search sampleDates DEFAULT_LIMIT "launch") mailbox (.ok ⟨raw, none⟩) := by
    refine .op (.op (.op ?_))
    dsimp only [Prog.bind, bind]
    rw [described_dated]
    change Traced (match List.mapM (toResult sampleDates) [undatedMessage, datedMessage] with
      | Except.error e => (pure (Except.error e) : GmailProg (Except Exn Found))
      | Except.ok raw => pure (Except.ok { raw := raw })) [] _
    rw [hraw]
    exact .ret _
  obtain ⟨listing, details, ids, messages, -, -, -, -, hcards, -, hranks⟩ := mailbox_kept htraced 0
  have hlength : raw.length = 2 := by simpa using congrArg List.length htimes
  exact ⟨_, htraced, htimes, messages, hcards.length_eq.trans hlength, hranks⟩

end Gmail
end Search
end SafeSend
