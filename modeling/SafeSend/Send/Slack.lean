import SafeSend.Providers.Http
import SafeSend.Send.Providers
/-!
# Slack, response by response

The Slack client's call path and the send provider's probe: one bounded page of the channel's history, read back for the
key a message was stamped with.  Below it the channel itself, newest message first, and what a page of it shows.
-/
namespace SafeSend
namespace Send
namespace Slack

open Providers

def missingConnection : Exn := .provider {
  provider := "slack"
  code := "missing_connection"
  detail := "a Slack send reached the provider with no connection id"
  status := some 500 }

/-- `_call`: Slack says `ok`, or it failed, whatever the status. -/
def call (answer : Except Exn Response) : Except Exn Fields :=
  match answer with
  | .error e => .error e
  | .ok r =>
    let payload := jsonBody r.body
    if (Json.getOr payload "ok" (.bool false)).truthy then .ok payload else .error (fromSlack payload r)

structure SlackMessage where
  channelId : String
  ts : String
  text : String
  username : String
  idempotencyKey : Option String := none

def noAttribute : Exn := .other "object has no attribute 'get'"

/-- `v or w`. -/
def either (v w : Json) : Json := if v.truthy then v else w

/-- `_from_history_message`. -/
def fromHistoryMessage (channel : String) (message : Json) : Except Exn SlackMessage :=
  match message with
  | .obj message _ =>
    match (Json.get message "metadata").orEmpty with
    | .error e => .error e
    | .ok metadata =>
      match (Json.get metadata "event_payload").orEmpty with
      | .error e => .error e
      | .ok payload =>
        let key := Json.get payload "idempotency_key"
        .ok {
          channelId := channel
          ts := (Json.getOr message "ts" (.str "")).text
          text := (Json.getOr message "text" (.str "")).text
          username := (either (either (Json.get message "username") (Json.get message "user")) (.str "")).text
          idempotencyKey := if key.truthy then some key.text else none }
  | _ => .error noAttribute

def fromHistory (channel : String) : List Json → Except Exn (List SlackMessage)
  | [] => .ok []
  | v :: l =>
    match fromHistoryMessage channel v with
    | .error e => .error e
    | .ok m =>
      match fromHistory channel l with
      | .error e => .error e
      | .ok ms => .ok (m :: ms)

/-- What a history read asks for. -/
structure HistoryParams where
  channel : String
  limit : Nat := 100
  oldest : Option Int := none
  includeAllMetadata : Bool := false
  deriving DecidableEq, Repr

/-- What one history read's requests come to: the first, the join, and the second. -/
structure Exchange where
  first : Except Exn Response
  joined : Except Exn Response := .error (.other "")
  second : Except Exn Response := .error (.other "")

/-- The payload the read goes on with.  A channel the bot never joined is joined, and asked once more. -/
def Exchange.payload (joinIfNeeded : Bool) (x : Exchange) : Except Exn Fields :=
  match call x.first with
  | .ok payload => .ok payload
  | .error (.provider e) =>
    if joinIfNeeded = true ∧ e.code = "not_in_channel" then
      match call x.joined with
      | .error e => .error e
      | .ok _ => call x.second
    else .error (.provider e)
  | .error e => .error e

/-- The messages of a payload. -/
def messagesOf (channel : String) (payload : Fields) : Except Exn (List SlackMessage) :=
  let v := Json.get payload "messages"
  if v.truthy then
    match v with
    | .arr l _ => fromHistory channel l
    | _ => .error noAttribute
  else .ok []

/-- `channel_history`. -/
def channelHistory (params : HistoryParams) (joinIfNeeded : Bool) (x : Exchange) : Except Exn (List SlackMessage) :=
  match x.payload joinIfNeeded with
  | .error e => .error e
  | .ok payload => messagesOf params.channel payload

def PROBE_WINDOW_SECONDS : Int := 60

def PROBE_LIMIT : Nat := 100

/-- `_window_start`, in microseconds: anchored to the dispatch. -/
def windowStart (request : SendRequest) (now : Nat) : Int :=
  (request.dispatchedAt.getD now : Int) - PROBE_WINDOW_SECONDS * 1000000

/-- What the probe asks for. -/
def probeParams (request : SendRequest) (now : Nat) : HistoryParams where
  channel := request.recipient
  limit := PROBE_LIMIT
  oldest := some (windowStart request now)
  includeAllMetadata := true

def matching (request : SendRequest) (m : SlackMessage) : ProbeResult where
  verdict := .found
  providerMessageId := some (request.recipient ++ ":" ++ m.ts)
  evidence := "a message in " ++ request.recipient ++ " carries idempotency key " ++ request.fingerprint ++
    " in its metadata"

def emptyWindow (request : SendRequest) : ProbeResult where
  verdict := .inconclusive
  evidence := "no messages at all in " ++ request.recipient ++ " within " ++ toString PROBE_WINDOW_SECONDS ++
    "s, so the window proves nothing"

def noCarrier (request : SendRequest) (n : Nat) : ProbeResult where
  verdict := .inconclusive
  evidence := toString n ++ " messages in " ++ request.recipient ++ " within the window and none carries metadata; the " ++
    "fingerprint has no carrier, so absence cannot be concluded (risks.md R5, spike 2)"

def noneMatches (request : SendRequest) (n : Nat) : ProbeResult where
  verdict := .absent
  evidence := toString n ++ " messages in " ++ request.recipient ++ " within " ++ toString PROBE_WINDOW_SECONDS ++
    "s carry metadata and none matches " ++ request.fingerprint

def historyError (request : SendRequest) (e : ProviderError) : ProbeResult where
  verdict := .inconclusive
  evidence := "conversations.history on " ++ request.recipient ++ " failed: " ++ e.str

/-- What the messages say. -/
def judge (request : SendRequest) (messages : List SlackMessage) : ProbeResult :=
  match messages.find? fun m => m.idempotencyKey == some request.fingerprint with
  | some m => matching request m
  | none =>
    if messages.isEmpty then emptyWindow request
    else if !messages.any (fun m => m.idempotencyKey.isSome) then noCarrier request messages.length
    else noneMatches request messages.length

/-- `SlackSendProvider.probe_by_fingerprint`. -/
def probeByFingerprint (request : SendRequest) (now : Nat) (x : Exchange) : Except Exn ProbeResult :=
  if request.connectionId.isNone then .error missingConnection
  else
    match channelHistory (probeParams request now) true x with
    | .error (.provider e) => .ok (historyError request e)
    | .error e => .error e
    | .ok messages => .ok (judge request messages)

/-! ## The channel -/

/-- A message in a channel, with the instant it was posted at, in microseconds. -/
structure Post where
  ts : Int
  message : Json

/-- A channel's messages, the newest first. -/
structure Channel where
  posts : List Post
  newestFirst : posts.Pairwise fun p q => q.ts < p.ts

/-- The messages newer than `oldest`. -/
def Channel.since (ch : Channel) (oldest : Int) : List Post := ch.posts.filter fun p => decide (oldest < p.ts)

/-- What `conversations.history` shows: the most recent of them, at most `limit`. -/
def Channel.page (ch : Channel) (oldest : Int) (limit : Nat) : List Post := (ch.since oldest).take limit

/-- What it leaves out. -/
def Channel.beyond (ch : Channel) (oldest : Int) (limit : Nat) : List Post := (ch.since oldest).drop limit

/-- A history read that is answered at all shows the page asked for, with the metadata whole. -/
def Channel.Shows (ch : Channel) (request : SendRequest) (now : Nat) (x : Exchange) : Prop :=
  ∀ payload, x.payload true = .ok payload →
    ∃ text, Json.get payload "messages" = .arr ((ch.page (windowStart request now) PROBE_LIMIT).map Post.message) text

def field (v : Json) (key : String) : Json :=
  match v with
  | .obj fields _ => Json.get fields key
  | _ => .null

/-- The key in a message's metadata, where it has one. -/
def keyOf (message : Json) : Option String :=
  let key := field (field (field message "metadata") "event_payload") "idempotency_key"
  if key.truthy then some key.text else none

/-- The message carries the fingerprint. -/
def carries (fingerprint : String) (p : Post) : Bool := keyOf p.message == some fingerprint

/-- The message can be read: what is looked for keys in has them. -/
def legible (p : Post) : Bool := (fromHistoryMessage "" p.message).toOption.isSome

def verdict (request : SendRequest) (now : Nat) (x : Exchange) : Option ProbeVerdict :=
  (probeByFingerprint request now x).toOption.map ProbeResult.verdict

/-- The probe finds nothing only if no message since the window's start carries the fingerprint, and finds one only if
one does. -/
structure Sound (ch : Channel) (request : SendRequest) (now : Nat) (x : Exchange) : Prop where
  absent : verdict request now x = some .absent → ∀ p ∈ ch.posts, windowStart request now < p.ts →
    carries request.fingerprint p = false
  found : verdict request now x = some .found → ∃ p ∈ ch.posts, windowStart request now < p.ts ∧
    carries request.fingerprint p = true

/-- A message on the page tells: one carries the fingerprint, or none has any key, or one cannot be read at all. -/
def telling (fingerprint : String) (page : List Post) : Bool :=
  page.any (carries fingerprint) || page.all (fun p => (keyOf p.message).isNone) || !page.all legible

/-- The request reaches Slack, and the history is read. -/
def reads (request : SendRequest) (x : Exchange) : Bool :=
  request.connectionId.isSome && (x.payload true).toOption.isSome

/-- No message beyond the page carries the fingerprint, unless the page tells or is not read. -/
def enough (ch : Channel) (request : SendRequest) (now : Nat) (x : Exchange) : Bool :=
  !reads request x || telling request.fingerprint (ch.page (windowStart request now) PROBE_LIMIT) ||
    !(ch.beyond (windowStart request now) PROBE_LIMIT).any (carries request.fingerprint)

section Lemmas

variable {ch : Channel} {request : SendRequest} {now : Nat} {x : Exchange} {channel : String}

theorem mem_since {oldest : Int} {p : Post} : p ∈ ch.since oldest ↔ p ∈ ch.posts ∧ oldest < p.ts := by
  rw [Channel.since, List.mem_filter, decide_eq_true_iff]

/-- **The window is the page and what is beyond it.** -/
theorem page_append_beyond (oldest : Int) (limit : Nat) : ch.page oldest limit ++ ch.beyond oldest limit = ch.since oldest :=
  List.take_append_drop _ _

theorem mem_since_iff {oldest : Int} {limit : Nat} {p : Post} :
    p ∈ ch.since oldest ↔ p ∈ ch.page oldest limit ∨ p ∈ ch.beyond oldest limit := by
  rw [← page_append_beyond oldest limit, List.mem_append]

theorem orEmpty_of_ok {v : Json} {d : Fields} (h : v.orEmpty = .ok d) (key : String) : Json.get d key = field v key := by
  unfold Json.orEmpty at h
  by_cases ht : v.truthy = true
  · rw [if_pos ht] at h
    cases v with
    | obj fields t =>
      cases h
      rfl
    | _ => cases h
  · rw [if_neg ht] at h
    cases h
    cases v with
    | obj fields t =>
      have he : fields = [] := by simpa [Json.truthy] using ht
      rw [he]
      rfl
    | _ => rfl

/-- **What the client reads of a message's metadata is its key.** -/
theorem fromHistoryMessage_key {v : Json} {m : SlackMessage} (h : fromHistoryMessage channel v = .ok m) :
    m.idempotencyKey = keyOf v := by
  unfold fromHistoryMessage at h
  cases v with
  | obj fields t =>
    simp only at h
    cases hm : (Json.get fields "metadata").orEmpty with
    | error e =>
      rw [hm] at h
      cases h
    | ok metadata =>
      rw [hm] at h
      simp only at h
      cases hp : (Json.get metadata "event_payload").orEmpty with
      | error e =>
        rw [hp] at h
        cases h
      | ok payload =>
        rw [hp] at h
        cases h
        have hkey : Json.get payload "idempotency_key" =
            field (field (field (.obj fields t) "metadata") "event_payload") "idempotency_key" := by
          rw [orEmpty_of_ok hp, orEmpty_of_ok hm]
          rfl
        simp only [keyOf, hkey]
  | _ => cases h

/-- Whether a message can be read does not hang on where it is. -/
theorem fromHistoryMessage_isSome (v : Json) :
    (fromHistoryMessage channel v).toOption.isSome = (fromHistoryMessage "" v).toOption.isSome := by
  unfold fromHistoryMessage
  cases v with
  | obj fields t =>
    simp only
    cases (Json.get fields "metadata").orEmpty with
    | error e => rfl
    | ok metadata =>
      simp only
      cases (Json.get metadata "event_payload").orEmpty <;> rfl
  | _ => rfl

variable (channel) in
/-- **A page that can be read gives its keys, in order**, and any other raises. -/
theorem fromHistory_cases (l : List Post) :
    (l.all legible = true ∧ ∃ ms, fromHistory channel (l.map Post.message) = .ok ms ∧
        ms.map SlackMessage.idempotencyKey = l.map fun p => keyOf p.message) ∨
      l.all legible = false ∧ ∃ e, fromHistory channel (l.map Post.message) = .error e := by
  induction l with
  | nil => exact .inl ⟨rfl, [], rfl, rfl⟩
  | cons p l ih =>
    have hl : legible p = (fromHistoryMessage channel p.message).toOption.isSome := (fromHistoryMessage_isSome _).symm
    rw [List.all_cons, List.map_cons, fromHistory, hl]
    cases hm : fromHistoryMessage channel p.message with
    | error e => exact .inr ⟨rfl, e, rfl⟩
    | ok m =>
      rcases ih with ⟨hall, ms, hms, hkeys⟩ | ⟨hall, e, he⟩
      · refine .inl ⟨by rw [hall]; rfl, m :: ms, by rw [hms], ?_⟩
        rw [List.map_cons, List.map_cons, hkeys, fromHistoryMessage_key hm]
      · exact .inr ⟨by rw [hall]; rfl, e, by rw [he]⟩

/-- A probe that raised, or was told of an error, has no verdict or an inconclusive one. -/
def Undecided (v : Option ProbeVerdict) : Prop := v ≠ some .absent ∧ v ≠ some .found

theorem verdict_raised {e : Exn} (h : channelHistory (probeParams request now) true x = .error e) :
    Undecided (verdict request now x) := by
  unfold verdict probeByFingerprint Undecided
  rw [h]
  by_cases hc : request.connectionId.isNone = true
  · simp [hc, Except.toOption]
  · cases e <;> simp [hc, Except.toOption, historyError]

theorem verdict_unread (h : reads request x = false) : Undecided (verdict request now x) := by
  by_cases hc : request.connectionId.isNone = true
  · unfold verdict probeByFingerprint Undecided
    simp [hc, Except.toOption]
  · have hsome : request.connectionId.isSome = true := by simpa [Option.isSome_iff_ne_none] using hc
    rw [reads, hsome, Bool.true_and] at h
    cases hp : x.payload true with
    | ok payload =>
      rw [hp] at h
      cases h
    | error e => exact verdict_raised (e := e) (by rw [channelHistory, hp])

/-- **What the messages say is what their keys say.** -/
theorem judge_verdict (ms : List SlackMessage) :
    (judge request ms).verdict =
      if (ms.map SlackMessage.idempotencyKey).any (· == some request.fingerprint) = true then .found
      else if (ms.map SlackMessage.idempotencyKey).all Option.isNone = true then .inconclusive else .absent := by
  unfold judge
  cases hf : ms.find? fun m => m.idempotencyKey == some request.fingerprint with
  | some m =>
    have hany : (ms.map SlackMessage.idempotencyKey).any (· == some request.fingerprint) = true := by
      rw [List.any_map]
      exact List.any_eq_true.2 ⟨m, List.mem_of_find?_eq_some hf, List.find?_some hf⟩
    rw [if_pos hany]
    rfl
  | none =>
    have hany : (ms.map SlackMessage.idempotencyKey).any (· == some request.fingerprint) = false := by
      rw [List.any_map]
      exact List.any_eq_false.2 fun m hm => List.find?_eq_none.1 hf m hm
    rw [hany, if_neg Bool.false_ne_true]
    have hall : (ms.map SlackMessage.idempotencyKey).all Option.isNone =
        !ms.any fun m => m.idempotencyKey.isSome := by
      rw [List.all_map, List.not_any_eq_all_not]
      congr 1
      funext m
      cases hk : m.idempotencyKey <;> simp [hk]
    rw [hall]
    by_cases hempty : ms.isEmpty = true
    · rw [List.isEmpty_iff.1 hempty]
      rfl
    · simp only [hempty, Bool.false_eq_true, if_false]
      split <;> rfl

theorem messagesOf_arr {payload : Fields} {l : List Json} {text : String} (h : Json.get payload "messages" = .arr l text) :
    messagesOf channel payload = fromHistory channel l := by
  unfold messagesOf
  simp only [h]
  cases l with
  | nil => rfl
  | cons v l => rfl

/-- **The verdict on a page that was read.** -/
theorem verdict_read (hshows : ch.Shows request now x) (hr : reads request x = true) :
    let page := ch.page (windowStart request now) PROBE_LIMIT
    (page.all legible = true ∧ verdict request now x = some (
        if page.any (carries request.fingerprint) = true then .found
        else if page.all (fun p => (keyOf p.message).isNone) = true then .inconclusive else .absent)) ∨
      page.all legible = false ∧ Undecided (verdict request now x) := by
  intro page
  obtain ⟨hc, hp⟩ := Bool.and_eq_true_iff.1 hr
  cases hpay : x.payload true with
  | error e =>
    rw [hpay] at hp
    cases hp
  | ok payload =>
    obtain ⟨text, hmsgs⟩ := hshows payload hpay
    have hread : channelHistory (probeParams request now) true x =
        fromHistory request.recipient (page.map Post.message) := by
      rw [channelHistory, hpay]
      exact messagesOf_arr hmsgs
    rcases fromHistory_cases request.recipient page with ⟨hall, ms, hms, hkeys⟩ | ⟨hall, e, he⟩
    · refine .inl ⟨hall, ?_⟩
      have hnone : request.connectionId.isNone = false := by
        cases hconn : request.connectionId with
        | none => rw [hconn] at hc; cases hc
        | some n => rfl
      unfold verdict probeByFingerprint
      rw [hread, hms, hnone]
      show some (judge request ms).verdict = _
      rw [judge_verdict, hkeys, List.any_map, List.all_map]
      rfl
    · exact .inr ⟨hall, verdict_raised (hread.trans he)⟩

/-- **The probe is sound exactly where no message beyond the page carries the fingerprint**, unless the page tells or
is not read. -/
theorem probe_is_sound (ch : Channel) (request : SendRequest) (now : Nat) (x : Exchange)
    (hshows : ch.Shows request now x) : Sound ch request now x ↔ enough ch request now x = true := by
  have holds (hu : Undecided (verdict request now x)) : Sound ch request now x :=
    ⟨fun h => absurd h hu.1, fun h => absurd h hu.2⟩
  by_cases hr : reads request x = true
  · rcases verdict_read hshows hr with ⟨hleg, hv⟩ | ⟨hleg, hu⟩
    · unfold enough telling
      rw [hr, hleg, Bool.not_true, Bool.false_or, Bool.or_false]
      by_cases hfound : (ch.page (windowStart request now) PROBE_LIMIT).any (carries request.fingerprint) = true
      · rw [hfound, Bool.true_or, Bool.true_or]
        rw [if_pos hfound] at hv
        refine ⟨fun _ => rfl, fun _ => ⟨fun h => absurd (hv.symm.trans h) (by decide), fun _ => ?_⟩⟩
        obtain ⟨p, hp, hcarries⟩ := List.any_eq_true.1 hfound
        obtain ⟨hmem, hnew⟩ := mem_since.1 (mem_since_iff.2 (.inl hp))
        exact ⟨p, hmem, hnew, hcarries⟩
      · rw [if_neg hfound] at hv
        have hpage : (ch.page (windowStart request now) PROBE_LIMIT).any (carries request.fingerprint) = false := by
          simpa using hfound
        by_cases hkeyless : (ch.page (windowStart request now) PROBE_LIMIT).all (fun p => (keyOf p.message).isNone) = true
        · rw [if_pos hkeyless] at hv
          rw [hkeyless, Bool.or_true, Bool.true_or]
          exact ⟨fun _ => rfl, fun _ =>
            ⟨fun h => absurd (hv.symm.trans h) (by decide), fun h => absurd (hv.symm.trans h) (by decide)⟩⟩
        · rw [if_neg hkeyless] at hv
          have hkeyed : (ch.page (windowStart request now) PROBE_LIMIT).all (fun p => (keyOf p.message).isNone) = false := by
            simpa using hkeyless
          rw [hpage, hkeyed, Bool.false_or, Bool.false_or, Bool.not_eq_true']
          -- Absence was concluded, and it is what is beyond the page that decides whether rightly.
          constructor
          · intro h
            refine List.any_eq_false.2 fun p hp => ?_
            obtain ⟨hmem, hnew⟩ := mem_since.1 (mem_since_iff.2 (.inr hp))
            rw [h.absent hv p hmem hnew]
            exact Bool.false_ne_true
          · intro h
            refine ⟨fun _ p hp hnew => ?_, fun h => absurd (hv.symm.trans h) (by decide)⟩
            rcases mem_since_iff.1 (mem_since.2 ⟨hp, hnew⟩) with hin | hout
            · exact by simpa using List.any_eq_false.1 hpage p hin
            · exact by simpa using List.any_eq_false.1 h p hout
    · refine ⟨fun _ => ?_, fun _ => holds hu⟩
      simp only [enough, telling, hleg, Bool.not_false, Bool.or_true, Bool.true_or]
  · have hr' : reads request x = false := by simpa using hr
    exact ⟨fun _ => by simp only [enough, hr', Bool.not_false, Bool.true_or], fun _ => holds (verdict_unread hr')⟩

end Lemmas

/-! ## Two channels -/

/-- What `conversations.history` answers. -/
def shown (ch : Channel) (request : SendRequest) (now : Nat) : Exchange where
  first := .ok {
    status := 200
    body := .json (.obj [("ok", .bool true),
      ("messages", .arr ((ch.page (windowStart request now) PROBE_LIMIT).map Post.message) "")] "") }

theorem shown_shows (ch : Channel) (request : SendRequest) (now : Nat) : ch.Shows request now (shown ch request now) := by
  intro payload h
  cases h
  exact ⟨"", rfl⟩

/-- A message with a key in its metadata. -/
def stamped (key : String) : Json :=
  .obj [("text", .str "hello"), ("metadata", .obj [("event_payload", .obj [("idempotency_key", .str key)] "")] "")] ""

/-- A message dispatched a minute after the epoch. -/
def posted : SendRequest where
  fingerprint := "0123456789abcdef0123456789abcdef"
  channel := .slack
  recipient := "C1"
  recipientDisplay := "#sales"
  subject := none
  body := "hello"
  connectionId := some 0
  dispatchedAt := some 60000000

/-- Its message, and `n` posted since with keys of their own. -/
def busyChannel (n : Nat) : Channel where
  posts := (List.range (n + 1)).map fun (i : Nat) =>
    ⟨(n + 1 - i : Nat), stamped (if i = n then posted.fingerprint else "fedcba9876543210fedcba9876543210")⟩
  newestFirst := by
    rw [List.pairwise_map]
    have hlt : ∀ j ∈ List.range (n + 1), j < n + 1 := fun j hj => List.mem_range.1 hj
    refine List.Pairwise.imp_of_mem (fun {i j} _ hj hij => ?_) List.pairwise_lt_range
    have := hlt j hj
    show ((n + 1 - j : Nat) : Int) < (n + 1 - i : Nat)
    omega

/-- With one message posted since, the page shows both. -/
theorem probe_is_sound_quiet :
    (Sound (busyChannel 1) posted 0 (shown (busyChannel 1) posted 0) ↔
        enough (busyChannel 1) posted 0 (shown (busyChannel 1) posted 0) = true) ∧
      enough (busyChannel 1) posted 0 (shown (busyChannel 1) posted 0) = true :=
  ⟨probe_is_sound (busyChannel 1) posted 0 _ (shown_shows _ _ _), by decide⟩

/-- With a hundred, the page shows those, and the message is said to be absent. -/
theorem probe_misses_busy :
    ¬ ∀ (ch : Channel) (request : SendRequest) (now : Nat) (x : Exchange), ch.Shows request now x →
      Sound ch request now x := by
  intro hclaim
  have hsound := hclaim (busyChannel 100) posted 0 _ (shown_shows _ _ _)
  have habsent : verdict posted 0 (shown (busyChannel 100) posted 0) = some .absent := by decide +kernel
  have hmem : ⟨1, stamped posted.fingerprint⟩ ∈ (busyChannel 100).posts :=
    List.mem_map.2 ⟨100, by decide, by simp⟩
  have hcarries := hsound.absent habsent _ hmem (by decide)
  revert hcarries
  decide

end Slack
end Send
end SafeSend
