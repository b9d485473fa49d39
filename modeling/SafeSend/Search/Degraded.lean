import SafeSend.Lib.Trace
import SafeSend.Search.Handler
import SafeSend.Search.Slack
/-!
# What a degraded search hides

A search by the answers it was given: what Slack answered it, a token that could not be had, a request without a
response, a timestamp.  The scan skips a channel whose history is refused and drops a message whose link is, whatever
they are refused for.
-/
namespace SafeSend
namespace Search
namespace Slack

open Lib
open Lib.Prog (Traced Escapes Lets Uses)
open Queue (ClaimedJob)
open Providers (Json Fields Response)
open Send.Slack (SlackMessage call noAttribute)

abbrev Answer := Sigma Op.Ans

/-- The error in a response. -/
def failure : Answer → Option Exn
  | ⟨.call _ _ _, .ok response⟩ =>
    match call (.ok response) with
    | .error e => some e
    | .ok _ => none
  | _ => none

/-- A broken credential, or a provider that is not to be had just now. -/
def grave (e : Exn) : Bool := classify e == .needsReconnect || classify e == .transient

/-- The exception an answer ends the search with: of a search and of the channel list any but what it falls back on, of a
history and a link any but a provider's. -/
def uncaught : Answer → Option Exn
  | ⟨.call .searchMessages _ _, answer⟩ =>
    match call answer with
    | .error e => if fallsBack e then none else some e
    | .ok _ => none
  | ⟨.call .conversationsList _ _, answer⟩ =>
    match call answer with
    | .error e => some e
    | .ok _ => none
  | ⟨.call _ _ _, .error (.provider _)⟩ => none
  | ⟨.call _ _ _, .error e⟩ => some e
  | ⟨.fromtimestamp _, stamped⟩ =>
    match iso stamped with
    | .error e => some e
    | .ok _ => none
  | _ => none

/-- The answer is to a history read or a permalink. -/
def ofScan : Answer → Bool
  | ⟨.call .conversationsHistory _ _, _⟩ | ⟨.call .getPermalink _ _, _⟩ => true
  | _ => false

/-- The run a search ended so for is never recorded as done. -/
def NeverDone (r : Except Exn Found) : Prop :=
  ∀ (D : Deployment) (job : ClaimedJob) (run : LoadedRun),
    Uses (fun o => ∀ landing, o ≠ .commitResults landing) (storeFound D run r >>= concludeRun job run)

/-- The search raised an error of the class, and its run is never done. -/
structure Raised (k : ErrorClass) (r : Except Exn Found) : Prop where
  error : ∃ exc, r = .error exc ∧ classify exc = k
  undone : NeverDone r

/-- No response that tells of a broken credential or a rate limit is hidden. -/
def Surfaces (l : List Answer) (r : Except Exn Found) : Prop :=
  ∀ x ∈ l, ∀ e, failure x = some e → grave e = true → Raised (classify e) r

/-- A history read or a permalink is answered with no such error, unless something else of the same class, that the scan
does not catch, ends the search. -/
def Spared (l : List Answer) : Prop :=
  ∀ x ∈ l, ofScan x = true → ∀ e, failure x = some e → grave e = true →
    ∃ y exc, l.getLast? = some y ∧ uncaught y = some exc ∧ classify exc = classify e

/-- An exception of the search's own: what it was answered is not of the shape it reads. -/
def Own (e : Exn) : Prop := classify e = .permanent

variable {casefold : String → String} {limit : Nat} {deadline : Int} {query : String}

/-! ## What the client raises of its own -/

theorem orEmpty_own {v : Json} {e : Exn} (h : v.orEmpty = .error e) : Own e := by
  unfold Json.orEmpty at h
  by_cases ht : v.truthy = true
  · rw [if_pos ht] at h
    cases v <;> cases h <;> rfl
  · rw [if_neg ht] at h
    cases h

theorem orNone_own {v : Json} {e : Exn} (h : orNone v = .error e) : Own e := by
  unfold orNone at h
  by_cases ht : v.truthy = true
  · rw [if_pos ht] at h
    cases v <;> cases h <;> rfl
  · rw [if_neg ht] at h
    cases h

theorem fromSearchMatch_own {v : Json} {e : Exn} (h : fromSearchMatch v = .error e) : Own e := by
  unfold fromSearchMatch at h
  cases v with
  | obj d t =>
    simp only at h
    cases hc : (Json.get d "channel").orEmpty with
    | error e' =>
      rw [hc] at h
      cases h
      exact orEmpty_own hc
    | ok channel =>
      rw [hc] at h
      cases h
  | _ =>
    cases h
    rfl

theorem mapM_own {α β : Type} {f : α → Except Exn β} (hf : ∀ v e, f v = .error e → Own e) :
    ∀ {l : List α} {e : Exn}, l.mapM f = .error e → Own e
  | [], e, h => by cases h
  | v :: l, e, h => by
    rw [List.mapM_cons] at h
    cases hv : f v with
    | error e' =>
      rw [hv] at h
      cases h
      exact hf v _ hv
    | ok w =>
      cases hl : l.mapM f with
      | error e' =>
        rw [hv, hl] at h
        cases h
        exact mapM_own hf hl
      | ok ws =>
        rw [hv, hl] at h
        cases h

theorem matchesOf_own {payload : Fields} {e : Exn} (h : matchesOf payload = .error e) : Own e := by
  unfold matchesOf at h
  cases hm : (Json.get payload "messages").orEmpty with
  | error e' =>
    rw [hm] at h
    cases h
    exact orEmpty_own hm
  | ok messages =>
    rw [hm] at h
    simp only at h
    cases hl : orNone (Json.get messages "matches") with
    | error e' =>
      rw [hl] at h
      cases h
      exact orNone_own hl
    | ok l =>
      rw [hl] at h
      exact mapM_own (fun v e => fromSearchMatch_own) h

theorem fromHistoryMessage_own {channel : String} {v : Json} {e : Exn}
    (h : Send.Slack.fromHistoryMessage channel v = .error e) : Own e := by
  unfold Send.Slack.fromHistoryMessage at h
  cases v with
  | obj d t =>
    simp only at h
    cases hm : (Json.get d "metadata").orEmpty with
    | error e' =>
      rw [hm] at h
      cases h
      exact orEmpty_own hm
    | ok metadata =>
      rw [hm] at h
      simp only at h
      cases hp : (Json.get metadata "event_payload").orEmpty with
      | error e' =>
        rw [hp] at h
        cases h
        exact orEmpty_own hp
      | ok payload =>
        rw [hp] at h
        cases h
  | _ =>
    cases h
    rfl

theorem fromHistory_own {channel : String} : ∀ {l : List Json} {e : Exn},
    Send.Slack.fromHistory channel l = .error e → Own e
  | [], e, h => by cases h
  | v :: l, e, h => by
    rw [Send.Slack.fromHistory] at h
    cases hv : Send.Slack.fromHistoryMessage channel v with
    | error e' =>
      rw [hv] at h
      cases h
      exact fromHistoryMessage_own hv
    | ok m =>
      rw [hv] at h
      cases hl : Send.Slack.fromHistory channel l with
      | error e' =>
        rw [hl] at h
        cases h
        exact fromHistory_own hl
      | ok ms =>
        rw [hl] at h
        cases h

theorem messagesOf_own {channel : String} {payload : Fields} {e : Exn}
    (h : Send.Slack.messagesOf channel payload = .error e) : Own e := by
  unfold Send.Slack.messagesOf at h
  by_cases ht : (Json.get payload "messages").truthy = true
  · simp only [ht, if_true] at h
    cases hv : Json.get payload "messages" with
    | arr l t =>
      rw [hv] at h
      exact fromHistory_own h
    | _ =>
      rw [hv] at h
      cases h
      rfl
  · simp only [ht] at h
    cases h

/-! ## What the search makes of an answer -/

section Answers

variable {kind : Connections.TokenKind} {params : List (String × String)} {answer : Except Exn Response} {e : Exn}

theorem searchMessages_error (h : searchMessages answer = .error e) : call answer = .error e ∨ Own e := by
  unfold searchMessages at h
  cases hc : call answer with
  | error e' =>
    rw [hc] at h
    cases h
    exact .inl rfl
  | ok payload =>
    rw [hc] at h
    exact .inr (matchesOf_own h)

theorem listChannels_error (h : listChannels answer = .error e) : call answer = .error e ∨ Own e := by
  unfold listChannels at h
  cases hc : call answer with
  | error e' =>
    rw [hc] at h
    cases h
    exact .inl rfl
  | ok payload =>
    rw [hc] at h
    exact .inr (orNone_own h)

/-- Only what is no provider's error gets out of a history read or a permalink. -/
theorem uncaught_of_scan {method : Method} (hm : method = .conversationsHistory ∨ method = .getPermalink)
    (h : uncaught ⟨.call method kind params, answer⟩ = some e) : answer = .error e ∧ ∀ p, e ≠ .provider p := by
  rcases hm with rfl | rfl <;>
    cases answer with
    | ok response => cases h
    | error e' => cases e' <;> cases h <;> exact ⟨rfl, fun p hp => by cases hp⟩

/-- A response's error is a provider's. -/
theorem call_provider {response : Response} (h : call (.ok response) = .error e) : ∃ p, e = .provider p := by
  unfold call at h
  simp only at h
  by_cases ht : (Json.getOr (Providers.jsonBody response.body) "ok" (.bool false)).truthy = true
  · rw [if_pos ht] at h
    cases h
  · rw [if_neg ht] at h
    cases h
    exact ⟨_, rfl⟩

/-- An exception of a call that is no provider's is what the call was answered with. -/
theorem call_error (h : call answer = .error e) : (∃ p, e = .provider p) ∨ answer = .error e := by
  cases answer with
  | error e' =>
    cases h
    exact .inr rfl
  | ok response => exact .inl (call_provider h)

theorem uncaught_of_error {method : Method} (hm : method = .conversationsHistory ∨ method = .getPermalink)
    (hp : ∀ p, e ≠ .provider p) : uncaught ⟨.call method kind params, .error e⟩ = some e := by
  rcases hm with rfl | rfl <;>
    cases e with
    | provider p => exact absurd rfl (hp p)
    | _ => rfl

theorem channelHistory_error {channel : String} (h : channelHistory channel answer = .error e) :
    (∃ p, e = .provider p) ∨ Own e ∨ answer = .error e := by
  unfold channelHistory Send.Slack.channelHistory Send.Slack.Exchange.payload at h
  cases hc : call answer with
  | ok payload =>
    simp only [hc] at h
    exact .inr (.inl (messagesOf_own h))
  | error e' =>
    have he : e = e' := by
      cases e' with
      | provider p =>
        simp only [hc, Bool.false_eq_true, false_and, if_false] at h
        cases h
        rfl
      | _ =>
        simp only [hc] at h
        cases h
        rfl
    subst he
    rcases call_error hc with hp | ha
    · exact .inl hp
    · exact .inr (.inr ha)

theorem channelHistory_raises {channel : String} (hp : ∀ p, e ≠ .provider p) :
    channelHistory channel (.error e) = .error e := by
  cases e with
  | provider p => exact absurd rfl (hp p)
  | _ => rfl

theorem permalink_error (h : permalink answer = .error e) : answer = .error e ∧ ∀ p, e ≠ .provider p := by
  unfold permalink at h
  cases hc : call answer with
  | ok payload =>
    rw [hc] at h
    cases h
  | error e' =>
    rw [hc] at h
    cases e' with
    | provider p => cases h
    | _ =>
      cases h
      rcases call_error hc with ⟨p, hp⟩ | ha
      · cases hp
      · exact ⟨ha, fun p hp => by cases hp⟩

theorem permalink_raises (hp : ∀ p, e ≠ .provider p) : permalink (.error e) = .error e := by
  cases e with
  | provider p => exact absurd rfl (hp p)
  | _ => rfl

end Answers

/-! ## What the search lets through -/

theorem toResult_lets (m : Message) : Lets uncaught Own (toResult m) := by
  refine Lets.perform (fun stamped e h => ?_) fun stamped h => ?_
  · cases stamped <;> cases h <;> rfl
  · cases stamped with
    | iso text => exact Lets.ok _
    | valueError => exact Lets.ok _
    | overflow => cases h
    | os detail => cases h

theorem toResults_lets : ∀ l : List Message, Lets uncaught Own (toResults l)
  | [] => Lets.ok _
  | m :: l => by
    refine (toResult_lets m).bind (fun e => rfl) fun r => ?_
    exact (toResults_lets l).bind (fun e => rfl) fun rest => Lets.ok _

theorem scanMessages_lets (channelId name : String) : ∀ (l : List SlackMessage) (results : List Result),
    Lets uncaught Own (scanMessages casefold limit query channelId name l results)
  | [], results => Lets.ok _
  | m :: l, results => by
    unfold scanMessages
    by_cases hm : occurs (casefold query) (casefold m.text) = true
    · rw [if_pos hm]
      refine Lets.perform (fun answer e h => ?_) fun answer h => ?_
      · obtain ⟨rfl, hp⟩ := uncaught_of_scan (.inr rfl) h
        simp only [permalink_raises hp]
        rfl
      · cases hl : permalink answer with
        | error e =>
          obtain ⟨rfl, hp⟩ := permalink_error hl
          rw [uncaught_of_error (.inr rfl) hp] at h
          cases h
        | ok link =>
          by_cases ht : Send.truthy link = true
          · simp only [ht, if_true]
            refine (toResult_lets _).bind (fun e => rfl) fun r => ?_
            by_cases hlen : limit ≤ (results ++ [r]).length
            · simp only [hlen, if_true]
              exact Lets.ok _
            · simp only [hlen, if_false]
              exact scanMessages_lets channelId name l _
          · simp only [ht]
            exact scanMessages_lets channelId name l results
    · rw [if_neg hm]
      exact scanMessages_lets channelId name l results

theorem scanChannels_lets : ∀ (l : List Json) (results : List Result),
    Lets uncaught Own (scanChannels casefold limit deadline query l results)
  | [], results => Lets.ok _
  | v :: l, results => by
    cases v with
    | obj d t =>
      unfold scanChannels
      by_cases hid : (Json.getOr d "id" (.str "")).text = ""
      · simp only [hid, if_true]
        exact scanChannels_lets l results
      · simp only [hid, if_false]
        refine Lets.perform (fun now e h => by cases h) fun now _ => ?_
        by_cases hd : deadline ≤ (now : Int)
        · rw [if_pos hd]
          exact Lets.ok _
        · rw [if_neg hd]
          refine Lets.perform (fun answer e h => ?_) fun answer h => ?_
          · obtain ⟨rfl, hp⟩ := uncaught_of_scan (.inl rfl) h
            simp only [channelHistory_raises hp]
            cases e with
            | provider p => exact absurd rfl (hp p)
            | _ => rfl
          · cases hh : channelHistory (Json.getOr d "id" (.str "")).text answer with
            | ok history =>
              refine (scanMessages_lets _ _ history results).bind (fun e => rfl) fun r => ?_
              cases r with
              | enough results => exact Lets.ok _
              | more results => exact scanChannels_lets l results
            | error e =>
              by_cases hp : ∃ p, e = .provider p
              · obtain ⟨p, rfl⟩ := hp
                exact scanChannels_lets l results
              · have hp' : ∀ p, e ≠ .provider p := fun p he => hp ⟨p, he⟩
                have hown : Own e := by
                  rcases channelHistory_error hh with hp | hown | rfl
                  · exact absurd hp.choose_spec (hp' _)
                  · exact hown
                  · rw [uncaught_of_error (.inl rfl) hp'] at h
                    cases h
                cases e with
                | provider p => exact absurd rfl (hp' p)
                | _ => exact Lets.error hown
    | _ => exact Lets.error rfl

theorem scan_lets : Lets uncaught Own (scan casefold limit deadline query) := by
  refine Lets.perform (fun answer e h => ?_) fun answer h => ?_
  · simp only [uncaught] at h
    cases hc : call answer with
    | ok payload =>
      rw [hc] at h
      cases h
    | error e' =>
      rw [hc] at h
      cases h
      simp only [listChannels, hc]
      rfl
  · cases hl : listChannels answer with
    | ok channels => exact scanChannels_lets channels []
    | error e =>
      rcases listChannels_error hl with hc | hown
      · simp only [uncaught, hc] at h
        cases h
      · exact Lets.error hown

theorem own_of_fallsBack {e : Exn} (h : fallsBack e = true) (hs : ∀ p, e = .provider p → p.provider = "slack") :
    Own e := by
  cases e with
  | provider p =>
    have hcode : p.code ∈ FALLBACK_TRIGGERS := of_decide_eq_true h
    have hp : p.provider = "slack" := hs p rfl
    simp only [FALLBACK_TRIGGERS, List.mem_cons, List.not_mem_nil, or_false] at hcode
    unfold Own classify classifyProviderError
    rcases hcode with hcode | hcode | hcode <;> simp only [hp, hcode] <;> rfl
  | _ => cases h

/-- **The search lets through** what none of its handlers is for. -/
theorem search_lets : Lets uncaught Own (search casefold limit deadline query) := by
  refine Lets.perform (fun answer e h => ?_) fun answer h => ?_
  · simp only [uncaught] at h
    cases hc : call answer with
    | ok payload =>
      rw [hc] at h
      cases h
    | error e' =>
      rw [hc] at h
      by_cases hf : fallsBack e' = true
      · simp only [hf, if_true] at h
        cases h
      · simp only [hf] at h
        cases h
        simp only [searchMessages, hc, hf]
        rfl
  · cases hm : searchMessages answer with
    | ok found => exact (toResults_lets _).bind (fun e => rfl) fun raw => Lets.ok _
    | error e =>
      by_cases hf : fallsBack e = true
      · simp only [hf, if_true]
        exact scan_lets.bind (fun e => rfl) fun raw => Lets.ok _
      · simp only [hf]
        rcases searchMessages_error hm with hc | hown
        · simp only [uncaught, hc, hf] at h
          cases h
        · exact Lets.error hown

/-! ## What is hidden -/

theorem not_grave_of_own {e : Exn} (h : Own e) : grave e = false := by
  unfold grave
  rw [show classify e = .permanent from h]
  rfl

theorem failure_call {method : Method} {kind : Connections.TokenKind} {params : List (String × String)}
    {answer : Except Exn Response} {e : Exn} (h : failure ⟨.call method kind params, answer⟩ = some e) :
    ∃ response, answer = .ok response ∧ call (.ok response) = .error e := by
  cases answer with
  | error e' => cases h
  | ok response =>
    simp only [failure] at h
    cases hc : call (.ok response) with
    | ok payload =>
      rw [hc] at h
      cases h
    | error e' =>
      rw [hc] at h
      cases h
      exact ⟨response, rfl, hc⟩

theorem call_slack {response : Response} {p : ProviderError} (h : call (.ok response) = .error (.provider p)) :
    p.provider = "slack" := by
  unfold call at h
  simp only at h
  by_cases ht : (Json.getOr (Providers.jsonBody response.body) "ok" (.bool false)).truthy = true
  · rw [if_pos ht] at h
    cases h
  · rw [if_neg ht] at h
    cases h
    rfl

/-- **Outside the scan no grave response is caught.** -/
theorem uncaught_of_failure {x : Answer} {e : Exn} (hx : ofScan x = false) (h : failure x = some e)
    (hg : grave e = true) : uncaught x = some e := by
  obtain ⟨o, answer⟩ := x
  cases o with
  | now | fromtimestamp ts => cases h
  | call method kind params =>
    obtain ⟨response, rfl, hc⟩ := failure_call h
    cases method with
    | conversationsHistory | getPermalink => cases hx
    | conversationsList => simp only [uncaught, hc]
    | searchMessages =>
      have hf : fallsBack e = false := by
        by_contra hf
        rw [Bool.not_eq_false] at hf
        have hown : Own e := own_of_fallsBack hf fun p hp => call_slack (hp ▸ hc)
        rw [not_grave_of_own hown] at hg
        cases hg
      simp only [uncaught, hc, hf]
      rfl

theorem neverDone_error (exc : Exn) : NeverDone (.error exc) := by
  intro D job run
  have hrecord : Uses (fun o => ∀ landing, o ≠ .commitResults landing) (recordRunFailure run exc job) := by
    refine Uses.perform (fun landing h => by cases h) fun _ => ?_
    by_cases hr : willRetry job exc = true
    · rw [if_pos hr]
      exact Uses.done
    · rw [if_neg hr]
      exact Uses.single fun landing h => by cases h
  exact Uses.bind (fun _ => Uses.done) hrecord

/-- **What a search hides**: a grave response is raised, unless the scan was answered it and nothing else of its class
ended the search. -/
theorem surfaces_iff {l : List Answer} {r : Except Exn Found}
    (h : Traced (search casefold limit deadline query) l r) : Surfaces l r ↔ Spared l := by
  obtain ⟨hends, hcause⟩ := search_lets l r h
  constructor
  · intro hs x hx _ e hf hg
    obtain ⟨⟨exc, hr, hclass⟩, -⟩ := hs x hx e hf hg
    rcases hcause exc hr with hown | ⟨y, hlast, hy⟩
    · have hgrave : grave exc = true := by
        unfold grave
        rw [hclass]
        exact hg
      rw [not_grave_of_own hown] at hgrave
      cases hgrave
    · exact ⟨y, exc, hlast, hy, hclass⟩
  · intro hs x hx e hf hg
    by_cases hscan : ofScan x = true
    · obtain ⟨y, exc, hlast, hy, hclass⟩ := hs x hx hscan e hf hg
      have hr : r = .error exc := hends y (List.mem_of_getLast? hlast) exc hy
      subst hr
      exact ⟨⟨exc, rfl, hclass⟩, neverDone_error exc⟩
    · rw [Bool.not_eq_true] at hscan
      have hr : r = .error e := hends x hx e (uncaught_of_failure hscan hf hg)
      subst hr
      exact ⟨⟨e, rfl, rfl⟩, neverDone_error e⟩

/-- `\x7b"ok": false, "error": code\x7d`. -/
def refusal (status : Nat) (code : String) : Response where
  status := status
  body := .json (.obj [("ok", .bool false), ("error", .str code)] "")

def channelItem (id : String) : Json := .obj [("id", .str id), ("name", .str "general")] ""

def listing (ids : List String) : Response where
  status := 200
  body := .json (.obj [("ok", .bool true), ("channels", .arr (ids.map channelItem) "")] "")

/-- A search without the scope, and the channel list. -/
def degraded (ids : List String) : List Answer :=
  [⟨.call .searchMessages .user [("query", "acme"), ("count", toString DEFAULT_LIMIT)], .ok (refusal 200 "missing_scope")⟩,
    ⟨.call .conversationsList .bot [("types", "public_channel"), ("limit", toString FALLBACK_CHANNELS),
      ("exclude_archived", "true")], .ok (listing ids)⟩]

def historyRead (id : String) (answer : Except Exn Response) : List Answer :=
  [⟨.now, (0 : Int)⟩,
    ⟨.call .conversationsHistory .bot [("channel", id), ("limit", toString FALLBACK_DEPTH)], answer⟩]

/-- A limit on the first channel, and no response at all on the second: the search fails as it should. -/
theorem surfaces_timedOut :
    let l := degraded ["C1", "C2"] ++ historyRead "C1" (.ok (refusal 429 "ratelimited")) ++
      historyRead "C2" (.error (.transport "timed out"))
    Surfaces l (.error (.transport "timed out")) ↔ Spared l :=
  @surfaces_iff id DEFAULT_LIMIT 1 "acme" _ _ (.op (.op (.op (.op (.op (.op (.ret _)))))))

/-- The bot's token is revoked, and the search reports that it found nothing. -/
theorem revocation_hidden :
    let l := degraded ["C1"] ++ historyRead "C1" (.ok (refusal 200 "token_revoked"))
    Traced (search id DEFAULT_LIMIT 1 "acme") l (.ok ⟨[], some .degraded⟩) ∧ ¬ Surfaces l (.ok ⟨[], some .degraded⟩) := by
  refine ⟨.op (.op (.op (.op (.ret _)))), fun h => ?_⟩
  have hm : (⟨.call .conversationsHistory .bot [("channel", "C1"), ("limit", toString FALLBACK_DEPTH)],
      .ok (refusal 200 "token_revoked")⟩ : Answer) ∈
        degraded ["C1"] ++ historyRead "C1" (.ok (refusal 200 "token_revoked")) :=
    List.mem_append_right _ (List.mem_cons_of_mem _ List.mem_cons_self)
  obtain ⟨exc, hr, -⟩ := (h _ hm _ rfl rfl).error
  cases hr

end Slack
end Search
end SafeSend
