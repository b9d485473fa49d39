import SafeSend.Send.Rows
/-!
# The send providers

`prepare` and `send` of each provider in the repository, over what its API answered.  Gmail drafts and then sends;
Slack and the fake have nothing to prepare.
-/
namespace SafeSend
namespace Send

inductive SendProvider | gmail | slack | fake
  deriving DecidableEq, Repr

namespace Gmail

def missingConnection : Exn := .provider {
  provider := "google"
  code := "missing_connection"
  detail := "a Gmail send reached the provider with no connection id"
  status := some 500 }

def draftWithoutId : Exn := .provider {
  provider := "google"
  code := "draft_without_id"
  detail := "drafts.create returned no id, so the send has no idempotency token"
  status := some 502 }

def missingDraftId : Exn := .provider {
  provider := "google"
  code := "missing_draft_id"
  detail := "a Gmail send reached the provider with no draft id; " ++
    "draft-then-send is the idempotency mechanism and has no fallback"
  status := some 500 }

/-- `create_draft`: the stable id in what `drafts.create` answered. -/
def createDraft (created : Except Exn (Option String)) : Except Exn String := do
  let id ← created
  if truthy id then return id.getD "" else throw draftWithoutId

/-- Create the draft, so that its id can be committed before the send; an id the request carries is returned
untouched. -/
def prepare (request : SendRequest) (created : Except Exn (Option String)) : Except Exn PreparedSend :=
  if truthy request.providerDraftId then return { providerDraftId := request.providerDraftId }
  else if request.connectionId.isNone then throw missingConnection
  else do
    let id ← createDraft created
    return { providerDraftId := some id }

/-- `sent` is the message id in what `drafts.send` answered. -/
def send (request : SendRequest) (sent : Except Exn (Option String)) : Except Exn SendReceipt :=
  if !truthy request.providerDraftId then throw missingDraftId
  else if request.connectionId.isNone then throw missingConnection
  else do
    let id ← sent
    return { providerMessageId := id.getD "", providerDraftId := request.providerDraftId }

end Gmail

namespace Slack

def postWithoutTs : Exn := .provider {
  provider := "slack"
  code := "post_without_ts"
  detail := "chat.postMessage returned ok with no ts, so the message cannot be named"
  status := some 502 }

/-- Nothing to persist: the fingerprint travels on the send call itself. -/
def prepare (_ : SendRequest) : Except Exn PreparedSend := return {}

/-- `posted` is the timestamp and the channel in what `chat.postMessage` answered. -/
def send (_ : SendRequest) (posted : Except Exn (String × String)) : Except Exn SendReceipt := do
  let (ts, channel) ← posted
  if ts = "" then throw postWithoutTs else return { providerMessageId := channel ++ ":" ++ ts }

end Slack

namespace Fake

def prepare (_ : SendRequest) : Except Exn PreparedSend := return {}

/-- `recorded` is the fresh hex of the delivery, or the failure that was armed. -/
def send (request : SendRequest) (recorded : Except Exn String) : Except Exn SendReceipt := do
  let hex ← recorded
  return { providerMessageId := "fake-" ++ hex, providerDraftId := request.providerDraftId }

end Fake

/-- `r` is what the provider's `prepare` does with some answer of its API. -/
def SendProvider.Prepares (request : SendRequest) (r : Except Exn PreparedSend) : SendProvider → Prop
  | gmail => ∃ created, Gmail.prepare request created = r
  | slack => Slack.prepare request = r
  | fake => Fake.prepare request = r

def SendProvider.Sends (request : SendRequest) (r : Except Exn SendReceipt) : SendProvider → Prop
  | gmail => ∃ sent, Gmail.send request sent = r
  | slack => ∃ posted, Slack.send request posted = r
  | fake => ∃ recorded, Fake.send request recorded = r

/-- **Gmail's prepare answers the request's own draft id**, where it has one, and always one. -/
theorem Gmail.prepare_ok {request : SendRequest} {created : Except Exn (Option String)} {prepared : PreparedSend}
    (h : Gmail.prepare request created = .ok prepared) :
    truthy prepared.providerDraftId = true ∧
      (truthy request.providerDraftId = true → prepared.providerDraftId = request.providerDraftId) := by
  unfold Gmail.prepare at h
  split at h
  · rename_i ht
    obtain rfl := Except.ok.inj h
    exact ⟨ht, fun _ => rfl⟩
  · rename_i ht
    split at h
    · cases h
    · cases created with
      | error e => cases h
      | ok id =>
        cases hid : truthy id with
        | false =>
          have hc : Gmail.createDraft (.ok id) = .error Gmail.draftWithoutId := by
            simp [Gmail.createDraft, bind, Except.bind, hid, throw, throwThe, MonadExceptOf.throw]
          rw [hc] at h
          cases h
        | true =>
          have hc : Gmail.createDraft (.ok id) = .ok (id.getD "") := by
            simp [Gmail.createDraft, bind, Except.bind, hid, pure, Except.pure]
          rw [hc] at h
          obtain rfl := Except.ok.inj h
          refine ⟨?_, fun h' => absurd h' ht⟩
          cases id with
          | none => cases hid
          | some s => exact hid

theorem Gmail.send_ok {request : SendRequest} {sent : Except Exn (Option String)} {receipt : SendReceipt}
    (h : Gmail.send request sent = .ok receipt) : receipt.providerDraftId = request.providerDraftId := by
  unfold Gmail.send at h
  split at h
  · cases h
  · split at h
    · cases h
    · cases sent with
      | error e => cases h
      | ok id =>
        obtain rfl := Except.ok.inj h
        rfl

theorem SendProvider.prepares_ok {p : SendProvider} {request : SendRequest} {prepared : PreparedSend}
    (h : p.Prepares request (.ok prepared)) :
    (p = .gmail ∧ truthy prepared.providerDraftId = true ∧
        (truthy request.providerDraftId = true → prepared.providerDraftId = request.providerDraftId)) ∨
      p ≠ .gmail ∧ prepared.providerDraftId = none := by
  cases p with
  | gmail =>
    obtain ⟨created, hc⟩ := h
    exact .inl ⟨rfl, Gmail.prepare_ok hc⟩
  | slack | fake =>
    obtain rfl := Except.ok.inj h
    exact .inr ⟨nofun, rfl⟩

/-- **A receipt names no draft but the request's.** -/
theorem SendProvider.sends_ok {p : SendProvider} {request : SendRequest} {receipt : SendReceipt}
    (h : p.Sends request (.ok receipt)) :
    receipt.providerDraftId = none ∨ receipt.providerDraftId = request.providerDraftId := by
  cases p with
  | gmail =>
    obtain ⟨sent, hs⟩ := h
    exact .inr (Gmail.send_ok hs)
  | slack =>
    obtain ⟨posted, hs⟩ := h
    unfold Slack.send at hs
    cases posted with
    | error e => cases hs
    | ok r =>
      refine .inl ?_
      change (if r.1 = "" then _ else _) = _ at hs
      split at hs
      · cases hs
      · obtain rfl := Except.ok.inj hs
        rfl
  | fake =>
    obtain ⟨recorded, hs⟩ := h
    cases recorded with
    | error e => cases hs
    | ok hex =>
      obtain rfl := Except.ok.inj hs
      exact .inr rfl

end Send
end SafeSend
