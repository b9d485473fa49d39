import SafeSend.Providers.Http
import SafeSend.Send.Providers
/-!
# Gmail, response by response

The one call path of the Gmail client and the three calls the send provider makes on it, from what each request came to:
a response, or what the token helper or the transport raised.  The status is looked at after the body: an empty body
answers the call whatever its status.
-/
namespace SafeSend
namespace Send
namespace Gmail

open Providers

/-- What one call's requests come to: the first, what expiring the access token comes to, and the second. -/
structure Exchange where
  first : Except Exn Response
  expired : Except Exn Unit := .ok ()
  second : Except Exn Response := .error (.other "")

/-- The response the call goes on with.  A `401` is retried once, over a refresh. -/
def Exchange.final (x : Exchange) : Except Exn Response :=
  match x.first with
  | .error e => .error e
  | .ok r =>
    if r.status = 401 then
      match x.expired with
      | .error e => .error e
      | .ok () => x.second
    else .ok r

/-- What `_call` makes of a response. -/
def settle (r : Response) : Except Exn Fields :=
  if r.status = 204 ∨ r.body.isEmpty = true then .ok []
  else if 400 ≤ r.status then .error (fromGoogle (jsonBody r.body) r)
  else .ok (jsonBody r.body)

/-- `_call`. -/
def call (x : Exchange) : Except Exn Fields :=
  match x.final with
  | .error e => .error e
  | .ok r => settle r

/-- `send_draft`: the message and the thread. -/
def sendDraft (x : Exchange) : Except Exn (String × String) :=
  match call x with
  | .error e => .error e
  | .ok sent => .ok ((Json.getOr sent "id" (.str "")).text, (Json.getOr sent "threadId" (.str "")).text)

/-- `draft_exists`: not yet sent, or already sent. -/
def draftExists (x : Exchange) : Except Exn Bool :=
  match call x with
  | .ok _ => .ok true
  | .error (.provider e) => if e.status = some 404 then .ok false else .error (.provider e)
  | .error e => .error e

/-- `GmailSendProvider.send`. -/
def sendMessage (request : SendRequest) (x : Exchange) : Except Exn SendReceipt :=
  send request ((sendDraft x).map fun sent => some sent.1)

def DRAFTS_URL : String := "https://mail.google.com/mail/u/0/#drafts"

def unrecorded : ProbeResult where
  verdict := .inconclusive
  evidence := "no draft id was recorded for this send, so Gmail cannot be asked about it"

def probeError (draftId : String) (e : ProviderError) : ProbeResult where
  verdict := .inconclusive
  evidence := "drafts.get(" ++ draftId ++ ") failed: " ++ e.str

def stillThere (draftId : String) : ProbeResult where
  verdict := .absent
  evidence := "draft " ++ draftId ++ " still exists at Gmail, so it was never sent"

def noLonger (draftId : String) : ProbeResult where
  verdict := .found
  evidence := "draft " ++ draftId ++ " no longer exists at Gmail, which means it was sent; the message id could not be " ++
    "recovered from the draft id alone. Check " ++ DRAFTS_URL ++ " and your Sent mail."

/-- `GmailSendProvider.probe_by_fingerprint`. -/
def probeByFingerprint (request : SendRequest) (x : Exchange) : Except Exn ProbeResult :=
  if !truthy request.providerDraftId then .ok unrecorded
  else if request.connectionId.isNone then .error missingConnection
  else
    let draftId := request.providerDraftId.getD ""
    match draftExists x with
    | .error (.provider e) => .ok (probeError draftId e)
    | .error e => .error e
    | .ok true => .ok (stillThere draftId)
    | .ok false => .ok (noLonger draftId)

/-- `delete_draft`: a draft that could not be deleted is left, and only what is no provider's error is raised. -/
def deleteDraft (x : Exchange) : Except Exn Unit :=
  match call x with
  | .error (.provider _) | .ok _ => .ok ()
  | .error e => .error e

/-- The request reaches Gmail: it names a draft and the connection to ask with. -/
def asks (request : SendRequest) : Bool := truthy request.providerDraftId && request.connectionId.isSome

theorem of_asks {request : SendRequest} (h : asks request = true) :
    truthy request.providerDraftId = true ∧ request.connectionId.isNone = false := by
  obtain ⟨ht, hc⟩ := Bool.and_eq_true_iff.1 h
  refine ⟨ht, ?_⟩
  rw [← Option.not_isSome, hc]
  rfl

/-- An error, said with a body. -/
def refuses (r : Response) : Bool := 400 ≤ r.status && !r.body.isEmpty

theorem settle_refuses {r : Response} (h : refuses r = true) : settle r = .error (fromGoogle (jsonBody r.body) r) := by
  simp only [refuses, Bool.and_eq_true, decide_eq_true_eq, Bool.not_eq_true'] at h
  have hno : ¬ (r.status = 204 ∨ r.body.isEmpty = true) := by
    rintro (h204 | hb)
    · omega
    · rw [h.2] at hb
      cases hb
  rw [settle, if_neg hno, if_pos h.1]

/-- **Anything but an error with a body is an answer.** -/
theorem settle_accepts {r : Response} (h : refuses r = false) : ∃ payload, settle r = .ok payload ∧
    (payload = [] ∨ payload = jsonBody r.body ∧ r.body.isEmpty = false) := by
  unfold settle
  by_cases hblank : r.status = 204 ∨ r.body.isEmpty = true
  · exact ⟨[], if_pos hblank, .inl rfl⟩
  · have hb : r.body.isEmpty = false := by
      have := (not_or.1 hblank).2
      simpa using this
    have hs : ¬ 400 ≤ r.status := by
      intro hs
      simp [refuses, hs, hb] at h
    exact ⟨_, by rw [if_neg hblank, if_neg hs], .inr ⟨rfl, hb⟩⟩

theorem call_of_final {x : Exchange} {r : Response} (h : x.final = .ok r) : call x = settle r := by
  rw [call, h]

theorem call_of_raised {x : Exchange} {e : Exn} (h : x.final = .error e) : call x = .error e := by
  rw [call, h]

theorem not_refuses_of_success {r : Response} (h : r.success = true) : refuses r = false := by
  simp only [Response.success, Bool.and_eq_true, decide_eq_true_eq] at h
  have hs : ¬ 400 ≤ r.status := by omega
  simp [refuses, hs]

/-! ## What a receipt is worth -/

/-- The body is an object with a message id that is a string, and not the empty one. -/
def names : Body → Bool
  | .json (.obj fields _) =>
    match Json.get fields "id" with
    | .str s => s != ""
    | _ => false
  | _ => false

/-- Gmail accepted the message, and named it. -/
def accepts (r : Response) : Bool := r.success && names r.body

/-- Every receipt is for a message whose last `drafts.send` was answered `2xx` and named. -/
def Evident (request : SendRequest) (x : Exchange) : Prop :=
  ∀ receipt, sendMessage request x = .ok receipt → ∃ r, x.final = .ok r ∧ accepts r = true

/-- The last response, where the request is made and there is one, is an error with a body or an acceptance. -/
def plainAnswer (request : SendRequest) (x : Exchange) : Bool :=
  !asks request ||
    match x.final with
    | .error _ => true
    | .ok r => refuses r || accepts r

theorem sendMessage_unasked {request : SendRequest} {x : Exchange} (h : asks request = false) (receipt : SendReceipt) :
    sendMessage request x ≠ .ok receipt := by
  unfold sendMessage send
  by_cases ht : truthy request.providerDraftId = true
  · have hc : request.connectionId.isNone = true := by simpa [asks, ht] using h
    simp [ht, hc, throw, throwThe, MonadExceptOf.throw]
  · simp [ht, throw, throwThe, MonadExceptOf.throw]

theorem sendMessage_asked {request : SendRequest} (x : Exchange) (h : asks request = true) :
    sendMessage request x = (sendDraft x).map fun sent => ⟨sent.1, request.providerDraftId⟩ := by
  obtain ⟨ht, hsome⟩ := of_asks h
  unfold sendMessage send
  rw [ht, hsome]
  cases sendDraft x <;> rfl

/-- A call that raises is no receipt. -/
theorem sendMessage_raised {request : SendRequest} {x : Exchange} {e : Exn} (ha : asks request = true)
    (h : call x = .error e) (receipt : SendReceipt) : sendMessage request x ≠ .ok receipt := by
  rw [sendMessage_asked x ha, sendDraft, h]
  intro hok
  cases hok

/-- A call that answers is one. -/
theorem sendMessage_answered {request : SendRequest} {x : Exchange} {payload : Fields} (ha : asks request = true)
    (h : call x = .ok payload) : ∃ receipt, sendMessage request x = .ok receipt := by
  rw [sendMessage_asked x ha, sendDraft, h]
  exact ⟨_, rfl⟩

/-- **A receipt is evidence exactly where the last response is an error with a body or an acceptance.** -/
theorem receipt_is_evidence (request : SendRequest) (x : Exchange) :
    Evident request x ↔ plainAnswer request x = true := by
  by_cases ha : asks request = true
  · cases hf : x.final with
    | error e =>
      have hno := sendMessage_raised ha (call_of_raised hf)
      exact ⟨fun _ => by simp only [plainAnswer, hf, Bool.or_true], fun _ receipt h => absurd h (hno receipt)⟩
    | ok r =>
      have hplain : plainAnswer request x = (refuses r || accepts r) := by
        simp only [plainAnswer, hf, ha, Bool.not_true, Bool.false_or]
      rw [hplain]
      by_cases hr : refuses r = true
      · have hno := sendMessage_raised ha ((call_of_final hf).trans (settle_refuses hr))
        exact ⟨fun _ => by rw [hr, Bool.true_or], fun _ receipt h => absurd h (hno receipt)⟩
      · have hr' : refuses r = false := by simpa using hr
        obtain ⟨payload, hp, -⟩ := settle_accepts hr'
        obtain ⟨receipt, hreceipt⟩ := sendMessage_answered ha ((call_of_final hf).trans hp)
        rw [hr', Bool.false_or]
        constructor
        · intro h
          obtain ⟨r', hr', hok⟩ := h receipt hreceipt
          rw [hf] at hr'
          cases hr'
          exact hok
        · intro hok receipt' _
          exact ⟨r, hf, hok⟩
  · have ha' : asks request = false := by simpa using ha
    exact ⟨fun _ => by simp only [plainAnswer, ha', Bool.not_false, Bool.true_or],
      fun _ receipt h => absurd h (sendMessage_unasked ha' receipt)⟩

/-- A request for a drafted message. -/
def drafted : SendRequest where
  fingerprint := "0123456789abcdef0123456789abcdef"
  channel := .gmail
  recipient := "dana@example.org"
  recipientDisplay := "dana@example.org"
  subject := none
  body := "hello"
  providerDraftId := some "r1"
  connectionId := some 0

/-- A server error with nothing in its body gives a receipt, for a message with no name. -/
theorem receipt_of_error :
    sendMessage drafted { first := .ok ⟨500, .empty, none⟩ } = .ok ⟨"", some "r1"⟩ ∧
      ¬ ∀ (request : SendRequest) (x : Exchange), Evident request x := by
  refine ⟨rfl, fun hclaim => ?_⟩
  obtain ⟨r, hr, hok⟩ := hclaim drafted { first := .ok ⟨500, .empty, none⟩ } _ rfl
  cases hr
  cases hok

/-! ## What the probe's answer is worth -/

def verdict (request : SendRequest) (x : Exchange) : Option ProbeVerdict :=
  (probeByFingerprint request x).toOption.map ProbeResult.verdict

/-- The response the probe went on with, where it asked Gmail and got one. -/
def answered (request : SendRequest) (x : Exchange) : Option Response :=
  if asks request = true then x.final.toOption else none

/-- The draft is said to be there only if the last response was `2xx`, to be gone exactly if it was `404`, and any other
response says nothing. -/
structure Proven (request : SendRequest) (x : Exchange) : Prop where
  absent : verdict request x = some .absent → ∃ r, answered request x = some r ∧ r.success = true
  found : verdict request x = some .found ↔ ∃ r, answered request x = some r ∧ r.status = 404
  other : ∀ r, answered request x = some r → r.success = false → r.status ≠ 404 → verdict request x = some .inconclusive

/-- What was raised is not a provider's `404`. -/
def notMissing : Exn → Bool
  | .provider e => e.status != some 404
  | _ => true

/-- The last response, where the request is made and there is one, is `2xx` or an error with a body; and where the token
could not be had instead, it was not for a `404`. -/
def plainProbe (request : SendRequest) (x : Exchange) : Bool :=
  !asks request ||
    match x.final with
    | .error e => notMissing e
    | .ok r => r.success || refuses r

theorem verdict_unasked {request : SendRequest} (x : Exchange) (h : asks request = false) :
    verdict request x ≠ some .absent ∧ verdict request x ≠ some .found := by
  unfold verdict probeByFingerprint
  by_cases ht : truthy request.providerDraftId = true
  · have hc : request.connectionId.isNone = true := by simpa [asks, ht] using h
    simp [ht, hc, Except.toOption]
  · simp [ht, Except.toOption, unrecorded]

/-- What the probe makes of the call. -/
def verdictOf : Except Exn Fields → Option ProbeVerdict
  | .ok _ => some .absent
  | .error (.provider e) => some (if e.status = some 404 then .found else .inconclusive)
  | .error _ => none

theorem verdict_asked {request : SendRequest} (x : Exchange) (h : asks request = true) :
    verdict request x = verdictOf (call x) := by
  obtain ⟨ht, hsome⟩ := of_asks h
  unfold verdict probeByFingerprint draftExists
  rw [ht, hsome]
  cases call x with
  | ok payload => rfl
  | error e =>
    cases e with
    | provider e =>
      by_cases he : e.status = some 404
      · simp only [verdictOf, he]
        rfl
      · simp only [verdictOf, he]
        rfl
    | _ => rfl

/-- A response that is no error with a body reads as a draft that is still there. -/
theorem verdict_accepted {request : SendRequest} {x : Exchange} {r : Response} (ha : asks request = true)
    (hf : x.final = .ok r) (hr : refuses r = false) : verdict request x = some .absent := by
  obtain ⟨payload, hp, -⟩ := settle_accepts hr
  rw [verdict_asked x ha, call_of_final hf, hp]
  rfl

theorem verdict_refused {request : SendRequest} {x : Exchange} {r : Response} (ha : asks request = true)
    (hf : x.final = .ok r) (hr : refuses r = true) :
    verdict request x = some (if r.status = 404 then .found else .inconclusive) := by
  rw [verdict_asked x ha, call_of_final hf, settle_refuses hr]
  simp only [verdictOf, fromGoogle, Option.some.injEq]

theorem verdict_raised {request : SendRequest} {x : Exchange} {e : Exn} (ha : asks request = true)
    (hf : x.final = .error e) : verdict request x = some .found ↔ notMissing e = false := by
  rw [verdict_asked x ha, call_of_raised hf]
  cases e with
  | provider e => by_cases he : e.status = some 404 <;> simp [verdictOf, notMissing, he]
  | _ => simp [verdictOf, notMissing]

theorem raised_not_absent {request : SendRequest} {x : Exchange} {e : Exn} (ha : asks request = true)
    (hf : x.final = .error e) : verdict request x ≠ some .absent := by
  rw [verdict_asked x ha, call_of_raised hf]
  cases e with
  | provider e => by_cases he : e.status = some 404 <;> simp [verdictOf, he]
  | _ => simp [verdictOf]

/-- Where there was no response, the verdict is only not to be `found`. -/
theorem proven_of_unanswered {request : SendRequest} {x : Exchange} (hnone : answered request x = none)
    (habsent : verdict request x ≠ some .absent) : Proven request x ↔ verdict request x ≠ some .found := by
  constructor
  · intro h hfound
    obtain ⟨r, hr, -⟩ := h.found.1 hfound
    rw [hnone] at hr
    cases hr
  · intro hfound
    refine ⟨fun h => absurd h habsent, ⟨fun h => absurd h hfound, fun ⟨r, hr, _⟩ => ?_⟩, fun r hr => ?_⟩
    · rw [hnone] at hr
      cases hr
    · rw [hnone] at hr
      cases hr

/-- A verdict on a plain response is proven. -/
theorem proven_of_plain {request : SendRequest} {x : Exchange} (hplain : plainProbe request x = true) :
    Proven request x := by
  by_cases ha : asks request = true
  · cases hf : x.final with
    | error e =>
      have hnone : answered request x = none := by
        rw [answered, if_pos ha, hf]
        rfl
      have hmissing : notMissing e = true := by
        simpa only [plainProbe, hf, ha, Bool.not_true, Bool.false_or] using hplain
      rw [proven_of_unanswered hnone (raised_not_absent ha hf), Ne, verdict_raised ha hf, hmissing]
      decide
    | ok r =>
      have hans : answered request x = some r := by
        rw [answered, if_pos ha, hf]
        rfl
      have hr : r.success = true ∨ refuses r = true := by
        simpa only [plainProbe, hf, ha, Bool.not_true, Bool.false_or, Bool.or_eq_true] using hplain
      rcases hr with hok | hr
      · have hv := verdict_accepted ha hf (not_refuses_of_success hok)
        refine ⟨fun _ => ⟨r, hans, hok⟩, ⟨fun h => ?_, fun ⟨r', hr', h404⟩ => ?_⟩, fun r' hr' hbad _ => ?_⟩
        · rw [hv] at h
          cases h
        · cases hans.symm.trans hr'
          rw [Response.success, h404] at hok
          cases hok
        · cases hans.symm.trans hr'
          rw [hok] at hbad
          cases hbad
      · have hv := verdict_refused ha hf hr
        refine ⟨fun h => ?_, ⟨fun h => ⟨r, hans, ?_⟩, fun ⟨r', hr', h404⟩ => ?_⟩, fun r' hr' _ h404 => ?_⟩
        · rw [hv] at h
          split at h <;> cases h
        · by_contra h404
          rw [hv, if_neg h404] at h
          cases h
        · cases hans.symm.trans hr'
          rw [hv, if_pos h404]
        · cases hans.symm.trans hr'
          rw [hv, if_neg h404]
  · have ha' : asks request = false := by simpa using ha
    obtain ⟨habsent, hfound⟩ := verdict_unasked x ha'
    exact (proven_of_unanswered (if_neg ha) habsent).2 hfound

/-- What is proven rests on a plain response. -/
theorem plain_of_proven {request : SendRequest} {x : Exchange} (h : Proven request x) : plainProbe request x = true := by
  by_cases ha : asks request = true
  · cases hf : x.final with
    | error e =>
      have hnone : answered request x = none := by
        rw [answered, if_pos ha, hf]
        rfl
      rw [proven_of_unanswered hnone (raised_not_absent ha hf), Ne, verdict_raised ha hf, Bool.not_eq_false] at h
      simp only [plainProbe, hf, h, Bool.or_true]
    | ok r =>
      have hans : answered request x = some r := by
        rw [answered, if_pos ha, hf]
        rfl
      simp only [plainProbe, hf, Bool.or_eq_true]
      by_cases hr : refuses r = true
      · exact .inr (.inr hr)
      · obtain ⟨r', hr', hok⟩ := h.absent (verdict_accepted ha hf (by simpa using hr))
        cases hans.symm.trans hr'
        exact .inr (.inl hok)
  · have ha' : asks request = false := by simpa using ha
    simp only [plainProbe, ha', Bool.not_false, Bool.true_or]

/-- **The probe's verdict is proven exactly where the last response is `2xx` or an error with a body**, and no token
endpoint answered `404` in its place. -/
theorem probe_is_proven (request : SendRequest) (x : Exchange) : Proven request x ↔ plainProbe request x = true :=
  ⟨plain_of_proven, proven_of_plain⟩

/-- A `404` with nothing in its body reads as a draft that is still there, and was never sent. -/
theorem probe_of_missing :
    probeByFingerprint drafted { first := .ok ⟨404, .empty, none⟩ } = .ok (stillThere "r1") ∧
      ¬ ∀ (request : SendRequest) (x : Exchange), Proven request x := by
  refine ⟨rfl, fun hclaim => ?_⟩
  obtain ⟨r, hr, hok⟩ := (hclaim drafted { first := .ok ⟨404, .empty, none⟩ }).absent rfl
  cases hr
  cases hok

end Gmail
end Send
end SafeSend
