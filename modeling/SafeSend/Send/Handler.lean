import SafeSend.Send.Sem
/-!
# The send job

Dispatch, reconcile, resolve.  Every read and write of the row is an operation of its own, so anything may happen
between two of them; a crash stops the program at any operation and a timeout replaces what is left of it.
-/
namespace SafeSend
namespace Send

open Lib
open Queue (ClaimedJob)

def MAX_RECONCILE_ATTEMPTS : Nat := 3

inductive ReconcileVerdict | notSent | adopted | parkedUncertain | retryLater | alreadyTerminal
  deriving DecidableEq, Repr

/-! ## Row transitions -/

def commitDispatchAttempt (id : Nat) (draftId : Option String) : SendProg Bool := perform (.write id (.dispatch draftId))

/-- False means we no longer owned it. -/
def markDelivered (id : Nat) (receipt : SendReceipt) (evidence : String) : SendProg Bool :=
  perform (.write id (.delivered receipt evidence))

def markUncertain (id : Nat) (reason : String) : SendProg Bool := perform (.write id (.uncertain reason))

def recordError (id : Nat) (errorClass : ErrorClass) (detail : String) : SendProg Bool :=
  perform (.write id (.error errorClass detail))

def setTerminal (id : Nat) (state : SendState) (errorClass : ErrorClass) (detail : String) : SendProg Bool :=
  perform (.write id (.terminal state errorClass detail))

/-! ## Reconciliation -/

/-- The branch of a probe that answered. -/
def settleProbe (id : Nat) (note : String) (send : SendRow) (attempts : Nat) (probe : ProbeResult) :
    SendProg ReconcileVerdict :=
  match probe.verdict with
  | .found =>
    match probe.providerMessageId with
    | none => do
      -- Found, but nothing the delivered row could name it by.
      let _ ← markUncertain id ("a matching message exists but carries no id we can record: " ++ probe.evidence)
      return .parkedUncertain
    | some messageId => do
      let adopted ← markDelivered id ⟨messageId, send.providerDraftId⟩ probe.evidence
      return if adopted then .adopted else .alreadyTerminal
  | .absent => do
    let _ ← recordError id .transient ("reconciled: " ++ probe.evidence)
    return .notSent
  | .inconclusive =>
    if attempts ≥ MAX_RECONCILE_ATTEMPTS then do
      let _ ← markUncertain id (if probe.evidence = "" then note else probe.evidence)
      return .parkedUncertain
    else do
      let _ ← recordError id .transient (if probe.evidence = "" then "probe inconclusive" else probe.evidence)
      return .retryLater

/-- The branch of a probe that raised: an answer, not a crash. -/
def probeFailed (id : Nat) (attempts : Nat) (exc : Exn) : SendProg ReconcileVerdict :=
  let evidence := "probe failed: " ++ exc.str
  if attempts ≥ MAX_RECONCILE_ATTEMPTS then do
    let _ ← markUncertain id evidence
    return .parkedUncertain
  else do
    let _ ← recordError id .transient evidence
    return .retryLater

/-- The send is in flight and was dispatched: count the attempt and ask the provider. -/
def reconcileDispatched (id : Nat) (note : String) (send : SendRow) : SendProg ReconcileVerdict :=
  if send.reconcileAttempts ≥ MAX_RECONCILE_ATTEMPTS then do
    let _ ← markUncertain id (if note = "" then "reconciliation attempts exhausted" else note)
    return .parkedUncertain
  else do
    match ← perform (.loadDraft send.draftId) with
    | none =>
      let _ ← markUncertain id "the draft this send was built from no longer exists"
      return .parkedUncertain
    | some draft =>
      let attempts ← perform (.bumpReconcileAttempts id)
      match ← perform (.probe send.provider (requestFor send draft)) with
      | .error exc => probeFailed id attempts exc
      | .ok probe => settleProbe id note send attempts probe

/-- Ask the provider what actually happened, and record the answer. -/
def reconcileSend (id : Nat) (note : String) : SendProg ReconcileVerdict := do
  match ← perform (.loadSend id) with
  | none => return .alreadyTerminal
  | some send =>
    if send.state ≠ .inFlight then return .alreadyTerminal
    else if send.dispatchedAt.isNone then return .notSent
    else reconcileDispatched id note send

/-! ## The job -/

/-- `provider.discard`, best effort. -/
def tidy (artifact : Option (ProviderKind × SendRequest)) : SendProg Unit :=
  match artifact with
  | some (provider, request) =>
    if truthy request.providerDraftId then do
      let _ ← perform (.discard provider request)
      return ()
    else return ()
  | none => return ()

/-- What the *send* becomes, mirroring what the queue is about to do with the job; at the ceiling it reconciles once
more, and only "the provider has no record" earns `failed_transient`. -/
def finalizeFailure (id : Nat) (exc : Exn) (job : ClaimedJob) (artifact : Option (ProviderKind × SendRequest)) :
    SendProg Unit :=
  let errorClass := classify exc
  let detail := exc.str
  if errorClass = .transient then
    if job.attempts < job.maxAttempts then do
      let _ ← recordError id errorClass detail
      return ()
    else do
      match ← reconcileSend id ("attempt ceiling reached: " ++ detail) with
      | .notSent =>
        let _ ← setTerminal id .failedTransient errorClass detail
        return ()
      | .retryLater =>
        let _ ← markUncertain id detail
        return ()
      | _ => return ()
  else do
    let _ ← setTerminal id .failedPermanent errorClass detail
    tidy artifact

/-- `provider.send`: the message is handed over, and the answer awaited. -/
def providerSend (provider : ProviderKind) (request : SendRequest) : SendProg (Except Exn SendReceipt) := do
  let call ← perform (.sendCall provider request)
  perform (.sendAnswer call)

/-- The request with the draft id `prepare` answered, where it answered one. -/
def withPrepared (request : SendRequest) (prepared : PreparedSend) : SendRequest :=
  if truthy prepared.providerDraftId then { request with providerDraftId := prepared.providerDraftId } else request

theorem fingerprint_withPrepared (request : SendRequest) (prepared : PreparedSend) :
    (withPrepared request prepared).fingerprint = request.fingerprint := by
  unfold withPrepared
  split <;> rfl

theorem connectionId_withPrepared (request : SendRequest) (prepared : PreparedSend) :
    (withPrepared request prepared).connectionId = request.connectionId := by
  unfold withPrepared
  split <;> rfl

/-- Send, and record what came of it. -/
def handOver (job : ClaimedJob) (send : SendRow) (request : SendRequest) : SendProg (Except Exn Unit) := do
  match ← providerSend send.provider request with
  | .error exc =>
    finalizeFailure job.refId exc job (some (send.provider, request))
    return .error exc
  | .ok receipt =>
    let _ ← markDelivered job.refId receipt ""
    perform (.recordSuccess send.connectionId)
    return .ok ()

/-- The second half of `run_send`: prepare, commit the attempt, send, record. -/
def dispatchSend (job : ClaimedJob) (send : SendRow) : SendProg (Except Exn Unit) := do
  match ← perform (.loadDraft send.draftId) with
  | none =>
    return .error (.other ("send " ++ toString job.refId ++ " references draft " ++ toString send.draftId ++
      ", which is gone"))
  | some draft =>
    let request := requestFor send draft
    match ← perform (.prepare send.provider request) with
    | .error exc =>
      finalizeFailure job.refId exc job none
      return .error exc
    | .ok prepared =>
      -- Its own transaction, before the provider is contacted; whether its guard matched is not looked at.
      let _ ← commitDispatchAttempt job.refId prepared.providerDraftId
      handOver job send (withPrepared request prepared)

/-- Raised for a probe that could not tell: transient, so that the job backs off and reconciles again. -/
def inconclusive (provider : ProviderKind) : Exn :=
  .provider {
    provider := provider.value
    code := "reconciliation_inconclusive"
    detail := "could not establish whether the message was sent; will re-probe"
    status := some 503 }

def runSend (job : ClaimedJob) : SendProg (Except Exn Unit) := do
  match ← perform (.loadSend job.refId) with
  | none => return .ok ()
  | some send =>
    if send.state ≠ .inFlight then return .ok ()
    else if send.dispatchedAt.isSome then do
      match ← reconcileSend job.refId "" with
      | .retryLater => return .error (inconclusive send.provider)
      | .notSent => dispatchSend job send
      | _ => return .ok ()
    else dispatchSend job send

/-- The registered handler of the job's kind; what an adapter run does is not the send gate's. -/
def handler (job : ClaimedJob) : SendProg (Except Exn Unit) :=
  match job.kind with
  | .send => runSend job
  | .adapterRun => perform (.adapterRun job.refId)

/-! ## The sweep -/

open Queue (ReconcileOutcome Recovery)

def reconcileSendJob (job : ClaimedJob) : SendProg ReconcileOutcome := do
  match ← reconcileSend job.refId "" with
  | .notSent | .retryLater => return .safeToDispatch
  | _ => return .resolved

/-- The reconciler's answer, where the job's policy asks it. -/
def askReconciler (job : ClaimedJob) : SendProg (Option ReconcileOutcome) :=
  match Queue.policyFor job.kind with
  | .retry => return none
  | .reconcile => do
    let outcome ← reconcileSendJob job
    return some outcome

/-- The sweep's loop over the stale jobs: what its transaction will write for each. -/
def sweepJobs : List ClaimedJob → SendProg (List (ClaimedJob × Recovery))
  | [] => return []
  | job :: l => do
    let outcome ← askReconciler job
    perform (.recoverRow job.id)
    let rest ← sweepJobs l
    return (job, Queue.recover job outcome) :: rest

end Send
end SafeSend
