import SafeSend.Connections.KeyVersions
import SafeSend.Providers.Execution
import SafeSend.Send.System
/-!
# What a revoked grant leaves on its connection

The one place that marks a connection is a refresh Google refused; so that is what its status says after an execution,
whatever else failed for the same reason.
-/
namespace SafeSend
namespace Client

open Lib
open Lib.Prog (Contract Among)
open Connections (Rows TokenColumn Payload)
open Crypto (AESGCM Keyring Nonce)
open Queue (ClaimedJob)

def statusOf (t : Rows) (c : Nat) : Option ConnStatus := (t.get c).map Connections.ConnectionRow.status

def Marked (c : Nat) (t : Rows) : Prop := statusOf t c = some .needsReconnect

section Executions

variable {σ : Type}

/-- A call on the connection failed for want of a grant. -/
def Failed (c : Nat) (s : Site σ) : Prop := ∃ exc, (c, exc) ∈ s.failures ∧ classify exc = .needsReconnect

/-- Google refused a refresh of the connection as one of a grant that is gone. -/
def Refused (c : Nat) (s : Site σ) : Prop := ∃ e, (c, e) ∈ s.refusals ∧ classify (.provider e) = .needsReconnect

/-- What the connection shows of an execution that found it as it is in `t`. -/
structure Reported (c : Nat) (t : Rows) (s : Site σ) : Prop where
  marks : ∀ exc, (c, exc) ∈ s.failures → classify exc = .needsReconnect → Marked c s.connections
  spares : Marked c s.connections → Marked c t ∨ Failed c s

/-- Between two operations of an execution others do anything, but to the status of the connection. -/
def working {Op : Type} {Ans : Op → Type} {ε : Type} (B : Backing Op Ans ε σ) (aes : AESGCM) (c : Nat) :
    Contract (Step Op) (Step.Ans Ans) (StepEnv ε) (Site σ) where
  sem := B.siteSem aes
  ok _ _ _ := True
  inv _ := True
  rely s t := statusOf t.connections c = statusOf s.connections c ∧ t.failures = s.failures ∧ t.refusals = s.refusals
  guar _ _ _ := True
  refl _ := ⟨rfl, rfl, rfl⟩
  trans h h' := ⟨h'.1.trans h.1, h'.2.1.trans h.2.1, h'.2.2.trans h.2.2⟩

/-- The end of an execution, whatever providers and adapters are registered: a send's job, an adapter run's, or the
sweep's question about a send. -/
inductive Executed (aes : AESGCM) (c : Nat) (connections : Rows) : {σ : Type} → Site σ → Prop
  | send {settings : Settings} {providers : ProviderKind → Calls} {job : ClaimedJob} {store : Send.Store}
      {a : Except Exn Unit} {t : Site Send.Store}
      (h : Among (working (gate settings) aes c) (sendJob providers job) ⟨store, connections, [], []⟩ a t) :
      Executed aes c connections t
  | swept {settings : Settings} {providers : ProviderKind → Calls} {job : ClaimedJob} {store : Send.Store}
      {a : Queue.ReconcileOutcome} {t : Site Send.Store}
      (h : Among (working (gate settings) aes c) (sweptJob providers job) ⟨store, connections, [], []⟩ a t) :
      Executed aes c connections t
  | adapterRun {D : Search.Deployment} {adapters : String → Option Nat → String → ClientProg (Except Exn Search.Found)}
      {job : ClaimedJob} {store : Search.Store} {a : Except Exn Unit} {t : Site Search.Store}
      (h : Among (working searches aes c) (adapterJob D adapters job) ⟨store, connections, [], []⟩ a t) :
      Executed aes c connections t

/-! ## One operation -/

variable {aes : AESGCM} {c : Nat} {ring : Keyring} {nonces : TokenColumn → Nonce} {now : Int} {id : Nat}
  {connection : Connections.ConnectionRow} {answer : Except Exn Payload} {t : Rows}

theorem statusOf_modify {f : Connections.ConnectionRow → Connections.ConnectionRow} (hf : ∀ r, (f r).status = r.status) :
    statusOf (t.modify id f) c = statusOf t c := by
  unfold statusOf
  by_cases hc : c = id
  · subst hc
    rw [Table.get_modify_self, Option.map_map]
    cases t.get c with
    | none => rfl
    | some r => exact congrArg some (hf r)
  · rw [Table.get_modify_of_ne _ _ hc]

theorem marked_markNeedsReconnect {detail : String} (hrow : (t.get c).isSome) :
    Marked c (Connections.markNeedsReconnect c detail t) := by
  obtain ⟨r, hr⟩ := Option.isSome_iff_exists.1 hrow
  unfold Marked statusOf Connections.markNeedsReconnect
  rw [Table.get_modify_self, hr]
  rfl

/-- **A success clears no mark**, and sets none. -/
theorem marked_markSuccess : Marked c (Connections.markSuccess id t) ↔ Marked c t := by
  unfold Marked statusOf Connections.markSuccess
  rcases Table.get_updateWhere_cases t id (fun r => r.status != .needsReconnect) Connections.successRow c with
    he | ⟨-, r, hr, hp, he⟩
  · rw [he]
  · rw [bne_iff_ne] at hp
    rw [he, hr]
    simp [Connections.successRow, hp]

theorem statusOf_expireAccessToken : statusOf (Connections.expireAccessToken now id t) c = statusOf t c :=
  statusOf_modify fun _ => rfl

/-- A refusal as one of a grant that is gone. -/
def refuses (answer : Except Exn Payload) : Bool :=
  match answer with
  | .error (.provider e) => classify (.provider e) == .needsReconnect
  | _ => false

variable (aes ring nonces now id connection t) in
theorem finishRefresh_refuses (h : refuses answer = true) : ∃ e, answer = .error (.provider e) ∧
    classify (.provider e) = .needsReconnect ∧
    Connections.finishRefresh aes ring nonces now id connection answer t =
      (.error (.needsReconnect id e.str), Connections.markNeedsReconnect id e.str t) := by
  unfold refuses at h
  split at h
  · rename_i e
    rw [beq_iff_eq] at h
    refine ⟨e, rfl, h, ?_⟩
    simp only [Connections.finishRefresh, Connections.refreshAccessToken, if_pos h]
  · cases h

/-- **No other answer of Google's changes the status of a connection.** -/
theorem statusOf_finishRefresh (h : refuses answer = false) :
    statusOf (Connections.finishRefresh aes ring nonces now id connection answer t).2 c = statusOf t c := by
  rcases Connections.finishRefresh_cases aes ring nonces now id connection answer t with
    ⟨⟨x, hx⟩, -⟩ | ⟨x, rfl, hclass, -⟩ | ⟨payload, grant, sealed, -, -, -, -, hx⟩
  · rw [hx]
  · simp only [refuses, hclass, beq_self_eq_true] at h
    cases h
  · rw [hx]
    exact statusOf_modify fun _ => rfl

/-- What is true of an execution at every point of it. -/
structure Tracks (c : Nat) (t : Rows) (s : Site σ) : Prop where
  marked : Marked c s.connections ↔ Marked c t ∨ Refused c s
  failed : Refused c s → Failed c s

variable {s u : Site σ}

theorem mem_noteFailure {α : Type} {r : Except Exn α} {l : List (Nat × Exn)} {x : Nat × Exn} (h : x ∈ l) :
    x ∈ noteFailure id r l := by
  cases r with
  | ok a => exact h
  | error exc => exact List.mem_cons_of_mem _ h

/-- Where neither the mark nor the refusals change. -/
theorem Tracks.keeps (h : Tracks c t s) (hm : Marked c u.connections ↔ Marked c s.connections)
    (hr : Refused c u ↔ Refused c s) (hf : Failed c s → Failed c u) : Tracks c t u where
  marked := by rw [hm, hr, h.marked]
  failed hu := hf (h.failed (hr.1 hu))

theorem Tracks.finishRefresh (h : Tracks c t s) (hrow : (s.connections.get id).isSome) :
    Tracks c t { s with
      connections := (Connections.finishRefresh aes ring nonces now id connection answer s.connections).2
      failures := noteFailure id (Connections.finishRefresh aes ring nonces now id connection answer s.connections).1
        s.failures
      refusals := noteRefusal id answer s.refusals } := by
  have hfailed {u : Site σ} (hu : u.failures = noteFailure id
      (Connections.finishRefresh aes ring nonces now id connection answer s.connections).1 s.failures) :
      Failed c s → Failed c u := by
    rintro ⟨exc, hexc, hclass⟩
    exact ⟨exc, by rw [hu]; exact mem_noteFailure hexc, hclass⟩
  by_cases hr : refuses answer = true
  · obtain ⟨e, rfl, hclass, hfinish⟩ := finishRefresh_refuses aes ring nonces now id connection s.connections hr
    by_cases hc : c = id
    · -- The refused refresh is this connection's.
      subst hc
      refine ⟨⟨fun _ => .inr ⟨e, List.mem_cons_self .., hclass⟩, fun _ => ?_⟩, fun _ => ?_⟩
      · rw [hfinish]
        exact marked_markNeedsReconnect hrow
      · refine ⟨.needsReconnect c e.str, ?_, rfl⟩
        rw [hfinish]
        exact List.mem_cons_self ..
    · refine h.keeps ?_ ⟨?_, ?_⟩ (hfailed rfl)
      · rw [hfinish]
        unfold Marked statusOf Connections.markNeedsReconnect
        rw [Table.get_modify_of_ne _ _ hc]
      · rintro ⟨e', he', hclass'⟩
        rcases List.mem_cons.1 he' with heq | he'
        · exact absurd (Prod.mk.inj heq).1 hc
        · exact ⟨e', he', hclass'⟩
      · rintro ⟨e', he', hclass'⟩
        exact ⟨e', List.mem_cons_of_mem _ he', hclass'⟩
  · have hno : refuses answer = false := Bool.eq_false_iff.2 hr
    refine h.keeps ?_ ⟨?_, ?_⟩ (hfailed rfl)
    · unfold Marked
      rw [statusOf_finishRefresh hno]
    · rintro ⟨e', he', hclass'⟩
      refine ⟨e', ?_, hclass'⟩
      unfold noteRefusal at he'
      split at he'
      · rename_i e
        rcases List.mem_cons.1 he' with heq | he'
        · rw [(Prod.mk.inj heq).2] at hclass'
          simp only [refuses, hclass', beq_self_eq_true] at hno
          cases hno
        · exact he'
      · exact he'
    · rintro ⟨e', he', hclass'⟩
      refine ⟨e', ?_, hclass'⟩
      unfold noteRefusal
      split
      · exact List.mem_cons_of_mem _ he'
      · exact he'

/-- **An operation of a client** marks a connection where it is refused the refresh, and nowhere else. -/
theorem Tracks.client (h : Tracks c t s) {o : Op} {e : Env} {x : o.Ans} (hs : clientSem aes o e s = some (x, u)) :
    Tracks c t u := by
  cases o with
  | readToken id kind =>
    cases e with
    | read ring now =>
      obtain ⟨-, rfl⟩ := Prod.mk.inj (Option.some.inj hs)
      refine h.keeps .rfl .rfl ?_
      rintro ⟨exc, hexc, hclass⟩
      exact ⟨exc, mem_noteFailure hexc, hclass⟩
    | _ => cases hs
  | finishRefresh id connection =>
    cases e with
    | answered ring now nonces answer =>
      obtain ⟨row, hrow, he⟩ := Option.map_eq_some_iff.1 hs
      obtain ⟨-, rfl⟩ := Prod.mk.inj he
      exact h.finishRefresh (by rw [hrow]; rfl)
    | _ => cases hs
  | expireAccessToken id =>
    cases e with
    | read ring now =>
      obtain ⟨-, rfl⟩ := Prod.mk.inj (Option.some.inj hs)
      refine h.keeps ?_ .rfl fun hf => hf
      unfold Marked
      rw [statusOf_expireAccessToken]
    | _ => cases hs
  | request method path =>
    cases e with
    | response r =>
      obtain ⟨-, rfl⟩ := Prod.mk.inj (Option.some.inj hs)
      exact h
    | _ => cases hs
  | clock =>
    cases e with
    | time now =>
      obtain ⟨-, rfl⟩ := Prod.mk.inj (Option.some.inj hs)
      exact h
    | _ => cases hs
  | failed id exc =>
    cases e with
    | none =>
      obtain ⟨-, rfl⟩ := Prod.mk.inj (Option.some.inj hs)
      refine h.keeps .rfl .rfl ?_
      rintro ⟨exc, hexc, hclass⟩
      exact ⟨exc, List.mem_cons_of_mem _ hexc, hclass⟩
    | _ => cases hs

/-! ## Every execution -/

section Runs

variable {Op : Type} {Ans : Op → Type} {ε : Type} {B : Backing Op Ans ε σ}

theorem Tracks.step (h : Tracks c t s) {o : Step Op} {e : StepEnv ε} {x : o.Ans Ans}
    (hs : B.siteSem aes o e s = some (x, u)) : Tracks c t u := by
  cases o with
  | store o =>
    cases e with
    | client e => cases hs
    | store e =>
      obtain ⟨⟨y, store⟩, -, he⟩ := Option.map_eq_some_iff.1 hs
      obtain ⟨-, rfl⟩ := Prod.mk.inj he
      refine h.keeps ?_ .rfl fun hf => hf
      unfold Backing.credit
      split
      · exact marked_markSuccess
      · exact .rfl
  | client o =>
    cases e with
    | store e => cases hs
    | client e => exact h.client hs

theorem Tracks.among {α : Type} {p : StepProg Op Ans α} {a : α} (hrun : Among (working B aes c) p s a u) :
    Tracks c t s → Tracks c t u := by
  have hrely {s u : Site σ} (hr : (working B aes c).rely s u) (h : Tracks c t s) : Tracks c t u := by
    obtain ⟨hstatus, hf, hg⟩ := hr
    refine h.keeps ?_ ?_ ?_
    · rw [Marked, hstatus]
      rfl
    · rw [Refused, hg]
      rfl
    · rw [Failed, Failed, hf]
      exact fun h => h
  induction hrun with
  | ret hr => exact hrely hr
  | op hr _ hs _ ih => exact fun h => ih ((hrely hr h).step hs)

end Runs

theorem tracks_start (c : Nat) (t : Rows) (store : σ) : Tracks c t ⟨store, t, [], []⟩ where
  marked := by
    constructor
    · exact .inl
    · rintro (h | ⟨e, he, -⟩)
      · exact h
      · cases he
  failed := by
    rintro ⟨e, he, -⟩
    cases he

theorem Executed.tracks (h : Executed aes c t s) : Tracks c t s := by
  cases h with
  | send h => exact Tracks.among h (tracks_start c t _)
  | swept h => exact Tracks.among h (tracks_start c t _)
  | adapterRun h => exact Tracks.among h (tracks_start c t _)

end Executions

/-- **A failed grant is reported exactly where Google refused to refresh it**, or where the connection was marked
before. -/
theorem reported_iff {σ : Type} {aes : AESGCM} {c : Nat} {connections : Rows} {s : Site σ}
    (h : Executed aes c connections s) :
    Reported c connections s ↔ (Failed c s → Marked c connections ∨ Refused c s) := by
  have ht := h.tracks
  constructor
  · rintro hr ⟨exc, hexc, hclass⟩
    exact ht.marked.1 (hr.marks exc hexc hclass)
  · intro hcond
    refine ⟨fun exc hexc hclass => ht.marked.2 (hcond ⟨exc, hexc, hclass⟩), fun hm => ?_⟩
    exact (ht.marked.1 hm).imp_right ht.failed

/-! ## Two sends -/

def registered : ProviderKind → Calls
  | .gmail => Gmail.calls
  | .slack => Slack.calls

def sampleRing : Keyring := .single 1 (Connections.sampleKey 1)

/-- Connection 0, with the tokens of the grant. -/
def connected (provider : ProviderKind) (grant : Connections.Grant) : Rows :=
  match Connections.upsert .plain sampleRing (Connections.sampleEnv 0).nonces 1 provider grant none .empty with
  | .ok (_, t) => t
  | .error _ => .empty

/-- Send 0, on connection 0, not attempted yet. -/
def confirmed (provider : ProviderKind) (recipient : String) : Send.Store where
  drafts := Table.empty.insert ⟨1, 0, provider, recipient, recipient, none, "hello", Send.sampleKey⟩
  sends := Table.empty.insert
    { userId := 1, draftId := 0, connectionId := 0, provider := provider, idempotencyKey := Send.sampleKey
      confirmedSha256 := Send.confirmationDigest provider recipient recipient none "hello", createdAt := 0 }

def sampleJob : ClaimedJob := ⟨0, .send, 0, 1, 6, none, none, some "host:1", none, none⟩

def sampleNonces : TokenColumn → Nonce := (Connections.sampleEnv 0).nonces

def failsAt (c : Nat) (s : Site Send.Store) : Bool := s.failures.any fun f => f.1 == c && classify f.2 == .needsReconnect

theorem failed_of_failsAt {c : Nat} {s : Site Send.Store} (h : failsAt c s = true) : Failed c s := by
  obtain ⟨⟨id, exc⟩, hexc, hf⟩ := List.any_eq_true.1 h
  rw [Bool.and_eq_true, beq_iff_eq, beq_iff_eq] at hf
  obtain ⟨rfl, hclass⟩ := hf
  exact ⟨exc, hexc, hclass⟩

theorem executed_of_runWith {aes : AESGCM} {settings : Settings} {providers : ProviderKind → Calls} {job : ClaimedJob}
    {store : Send.Store} {connections : Rows} {c : Nat} {es : List (StepEnv Send.Env)} {a : Except Exn Unit}
    {t : Site Send.Store}
    (h : (sendJob providers job).runWith ((gate settings).siteSem aes) es ⟨store, connections, [], []⟩ = some (a, t)) :
    Executed aes c connections t :=
  .send (Prog.among_of_runs (c := working (gate settings) aes c) (fun _ _ _ => trivial) (Prog.runs_of_runWith h))

/-- A Gmail connection with a refresh token and no access token. -/
def refreshable : Rows := connected .gmail { externalAccountId := "7", displayName := "Acme", refreshToken := .str "r1" }

/-- Google refuses the refresh. -/
def refusedRefresh : List (StepEnv Send.Env) :=
  [.store .none, .store .none, .client (.read sampleRing 0),
    .client (.answered sampleRing 0 sampleNonces (.error (.provider { provider := "google", code := "invalid_grant" }))),
    .client .none, .client .none, .store .none]

theorem reported_refusal : ∃ a t, (sendJob registered sampleJob).runWith ((gate {}).siteSem .plain) refusedRefresh
      ⟨confirmed .gmail "dana@example.org", refreshable, [], []⟩ = some (a, t) ∧ Failed 0 t ∧ Marked 0 t.connections ∧
    (Reported 0 refreshable t ↔ (Failed 0 t → Marked 0 refreshable ∨ Refused 0 t)) := by
  have hrun : ((sendJob registered sampleJob).runWith ((gate {}).siteSem .plain) refusedRefresh
      ⟨confirmed .gmail "dana@example.org", refreshable, [], []⟩).any (fun r =>
        failsAt 0 r.2 && statusOf r.2.connections 0 == some .needsReconnect) = true := by decide +kernel
  obtain ⟨⟨a, t⟩, hrun, hp⟩ := (Option.any_eq_true _ _).1 hrun
  rw [Bool.and_eq_true, beq_iff_eq] at hp
  exact ⟨a, t, hrun, failed_of_failsAt hp.1, hp.2, reported_iff (executed_of_runWith hrun)⟩

/-- A Slack connection with a bot token. -/
def installed : Rows := connected .slack { externalAccountId := "T1", displayName := "Acme", botToken := .str "b1" }

def invalidAuth : Providers.Response where
  status := 200
  body := .json (.obj [("ok", .bool false), ("error", .str "invalid_auth")] "")

/-- Slack answers the post that the token is not valid. -/
def refusedPost : List (StepEnv Send.Env) :=
  [.store .none, .store .none, .store .none, .store .none, .store .none, .client (.read sampleRing 0),
    .client (.response (.ok invalidAuth)), .client .none, .client .none, .store .none]

/-- The send fails for good, and its connection goes on as active. -/
theorem revoked_unmarked :
    ¬ ∀ (c : Nat) (connections : Rows) (t : Site Send.Store), Executed .plain c connections t → Reported c connections t := by
  intro hclaim
  have hrun : ((sendJob registered sampleJob).runWith ((gate {}).siteSem .plain) refusedPost
      ⟨confirmed .slack "#sales", installed, [], []⟩).any (fun r =>
        failsAt 0 r.2 && statusOf r.2.connections 0 == some .active) = true := by decide +kernel
  obtain ⟨⟨a, t⟩, hrun, hp⟩ := (Option.any_eq_true _ _).1 hrun
  rw [Bool.and_eq_true, beq_iff_eq] at hp
  obtain ⟨exc, hexc, hclass⟩ := failed_of_failsAt hp.1
  have hmarked : Marked 0 t.connections := (hclaim 0 installed t (executed_of_runWith hrun)).marks exc hexc hclass
  rw [Marked, hp.2] at hmarked
  cases hmarked

end Client
end SafeSend
