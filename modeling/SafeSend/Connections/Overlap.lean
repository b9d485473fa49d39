import SafeSend.Connections.KeyVersions
/-!
# Refreshes and their overlaps

A refresh reads its row before it calls Google and writes it after; only other calls of `get_token` wait for its lock.
What the owner does in between, disconnecting or reconnecting, is there when the refresh writes, and the write does not
look at it.
-/
namespace SafeSend
namespace Connections

open Lib Crypto
open Text (Bytes)

variable {aes : AESGCM} {w u : World} {a : Action} {n : Nat}

def Json.isStr : Json → Bool
  | .str _ => true
  | _ => false

/-- A completed authorization lands on the connection. -/
def reconnects (aes : AESGCM) (w : World) (n : Nat) (a : Action) : Bool :=
  match a with
  | .authorize _ _ _ _ _ => (delivery aes w a).any fun d => d.1 == n
  | _ => false

/-! ## Disconnecting -/

def Disconnected (c : ConnectionRow) : Prop := (∀ column, c.ct column = none) ∧ c.status = .needsReconnect

/-- Google answers a refresh of the connection with a token. -/
def revives (aes : AESGCM) (w : World) (n : Nat) (a : Action) : Bool :=
  match a with
  | .answer _ _ _ => (delivery aes w a).any fun d => d.1 == n &&
      [TokenColumn.accessTokenCt, .refreshTokenCt, .botTokenCt].any fun column => (d.2 column).isStr
  | _ => false

theorem revives_of_str {p : Nat} {e : Env} {x : Except Exn Payload} {tokens : TokenColumn → Json}
    {column : TokenColumn} {s : String} (hd : delivery aes w (.answer p e x) = some (n, tokens))
    (hs : tokens column = .str s) : revives aes w n (.answer p e x) = true := by
  have hmem : column ∈ [TokenColumn.accessTokenCt, .refreshTokenCt, .botTokenCt] := by cases column <;> decide
  simp only [revives, hd, Option.any_some, beq_self_eq_true, Bool.true_and]
  exact List.any_eq_true.2 ⟨column, hmem, by rw [hs]; rfl⟩

/-- Until a reconnect, and while no refresh under way is given a token. -/
def severed (aes : AESGCM) (n : Nat) (w : World) (a : Action) : Bool :=
  !reconnects aes w n a && !revives aes w n a

/-- **A disconnected row stays one.** -/
theorem Disconnected.step {c : ConnectionRow} (hc : Disconnected c) (hget : w.connections.get n = some c)
    (hok : severed aes n w a = true) (h : step aes w a = some u) :
    ∃ c', u.connections.get n = some c' ∧ Disconnected c' := by
  obtain ⟨c', hc', hm⟩ := step_get h hget
  refine ⟨c', hc', ?_⟩
  simp only [severed, Bool.and_eq_true, Bool.not_eq_true'] at hok
  obtain ⟨hct, hst⟩ := hc
  cases hm with
  | same => exact ⟨hct, hst⟩
  | adopted => exact ⟨hct, hst⟩
  | landed account hd =>
    have hrec := hok.1
    simp only [reconnects, hd, Option.any_some, beq_self_eq_true] at hrec
    cases hrec
  | persisted hcall hd hs =>
    refine ⟨fun column => ?_, hst⟩
    rcases sealToken_eq_ok (sealTokens_eq_ok hs column) with ⟨-, hr⟩ | ⟨s, blob, hstr, -, -⟩
    · show Option.or _ (c.ct column) = none
      rw [hr, hct, Option.or_none]
    · cases (revives_of_str hd hstr).symm.trans hok.2
  | revoked => exact ⟨hct, rfl⟩
  | expired => exact ⟨hct, hst⟩
  | succeeded hne => exact absurd hst hne
  | disconnected => exact ⟨fun _ => rfl, rfl⟩
  | rotated hlt hr =>
    obtain ⟨⟨ct, rfl⟩, hcols⟩ := rotateRow_eq_ok hr
    refine ⟨fun column => ?_, hst⟩
    rcases hcols column with ⟨-, hnone⟩ | ⟨blob, -, -, hb, -⟩
    · exact hnone
    · cases (hct column).symm.trans hb

theorem token_disconnected {c : ConnectionRow} (hc : ∀ column, c.ct column = none) (ring : Keyring)
    (column : TokenColumn) : c.token aes ring n column = .ok none := by
  unfold ConnectionRow.token
  rw [hc]

/-- A call that reads a disconnected row raises. -/
theorem getToken_disconnected {c : ConnectionRow} (hc : ∀ column, c.ct column = none) {ring : Keyring} {now : Int}
    {kind : TokenKind} {progress : Progress} : getToken aes ring now n (some c) kind ≠ .ok progress := by
  intro h
  unfold getToken at h
  simp only [token_disconnected hc, stored, beginRefresh] at h
  split at h
  · cases h
  · split at h <;> cases h

/-- **No call returns a token from a disconnected row.** -/
theorem returned_disconnected {c : ConnectionRow} (hc : Disconnected c) (hget : w.connections.get n = some c)
    (hok : severed aes n w a = true) (h : step aes w a = some u) {p : Nat} {kind : TokenKind} {token : String}
    (hp : u.calls.get p = some ⟨n, kind, .returned token⟩) : w.calls.get p = some ⟨n, kind, .returned token⟩ := by
  rcases step_call h hp with hp | ⟨id, k, -, he⟩ | ⟨e, id, k, -, -, he⟩ | ⟨e, x, id, k, d, t, rfl, hcall, he⟩
  · exact hp
  · cases he
  · simp only [Call.mk.injEq] at he
    obtain ⟨rfl, rfl, hs⟩ := he
    rw [hget] at hs
    cases hg : getToken aes (w.ring e.age) e.now n (some c) kind with
    | error x =>
      rw [hg] at hs
      cases hs
    | ok progress => exact absurd hg (getToken_disconnected hc.1)
  · simp only [Call.mk.injEq] at he
    obtain ⟨rfl, rfl, hs⟩ := he
    have hdel := hok
    simp only [severed, Bool.and_eq_true, Bool.not_eq_true'] at hdel
    rcases finishRefresh_cases aes (w.ring e.age) e.nonces e.now n d x w.connections with
      ⟨⟨y, hf⟩, -⟩ | ⟨y, -, -, hf⟩ | ⟨payload, grant, sealed, rfl, hg, -, hper, hf⟩
    · rw [hf] at hs
      cases hs
    · rw [hf] at hs
      cases hs
    · rw [hf] at hs
      cases hres : refreshed n grant with
      | error y =>
        rw [hres] at hs
        cases hs
      | ok s =>
        have hd : delivery aes w (.answer p e (.ok payload)) = some (n, carried .gmail payload) := by
          simp only [delivery, hcall, hg, hper]
        have hstr := refreshed_eq_ok hres
        rw [show grant.accessToken = carried .gmail payload .accessTokenCt from token_grantFrom hg .accessTokenCt] at hstr
        cases (revives_of_str hd hstr).symm.trans hdel.2

/-- **Disconnect is final until reconnect**, in every run in which no refresh that was under way is given a token. -/
theorem disconnect_final {first : Keyring} {w₀ w t : World} {n userId : Nat}
    (hcut : cuts w₀ n (.disconnect n userId) = true) (hstep : step aes w₀ (.disconnect n userId) = some w)
    (hrun : (system aes first).Steps (fun w a => severed aes n w a = true) w t) :
    (∃ c, t.connections.get n = some c ∧ Disconnected c) ∧
      ∀ a u, severed aes n t a = true → step aes t a = some u → ∀ p kind token,
        u.calls.get p = some ⟨n, kind, .returned token⟩ → t.calls.get p = some ⟨n, kind, .returned token⟩ := by
  have hstart : ∃ c, w.connections.get n = some c ∧ Disconnected c := by
    simp only [cuts, Bool.and_eq_true] at hcut
    obtain ⟨c, hget, hu⟩ := Table.affected_iff.1 hcut.2
    cases hstep
    exact ⟨disconnectRow c, Table.get_updateWhere_hit disconnectRow hget hu, fun _ => rfl, rfl⟩
  have hend : ∃ c, t.connections.get n = some c ∧ Disconnected c := by
    refine Machine.Steps.keep (I := fun w => ∃ c, w.connections.get n = some c ∧ Disconnected c) ?_ hrun hstart
    rintro s a u ⟨c, hget, hc⟩ hok hst
    exact hc.step hget hok hst
  refine ⟨hend, fun a u hok hst p kind token hp => ?_⟩
  obtain ⟨c, hget, hc⟩ := hend
  exact returned_disconnected hc hget hok hst hp

/-! The sample connection's access token has expired, and a refresh has read the row. -/

def sampleLater : Env := sampleEnv (3600 * SECOND)

def openRefresh : List Action :=
  [.authorize (sampleEnv 0) 0 .gmail consented none, .call 0 .oauth, .read 0 sampleLater]

def revokedGrant : Exn := .provider { provider := "google", code := "invalid_grant", status := some 400 }

/-- The refresh that was under way is refused; a later call finds nothing. -/
theorem disconnect_final_refused : ∃ w₀ w t, sample.exec sample.init openRefresh = some w₀ ∧
    step .plain w₀ (.disconnect 0 0) = some w ∧
    sample.exec w [.answer 0 sampleLater (.error revokedGrant), .call 0 .oauth, .read 1 sampleLater] = some t ∧
    ∃ c, t.connections.get 0 = some c ∧ Disconnected c := by
  let post : List Action := [.answer 0 sampleLater (.error revokedGrant), .call 0 .oauth, .read 1 sampleLater]
  have hend : ((sample.exec sample.init openRefresh).any fun w₀ => (step .plain w₀ (.disconnect 0 0)).any fun w =>
      cuts w₀ 0 (.disconnect 0 0) && (sample.exec w post).isSome && sample.allowed (severed .plain 0) w post) = true := by
    decide
  simp only [Option.any_eq_true, Bool.and_eq_true] at hend
  obtain ⟨w₀, h₀, w, hw, ⟨hcut, hsome⟩, hal⟩ := hend
  obtain ⟨t, ht⟩ := Option.isSome_iff_exists.1 hsome
  exact ⟨w₀, w, t, h₀, hw, ht, (disconnect_final hcut hw (Machine.Steps.of_exec (fun _ _ h => h) ht hal)).1⟩

def Stage.token : Stage → Option String
  | .returned token => some token
  | _ => none

def Stage.isWaiting : Stage → Bool
  | .waiting => true
  | _ => false

def Call.asks (id : Nat) (kind : TokenKind) (c : Call) : Bool := c.connectionId == id && c.kind == kind

theorem Stage.eq_of_token {st : Stage} {token : String} (h : st.token = some token) : st = .returned token := by
  cases st with
  | returned s =>
    cases h
    rfl
  | _ => cases h

theorem Stage.eq_of_isWaiting {st : Stage} (h : st.isWaiting = true) : st = .waiting := by
  cases st with
  | waiting => rfl
  | _ => cases h

theorem Call.eq_of_asks {c : Call} {id : Nat} {kind : TokenKind} (h : c.asks id kind = true) : c = ⟨id, kind, c.stage⟩ := by
  obtain ⟨connectionId, k, st⟩ := c
  simp only [Call.asks, Bool.and_eq_true, beq_iff_eq] at h
  rw [h.1, h.2]

/-- The refresh that was under way is given a token: the column is no longer empty, and the next call returns it. -/
theorem refresh_outlives_disconnect : ∃ w₀ w t u, sample.Reach (fun _ _ => True) w₀ ∧
    cuts w₀ 0 (.disconnect 0 0) = true ∧ step .plain w₀ (.disconnect 0 0) = some w ∧
    sample.Steps (fun w a => reconnects .plain w 0 a = false) w t ∧
    (∀ c, t.connections.get 0 = some c → ¬ Disconnected c) ∧ step .plain t (.read 1 sampleLater) = some u ∧
    (∃ token, u.calls.get 1 = some ⟨0, .oauth, .returned token⟩) ∧ t.calls.get 1 = some ⟨0, .oauth, .waiting⟩ := by
  let post : List Action := [.answer 0 sampleLater (.ok renewed), .call 0 .oauth]
  have hend : ((sample.exec sample.init openRefresh).any fun w₀ => (step .plain w₀ (.disconnect 0 0)).any fun w =>
      (sample.exec w post).any fun t => (step .plain t (.read 1 sampleLater)).any fun u =>
        cuts w₀ 0 (.disconnect 0 0) && sample.allowed (fun w a => !reconnects .plain w 0 a) w post &&
        (t.connections.get 0).all (fun c => (c.ct .accessTokenCt).isSome) &&
        (u.calls.get 1).any (fun c => c.asks 0 .oauth && c.stage.token.isSome) &&
        (t.calls.get 1).any (fun c => c.asks 0 .oauth && c.stage.isWaiting)) = true := by
    decide
  simp only [Option.any_eq_true, Bool.and_eq_true] at hend
  obtain ⟨w₀, h₀, w, hw, t, ht, u, hu, ⟨⟨⟨hcut, hal⟩, hct⟩, hret⟩, hwait⟩ := hend
  refine ⟨w₀, w, t, u, Machine.Steps.of_exec_any h₀, hcut, hw,
    Machine.Steps.of_exec (fun _ _ h => by simpa using h) ht hal, ?_, hu, ?_, ?_⟩
  · rintro c hc ⟨hnone, -⟩
    rw [hc, Option.all_some, hnone] at hct
    cases hct
  · obtain ⟨c, hc, hreads, htoken⟩ := hret
    obtain ⟨token, htoken⟩ := Option.isSome_iff_exists.1 htoken
    exact ⟨token, by rw [hc, Call.eq_of_asks hreads, Stage.eq_of_token htoken]⟩
  · obtain ⟨c, hc, hreads, hw⟩ := hwait
    rw [hc, Call.eq_of_asks hreads, Stage.eq_of_isWaiting hw]

/-! ## Reconnecting -/

/-- A refresh of the connection is under way. -/
def underWay (w : World) (n p : Nat) : Bool := (w.calls.get p).any fun c => c.connectionId == n && c.refreshing

/-- The step breaks the connection or changes its access token. -/
def disturbs (aes : AESGCM) (n : Nat) (w : World) (a : Action) : Bool :=
  (w.connections.get n).any fun c => ((step aes w a).bind fun u => u.connections.get n).any fun c' =>
    (c'.status == .needsReconnect && c.status != .needsReconnect) || c'.ct .accessTokenCt != c.ct .accessTokenCt

/-- From a state on, with the steps noted that break the connection or change its access token. -/
def observed (aes : AESGCM) (n : Nat) (w : World) : Machine (World × List Action) Action :=
  Machine.withHistory ⟨w, step aes⟩ (fun w a seen => if disturbs aes n w a then a :: seen else seen) []

/-- Google neither refuses a refresh that was under way in `w` as revoked nor answers it with an access token. -/
def spares (aes : AESGCM) (w : World) (n : Nat) (s : World) (a : Action) : Bool :=
  match a with
  | .answer p _ x => !underWay w n p ||
      ((match x with
        | .error (.provider y) => classify (.provider y) != .needsReconnect
        | _ => true) &&
      (delivery aes s a).all fun d => !(d.2 .accessTokenCt).isStr)
  | _ => true

/-- **A refresh that is spared disturbs nothing.** -/
theorem disturbs_of_spares {s : World} {p : Nat} {e : Env} {x : Except Exn Payload} (hw : underWay w n p = true)
    (hok : spares aes w n s (.answer p e x) = true) : disturbs aes n s (.answer p e x) = false := by
  rw [Bool.eq_false_iff]
  intro hd
  simp only [disturbs, Option.any_eq_true, Option.bind_eq_some_iff] at hd
  obtain ⟨c, hget, c', ⟨u, hst, hc'⟩, hch⟩ := hd
  obtain ⟨d, hd, hm⟩ := step_get hst hget
  cases hc'.symm.trans hd
  simp only [spares, hw, Bool.not_true, Bool.false_or, Bool.and_eq_true] at hok
  cases hm with
  | same => simp at hch
  | persisted hcall hdel hs =>
    have hno := hok.2
    rw [hdel, Option.all_some, Bool.not_eq_true'] at hno
    rcases sealToken_eq_ok (sealTokens_eq_ok hs .accessTokenCt) with ⟨-, hr⟩ | ⟨v, blob, hstr, -, -⟩
    · simp [persistRow, hr] at hch
    · simp only [hstr] at hno
      cases hno
  | revoked hcall hx hrev =>
    have hno := hok.1
    rw [hx] at hno
    simp only [hrev, bne_self_eq_false, Bool.false_eq_true] at hno

/-- A row that no noted step has touched is active, with the access token it had. -/
def Standing (w : World) (n : Nat) (s : World) : Prop := ∃ c c', w.connections.get n = some c ∧
  s.connections.get n = some c' ∧ c'.status = .active ∧ c'.ct .accessTokenCt = c.ct .accessTokenCt

/-- **A step that disturbs nothing leaves a standing connection standing.** -/
theorem Standing.step {s t : World} (hs : Standing w n s) (hd : disturbs aes n s a = false)
    (h : step aes s a = some t) : Standing w n t := by
  obtain ⟨b, c, hb, hc, hst, hct⟩ := hs
  obtain ⟨c', hc', hm⟩ := step_get h hc
  have hkeep : ¬ (c'.status = .needsReconnect ∧ c.status ≠ .needsReconnect) ∧
      c'.ct .accessTokenCt = c.ct .accessTokenCt := by
    simp only [disturbs, hc, h, Option.any_some, Option.bind_some, hc', Bool.or_eq_false_iff] at hd
    refine ⟨fun ⟨h1, h2⟩ => ?_, by simpa using hd.2⟩
    have := hd.1
    rw [h1, bne_iff_ne.2 h2] at this
    cases this
  refine ⟨b, c', hb, hc', ?_, hkeep.2.trans hct⟩
  cases hm with
  | same => exact hst
  | adopted => exact hst
  | landed => rfl
  | persisted => exact hst
  | revoked => exact absurd ⟨rfl, by rw [hst]; exact nofun⟩ hkeep.1
  | expired => exact hst
  | succeeded => rfl
  | disconnected => exact absurd ⟨rfl, by rw [hst]; exact nofun⟩ hkeep.1
  | rotated hlt hr =>
    obtain ⟨⟨ct, rfl⟩, -⟩ := rotateRow_eq_ok hr
    exact hst

/-- What an authorization lands on is active. -/
theorem standing_of_reconnects {w₀ : World} (hr : reconnects aes w₀ n a = true) (h : step aes w₀ a = some w) :
    Standing w n w := by
  cases a with
  | authorize e userId provider payload r =>
    obtain ⟨⟨m, tokens⟩, hdel, hm⟩ := Option.any_eq_true _ _ |>.1 hr
    cases eq_of_beq hm
    obtain ⟨c', hc'⟩ := authorized_get hdel h
    obtain ⟨c, -, hmove⟩ := step_of_get h hc'
    cases hmove with
    | same hd => exact absurd hdel (hd tokens)
    | adopted account hd => exact absurd hdel (hd tokens)
    | landed => exact ⟨_, _, hc', hc', rfl, rfl⟩
  | _ => cases hr

/-- **A completed reconnect is not undone by an older refresh**, in every run in which Google answers the refreshes that
were under way neither with a revocation nor with an access token: whatever breaks the connection afterwards or
replaces its access token is something newer, and until then the connection stands as the authorization left it. -/
theorem reconnect_stands {w₀ w : World} {n : Nat} {a : Action} {s : World × List Action}
    (hr : reconnects aes w₀ n a = true) (h : step aes w₀ a = some w)
    (hrun : (observed aes n w).Reach (fun s a => spares aes w n s.1 a = true) s) :
    (∀ p e x, Action.answer p e x ∈ s.2 → underWay w n p = false) ∧ (s.2 = [] → Standing w n s.1) := by
  refine Machine.Reach.inv (I := fun s => (∀ p e x, Action.answer p e x ∈ s.2 → underWay w n p = false) ∧
    (s.2 = [] → Standing w n s.1)) ?_ ?_ hrun
  · exact ⟨nofun, fun _ => standing_of_reconnects hr h⟩
  · rintro s b t - ⟨hold, hstand⟩ hok hst
    obtain ⟨hstep, hnote⟩ := Machine.withHistory_step hst
    rw [hnote]
    by_cases hd : disturbs aes n s.1 b = true
    · rw [if_pos hd]
      refine ⟨fun p e x hmem => ?_, nofun⟩
      rcases List.mem_cons.1 hmem with rfl | hmem
      · rw [Bool.eq_false_iff]
        intro hw
        rw [disturbs_of_spares hw hok] at hd
        cases hd
      · exact hold p e x hmem
    · rw [if_neg hd]
      exact ⟨hold, fun hnil => (hstand hnil).step (Bool.eq_false_iff.2 hd) hstep⟩

/-- The authorization that repairs the connection. -/
def repaired : Payload :=
  { fields := [("access_token", .str "a3"), ("refresh_token", .str "r3")], claims := [("sub", .str "7")]
    expiresIn := some 3600 }

def repair : Action := .authorize sampleLater 0 .gmail repaired (some 0)

/-- The refresh that was under way times out. -/
theorem reconnect_stands_timeout : ∃ w₀ w s, sample.exec sample.init openRefresh = some w₀ ∧
    step .plain w₀ repair = some w ∧
    (observed .plain 0 w).exec (w, []) [.answer 0 sampleLater (.error (.transport "timed out"))] = some s ∧
    (∀ p e x, Action.answer p e x ∈ s.2 → underWay w 0 p = false) ∧ (s.2 = [] → Standing w 0 s.1) := by
  let post : List Action := [.answer 0 sampleLater (.error (.transport "timed out"))]
  have hend : ((sample.exec sample.init openRefresh).any fun w₀ => (step .plain w₀ repair).any fun w =>
      reconnects .plain w₀ 0 repair && ((observed .plain 0 w).exec (w, []) post).isSome &&
        (observed .plain 0 w).allowed (fun s a => spares .plain w 0 s.1 a) (w, []) post) = true := by
    decide
  simp only [Option.any_eq_true, Bool.and_eq_true] at hend
  obtain ⟨w₀, h₀, w, hw, ⟨hr, hsome⟩, hal⟩ := hend
  obtain ⟨s, hs⟩ := Option.isSome_iff_exists.1 hsome
  exact ⟨w₀, w, s, h₀, hw, hs, reconnect_stands hr hw (Machine.Steps.of_exec (fun _ _ h => h) hs hal)⟩

/-- Google refuses the refresh that was under way with the old grant, and the repaired connection is shown broken. -/
theorem refresh_undoes_reconnect : ∃ w₀ w s, sample.Reach (fun _ _ => True) w₀ ∧
    reconnects .plain w₀ 0 repair = true ∧ step .plain w₀ repair = some w ∧
    (observed .plain 0 w).Reach (fun _ _ => True) s ∧
    (∃ e x, Action.answer 0 e x ∈ s.2) ∧ underWay w 0 0 = true ∧
    ∃ c, s.1.connections.get 0 = some c ∧ c.status = .needsReconnect := by
  let post : List Action := [.answer 0 sampleLater (.error revokedGrant)]
  have hend : ((sample.exec sample.init openRefresh).any fun w₀ => (step .plain w₀ repair).any fun w =>
      ((observed .plain 0 w).exec (w, []) post).any fun s =>
        reconnects .plain w₀ 0 repair && underWay w 0 0 &&
        s.2.any (fun
          | .answer 0 _ _ => true
          | _ => false) &&
        (s.1.connections.get 0).any (fun c => c.status == .needsReconnect)) = true := by
    decide
  simp only [Option.any_eq_true, Bool.and_eq_true, List.any_eq_true, beq_iff_eq] at hend
  obtain ⟨w₀, h₀, w, hw, s, hs, ⟨⟨hr, hway⟩, b, hb, hans⟩, c, hc, hst⟩ := hend
  refine ⟨w₀, w, s, Machine.Steps.of_exec_any h₀, hr, hw, Machine.Steps.of_exec_any hs, ?_, hway, c, hc, hst⟩
  split at hans
  next e x => exact ⟨e, x, hb⟩
  · cases hans

end Connections
end SafeSend
