import SafeSend.Connections.System
/-!
# What a step does to a connection

One inversion of `step`, read at one row: every law about a connection is a case analysis of `RowMove`.
-/
namespace SafeSend
namespace Connections

open Lib Crypto

variable {aes : AESGCM}

/-- The payload a step stores, by column, and the connection it is stored on. -/
def delivery (aes : AESGCM) (w : World) : Action → Option (Nat × (TokenColumn → Json))
  | .authorize e userId provider payload r =>
    match authorize aes (w.ring e.age) e userId provider payload r w.connections with
    | .ok (n, _) => some (n, carried provider payload)
    | .error _ => none
  | .answer p e (.ok payload) =>
    match w.calls.get p with
    | some ⟨n, _, .refreshing connection _⟩ =>
      match grantFrom .gmail e.now payload true with
      | .error _ => none
      | .ok grant =>
        match persistTokens aes (w.ring e.age) e.nonces n connection.provider grant w.connections with
        | .ok _ => some (n, carried .gmail payload)
        | .error _ => none
    | _ => none
  | _ => none

/-- A step disconnects the connection: its owner asked for it. -/
def cuts (w : World) (n : Nat) : Action → Bool
  | .disconnect id userId => id == n && w.connections.affected id fun c => c.userId == userId
  | _ => false

/-- **What a step can do to the row of a connection.**  The row an authorization lands on may be a new one, which is
then the blank row before its tokens are stored. -/
inductive RowMove (aes : AESGCM) (w : World) : Action → Nat → ConnectionRow → ConnectionRow → Prop
  | same {a : Action} {n : Nat} {c : ConnectionRow} (hd : ∀ tokens, delivery aes w a ≠ some (n, tokens))
      (hc : cuts w n a = false) : RowMove aes w a n c c
  | adopted {e : Env} {userId : Nat} {provider : ProviderKind} {payload : Payload} {r : Option Nat} {n : Nat}
      {c : ConnectionRow} (account : String)
      (hd : ∀ tokens, delivery aes w (.authorize e userId provider payload r) ≠ some (n, tokens)) :
      RowMove aes w (.authorize e userId provider payload r) n c { c with externalAccountId := account }
  | landed {e : Env} {userId : Nat} {provider : ProviderKind} {payload : Payload} {r : Option Nat} {n : Nat}
      {c : ConnectionRow} {grant : Grant} {sealed : TokenColumn → Option Text.Bytes} (account : String)
      (hd : delivery aes w (.authorize e userId provider payload r) = some (n, grant.token)) (hp : c.provider = provider)
      (hs : sealTokens aes (w.ring e.age) e.nonces n provider grant = .ok sealed) :
      RowMove aes w (.authorize e userId provider payload r) n c
        (persistRow (w.ring e.age) sealed grant (reconnectedRow grant { c with externalAccountId := account }))
  | persisted {p : Nat} {e : Env} {answer : Except Exn Payload} {n : Nat} {kind : TokenKind} {c connection : ConnectionRow}
      {refreshToken : String} {grant : Grant} {sealed : TokenColumn → Option Text.Bytes}
      (hc : w.calls.get p = some ⟨n, kind, .refreshing connection refreshToken⟩)
      (hd : delivery aes w (.answer p e answer) = some (n, grant.token))
      (hs : sealTokens aes (w.ring e.age) e.nonces n connection.provider grant = .ok sealed) :
      RowMove aes w (.answer p e answer) n c (persistRow (w.ring e.age) sealed grant c)
  | revoked {p : Nat} {e : Env} {answer : Except Exn Payload} {n : Nat} {kind : TokenKind} {c connection : ConnectionRow}
      {refreshToken : String} {x : ProviderError}
      (hc : w.calls.get p = some ⟨n, kind, .refreshing connection refreshToken⟩)
      (ha : answer = .error (.provider x)) (hx : classify (.provider x) = .needsReconnect) :
      RowMove aes w (.answer p e answer) n c (revokedRow x.str c)
  | expired {now : Int} {n : Nat} {c : ConnectionRow} :
      RowMove aes w (.expireAccessToken now n) n c { c with accessExpiresAt := some (now - SECOND) }
  | succeeded {n : Nat} {c : ConnectionRow} (h : c.status ≠ .needsReconnect) :
      RowMove aes w (.recordSuccess n) n c (successRow c)
  | disconnected {n : Nat} {c : ConnectionRow} (hget : w.connections.get n = some c) :
      RowMove aes w (.disconnect n c.userId) n c (disconnectRow c)
  | rotated {age : Nat} {nonces : Nat → TokenColumn → Nonce} {locked : Nat → Bool} {batch n : Nat} {c c' : ConnectionRow}
      (hlt : c.keyVersion < (w.ring age).current)
      (hr : rotateRow aes (w.ring age) (nonces n) n c = .ok (some c')) :
      RowMove aes w (.rotate age nonces locked batch) n c c'

/-! ## One lemma for each transaction -/

theorem authorize_eq_ok {ring : Keyring} {e : Env} {userId n : Nat} {provider : ProviderKind} {payload : Payload}
    {r : Option Nat} {t t' : Rows} (h : authorize aes ring e userId provider payload r t = .ok (n, t')) :
    ∃ grant, grantFrom provider e.now payload false = .ok grant ∧
      upsert aes ring e.nonces userId provider grant r t = .ok (n, t') := by
  unfold authorize at h
  cases hg : grantFrom provider e.now payload false with
  | error x =>
    rw [hg] at h
    cases h
  | ok grant =>
    rw [hg] at h
    simp only at h
    split at h
    · cases h
    next r' hu =>
      cases h
      exact ⟨grant, rfl, hu⟩

theorem refreshed_eq_ok {id : Nat} {grant : Grant} {s : String} (h : refreshed id grant = .ok s) :
    grant.accessToken = .str s := by
  unfold refreshed at h
  split at h
  next s' hs =>
    split at h
    · cases h
    · cases h
      exact hs
  next => cases h

theorem provider_of_refreshAccessToken {now : Int} {answer : Except Exn Payload} {x : ProviderError}
    (h : refreshAccessToken now answer = .error (.provider x)) : answer = .error (.provider x) := by
  unfold refreshAccessToken at h
  cases answer with
  | error y =>
    cases h
    rfl
  | ok payload =>
    simp only [grantFrom, googleGrant] at h
    cases he : expiry now payload.expiresIn with
    | ok expires =>
      rw [he] at h
      cases h
    | error y =>
      rw [he] at h
      cases h
      unfold expiry at he
      split at he
      · cases he
      · simp only at he
        split at he <;> cases he

/-- **What Google's answer comes to**: nothing is written, the connection is marked, or the grant is stored. -/
theorem finishRefresh_cases (aes : AESGCM) (ring : Keyring) (nonces : TokenColumn → Nonce) (now : Int) (id : Nat)
    (connection : ConnectionRow) (answer : Except Exn Payload) (t : Rows) :
    ((∃ x, finishRefresh aes ring nonces now id connection answer t = (.error x, t)) ∧
      ∀ payload grant t', answer = .ok payload → grantFrom .gmail now payload true = .ok grant →
        persistTokens aes ring nonces id connection.provider grant t ≠ .ok t') ∨
    (∃ x, answer = .error (.provider x) ∧ classify (.provider x) = .needsReconnect ∧
      finishRefresh aes ring nonces now id connection answer t =
        (.error (.needsReconnect id x.str), markNeedsReconnect id x.str t)) ∨
    ∃ payload grant sealed, answer = .ok payload ∧ grantFrom .gmail now payload true = .ok grant ∧
      sealTokens aes ring nonces id connection.provider grant = .ok sealed ∧
      persistTokens aes ring nonces id connection.provider grant t = .ok (t.modify id (persistRow ring sealed grant)) ∧
      finishRefresh aes ring nonces now id connection answer t =
        (refreshed id grant, t.modify id (persistRow ring sealed grant)) := by
  unfold finishRefresh
  cases ha : refreshAccessToken now answer with
  | error x =>
    have hno : ∀ payload grant t', answer = .ok payload → grantFrom .gmail now payload true = .ok grant →
        persistTokens aes ring nonces id connection.provider grant t ≠ .ok t' := by
      rintro payload grant t' rfl hg
      cases ha.symm.trans hg
    cases x with
    | provider x =>
      by_cases hx : classify (.provider x) = .needsReconnect
      · simp only [if_pos hx]
        exact .inr (.inl ⟨x, provider_of_refreshAccessToken ha, hx, rfl⟩)
      · simp only [if_neg hx]
        exact .inl ⟨⟨.provider x, rfl⟩, hno⟩
    | _ => exact .inl ⟨⟨_, rfl⟩, hno⟩
  | ok grant =>
    cases answer with
    | error x => cases ha
    | ok payload =>
      cases hp : persistTokens aes ring nonces id connection.provider grant t with
      | error x =>
        refine .inl ⟨⟨x.toExn, by simp only [hp]⟩, ?_⟩
        intro payload' grant' t' he hg
        cases he
        cases ha.symm.trans hg
        rw [hp]
        exact nofun
      | ok t' =>
        obtain ⟨sealed, hs, -, rfl⟩ := persistTokens_eq_ok hp
        exact .inr (.inr ⟨payload, grant, sealed, rfl, ha, hs, hp, by simp only [hp]⟩)

theorem resealToken_eq_ok {ring : Keyring} {nonces : TokenColumn → Nonce} {n : Nat} {c : ConnectionRow}
    {column : TokenColumn} {r : Reseal} (h : resealToken aes ring nonces n c column = .ok r) (hr : r.isBroken = false) :
    (c.ct column = none ∧ r.ct = none) ∨ ∃ blob s blob', c.ct column = some blob ∧
      decrypt aes blob (aad n c.provider column) ring = .ok s ∧
      encrypt aes (nonces column) s (aad n c.provider column) ring = .ok blob' ∧ r.ct = some blob' := by
  unfold resealToken at h
  cases hc : c.ct column with
  | none =>
    rw [hc] at h
    cases h
    exact .inl ⟨rfl, rfl⟩
  | some blob =>
    rw [hc] at h
    simp only at h
    split at h
    · cases h
      cases hr
    · cases h
      cases hr
    · cases h
    next s hs =>
      split at h
      next blob' hb =>
        cases h
        exact .inr ⟨blob, s, blob', rfl, hs, hb, rfl⟩
      · cases h

/-- **A rotated row is the row re-encrypted**, column by column, and recorded under the current version. -/
theorem rotateRow_eq_ok {ring : Keyring} {nonces : TokenColumn → Nonce} {n : Nat} {c c' : ConnectionRow}
    (h : rotateRow aes ring nonces n c = .ok (some c')) :
    (∃ ct, c' = { c with ct := ct, keyVersion := ring.current }) ∧ ∀ column,
      (c.ct column = none ∧ c'.ct column = none) ∨ ∃ blob s blob', c.ct column = some blob ∧
        decrypt aes blob (aad n c.provider column) ring = .ok s ∧
        encrypt aes (nonces column) s (aad n c.provider column) ring = .ok blob' ∧ c'.ct column = some blob' := by
  unfold rotateRow at h
  cases ha : resealToken aes ring nonces n c .accessTokenCt with
  | error e =>
    rw [ha] at h
    cases h
  | ok access =>
    cases hr : resealToken aes ring nonces n c .refreshTokenCt with
    | error e =>
      rw [ha, hr] at h
      cases h
    | ok refresh =>
      cases hb : resealToken aes ring nonces n c .botTokenCt with
      | error e =>
        rw [ha, hr, hb] at h
        cases h
      | ok bot =>
        rw [ha, hr, hb] at h
        simp only [bind, Except.bind] at h
        split at h
        · cases h
        next hbroken =>
          cases h
          simp only [Bool.or_eq_true, not_or, Bool.not_eq_true] at hbroken
          refine ⟨⟨_, rfl⟩, fun column => ?_⟩
          cases column
          · exact resealToken_eq_ok ha hbroken.1.1
          · exact resealToken_eq_ok hr hbroken.1.2
          · exact resealToken_eq_ok hb hbroken.2

/-- A batch leaves a row as it is, or re-encrypts the row it selected. -/
theorem foldlM_rotateOne {ring : Keyring} {nonces : Nat → TokenColumn → Nonce} (n : Nat) :
    ∀ {l : List (Nat × ConnectionRow)} {t t' : Rows}, l.foldlM (rotateOne aes ring nonces) t = .ok t' →
      t'.get n = t.get n ∨ ∃ c c', (n, c) ∈ l ∧ rotateRow aes ring (nonces n) n c = .ok (some c') ∧
        t'.get n = (t.get n).map fun _ => c'
  | [], t, t', h => by
    cases h
    exact .inl rfl
  | (m, c) :: l, t, t', h => by
    rw [List.foldlM_cons] at h
    unfold rotateOne at h
    simp only [bind, Except.bind] at h
    cases hr : rotateRow aes ring (nonces m) m c with
    | error e =>
      rw [hr] at h
      cases h
    | ok r =>
      rw [hr] at h
      cases r with
      | none =>
        rcases foldlM_rotateOne n h with he | ⟨d, d', hd, hr', he⟩
        · exact .inl he
        · exact .inr ⟨d, d', List.mem_cons_of_mem _ hd, hr', he⟩
      | some c' =>
        rcases foldlM_rotateOne n h with he | ⟨d, d', hd, hr', he⟩
        · by_cases hn : n = m
          · subst hn
            exact .inr ⟨c, c', List.mem_cons_self, hr, by rw [he, Table.get_modify_self]⟩
          · exact .inl (by rw [he, Table.get_modify_of_ne _ _ hn])
        · refine .inr ⟨d, d', List.mem_cons_of_mem _ hd, hr', ?_⟩
          rw [he]
          by_cases hn : n = m
          · subst hn
            rw [Table.get_modify_self, Option.map_map]
            rfl
          · rw [Table.get_modify_of_ne _ _ hn]

theorem rotateBatch_eq_ok {ring : Keyring} {nonces : Nat → TokenColumn → Nonce} {locked : Nat → Bool} {batch : Nat}
    {t t' : Rows} (h : rotateBatch aes ring nonces locked batch t = .ok t') (n : Nat) :
    t'.get n = t.get n ∨ ∃ c c', t.get n = some c ∧ c.keyVersion < ring.current ∧
      rotateRow aes ring (nonces n) n c = .ok (some c') ∧ t'.get n = some c' := by
  unfold rotateBatch at h
  by_cases hf : fitsKeyVersion ring.current = true
  · rw [if_pos hf] at h
    split at h
    next t₁ hfold =>
      cases h
      rcases foldlM_rotateOne n hfold with he | ⟨c, c', hc, hr, he⟩
      · exact .inl he
      · obtain ⟨hrow, hsel⟩ := List.mem_filter.1 (List.mem_of_mem_take hc)
        rw [Bool.and_eq_true, decide_eq_true_eq] at hsel
        have hget := Table.mem_rows.1 hrow
        exact .inr ⟨c, c', hget, hsel.1, hr, by rw [he, hget]; rfl⟩
    next => cases h
  · rw [if_neg hf] at h
    cases h

/-! ## The step -/

theorem undelivered {w : World} {a : Action} {n : Nat} (h : delivery aes w a = none) (tokens : TokenColumn → Json) :
    delivery aes w a ≠ some (n, tokens) := by
  rw [h]
  exact Option.some_ne_none _ |>.symm

/-- **The row before a step and the row after it**, and the move between them. -/
inductive RowStep (aes : AESGCM) (w : World) (t : Rows) (n : Nat) : Action → Prop
  | absent {a : Action} (hw : w.connections.get n = none) (ht : t.get n = none) : RowStep aes w t n a
  | moved {a : Action} {c c' : ConnectionRow} (hw : w.connections.get n = some c) (ht : t.get n = some c')
      (hm : RowMove aes w a n c c') : RowStep aes w t n a
  | created {e : Env} {userId : Nat} {provider : ProviderKind} {payload : Payload} {r : Option Nat} {c c' : ConnectionRow}
      (hw : w.connections.get n = none) (hblank : c.ct = fun _ => none) (ht : t.get n = some c')
      (hm : RowMove aes w (.authorize e userId provider payload r) n c c') :
      RowStep aes w t n (.authorize e userId provider payload r)

section
variable {aes : AESGCM} {w u : World} {a : Action} {t : Rows} {n : Nat}

theorem RowStep.unchanged (ht : t.get n = w.connections.get n) (hd : ∀ tokens, delivery aes w a ≠ some (n, tokens))
    (hc : cuts w n a = false) : RowStep aes w t n a := by
  cases hw : w.connections.get n with
  | none => exact .absent hw (ht.trans hw)
  | some c => exact .moved hw (ht.trans hw) (.same hd hc)

theorem delivery_ne {tokens : TokenColumn → Json} {m : Nat} (h : delivery aes w a = some (m, tokens)) (hne : n ≠ m)
    (tokens' : TokenColumn → Json) : delivery aes w a ≠ some (n, tokens') := by
  rw [h]
  intro hh
  exact hne (Prod.mk.inj (Option.some.inj hh)).1.symm

/-- An authorization lands on one row and may take the account of others. -/
theorem rowStep_authorize {e : Env} {userId : Nat} {provider : ProviderKind} {payload : Payload} {r : Option Nat}
    (h : step aes w (.authorize e userId provider payload r) = some u) (n : Nat) :
    RowStep aes w u.connections n (.authorize e userId provider payload r) := by
  simp only [step] at h
  cases ha : authorize aes (w.ring e.age) e userId provider payload r w.connections with
  | error x =>
    rw [ha] at h
    cases h
    exact .unchanged rfl (fun tokens => by simp only [delivery, ha]; exact nofun) rfl
  | ok res =>
    obtain ⟨id, t⟩ := res
    rw [ha] at h
    cases h
    have hdel : delivery aes w (.authorize e userId provider payload r) = some (id, carried provider payload) := by
      simp only [delivery, ha]
    obtain ⟨grant, hg, hu⟩ := authorize_eq_ok ha
    obtain ⟨⟨c, sealed, hb, hp, hs, -, account, hid⟩, hother⟩ := upsert_eq_ok hu
    by_cases he : n = id
    · subst he
      rw [← funext (token_grantFrom hg)] at hdel
      rcases hb with hw | ⟨hw, hblank⟩
      · exact .moved hw hid (.landed account hdel hp hs)
      · exact .created hw hblank hid (.landed account hdel hp hs)
    · rcases hother n he with hsame | ⟨c, hc, hadopt⟩
      · exact .unchanged hsame (delivery_ne hdel he) rfl
      · exact .moved hc hadopt (.adopted _ (delivery_ne hdel he))

/-- An answer that stores nothing delivers nothing. -/
theorem undelivered_answer {p : Nat} {e : Env} {answer : Except Exn Payload} {id : Nat} {kind : TokenKind}
    {connection : ConnectionRow} {refreshToken : String}
    (hc : w.calls.get p = some ⟨id, kind, .refreshing connection refreshToken⟩)
    (hno : ∀ payload grant t', answer = .ok payload → grantFrom .gmail e.now payload true = .ok grant →
      persistTokens aes (w.ring e.age) e.nonces id connection.provider grant w.connections ≠ .ok t') :
    delivery aes w (.answer p e answer) = none := by
  cases answer with
  | error x => rfl
  | ok payload =>
    simp only [delivery, hc]
    split
    · rfl
    next grant hg =>
      split
      next t' ht => exact absurd ht (hno payload grant t' rfl hg)
      · rfl

/-- Google's answer to a refresh moves the row the refresh is for, or none. -/
theorem rowStep_answer {p : Nat} {e : Env} {answer : Except Exn Payload} {id : Nat} {kind : TokenKind}
    {connection : ConnectionRow} {refreshToken : String}
    (hc : w.calls.get p = some ⟨id, kind, .refreshing connection refreshToken⟩) (n : Nat) :
    RowStep aes w (finishRefresh aes (w.ring e.age) e.nonces e.now id connection answer w.connections).2 n
      (.answer p e answer) := by
  rcases finishRefresh_cases aes (w.ring e.age) e.nonces e.now id connection answer w.connections with
    ⟨⟨x, hf⟩, hno⟩ | ⟨x, ha, hx, hf⟩ | ⟨payload, grant, sealed, ha, hg, hs, hp, hf⟩
  · rw [hf]
    exact .unchanged rfl (undelivered (undelivered_answer hc hno)) rfl
  · rw [hf]
    rcases w.connections.get_modify_or id (revokedRow x.str) n with he | ⟨rfl, c, hget, he⟩
    · exact .unchanged he (by rw [ha]; exact nofun) rfl
    · exact .moved hget he (.revoked hc ha hx)
  · rw [hf]
    have hdel : delivery aes w (.answer p e answer) = some (id, grant.token) := by
      rw [ha, funext (token_grantFrom hg)]
      simp only [delivery, hc, hg, hp]
    by_cases hn : n = id
    · subst hn
      cases hget : w.connections.get n with
      | none => exact .absent hget (by rw [Table.get_modify_self, hget]; rfl)
      | some c => exact .moved hget (by rw [Table.get_modify_self, hget]; rfl) (.persisted hc hdel hs)
    · exact .unchanged (Table.get_modify_of_ne _ _ hn) (delivery_ne hdel hn) rfl

/-- A disconnect clears the row of the user's own connection. -/
theorem rowStep_disconnect (id userId n : Nat) :
    RowStep aes w (w.connections.updateWhere id (fun c => c.userId == userId) disconnectRow) n (.disconnect id userId) := by
  by_cases hn : n = id
  · subst hn
    rcases Option.eq_none_or_eq_some (w.connections.get n) with hget | ⟨c, hget⟩
    · exact .absent hget (by rw [Table.get_updateWhere_self, hget]; rfl)
    · by_cases hu : c.userId = userId
      · subst hu
        exact .moved hget (Table.get_updateWhere_hit _ hget (beq_self_eq_true _)) (.disconnected hget)
      · have hmiss : (c.userId == userId) = false := beq_eq_false_iff_ne.2 hu
        refine .unchanged ?_ (undelivered rfl) (by simp [cuts, Table.affected, hget, hu])
        exact (Table.get_updateWhere_miss (p := fun c => c.userId == userId) disconnectRow hget hmiss).trans hget.symm
  · refine .unchanged (Table.get_updateWhere_of_ne _ _ _ hn) (undelivered rfl) ?_
    have hne : (id == n) = false := beq_eq_false_iff_ne.2 (Ne.symm hn)
    simp only [cuts, hne, Bool.false_and]

theorem step_row (h : step aes w a = some u) (n : Nat) : RowStep aes w u.connections n a := by
  cases a with
  | authorize e userId provider payload r => exact rowStep_authorize h n
  | call id kind =>
    cases h
    exact .unchanged rfl (undelivered rfl) rfl
  | read p e =>
    simp only [step] at h
    split at h
    · split at h
      · cases h
      · cases h
        exact .unchanged rfl (undelivered rfl) rfl
    · cases h
  | answer p e answer =>
    simp only [step] at h
    split at h
    next id kind connection refreshToken hc =>
      cases h
      exact rowStep_answer hc n
    · cases h
  | crash p =>
    simp only [step] at h
    split at h
    · split at h
      · cases h
        exact .unchanged rfl (undelivered rfl) rfl
      · cases h
        exact .unchanged rfl (undelivered rfl) rfl
      · cases h
    · cases h
  | expireAccessToken now id =>
    cases h
    rcases w.connections.get_modify_or id (fun c => { c with accessExpiresAt := some (now - SECOND) }) n with
      he | ⟨rfl, c, hget, he⟩
    · exact .unchanged he (undelivered rfl) rfl
    · exact .moved hget he .expired
  | recordSuccess id =>
    cases h
    rcases w.connections.get_updateWhere_cases id (fun c => c.status != .needsReconnect) successRow n with
      he | ⟨rfl, c, hget, hp, he⟩
    · exact .unchanged he (undelivered rfl) rfl
    · exact .moved hget he (.succeeded (bne_iff_ne.1 hp))
  | disconnect id userId =>
    cases h
    exact rowStep_disconnect id userId n
  | grow version key =>
    simp only [step] at h
    split at h
    · cases h
    · cases h
      exact .unchanged rfl (undelivered rfl) rfl
  | rotate age nonces locked batch =>
    simp only [step] at h
    split at h
    next t ht =>
      cases h
      rcases rotateBatch_eq_ok ht n with he | ⟨c, d, hget, hlt, hr, he⟩
      · exact .unchanged he (undelivered rfl) rfl
      · exact .moved hget he (.rotated hlt hr)
    · cases h
      exact .unchanged rfl (undelivered rfl) rfl

end

/-- The row of a connection is never deleted. -/
theorem step_get {w u : World} {a : Action} (h : step aes w a = some u) {n : Nat} {c : ConnectionRow}
    (hn : w.connections.get n = some c) : ∃ c', u.connections.get n = some c' ∧ RowMove aes w a n c c' := by
  cases step_row h n with
  | absent hw => cases hn.symm.trans hw
  | created hw => cases hn.symm.trans hw
  | moved hw hc' hm =>
    cases hn.symm.trans hw
    exact ⟨_, hc', hm⟩

theorem get_eq_none_of_step {w u : World} {a : Action} (h : step aes w a = some u) {n : Nat}
    (hn : u.connections.get n = none) : w.connections.get n = none := by
  refine Option.eq_none_iff_forall_not_mem.2 fun c hc => ?_
  obtain ⟨c', hc', -⟩ := step_get h hc
  cases hn.symm.trans hc'

/-- A row after a step comes from the row before it. -/
theorem step_of_get {w u : World} {a : Action} (h : step aes w a = some u) {n : Nat} {c' : ConnectionRow}
    (hn : u.connections.get n = some c') : ∃ c, Before w.connections n c ∧ RowMove aes w a n c c' := by
  cases step_row h n with
  | absent _ hu => cases hn.symm.trans hu
  | moved hw hc' hm =>
    cases hn.symm.trans hc'
    exact ⟨_, .inl hw, hm⟩
  | created hw hblank hc' hm =>
    cases hn.symm.trans hc'
    exact ⟨_, .inr ⟨hw, hblank⟩, hm⟩

/-- An authorization lands on a row. -/
theorem authorized_get {w u : World} {e : Env} {userId n : Nat} {provider : ProviderKind} {payload : Payload}
    {r : Option Nat} {tokens : TokenColumn → Json}
    (hd : delivery aes w (.authorize e userId provider payload r) = some (n, tokens))
    (h : step aes w (.authorize e userId provider payload r) = some u) : ∃ c, u.connections.get n = some c := by
  simp only [delivery] at hd
  split at hd
  next m t ht =>
    cases hd
    simp only [step, ht] at h
    cases h
    obtain ⟨grant, -, hu⟩ := authorize_eq_ok ht
    obtain ⟨⟨c, sealed, -, -, -, -, account, hid⟩, -⟩ := upsert_eq_ok hu
    exact ⟨_, hid⟩
  · cases hd

/-! ## The calls -/

/-- **A call after a step is as it was, is new, has read, or has been answered.** -/
theorem step_call {w u : World} {a : Action} (h : step aes w a = some u) {p : Nat} {c' : Call}
    (hp : u.calls.get p = some c') :
    w.calls.get p = some c' ∨ (∃ id kind, a = .call id kind ∧ c' = ⟨id, kind, .waiting⟩) ∨
      (∃ e id kind, a = .read p e ∧ w.calls.get p = some ⟨id, kind, .waiting⟩ ∧
        c' = ⟨id, kind, .ofProgress (getToken aes (w.ring e.age) e.now id (w.connections.get id) kind)⟩) ∨
      ∃ e answer id kind connection refreshToken, a = .answer p e answer ∧
        w.calls.get p = some ⟨id, kind, .refreshing connection refreshToken⟩ ∧
        c' = ⟨id, kind,
          .ofResult (finishRefresh aes (w.ring e.age) e.nonces e.now id connection answer w.connections).1⟩ := by
  cases a with
  | authorize e userId provider payload r =>
    simp only [step] at h
    split at h <;> cases h <;> exact .inl hp
  | call id kind =>
    cases h
    rcases Table.get_insert_cases hp with ⟨-, rfl⟩ | ⟨-, hp⟩
    · exact .inr (.inl ⟨id, kind, rfl, rfl⟩)
    · exact .inl hp
  | read q e =>
    simp only [step] at h
    split at h
    next id kind hq =>
      split at h
      · cases h
      · cases h
        rcases Table.get_modify_cases hp with ⟨rfl, b, hb, rfl⟩ | ⟨-, hp⟩
        · cases hq.symm.trans hb
          exact .inr (.inr (.inl ⟨e, id, kind, rfl, hq, rfl⟩))
        · exact .inl hp
    · cases h
  | answer q e answer =>
    simp only [step] at h
    split at h
    next id kind connection refreshToken hq =>
      cases h
      rcases Table.get_modify_cases hp with ⟨rfl, b, hb, rfl⟩ | ⟨-, hp⟩
      · cases hq.symm.trans hb
        exact .inr (.inr (.inr ⟨e, answer, id, kind, connection, refreshToken, rfl, hq, rfl⟩))
      · exact .inl hp
    · cases h
  | crash q =>
    have erased {q : Nat} (hp : (w.calls.erase q).get p = some c') : w.calls.get p = some c' := by
      rw [Table.get_erase] at hp
      split at hp
      · cases hp
      · exact hp
    simp only [step] at h
    split at h
    · split at h
      · cases h
        exact .inl (erased hp)
      · cases h
        exact .inl (erased hp)
      · cases h
    · cases h
  | expireAccessToken now id =>
    cases h
    exact .inl hp
  | recordSuccess id =>
    cases h
    exact .inl hp
  | disconnect id userId =>
    cases h
    exact .inl hp
  | grow version key =>
    simp only [step] at h
    split at h <;> cases h
    exact .inl hp
  | rotate age nonces locked batch =>
    simp only [step] at h
    split at h <;> cases h <;> exact .inl hp

theorem beginRefresh_eq_ok {ring : Keyring} {id : Nat} {c connection : ConnectionRow} {refreshToken : String}
    (h : beginRefresh aes ring id c = .ok (.refresh connection refreshToken)) :
    connection = c ∧ c.token aes ring id .refreshTokenCt = .ok (some refreshToken) := by
  unfold beginRefresh at h
  cases ht : c.token aes ring id .refreshTokenCt with
  | error e =>
    rw [ht] at h
    cases h
  | ok t =>
    rw [ht] at h
    cases t with
    | none => cases h
    | some s =>
      simp only [stored] at h
      by_cases hs : s = ""
      · rw [if_pos hs] at h
        cases h
      · rw [if_neg hs] at h
        cases h
        exact ⟨rfl, rfl⟩

/-- **A refresh is begun from the row that was read**, which is Google's. -/
theorem getToken_refresh {ring : Keyring} {now : Int} {id : Nat} {row : Option ConnectionRow} {kind : TokenKind}
    {connection : ConnectionRow} {refreshToken : String}
    (h : getToken aes ring now id row kind = .ok (.refresh connection refreshToken)) :
    row = some connection ∧ connection.provider = .gmail ∧
      connection.token aes ring id .refreshTokenCt = .ok (some refreshToken) := by
  have hbegin {c : ConnectionRow} (hg : c.provider = .gmail)
      (hb : beginRefresh aes ring id c = .ok (.refresh connection refreshToken)) :
      some c = some connection ∧ connection.provider = .gmail ∧
        connection.token aes ring id .refreshTokenCt = .ok (some refreshToken) := by
    obtain ⟨rfl, ht⟩ := beginRefresh_eq_ok hb
    exact ⟨rfl, hg, ht⟩
  unfold getToken at h
  cases row with
  | none => cases h
  | some c =>
    simp only at h
    split at h
    · cases h
    · split at h
      · cases h
      · split at h
        · split at h <;> cases h
        next hg =>
          simp only [not_or, Decidable.not_not] at hg
          split at h
          · split at h
            · exact hbegin hg.2 h
            · cases h
          · exact hbegin hg.2 h

end Connections
end SafeSend
