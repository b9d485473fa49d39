import SafeSend.Connections.Moves
/-!
# The envelopes of a connection

What a step does to one token column, and what every stored envelope is: the encryption of some string, under a keyring
that has been deployed and the identity of its row.  Deployed keyrings only grow, so the one deployed now opens it.
-/
namespace SafeSend
namespace Connections

open Lib Crypto
open Text (Bytes)

variable {aes : AESGCM} {w u : World} {a : Action}

/-! ## The keyrings -/

def World.rings (w : World) : List Keyring := w.keyring :: w.retired

/-- Every keyring that has been deployed is within the one deployed now. -/
def Growing (w : World) : Prop := ∀ r ∈ w.rings, r.Within w.keyring

theorem ring_mem (w : World) (age : Nat) : w.ring age ∈ w.rings := by
  unfold World.ring World.rings
  rw [List.getD_eq_getElem?_getD]
  cases h : (w.keyring :: w.retired)[age]? with
  | none => exact List.mem_cons_self
  | some r => exact List.mem_of_getElem? h

/-- A step leaves the keyrings alone, or puts one with a new version in front. -/
theorem step_rings (h : step aes w a = some u) : (u.keyring = w.keyring ∧ u.retired = w.retired) ∨
    ∃ v k, w.keyring.keys.lookup v = none ∧ u.keyring = w.keyring.add v k ∧ u.retired = w.keyring :: w.retired := by
  cases a with
  | authorize e userId provider payload r =>
    simp only [step] at h
    split at h <;> cases h <;> exact .inl ⟨rfl, rfl⟩
  | call id kind =>
    cases h
    exact .inl ⟨rfl, rfl⟩
  | read q e =>
    simp only [step] at h
    split at h
    · split at h <;> cases h
      exact .inl ⟨rfl, rfl⟩
    · cases h
  | answer q e answer =>
    simp only [step] at h
    split at h <;> cases h
    exact .inl ⟨rfl, rfl⟩
  | crash q =>
    simp only [step] at h
    split at h
    · split at h <;> cases h <;> exact .inl ⟨rfl, rfl⟩
    · cases h
  | expireAccessToken now id =>
    cases h
    exact .inl ⟨rfl, rfl⟩
  | recordSuccess id =>
    cases h
    exact .inl ⟨rfl, rfl⟩
  | disconnect id userId =>
    cases h
    exact .inl ⟨rfl, rfl⟩
  | grow version key =>
    simp only [step] at h
    split at h
    · cases h
    next hv =>
      cases h
      exact .inr ⟨version, key, hv, rfl, rfl⟩
  | rotate age nonces locked batch =>
    simp only [step] at h
    split at h <;> cases h <;> exact .inl ⟨rfl, rfl⟩

/-- No keyring that was deployed is forgotten. -/
theorem rings_step (h : step aes w a = some u) : ∀ r ∈ w.rings, r ∈ u.rings := by
  intro r hr
  rcases step_rings h with ⟨hk, hl⟩ | ⟨v, k, -, hk, hl⟩
  · rw [World.rings, hk, hl]
    exact hr
  · rw [World.rings, hl]
    exact List.mem_cons_of_mem _ hr

theorem Growing.step (hg : Growing w) (h : step aes w a = some u) : Growing u := by
  rcases step_rings h with ⟨hk, hl⟩ | ⟨v, k, hv, hk, hl⟩
  · intro r hr
    rw [World.rings, hk, hl] at hr
    rw [hk]
    exact hg r hr
  · intro r hr
    rw [World.rings, hl] at hr
    rcases List.mem_cons.1 hr with rfl | hr
    · exact .refl _
    · rw [hk]
      exact (hg r hr).trans (Keyring.within_add hv k)

/-! ## The rows a refresh works on -/

/-- Every refresh under way works on a row that is there, of the provider it was read with. -/
def Attached (w : World) : Prop :=
  ∀ p n kind connection refreshToken, w.calls.get p = some ⟨n, kind, .refreshing connection refreshToken⟩ →
    ∃ c, w.connections.get n = some c ∧ c.provider = connection.provider

theorem RowMove.provider {n : Nat} {c c' : ConnectionRow} (hm : RowMove aes w a n c c') : c'.provider = c.provider := by
  cases hm with
  | rotated hlt hr =>
    obtain ⟨⟨ct, rfl⟩, -⟩ := rotateRow_eq_ok hr
    rfl
  | _ => rfl

theorem Attached.step (ha : Attached w) (h : step aes w a = some u) : Attached u := by
  have kept {n : Nat} {b : ConnectionRow} (hb : w.connections.get n = some b) :
      ∃ c, u.connections.get n = some c ∧ c.provider = b.provider := by
    obtain ⟨c, hc, hm⟩ := step_get h hb
    exact ⟨c, hc, hm.provider⟩
  intro p n kind connection refreshToken hp
  rcases step_call h hp with hp | ⟨id, k, -, he⟩ | ⟨e, id, k, -, -, he⟩ | ⟨e, x, id, k, d, t, -, -, he⟩
  · obtain ⟨b, hb, hpr⟩ := ha p n kind connection refreshToken hp
    obtain ⟨c, hc, hcb⟩ := kept hb
    exact ⟨c, hc, hcb.trans hpr⟩
  · cases he
  · simp only [Call.mk.injEq] at he
    obtain ⟨rfl, rfl, hs⟩ := he
    cases hg : getToken aes (w.ring e.age) e.now n (w.connections.get n) kind with
    | error x =>
      rw [hg] at hs
      cases hs
    | ok progress =>
      rw [hg] at hs
      cases progress with
      | token value => cases hs
      | refresh d t =>
        cases hs
        exact kept (getToken_refresh hg).1
  · simp only [Call.mk.injEq] at he
    obtain ⟨-, -, hs⟩ := he
    cases hf : (finishRefresh aes (w.ring e.age) e.nonces e.now id d x w.connections).1 <;> rw [hf] at hs <;> cases hs

/-! ## One column -/

/-- **What a step can do to a token column** of a connection. -/
inductive ColumnMove (aes : AESGCM) (w : World) (a : Action) (n : Nat) (provider : ProviderKind)
    (column : TokenColumn) : Option Bytes → Option Bytes → Prop
  | kept {b : Option Bytes} (hd : ∀ tokens, delivery aes w a = some (n, tokens) → tokens column = .null)
      (hc : cuts w n a = false) : ColumnMove aes w a n provider column b b
  | cleared {b : Option Bytes} (hc : cuts w n a = true) : ColumnMove aes w a n provider column b none
  | written {b : Option Bytes} {tokens : TokenColumn → Json} {s : String} {r : Keyring} {nonce : Nonce} {blob : Bytes}
      (hd : delivery aes w a = some (n, tokens)) (ht : tokens column = .str s) (hr : r ∈ w.rings)
      (he : encrypt aes nonce s (aad n provider column) r = .ok blob) :
      ColumnMove aes w a n provider column b (some blob)
  | resealed {s : String} {r : Keyring} {nonce : Nonce} {blob blob' : Bytes}
      (hd : delivery aes w a = none) (hc : cuts w n a = false) (hr : r ∈ w.rings)
      (ho : decrypt aes blob (aad n provider column) r = .ok s)
      (he : encrypt aes nonce s (aad n provider column) r = .ok blob') :
      ColumnMove aes w a n provider column (some blob) (some blob')

/-- A column that a grant is stored on is left alone or written. -/
theorem ColumnMove.of_seal {n : Nat} {provider : ProviderKind} {column : TokenColumn} {grant : Grant} {e : Env}
    {sealed : TokenColumn → Option Bytes} (hd : delivery aes w a = some (n, grant.token)) (hc : cuts w n a = false)
    (hs : sealTokens aes (w.ring e.age) e.nonces n provider grant = .ok sealed) (b : Option Bytes) :
    ColumnMove aes w a n provider column b ((sealed column).or b) := by
  rcases sealToken_eq_ok (sealTokens_eq_ok hs column) with ⟨hnull, hr⟩ | ⟨s, blob, hstr, he, hr⟩
  · rw [hr]
    refine .kept (fun tokens ht => ?_) hc
    rw [hd] at ht
    cases ht
    exact hnull
  · rw [hr]
    exact .written hd hstr (ring_mem w e.age) he

theorem RowMove.column {n : Nat} {c c' : ConnectionRow} (hm : RowMove aes w a n c c')
    (hb : Before w.connections n c) (ha : Attached w) (column : TokenColumn) :
    ColumnMove aes w a n c.provider column (c.ct column) (c'.ct column) := by
  cases hm with
  | same hd hc => exact .kept (fun tokens ht => absurd ht (hd tokens)) hc
  | adopted account hd => exact .kept (fun tokens ht => absurd ht (hd tokens)) rfl
  | landed account hd hp hs =>
    rw [hp]
    exact .of_seal hd rfl hs _
  | persisted hc hd hs =>
    obtain ⟨d, hget, hp⟩ := ha _ _ _ _ _ hc
    rcases hb with hb | ⟨hb, -⟩
    · cases hb.symm.trans hget
      rw [hp]
      exact .of_seal hd rfl hs _
    · cases hb.symm.trans hget
  | revoked hc ha hx =>
    refine .kept (fun tokens ht => ?_) rfl
    rw [ha] at ht
    cases ht
  | expired => exact .kept (fun tokens ht => absurd ht (undelivered rfl tokens)) rfl
  | succeeded => exact .kept (fun tokens ht => absurd ht (undelivered rfl tokens)) rfl
  | disconnected hget =>
    refine .cleared ?_
    simp only [cuts, beq_self_eq_true, Bool.true_and]
    exact Table.affected_iff.2 ⟨_, hget, beq_self_eq_true _⟩
  | rotated hlt hr =>
    rcases (rotateRow_eq_ok hr).2 column with ⟨hc, hc'⟩ | ⟨blob, s, blob', hc, ho, he, hc'⟩
    · rw [hc, hc']
      exact .kept (fun tokens ht => absurd ht (undelivered rfl tokens)) rfl
    · rw [hc, hc']
      exact .resealed rfl rfl (ring_mem w _) ho he

/-! ## What is stored -/

/-- The envelope holds the string, for this column of this row. -/
def Holds (aes : AESGCM) (w : World) (n : Nat) (provider : ProviderKind) (column : TokenColumn) (blob : Bytes)
    (s : String) : Prop := ∃ r ∈ w.rings, ∃ nonce, encrypt aes nonce s (aad n provider column) r = .ok blob

theorem Holds.step {n : Nat} {provider : ProviderKind} {column : TokenColumn} {blob : Bytes} {s : String}
    (hs : Holds aes w n provider column blob s) (h : step aes w a = some u) : Holds aes u n provider column blob s := by
  obtain ⟨r, hr, nonce, he⟩ := hs
  exact ⟨r, rings_step h r hr, nonce, he⟩

/-- **The deployed keyring opens every envelope**, and so does every keyring that holds the envelope's version. -/
theorem Holds.decrypt {n : Nat} {provider : ProviderKind} {column : TokenColumn} {blob : Bytes} {s : String}
    (hg : Growing w) (hs : Holds aes w n provider column blob s) :
    Crypto.decrypt aes blob (aad n provider column) w.keyring = .ok s := by
  obtain ⟨r, hr, nonce, he⟩ := hs
  exact decrypt_encrypt he (hg r hr).current.2

/-- What a deployed keyring opens an envelope to is the string it holds. -/
theorem Holds.unique {n : Nat} {provider : ProviderKind} {column : TokenColumn} {blob : Bytes} {s s' : String}
    {r : Keyring} (hg : Growing w) (hs : Holds aes w n provider column blob s) (hr : r ∈ w.rings)
    (ho : Crypto.decrypt aes blob (aad n provider column) r = .ok s') : s' = s := by
  have hnow := decrypt_within (hg r hr) ho
  rw [hs.decrypt hg, Except.ok.injEq] at hnow
  exact hnow.symm

end Connections
end SafeSend
