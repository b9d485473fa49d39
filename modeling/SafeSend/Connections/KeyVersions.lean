import SafeSend.Connections.Envelopes
/-!
# Key versions

One `key_version` column stands for three envelopes.  Rotation selects by the column, so it finds every envelope under
an older version as long as no envelope is older than its row's column; a write that sets the column to the current
version and leaves an older envelope where it was breaks that.
-/
namespace SafeSend
namespace Connections

open Lib Crypto
open Text (Bytes)

variable {aes : AESGCM} {w u : World} {a : Action}

/-- Every envelope has at least the version its row is recorded under. -/
def Covered (w : World) : Prop := ∀ n c column blob, w.connections.get n = some c → c.ct column = some blob →
  ∃ v, keyVersionOf blob = .ok v ∧ c.keyVersion ≤ v

/-- Once no row is recorded under an older version, the older keys can be dropped. -/
def Droppable (aes : AESGCM) (w : World) : Prop :=
  (∀ n c, w.connections.get n = some c → w.keyring.current ≤ c.keyVersion) →
    ∀ n c column blob, w.connections.get n = some c → c.ct column = some blob →
      ∃ s, decrypt aes blob (aad n c.provider column) w.keyring.withoutOlder = .ok s

/-- The age of the keyring a step stores tokens under. -/
def Action.age : Action → Nat
  | .authorize e _ _ _ _ => e.age
  | .answer _ e _ => e.age
  | _ => 0

/-- What the tokens leave out of the row is stored under a version no older than the keyring's. -/
def upToDate (ring : Keyring) (tokens : TokenColumn → Json) (c : ConnectionRow) : Bool :=
  [TokenColumn.accessTokenCt, .refreshTokenCt, .botTokenCt].all fun column =>
    match tokens column with
    | .null => (c.ct column).all fun blob =>
      match keyVersionOf blob with
      | .ok v => decide (ring.current ≤ v)
      | .error _ => false
    | _ => true

/-- The step stores no tokens, or beside none of an older version. -/
def keepsUp (aes : AESGCM) (w : World) (a : Action) : Bool :=
  match delivery aes w a with
  | none => true
  | some (n, tokens) => (w.connections.get n).all fun c => upToDate (w.ring a.age) tokens c

theorem upToDate_null {ring : Keyring} {tokens : TokenColumn → Json} {c : ConnectionRow}
    (h : upToDate ring tokens c = true) {column : TokenColumn} (hn : tokens column = .null) {blob : Bytes}
    (hb : c.ct column = some blob) : ∃ v, keyVersionOf blob = .ok v ∧ ring.current ≤ v := by
  have hmem : column ∈ [TokenColumn.accessTokenCt, .refreshTokenCt, .botTokenCt] := by cases column <;> decide
  have hc := List.all_eq_true.1 h column hmem
  simp only [hn, hb, Option.all_some] at hc
  cases hv : keyVersionOf blob with
  | error e =>
    rw [hv] at hc
    cases hc
  | ok v =>
    rw [hv] at hc
    exact ⟨v, rfl, of_decide_eq_true hc⟩

/-- **A write of tokens that keeps up leaves every envelope covered.** -/
theorem persistRow_covered {r : Keyring} {nonces : TokenColumn → Nonce} {n : Nat} {provider : ProviderKind}
    {grant : Grant} {sealed : TokenColumn → Option Bytes} {c : ConnectionRow}
    (hs : sealTokens aes r nonces n provider grant = .ok sealed) (hup : upToDate r grant.token c = true)
    {column : TokenColumn} {blob : Bytes} (hb : (persistRow r sealed grant c).ct column = some blob) :
    ∃ v, keyVersionOf blob = .ok v ∧ (persistRow r sealed grant c).keyVersion ≤ v := by
  simp only [persistRow] at hb ⊢
  rcases sealToken_eq_ok (sealTokens_eq_ok hs column) with ⟨hnull, hr⟩ | ⟨s, blob', -, he, hr⟩
  · rw [hr, Option.none_or] at hb
    exact upToDate_null hup hnull hb
  · rw [hr, Option.some_or] at hb
    cases hb
    obtain ⟨v, hv, hcur⟩ := keyVersionOf_encrypt he
    exact ⟨v, hv, le_of_eq hcur.symm⟩

/-- **What a step that keeps up keeps.** -/
theorem Covered.step (hc : Covered w) (hup : keepsUp aes w a = true) (h : step aes w a = some u) : Covered u := by
  intro n c' column blob hn hb
  obtain ⟨c, hbefore, hm⟩ := step_of_get h hn
  have hold {b : Bytes} (hcol : c.ct column = some b) : ∃ v, keyVersionOf b = .ok v ∧ c.keyVersion ≤ v := by
    rcases hbefore with hget | ⟨-, hblank⟩
    · exact hc n c column b hget hcol
    · rw [hblank] at hcol
      cases hcol
  have hsaved {tokens : TokenColumn → Json} (hd : delivery aes w a = some (n, tokens)) :
      upToDate (w.ring a.age) tokens c = true := by
    rcases hbefore with hget | ⟨-, hblank⟩
    · unfold keepsUp at hup
      rw [hd] at hup
      simpa only [hget, Option.all_some] using hup
    · unfold upToDate
      refine List.all_eq_true.2 fun column _ => ?_
      rw [hblank]
      split <;> rfl
  cases hm with
  | same => exact hold hb
  | adopted account => exact hold hb
  | landed account hd hp hs => exact persistRow_covered hs (hsaved hd) hb
  | persisted hcall hd hs => exact persistRow_covered hs (hsaved hd) hb
  | revoked => exact hold hb
  | expired => exact hold hb
  | succeeded => exact hold hb
  | disconnected => cases hb
  | rotated hlt hr =>
    obtain ⟨⟨ct, rfl⟩, hcols⟩ := rotateRow_eq_ok hr
    rcases hcols column with ⟨-, hnone⟩ | ⟨-, s, blob', -, -, he, hsome⟩
    · cases hb.symm.trans hnone
    · cases hb.symm.trans hsome
      obtain ⟨v, hv, hcur⟩ := keyVersionOf_encrypt he
      exact ⟨v, hv, le_of_eq hcur.symm⟩

/-- Every stored envelope holds a string. -/
def Readable (aes : AESGCM) (w : World) : Prop := ∀ n c column blob, w.connections.get n = some c →
  c.ct column = some blob → ∃ s, Holds aes w n c.provider column blob s

theorem Readable.step (hr : Readable aes w) (ha : Attached w) (h : step aes w a = some u) : Readable aes u := by
  intro n c' column blob hn hb
  obtain ⟨c, hbefore, hm⟩ := step_of_get h hn
  have hcol := hm.column hbefore ha column
  rw [hb] at hcol
  rw [hm.provider]
  generalize hold : c.ct column = old at hcol
  cases hcol with
  | kept =>
    rcases hbefore with hget | ⟨-, hblank⟩
    · obtain ⟨s, hs⟩ := hr n c column blob hget hold
      exact ⟨s, hs.step h⟩
    · rw [hblank] at hold
      cases hold
  | written hd ht hmem he => exact ⟨_, _, rings_step h _ hmem, _, he⟩
  | resealed hd hc hmem ho he => exact ⟨_, _, rings_step h _ hmem, _, he⟩

/-- An envelope at or above the current version opens with the older keys dropped. -/
theorem Holds.decrypt_withoutOlder {n : Nat} {provider : ProviderKind} {column : TokenColumn} {blob : Bytes}
    {s : String} {v : Nat} (hg : Growing w) (hs : Holds aes w n provider column blob s)
    (hv : keyVersionOf blob = .ok v) (hle : w.keyring.current ≤ v) :
    Crypto.decrypt aes blob (aad n provider column) w.keyring.withoutOlder = .ok s := by
  obtain ⟨r, hr, nonce, he⟩ := hs
  obtain ⟨v', hv', hcur⟩ := keyVersionOf_encrypt he
  cases hv.symm.trans hv'
  rw [hcur] at hle
  exact decrypt_encrypt he (by rw [Keyring.lookup_withoutOlder hle]; exact (hg r hr).current.2)

theorem invariants {first : Keyring} {ok : World → Action → Prop} (h : (system aes first).Reach ok w) :
    Growing w ∧ Attached w ∧ Readable aes w := by
  refine Machine.Reach.inv (I := fun w => Growing w ∧ Attached w ∧ Readable aes w) ?_ ?_ h
  · refine ⟨?_, ?_, ?_⟩
    · intro r hr
      cases List.mem_singleton.1 hr
      exact .refl _
    · intro p n kind connection refreshToken hp
      cases hp
    · intro n c column blob hn
      cases hn
  · rintro s b t - ⟨hg, ha, hr⟩ - hst
    exact ⟨hg.step hst, ha.step hst, hr.step ha hst⟩

/-- **Tokens stay readable through key rotation**, in every run that never stores tokens beside an older envelope that
they leave out. -/
theorem rotation_safe {first : Keyring} (h : (system aes first).Reach (fun w a => keepsUp aes w a = true) w) :
    Covered w ∧ Droppable aes w := by
  have hcov : Covered w := by
    refine Machine.Reach.inv (I := Covered) ?_ (fun s b t _ hc hup hst => hc.step hup hst) h
    intro n c column blob hn
    cases hn
  obtain ⟨hg, -, hr⟩ := invariants h
  refine ⟨hcov, fun hall n c column blob hn hb => ?_⟩
  obtain ⟨s, hs⟩ := hr n c column blob hn hb
  obtain ⟨v, hv, hle⟩ := hcov n c column blob hn hb
  exact ⟨s, hs.decrypt_withoutOlder hg hv (le_trans (hall n c hn) hle)⟩

/-! ## Google's tokens over two keys -/

def sampleKey (b : UInt8) : Key := ⟨List.replicate 32 b, List.length_replicate⟩

def sampleEnv (now : Int) : Env := { now := now, nonces := fun _ => ⟨List.replicate 12 0, List.length_replicate⟩ }

/-- The system whose first key is version 1. -/
def sample : Machine World Action := system .plain (.single 1 (sampleKey 1))

/-- An authorization with consent carries both tokens, a refresh only the access token. -/
def consented : Payload :=
  { fields := [("access_token", .str "a1"), ("refresh_token", .str "r1")], claims := [("sub", .str "7")]
    expiresIn := some 3600 }

def renewed : Payload := { fields := [("access_token", .str "a2")], expiresIn := some 3600 }

/-- A refresh, once the access token has expired. -/
def refreshing : List Action :=
  let e := sampleEnv (3600 * SECOND)
  [.call 0 .oauth, .read 0 e, .answer 0 e (.ok renewed)]

/-- The new key is deployed, the table is rotated, and the token is refreshed. -/
def rotatedRun : List Action :=
  [.authorize (sampleEnv 0) 0 .gmail consented none, .grow 2 (sampleKey 2),
    .rotate 0 (fun _ => (sampleEnv 0).nonces) (fun _ => false) 50] ++ refreshing

theorem rotation_safe_rotated : ∃ w, sample.exec sample.init rotatedRun = some w ∧
    (w.connections.get 0).any (fun c => c.keyVersion == 2 && (c.ct .refreshTokenCt).isSome) = true ∧
    Covered w ∧ Droppable .plain w := by
  have hallowed : sample.allowed (keepsUp .plain) sample.init rotatedRun = true := by decide
  have hend : (sample.exec sample.init rotatedRun).any (fun w =>
      (w.connections.get 0).any fun c => c.keyVersion == 2 && (c.ct .refreshTokenCt).isSome) = true := by decide
  obtain ⟨w, hw, -, hp⟩ := Machine.reach_of_exec hend
  exact ⟨w, hw, hp, rotation_safe (Machine.Steps.of_exec (fun _ _ h => h) hw hallowed)⟩

/-- A row recorded under the current version, with an envelope of an older one that the current keys do not open. -/
def overtaken (w : World) (n : Nat) (column : TokenColumn) : Bool :=
  (w.connections.rows.all fun r => decide (w.keyring.current ≤ r.2.keyVersion)) &&
    (w.connections.get n).any fun c => (c.ct column).any fun blob =>
      (match keyVersionOf blob with
      | .ok v => decide ((v : Int) < c.keyVersion)
      | .error _ => false) &&
        !(decrypt .plain blob (aad n c.provider column) w.keyring.withoutOlder).toBool

/-- The new key is deployed, and the token is refreshed before the table is rotated: the refresh token stays under
version 1 in a row recorded under version 2, and no rotation selects it. -/
theorem refresh_overtakes_rotation : ∃ w, sample.Reach (fun _ _ => True) w ∧ ¬ Covered w ∧ ¬ Droppable .plain w := by
  have hend : (sample.exec sample.init
      (.authorize (sampleEnv 0) 0 .gmail consented none :: .grow 2 (sampleKey 2) :: refreshing)).any
        (fun w => overtaken w 0 .refreshTokenCt) = true := by decide
  obtain ⟨w, -, hreach, hp⟩ := Machine.reach_of_exec hend
  refine ⟨w, hreach, ?_⟩
  simp only [overtaken, Bool.and_eq_true, Option.any_eq_true] at hp
  obtain ⟨hall, c, hc, blob, hb, hold, hclosed⟩ := hp
  constructor
  · intro hcov
    obtain ⟨v, hv, hle⟩ := hcov 0 c _ blob hc hb
    rw [hv, decide_eq_true_eq] at hold
    omega
  · intro hdrop
    have hcurrent (n : Nat) (d : ConnectionRow) (hd : w.connections.get n = some d) :
        w.keyring.current ≤ d.keyVersion := of_decide_eq_true (List.all_eq_true.1 hall (n, d) (Table.mem_rows.2 hd))
    obtain ⟨s, hs⟩ := hdrop hcurrent 0 c _ blob hc hb
    rw [hs] at hclosed
    cases hclosed

end Connections
end SafeSend
