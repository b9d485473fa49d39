import SafeSend.Accounts.System
/-!
# Revocation

A revoked key stays revoked, as of the first time; nobody who arrives after that gets in with it, and the trace of its
use is left as it was.  Only its user revokes it.
-/
namespace SafeSend
namespace Accounts

open Lib ApiKeys

/-- The key a request was let through with. -/
def Stage.keyId? : Stage → Option String
  | .refused => none
  | .checked c => some c.keyId
  | .accepted c => some c.keyId
  | .answered c => some c.keyId

theorem keyId_conclude {now : Nat} {c : Checked} {keyId : String}
    (h : (stageOfConclude (conclude now c)).keyId? = some keyId) : c.keyId = keyId := by
  unfold conclude at h
  by_cases he : (c.expiresAt.any fun e => decide (e < now)) = true
  · rw [if_pos he] at h
    cases h
  · rw [if_neg he] at h
    exact Option.some.inj h

theorem conclude_not_checked {now : Nat} {c c' : Checked} : stageOfConclude (conclude now c) ≠ .checked c' := by
  cases conclude now c <;> simp [stageOfConclude]

variable {lower : String → String} {w₀ w w' : World}

/-- A request that is let through with a key when it arrives found it not revoked. -/
theorem lookUp_not_revoked {t : KeyRows} (hu : Unique t) {xApiKey : Option String} {n : Nat} {k : ApiKeyRow}
    (hn : t.get n = some k) (h : (stageOfLookUp (lookUp t xApiKey)).keyId? = some k.keyId) : k.revokedAt = none := by
  cases hl : lookUp t xApiKey with
  | error e =>
    rw [hl] at h
    cases h
  | ok c =>
    rw [hl] at h
    obtain ⟨raw, m, l, -, -, hm, -, hr, rfl⟩ := (lookUp_eq_ok hu).1 hl
    have hid : l.keyId = k.keyId := Option.some.inj h
    have hmn := hu m n l k hm hn hid
    subst hmn
    rw [hm] at hn
    rw [← Option.some.inj hn, hr]

/-- No request from `r₀` on is let through with the key. -/
def Shut (r₀ : Nat) (keyId : String) (w : World) : Prop :=
  ∀ r req, r₀ ≤ r → w.requests.get r = some req → req.stage.keyId? ≠ some keyId

/-- No request is between its look-up with the key and its commit. -/
def Unheld (keyId : String) (w : World) : Prop :=
  ∀ r req c, w.requests.get r = some req → req.stage = .checked c → c.keyId ≠ keyId

/-- **Once revoked, a key opens nothing to a request that arrives later.** -/
theorem shut_step {a : Action} (h : (system lower w₀).step w a = some w') (hu : Unique w.apiKeys) {n r₀ : Nat}
    {k : ApiKeyRow} (hk : w.apiKeys.get n = some k) (hrevoked : k.revokedAt ≠ none) (hs : Shut r₀ k.keyId w) :
    Shut r₀ k.keyId w' := by
  intro r req hr hreq hkey
  rcases (step_moves h).2.get hreq with hsame | ⟨-, now, xApiKey, rfl⟩ | ⟨old, hold, ⟨c, hc, rfl⟩ | ⟨c, hc, rfl⟩⟩
  · exact hs r req hr hsame hkey
  · exact hrevoked (lookUp_not_revoked hu hk hkey)
  · apply hs r old hr hold
    rw [hc]
    exact congrArg some (keyId_conclude hkey)
  · apply hs r old hr hold
    rw [hc]
    exact hkey

theorem unheld_step {a : Action} (h : (system lower w₀).step w a = some w') (hu : Unique w.apiKeys) {n : Nat}
    {k : ApiKeyRow} (hk : w.apiKeys.get n = some k) (hrevoked : k.revokedAt ≠ none) (hs : Unheld k.keyId w) :
    Unheld k.keyId w' := by
  intro r req c hreq hstage hid
  rcases (step_moves h).2.get hreq with hsame | ⟨-, now, xApiKey, rfl⟩ | ⟨old, hold, ⟨c', -, rfl⟩ | ⟨c', -, rfl⟩⟩
  · exact hs r req c hsame hstage hid
  · have hkey := congrArg Stage.keyId? hstage
    rw [Stage.keyId?, hid] at hkey
    exact hrevoked (lookUp_not_revoked hu hk hkey)
  · exact conclude_not_checked hstage
  · cases hstage

/-- What is not held is not touched. -/
theorem lastUsed_step {a : Action} (h : (system lower w₀).step w a = some w') {n : Nat} {k : ApiKeyRow}
    (hk : w.apiKeys.get n = some k) (hs : Unheld k.keyId w) :
    ∃ k', w'.apiKeys.get n = some k' ∧ Kept k k' ∧ k'.lastUsedAt = k.lastUsedAt := by
  obtain ⟨k', hk', hkept, hsame | ⟨r, req, c, -, hreq, hstage, hid, -⟩⟩ := (step_moves h).1.row hk
  · exact ⟨k', hk', hkept, hsame⟩
  · exact absurd hid.symm (hs r req c hreq hstage)

/-- **Revocation is final**: the key stays revoked as of the same instant, every request that arrives afterwards is
refused it, and where no request was let through with it and not yet committed, its last use is on record for good. -/
theorem revoked_final (hu : Unique w.apiKeys) (h : (system lower w₀).Steps Any w w') {n : Nat} {k : ApiKeyRow} {at' : Nat}
    (hk : w.apiKeys.get n = some k) (hrevoked : k.revokedAt = some at') :
    (∃ k', w'.apiKeys.get n = some k' ∧ Kept k k' ∧ k'.revokedAt = some at' ∧
      (Unheld k.keyId w → k'.lastUsedAt = k.lastUsedAt)) ∧ Shut w.requests.next k.keyId w' := by
  have key : Unique w'.apiKeys ∧ Shut w.requests.next k.keyId w' ∧ ∃ k', w'.apiKeys.get n = some k' ∧ Kept k k' ∧
      (Unheld k.keyId w → Unheld k.keyId w' ∧ k'.lastUsedAt = k.lastUsedAt) := by
    refine h.keep (I := fun v => Unique v.apiKeys ∧ Shut w.requests.next k.keyId v ∧ ∃ k', v.apiKeys.get n = some k' ∧
      Kept k k' ∧ (Unheld k.keyId w → Unheld k.keyId v ∧ k'.lastUsedAt = k.lastUsedAt)) ?_ ?_
    · rintro v b v' ⟨hv, hshut, l, hl, hkept, hlast⟩ - hstep
      have hl' : l.revokedAt ≠ none := by simp [hkept.revokedAt at' hrevoked]
      obtain ⟨m, hm, hkept'⟩ := (step_moves hstep).1.keeps hl
      refine ⟨(step_moves hstep).1.unique hv, ?_, m, hm, hkept.trans hkept', fun hw => ?_⟩
      · rw [← hkept.keyId] at hshut ⊢
        exact shut_step hstep hv hl hl' hshut
      · obtain ⟨hheld, hsame⟩ := hlast hw
        rw [← hkept.keyId] at hheld ⊢
        obtain ⟨m', hm', -, hlast'⟩ := lastUsed_step hstep hl hheld
        rw [hm] at hm'
        rw [Option.some.inj hm', hlast', hsame]
        exact ⟨unheld_step hstep hv hl hl' hheld, rfl⟩
    · refine ⟨hu, fun r req hr hreq => ?_, k, hk, Kept.refl k, fun hw => ⟨hw, rfl⟩⟩
      rw [w.requests.beyond r hr] at hreq
      cases hreq
  obtain ⟨-, hshut, k', hk', hkept, hlast⟩ := key
  exact ⟨⟨k', hk', hkept, hkept.revokedAt at' hrevoked, fun hw => (hlast hw).2⟩, hshut⟩

/-- A key that was revoked before anyone came. -/
def revokedWorld : World where
  apiKeys := Table.empty.insert { newRow 0 0 "" zeroEntropy.mint with revokedAt := some 5 }

/-- Its own plaintext is presented. -/
theorem revoked_final_arrival :
    Shut 0 zeroEntropy.mint.keyId (revokedWorld.arrive 7 (some zeroEntropy.mint.plaintext)) := by
  have hstep : (system id {}).step revokedWorld (.arrive 7 (some zeroEntropy.mint.plaintext)) =
      some (revokedWorld.arrive 7 (some zeroEntropy.mint.plaintext)) := rfl
  exact (revoked_final (unique_single _) ((Machine.Steps.refl _).snoc trivial hstep) (n := 0) rfl rfl).2

/-! ## Who revokes -/

/-- **A step that revokes a key is the route of a request let through as its user.** -/
theorem revoked_step {a : Action} (h : (system lower w₀).step w a = some w') {n : Nat} {k k' : ApiKeyRow}
    (hk : w.apiKeys.get n = some k) (hk' : w'.apiKeys.get n = some k') (hold : k.revokedAt = none)
    (hnew : k'.revokedAt ≠ none) : ∃ r now req c, a = .revokeApiKey r now k.keyId ∧ w.requests.get r = some req ∧
      req.stage = .accepted c ∧ c.userId = k.userId ∧ k'.revokedAt = some now := by
  have hmove := (step_moves h).1
  generalize w'.apiKeys = t at hk' hmove
  cases hmove with
  | same =>
    rw [hk] at hk'
    exact absurd (Option.some.inj hk' ▸ hold) hnew
  | issued now userId name e hfree =>
    rw [Table.get_insert_of_get _ hk] at hk'
    exact absurd (Option.some.inj hk' ▸ hold) hnew
  | used r req c ha hreq hstage =>
    rw [touch, get_update, hk, Option.map_some] at hk'
    refine absurd ?_ hnew
    rw [← Option.some.inj hk']
    split_ifs <;> exact hold
  | revoked r now keyId req c ha hreq hstage =>
    rw [get_update, hk, Option.map_some] at hk'
    by_cases hown : ownKey c keyId k = true
    · rw [if_pos hown] at hk'
      simp only [ownKey, Bool.and_eq_true, beq_iff_eq] at hown
      refine ⟨r, now, req, c, by rw [ha, hown.1], hreq, hstage, hown.2.symm, ?_⟩
      rw [← Option.some.inj hk', revokedRow, hold]
      rfl
    · rw [if_neg hown] at hk'
      exact absurd (Option.some.inj hk' ▸ hold) hnew

/-- The step of a run that revokes a key of the user's. -/
def RevokedBy (lower : String → String) (w₀ : World) (k : ApiKeyRow) (at' : Nat) (w w' : World) : Prop :=
  ∃ v v' r req c, (system lower w₀).Steps Any w v ∧ (system lower w₀).step v (.revokeApiKey r at' k.keyId) = some v' ∧
    (system lower w₀).Steps Any v' w' ∧ v.requests.get r = some req ∧ req.stage = .accepted c ∧ c.userId = k.userId

/-- **A key is found revoked only where a request let through as its user revoked it**, and at that time. -/
theorem revoked_by_user (h : (system lower w₀).Steps Any w w') {n : Nat} {k : ApiKeyRow}
    (hk : w.apiKeys.get n = some k) (hold : k.revokedAt = none) :
    ∃ k', w'.apiKeys.get n = some k' ∧ Kept k k' ∧ ∀ at', k'.revokedAt = some at' → RevokedBy lower w₀ k at' w w' := by
  induction h with
  | refl => exact ⟨k, hk, Kept.refl k, fun at' hr => absurd hr (by simp [hold])⟩
  | @tail v v' hrun hn ih =>
    obtain ⟨a, -, hstep⟩ := hn
    obtain ⟨l, hl, hkept, hby⟩ := ih
    obtain ⟨m, hm, hkept'⟩ := (step_moves hstep).1.keeps hl
    refine ⟨m, hm, hkept.trans hkept', fun at' hr => ?_⟩
    by_cases hl' : l.revokedAt = none
    · obtain ⟨r, now, req, c, rfl, hreq, hstage, huser, hnow⟩ := revoked_step hstep hl hm hl' (by simp [hr])
      rw [hr] at hnow
      obtain rfl := Option.some.inj hnow
      rw [hkept.keyId] at hstep
      exact ⟨v, v', r, req, c, hrun, hstep, .refl v', hreq, hstage, huser.trans hkept.userId⟩
    · obtain ⟨before, hbefore⟩ := Option.ne_none_iff_exists'.1 hl'
      have hsame := hkept'.revokedAt before hbefore
      rw [hr] at hsame
      obtain ⟨u, u', r, req, c, hu, hrevoke, hu', hreq, hstage, huser⟩ := hby at' (hbefore.trans hsame.symm)
      exact ⟨u, u', r, req, c, hu, hrevoke, hu'.snoc trivial hstep, hreq, hstage, huser⟩

/-- A user's request, let in with the user's key. -/
def signedInWorld : World where
  apiKeys := Table.empty.insert
    { userId := 3, keyId := "AAAAAAAAAAAA", keyHash := "", prefixDisplay := "", createdAt := 0 }
  requests := Table.empty.insert ⟨0, .accepted ⟨3, "AAAAAAAAAAAA"⟩⟩

theorem revoked_by_user_at_nine : ∃ w' k', w'.apiKeys.get 0 = some k' ∧ k'.revokedAt = some 9 ∧
    RevokedBy id {} { userId := 3, keyId := "AAAAAAAAAAAA", keyHash := "", prefixDisplay := "", createdAt := 0 } 9
      signedInWorld w' := by
  let k : ApiKeyRow := { userId := 3, keyId := "AAAAAAAAAAAA", keyHash := "", prefixDisplay := "", createdAt := 0 }
  have hk : signedInWorld.apiKeys.get 0 = some k := rfl
  have hstep : ∃ w', (system id {}).step signedInWorld (.revokeApiKey 0 9 "AAAAAAAAAAAA") = some w' ∧
      w'.apiKeys.get 0 = some (revokedRow 9 k) := ⟨_, rfl, by decide +kernel⟩
  obtain ⟨w', hstep, hget⟩ := hstep
  obtain ⟨k', hk', -, hby⟩ := revoked_by_user ((Machine.Steps.refl _).snoc trivial hstep) hk rfl
  rw [hget] at hk'
  obtain rfl := Option.some.inj hk'
  exact ⟨w', _, hget, rfl, hby 9 rfl⟩

end Accounts
end SafeSend
