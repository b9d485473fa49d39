import SafeSend.Lib.Spaced
import SafeSend.Accounts.Revoked
/-!
# When a key was last used

`last_used_at` is written at most once an hour for each key, whatever requests overlap, and still tells of every request
that was let in: an hour before it at the earliest.
-/
namespace SafeSend
namespace Accounts

open Lib ApiKeys

/-- The writes of `last_used_at`, the latest first: which key's, and what is written. -/
abbrev Uses := List (String × Nat)

/-- The `UPDATE` finds its row. -/
def touches (now : Nat) (c : Checked) (t : KeyRows) : Bool := t.any fun _ k => k.keyId == c.keyId && unused now k

def noteUse (w : World) : Action → Uses → Uses
  | .commit r, l =>
    match w.requests.get r with
    | none => l
    | some req =>
      match req.checked? with
      | none => l
      | some c => if touches req.now c w.apiKeys then (c.keyId, req.now) :: l else l
  | _, l => l

def usesOf (keyId : String) (l : Uses) : List Nat := (l.filter fun u => u.1 == keyId).map Prod.snd

/-- The service over a database it finds, with every write of `last_used_at`. -/
def observed (lower : String → String) (w₀ : World) : Machine (World × Uses) Action :=
  (system lower w₀).withHistory noteUse []

/-- The row tells of a use no later than `now` by an hour. -/
def Recent (t : KeyRows) (keyId : String) (now : Nat) : Prop :=
  ∃ n k used, t.get n = some k ∧ k.keyId = keyId ∧ k.lastUsedAt = some used ∧ now ≤ used + LAST_USED_THROTTLE

/-- A row that was used later than another, if it was used at all. -/
def Later (k k' : ApiKeyRow) : Prop := ∀ used, k.lastUsedAt = some used → ∃ used', k'.lastUsedAt = some used' ∧ used ≤ used'

/-! ## A write -/

variable {lower : String → String} {w₀ w w' : World} {t : KeyRows} {a : Action}

theorem get_touch {now : Nat} {c : Checked} {n : Nat} {k : ApiKeyRow} (hk : t.get n = some k) :
    (touch now c t).get n = some (if k.keyId == c.keyId && unused now k then usedRow now k else k) := by
  rw [touch, get_update, hk]
  rfl

/-- For any wait: the kernel would count a concrete one up. -/
theorem all_before_iff {wait now : Nat} {o : Option Nat} :
    (o.all fun used => decide (used + wait < now)) = true ↔ ∀ used, o = some used → used + wait < now := by
  cases o <;> simp

theorem unused_iff {now : Nat} {k : ApiKeyRow} :
    unused now k = true ↔ ∀ used, k.lastUsedAt = some used → used + LAST_USED_THROTTLE < now := all_before_iff

theorem KeyMove.later (h : KeyMove w a t) {n : Nat} {k : ApiKeyRow} (hk : w.apiKeys.get n = some k) :
    ∃ k', t.get n = some k' ∧ Kept k k' ∧ Later k k' := by
  obtain ⟨k', hk', hkept, hsame | ⟨r, req, c, -, -, -, -, hu, hnow⟩⟩ := h.row hk
  · exact ⟨k', hk', hkept, fun used hused => ⟨used, hsame.trans hused, Nat.le_refl used⟩⟩
  · refine ⟨k', hk', hkept, fun used hused => ⟨req.now, hnow, ?_⟩⟩
    have hlt := unused_iff.1 hu used hused
    omega

theorem Recent.move (hr : KeyMove w a t) {keyId : String} {now : Nat} (h : Recent w.apiKeys keyId now) :
    Recent t keyId now := by
  obtain ⟨n, k, used, hk, hid, hused, hnow⟩ := h
  obtain ⟨k', hk', hkept, hlater⟩ := hr.later hk
  obtain ⟨used', hused', hle⟩ := hlater used hused
  exact ⟨n, k', used', hk', hkept.keyId.trans hid, hused', by omega⟩

/-- **A commit leaves a recent use on the row**, its own or one within the hour. -/
theorem recent_touch {now : Nat} {c : Checked} {n : Nat} {k : ApiKeyRow} (hk : t.get n = some k)
    (hid : k.keyId = c.keyId) : Recent (touch now c t) c.keyId now := by
  have hget : (touch now c t).get n = _ := get_touch hk
  by_cases hu : unused now k = true
  · rw [if_pos (by simp [hid, hu])] at hget
    exact ⟨n, _, now, hget, hid, rfl, Nat.le_add_right _ _⟩
  · rw [if_neg (by simp [hu])] at hget
    rw [unused_iff] at hu
    push Not at hu
    obtain ⟨used, hused, hle⟩ := hu
    exact ⟨n, k, used, hget, hid, hused, hle⟩

/-! ## The writes of a run -/

/-- **The writes of a key are spaced, and its row has the latest.** -/
structure Throttled (w : World) (l : Uses) : Prop where
  unique : Unique w.apiKeys
  spaced : ∀ keyId, Spaced LAST_USED_THROTTLE (usesOf keyId l)
  latest : ∀ keyId used, (usesOf keyId l).head? = some used →
    ∃ n k, w.apiKeys.get n = some k ∧ k.keyId = keyId ∧ k.lastUsedAt = some used
  held : ∀ r req c, w.requests.get r = some req → req.stage = .checked c →
    ∃ n k, w.apiKeys.get n = some k ∧ k.keyId = c.keyId
  recent : ∀ r req c, w.requests.get r = some req → (req.stage = .accepted c ∨ req.stage = .answered c) →
    Recent w.apiKeys c.keyId req.now

theorem usesOf_cons (keyId id : String) (now : Nat) (l : Uses) :
    usesOf keyId ((id, now) :: l) = if id = keyId then now :: usesOf keyId l else usesOf keyId l := by
  unfold usesOf
  by_cases h : id = keyId <;> simp [h]

theorem noteUse_commit {r : Nat} {req : Request} {c : Checked} {l : Uses} (hreq : w.requests.get r = some req)
    (hc : req.stage = .checked c) :
    noteUse w (.commit r) l = if touches req.now c w.apiKeys then (c.keyId, req.now) :: l else l := by
  simp only [noteUse, hreq, checked?_eq_some.2 hc]

/-- The row a look-up found is there with its key. -/
theorem lookUp_held (hu : Unique t) {xApiKey : Option String} {c : Checked}
    (h : stageOfLookUp (lookUp t xApiKey) = .checked c) : ∃ n k, t.get n = some k ∧ k.keyId = c.keyId := by
  cases hl : lookUp t xApiKey with
  | error e =>
    rw [hl] at h
    cases h
  | ok d =>
    rw [hl] at h
    obtain rfl := Stage.checked.inj h
    obtain ⟨raw, n, k, -, -, hk, -, -, rfl⟩ := (lookUp_eq_ok hu).1 hl
    exact ⟨n, k, hk, rfl⟩

theorem stageOfConclude_accepted {now : Nat} {c : Checked} {d : Caller}
    (h : stageOfConclude (conclude now c) = .accepted d) : c.keyId = d.keyId := by
  have hkey : (stageOfConclude (conclude now c)).keyId? = some d.keyId := by rw [h]; rfl
  exact keyId_conclude hkey

theorem stageOfConclude_not_answered {now : Nat} {c : Checked} {d : Caller} :
    stageOfConclude (conclude now c) ≠ .answered d := by
  cases conclude now c <;> simp [stageOfConclude]

theorem stageOfLookUp_not_in {e : Except Paging.ApiError Checked} {c : Caller} :
    ¬ (stageOfLookUp e = .accepted c ∨ stageOfLookUp e = .answered c) := by
  cases e <;> simp [stageOfLookUp]

variable {l : Uses}

theorem Throttled.held_step (ht : Throttled w l) (h : (system lower w₀).step w a = some w') {r : Nat} {req : Request}
    {c : Checked} (hreq : w'.requests.get r = some req) (hstage : req.stage = .checked c) :
    ∃ n k, w'.apiKeys.get n = some k ∧ k.keyId = c.keyId := by
  have found : ∃ n k, w.apiKeys.get n = some k ∧ k.keyId = c.keyId := by
    rcases (step_moves h).2.get hreq with hsame | ⟨-, now, xApiKey, rfl⟩ | ⟨old, -, ⟨d, -, rfl⟩ | ⟨d, -, rfl⟩⟩
    · exact ht.held r req c hsame hstage
    · exact lookUp_held ht.unique hstage
    · exact absurd hstage conclude_not_checked
    · cases hstage
  obtain ⟨n, k, hk, hid⟩ := found
  obtain ⟨k', hk', hkept, -⟩ := (step_moves h).1.later hk
  exact ⟨n, k', hk', hkept.keyId.trans hid⟩

/-- The step of a request that is let in: a commit writes, or the row was written within the hour. -/
theorem Throttled.recent_step (ht : Throttled w l) (h : (system lower w₀).step w a = some w') {r : Nat} {req : Request}
    {c : Caller} (hreq : w'.requests.get r = some req) (hstage : req.stage = .accepted c ∨ req.stage = .answered c) :
    Recent w'.apiKeys c.keyId req.now := by
  obtain ⟨hkeys, hmove⟩ := step_moves h
  generalize hrequests : w'.requests = requests at hreq hmove
  cases hmove with
  | same => exact (ht.recent r req c hreq hstage).move hkeys
  | arrived now xApiKey =>
    rcases Table.get_insert_cases hreq with ⟨-, rfl⟩ | ⟨-, hold⟩
    · exact absurd hstage stageOfLookUp_not_in
    · exact (ht.recent r req c hold hstage).move hkeys
  | answered r' req' d hreq' hstage' =>
    rcases Table.get_modify_cases hreq with ⟨rfl, old, hold, rfl⟩ | ⟨-, hold⟩
    · rw [hreq'] at hold
      obtain rfl := Option.some.inj hold
      have hcd : d = c := by simpa [Request.at] using hstage
      subst hcd
      exact (ht.recent r req' d hreq' (.inl hstage')).move hkeys
    · exact (ht.recent r req c hold hstage).move hkeys
  | committed r' req' d ha hreq' hstage' =>
    rcases Table.get_modify_cases hreq with ⟨rfl, old, hold, rfl⟩ | ⟨-, hold⟩
    · rw [hreq'] at hold
      obtain rfl := Option.some.inj hold
      have hid : d.keyId = c.keyId := stageOfConclude_accepted (hstage.resolve_right stageOfConclude_not_answered)
      obtain ⟨n, k, hk, hkid⟩ := ht.held r req' d hreq' hstage'
      have hw : w'.apiKeys = touch req'.now d w.apiKeys := by
        rw [ha] at h
        simp only [system, World.step, hreq', Option.bind_some, checked?_eq_some.2 hstage', Option.map_some] at h
        rw [← Option.some.inj h]
        rfl
      rw [hw, ← hid]
      exact recent_touch hk hkid
    · exact (ht.recent r req c hold hstage).move hkeys

/-- **A write comes more than an hour after the one before it.** -/
theorem Throttled.use (ht : Throttled w l) {now : Nat} {c : Checked} (htouch : touches now c w.apiKeys = true)
    (keyId : String) : Spaced LAST_USED_THROTTLE (usesOf keyId ((c.keyId, now) :: l)) ∧
      ∀ used, (usesOf keyId ((c.keyId, now) :: l)).head? = some used →
        ∃ n k, (touch now c w.apiKeys).get n = some k ∧ k.keyId = keyId ∧ k.lastUsedAt = some used := by
  obtain ⟨n, k, hk, hp⟩ := Table.any_eq_true.1 htouch
  obtain ⟨hid, hu⟩ := Bool.and_eq_true_iff.1 hp
  rw [usesOf_cons]
  by_cases h : c.keyId = keyId
  · subst h
    rw [if_pos rfl]
    constructor
    · refine (ht.spaced c.keyId).cons fun used hused => ?_
      obtain ⟨m, k', hk', hid', hlast⟩ := ht.latest c.keyId used hused
      have hmn := ht.unique m n k' k hk' hk (hid'.trans (beq_iff_eq.1 hid).symm)
      subst hmn
      rw [hk] at hk'
      obtain rfl := Option.some.inj hk'
      exact unused_iff.1 hu used hlast
    · intro used hused
      obtain rfl := Option.some.inj hused
      refine ⟨n, usedRow now k, ?_, beq_iff_eq.1 hid, rfl⟩
      rw [get_touch hk, if_pos hp]
  · rw [if_neg h]
    refine ⟨ht.spaced keyId, fun used hused => ?_⟩
    obtain ⟨m, k', hk', hid', hlast⟩ := ht.latest keyId used hused
    refine ⟨m, k', ?_, hid', hlast⟩
    have hne : (k'.keyId == c.keyId) = false := beq_false_of_ne fun he => h (he.symm.trans hid')
    rw [get_touch hk', hne, Bool.false_and, if_neg Bool.false_ne_true]

/-- A row keeps when it was used, where nothing is written. -/
theorem lastUsedAt_same (h : (system lower w₀).step w a = some w')
    (hquiet : ∀ r req c, a = .commit r → w.requests.get r = some req → req.stage = .checked c →
      touches req.now c w.apiKeys = false) {n : Nat} {k : ApiKeyRow} (hk : w.apiKeys.get n = some k) :
    ∃ k', w'.apiKeys.get n = some k' ∧ Kept k k' ∧ k'.lastUsedAt = k.lastUsedAt := by
  obtain ⟨k', hk', hkept, hsame | ⟨r, req, c, ha, hreq, hstage, hid, hu, -⟩⟩ := (step_moves h).1.row hk
  · exact ⟨k', hk', hkept, hsame⟩
  · have hp := Table.any_eq_false.1 (hquiet r req c ha hreq hstage) n k hk
    rw [hid, hu, beq_self_eq_true] at hp
    cases hp

theorem Throttled.quiet (ht : Throttled w l) (h : (system lower w₀).step w a = some w')
    (hquiet : ∀ r req c, a = .commit r → w.requests.get r = some req → req.stage = .checked c →
      touches req.now c w.apiKeys = false) : Throttled w' l where
  unique := (step_moves h).1.unique ht.unique
  spaced := ht.spaced
  latest keyId used hused := by
    obtain ⟨n, k, hk, hid, hlast⟩ := ht.latest keyId used hused
    obtain ⟨k', hk', hkept, hsame⟩ := lastUsedAt_same h hquiet hk
    exact ⟨n, k', hk', hkept.keyId.trans hid, hsame.trans hlast⟩
  held _ _ _ hreq hstage := ht.held_step h hreq hstage
  recent _ _ _ hreq hstage := ht.recent_step h hreq hstage

theorem throttled_step (ht : Throttled w l) (h : (system lower w₀).step w a = some w') :
    Throttled w' (noteUse w a l) := by
  by_cases hcommit : ∃ r req c, a = .commit r ∧ w.requests.get r = some req ∧ req.stage = .checked c
  · obtain ⟨r, req, c, rfl, hreq, hstage⟩ := hcommit
    rw [noteUse_commit hreq hstage]
    by_cases htouch : touches req.now c w.apiKeys = true
    · have hw : w'.apiKeys = touch req.now c w.apiKeys := by
        simp only [system, World.step, hreq, Option.bind_some, checked?_eq_some.2 hstage, Option.map_some] at h
        rw [← Option.some.inj h]
        rfl
      rw [if_pos htouch]
      exact ⟨(step_moves h).1.unique ht.unique, fun keyId => (ht.use htouch keyId).1,
        fun keyId => hw ▸ (ht.use htouch keyId).2, fun _ _ _ => ht.held_step h, fun _ _ _ => ht.recent_step h⟩
    · rw [if_neg htouch]
      refine ht.quiet h fun r' req' c' hr hreq' hstage' => ?_
      obtain rfl := Action.commit.inj hr
      rw [hreq] at hreq'
      obtain rfl := Option.some.inj hreq'
      rw [hstage] at hstage'
      obtain rfl := Stage.checked.inj hstage'
      exact Bool.not_eq_true _ ▸ htouch
  · have hnote : noteUse w a l = l := by
      cases a with
      | commit r =>
        obtain ⟨req, hreq, h⟩ := Option.bind_eq_some_iff.1 h
        obtain ⟨c, hc, -⟩ := Option.map_eq_some_iff.1 h
        exact absurd ⟨r, req, c, rfl, hreq, checked?_eq_some.1 hc⟩ hcommit
      | devLogin now body e => rfl
      | arrive now xApiKey => rfl
      | createApiKey r now name e => rfl
      | revokeApiKey r now keyId => rfl
    rw [hnote]
    exact ht.quiet h fun r req c ha hreq hstage => absurd ⟨r, req, c, ha, hreq, hstage⟩ hcommit

/-- **A key's last use is written at most once in any hour, and is never more than an hour behind a request that was let
in**: in every run, over whatever keys there are at its start. -/
theorem last_used_throttled (hu : Unique w₀.apiKeys) (hnone : w₀.requests = .empty)
    (hr : (observed lower w₀).Reach (fun _ _ => True) (w, l)) :
    (∀ keyId lo width, ((usesOf keyId l).filter fun x => decide (lo ≤ x ∧ x < lo + width)).length ≤
      width / (LAST_USED_THROTTLE + 1) + 1) ∧
    ∀ r req c, w.requests.get r = some req → (req.stage = .accepted c ∨ req.stage = .answered c) →
      Recent w.apiKeys c.keyId req.now := by
  have ht : Throttled w l := by
    refine hr.inv (I := fun s => Throttled s.1 s.2) ?_ ?_
    · refine ⟨hu, fun _ => Spaced.nil, ?_, ?_, ?_⟩
      · intro keyId used hused
        cases hused
      · intro r req c hreq
        rw [show (observed lower w₀).init.1.requests = .empty from hnone] at hreq
        cases hreq
      · intro r req c hreq
        rw [show (observed lower w₀).init.1.requests = .empty from hnone] at hreq
        cases hreq
    · rintro ⟨v, g⟩ a ⟨v', g'⟩ - ht - hstep
      obtain ⟨hstep, hnote⟩ := Machine.withHistory_step hstep
      simp only at hstep hnote ht ⊢
      rw [hnote]
      exact throttled_step ht hstep
  exact ⟨fun keyId lo width => (ht.spaced keyId).window lo width, ht.recent⟩

/-- One key, never used. -/
def freshWorld : World := { apiKeys := Table.empty.insert (newRow 0 3 "console" zeroEntropy.mint) }

theorem last_used_throttled_fresh : ∃ w l, (observed id freshWorld).Reach (fun _ _ => True) (w, l) ∧
    Recent w.apiKeys zeroEntropy.mint.keyId 7 := by
  let c : Checked := ⟨3, zeroEntropy.mint.keyId, none⟩
  have hlookUp : lookUp freshWorld.apiKeys (some zeroEntropy.mint.plaintext) = .ok c :=
    (lookUp_eq_ok (unique_single _)).2 ⟨zeroEntropy.mint.plaintext, 0, newRow 0 3 "console" zeroEntropy.mint, rfl,
      parse_mint zeroEntropy.idLength zeroEntropy.secretLength, rfl, rfl, rfl, rfl⟩
  let w₁ : World := { freshWorld with requests := Table.empty.insert ⟨7, .checked c⟩ }
  have harrive : (observed id freshWorld).step (freshWorld, []) (.arrive 7 (some zeroEntropy.mint.plaintext)) =
      some (w₁, []) := by
    simp only [observed, Machine.withHistory, system, World.step, World.arrive, hlookUp]
    rfl
  have hcommit : (observed id freshWorld).step (w₁, []) (.commit 0) = some (w₁.commit 0 7 c, noteUse w₁ (.commit 0) []) :=
    rfl
  have hinit : (observed id freshWorld).Reach (fun _ _ => True) (freshWorld, []) := Machine.Reach.init
  have hreach := (hinit.snoc trivial harrive).snoc trivial hcommit
  have hrecent := (last_used_throttled (unique_single _) rfl hreach).2 0 ⟨7, .accepted ⟨3, zeroEntropy.mint.keyId⟩⟩
  exact ⟨_, _, hreach, hrecent ⟨3, zeroEntropy.mint.keyId⟩ rfl (.inl rfl)⟩

end Accounts
end SafeSend
