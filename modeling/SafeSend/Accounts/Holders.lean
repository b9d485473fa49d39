import SafeSend.Accounts.System
/-!
# Who is let in

Beside the run stands a ledger: the keys issued and to whom, the keys revoked, and for each request what the ledger said
when it arrived.  The rows are the ledger's, whatever was interleaved, so a request is let in by what was issued and
revoked before it came and by nothing else.
-/
namespace SafeSend
namespace Accounts

open Lib ApiKeys

structure Arrival where
  xApiKey : Option String
  issued : List (Nat × Entropy)
  revoked : List String

/-- The latest issue first. -/
structure Ledger where
  issued : List (Nat × Entropy) := []
  revoked : List String := []
  arrivals : List Arrival := []

namespace Ledger

variable (h : Ledger)

def now (xApiKey : Option String) : Arrival := ⟨xApiKey, h.issued, h.revoked⟩

def arrive (xApiKey : Option String) : Ledger := { h with arrivals := h.arrivals ++ [h.now xApiKey] }

def issue (userId : Nat) (e : Entropy) : Ledger := { h with issued := (userId, e) :: h.issued }

def revoke (keyId : String) : Ledger := { h with revoked := keyId :: h.revoked }

end Ledger

/-- What a step adds to the ledger: nothing where the route is refused. -/
def note (lower : String → String) (w : World) : Action → Ledger → Ledger
  | .devLogin now body e, h =>
    match devLogin lower now body e w.users w.apiKeys with
    | .ok ((userId, _), _) => h.issue userId e
    | .error _ => h
  | .arrive _ xApiKey, h => h.arrive xApiKey
  | .commit _, h => h
  | .createApiKey r now name e, h =>
    match (w.requests.get r).bind Request.ready? with
    | none => h
    | some c =>
      match createApiKey now c name e w.users w.apiKeys with
      | .ok _ => h.issue c.userId e
      | .error _ => h
  | .revokeApiKey r now keyId, h =>
    match (w.requests.get r).bind Request.ready? with
    | none => h
    | some c =>
      match revokeApiKey now c keyId w.apiKeys with
      | .ok _ => h.revoke keyId
      | .error _ => h

/-- The service from empty tables on, with its ledger. -/
def ledgered (lower : String → String) : Machine (World × Ledger) Action := (system lower {}).withHistory (note lower) {}

/-- **The presented text is a key that was issued and is not revoked**: its id, and its hash. -/
def LetIn (a : Arrival) (c : Caller) : Prop :=
  ∃ raw e, a.xApiKey = some raw ∧ (c.userId, e) ∈ a.issued ∧ e.mint.keyId = c.keyId ∧ c.keyId ∉ a.revoked ∧
    parse raw = some c.keyId ∧ hashSecret raw = hashSecret e.mint.plaintext

/-- Who a request runs as, now or later. -/
def Stage.caller? : Stage → Option Caller
  | .refused => none
  | .checked c => some ⟨c.userId, c.keyId⟩
  | .accepted c => some c
  | .answered c => some c

/-! ## The rows are the ledger's -/

theorem rows_update (p : ApiKeyRow → Bool) (f : ApiKeyRow → ApiKeyRow) (t : KeyRows) :
    (update p f t).rows = t.rows.map fun r => (r.1, if p r.2 then f r.2 else r.2) := by
  unfold Table.rows
  rw [List.map_filterMap, next_update]
  apply List.filterMap_congr
  intro n hn
  rw [get_update]
  cases t.get n <;> rfl

/-- What of a row never changes. -/
def face (k : ApiKeyRow) : Nat × String × String := (k.userId, k.keyId, k.keyHash)

def faceOf (i : Nat × Entropy) : Nat × String × String := (i.1, i.2.mint.keyId, i.2.mint.keyHash)

structure Booked (t : KeyRows) (h : Ledger) : Prop where
  unique : Unique t
  faces : (t.rows.map fun r => face r.2) = (h.issued.map faceOf).reverse
  expiresAt : ∀ n k, t.get n = some k → k.expiresAt = none
  revokedAt : ∀ n k, t.get n = some k → (k.revokedAt ≠ none ↔ k.keyId ∈ h.revoked)
  revoked : ∀ keyId ∈ h.revoked, ∃ n k, t.get n = some k ∧ k.keyId = keyId

theorem Booked.empty : Booked .empty {} := by
  refine ⟨?_, rfl, ?_, ?_, ?_⟩
  · intro n m k l hk
    cases hk
  · intro n k hk
    cases hk
  · intro n k hk
    cases hk
  · intro keyId hid
    cases hid

variable {t : KeyRows} {h : Ledger} {lower : String → String} {w w' : World}

theorem Booked.row (hb : Booked t h) {n : Nat} {k : ApiKeyRow} (hk : t.get n = some k) :
    ∃ e, (k.userId, e) ∈ h.issued ∧ e.mint.keyId = k.keyId ∧ e.mint.keyHash = k.keyHash := by
  have hmem : face k ∈ t.rows.map fun r => face r.2 := List.mem_map.2 ⟨(n, k), Table.mem_rows.2 hk, rfl⟩
  rw [hb.faces, List.mem_reverse, List.mem_map] at hmem
  obtain ⟨⟨u, e⟩, hi, hface⟩ := hmem
  simp only [faceOf, face, Prod.mk.injEq] at hface
  obtain ⟨rfl, hid, hhash⟩ := hface
  exact ⟨e, hi, hid, hhash⟩

theorem Booked.issued (hb : Booked t h) {u : Nat} {e : Entropy} (hi : (u, e) ∈ h.issued) :
    ∃ n k, t.get n = some k ∧ k.userId = u ∧ k.keyId = e.mint.keyId ∧ k.keyHash = e.mint.keyHash := by
  have hmem : faceOf (u, e) ∈ (h.issued.map faceOf).reverse := List.mem_reverse.2 (List.mem_map.2 ⟨_, hi, rfl⟩)
  rw [← hb.faces, List.mem_map] at hmem
  obtain ⟨⟨n, k⟩, hk, hface⟩ := hmem
  simp only [faceOf, face, Prod.mk.injEq] at hface
  exact ⟨n, k, Table.mem_rows.1 hk, hface⟩

/-- **An issue is booked.** -/
theorem Booked.issue (hb : Booked t h) {now u : Nat} {name : String} {e : Entropy}
    (hfree : ∀ n k, t.get n = some k → k.keyId ≠ e.mint.keyId) :
    Booked (t.insert (newRow now u name e.mint)) (h.issue u e) where
  unique := by
    intro n m k l hk hl hid
    rcases Table.get_insert_cases hk with ⟨rfl, rfl⟩ | ⟨-, hk⟩
    · rcases Table.get_insert_cases hl with ⟨rfl, -⟩ | ⟨-, hl⟩
      · rfl
      · exact absurd hid.symm (hfree m l hl)
    · rcases Table.get_insert_cases hl with ⟨rfl, rfl⟩ | ⟨-, hl⟩
      · exact absurd hid (hfree n k hk)
      · exact hb.unique n m k l hk hl hid
  faces := by
    rw [Table.rows_insert, List.map_append, hb.faces]
    exact List.reverse_cons.symm
  expiresAt n k hk := by
    rcases Table.get_insert_cases hk with ⟨-, rfl⟩ | ⟨-, hk⟩
    · rfl
    · exact hb.expiresAt n k hk
  revokedAt n k hk := by
    rcases Table.get_insert_cases hk with ⟨-, rfl⟩ | ⟨-, hk⟩
    · refine ⟨fun hr => absurd rfl hr, fun hr => ?_⟩
      obtain ⟨m, l, hl, hid⟩ := hb.revoked _ hr
      exact absurd hid (hfree m l hl)
    · exact hb.revokedAt n k hk
  revoked keyId hr := by
    obtain ⟨n, k, hk, hid⟩ := hb.revoked keyId hr
    exact ⟨n, k, Table.get_insert_of_get _ hk, hid⟩

theorem Booked.update (hb : Booked t h) {p : ApiKeyRow → Bool} {f : ApiKeyRow → ApiKeyRow} (hf : ∀ k, Kept k (f k))
    {h' : Ledger} (hissued : h'.issued = h.issued)
    (hrevoked : ∀ n k, t.get n = some k → ((if p k then f k else k).revokedAt ≠ none ↔ k.keyId ∈ h'.revoked))
    (hrow : ∀ keyId ∈ h'.revoked, ∃ n k, t.get n = some k ∧ k.keyId = keyId) : Booked (Accounts.update p f t) h' := by
  have origin {n : Nat} {k' : ApiKeyRow} (hk' : (Accounts.update p f t).get n = some k') :
      ∃ k, t.get n = some k ∧ k' = if p k then f k else k := by
    rw [get_update, Option.map_eq_some_iff] at hk'
    obtain ⟨k, hk, rfl⟩ := hk'
    exact ⟨k, hk, rfl⟩
  have kept (k : ApiKeyRow) : Kept k (if p k then f k else k) := by
    by_cases hp : p k
    · rw [if_pos hp]
      exact hf k
    · rw [if_neg hp]
      exact Kept.refl k
  constructor
  · intro n m k l hk hl hid
    obtain ⟨k₀, hk₀, rfl⟩ := origin hk
    obtain ⟨l₀, hl₀, rfl⟩ := origin hl
    exact hb.unique n m k₀ l₀ hk₀ hl₀ (by rw [← (kept k₀).keyId, hid, (kept l₀).keyId])
  · rw [rows_update, List.map_map, hissued, ← hb.faces]
    apply List.map_congr_left
    rintro ⟨n, k⟩ -
    simp only [Function.comp_apply, face, (kept k).userId, (kept k).keyId, (kept k).keyHash]
  · intro n k' hk'
    obtain ⟨k, hk, rfl⟩ := origin hk'
    rw [(kept k).expiresAt, hb.expiresAt n k hk]
  · intro n k' hk'
    obtain ⟨k, hk, rfl⟩ := origin hk'
    rw [(kept k).keyId]
    exact hrevoked n k hk
  · intro keyId hr
    obtain ⟨n, k, hk, hid⟩ := hrow keyId hr
    exact ⟨n, _, by rw [get_update, hk]; rfl, by rw [(kept k).keyId, hid]⟩

theorem Booked.touch (hb : Booked t h) (now : Nat) (c : Checked) : Booked (touch now c t) h := by
  refine hb.update (kept_usedRow now) rfl (fun n k hk => ?_) hb.revoked
  rw [← hb.revokedAt n k hk]
  split_ifs <;> rfl

/-- **A revocation is booked.** -/
theorem Booked.revoke (hb : Booked t h) {now : Nat} {c : Caller} {keyId : String}
    (hown : ∃ n k, t.get n = some k ∧ k.keyId = keyId ∧ k.userId = c.userId) :
    Booked (Accounts.update (ownKey c keyId) (revokedRow now) t) (h.revoke keyId) := by
  obtain ⟨m, l, hl, hid, huser⟩ := hown
  refine hb.update (kept_revokedRow now) rfl (fun n k hk => ?_) ?_
  · rw [Ledger.revoke, List.mem_cons]
    by_cases hk' : k.keyId = keyId
    · have hmn := hb.unique n m k l hk hl (hk'.trans hid.symm)
      subst hmn
      rw [hk] at hl
      obtain rfl := Option.some.inj hl
      have hp : ownKey c keyId k = true := by simp [ownKey, hk', huser]
      rw [if_pos hp]
      exact ⟨fun _ => .inl hk', fun _ => Option.some_ne_none _⟩
    · have hp : ¬ ownKey c keyId k = true := by simp [ownKey, hk']
      rw [if_neg hp, hb.revokedAt n k hk]
      exact ⟨.inr, fun hr => hr.resolve_left hk'⟩
  · intro id hr
    rcases List.mem_cons.1 hr with rfl | hr
    · exact ⟨m, l, hl, hid⟩
    · exact hb.revoked id hr

/-- **The look-up reads the ledger.** -/
theorem lookUp_iff (hb : Booked t h) {xApiKey : Option String} {c : Checked} :
    lookUp t xApiKey = .ok c ↔ c.expiresAt = none ∧ LetIn (h.now xApiKey) ⟨c.userId, c.keyId⟩ := by
  rw [lookUp_eq_ok hb.unique]
  constructor
  · rintro ⟨raw, n, k, rfl, hp, hk, hhash, hr, rfl⟩
    obtain ⟨e, hi, hid, hkeyHash⟩ := hb.row hk
    refine ⟨hb.expiresAt n k hk, raw, e, rfl, hi, hid, fun hrevoked => ?_, hp, hhash.trans hkeyHash.symm⟩
    exact (hb.revokedAt n k hk).2 hrevoked hr
  · rintro ⟨hexp, raw, e, hraw, hi, hid, hr, hp, hhash⟩
    obtain ⟨n, k, hk, huser, hkid, hkhash⟩ := hb.issued hi
    have hid' : k.keyId = c.keyId := hkid.trans hid
    refine ⟨raw, n, k, hraw, by rw [hid', hp], hk, hhash.trans hkhash.symm, ?_, ?_⟩
    · by_contra hne
      apply hr
      rw [← hid']
      exact (hb.revokedAt n k hk).1 hne
    · rw [huser, hid', hb.expiresAt n k hk, ← hexp]

/-! ## Requests -/

/-- **The stage of a request is what the ledger said when it arrived.** -/
structure Fated (req : Request) (a : Arrival) : Prop where
  caller : ∀ c, req.stage.caller? = some c ↔ LetIn a c
  unexpired : ∀ c, req.stage = .checked c → c.expiresAt = none

theorem fated_arrival (hb : Booked t h) (now : Nat) (xApiKey : Option String) :
    Fated ⟨now, stageOfLookUp (lookUp t xApiKey)⟩ (h.now xApiKey) := by
  cases hl : lookUp t xApiKey with
  | ok c =>
    obtain ⟨hexp, hin⟩ := (lookUp_iff hb).1 hl
    refine ⟨fun d => ?_, fun d hd => ?_⟩
    · constructor
      · intro hd
        obtain rfl := Option.some.inj hd
        exact hin
      · intro hd
        have hd' := (lookUp_iff hb (c := ⟨d.userId, d.keyId, none⟩)).2 ⟨rfl, hd⟩
        rw [hl] at hd'
        obtain rfl := Except.ok.inj hd'
        rfl
    · obtain rfl := Stage.checked.inj hd
      exact hexp
  | error e =>
    refine ⟨fun d => ?_, fun d hd => by cases hd⟩
    constructor
    · intro hd
      cases hd
    · intro hd
      have hd' := (lookUp_iff hb (c := ⟨d.userId, d.keyId, none⟩)).2 ⟨rfl, hd⟩
      rw [hl] at hd'
      cases hd'

theorem Fated.commit {req : Request} {a : Arrival} (hf : Fated req a) {c : Checked} (hc : req.stage = .checked c) :
    Fated (req.at (stageOfConclude (conclude req.now c))) a := by
  have hstage : stageOfConclude (conclude req.now c) = .accepted ⟨c.userId, c.keyId⟩ := by
    unfold conclude
    rw [hf.unexpired c hc]
    rfl
  refine ⟨fun d => ?_, fun d hd => ?_⟩
  · rw [← hf.caller d, hc]
    simp only [Request.at, hstage, Stage.caller?]
  · simp only [Request.at, hstage] at hd
    cases hd

theorem Fated.answer {req : Request} {a : Arrival} (hf : Fated req a) {c : Caller} (hc : req.stage = .accepted c) :
    Fated (req.at (.answered c)) a := by
  refine ⟨fun d => ?_, fun d hd => by cases hd⟩
  rw [← hf.caller d, hc]
  rfl

/-- **A run keeps its books.** -/
structure Accounted (w : World) (h : Ledger) : Prop where
  booked : Booked w.apiKeys h
  length : w.requests.next = h.arrivals.length
  fated : ∀ r req, w.requests.get r = some req → ∃ a, h.arrivals[r]? = some a ∧ Fated req a

/-- What a step that lets no request in does to the requests under way. -/
theorem Accounted.requests (ha : Accounted w h) {keys : KeyRows} {h' : Ledger} (hb : Booked keys h')
    (harrivals : h'.arrivals = h.arrivals) : Accounted { w with apiKeys := keys } h' :=
  ⟨hb, by rw [harrivals]; exact ha.length, fun r req hreq => by rw [harrivals]; exact ha.fated r req hreq⟩

theorem Accounted.stage (ha : Accounted w h) {r : Nat} {stage : Stage}
    (hf : ∀ req a, w.requests.get r = some req → Fated req a → Fated (req.at stage) a) :
    Accounted (w.setStage r stage) h where
  booked := ha.booked
  length := ha.length
  fated m req hreq := by
    rcases Table.get_modify_cases hreq with ⟨rfl, old, hold, rfl⟩ | ⟨-, hold⟩
    · obtain ⟨a, harr, hfated⟩ := ha.fated m old hold
      exact ⟨a, harr, hf old a hold hfated⟩
    · exact ha.fated m req hold

theorem Accounted.arrive (ha : Accounted w h) (now : Nat) (xApiKey : Option String) :
    Accounted (w.arrive now xApiKey) (h.arrive xApiKey) where
  booked := ⟨ha.booked.unique, ha.booked.faces, ha.booked.expiresAt, ha.booked.revokedAt, ha.booked.revoked⟩
  length := by
    rw [Ledger.arrive, List.length_append, ← ha.length]
    rfl
  fated r req hreq := by
    rcases Table.get_insert_cases hreq with ⟨rfl, rfl⟩ | ⟨-, hold⟩
    · refine ⟨h.now xApiKey, ?_, fated_arrival ha.booked now xApiKey⟩
      rw [Ledger.arrive, ha.length, List.getElem?_concat_length]
    · obtain ⟨a, harr, hfated⟩ := ha.fated r req hold
      refine ⟨a, ?_, hfated⟩
      rw [Ledger.arrive, List.getElem?_append_left (List.getElem?_eq_some_iff.1 harr).1, harr]

theorem accounted_step {a : Action} (ha : Accounted w h) (hs : World.step lower w a = some w') :
    Accounted w' (note lower w a h) := by
  cases a with
  | devLogin now body e =>
    obtain rfl := Option.some.inj hs
    cases ho : Accounts.devLogin lower now body e w.users w.apiKeys with
    | error f =>
      simp only [note, ho]
      exact ha
    | ok r =>
      obtain ⟨⟨u, issued⟩, users, keys⟩ := r
      obtain ⟨-, hfree, -, rfl⟩ := insertKey_eq_ok.1 (devLogin_eq_ok ho).2.1
      simp only [note, ho]
      exact ⟨ha.booked.issue hfree, ha.length, ha.fated⟩
  | arrive now xApiKey =>
    obtain rfl := Option.some.inj hs
    exact ha.arrive now xApiKey
  | commit r =>
    obtain ⟨req, hreq, hs⟩ := Option.bind_eq_some_iff.1 hs
    obtain ⟨c, hc, rfl⟩ := Option.map_eq_some_iff.1 hs
    refine (ha.requests (ha.booked.touch req.now c) rfl).stage fun req' a hreq' hf => ?_
    rw [hreq] at hreq'
    obtain rfl := Option.some.inj hreq'
    exact hf.commit (checked?_eq_some.1 hc)
  | createApiKey r now name e =>
    obtain ⟨req, hreq, hs⟩ := Option.bind_eq_some_iff.1 hs
    obtain ⟨c, hc, rfl⟩ := Option.map_eq_some_iff.1 hs
    have hready : (w.requests.get r).bind Request.ready? = some c := by rw [hreq]; exact hc
    have answers (req' : Request) (a : Arrival) (hreq' : w.requests.get r = some req') (hf : Fated req' a) :
        Fated (req'.at (.answered c)) a := by
      rw [hreq] at hreq'
      obtain rfl := Option.some.inj hreq'
      exact hf.answer (ready?_eq_some.1 hc)
    cases ho : Accounts.createApiKey now c name e w.users w.apiKeys with
    | error f =>
      simp only [note, hready, ho]
      exact ha.stage answers
    | ok issued =>
      obtain ⟨issued, keys⟩ := issued
      obtain ⟨-, hfree, -, rfl⟩ := insertKey_eq_ok.1 (createApiKey_eq_ok ho).1
      simp only [note, hready, ho]
      exact (ha.requests (ha.booked.issue hfree) rfl).stage answers
  | revokeApiKey r now keyId =>
    obtain ⟨req, hreq, hs⟩ := Option.bind_eq_some_iff.1 hs
    obtain ⟨c, hc, rfl⟩ := Option.map_eq_some_iff.1 hs
    have hready : (w.requests.get r).bind Request.ready? = some c := by rw [hreq]; exact hc
    have answers (req' : Request) (a : Arrival) (hreq' : w.requests.get r = some req') (hf : Fated req' a) :
        Fated (req'.at (.answered c)) a := by
      rw [hreq] at hreq'
      obtain rfl := Option.some.inj hreq'
      exact hf.answer (ready?_eq_some.1 hc)
    cases ho : Accounts.revokeApiKey now c keyId w.apiKeys with
    | error f =>
      simp only [note, hready, ho]
      exact ha.stage answers
    | ok answer =>
      obtain ⟨answer, keys⟩ := answer
      obtain ⟨rfl, -, hown⟩ := revokeApiKey_eq_ok ho
      simp only [note, hready, ho]
      exact (ha.requests (ha.booked.revoke hown) rfl).stage answers

theorem reach_accounted (hr : (ledgered lower).Reach (fun _ _ => True) (w, h)) : Accounted w h := by
  refine hr.inv (I := fun s => Accounted s.1 s.2) ?_ ?_
  · refine ⟨Booked.empty, rfl, fun r req hreq => ?_⟩
    cases hreq
  · rintro ⟨v, g⟩ a ⟨v', g'⟩ - ha - hstep
    obtain ⟨hstep, hnote⟩ := Machine.withHistory_step hstep
    simp only at hstep hnote ha ⊢
    rw [hnote]
    exact accounted_step ha hstep

/-- A key as it was issued is let in until it is revoked. -/
theorem letIn_plaintext {a : Arrival} {u : Nat} {e : Entropy} (hi : (u, e) ∈ a.issued)
    (hx : a.xApiKey = some e.mint.plaintext) : LetIn a ⟨u, e.mint.keyId⟩ ↔ e.mint.keyId ∉ a.revoked :=
  ⟨fun ⟨_, _, _, _, _, hr, _⟩ => hr,
    fun hr => ⟨e.mint.plaintext, e, hx, hi, rfl, hr, parse_mint e.idLength e.secretLength, rfl⟩⟩

/-- **A request runs as a user exactly when what it presented is a key issued to the user and not revoked when it
arrived**, in every run and wherever it was interrupted; and a key just as it was issued is such a text. -/
theorem let_in_iff (hr : (ledgered lower).Reach (fun _ _ => True) (w, h)) {r : Nat} {req : Request}
    (hreq : w.requests.get r = some req) : ∃ a, h.arrivals[r]? = some a ∧
      (∀ c, req.stage.caller? = some c ↔ LetIn a c) ∧
      ∀ u e, (u, e) ∈ a.issued → a.xApiKey = some e.mint.plaintext →
        (req.stage.caller? = some ⟨u, e.mint.keyId⟩ ↔ e.mint.keyId ∉ a.revoked) := by
  obtain ⟨a, ha, hf⟩ := (reach_accounted hr).fated r req hreq
  exact ⟨a, ha, hf.caller, fun u e hi hx => (hf.caller _).trans (letIn_plaintext hi hx)⟩

theorem first_login : devLogin id 1 {} zeroEntropy .empty .empty = .ok ((0, issuedOf zeroEntropy.mint),
    Table.empty.insert "dev@example.test", Table.empty.insert (newRow 1 0 "console" zeroEntropy.mint)) := by
  have hemail : Send.Store.storable "dev@example.test" = true := by decide
  have hname : Send.Store.storable "console" = true := by decide
  have hkey : byKeyId .empty zeroEntropy.mint.keyId = none := rfl
  have huser : ((Table.empty : UserRows).insert "dev@example.test").get 0 = some "dev@example.test" := rfl
  have hupsert : upsertUser id "dev@example.test" .empty = .ok (0, Table.empty.insert "dev@example.test") := by
    unfold upsertUser
    rw [hemail]
    rfl
  unfold devLogin insertKey
  simp only [hupsert, bind, Except.bind, hname, hkey, huser, Bool.not_true, Option.isSome_none, Option.isNone_some,
    Bool.false_eq_true, if_false]
  rfl

/-- What a first sign-in leaves. -/
def firstSignIn : World × Ledger :=
  ({ users := Table.empty.insert "dev@example.test"
     apiKeys := Table.empty.insert (newRow 1 0 "console" zeroEntropy.mint) }, { issued := [(0, zeroEntropy)] })

theorem firstSignIn_reach : (ledgered id).Reach (fun _ _ => True) firstSignIn := by
  have hlogin : (ledgered id).step ({}, {}) (.devLogin 1 {} zeroEntropy) = some firstSignIn := by
    simp only [ledgered, Machine.withHistory, system, World.step, note, first_login]
    rfl
  have hinit : (ledgered id).Reach (fun _ _ => True) ({}, {}) := Machine.Reach.init
  exact hinit.snoc trivial hlogin

theorem let_in_iff_login : ∃ w h req, (ledgered id).Reach (fun _ _ => True) (w, h) ∧ w.requests.get 0 = some req ∧
    req.stage.caller? = some ⟨0, zeroEntropy.mint.keyId⟩ := by
  let header := some zeroEntropy.mint.plaintext
  have harrive : (ledgered id).step firstSignIn (.arrive 2 header) =
      some (firstSignIn.1.arrive 2 header, firstSignIn.2.arrive header) := rfl
  have hreach := firstSignIn_reach.snoc trivial harrive
  let req : Request := ⟨2, stageOfLookUp (lookUp firstSignIn.1.apiKeys header)⟩
  have hreq : (firstSignIn.1.arrive 2 header).requests.get 0 = some req := rfl
  refine ⟨_, _, req, hreach, hreq, ?_⟩
  obtain ⟨a, ha, -, hkey⟩ := let_in_iff hreach hreq
  obtain rfl := Option.some.inj ha
  exact (hkey 0 zeroEntropy List.mem_cons_self rfl).2 List.not_mem_nil

/-! ## The listing -/

/-- **A user is shown every key ever issued to them, the latest first**, the revoked ones as revoked and the one in use
as current. -/
theorem listing_eq (hr : (ledgered lower).Reach (fun _ _ => True) (w, h)) (c : Caller) :
    ((listApiKeys c w.apiKeys).map fun i => (i.keyId, i.revokedAt.isSome, i.current)) =
      (h.issued.filter fun i => i.1 == c.userId).map fun i =>
        (i.2.mint.keyId, decide (i.2.mint.keyId ∈ h.revoked), i.2.mint.keyId == c.keyId) := by
  have hb := (reach_accounted hr).booked
  let shown (f : Nat × String × String) : String × Bool × Bool := (f.2.1, decide (f.2.1 ∈ h.revoked), f.2.1 == c.keyId)
  have hrows : ((w.apiKeys.rows.map Prod.snd).filter fun k => k.userId == c.userId).map
      (fun k => (k.keyId, k.revokedAt.isSome, k.keyId == c.keyId)) =
        ((w.apiKeys.rows.map fun r => face r.2).filter fun f => f.1 == c.userId).map shown := by
    rw [List.filter_map, List.filter_map, List.map_map, List.map_map]
    apply List.map_congr_left
    rintro ⟨n, k⟩ hk
    have hrow := hb.revokedAt n k (Table.mem_rows.1 (List.mem_filter.1 hk).1)
    have hsome : k.revokedAt.isSome = decide (k.keyId ∈ h.revoked) := by
      rw [Bool.eq_iff_iff, decide_eq_true_iff, ← hrow, Option.isSome_iff_ne_none]
    simp only [Function.comp_apply, shown, face, hsome]
  unfold listApiKeys
  rw [List.map_reverse, List.map_map]
  refine (congrArg List.reverse hrows).trans ?_
  rw [hb.faces, List.filter_reverse, List.map_reverse, List.reverse_reverse, List.filter_map, List.map_map]
  rfl

theorem listing_eq_login : (listApiKeys ⟨0, zeroEntropy.mint.keyId⟩ firstSignIn.1.apiKeys).map
    (fun i => (i.keyId, i.revokedAt.isSome, i.current)) = [(zeroEntropy.mint.keyId, false, true)] := by
  refine (listing_eq firstSignIn_reach ⟨0, zeroEntropy.mint.keyId⟩).trans ?_
  show [(zeroEntropy.mint.keyId, decide (zeroEntropy.mint.keyId ∈ []), zeroEntropy.mint.keyId == zeroEntropy.mint.keyId)] = _
  rw [beq_self_eq_true]
  rfl

end Accounts
end SafeSend
