import SafeSend.Isolation.References
import SafeSend.Isolation.Served
/-!
# Users are isolated

Two sessions of one user, on databases that agree on the user's rows, answer alike and spare every other user's row,
where no draft replies to another user's result.  Such a reply is not refused: it says whether the result is there, and
keeps it from being deleted.
-/
namespace SafeSend
namespace Isolation

open Lib
open Database
open Send (ConnectionRow DraftView)

variable {u id : Nat} {a b db db' : Database}

theorem Agree.refl (u : Nat) (db : Database) : Agree u db db :=
  ⟨rfl, rfl, rfl, rfl, rfl, rfl, rfl, rfl, rfl, rfl, rfl⟩

/-! ## Soundness of what is served -/

theorem resolveConnection_ok {channel : ProviderKind} {connectionId : Option Nat} {r : Nat × ConnectionRow}
    (h : resolveConnection u channel connectionId db = .ok (r, db')) :
    db' = db ∧ db.connections.get r.1 = some r.2 ∧ r.2.userId = u := by
  cases connectionId with
  | some n =>
    rw [resolveConnection_some] at h
    cases hf : (db.connections.get n).filter fun c => c.userId == u with
    | none =>
      rw [hf] at h
      cases h
    | some c =>
      rw [hf] at h
      obtain ⟨hget, hu⟩ := Option.filter_eq_some_iff.1 hf
      cases h
      exact ⟨rfl, hget, beq_iff_eq.1 hu⟩
  | none =>
    obtain ⟨found, s, hread, h⟩ := Tx.bind_ok h
    cases hread
    dsimp only at h
    cases hf : db.firstConnection u channel true with
    | none =>
      rw [hf] at h
      obtain ⟨broken, s', -, h⟩ := Tx.bind_ok h
      cases h
    | some found =>
      rw [hf] at h
      cases h
      obtain ⟨hget, hp⟩ := Table.first_eq_some hf
      exact ⟨rfl, hget, beq_iff_eq.1 (Bool.and_eq_true_iff.1 (Bool.and_eq_true_iff.1 hp).1).1⟩

theorem insertDraft_ok {row : DraftRow} {x : Unit} (h : insertDraft id row db = .ok (x, db')) :
    db' = { db with drafts := db.drafts ++ [(id, row)] } := by
  have hinsert : insertDraft id row db = (constrain row.texts row.checks (db.draftFree id row) (db.draftRefers row)).bind
      fun _ => .ok ((), { db with drafts := db.drafts ++ [(id, row)] }) := rfl
  rw [hinsert] at h
  cases hconstrain : constrain row.texts row.checks (db.draftFree id row) (db.draftRefers row) with
  | error e =>
    rw [hconstrain] at h
    cases h
  | ok _ =>
    rw [hconstrain] at h
    cases h
    rfl

/-- A draft that is created is the user's, goes out through the user's connection, and replies to what it was told. -/
theorem createDraft_ok {A : Around} {d : NewDraft} {v : DraftView} (h : createDraft A u d db = .ok (v, db')) :
    ∃ c row, v.draft.id = db.uuids (db.drawn + 1) ∧ db.connections.get row.connectionId = some c ∧ c.userId = u ∧
      row.userId = u ∧ row.inReplyToResultId = d.inReplyToResultId ∧
        db' = { db with drawn := db.drawn + 2, drafts := db.drafts ++ [(db.uuids (db.drawn + 1), row)] } := by
  unfold createDraft at h
  cases hfault : d.fault with
  | some message =>
    rw [hfault] at h
    cases h
  | none =>
    rw [hfault] at h
    obtain ⟨⟨n, c⟩, s, hconnection, hrest⟩ := Tx.bind_ok h
    obtain ⟨rfl, hget, hu⟩ := resolveConnection_ok hconnection
    obtain ⟨key, s₁, hkey, hrest⟩ := Tx.bind_ok hrest
    cases hkey
    obtain ⟨id, s₂, hid, hrest⟩ := Tx.bind_ok hrest
    cases hid
    obtain ⟨x, s₃, hinsert, hrest⟩ := Tx.bind_ok hrest
    have hs₃ := insertDraft_ok hinsert
    cases hrest
    exact ⟨c, _, rfl, hget, hu, rfl, rfl, hs₃⟩

theorem Database.Sound.createDraft (hs : db.Sound) {A : Around} {d : NewDraft} {v : DraftView}
    (h : createDraft A u d db = .ok (v, db')) : db'.Sound := by
  obtain ⟨c, row, -, hget, hu, hru, -, rfl⟩ := createDraft_ok h
  exact hs.draw.draw.insertDraft hs.draw.drawn hget (hu.trans hru.symm)

/-- **Whatever a user calls leaves a sound database sound.** -/
theorem Database.Sound.serve (hs : db.Sound) (u : Nat) (c : Call) : ((serve u c).commit db).2.Sound := by
  obtain ⟨A, request⟩ := c
  cases hrequest : request with
  | createDraft d =>
    unfold Tx.commit
    cases hr : Isolation.serve u ⟨A, .createDraft d⟩ db with
    | error e => exact hs
    | ok r =>
      obtain ⟨v, s, hv, h⟩ := Tx.bind_ok hr
      have hrs : r = (.draft v, s) := (Except.ok.inj h).symm
      rw [hrs]
      exact hs.createDraft hv
  | _ =>
    have hboth := both_serve (u := u) ⟨A, request⟩ db db ⟨hs, hs, Agree.refl u db⟩
    rw [hrequest] at hboth
    exact ((Coupling.Both.commit ⟨hs, hs, Agree.refl u db⟩
      (hboth (fun k hk => by cases hk) fun k hk => by cases hk)).2).holds.left

/-- A database that calls of users, one after another, made of another. -/
inductive Reached (db₀ : Database) : Database → Prop
  | start : Reached db₀ db₀
  | call {db : Database} (u : Nat) (c : Call) : Reached db₀ db → Reached db₀ ((serve u c).commit db).2

theorem Reached.sound {db₀ : Database} (h₀ : db₀.Sound) (h : Reached db₀ db) : db.Sound := by
  induction h with
  | start => exact h₀
  | call u c _ ih => exact ih.serve u c

/-! ## Replies to another user's result -/

/-- Nothing goes with a result. -/
theorem result_alone {k : Nat} {p : RowKey} (h : db.references.Swept (.result k) p) : p = .result k := by
  refine h.mem (S := fun p => p = .result k) (fun c p hp hc => ?_) rfl
  subst hp
  cases hc

section

variable {A : Around} {d : NewDraft} {v : DraftView} {k : Nat}

/-- **A reply that is taken refers to its result**, and keeps from being deleted every other user's row that the result would
go with. -/
theorem createDraft_pins (hs : db.Sound) (h : createDraft A u d db = .ok (v, db')) (hk : d.inReplyToResultId = some k) :
    (db'.Forbids (.draft v.draft.id) (.result k) ∧ ¬ db.references.Refers (.draft v.draft.id) (.result k)) ∧
      ∀ p, db'.Others u p → db'.references.Swept p (.result k) → ¬ db'.references.Deletable p := by
  have hs' := hs.createDraft h
  obtain ⟨c, row, hid, -, -, hu, hreply, rfl⟩ := createDraft_ok h
  rw [hid]
  have hmem : (db.uuids (db.drawn + 1), row) ∈ db.drafts ++ [(db.uuids (db.drawn + 1), row)] :=
    List.mem_append_right _ (List.mem_singleton.2 rfl)
  have hforbids : Forbids { db with drawn := db.drawn + 2, drafts := db.drafts ++ [(db.uuids (db.drawn + 1), row)] }
      (.draft (db.uuids (db.drawn + 1))) (.result k) := .draftReply hmem (hreply.trans hk)
  refine ⟨⟨hforbids, ?_⟩, fun p hp hswept hdeletable => ?_⟩
  · rintro (hc | hc)
    · cases hc
    · cases hc with
      | draftReply hd => exact hs.draw.drawn.unused.drafts _ hd rfl
  · have hdraft := hdeletable _ _ hswept hforbids
    obtain ⟨d', hd', hu'⟩ := hdraft.mem (S := Others _ u) (fun _ _ hp hc => hs'.others_closed hp hc) hp
    obtain rfl : row = d' := congrArg Prod.snd (Keyed.eq_of_key hs'.draftKeys hmem hd' rfl)
    exact hu' hu

theorem createDraft_spared_iff (hs : db.Sound) (h : createDraft A u d db = .ok (v, db')) :
    Spared u db db' ↔ ∀ k ∈ d.inReplyToResultId, ¬ db.Foreign u k := by
  constructor
  · intro hspared k hk hforeign
    obtain ⟨⟨hforbids, hnew⟩, -⟩ := createDraft_pins hs h hk
    exact hnew (hspared.referred _ (.result k) hforeign (.inr hforbids))
  · intro hreply
    have hs' := hs.createDraft h
    obtain ⟨c, row, -, -, -, hu, he, rfl⟩ := createDraft_ok h
    have hconfined := ((Confined.draw u db).trans (Confined.draw u _)).trans
      (Confined.insertDraft _ (db.uuids (db.drawn + 1)) hu fun k hk => hreply k (he ▸ hk))
    exact hconfined.spared hs hs'

end

/-! ## Sessions -/

/-- The answers of a session, but for the numbers of jobs, and the database it leaves. -/
def answers (u : Nat) (calls : List Call) (db : Database) : List (Except Refusal Response) :=
  (Tx.session (serve u) calls db).1.map (Except.map Response.plain)

def after (u : Nat) (calls : List Call) (db : Database) : Database := (Tx.session (serve u) calls db).2

/-- What a session of the user's may be seen to do, from two databases that agree on the user's rows. -/
structure Isolates (u : Nat) (calls : List Call) (a b : Database) : Prop where
  alike : answers u calls a = answers u calls b
  agree : Agree u (after u calls a) (after u calls b)
  left : Spared u a (after u calls a)
  right : Spared u b (after u calls b)

/-- **Users are isolated**, where no draft of the session replies to another user's result. -/
theorem isolated (u : Nat) (calls : List Call) {a b : Database} (ha : a.Sound) (hb : b.Sound) (h : Agree u a b)
    (hra : Tx.Allowed (serve u) (RepliesWithin u) calls a) (hrb : Tx.Allowed (serve u) (RepliesWithin u) calls b) :
    Isolates u calls a b := by
  obtain ⟨hanswers, hleft⟩ := Coupling.session_both both_serve ⟨ha, hb, h⟩ hra hrb
  exact ⟨hanswers, hleft.holds.agree, hleft.left.spared ha hleft.holds.left, hleft.right.spared hb hleft.holds.right⟩

/-! ## Two databases -/

def searchBy (userId : Nat) : SearchRow := { userId := userId, query := "budget", createdAt := 0 }

def runOf (searchId : Nat) : Search.AdapterRunRow where
  searchId := searchId
  source := "gmail"
  connectionId := none
  mode := .live

def resultOf (searchId adapterRunId : Nat) : Search.ResultRow where
  searchId := searchId
  adapterRunId := adapterRunId
  source := "gmail"
  externalId := "m1"
  title := "Budget"
  snippet := "The numbers"
  author := none
  occurredAt := none
  url := "https://mail.google.com/m1"
  sourceRank := 0
  blendedScore := 0

/-- Two users and a search of each, with its run; the results are still to come. -/
def searched (results : List (Nat × Search.ResultRow)) : Database where
  users := [1, 2]
  connections := Table.empty.insert { userId := 1, provider := .gmail, displayName := "one@example.com" }
  searches := [(10, searchBy 1), (20, searchBy 2)]
  runs := [(11, runOf 10), (21, runOf 20)]
  results := results
  uuids k := k + 100

/-- The first user's search has a result. -/
def found : Database := searched [(4, resultOf 10 11)]

/-- And the second user's one too. -/
def bothFound : Database := searched [(4, resultOf 10 11), (5, resultOf 20 21)]

def around : Around where
  settings := {}
  registry := ⟨[], fun source => source⟩
  isoformat := fun _ => ""
  collate := fun a b => decide (a ≤ b)
  now := 0
  named := fun _ _ => none

def replyTo (k : Nat) : Call where
  around := around
  request := .createDraft { channel := .gmail, recipient := "ann@example.com", body := "Thanks", inReplyToResultId := some k }

theorem searched_sound {results : List (Nat × Search.ResultRow)}
    (h : ∀ r ∈ results, r.2 = resultOf 10 11 ∨ r.2 = resultOf 20 21) : (searched results).Sound where
  searchKeys := by
    show List.Nodup [_, _]
    decide
  runKeys := by
    show List.Nodup [_, _]
    decide
  draftKeys := List.nodup_nil
  sendKeys := List.nodup_nil
  draftConnection := fun _ hr => by cases hr
  sendDraft := fun _ hr => by cases hr
  sendConnection := fun _ hr => by cases hr
  runSearch := by
    intro r hr
    rcases List.mem_cons.1 hr with rfl | hr
    · exact ⟨searchBy 1, List.mem_cons_self⟩
    · rw [List.mem_singleton.1 hr]
      exact ⟨searchBy 2, List.mem_cons_of_mem _ List.mem_cons_self⟩
  runConnection := by
    intro r hr n hn
    rcases List.mem_cons.1 hr with rfl | hr
    · cases hn
    · rw [List.mem_singleton.1 hr] at hn
      cases hn
  resultRun := by
    intro r hr
    rcases h r hr with he | he
    · rw [he]
      exact ⟨runOf 10, List.mem_cons_self, rfl⟩
    · rw [he]
      exact ⟨runOf 20, List.mem_cons_of_mem _ List.mem_cons_self, rfl⟩
  resolutionSend := fun _ _ hget => by cases hget
  jobKey := fun _ _ hget => by cases hget
  unused k _ :=
    { searches := fun r hr => by
        rcases List.mem_cons.1 hr with rfl | hr
        · show 10 ≠ k + 100
          omega
        · rw [List.mem_singleton.1 hr]
          show 20 ≠ k + 100
          omega
      runs := fun r hr => by
        rcases List.mem_cons.1 hr with rfl | hr
        · show 11 ≠ k + 100
          omega
        · rw [List.mem_singleton.1 hr]
          show 21 ≠ k + 100
          omega
      drafts := fun _ hr => by cases hr
      sends := fun _ hr => by cases hr
      jobs := fun _ _ hget => by cases hget }
  distinct := fun _ _ he => Nat.add_right_cancel he

theorem found_sound : found.Sound := searched_sound fun _ hr => .inl (congrArg Prod.snd (List.mem_singleton.1 hr))

theorem bothFound_sound : bothFound.Sound := by
  refine searched_sound fun r hr => ?_
  rcases List.mem_cons.1 hr with rfl | hr
  · exact .inl rfl
  · exact .inr (congrArg Prod.snd (List.mem_singleton.1 hr))

theorem found_agree : Agree 1 found bothFound := ⟨rfl, rfl, rfl, rfl, rfl, rfl, rfl, rfl, rfl, rfl, rfl⟩

theorem own_result {db : Database} {k : Nat} (h : ∀ r ∈ db.results, r.1 = k → db.ownsSearch u r.2.searchId = true) :
    ¬ db.Foreign u k := by
  rintro ⟨r, hr, he, hown⟩
  rw [h r hr he] at hown
  cases hown

theorem isolated_reply : Isolates 1 [replyTo 4, ⟨around, .getDraft 101⟩, ⟨around, .loadSnapshot 20⟩] found bothFound := by
  refine isolated 1 _ found_sound bothFound_sound found_agree ⟨?_, ?_, ?_, trivial⟩ ⟨?_, ?_, ?_, trivial⟩
  · intro k hk
    obtain rfl : 4 = k := Option.some.inj hk
    exact own_result (by decide)
  · exact fun k hk => by cases hk
  · exact fun k hk => by cases hk
  · intro k hk
    obtain rfl : 4 = k := Option.some.inj hk
    exact own_result (by decide)
  · exact fun k hk => by cases hk
  · exact fun k hk => by cases hk

/-- The first user learns that the second's result is there, and the result can no longer be deleted. -/
theorem reply_told : (found.Sound ∧ bothFound.Sound ∧ Agree 1 found bothFound) ∧
    answers 1 [replyTo 5] found ≠ answers 1 [replyTo 5] bothFound ∧
      bothFound.Others 1 (.result 5) ∧ bothFound.references.Deletable (.result 5) ∧
        ¬ (after 1 [replyTo 5] bothFound).references.Deletable (.result 5) := by
  have hforeign : bothFound.Foreign 1 5 := ⟨_, List.mem_cons_of_mem _ List.mem_cons_self, rfl, rfl⟩
  have hrefused : answers 1 [replyTo 5] found = [.error .foreignKey] := rfl
  obtain ⟨v, hserved⟩ : ∃ v, serve 1 (replyTo 5) bothFound = .ok (.draft v, after 1 [replyTo 5] bothFound) := ⟨_, rfl⟩
  obtain ⟨v', s, hcreated, hs⟩ := Tx.bind_ok hserved
  cases hs
  refine ⟨⟨found_sound, bothFound_sound, found_agree⟩, ?_, hforeign, ?_, ?_⟩
  · rw [hrefused]
    intro he
    cases he
  · intro p c hswept hc
    rw [result_alone hswept] at hc
    cases hc with
    | draftReply hd => cases hd
  · exact (createDraft_pins bothFound_sound hcreated rfl).2 (.result 5) hforeign Relation.ReflTransGen.refl

end Isolation
end SafeSend
