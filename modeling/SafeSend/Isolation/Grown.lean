import Mathlib.Data.List.Find
import SafeSend.Isolation.Isolated
import SafeSend.Lib.Effects
/-!
# What operations leave as it was

The searches that are there with their runs and results, the jobs that are ready, and the drafts but for the one the caller
edits: ten operations, of which one writes to searches, by adding one, and one to a draft that is there.
-/
namespace SafeSend
namespace Isolation

open Lib
open Database
open Send (ConnectionRow DraftView DraftChange)

variable {u v id : Nat} {db db' db'' : Database} {E : Nat → Nat → Prop}

/-! ## What waits to be claimed -/

/-- The jobs that are ready are left as they are. -/
def KeepsReady (jobs jobs' : Queue.Jobs) : Prop := ∀ n j, jobs.get n = some j → j.state = .ready → jobs'.get n = some j

namespace KeepsReady

variable {jobs jobs' jobs'' : Queue.Jobs}

theorem refl (jobs : Queue.Jobs) : KeepsReady jobs jobs := fun _ _ hj _ => hj

theorem trans (h : KeepsReady jobs jobs') (h' : KeepsReady jobs' jobs'') : KeepsReady jobs jobs'' :=
  fun n j hj hs => h' n j (h n j hj hs) hs

theorem enqueue (settings : Settings) (now : Nat) (jobs : Queue.Jobs) (a : Queue.EnqueueArgs) :
    KeepsReady jobs (Queue.enqueue settings now jobs a).2 := by
  intro n j hj _
  unfold Queue.enqueue
  split
  · exact hj
  · exact Table.get_insert_of_get _ hj

/-- A retry resumes a job that has come to its end. -/
theorem operatorRetry {now id extra : Nat} {hit : Bool} (h : Queue.operatorRetry now jobs id extra = some (hit, jobs')) :
    KeepsReady jobs jobs' := by
  intro n j hj hs
  unfold Queue.operatorRetry at h
  simp only at h
  split at h
  · cases h
  · obtain rfl := congrArg Prod.snd (Option.some.inj h)
    rcases Table.get_updateWhere_cases jobs id Queue.resumable (Queue.resumeRow now extra) n with
      hsame | ⟨-, i, hi, hres, -⟩
    · exact hsame.trans hj
    · obtain rfl := Option.some.inj (hi.symm.trans hj)
      rw [Queue.resumable, hs] at hres
      cases hres

theorem retryJobs {A : Around} {id : Nat} {partition : String} (h : retryJobs A id partition jobs = some jobs') :
    KeepsReady jobs jobs' := by
  unfold Isolation.retryJobs at h
  split at h
  · obtain rfl := Option.some.inj h
    exact enqueue _ _ _ _
  · obtain ⟨⟨hit, jobs₁⟩, hretry, rfl⟩ := Option.map_eq_some_iff.1 h
    exact operatorRetry hretry

theorem resumeOrEnqueue {settings : Settings} {now id : Nat} {partition : String}
    (h : Send.Store.resumeOrEnqueue settings now jobs id partition = some jobs') : KeepsReady jobs jobs' := by
  obtain ⟨⟨hit, jobs₁⟩, hresumed, rfl⟩ := Option.map_eq_some_iff.1 h
  have hkept : KeepsReady jobs jobs₁ := by
    split at hresumed
    · cases hresumed
      exact refl jobs
    · exact operatorRetry hresumed
  cases hit with
  | true => exact hkept
  | false => exact hkept.trans (enqueue _ _ _ _)

end KeepsReady

/-! ## What a user is shown only comes to be -/

/-- The searches that are there, their runs and their results stay as they are, and so do the connections, the jobs that
are ready, and the drafts but for those that are edited (`E`, by user and id). -/
structure Grown (E : Nat → Nat → Prop) (db db' : Database) : Prop where
  connections : db'.connections = db.connections
  results : db'.results = db.results
  searches : ∃ l, db'.searches = db.searches ++ l
  runs : ∃ l, db'.runs = db.runs ++ l ∧ ∀ r ∈ l, ∀ s ∈ db.searches, s.1 ≠ r.2.searchId
  drafts : ∀ v id d, ¬ E v id → db.draftOf v id = some d → db'.draftOf v id = some d
  ready : KeepsReady db.jobs db'.jobs

namespace Grown

theorem refl (E : Nat → Nat → Prop) (db : Database) : Grown E db db where
  connections := rfl
  results := rfl
  searches := ⟨[], (List.append_nil _).symm⟩
  runs := ⟨[], (List.append_nil _).symm, fun _ hr => by cases hr⟩
  drafts := fun _ _ _ _ h => h
  ready := .refl _

theorem trans (h : Grown E db db') (h' : Grown E db' db'') : Grown E db db'' where
  connections := h'.connections.trans h.connections
  results := h'.results.trans h.results
  searches := by
    obtain ⟨l, hl⟩ := h.searches
    obtain ⟨l', hl'⟩ := h'.searches
    exact ⟨l ++ l', by rw [hl', hl, List.append_assoc]⟩
  runs := by
    obtain ⟨l, hl, hfresh⟩ := h.runs
    obtain ⟨l', hl', hfresh'⟩ := h'.runs
    obtain ⟨searches, hsearches⟩ := h.searches
    refine ⟨l ++ l', by rw [hl', hl, List.append_assoc], fun r hr s hs => ?_⟩
    rcases List.mem_append.1 hr with hr | hr
    · exact hfresh r hr s hs
    · exact hfresh' r hr s (hsearches ▸ List.mem_append_left _ hs)
  drafts := fun v id d hE hd => h'.drafts v id d hE (h.drafts v id d hE hd)
  ready := h.ready.trans h'.ready

theorem mono {E' : Nat → Nat → Prop} (h : Grown E db db') (hE : ∀ v id, E v id → E' v id) : Grown E' db db' :=
  { h with drafts := fun v id d hnot => h.drafts v id d fun he => hnot (hE v id he) }

/-! ### Statements -/

theorem draw (db : Database) : Grown E db { db with drawn := db.drawn + 1 } := { Grown.refl E db with }

theorem insertDraft (db : Database) (id : Nat) (row : DraftRow) :
    Grown E db { db with drafts := db.drafts ++ [(id, row)] } :=
  { Grown.refl E db with
    drafts := by
      intro v m d _ hd
      obtain ⟨r, hr, rfl⟩ := Option.map_eq_some_iff.1 hd
      unfold draftOf
      rw [List.find?_append, hr]
      rfl }

theorem updateDraft (u id : Nat) (e : Send.DraftEdit) (db : Database) :
    Grown (fun v m => v = u ∧ m = id) db (db.updateDraft u id e) :=
  { Grown.refl (fun v m => v = u ∧ m = id) db with
    drafts := by
      intro v m d hnot hd
      obtain ⟨r, hr, rfl⟩ := Option.map_eq_some_iff.1 hd
      have hstay (r : Nat × DraftRow) (hp : (r.1 == m && r.2.userId == v) = true) :
          (if r.1 == id && r.2.userId == u then (r.1, r.2.edited e) else r) = r := by
        refine if_neg fun hq => hnot ?_
        obtain ⟨hm, hv⟩ := Bool.and_eq_true_iff.1 hp
        obtain ⟨hid, hu⟩ := Bool.and_eq_true_iff.1 hq
        exact ⟨(beq_iff_eq.1 hv).symm.trans (beq_iff_eq.1 hu), (beq_iff_eq.1 hm).symm.trans (beq_iff_eq.1 hid)⟩
      have hfind : (Keyed.alter (fun r => r.1 == id && r.2.userId == u) (DraftRow.edited e) db.drafts).find?
          (fun r => r.1 == m && r.2.userId == v) = some r := by
        unfold Keyed.alter
        rw [List.find?_map]
        have hsame : ∀ r ∈ db.drafts, ((fun r : Nat × DraftRow => r.1 == m && r.2.userId == v) ∘
            fun r => if r.1 == id && r.2.userId == u then (r.1, r.2.edited e) else r) r =
              (r.1 == m && r.2.userId == v) := by
          intro r _
          rw [Function.comp_apply]
          split <;> rfl
        rw [List.find?_congr hsame, hr]
        exact congrArg some (hstay r (List.find?_some (p := fun r : Nat × DraftRow => r.1 == m && r.2.userId == v) hr))
      exact congrArg (Option.map Prod.snd) hfind }

end Grown

/-! ## What each operation does to it -/

section

/-- A transaction that answers leaves a database grown. -/
abbrev Grows (E : Nat → Nat → Prop) {α : Type} (p : Tx α) : Prop := Tx.Within (Grown E) p

variable {α β : Type}

theorem grows_pure (x : α) : Grows E (Pure.pure x : Tx α) := .pure (Grown.refl E) x

theorem grows_read_bind (f : Database → α) {g : α → Tx β} (hg : ∀ x, Grows E (g x)) : Grows E (Tx.read f >>= g) :=
  .bind (fun _ _ _ h h' => h.trans h') (.read (Grown.refl E) f) hg

theorem grows_bind {p : Tx α} {g : α → Tx β} (hp : Grows E p) (hg : ∀ x, Grows E (g x)) : Grows E (p >>= g) :=
  .bind (fun _ _ _ h h' => h.trans h') hp hg

theorem grows_draw : Grows E draw := by
  intro db x db' h
  cases h
  exact Grown.draw db

theorem grows_enqueue (settings : Settings) (now : Nat) (a : Queue.EnqueueArgs) : Grows E (enqueue settings now a) := by
  intro db x db' h
  cases h
  exact { Grown.refl E db with ready := .enqueue _ _ _ _ }

theorem grows_onJobs {f : Queue.Jobs → Option Queue.Jobs} (hf : ∀ jobs jobs', f jobs = some jobs' → KeepsReady jobs jobs') :
    Grows E (onJobs f) := by
  intro db x db' h
  unfold onJobs at h
  split at h
  next jobs hjobs =>
    cases h
    exact { Grown.refl E db with ready := hf _ _ hjobs }
  next => cases h

theorem grows_updateSend (u id : Nat) (guard : Send.SendRow → Bool) (f : Send.SendRow → Send.SendRow) :
    Grows E (Tx.write fun db => db.updateSend u id guard f) := .write fun db => { Grown.refl E db with }

theorem constrained_ok {texts : List String} {check free present : Bool} {f : α × Database} {r : α × Database}
    (h : (constrain texts check free present >>= fun _ => .ok f) = .ok r) : f = r := by
  cases hconstrain : constrain texts check free present with
  | error e =>
    rw [hconstrain] at h
    cases h
  | ok _ =>
    rw [hconstrain] at h
    exact Except.ok.inj h

theorem grows_insertDraft (id : Nat) (row : DraftRow) : Grows E (insertDraft id row) := by
  intro db x db' h
  cases constrained_ok h
  exact Grown.insertDraft db id row

theorem grows_insertSend (id : Nat) (row : SendRow) : Grows E (insertSend id row) := by
  intro db x db' h
  cases constrained_ok h
  exact { Grown.refl E db with }

theorem grows_insertResolution (row : ResolutionRow) : Grows E (insertResolution row) := by
  intro db x db' h
  cases constrained_ok h
  exact { Grown.refl E db with }

/-! ### Operations -/

theorem grows_connectionById (n : Nat) : Grows E (connectionById n) := by
  refine grows_read_bind _ fun c => ?_
  cases c with
  | none => exact .refuse _
  | some c => exact grows_pure c

theorem grows_resolveConnection (u : Nat) (channel : ProviderKind) (connectionId : Option Nat) :
    Grows E (resolveConnection u channel connectionId) := by
  cases connectionId with
  | some n =>
    refine grows_bind (grows_connectionById n) fun c => ?_
    split
    · exact .refuse _
    · exact grows_pure _
  | none =>
    refine grows_read_bind _ fun found => ?_
    cases found with
    | some found => exact grows_pure found
    | none => exact grows_read_bind _ fun _ => .refuse _

theorem grows_createDraft (A : Around) (u : Nat) (d : NewDraft) : Grows E (createDraft A u d) := by
  unfold createDraft
  cases d.fault with
  | some message => exact .refuse _
  | none =>
    refine grows_bind (grows_resolveConnection u d.channel d.connectionId) fun c => ?_
    refine grows_bind (grows_bind grows_draw fun _ => grows_pure _) fun key => ?_
    refine grows_bind grows_draw fun id => ?_
    exact grows_bind (grows_insertDraft id _) fun _ => grows_pure _

theorem grows_getDraft (u id : Nat) : Grows E (getDraft u id) := by
  refine grows_read_bind _ fun row => ?_
  cases row with
  | none => exact .refuse _
  | some row => exact grows_bind (grows_connectionById row.connectionId) fun _ => grows_pure _

theorem grows_writeDraft (u id : Nat) (e : Send.DraftEdit) : Grows (fun v m => v = u ∧ m = id) (writeDraft u id e) := by
  intro db x db' h
  unfold writeDraft at h
  split at h
  next => cases h
  next =>
    cases constrained_ok h
    exact Grown.updateDraft u id e db

/-- **The one operation that edits a draft** edits that of its caller. -/
theorem grows_updateDraft (A : Around) (u id : Nat) (c : DraftChange) :
    Grows (fun v m => v = u ∧ m = id) (updateDraft A u id c) :=
  grows_bind (grows_getDraft u id) fun current => grows_bind (grows_writeDraft u id (changeOf A current c)) fun row =>
    grows_bind (grows_connectionById row.connectionId) fun _ => grows_pure _

theorem grows_replay (A : Around) (id : Nat) (row : SendRow) (confirmed : String) :
    Grows E (replay A id row confirmed) := by
  unfold replay
  split
  · exact .refuse _
  · exact grows_pure _

theorem grows_claimSend (A : Around) (a : Send.ClaimArgs) : Grows E (claimSend A a) := by
  refine grows_read_bind _ fun held => ?_
  cases held with
  | some r => exact grows_pure _
  | none => exact grows_bind grows_draw fun id => grows_bind (grows_insertSend id _) fun _ => grows_pure _

theorem grows_sendDraft (A : Around) (u id : Nat) (confirmed : Option String) : Grows E (sendDraft A u id confirmed) := by
  refine grows_bind (grows_getDraft u id) fun view => ?_
  split
  · exact .refuse _
  · refine grows_read_bind _ fun held => ?_
    cases held with
    | some r => exact grows_replay A r.1 r.2 _
    | none =>
      show Grows E (if _ then _ else _)
      split
      · exact .refuse _
      · refine grows_bind (grows_claimSend A _) fun r => ?_
        obtain ⟨sendId, row, won⟩ := r
        cases won with
        | false => exact grows_replay A sendId row _
        | true => exact grows_bind (grows_enqueue _ _ _) fun _ => grows_pure _

theorem grows_refreshed (u id : Nat) : Grows E (refreshed u id) := by
  refine grows_read_bind _ fun row => ?_
  cases row with
  | none => exact .refuse _
  | some row => exact grows_pure _

theorem grows_operatorRetry (A : Around) (u id : Nat) : Grows E (operatorRetry A u id) := by
  refine grows_read_bind _ fun row => ?_
  cases row with
  | none => exact .refuse _
  | some row =>
    have hretry : Grows E (Tx.write (fun db : Database => db.updateSend u id (fun _ => true) Send.operatorRetryRow) >>=
        fun _ => onJobs (retryJobs A id row.partition) >>= fun _ => refreshed u id) :=
      grows_bind (grows_updateSend u id _ _) fun _ =>
        grows_bind (grows_onJobs fun _ _ => .retryJobs) fun _ => grows_refreshed u id
    dsimp only
    cases row.state with
    | delivered => exact grows_pure _
    | uncertain => exact .refuse _
    | inFlight => exact grows_pure _
    | failedPermanent => exact hretry
    | failedTransient => exact hretry

theorem grows_resolveSend (A : Around) (u id : Nat) (resolution : String) (note : Option String) :
    Grows E (resolveSend A u id resolution note) := by
  unfold resolveSend
  cases Send.RESOLUTIONS.lookup resolution with
  | none => exact .refuse _
  | some r =>
    refine grows_read_bind _ fun row => ?_
    cases row with
    | none => exact .refuse _
    | some row =>
      have hsettle : Grows E (settle A u id row.partition r) := by
        cases r with
        | markedDelivered => exact grows_updateSend u id _ _
        | forcedResend => exact grows_bind (grows_updateSend u id _ _) fun _ => grows_onJobs fun _ _ => .resumeOrEnqueue
      show Grows E (if _ then _ else _)
      split
      · exact .refuse _
      · exact grows_bind (grows_insertResolution _) fun _ => grows_bind hsettle fun _ =>
          grows_bind (grows_refreshed u id) fun _ => grows_pure _

theorem grows_sendDetail (A : Around) (u id : Nat) : Grows E (sendDetail A u id) := by
  refine grows_read_bind _ fun row => ?_
  cases row with
  | none => exact .refuse _
  | some row => exact grows_read_bind _ fun _ => grows_pure _

theorem grows_loadSnapshot (A : Around) (u id : Nat) : Grows E (loadSnapshot A u id) := by
  refine grows_read_bind _ fun search => ?_
  cases search with
  | none => exact grows_pure _
  | some search => exact grows_read_bind _ fun _ => grows_read_bind _ fun _ => grows_pure _

end

end Isolation
end SafeSend
