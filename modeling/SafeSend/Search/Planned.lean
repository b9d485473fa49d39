import SafeSend.Search.Moves
/-!
# What was planned

Each run has the job of its number, and an execution knows the run of its job.  Both hold whatever the steps.
-/
namespace SafeSend
namespace Search

open Lib
open Queue (ClaimedJob JobRow)

def runKey (n : Nat) : String := "adapter_run:" ++ toString n

theorem runKey_inj {m n : Nat} (h : runKey m = runKey n) : m = n := toString_inj ((String.append_right_inj _).1 h)

/-- Runs and jobs are numbered alike, and none is deleted. -/
structure Planned (w : Store) : Prop where
  level : w.jobs.next = w.runs.next
  job : ∀ n, n < w.runs.next → ∃ j, w.jobs.get n = some j ∧ j.kind = .adapterRun ∧ j.refId = n ∧ j.dedupeKey = some (runKey n)
  run : ∀ n, n < w.runs.next → ∃ r, w.runs.get n = some r ∧ (w.searches.get r.searchId).isSome

/-! ## What stays -/

/-- No row is forgotten, what a row is about stays, and no result is rewritten. -/
structure Extends (w t : Store) : Prop where
  runs : ∀ n r, w.runs.get n = some r → ∃ r', t.runs.get n = some r' ∧ r'.searchId = r.searchId
  searches : ∀ n, (w.searches.get n).isSome → (t.searches.get n).isSome
  jobs : ∀ n j, w.jobs.get n = some j → ∃ j', t.jobs.get n = some j' ∧ j'.work = j.work ∧ j.attempts ≤ j'.attempts
  results : ∀ n row, n < w.results.next → t.results.get n = some row → w.results.get n = some row
  next : w.results.next ≤ t.results.next

variable {w t : Store} {settings : Settings} {D : Deployment}

theorem Extends.refl (w : Store) : Extends w w :=
  ⟨fun _ r h => ⟨r, h, rfl⟩, fun _ h => h, fun _ j h => ⟨j, h, rfl, Nat.le_refl _⟩, fun _ _ _ h => h, Nat.le_refl _⟩

/-- Only the jobs move. -/
theorem extends_of_jobs {jobs : Queue.Jobs} (hm : ∀ n, Queue.Move (w.jobs.get n) (jobs.get n)) :
    Extends w { w with jobs := jobs } where
  runs _ r h := ⟨r, h, rfl⟩
  searches _ h := h
  jobs n j hj := by
    have hn := hm n
    rw [hj] at hn
    exact hn.keeps
  results _ _ _ h := h
  next := Nat.le_refl _

theorem extends_updateRun (w : Store) (id : Nat) {f : AdapterRunRow → AdapterRunRow}
    (hf : ∀ r, (f r).searchId = r.searchId) : Extends w (w.updateRun id f) where
  runs n r hr := by
    rcases w.runs.get_modify_or id f n with hs | ⟨rfl, r₀, hr₀, hs⟩
    · exact ⟨r, hs.trans hr, rfl⟩
    · obtain rfl := Option.some.inj (hr.symm.trans hr₀)
      exact ⟨f r, hs, hf r⟩
  searches _ h := h
  jobs _ j h := ⟨j, h, rfl, Nat.le_refl _⟩
  results _ _ _ h := h
  next := Nat.le_refl _

/-! ### The results a transaction writes -/

theorem next_eraseAll : ∀ (t : Table ResultRow) (l : List Nat), (eraseAll t l).next = t.next
  | _, [] => rfl
  | t, id :: l => by rw [eraseAll, next_eraseAll, Table.next_erase]

theorem get_eraseAll : ∀ (t : Table ResultRow) (l : List Nat) (n : Nat),
    (eraseAll t l).get n = if n ∈ l then none else t.get n
  | t, [], n => by rw [eraseAll, if_neg List.not_mem_nil]
  | t, id :: l, n => by
    rw [eraseAll, get_eraseAll, Table.get_erase]
    by_cases hl : n ∈ l
    · rw [if_pos hl, if_pos (List.mem_cons_of_mem _ hl)]
    · by_cases hid : n = id
      · rw [if_neg hl, if_pos hid, if_pos (hid ▸ List.mem_cons_self)]
      · rw [if_neg hl, if_neg hid, if_neg fun hm => (List.mem_cons.1 hm).elim hid hl]

theorem next_insertAll : ∀ (t : Table ResultRow) (l : List ResultRow), (insertAll t l).next = t.next + l.length
  | _, [] => rfl
  | t, row :: l => by
    rw [insertAll, next_insertAll, Table.next_insert, List.length_cons]
    omega

theorem get_insertAll_of_lt : ∀ (t : Table ResultRow) (l : List ResultRow) {n : Nat}, n < t.next →
    (insertAll t l).get n = t.get n
  | _, [], _, _ => rfl
  | t, row :: l, n, h => by
    rw [insertAll, get_insertAll_of_lt _ l (by rw [Table.next_insert]; omega), Table.get_insert_of_ne _ _ (by omega)]

theorem extends_commitResults (w : Store) (l : Landing) : Extends w (w.commitResults l) where
  runs := (extends_updateRun w l.run.id (f := doneRow l.began l.rows.length l.mode) fun _ => rfl).runs
  searches _ h := h
  jobs _ j h := ⟨j, h, rfl, Nat.le_refl _⟩
  results n row hn hrow := by
    have hlt : n < (eraseAll w.results l.deleted).next := by rw [next_eraseAll]; exact hn
    change (insertAll (eraseAll w.results l.deleted) l.rows).get n = some row at hrow
    rw [get_insertAll_of_lt _ _ hlt, get_eraseAll] at hrow
    split at hrow
    · cases hrow
    · exact hrow
  next := by
    change w.results.next ≤ (insertAll (eraseAll w.results l.deleted) l.rows).next
    rw [next_insertAll, next_eraseAll]
    omega

theorem extends_closeSearch (w : Store) (searchId : Nat) : Extends w (w.closeSearch searchId) :=
  { Extends.refl w with searches := fun n h => (w.searches.isSome_get_modify searchId _ n).trans h }

/-- **An operation of an execution** forgets nothing. -/
theorem Stage.Next.extends {job : ClaimedJob} {st st' : Stage} (h : Stage.Next D job w st st' t) : Extends w t := by
  cases h with
  | started run | unknown run | recordedFailure run => exact extends_updateRun w run.id fun _ => rfl
  | landed l => exact extends_commitResults w l
  | closed run => exact extends_closeSearch w run.searchId
  | credited => exact { Extends.refl w with }
  | _ => exact Extends.refl _

/-- An operation of an execution touches no job. -/
theorem Stage.Next.jobs {job : ClaimedJob} {st st' : Stage} (h : Stage.Next D job w st st' t) : t.jobs = w.jobs := by
  cases h <;> rfl

/-! ## Planning -/

/-- New runs of one search, each pending with its job ready; all else as it was. -/
structure Grows (searchId : Nat) (w t : Store) : Prop where
  le : w.runs.next ≤ t.runs.next
  runs : ∀ n, n < w.runs.next → t.runs.get n = w.runs.get n
  jobs : ∀ n, n < w.runs.next → t.jobs.get n = w.jobs.get n
  fresh : ∀ n, w.runs.next ≤ n → n < t.runs.next → ∃ r j, t.runs.get n = some r ∧ r.searchId = searchId ∧
    r.status = .pending ∧ t.jobs.get n = some j ∧ j.state = .ready
  searches : t.searches = w.searches
  results : t.results = w.results

theorem Grows.refl (searchId : Nat) (w : Store) : Grows searchId w w :=
  ⟨Nat.le_refl _, fun _ _ => rfl, fun _ _ => rfl, fun _ h h' => absurd h' (Nat.not_lt.2 h), rfl, rfl⟩

theorem Grows.trans {searchId : Nat} (h : Grows searchId w t) (h' : Grows searchId t u) : Grows searchId w u where
  le := Nat.le_trans h.le h'.le
  runs n hn := (h'.runs n (Nat.lt_of_lt_of_le hn h.le)).trans (h.runs n hn)
  jobs n hn := (h'.jobs n (Nat.lt_of_lt_of_le hn h.le)).trans (h.jobs n hn)
  fresh n hn hlt := by
    by_cases ht : n < t.runs.next
    · obtain ⟨r, j, hr, hs, hp, hj, hready⟩ := h.fresh n hn ht
      exact ⟨r, j, (h'.runs n ht).trans hr, hs, hp, (h'.jobs n ht).trans hj, hready⟩
    · exact h'.fresh n (Nat.not_lt.1 ht) hlt
  searches := h'.searches.trans h.searches
  results := h'.results.trans h.results

theorem Planned.job_of_get (h : Planned w) {n : Nat} {j : JobRow} (hj : w.jobs.get n = some j) :
    j.kind = .adapterRun ∧ j.refId = n ∧ j.dedupeKey = some (runKey n) := by
  obtain ⟨j', hj', he⟩ := h.job n (h.level ▸ Table.lt_next_of_get hj)
  obtain rfl := Option.some.inj (hj.symm.trans hj')
  exact he

/-- The job of the next run is no duplicate. -/
theorem Planned.enqueue (h : Planned w) :
    Queue.enqueue settings w.now w.jobs (adapterJob w.runs.next) =
      (some w.jobs.next, w.jobs.insert (Queue.newRow settings w.now (adapterJob w.runs.next))) := by
  have hfree : Queue.duplicate w.jobs (adapterJob w.runs.next).dedupeKey = false := by
    show (true && _) = false
    rw [Bool.true_and, Table.any_eq_false]
    intro n j hj
    have hkey : j.dedupeKey ≠ some (runKey w.runs.next) := by
      rw [(h.job_of_get hj).2.2]
      intro he
      have hn := Table.lt_next_of_get hj
      rw [h.level, runKey_inj (Option.some.inj he)] at hn
      exact absurd hn (Nat.lt_irrefl _)
    show (j.dedupeKey == some (runKey w.runs.next) && j.live) = false
    rw [beq_eq_false_iff_ne.2 hkey, Bool.false_and]
  rw [Queue.enqueue, if_neg (by rw [hfree]; exact Bool.false_ne_true)]

variable (settings) in
theorem Planned.planRun (h : Planned w) {searchId : Nat} (hs : (w.searches.get searchId).isSome) (source : String)
    (connectionId : Option Nat) (mode : SourceMode) :
    Planned (w.planRun settings searchId source connectionId mode) ∧
      Grows searchId w (w.planRun settings searchId source connectionId mode) ∧
      (w.planRun settings searchId source connectionId mode).runs.next = w.runs.next + 1 := by
  unfold Store.planRun
  rw [h.enqueue]
  have hjob : (w.jobs.insert (Queue.newRow settings w.now (adapterJob w.runs.next))).get w.runs.next =
      some (Queue.newRow settings w.now (adapterJob w.runs.next)) := by
    rw [← h.level]
    exact Table.get_insert_self _ _
  have hold {n : Nat} (hn : n < w.runs.next) :
      (w.jobs.insert (Queue.newRow settings w.now (adapterJob w.runs.next))).get n = w.jobs.get n :=
    Table.get_insert_of_ne _ _ (Nat.ne_of_lt (h.level ▸ hn))
  refine ⟨⟨?_, fun n hn => ?_, fun n hn => ?_⟩,
    ⟨Nat.le_succ _, fun n hn => ?_, fun n hn => hold hn, fun n hn hlt => ?_, rfl, rfl⟩, rfl⟩
  · rw [Table.next_insert, Table.next_insert, h.level]
  · rcases Nat.lt_succ_iff_lt_or_eq.1 hn with hlt | rfl
    · obtain ⟨j, hj, he⟩ := h.job n hlt
      exact ⟨j, (hold hlt).trans hj, he⟩
    · exact ⟨_, hjob, rfl, rfl, rfl⟩
  · rcases Nat.lt_succ_iff_lt_or_eq.1 hn with hlt | rfl
    · obtain ⟨r, hr, he⟩ := h.run n hlt
      exact ⟨r, Table.get_insert_of_get _ hr, he⟩
    · exact ⟨_, Table.get_insert_self _ _, hs⟩
  · exact Table.get_insert_of_ne _ _ (Nat.ne_of_lt hn)
  · obtain rfl : n = w.runs.next := Nat.le_antisymm (Nat.lt_succ_iff.1 hlt) hn
    exact ⟨_, _, Table.get_insert_self _ _, rfl, rfl, hjob, rfl⟩

variable (settings) in
theorem Planned.planRuns {searchId : Nat} : ∀ (l : List (String × Option Nat × SourceMode)) {w : Store}, Planned w →
    (w.searches.get searchId).isSome → Planned (Store.planRuns settings searchId w l) ∧
      Grows searchId w (Store.planRuns settings searchId w l) ∧
      (Store.planRuns settings searchId w l).runs.next = w.runs.next + l.length
  | [], w, h, _ => ⟨h, Grows.refl _ _, rfl⟩
  | (source, connectionId, mode) :: l, w, h, hs => by
    obtain ⟨hp, hg, hn⟩ := h.planRun settings hs source connectionId mode
    obtain ⟨hp', hg', hn'⟩ := Planned.planRuns l hp (by rw [hg.searches]; exact hs)
    refine ⟨hp', hg.trans hg', ?_⟩
    rw [Store.planRuns, hn', hn, List.length_cons]
    omega

theorem registrations_length {R : Registry} : ∀ {l : List String} {chosen : List (String × Registration)},
    registrations R l = .ok chosen → chosen.length = l.length
  | [], chosen, h => by
    obtain rfl := Except.ok.inj h
    rfl
  | source :: l, chosen, h => by
    unfold registrations at h
    cases hr : R.registration source with
    | error e => rw [hr] at h; cases h
    | ok reg =>
      cases hl : registrations R l with
      | error e => rw [hr, hl] at h; cases h
      | ok rest =>
        rw [hr, hl] at h
        obtain rfl := Except.ok.inj h
        rw [List.length_cons, List.length_cons, registrations_length hl]

theorem connectionsFor_ne_nil (w : Store) (userId : Nat) (source : String) (reg : Registration) :
    connectionsFor w userId source reg ≠ [] := by
  unfold connectionsFor
  split
  · cases hc : activeConnections w userId source with
    | nil => exact List.cons_ne_nil _ _
    | cons a l => exact List.cons_ne_nil _ _
  · exact List.cons_ne_nil _ _

/-- A search fans out to something. -/
theorem fanOut_ne_nil {w : Store} {userId : Nat} {chosen : List (String × Registration)} (h : chosen ≠ []) :
    w.fanOut userId chosen ≠ [] := by
  intro hnil
  obtain ⟨c, hc⟩ := List.exists_mem_of_ne_nil _ h
  obtain ⟨k, hk⟩ := List.exists_mem_of_ne_nil _ (connectionsFor_ne_nil w userId c.1 c.2)
  unfold Store.fanOut at hnil
  have hm := List.flatMap_eq_nil_iff.1 hnil c hc
  exact List.ne_nil_of_mem (List.mem_map_of_mem hk) hm

/-- A new search, not finished, with runs of its own. -/
structure Opens (w t : Store) : Prop where
  search : ∃ s : SearchRow, s.finishedAt = none ∧ t.searches = w.searches.insert s
  grows : Grows w.searches.next { w with searches := t.searches } t
  runs : w.runs.next < t.runs.next

/-- **Planning opens a search, or fails and changes nothing.** -/
theorem Planned.planSearch (h : Planned w) (R : Registry) (userId : Nat) (query : String) (sources : List String) :
    (w.planSearch settings R userId query sources).2 = w ∨
      Planned (w.planSearch settings R userId query sources).2 ∧ Opens w (w.planSearch settings R userId query sources).2 := by
  unfold Store.planSearch
  extract_lets chosen searchId
  split
  · exact .inl rfl
  · rename_i hne
    split
    · exact .inl rfl
    · rename_i l hl
      right
      have hopen : Planned { w with
          searches := w.searches.insert { userId := userId, query := query, createdAt := w.now } } :=
        ⟨h.level, h.job, fun n hn => by
          obtain ⟨r, hr, hs⟩ := h.run n hn
          obtain ⟨s, hs⟩ := Option.isSome_iff_exists.1 hs
          exact ⟨r, hr, by rw [Table.get_insert_of_get _ hs]; rfl⟩⟩
      obtain ⟨hp, hg, hn⟩ := Planned.planRuns settings (w.fanOut userId l) hopen
        (by rw [Table.get_insert_self]; rfl)
      refine ⟨hp, ⟨⟨_, rfl, hg.searches⟩, hg.searches ▸ hg, ?_⟩⟩
      have hlen : l.length ≠ 0 := by
        rw [registrations_length hl]
        intro h0
        exact hne (List.isEmpty_iff.2 (List.length_eq_zero_iff.1 h0))
      have hfan : (w.fanOut userId l).length ≠ 0 := fun h0 =>
        fanOut_ne_nil (fun hnil => hlen (List.length_eq_zero_iff.2 hnil)) (List.length_eq_zero_iff.1 h0)
      show w.runs.next < _
      rw [hn]
      exact Nat.lt_add_of_pos_right (Nat.pos_of_ne_zero hfan)

theorem Opens.extends (h : Opens w t) (hw : Planned w) : Extends w t where
  runs n r hr := ⟨r, (h.grows.runs n (Table.lt_next_of_get hr)).trans hr, rfl⟩
  searches n hn := by
    obtain ⟨s, -, hs⟩ := h.search
    obtain ⟨s', hs'⟩ := Option.isSome_iff_exists.1 hn
    rw [hs, Table.get_insert_of_get s hs']
    rfl
  jobs n j hj := ⟨j, (h.grows.jobs n (hw.level ▸ Table.lt_next_of_get hj)).trans hj, rfl, Nat.le_refl _⟩
  results n row _ hrow := by
    rw [h.grows.results] at hrow
    exact hrow
  next := Nat.le_of_eq (congrArg Table.next h.grows.results).symm

/-! ## What every step keeps -/

/-- A step that numbers nothing. -/
structure Stays (w t : Store) : Prop extends Extends w t where
  nextRun : t.runs.next = w.runs.next
  nextJob : t.jobs.next = w.jobs.next

theorem Planned.stays (h : Planned w) (hx : Stays w t) : Planned t where
  level := hx.nextJob.trans (h.level.trans hx.nextRun.symm)
  job n hn := by
    obtain ⟨j, hj, hk, hid, hd⟩ := h.job n (hx.nextRun ▸ hn)
    obtain ⟨j', hj', hw, -⟩ := hx.jobs n j hj
    simp only [JobRow.work, Prod.mk.injEq] at hw
    exact ⟨j', hj', hw.1.trans hk, hw.2.1.trans hid, hw.2.2.2.trans hd⟩
  run n hn := by
    obtain ⟨r, hr, hs⟩ := h.run n (hx.nextRun ▸ hn)
    obtain ⟨r', hr', he⟩ := hx.runs n r hr
    exact ⟨r', hr', by rw [he]; exact hx.searches _ hs⟩

/-- A run that is there was there. -/
theorem Stays.run_back (hx : Stays w t) (h : Planned w) {n : Nat} {r : AdapterRunRow} (hr : t.runs.get n = some r) :
    ∃ r₀, w.runs.get n = some r₀ ∧ r.searchId = r₀.searchId := by
  obtain ⟨r₀, hr₀, -⟩ := h.run n (hx.nextRun ▸ Table.lt_next_of_get hr)
  obtain ⟨r', hr', he⟩ := hx.runs n r₀ hr₀
  obtain rfl := Option.some.inj (hr.symm.trans hr')
  exact ⟨r₀, hr₀, he⟩

theorem stays_of_jobs {jobs : Queue.Jobs} (hm : ∀ n, Queue.Move (w.jobs.get n) (jobs.get n))
    (hn : jobs.next = w.jobs.next) : Stays w { w with jobs := jobs } :=
  { extends_of_jobs hm with nextRun := rfl, nextJob := hn }

theorem Stage.Next.stays {job : ClaimedJob} {st st' : Stage} (h : Stage.Next D job w st st' t) : Stays w t where
  toExtends := h.extends
  nextRun := by cases h <;> rfl
  nextJob := congrArg Table.next h.jobs

/-- What happens outside every execution opens a search, or numbers nothing. -/
theorem Planned.outside (h : Planned w) {a : Action} (hs : w.outside settings D.registry a = some t) :
    Planned t ∧ Opens w t ∨ Stays w t := by
  have hstays : Stays w w := { Extends.refl w with nextRun := rfl, nextJob := rfl }
  cases a <;> simp only [Store.outside, Option.some.injEq, reduceCtorEq, Option.ite_none_right_eq_some] at hs
  case plan userId query sources =>
    subst hs
    rcases h.planSearch D.registry userId query sources with he | ho
    · rw [he]
      exact .inr hstays
    · exact .inl ho
  case sweep began limit locked =>
    obtain ⟨-, rfl⟩ := hs
    exact .inr (stays_of_jobs (Queue.applyRecoveries_move _ _ _) (Queue.next_applyRecoveries _ _ _))
  all_goals
    subst hs
    exact .inr { hstays with }

end Search
end SafeSend
