import SafeSend.Search.Held
/-!
# The stored results of a run

What the transaction of an execution's results leaves of the rows of its run, and of the rows of another.
-/
namespace SafeSend
namespace Search

open Lib

/-- The stored results of a run, in the order they were inserted. -/
def Store.stored (w : Store) (runId : Nat) : List ResultRow :=
  (w.results.rows.map Prod.snd).filter fun row => row.adapterRunId == runId

theorem rows_eraseAll : ∀ (t : Table ResultRow) (l : List Nat), (eraseAll t l).rows = t.rows.filter fun r => !l.contains r.1
  | t, [] => by
    rw [eraseAll]
    exact (List.filter_eq_self.2 fun _ _ => rfl).symm
  | t, id :: l => by
    rw [eraseAll, rows_eraseAll, Table.rows_erase, List.filter_filter]
    refine List.filter_congr fun r _ => ?_
    rw [List.contains_cons, Bool.not_or]
    exact Bool.and_comm _ _

theorem values_insertAll : ∀ (t : Table ResultRow) (l : List ResultRow),
    (insertAll t l).rows.map Prod.snd = t.rows.map Prod.snd ++ l
  | t, [] => (List.append_nil _).symm
  | t, row :: l => by
    rw [insertAll, values_insertAll, Table.rows_insert, List.map_append, List.append_assoc]
    rfl

variable {w : Store} {l : Landing}

/-- What is left of a run's results after a deletion. -/
theorem kept_eraseAll {runId : Nat} {f : Nat × ResultRow → Bool} (deleted : List Nat)
    (hf : ∀ r ∈ w.results.rows, r.2.adapterRunId = runId → (!deleted.contains r.1) = f r) :
    ((eraseAll w.results deleted).rows.map Prod.snd).filter (fun row => row.adapterRunId == runId) =
      ((w.results.rows.filter f).map Prod.snd).filter fun row => row.adapterRunId == runId := by
  rw [rows_eraseAll, List.filter_map, List.filter_map, List.filter_filter, List.filter_filter]
  congr 1
  refine List.filter_congr fun r hr => ?_
  by_cases hrun : r.2.adapterRunId = runId
  · rw [hf r hr hrun]
  · have : ((fun row : ResultRow => row.adapterRunId == runId) ∘ Prod.snd) r = false := beq_eq_false_iff_ne.2 hrun
    rw [this, Bool.false_and, Bool.false_and]

theorem stored_commitResults (runId : Nat) : (w.commitResults l).stored runId =
    ((eraseAll w.results l.deleted).rows.map Prod.snd).filter (fun row => row.adapterRunId == runId) ++
      l.rows.filter fun row => row.adapterRunId == runId := by
  show ((insertAll (eraseAll w.results l.deleted) l.rows).rows.map Prod.snd).filter _ = _
  rw [values_insertAll, List.filter_append]

/-- **Results stored for one run are no other's.** -/
theorem stored_commitResults_of_ne {runId : Nat} (hne : runId ≠ l.run.id)
    (hrows : ∀ row ∈ l.rows, row.adapterRunId = l.run.id)
    (hdel : ∀ id ∈ l.deleted, ∀ row, w.results.get id = some row → row.adapterRunId = l.run.id) :
    (w.commitResults l).stored runId = w.stored runId := by
  have hnone : l.rows.filter (fun row => row.adapterRunId == runId) = [] := by
    rw [List.filter_eq_nil_iff]
    intro row hrow he
    exact hne ((beq_iff_eq.1 he).symm.trans (hrows row hrow))
  rw [stored_commitResults, hnone, List.append_nil, kept_eraseAll (f := fun _ => true) l.deleted]
  · rw [List.filter_eq_self.2 fun _ _ => rfl]
    rfl
  · intro r hr hrun
    rw [Bool.not_eq_true', ← Bool.not_eq_true, List.contains_iff_mem]
    intro hm
    exact hne (hrun.symm.trans (hdel r.1 hm r.2 (Table.mem_rows.1 hr)))

/-- **An execution that deleted every stored row of its run leaves its own rows alone.** -/
theorem stored_commitResults_self (hrows : ∀ row ∈ l.rows, row.adapterRunId = l.run.id)
    (hall : ∀ id ∈ w.resultIds l.run.id, id ∈ l.deleted) : (w.commitResults l).stored l.run.id = l.rows := by
  have hempty : w.results.rows.filter (fun _ => false) = [] := by
    rw [List.filter_eq_nil_iff]
    intro r _ h
    cases h
  rw [stored_commitResults, kept_eraseAll (f := fun _ => false) l.deleted]
  · rw [hempty, List.map_nil, List.filter_nil, List.nil_append]
    exact List.filter_eq_self.2 fun row hrow => beq_iff_eq.2 (hrows row hrow)
  · intro r hr hrun
    rw [Bool.not_eq_false', List.contains_iff_mem]
    refine hall r.1 (List.mem_map.2 ⟨r, List.mem_filter.2 ⟨hr, beq_iff_eq.2 hrun⟩, rfl⟩)

variable {D : Deployment} {p : Proc} {st st' : Stage} {v : Store}

theorem rows_landing {count : Nat} (h : At D w p (.landing l count)) {row : ResultRow} (hrow : row ∈ l.rows) :
    row.adapterRunId = l.run.id := by
  obtain ⟨⟨ranked, hl⟩, -⟩ := h.holds
  rw [hl] at hrow
  obtain ⟨item, -, rfl⟩ := List.mem_map.1 hrow
  rfl

/-- An execution stores results for its own run alone. -/
theorem At.stored (h : At D w p st) (hn : Stage.Next D p.job w st st' v) {n : Nat} (hne : n ≠ p.job.id) :
    v.stored n = w.stored n := by
  cases hn with
  | landed l count =>
    have hid : l.run.id = p.job.id := (h.run l.run rfl).1
    exact stored_commitResults_of_ne (hid ▸ hne) (fun _ hrow => rows_landing h hrow) fun id hm row hrow =>
      (h.holds.2 id hm).2 row hrow
  | _ => rfl

/-- Only the transaction of its results writes a run's rows. -/
theorem Stage.Next.stored (hn : Stage.Next D p.job w st st' v) (hne : ∀ l count, st ≠ .landing l count) (n : Nat) :
    v.stored n = w.stored n := by
  cases hn with
  | landed l count => exact absurd rfl (hne l count)
  | _ => rfl

end Search
end SafeSend
