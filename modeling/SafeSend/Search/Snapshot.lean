import SafeSend.Search.Merge
import SafeSend.Search.Store
/-!
# The snapshot's page

The stored rows of a search, read in whatever order the database gives them, and merged.  Rounds order the sources
strictly, so a page depends on its reading only within a source, where rows may tie in score and id.
-/
namespace SafeSend
namespace Search

open Lib

/-- A stored row as a snapshot ranks it: its recency is not kept. -/
def snapshotRanked (isoformat : Instant → String) (row : ResultRow) : Scored Rat where
  result := {
    source := row.source
    id := row.externalId
    title := row.title
    snippet := row.snippet
    url := row.url
    author := row.author
    timestamp := row.occurredAt.map isoformat }
  sourceRank := row.sourceRank
  recencyWeight := 0
  blendedScore := row.blendedScore

/-- `merged` of `_snapshot_within`, of the rows as they were read. -/
def snapshotMerged (isoformat : Instant → String) (rows : List ResultRow) : Option (List (Scored Rat)) :=
  merge PER_SOURCE_CAP (rows.map (snapshotRanked isoformat))

variable {σ : Type} [LinearOrder σ]

/-- How many rows of its source stand strictly before a row. -/
def ahead (ranked : List (Scored σ)) (row : Scored σ) : Nat :=
  (ranked.filter fun r => sourceOf r = sourceOf row).countP fun r => !decide (rowBefore row r)

/-- Different rows of a source that tie in score and id stand past the cap. -/
def TiesPastCap (cap : Nat) (ranked : List (Scored σ)) : Prop :=
  ∀ a ∈ ranked, ∀ b ∈ ranked, sourceOf a = sourceOf b → a.blendedScore = b.blendedScore → a.result.id = b.result.id →
    a ≠ b → cap ≤ ahead ranked a

/-! ## The rounds read the sources' rows alone -/

theorem headBefore_antisymm {a b : String × Scored σ} (hab : headBefore a b) (hba : headBefore b a) : a.1 = b.1 := by
  rcases hab with hab | ⟨hscore, hle⟩
  · exact absurd (score_le_of_headBefore hba) hab.not_ge
  · rcases hba with hba | ⟨-, hge⟩
    · exact absurd hscore hba.ne'
    · exact le_antisymm hle hge

variable {buckets others : Buckets σ}

omit [LinearOrder σ] in
theorem heads_nodup (hnodup : buckets.sources.Nodup) : buckets.heads.Nodup :=
  (hnodup.sublist (heads_sources_sublist buckets)).of_map

/-- **A round's order is that of the heads**, however the buckets were met. -/
theorem order_congr (hnodup : buckets.sources.Nodup) (hothers : others.sources.Nodup)
    (hitems : ∀ k, buckets.items k = others.items k) : buckets.order = others.order := by
  have hheads : buckets.heads.Perm others.heads := by
    rw [List.perm_ext_iff_of_nodup (heads_nodup hnodup) (heads_nodup hothers)]
    rintro ⟨k, row⟩
    rw [mem_heads hnodup, mem_heads hothers, hitems]
  have hsorted : buckets.heads.insertionSort headBefore = others.heads.insertionSort headBefore := by
    refine List.Perm.eq_of_pairwise ?_ (List.pairwise_insertionSort headBefore _)
      (List.pairwise_insertionSort headBefore _) ?_
    · rintro ⟨k, row⟩ ⟨l, other⟩ ha hb hab hba
      have hkl : k = l := headBefore_antisymm hab hba
      have hrow := (mem_heads hnodup).1 ((List.mem_insertionSort headBefore).1 ha)
      have hother := (mem_heads hothers).1 ((List.mem_insertionSort headBefore).1 hb)
      rw [hkl, hitems, hother] at hrow
      rw [hkl, Option.some.inj hrow]
    · exact (List.perm_insertionSort headBefore _).trans
        (hheads.trans (List.perm_insertionSort headBefore _).symm)
  unfold Buckets.order
  rw [hsorted]

omit [LinearOrder σ] in
theorem any_iff (hnodup : buckets.sources.Nodup) :
    (buckets.any fun e => !e.2.isEmpty) = true ↔ ∃ k, buckets.items k ≠ [] := by
  rw [List.any_eq_true]
  constructor
  · rintro ⟨e, he, hne⟩
    rw [Bool.not_eq_true', List.isEmpty_eq_false_iff, ← items_of_mem hnodup he] at hne
    exact ⟨e.1, hne⟩
  · rintro ⟨k, hne⟩
    have hk : k ∈ buckets.sources := by
      by_contra hk
      exact hne (items_of_not_mem hk)
    obtain ⟨e, he, rfl⟩ := List.mem_map.1 hk
    rw [items_of_mem hnodup he] at hne
    exact ⟨e, he, by rw [Bool.not_eq_true', List.isEmpty_eq_false_iff]; exact hne⟩

/-- **The rounds read each source's rows**, and not the order the sources were met in. -/
theorem rounds_congr : ∀ (fuel : Nat) {buckets others : Buckets σ}, buckets.sources.Nodup → others.sources.Nodup →
    (∀ k, buckets.items k = others.items k) → rounds fuel buckets = rounds fuel others
  | 0, _, _, _, _, _ => rfl
  | fuel + 1, buckets, others, hnodup, hothers, hitems => by
    have hany : (buckets.any fun e => !e.2.isEmpty) = others.any fun e => !e.2.isEmpty := by
      rw [Bool.eq_iff_iff, any_iff hnodup, any_iff hothers]
      exact exists_congr fun k => by rw [hitems]
    have horder := order_congr hnodup hothers hitems
    obtain ⟨rest, hsweep, hsources, hrest⟩ := sweep_eq (order_nodup hnodup) fun k hk => (mem_order hnodup k).1 hk
    obtain ⟨rest', hsweep', hsources', hrest'⟩ := sweep_eq (order_nodup hothers) fun k hk => (mem_order hothers k).1 hk
    have hheads : headsOf buckets.items buckets.order = headsOf others.items others.order := by
      rw [horder, funext hitems]
    have htails (k : String) : rest.items k = rest'.items k := by
      rw [hrest, hrest', horder, hitems]
    have hnext := rounds_congr fuel (hsources ▸ hnodup) (hsources' ▸ hothers) htails
    unfold rounds
    rw [hany, hsweep, hsweep']
    simp only [hheads, hnext]

/-- **A merge is what its sources' first rows make of it.** -/
theorem merge_eq_iff (cap : Nat) {ranked read : List (Scored σ)} (hlength : read.length = ranked.length) :
    merge cap read = merge cap ranked ↔ ∀ source, firstRows cap read source = firstRows cap ranked source := by
  constructor
  · intro heq source
    obtain ⟨merged, hmerged, hinter⟩ := merge_interleave cap ranked
    obtain ⟨merged', hmerged', hinter'⟩ := merge_interleave cap read
    have hsame : merged' = merged := by
      rw [hmerged, hmerged'] at heq
      exact Option.some.inj heq
    rw [← hinter.filter (firstRows_keyed cap ranked), ← hinter'.filter (firstRows_keyed cap read), hsame]
  · intro hrows
    unfold merge
    rw [hlength]
    refine rounds_congr _ (nodup_capped cap read) (nodup_capped cap ranked) fun k => ?_
    rw [items_capped, items_capped, hrows]

/-! ## Readings of one set of rows -/

omit [LinearOrder σ] in
/-- Rows of a source in any order, the other sources' rows after them. -/
theorem exists_reading {ranked m : List (Scored σ)} {source : String}
    (hm : m.Perm (ranked.filter fun row => sourceOf row = source)) :
    ∃ read : List (Scored σ), read.Perm ranked ∧ (read.filter fun row => sourceOf row = source) = m := by
  refine ⟨m ++ ranked.filter fun row => !decide (sourceOf row = source), ?_, ?_⟩
  · exact (hm.append_right _).trans (List.filter_append_perm (fun row => decide (sourceOf row = source)) ranked)
  · have hown : m.filter (fun row => decide (sourceOf row = source)) = m := by
      rw [List.filter_eq_self]
      intro row hrow
      exact (List.mem_filter.1 (hm.mem_iff.1 hrow)).2
    have hnone : (ranked.filter fun row => !decide (sourceOf row = source)).filter
        (fun row => decide (sourceOf row = source)) = [] := by
      rw [List.filter_filter, List.filter_eq_nil_iff]
      intro row _
      simp
    rw [List.filter_append, hown, hnone, List.append_nil]

theorem rowBefore_both {a b : Scored σ} :
    rowBefore a b ∧ rowBefore b a ↔ a.blendedScore = b.blendedScore ∧ a.result.id = b.result.id := by
  unfold rowBefore
  constructor
  · rintro ⟨hab, hba⟩
    rcases hab with hab | ⟨hscore, hid⟩
    · rcases hba with hba | ⟨hba, -⟩
      · exact absurd hab hba.asymm
      · exact absurd hba hab.ne'
    · rcases hba with hba | ⟨-, hid'⟩
      · exact absurd hscore hba.ne'
      · exact ⟨hscore.symm, le_antisymm hid hid'⟩
  · rintro ⟨hscore, hid⟩
    exact ⟨.inr ⟨hscore.symm, hid.le⟩, .inr ⟨hscore, hid.ge⟩⟩

/-- **A merge is the same for every reading exactly where ties of different rows stand past the cap.** -/
theorem merge_reading_iff (cap : Nat) (ranked : List (Scored σ)) :
    (∀ read : List (Scored σ), read.Perm ranked → merge cap read = merge cap ranked) ↔ TiesPastCap cap ranked := by
  have hpages : (∀ read : List (Scored σ), read.Perm ranked → merge cap read = merge cap ranked) ↔
      ∀ source, ∀ m : List (Scored σ), m.Perm (ranked.filter fun row => sourceOf row = source) →
        (m.insertionSort rowBefore).take cap =
          ((ranked.filter fun row => sourceOf row = source).insertionSort rowBefore).take cap := by
    constructor
    · intro h source m hm
      obtain ⟨read, hread, hown⟩ := exists_reading hm
      have hrows := (merge_eq_iff cap hread.length_eq).1 (h read hread) source
      rw [firstRows_eq, firstRows_eq, hown] at hrows
      exact hrows
    · intro h read hread
      refine (merge_eq_iff cap hread.length_eq).2 fun source => ?_
      rw [firstRows_eq, firstRows_eq]
      exact h source _ (hread.filter _)
  rw [hpages]
  simp only [take_insertionSort_perm_iff]
  constructor
  · intro h a ha b hb hsource hscore hid hne
    have hmem {row : Scored σ} (hrow : row ∈ ranked) (hs : sourceOf row = sourceOf a) :
        row ∈ ranked.filter fun r => sourceOf r = sourceOf a := by
      rw [List.mem_filter, decide_eq_true_eq]
      exact ⟨hrow, hs⟩
    obtain ⟨hab, hba⟩ := rowBefore_both.2 ⟨hscore, hid⟩
    exact h (sourceOf a) a (hmem ha rfl) b (hmem hb hsource.symm) hab hba hne
  · intro h source a ha b hb hab hba hne
    rw [List.mem_filter, decide_eq_true_eq] at ha hb
    obtain ⟨ha, rfl⟩ := ha
    obtain ⟨hscore, hid⟩ := rowBefore_both.1 ⟨hab, hba⟩
    exact h a ha b hb.1 hb.2.symm hscore hid hne

/-- **Two reads of a search give one page exactly where different rows of a source that tie in score and id stand past
the cap.** -/
theorem snapshot_reading_iff (isoformat : Instant → String) (rows : List ResultRow) :
    (∀ read : List ResultRow, read.Perm rows → snapshotMerged isoformat read = snapshotMerged isoformat rows) ↔
      TiesPastCap PER_SOURCE_CAP (rows.map (snapshotRanked isoformat)) := by
  rw [← merge_reading_iff]
  constructor
  · intro h read hread
    have hcomp := congrFun (congrFun (List.eq_map_comp_perm (snapshotRanked isoformat)) read) rows
    obtain ⟨stored, rfl, hstored⟩ := hcomp.mpr hread
    exact h stored hstored
  · intro h read hread
    exact h _ (hread.map _)

/-- One message found through two connections of a source, undated and in one place, under two addresses. -/
def tiedRows : List ResultRow :=
  let row (run : Nat) (url : String) : ResultRow :=
    ⟨0, run, "slack", "C1:1.1", "launch", "the launch", none, none, url, 1, 13 / 120⟩
  [row 0 "https://a.example.test", row 1 "https://b.example.test"]

theorem tied_rows_swap : tiedRows.reverse.Perm tiedRows ∧
    snapshotMerged (fun _ => "") tiedRows.reverse ≠ snapshotMerged (fun _ => "") tiedRows :=
  ⟨List.reverse_perm _, by decide +kernel⟩

end Search
end SafeSend
