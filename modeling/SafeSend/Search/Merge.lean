import Mathlib.Data.List.Dedup
import Mathlib.Data.String.Basic
import SafeSend.Lib.Interleave
import SafeSend.Search.Ranking
/-!
# The merged page

Sources interleaved in rounds, under a cap and best first within each: a round takes the head of every source that has
rows left, the strongest head first.  Scores are elements of any linear order.
-/
namespace SafeSend
namespace Search

open Lib

/-- `Ranked`, its scores in any order. -/
structure Scored (σ : Type) where
  result : Result
  sourceRank : Nat
  recencyWeight : σ
  blendedScore : σ
  deriving DecidableEq, Repr

/-- `buckets`: a source's rows, the sources as they were first met. -/
abbrev Buckets (σ : Type) := List (String × List (Scored σ))

def PER_SOURCE_CAP : Nat := 10

variable {σ : Type}

/-- `buckets.setdefault(item.result.source, []).append(item)`. -/
def Buckets.append (item : Scored σ) : Buckets σ → Buckets σ
  | [] => [(item.result.source, [item])]
  | (source, items) :: rest =>
    if source = item.result.source then (source, items ++ [item]) :: rest
    else (source, items) :: Buckets.append item rest

def bucketed (ranked : List (Scored σ)) : Buckets σ := ranked.foldl (fun buckets item => buckets.append item) []

/-- `buckets[source].pop(0)`, of what is left after it. -/
def Buckets.popped (buckets : Buckets σ) (source : String) : Buckets σ :=
  buckets.map fun e => if e.1 = source then (e.1, e.2.tail) else e

/-- `for source in order: merged.append(buckets[source].pop(0))`; none where a source has no row to pop. -/
def sweep : List String → Buckets σ → Option (List (Scored σ) × Buckets σ)
  | [], buckets => some ([], buckets)
  | source :: order, buckets =>
    match (buckets.lookup source).bind List.head? with
    | none => none
    | some row => (sweep order (buckets.popped source)).map fun (rows, rest) => (row :: rows, rest)

variable [LinearOrder σ]

/-- `key=lambda item: (-item.blended_score, item.result.id)`. -/
def rowBefore (a b : Scored σ) : Prop :=
  b.blendedScore < a.blendedScore ∨ b.blendedScore = a.blendedScore ∧ a.result.id ≤ b.result.id

instance : DecidableRel (rowBefore (σ := σ)) := fun _ _ => inferInstanceAs (Decidable (_ ∨ _))

/-- Each source's rows sorted, and cut at the cap. -/
def Buckets.capped (cap : Nat) (buckets : Buckets σ) : Buckets σ :=
  buckets.map fun e => (e.1, (e.2.insertionSort rowBefore).take cap)

/-- `key=lambda source: (-buckets[source][0].blended_score, source)`, of sources beside their heads. -/
def headBefore (a b : String × Scored σ) : Prop :=
  b.2.blendedScore < a.2.blendedScore ∨ b.2.blendedScore = a.2.blendedScore ∧ a.1 ≤ b.1

instance : DecidableRel (headBefore (σ := σ)) := fun _ _ => inferInstanceAs (Decidable (_ ∨ _))

def Buckets.heads (buckets : Buckets σ) : List (String × Scored σ) :=
  buckets.filterMap fun e => e.2.head?.map fun head => (e.1, head)

def Buckets.order (buckets : Buckets σ) : List String := (buckets.heads.insertionSort headBefore).map Prod.fst

/-- `while any(buckets.values())`; none where it has not ended. -/
def rounds : Nat → Buckets σ → Option (List (Scored σ))
  | 0, _ => none
  | fuel + 1, buckets =>
    if buckets.any fun e => !e.2.isEmpty then
      match sweep buckets.order buckets with
      | none => none
      | some (rows, rest) => (rounds fuel rest).map (rows ++ ·)
    else some []

/-- Interleave sources under a per-source cap, best first within each.  A round more than there are rows is enough. -/
def merge (cap : Nat) (ranked : List (Scored σ)) : Option (List (Scored σ)) :=
  rounds (ranked.length + 1) ((bucketed ranked).capped cap)

/-! ## What the page should hold -/

/-- Rows beside their input positions: by score descending, id, then position. -/
def placedBefore (a b : Scored σ × Nat) : Prop :=
  b.1.blendedScore < a.1.blendedScore ∨ b.1.blendedScore = a.1.blendedScore ∧
    (a.1.result.id < b.1.result.id ∨ a.1.result.id = b.1.result.id ∧ a.2 ≤ b.2)

instance : DecidableRel (placedBefore (σ := σ)) := fun _ _ => inferInstanceAs (Decidable (_ ∨ _))

/-- A source's first `cap` rows. -/
def firstRows (cap : Nat) (ranked : List (Scored σ)) (source : String) : List (Scored σ) :=
  (((ranked.zipIdx.filter fun r => r.1.result.source = source).insertionSort placedBefore).map Prod.fst).take cap

def sourceOf (row : Scored σ) : String := row.result.source

structure FairMerge (cap : Nat) (ranked merged : List (Scored σ)) : Prop where
  all : merged.Perm ((ranked.map sourceOf).dedup.flatMap (firstRows cap ranked))
  ordered : ∀ source, merged.filter (fun row => sourceOf row = source) = firstRows cap ranked source
  /-- Where there are rows, one of the highest score leads. -/
  lead : ∀ r ∈ ranked, ∃ row, merged.head? = some row ∧ r.blendedScore ≤ row.blendedScore
  /-- In every prefix, a source is more than one row ahead only of one with no capped row left. -/
  fair : ∀ rows, rows <+: merged → ∀ a b,
    countOf sourceOf a rows ≤ countOf sourceOf b rows + 1 ∨ countOf sourceOf b rows = (firstRows cap ranked b).length

/-! ## Buckets -/

section Buckets
omit [LinearOrder σ]

/-- `buckets[source]`, where a source never met has no rows. -/
def Buckets.items (buckets : Buckets σ) (source : String) : List (Scored σ) := (buckets.lookup source).getD []

def Buckets.sources (buckets : Buckets σ) : List String := buckets.map Prod.fst

@[simp] theorem items_nil (source : String) : Buckets.items ([] : Buckets σ) source = [] := rfl

theorem items_cons (e : String × List (Scored σ)) (rest : Buckets σ) (source : String) :
    Buckets.items (e :: rest) source = if source = e.1 then e.2 else Buckets.items rest source := by
  unfold Buckets.items
  rw [List.lookup_cons]
  by_cases h : source = e.1
  · rw [if_pos h, h, beq_self_eq_true]
    rfl
  · rw [if_neg h, beq_eq_false_iff_ne.2 h]

theorem items_of_not_mem {buckets : Buckets σ} {source : String} (h : source ∉ buckets.sources) :
    buckets.items source = [] := by
  induction buckets with
  | nil => rfl
  | cons e rest ih =>
    rw [Buckets.sources, List.map_cons, List.mem_cons, not_or] at h
    rw [items_cons, if_neg h.1, ih h.2]

theorem items_of_mem {buckets : Buckets σ} (hnodup : buckets.sources.Nodup) {e : String × List (Scored σ)}
    (he : e ∈ buckets) : buckets.items e.1 = e.2 := by
  induction buckets with
  | nil => cases he
  | cons d rest ih =>
    rw [Buckets.sources, List.map_cons, List.nodup_cons] at hnodup
    rw [items_cons]
    rcases List.mem_cons.1 he with rfl | he
    · rw [if_pos rfl]
    · have hne : e.1 ≠ d.1 := fun heq => hnodup.1 (heq ▸ List.mem_map_of_mem he)
      rw [if_neg hne, ih hnodup.2 he]

/-- A row is found under its source where there is an entry for it. -/
theorem lookup_head (buckets : Buckets σ) (source : String) :
    (buckets.lookup source).bind List.head? = (buckets.items source).head? := by
  unfold Buckets.items
  cases buckets.lookup source <;> rfl

/-- What is done to every entry alike. -/
theorem items_map (f : List (Scored σ) → List (Scored σ)) (hf : f [] = []) (buckets : Buckets σ) (source : String) :
    Buckets.items (buckets.map fun e => (e.1, f e.2)) source = f (buckets.items source) := by
  induction buckets with
  | nil => rw [List.map_nil, items_nil, hf]
  | cons e rest ih =>
    rw [List.map_cons, items_cons, items_cons, ih]
    split <;> rfl

theorem items_append (item : Scored σ) (buckets : Buckets σ) (source : String) :
    (buckets.append item).items source =
      if source = sourceOf item then buckets.items source ++ [item] else buckets.items source := by
  induction buckets with
  | nil =>
    unfold Buckets.append
    rw [items_cons]
    rfl
  | cons e rest ih =>
    unfold Buckets.append
    split
    · rename_i heq
      rw [items_cons, items_cons]
      by_cases h : source = e.1
      · have hs : source = sourceOf item := h.trans heq
        rw [if_pos h, if_pos h, if_pos hs]
      · have hs : source ≠ sourceOf item := fun hs => h (hs.trans heq.symm)
        rw [if_neg h, if_neg h, if_neg hs]
    · rename_i hne
      rw [items_cons, items_cons, ih]
      by_cases h : source = e.1
      · have hs : source ≠ sourceOf item := fun hs => hne (h.symm.trans hs)
        rw [if_pos h, if_pos h, if_neg hs]
      · rw [if_neg h, if_neg h]

theorem sources_append (item : Scored σ) (buckets : Buckets σ) :
    (buckets.append item).sources =
      if sourceOf item ∈ buckets.sources then buckets.sources else buckets.sources ++ [sourceOf item] := by
  induction buckets with
  | nil => rfl
  | cons e rest ih =>
    unfold Buckets.append
    split
    · rename_i heq
      rw [if_pos]
      · rfl
      · exact List.mem_cons.2 (.inl heq.symm)
    · rename_i hne
      have hcons : Buckets.sources (e :: rest) = e.1 :: Buckets.sources rest := rfl
      have hstep : Buckets.sources (e :: Buckets.append item rest) = e.1 :: (Buckets.append item rest).sources := rfl
      have hmem : sourceOf item ∈ e.1 :: Buckets.sources rest ↔ sourceOf item ∈ Buckets.sources rest := by
        rw [List.mem_cons]
        exact or_iff_right fun heq => hne heq.symm
      rw [hcons, hstep, ih]
      by_cases h : sourceOf item ∈ Buckets.sources rest
      · rw [if_pos h, if_pos (hmem.2 h)]
      · rw [if_neg h, if_neg (fun hm => h (hmem.1 hm)), List.cons_append]

theorem nodup_append {item : Scored σ} {buckets : Buckets σ} (h : buckets.sources.Nodup) :
    (buckets.append item).sources.Nodup := by
  rw [sources_append]
  split
  · exact h
  · rename_i hnew
    exact List.nodup_append.2 ⟨h, List.nodup_singleton _, fun a ha b hb hab => hnew (by
      rw [← List.mem_singleton.1 hb, ← hab]
      exact ha)⟩

/-- **A bucket holds its source's rows, as they came.** -/
theorem items_bucketed (ranked : List (Scored σ)) (source : String) :
    (bucketed ranked).items source = ranked.filter fun row => sourceOf row = source := by
  have from_ (buckets : Buckets σ) : (ranked.foldl (fun b item => b.append item) buckets).items source =
      buckets.items source ++ ranked.filter fun row => sourceOf row = source := by
    induction ranked generalizing buckets with
    | nil => simp
    | cons item ranked ih =>
      rw [List.foldl_cons, ih, items_append, List.filter_cons]
      by_cases h : sourceOf item = source
      · simp [h]
      · simp [h, Ne.symm h]
  rw [bucketed, from_]
  rfl

theorem nodup_bucketed (ranked : List (Scored σ)) : (bucketed ranked).sources.Nodup := by
  have from_ (buckets : Buckets σ) (h : buckets.sources.Nodup) :
      (ranked.foldl (fun b item => b.append item) buckets).sources.Nodup := by
    induction ranked generalizing buckets with
    | nil => exact h
    | cons item ranked ih => exact ih _ (nodup_append h)
  exact from_ [] List.nodup_nil

theorem sources_popped (buckets : Buckets σ) (source : String) : (buckets.popped source).sources = buckets.sources := by
  unfold Buckets.popped Buckets.sources
  rw [List.map_map]
  refine List.map_congr_left fun e _ => ?_
  rw [Function.comp_apply]
  split <;> rfl

theorem items_popped (buckets : Buckets σ) (source other : String) :
    (buckets.popped source).items other =
      if other = source then (buckets.items other).tail else buckets.items other := by
  induction buckets with
  | nil => simp [Buckets.popped]
  | cons e rest ih =>
    have hcons : Buckets.popped (e :: rest) source =
        (if e.1 = source then (e.1, e.2.tail) else e) :: Buckets.popped rest source := rfl
    rw [hcons, items_cons, items_cons, ih]
    by_cases he : e.1 = source <;> by_cases ho : other = e.1
    · simp [he, ho]
    · have : other ≠ source := fun h => ho (h.trans he.symm)
      simp [he, this]
    · have : other ≠ source := fun h => he (ho.symm.trans h)
      simp [he, ho]
    · simp [he, ho]

/-- **A round pops each of its sources once**, and leaves the others as they were. -/
theorem sweep_eq : ∀ {order : List String} {buckets : Buckets σ}, order.Nodup → (∀ k ∈ order, buckets.items k ≠ []) →
    ∃ rest, sweep order buckets = some (headsOf buckets.items order, rest) ∧ rest.sources = buckets.sources ∧
      ∀ k, rest.items k = if k ∈ order then (buckets.items k).tail else buckets.items k
  | [], buckets, _, _ => ⟨buckets, rfl, rfl, fun k => by rw [if_neg List.not_mem_nil]⟩
  | source :: order, buckets, hnodup, hne => by
    obtain ⟨hsource, hnodup⟩ := List.nodup_cons.1 hnodup
    have hother : ∀ k ∈ order, (buckets.popped source).items k = buckets.items k := by
      intro k hk
      have hks : k ≠ source := fun he => hsource (he ▸ hk)
      rw [items_popped, if_neg hks]
    have hsweeps : ∀ k ∈ order, (buckets.popped source).items k ≠ [] := fun k hk => by
      rw [hother k hk]
      exact hne k (List.mem_cons_of_mem _ hk)
    obtain ⟨rest, hsweep, hsources, hrest⟩ := sweep_eq hnodup hsweeps
    obtain ⟨row, tail, hcons⟩ := List.exists_cons_of_ne_nil (hne source List.mem_cons_self)
    have hheads : headsOf (buckets.popped source).items order = headsOf buckets.items order :=
      List.flatMap_congr fun k hk => by rw [hother k hk]
    refine ⟨rest, ?_, hsources.trans (sources_popped _ _), fun k => ?_⟩
    · have hcut : headsOf buckets.items (source :: order) = row :: headsOf buckets.items order := by
        simp only [headsOf, List.flatMap_cons, hcons, List.head?_cons, Option.toList_some, List.singleton_append]
      rw [sweep, lookup_head, hcons, hcut, ← hheads]
      simp only [List.head?_cons, hsweep, Option.map_some]
    · rw [hrest, items_popped]
      by_cases hks : k = source
      · rw [if_pos hks, if_neg (hks ▸ hsource), if_pos (by rw [hks]; exact List.mem_cons_self)]
      · have hiff : k ∈ source :: order ↔ k ∈ order := by
          rw [List.mem_cons]
          exact or_iff_right hks
        rw [if_neg hks]
        by_cases hk : k ∈ order
        · rw [if_pos hk, if_pos (hiff.2 hk)]
        · rw [if_neg hk, if_neg (fun hm => hk (hiff.1 hm))]

end Buckets

/-! ## The order of a round -/

instance : Std.Total (headBefore (σ := σ)) where
  total a b := by
    unfold headBefore
    rcases lt_trichotomy a.2.blendedScore b.2.blendedScore with h | h | h
    · exact .inr (.inl h)
    · exact (le_total a.1 b.1).imp (fun hle => .inr ⟨h.symm, hle⟩) fun hle => .inr ⟨h, hle⟩
    · exact .inl (.inl h)

instance : IsTrans (String × Scored σ) headBefore where
  trans a b c hab hbc := by
    unfold headBefore at hab hbc ⊢
    rcases hab with hab | ⟨hab, hle⟩ <;> rcases hbc with hbc | ⟨hbc, hle'⟩
    · exact .inl (hbc.trans hab)
    · exact .inl (hbc ▸ hab)
    · exact .inl (hab ▸ hbc)
    · exact .inr ⟨hbc.trans hab, hle.trans hle'⟩

instance : Std.Total (rowBefore (σ := σ)) where
  total a b := by
    unfold rowBefore
    rcases lt_trichotomy a.blendedScore b.blendedScore with h | h | h
    · exact .inr (.inl h)
    · exact (le_total a.result.id b.result.id).imp (fun hle => .inr ⟨h.symm, hle⟩) fun hle => .inr ⟨h, hle⟩
    · exact .inl (.inl h)

instance : IsTrans (Scored σ) rowBefore where
  trans a b c hab hbc := by
    unfold rowBefore at hab hbc ⊢
    rcases hab with hab | ⟨hab, hle⟩ <;> rcases hbc with hbc | ⟨hbc, hle'⟩
    · exact .inl (hbc.trans hab)
    · exact .inl (hbc ▸ hab)
    · exact .inl (hab ▸ hbc)
    · exact .inr ⟨hbc.trans hab, hle.trans hle'⟩

theorem score_le_of_rowBefore {a b : Scored σ} (h : rowBefore a b) : b.blendedScore ≤ a.blendedScore :=
  h.elim le_of_lt fun h => h.1.le

theorem score_le_of_headBefore {a b : String × Scored σ} (h : headBefore a b) :
    b.2.blendedScore ≤ a.2.blendedScore := h.elim le_of_lt fun h => h.1.le

/-- What stands first scores highest. -/
def scoreBefore (a b : Scored σ) : Prop := b.blendedScore ≤ a.blendedScore

variable {buckets : Buckets σ}

omit [LinearOrder σ] in
theorem mem_heads (hnodup : buckets.sources.Nodup) {k : String} {row : Scored σ} :
    (k, row) ∈ buckets.heads ↔ (buckets.items k).head? = some row := by
  unfold Buckets.heads
  rw [List.mem_filterMap]
  constructor
  · rintro ⟨e, he, hrow⟩
    obtain ⟨head, hhead, heq⟩ := Option.map_eq_some_iff.1 hrow
    obtain ⟨rfl, rfl⟩ := Prod.mk.inj heq
    rw [items_of_mem hnodup he, hhead]
  · intro hrow
    have hk : k ∈ buckets.sources := by
      by_contra hk
      rw [items_of_not_mem hk] at hrow
      cases hrow
    obtain ⟨e, he, rfl⟩ := List.mem_map.1 hk
    rw [items_of_mem hnodup he] at hrow
    exact ⟨e, he, by rw [hrow]; rfl⟩

omit [LinearOrder σ] in
theorem heads_sources_sublist (buckets : Buckets σ) : (buckets.heads.map Prod.fst).Sublist buckets.sources := by
  induction buckets with
  | nil => exact List.Sublist.refl _
  | cons e rest ih =>
    unfold Buckets.heads at ih ⊢
    cases he : e.2.head? with
    | none =>
      rw [List.filterMap_cons_none (by rw [he]; rfl)]
      exact ih.cons _
    | some head =>
      rw [List.filterMap_cons_some (by rw [he]; rfl)]
      exact ih.cons_cons _

theorem order_nodup (hnodup : buckets.sources.Nodup) : buckets.order.Nodup := by
  unfold Buckets.order
  rw [((List.perm_insertionSort headBefore buckets.heads).map Prod.fst).nodup_iff]
  exact hnodup.sublist (heads_sources_sublist buckets)

theorem mem_order (hnodup : buckets.sources.Nodup) (k : String) : k ∈ buckets.order ↔ buckets.items k ≠ [] := by
  unfold Buckets.order
  rw [((List.perm_insertionSort headBefore buckets.heads).map Prod.fst).mem_iff, List.mem_map]
  constructor
  · rintro ⟨⟨k, row⟩, hmem, rfl⟩ hnil
    have hrow := (mem_heads hnodup).1 hmem
    rw [hnil] at hrow
    cases hrow
  · intro hne
    obtain ⟨row, rest, hcons⟩ := List.exists_cons_of_ne_nil hne
    exact ⟨(k, row), (mem_heads hnodup).2 (by rw [hcons]; rfl), rfl⟩

/-- **A round's rows stand by score.** -/
theorem order_sorted (hnodup : buckets.sources.Nodup) : (headsOf buckets.items buckets.order).Pairwise scoreBefore := by
  have heads {l : List (String × Scored σ)} (hl : ∀ e ∈ l, e ∈ buckets.heads) :
      headsOf buckets.items (l.map Prod.fst) = l.map Prod.snd := by
    induction l with
    | nil => rfl
    | cons e l ih =>
      have he := (mem_heads hnodup).1 (hl e List.mem_cons_self)
      have htail := ih fun d hd => hl d (List.mem_cons_of_mem _ hd)
      unfold headsOf at htail ⊢
      rw [List.map_cons, List.flatMap_cons, htail, he]
      rfl
  unfold Buckets.order
  rw [heads fun e he => (List.mem_insertionSort headBefore).1 he]
  exact List.pairwise_map.2 ((List.pairwise_insertionSort headBefore _).imp score_le_of_headBefore)

/-- **The rounds end**, and interleave what the buckets hold. -/
theorem rounds_interleave : ∀ {fuel : Nat} {buckets : Buckets σ}, buckets.sources.Nodup →
    (∀ k, (buckets.items k).length < fuel) →
      ∃ merged, rounds fuel buckets = some merged ∧ Interleave scoreBefore buckets.items merged
  | 0, _, _, hfuel => absurd (hfuel "") (Nat.not_lt_zero _)
  | fuel + 1, buckets, hnodup, hfuel => by
    unfold rounds
    split
    · rename_i hany
      obtain ⟨e, he, hne⟩ := List.any_eq_true.1 hany
      rw [Bool.not_eq_true', List.isEmpty_eq_false_iff, ← items_of_mem hnodup he] at hne
      have hpos := List.length_pos_iff.2 hne
      have hbound := hfuel e.1
      obtain ⟨rest, hsweep, hsources, hrest⟩ := sweep_eq (order_nodup hnodup) fun k hk => (mem_order hnodup k).1 hk
      have htails (k : String) : rest.items k = (buckets.items k).tail := by
        rw [hrest]
        by_cases hk : k ∈ buckets.order
        · rw [if_pos hk]
        · have hnil := not_not.1 (fun hne => hk ((mem_order hnodup k).2 hne))
          rw [if_neg hk, hnil]
          rfl
      have hless (k : String) : (rest.items k).length < fuel := by
        have hk := hfuel k
        rw [htails, List.length_tail]
        omega
      obtain ⟨merged, hmerged, hinter⟩ := rounds_interleave (hsources ▸ hnodup) hless
      refine ⟨headsOf buckets.items buckets.order ++ merged, ?_, ?_⟩
      · rw [hsweep]
        simp only [hmerged, Option.map_some]
      · refine .round _ _ _ (order_nodup hnodup) (mem_order hnodup) ?_ (order_sorted hnodup) ?_
        · exact List.ne_nil_of_mem ((mem_order hnodup e.1).2 hne)
        · rw [← funext htails]
          exact hinter
    · rename_i hany
      refine ⟨[], rfl, .done _ fun k => ?_⟩
      by_contra hne
      have hk : k ∈ buckets.sources := by
        by_contra hk
        exact hne (items_of_not_mem hk)
      obtain ⟨e, he, rfl⟩ := List.mem_map.1 hk
      rw [items_of_mem hnodup he] at hne
      exact hany (List.any_eq_true.2 ⟨e, he, by rw [Bool.not_eq_true', List.isEmpty_eq_false_iff]; exact hne⟩)

/-! ## The page -/

/-- **A source's rows sorted, stably and cut**, are its first rows by input position. -/
theorem firstRows_eq (cap : Nat) (ranked : List (Scored σ)) (source : String) :
    firstRows cap ranked source =
      ((ranked.filter fun row => sourceOf row = source).insertionSort rowBefore).take cap := by
  unfold firstRows
  have hpositions : (ranked.zipIdx.filter fun r => r.1.result.source = source).Pairwise fun a b => a.2 < b.2 := by
    have hplaces : (ranked.zipIdx.map Prod.snd).Pairwise (· < ·) := by
      rw [List.zipIdx_map_snd]
      exact List.pairwise_lt_range'
    exact (List.pairwise_map.1 hplaces).filter _
  have hagree : (ranked.zipIdx.filter fun r => r.1.result.source = source).Pairwise
      fun a b => placedBefore a b ↔ rowBefore a.1 b.1 := by
    refine hpositions.imp fun {a b} hlt => ?_
    unfold placedBefore rowBefore
    refine or_congr Iff.rfl (and_congr Iff.rfl ⟨fun h => ?_, fun h => ?_⟩)
    · rcases h with h | ⟨h, -⟩
      · exact h.le
      · exact h.le
    · exact h.lt_or_eq.imp_right fun heq => ⟨heq, hlt.le⟩
  have hrows : (ranked.zipIdx.filter fun r => r.1.result.source = source).map Prod.fst =
      ranked.filter fun row => sourceOf row = source := by
    conv => rhs; rw [← List.zipIdx_map_fst 0 ranked]
    rw [List.filter_map]
    rfl
  rw [insertionSort_congr hagree, List.map_insertionSort (fun a b : Scored σ × Nat => rowBefore a.1 b.1) rowBefore Prod.fst
    _ fun _ _ _ _ => Iff.rfl, hrows]

theorem items_capped (cap : Nat) (ranked : List (Scored σ)) (source : String) :
    ((bucketed ranked).capped cap).items source = firstRows cap ranked source := by
  unfold Buckets.capped
  rw [items_map (fun rows => (rows.insertionSort rowBefore).take cap) List.take_nil, items_bucketed, firstRows_eq]

theorem nodup_capped (cap : Nat) (ranked : List (Scored σ)) : ((bucketed ranked).capped cap).sources.Nodup := by
  have hsame : ((bucketed ranked).capped cap).sources = (bucketed ranked).sources := List.map_map
  rw [hsame]
  exact nodup_bucketed ranked

theorem mem_of_mem_firstRows {cap : Nat} {ranked : List (Scored σ)} {source : String} {row : Scored σ}
    (h : row ∈ firstRows cap ranked source) : row ∈ ranked ∧ sourceOf row = source := by
  rw [firstRows_eq] at h
  have hmem := (List.mem_insertionSort rowBefore).1 (List.mem_of_mem_take h)
  rw [List.mem_filter, decide_eq_true_eq] at hmem
  exact hmem

theorem firstRows_keyed (cap : Nat) (ranked : List (Scored σ)) : Keyed sourceOf (firstRows cap ranked) :=
  fun _ _ h => (mem_of_mem_firstRows h).2

/-- **A source's first row scores highest in it.** -/
theorem exists_head_firstRows {cap : Nat} (hcap : 1 ≤ cap) {ranked : List (Scored σ)} {r : Scored σ} (hr : r ∈ ranked) :
    ∃ head, (firstRows cap ranked (sourceOf r)).head? = some head ∧ r.blendedScore ≤ head.blendedScore := by
  have hmem : r ∈ (ranked.filter fun row => sourceOf row = sourceOf r).insertionSort rowBefore := by
    rw [List.mem_insertionSort, List.mem_filter, decide_eq_true_eq]
    exact ⟨hr, rfl⟩
  have hsorted := List.pairwise_insertionSort rowBefore (ranked.filter fun row => sourceOf row = sourceOf r)
  rw [firstRows_eq]
  obtain ⟨k, rfl⟩ : ∃ k, cap = k + 1 := ⟨cap - 1, by omega⟩
  cases hrows : (ranked.filter fun row => sourceOf row = sourceOf r).insertionSort rowBefore with
  | nil =>
    rw [hrows] at hmem
    cases hmem
  | cons head rest =>
    rw [hrows] at hmem hsorted
    refine ⟨head, rfl, ?_⟩
    rcases List.mem_cons.1 hmem with rfl | hrest
    · exact le_refl _
    · exact score_le_of_rowBefore ((List.pairwise_cons.1 hsorted).1 r hrest)

/-- **The merge ends**, and interleaves the sources' first rows. -/
theorem merge_interleave (cap : Nat) (ranked : List (Scored σ)) :
    ∃ merged, merge cap ranked = some merged ∧ Interleave scoreBefore (firstRows cap ranked) merged := by
  have hnodup := nodup_capped cap ranked
  have hitems : ((bucketed ranked).capped cap).items = firstRows cap ranked := funext (items_capped cap ranked)
  have hfuel (k : String) : (((bucketed ranked).capped cap).items k).length < ranked.length + 1 := by
    rw [hitems, firstRows_eq, List.length_take, List.length_insertionSort]
    have := List.length_filter_le (fun row => decide (sourceOf row = k)) ranked
    omega
  obtain ⟨merged, hmerged, hinter⟩ := rounds_interleave hnodup hfuel
  rw [hitems] at hinter
  exact ⟨merged, hmerged, hinter⟩

/-- **The merge ends, in a fair and capped interleave** of what it was given. -/
theorem merge_fair {cap : Nat} (hcap : 1 ≤ cap) (ranked : List (Scored σ)) :
    ∃ merged, merge cap ranked = some merged ∧ FairMerge cap ranked merged := by
  obtain ⟨merged, hmerged, hinter⟩ := merge_interleave cap ranked
  have hq := firstRows_keyed cap ranked
  refine ⟨merged, hmerged, ?_, fun source => hinter.filter hq source, fun r hr => ?_, fun rows hrows a b =>
    hinter.fair hq hrows a b⟩
  · have hsources : ∀ row ∈ merged, sourceOf row ∈ (ranked.map sourceOf).dedup := by
      intro row hrow
      have hown : row ∈ firstRows cap ranked (sourceOf row) := by
        rw [← hinter.filter hq, List.mem_filter, decide_eq_true_eq]
        exact ⟨hrow, rfl⟩
      rw [List.mem_dedup]
      exact List.mem_map_of_mem (mem_of_mem_firstRows hown).1
    have hperm := perm_flatMap_filter sourceOf (List.nodup_dedup _) hsources
    rw [List.flatMap_congr fun source _ => hinter.filter hq source] at hperm
    exact hperm
  · obtain ⟨head, hhead, hle⟩ := exists_head_firstRows hcap hr
    have hne : firstRows cap ranked (sourceOf r) ≠ [] := by
      intro hnil
      rw [hnil] at hhead
      cases hhead
    obtain ⟨row, rest, hcons⟩ := List.exists_cons_of_ne_nil (hinter.ne_nil hne)
    refine ⟨row, by rw [hcons]; rfl, ?_⟩
    rcases hinter.first (by rw [hcons]; rfl) hhead with heq | hbefore
    · rw [heq]
      exact hle
    · exact hle.trans hbefore

/-- One source's best row leads, and the other source's comes next. -/
def scoredSample : List (Scored Nat) :=
  let row (source : String) (rank score : Nat) : Scored Nat :=
    ⟨{ source := source, id := s!"{source}-{rank}", title := "t", snippet := "s", url := "https://example.test" }, rank, 0,
      score⟩
  [row "a" 1 90, row "a" 2 89, row "a" 3 88, row "b" 1 50]

theorem merge_fair_sample :
    ∃ merged, merge PER_SOURCE_CAP scoredSample = some merged ∧ FairMerge PER_SOURCE_CAP scoredSample merged :=
  merge_fair (by decide) scoredSample

example : (merge PER_SOURCE_CAP scoredSample).map (List.map sourceOf) = some ["a", "b", "a", "a"] := by decide +kernel

end Search
end SafeSend
