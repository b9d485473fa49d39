import Mathlib.Data.List.Sort
/-!
# Interleaving queues in rounds

Each round takes the head of every queue that has one, in an order of the round's own; a queue that runs out drops
out.  What comes out holds every queue in its order, and no queue gets more than one row ahead of another that still
has rows.
-/
namespace Lib

variable {κ α : Type*}

/-- The heads of these queues, in this order. -/
def headsOf (queue : κ → List α) (keys : List κ) : List α := keys.flatMap fun k => (queue k).head?.toList

/-- `out` is what the rounds make of the queues; each round's rows stand in the order `before`. -/
inductive Interleave (before : α → α → Prop) : (κ → List α) → List α → Prop
  | done (queue : κ → List α) (hnil : ∀ k, queue k = []) : Interleave before queue []
  | round (queue : κ → List α) (keys : List κ) (out : List α) (hnodup : keys.Nodup)
    (hkeys : ∀ k, k ∈ keys ↔ queue k ≠ []) (hne : keys ≠ []) (hsorted : (headsOf queue keys).Pairwise before)
    (hrest : Interleave before (fun k => (queue k).tail) out) : Interleave before queue (headsOf queue keys ++ out)

/-- Every row waits in the queue of its own key. -/
def Keyed (key : α → κ) (queue : κ → List α) : Prop := ∀ k, ∀ a ∈ queue k, key a = k

theorem Keyed.tail {key : α → κ} {queue : κ → List α} (h : Keyed key queue) : Keyed key fun k => (queue k).tail :=
  fun k a ha => h k a (List.mem_of_mem_tail ha)

variable {key : α → κ} {queue : κ → List α} {before : α → α → Prop}

theorem mem_headsOf {keys : List κ} {a : α} : a ∈ headsOf queue keys ↔ ∃ k ∈ keys, (queue k).head? = some a := by
  simp only [headsOf, List.mem_flatMap, Option.mem_toList]

variable [DecidableEq κ]

/-- **Of one key, a round takes the head of its queue and nothing else.** -/
theorem filter_headsOf (hq : Keyed key queue) {keys : List κ} (hnodup : keys.Nodup) (k : κ) :
    (headsOf queue keys).filter (fun a => key a = k) = if k ∈ keys then (queue k).head?.toList else [] := by
  have own (l : κ) : (queue l).head?.toList.filter (fun a => key a = k) = if l = k then (queue l).head?.toList else [] := by
    cases hl : queue l with
    | nil => simp
    | cons a rest =>
      have ha : key a = l := hq l a (by rw [hl]; exact List.mem_cons_self)
      by_cases hlk : l = k
      · simp [ha, hlk]
      · simp [ha, hlk]
  unfold headsOf
  induction keys with
  | nil => rfl
  | cons l keys ih =>
    obtain ⟨hl, hnodup⟩ := List.nodup_cons.1 hnodup
    rw [List.flatMap_cons, List.filter_append, own, ih hnodup]
    by_cases hlk : l = k
    · rw [if_pos hlk, if_neg (hlk ▸ hl), List.append_nil, if_pos (by rw [hlk]; exact List.mem_cons_self), hlk]
    · rw [if_neg hlk, List.nil_append]
      by_cases hk : k ∈ keys
      · rw [if_pos hk, if_pos (List.mem_cons_of_mem _ hk)]
      · rw [if_neg hk, if_neg (fun h => (List.mem_cons.1 h).elim (fun he => hlk he.symm) hk)]

/-- **Every queue comes out whole and in its order.** -/
theorem Interleave.filter {out : List α} (h : Interleave before queue out) (hq : Keyed key queue) (k : κ) :
    out.filter (fun a => key a = k) = queue k := by
  induction h with
  | done queue hnil => rw [hnil, List.filter_nil]
  | round queue keys out hnodup hkeys _ _ _ ih =>
    have hrest : out.filter (fun a => key a = k) = (queue k).tail := ih hq.tail
    rw [List.filter_append, hrest, filter_headsOf hq hnodup]
    by_cases hk : queue k = []
    · rw [if_neg (fun hm => (hkeys k).1 hm hk), hk]
      rfl
    · rw [if_pos ((hkeys k).2 hk)]
      obtain ⟨a, rest, hcons⟩ := List.exists_cons_of_ne_nil hk
      rw [hcons]
      rfl

/-- How many rows of a key are among these. -/
def countOf (key : α → κ) (k : κ) (rows : List α) : Nat := (rows.filter fun a => key a = k).length

theorem countOf_append (k : κ) (l r : List α) : countOf key k (l ++ r) = countOf key k l + countOf key k r := by
  unfold countOf
  rw [List.filter_append, List.length_append]

theorem countOf_le_of_sublist (key : α → κ) {l r : List α} (h : l.Sublist r) (k : κ) : countOf key k l ≤ countOf key k r :=
  (h.filter _).length_le

theorem countOf_headsOf_le (hq : Keyed key queue) {keys : List κ} (hnodup : keys.Nodup) (k : κ) :
    countOf key k (headsOf queue keys) ≤ 1 := by
  unfold countOf
  rw [filter_headsOf hq hnodup]
  split
  · cases (queue k).head? <;> simp
  · exact Nat.zero_le _

theorem countOf_headsOf_eq (hq : Keyed key queue) {keys : List κ} (hnodup : keys.Nodup)
    (hkeys : ∀ k, k ∈ keys ↔ queue k ≠ []) {k : κ} (hk : queue k ≠ []) : countOf key k (headsOf queue keys) = 1 := by
  unfold countOf
  rw [filter_headsOf hq hnodup, if_pos ((hkeys k).2 hk)]
  obtain ⟨a, rest, hcons⟩ := List.exists_cons_of_ne_nil hk
  rw [hcons]
  rfl

/-- **A key is more than one row ahead only of one whose queue has run out.** -/
theorem Interleave.fair {out : List α} (h : Interleave before queue out) (hq : Keyed key queue) {rows : List α}
    (hp : rows <+: out) (i j : κ) : countOf key i rows ≤ countOf key j rows + 1 ∨ countOf key j rows = (queue j).length := by
  induction h generalizing rows with
  | done queue hnil =>
    rw [List.prefix_nil.1 hp]
    exact .inl (Nat.zero_le _)
  | round queue keys out hnodup hkeys hne hsorted hrest ih =>
    have hi := countOf_headsOf_le hq hnodup i
    obtain ⟨last, hlast⟩ := hp
    rcases List.append_eq_append_iff.1 hlast with ⟨cut, hcut, -⟩ | ⟨rest, rfl, hout⟩
    · -- The prefix ends within this round.
      have hle : countOf key i rows ≤ countOf key i (headsOf queue keys) :=
        countOf_le_of_sublist key (by rw [hcut]; exact List.sublist_append_left _ _) i
      exact .inl (by omega)
    · have hprefix : rest <+: out := ⟨last, hout.symm⟩
      rw [countOf_append, countOf_append]
      by_cases hj : queue j = []
      · have hheads : countOf key j (headsOf queue keys) = 0 := by
          unfold countOf
          rw [filter_headsOf hq hnodup, if_neg (fun hm => (hkeys j).1 hm hj)]
          rfl
        have hnone : countOf key j out = 0 := by
          unfold countOf
          rw [hrest.filter hq.tail, hj]
          rfl
        have hle := countOf_le_of_sublist key hprefix.sublist j
        rw [hj, List.length_nil]
        exact .inr (by omega)
      · have hheads := countOf_headsOf_eq hq hnodup hkeys hj
        have hlen : (queue j).length = 1 + (queue j).tail.length := by
          have := List.length_pos_iff.2 hj
          rw [List.length_tail]
          omega
        rcases ih hq.tail hprefix with hle | heq
        · exact .inl (by omega)
        · have : countOf key j rest = (queue j).tail.length := heq
          exact .inr (by omega)

omit [DecidableEq κ] in
/-- **What comes out first stands before every other head.** -/
theorem Interleave.first {out : List α} (h : Interleave before queue out) {a : α} (ha : out.head? = some a) {k : κ} {b : α}
    (hb : (queue k).head? = some b) : a = b ∨ before a b := by
  cases h with
  | done _ hnil => cases ha
  | round _ keys out hnodup hkeys hne hsorted hrest =>
    have hmem : b ∈ headsOf queue keys := by
      refine mem_headsOf.2 ⟨k, (hkeys k).2 fun hnil => ?_, hb⟩
      rw [hnil] at hb
      cases hb
    cases hheads : headsOf queue keys with
    | nil =>
      rw [hheads] at hmem
      cases hmem
    | cons c rest =>
      rw [hheads] at ha hmem hsorted
      obtain rfl : c = a := Option.some.inj ha
      rcases List.mem_cons.1 hmem with hbc | hrestb
      · exact .inl hbc.symm
      · exact .inr ((List.pairwise_cons.1 hsorted).1 b hrestb)

omit [DecidableEq κ] in
theorem Interleave.ne_nil {out : List α} (h : Interleave before queue out) {k : κ} (hk : queue k ≠ []) : out ≠ [] := by
  cases h with
  | done _ hnil => exact absurd (hnil k) hk
  | round _ keys out hnodup hkeys hne hsorted hrest =>
    obtain ⟨a, rest, hcons⟩ := List.exists_cons_of_ne_nil hk
    have hmem : a ∈ headsOf queue keys := mem_headsOf.2 ⟨k, (hkeys k).2 hk, by rw [hcons]; rfl⟩
    exact List.ne_nil_of_mem (List.mem_append_left _ hmem)

/-- **Rows are those of each of their keys**, key by key. -/
theorem perm_flatMap_filter (key : α → κ) : ∀ {keys : List κ}, keys.Nodup → ∀ {rows : List α},
    (∀ a ∈ rows, key a ∈ keys) → rows.Perm (keys.flatMap fun k => rows.filter fun a => key a = k)
  | [], _, rows, hrows => by
    have hnil : rows = [] := List.eq_nil_iff_forall_not_mem.2 fun a ha => List.not_mem_nil (hrows a ha)
    rw [hnil]
    exact List.Perm.refl _
  | k :: keys, hnodup, rows, hrows => by
    obtain ⟨hk, hnodup⟩ := List.nodup_cons.1 hnodup
    have hother : ∀ a ∈ rows.filter (fun a => !decide (key a = k)), key a ∈ keys := by
      intro a ha
      obtain ⟨ha, hne⟩ := List.mem_filter.1 ha
      rw [Bool.not_eq_true', decide_eq_false_iff_not] at hne
      exact (List.mem_cons.1 (hrows a ha)).resolve_left hne
    have hsame : (keys.flatMap fun l => (rows.filter fun a => !decide (key a = k)).filter fun a => key a = l) =
        keys.flatMap fun l => rows.filter fun a => key a = l := by
      refine List.flatMap_congr fun l hl => ?_
      rw [List.filter_filter]
      refine List.filter_congr fun a _ => ?_
      by_cases hal : key a = l
      · have hlk : l ≠ k := fun he => hk (he ▸ hl)
        simp [hal, hlk]
      · simp [hal]
    rw [List.flatMap_cons, ← hsame]
    exact (List.filter_append_perm (fun a => decide (key a = k)) rows).symm.trans
      (List.Perm.append_left _ (perm_flatMap_filter key hnodup hother))

/-! ## Stable sorting -/

theorem orderedInsert_congr {r s : α → α → Prop} [DecidableRel r] [DecidableRel s] {a : α} :
    ∀ {l : List α}, (∀ b ∈ l, r a b ↔ s a b) → l.orderedInsert r a = l.orderedInsert s a
  | [], _ => rfl
  | b :: l, h => by
    have hb := h b List.mem_cons_self
    have hl := orderedInsert_congr fun c hc => h c (List.mem_cons_of_mem _ hc)
    by_cases hr : r a b
    · rw [List.orderedInsert_cons, List.orderedInsert_cons, if_pos hr, if_pos (hb.1 hr)]
    · rw [List.orderedInsert_cons, List.orderedInsert_cons, if_neg hr, if_neg (fun hs => hr (hb.2 hs)), hl]

/-- Two orders that agree on what stands after each row sort alike. -/
theorem insertionSort_congr {r s : α → α → Prop} [DecidableRel r] [DecidableRel s] :
    ∀ {l : List α}, l.Pairwise (fun a b => r a b ↔ s a b) → l.insertionSort r = l.insertionSort s
  | [], _ => rfl
  | a :: l, h => by
    obtain ⟨ha, hl⟩ := List.pairwise_cons.1 h
    rw [List.insertionSort_cons, List.insertionSort_cons, insertionSort_congr hl]
    exact orderedInsert_congr fun b hb => ha b ((List.mem_insertionSort s).1 hb)

/-! ## Sorted pages of a permuted list -/

section Pages

variable {r : α → α → Prop} [DecidableRel r]

/-- What stands strictly before a row comes first, and nothing else does. -/
theorem length_takeWhile_sorted [IsTrans α r] (a : α) : ∀ {l : List α}, l.Pairwise r →
    (l.takeWhile fun b => !decide (r a b)).length = l.countP fun b => !decide (r a b)
  | [], _ => rfl
  | b :: l, h => by
    obtain ⟨hb, hl⟩ := List.pairwise_cons.1 h
    by_cases hab : r a b
    · have hnone : l.countP (fun c => !decide (r a c)) = 0 := by
        rw [List.countP_eq_zero]
        intro c hc
        simp [IsTrans.trans _ _ _ hab (hb c hc)]
      rw [List.takeWhile_cons_of_neg (by simp [hab]), List.countP_cons_of_neg (by simp [hab]), hnone]
      rfl
    · rw [List.takeWhile_cons_of_pos (by simp [hab]), List.countP_cons_of_pos (by simp [hab]), List.length_cons,
        length_takeWhile_sorted a hl]

/-- **What a list begins with is the first of its ties**, stably sorted. -/
theorem getElem?_insertionSort_cons [Std.Total r] [IsTrans α r] (a : α) (l : List α) :
    ((a :: l).insertionSort r)[l.countP fun b => !decide (r a b)]? = some a := by
  have hsorted := List.pairwise_insertionSort r l
  have hplace := length_takeWhile_sorted a hsorted
  rw [(List.perm_insertionSort r l).countP_eq] at hplace
  have hcut : (a :: l).insertionSort r = ((l.insertionSort r).takeWhile fun b => !decide (r a b)) ++
      a :: (l.insertionSort r).dropWhile fun b => !decide (r a b) := by
    rw [List.insertionSort_cons_eq_take_drop]
    simp only [decide_not]
  rw [hcut, List.getElem?_append_right (by omega), hplace, Nat.sub_self]
  rfl

/-- Two sorted lists of the same rows begin alike where ties of different rows stand past the cut. -/
theorem take_eq_of_perm [Std.Total r] : ∀ {cap : Nat} {l m : List α}, l.Pairwise r → m.Pairwise r → l.Perm m →
    (∀ a ∈ l, ∀ b ∈ l, r a b → r b a → a ≠ b → cap ≤ l.countP fun c => !decide (r a c)) → l.take cap = m.take cap
  | 0, _, _, _, _, _, _ => by rw [List.take_zero, List.take_zero]
  | _ + 1, [], m, _, _, hperm, _ => by rw [hperm.nil_eq]
  | _ + 1, l, [], _, _, hperm, _ => by rw [hperm.eq_nil]
  | cap + 1, a :: l, b :: m, hl, hm, hperm, hties => by
    obtain ⟨ha, hltail⟩ := List.pairwise_cons.1 hl
    obtain ⟨hb, hmtail⟩ := List.pairwise_cons.1 hm
    have hself (c : α) : r c c := (Std.Total.total c c).elim id id
    have hab : r a b := by
      rcases List.mem_cons.1 (hperm.mem_iff.2 List.mem_cons_self) with h | h
      · rw [h]
        exact hself a
      · exact ha b h
    have hba : r b a := by
      rcases List.mem_cons.1 (hperm.mem_iff.1 List.mem_cons_self) with h | h
      · rw [h]
        exact hself b
      · exact hb a h
    have heq : a = b := by
      by_contra hne
      have hnone : (a :: l).countP (fun c => !decide (r a c)) = 0 := by
        rw [List.countP_eq_zero]
        intro c hc
        rcases List.mem_cons.1 hc with rfl | hc
        · simp [hself c]
        · simp [ha c hc]
      have := hties a List.mem_cons_self b (hperm.mem_iff.2 List.mem_cons_self) hab hba hne
      omega
    subst heq
    have hrest : l.take cap = m.take cap := by
      refine take_eq_of_perm hltail hmtail ((List.perm_cons a).1 hperm) fun c hc d hd hcd hdc hne => ?_
      have := hties c (List.mem_cons_of_mem _ hc) d (List.mem_cons_of_mem _ hd) hcd hdc hne
      rw [List.countP_cons] at this
      split at this <;> omega
    rw [List.take_succ_cons, List.take_succ_cons, hrest]

/-- **A sorted page does not depend on the order it was sorted from exactly where ties of different rows lie past its
end**. -/
theorem take_insertionSort_perm_iff [Std.Total r] [IsTrans α r] (cap : Nat) (l : List α) :
    (∀ m : List α, m.Perm l → (m.insertionSort r).take cap = (l.insertionSort r).take cap) ↔
      ∀ a ∈ l, ∀ b ∈ l, r a b → r b a → a ≠ b → cap ≤ l.countP fun c => !decide (r a c) := by
  classical
  constructor
  · intro h a ha b hb hab hba hne
    by_contra hlt
    rw [Nat.not_le] at hlt
    -- The list begun with a row shows the row first among its ties.
    have first {c : α} (hc : c ∈ l) : ((l.insertionSort r).take cap)[l.countP fun d => !decide (r c d)]? =
        if (l.countP fun d => !decide (r c d)) < cap then some c else none := by
      have hperm := List.perm_cons_erase hc
      have hself : r c c := (Std.Total.total c c).elim id id
      have hcount : l.countP (fun d => !decide (r c d)) = (l.erase c).countP fun d => !decide (r c d) := by
        rw [hperm.countP_eq, List.countP_cons_of_neg (by simp [hself])]
      rw [← h _ hperm.symm, List.getElem?_take, hcount, getElem?_insertionSort_cons]
    have hsame : (l.countP fun d => !decide (r b d)) = l.countP fun d => !decide (r a d) := by
      refine List.countP_congr fun d _ => ?_
      have hiff : r b d ↔ r a d := ⟨IsTrans.trans _ _ _ hab, IsTrans.trans _ _ _ hba⟩
      simp [hiff]
    have hfa := first ha
    have hfb := first hb
    rw [hsame, hfa, if_pos hlt] at hfb
    rw [if_pos hlt] at hfb
    exact hne (Option.some.inj hfb)
  · intro h m hperm
    have hl := List.perm_insertionSort r l
    refine (take_eq_of_perm (List.pairwise_insertionSort r l) (List.pairwise_insertionSort r m)
      (hl.trans (hperm.symm.trans (List.perm_insertionSort r m).symm)) fun a ha b hb hab hba hne => ?_).symm
    rw [hl.countP_eq]
    exact h a (hl.mem_iff.1 ha) b (hl.mem_iff.1 hb) hab hba hne

end Pages

end Lib
