import Mathlib.Data.List.Nodup
import Mathlib.Tactic.Common
/-!
# Dictionaries in the order of insertion

A dictionary as the list of its items: setting a key that is there keeps its place, setting one that is not puts it last.
-/
namespace Lib
namespace Dict

variable {κ α : Type} [DecidableEq κ]

def get (k : κ) (d : List (κ × α)) : Option α := (d.find? fun e => e.1 == k).map Prod.snd

def set (k : κ) (a : α) (d : List (κ × α)) : List (κ × α) :=
  if d.any fun e => e.1 == k then d.map fun e => if e.1 == k then (k, a) else e else d ++ [(k, a)]

def pop (k : κ) (d : List (κ × α)) : List (κ × α) := d.filter fun e => e.1 != k

/-- `dict(items)`. -/
def ofItems (items : List (κ × α)) : List (κ × α) := items.foldl (fun d e => set e.1 e.2 d) []

variable {k k' : κ} {a : α} {d : List (κ × α)}

theorem any_iff : (d.any fun e => e.1 == k) = true ↔ k ∈ d.map Prod.fst := by
  rw [List.any_eq_true, List.mem_map]
  exact exists_congr fun e => and_congr_right fun _ => beq_iff_eq

theorem get_eq_none : get k d = none ↔ k ∉ d.map Prod.fst := by
  unfold get
  rw [Option.map_eq_none_iff, List.find?_eq_none, List.mem_map]
  constructor
  · rintro h ⟨e, he, rfl⟩
    exact h e he (beq_self_eq_true _)
  · exact fun h e he hk => h ⟨e, he, beq_iff_eq.1 hk⟩

/-! ## Setting -/

theorem map_set_ne (h : k' ≠ k) : ∀ d : List (κ × α),
    get k' (d.map fun e => if e.1 == k then (k, a) else e) = get k' d
  | [] => rfl
  | e :: d => by
    have ih := map_set_ne h d
    unfold get at ih ⊢
    rw [List.map_cons, List.find?_cons, List.find?_cons]
    by_cases he : e.1 = k
    · have hne : (e.1 == k') = false := beq_false_of_ne fun hk => h (hk.symm.trans he)
      rw [if_pos (beq_iff_eq.2 he), hne, beq_false_of_ne (Ne.symm h)]
      exact ih
    · rw [if_neg fun hk => he (beq_iff_eq.1 hk)]
      split
      next => rfl
      next => exact ih

theorem map_set_self : ∀ d : List (κ × α), k ∈ d.map Prod.fst →
    get k (d.map fun e => if e.1 == k then (k, a) else e) = some a
  | [], h => by cases h
  | e :: d, h => by
    unfold get
    rw [List.map_cons, List.find?_cons]
    by_cases he : e.1 = k
    · rw [if_pos (beq_iff_eq.2 he), beq_self_eq_true]
      rfl
    · rw [if_neg fun hk => he (beq_iff_eq.1 hk), beq_false_of_ne he]
      rw [List.map_cons] at h
      exact map_set_self d ((List.mem_cons.1 h).resolve_left fun hk => he hk.symm)

theorem get_set_self (k : κ) (a : α) (d : List (κ × α)) : get k (set k a d) = some a := by
  unfold set
  split
  next h => exact map_set_self d (any_iff.1 h)
  next h =>
    have hnone : (d.find? fun e => e.1 == k) = none := by
      rw [← Option.map_eq_none_iff (f := Prod.snd)]
      exact get_eq_none.2 fun hk => h (any_iff.2 hk)
    unfold get
    rw [List.find?_append, hnone, Option.none_or, List.find?_cons, beq_self_eq_true]
    rfl

theorem get_set_of_ne (h : k' ≠ k) (a : α) (d : List (κ × α)) : get k' (set k a d) = get k' d := by
  unfold set
  split
  next => exact map_set_ne h d
  next =>
    unfold get
    rw [List.find?_append, List.find?_cons, beq_false_of_ne (Ne.symm h), List.find?_nil]
    exact congrArg _ (Option.or_none)

theorem keys_set (k : κ) (a : α) (d : List (κ × α)) :
    (set k a d).map Prod.fst = if k ∈ d.map Prod.fst then d.map Prod.fst else d.map Prod.fst ++ [k] := by
  unfold set
  by_cases h : k ∈ d.map Prod.fst
  · rw [if_pos (any_iff.2 h), if_pos h, List.map_map]
    refine List.map_congr_left fun e _ => ?_
    rw [Function.comp_apply]
    split
    next he => exact (beq_iff_eq.1 he).symm
    next => rfl
  · rw [if_neg fun hk => h (any_iff.1 hk), if_neg h, List.map_append]
    rfl

theorem nodup_set (hd : (d.map Prod.fst).Nodup) (k : κ) (a : α) : ((set k a d).map Prod.fst).Nodup := by
  rw [keys_set]
  split
  next => exact hd
  next h => exact List.nodup_append.2 ⟨hd, List.nodup_singleton k, fun m hm n hn he =>
      h (List.mem_singleton.1 hn ▸ he ▸ hm)⟩

/-- A key that has the value keeps it, and every item its place. -/
theorem set_of_get (hd : (d.map Prod.fst).Nodup) (h : get k d = some a) : set k a d = d := by
  obtain ⟨e, he, rfl⟩ := Option.map_eq_some_iff.1 h
  have hek : e.1 = k := beq_iff_eq.1 (List.find?_some (p := fun e : κ × α => e.1 == k) he)
  have hmem := List.mem_of_find?_eq_some he
  have hany : (d.any fun e => e.1 == k) = true := any_iff.2 (hek ▸ List.mem_map.2 ⟨e, hmem, rfl⟩)
  unfold set
  rw [if_pos hany]
  refine (List.map_congr_left fun e' he' => ?_).trans (List.map_id d)
  split
  next hk =>
    have : e' = e := List.inj_on_of_nodup_map hd he' hmem ((beq_iff_eq.1 hk).trans hek.symm)
    rw [this, ← hek]
    rfl
  next => rfl

/-! ## Taking out -/

theorem get_pop_self (k : κ) (d : List (κ × α)) : get k (pop k d) = none := by
  refine get_eq_none.2 fun h => ?_
  obtain ⟨e, he, rfl⟩ := List.mem_map.1 h
  have hne := (List.mem_filter.1 he).2
  rw [bne_self_eq_false] at hne
  cases hne

theorem get_pop_of_ne (h : k' ≠ k) (d : List (κ × α)) : get k' (pop k d) = get k' d := by
  unfold get pop
  rw [List.find?_filter]
  congr 1
  refine congrArg (fun p => d.find? p) (funext fun e => ?_)
  by_cases he : e.1 = k'
  · have hkeep : (e.1 != k) = true := bne_iff_ne.2 (he ▸ h)
    rw [hkeep]
    simp [beq_eq_decide]
  · rw [beq_false_of_ne he]
    simp

theorem nodup_pop (hd : (d.map Prod.fst).Nodup) (k : κ) : ((pop k d).map Prod.fst).Nodup :=
  hd.sublist (List.filter_sublist.map Prod.fst)

theorem pop_of_get (h : get k d = none) : pop k d = d :=
  List.filter_eq_self.2 fun e he => bne_iff_ne.2 fun hk => get_eq_none.1 h (hk ▸ List.mem_map.2 ⟨e, he, rfl⟩)

/-! ## The items of a dictionary -/

theorem nodup_ofItems (items : List (κ × α)) : ((ofItems items).map Prod.fst).Nodup := by
  have hfold : ∀ (items d : List (κ × α)), (d.map Prod.fst).Nodup →
      ((items.foldl (fun d e => set e.1 e.2 d) d).map Prod.fst).Nodup := by
    intro items
    induction items with
    | nil => exact fun d hd => hd
    | cons e items ih => exact fun d hd => ih _ (nodup_set hd e.1 e.2)
  exact hfold items [] List.nodup_nil

/-- **A dictionary is made of its own items.** -/
theorem ofItems_of_nodup {items : List (κ × α)} (h : (items.map Prod.fst).Nodup) : ofItems items = items := by
  have hfold : ∀ (items d : List (κ × α)), ((d ++ items).map Prod.fst).Nodup →
      items.foldl (fun d e => set e.1 e.2 d) d = d ++ items := by
    intro items
    induction items with
    | nil => exact fun d _ => (List.append_nil d).symm
    | cons e items ih =>
      intro d hd
      have hnew : e.1 ∉ d.map Prod.fst := by
        rw [List.map_append, List.map_cons, List.nodup_middle, List.nodup_cons] at hd
        exact fun hmem => hd.1 (List.mem_append_left _ hmem)
      have hset : set e.1 e.2 d = d ++ [e] := if_neg fun hk => hnew (any_iff.1 hk)
      have hassoc : d ++ [e] ++ items = d ++ e :: items := by rw [List.append_assoc, List.singleton_append]
      rw [List.foldl_cons, hset, ih _ (hassoc ▸ hd), hassoc]
  exact hfold items [] h

end Dict
end Lib
