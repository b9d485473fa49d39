import Mathlib.Data.Rat.Defs
import SafeSend.Errors
/-!
# Results and their ranking

The closed shape every source produces, what is refused of it, and the scores that place a source's rows.  Clocks and
floats are Python's: what `datetime.fromisoformat` reads and what the float arithmetic gives are parameters.
-/
namespace SafeSend
namespace Search

/-- A `datetime`, in microseconds: with an offset, or without one. -/
inductive Instant
  | aware (micros : Int)
  | naive (micros : Int)
  deriving DecidableEq, Repr

structure Arithmetic where
  fromisoformat : String → Option Instant
  /-- `0.5 ** (age / half life)`, the age positive. -/
  decay : Int → Rat
  /-- `RANK_WEIGHT / (RECIPROCAL_RANK_K + source_rank) + RECENCY_WEIGHT * recency`. -/
  blend : Nat → Rat → Rat

structure Result where
  source : String
  id : String
  title : String
  snippet : String
  url : String
  author : Option String := none
  timestamp : Option String := none
  deriving DecidableEq, Repr

/-- A result plus the numbers that placed it. -/
structure Ranked where
  result : Result
  sourceRank : Nat
  recencyWeight : Rat
  blendedScore : Rat
  deriving DecidableEq, Repr

variable (F : Arithmetic)

def Result.occurredAt (r : Result) : Option Instant := r.timestamp.bind F.fromisoformat

/-- `assert_normalized` lets the result through. -/
def normalized (r : Result) : Bool :=
  ([r.source, r.id, r.title, r.snippet, r.url].all fun value => !Text.blank value) &&
    r.timestamp.all fun t => (F.fromisoformat t).isSome

def mixedOffsets : Exn := .other "can't subtract offset-naive and offset-aware datetimes"

/-- 1.0 for right now, decaying; an unknown time scores 0. -/
def recencyWeight (occurredAt : Option Instant) (now : Int) : Except Exn Rat :=
  match occurredAt with
  | none => .ok 0
  | some (.naive _) => .error mixedOffsets
  | some (.aware t) => .ok (if now - t ≤ 0 then 1 else F.decay (now - t))

/-- Score the rows from a position on, preserving their order. -/
def rankFrom (now : Int) : Nat → List Result → Except Exn (List Ranked)
  | _, [] => .ok []
  | position, r :: l => do
    let weight ← recencyWeight F (r.occurredAt F) now
    let rest ← rankFrom now (position + 1) l
    return ⟨r, position, weight, F.blend position weight⟩ :: rest

/-- Score one adapter's output, preserving the order it returned. -/
def rankWithinSource (results : List Result) (now : Int) : Except Exn (List Ranked) := rankFrom F now 1 results

variable {F}

theorem rankFrom_cons {now : Int} {position : Nat} {r : Result} {l : List Result} {ranked : List Ranked}
    (h : rankFrom F now position (r :: l) = .ok ranked) : ∃ weight rest, rankFrom F now (position + 1) l = .ok rest ∧
      ranked = ⟨r, position, weight, F.blend position weight⟩ :: rest := by
  unfold rankFrom at h
  cases hw : recencyWeight F (r.occurredAt F) now with
  | error e => rw [hw] at h; cases h
  | ok weight =>
    cases hl : rankFrom F now (position + 1) l with
    | error e => rw [hw, hl] at h; cases h
    | ok rest =>
      rw [hw, hl] at h
      exact ⟨weight, rest, rfl, (Except.ok.inj h).symm⟩

/-- **A ranking numbers its rows**, from its position on. -/
theorem rankFrom_sorted {now : Int} : ∀ {l : List Result} {position : Nat} {ranked : List Ranked},
    rankFrom F now position l = .ok ranked → ranked.Pairwise (fun a b => a.sourceRank < b.sourceRank) ∧
      ∀ item ∈ ranked, position ≤ item.sourceRank
  | [], position, ranked, h => by
    obtain rfl := Except.ok.inj h
    exact ⟨List.Pairwise.nil, fun _ hm => absurd hm List.not_mem_nil⟩
  | r :: l, position, ranked, h => by
    obtain ⟨weight, rest, hrest, rfl⟩ := rankFrom_cons h
    obtain ⟨hs, hle⟩ := rankFrom_sorted hrest
    refine ⟨List.Pairwise.cons (fun item hm => ?_) hs, fun item hm => ?_⟩
    · exact hle item hm
    · rcases List.mem_cons.1 hm with rfl | hm
      · exact Nat.le_refl _
      · exact Nat.le_of_succ_le (hle item hm)

end Search
end SafeSend
