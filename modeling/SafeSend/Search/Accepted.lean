import SafeSend.Paging.Stamp
import SafeSend.Search.Rows
/-!
# The rows of a run that are accepted

A result that is not normalized is dropped and the others go on.  What lets a row through asks whether its timestamp can
be read, and what scores it subtracts the timestamp from an aware clock: one row without an offset fails its whole source.
-/
namespace SafeSend
namespace Search

open Lib

/-- The values of a row that the database may be unable to hold: its texts and its time. -/
abbrev Values := List String × Option Instant

def ResultRow.values (row : ResultRow) : Values :=
  ([row.source, row.externalId, row.title, row.snippet, row.url] ++ row.author.toList, row.occurredAt)

variable (F : Arithmetic)

def Result.values (r : Result) : Values := ([r.source, r.id, r.title, r.snippet, r.url] ++ r.author.toList, r.occurredAt F)

/-- The timestamp says when, and not where. -/
def Result.naive (r : Result) : Bool :=
  match r.occurredAt F with
  | some (.naive _) => true
  | _ => false

variable {F}

theorem recencyWeight_ok {r : Result} (now : Int) (h : r.naive F = false) :
    ∃ weight, recencyWeight F (r.occurredAt F) now = .ok weight := by
  unfold Result.naive at h
  cases ht : r.occurredAt F with
  | none => exact ⟨0, rfl⟩
  | some t =>
    cases t with
    | naive t =>
      rw [ht] at h
      cases h
    | aware t => exact ⟨_, rfl⟩

theorem recencyWeight_naive {r : Result} {now : Int} (h : r.naive F = true) :
    recencyWeight F (r.occurredAt F) now = .error mixedOffsets := by
  unfold Result.naive at h
  split at h
  · rename_i t ht
    rw [ht]
    rfl
  · cases h

/-- **Rows without a naive time are ranked**, each in its place. -/
theorem rankFrom_ok (now : Int) : ∀ {l : List Result} (position : Nat), (∀ r ∈ l, r.naive F = false) →
    ∃ ranked, rankFrom F now position l = .ok ranked ∧ ranked.map Ranked.result = l
  | [], _, _ => ⟨[], rfl, rfl⟩
  | r :: l, position, h => by
    obtain ⟨weight, hweight⟩ := recencyWeight_ok now (h r List.mem_cons_self)
    obtain ⟨rest, hrest, hmap⟩ := rankFrom_ok now (position + 1) fun q hq => h q (List.mem_cons_of_mem _ hq)
    refine ⟨⟨r, position, weight, F.blend position weight⟩ :: rest, ?_, by rw [List.map_cons, hmap]⟩
    unfold rankFrom
    rw [hweight, hrest]
    rfl

/-- **One row with a naive time, and nothing is ranked.** -/
theorem rankFrom_naive (now : Int) : ∀ {l : List Result} (position : Nat) {r : Result}, r ∈ l → r.naive F = true →
    rankFrom F now position l = .error mixedOffsets
  | q :: l, position, r, hr, hnaive => by
    unfold rankFrom
    by_cases hq : q.naive F = true
    · rw [recencyWeight_naive hq]
      rfl
    · obtain ⟨weight, hweight⟩ := recencyWeight_ok now (Bool.eq_false_iff.2 hq)
      rcases List.mem_cons.1 hr with rfl | hr
      · exact absurd hnaive hq
      · rw [hweight, rankFrom_naive now (position + 1) hr hnaive]
        rfl

/-- The database, which refuses the transaction of results with a value it cannot hold. -/
def strictSem (storable : Values → Bool) : (o : Op) → Env → Store → Option (o.Ans × Store)
  | .commitResults l, .none, w =>
    if l.rows.all fun row => storable row.values then some ((), w.commitResults l) else none
  | o, e, w => sem o e w

variable (D : Deployment) (storable : Values → Bool)

/-- What the adapter answered, and after it nothing but the clock and the database. -/
def answered (found : Found) : List Env := [.found (.ok found), .none, .none, .none]

/-- The rows that are not normalized are dropped and **all the others are ranked and stored**, as the run's results. -/
def KeepsOthers (w : Store) (run : LoadedRun) (found : Found) : Prop :=
  let kept := found.raw.filter (normalized D.arithmetic)
  ∃ ranked, rankWithinSource D.arithmetic kept w.now = .ok ranked ∧ ranked.map Ranked.result = kept ∧
    ∃ w', (executeAdapterRun D run).runWith (strictSem storable) (answered found) w = some (.ok kept.length, w') ∧
      w'.stored run.id = ranked.map (resultRow D.arithmetic run)

variable {D storable} {w : Store} {run : LoadedRun} {found : Found}

/-- What an execution does with rows that are ranked: it commits them all, or the database refuses them all. -/
theorem run_ranked {reg : Registration} (hreg : D.registry.registration run.source = .ok reg) {ranked : List Ranked}
    (hranked : rankWithinSource D.arithmetic (found.raw.filter (normalized D.arithmetic)) w.now = .ok ranked) :
    (executeAdapterRun D run).runWith (strictSem storable) (answered found) w =
      if ranked.all fun item => storable (item.result.values D.arithmetic) then
        some (.ok ranked.length, w.commitResults
          ⟨run, w.now, w.resultIds run.id, ranked.map (resultRow D.arithmetic run), found.reportedMode⟩)
      else none := by
  have hvalues : ((ranked.map (resultRow D.arithmetic run)).all fun row => storable row.values) =
      ranked.all fun item => storable (item.result.values D.arithmetic) := List.all_map
  have hexecute : executeAdapterRun D run = .op (.search run.source run.connectionId run.query) (storeFound D run) := by
    unfold executeAdapterRun
    rw [hreg]
    rfl
  have hfound : storeFound D run (.ok found) = .op .clock fun now : Nat => storeRanked D run found.reportedMode
      (rankWithinSource D.arithmetic (found.raw.filter (normalized D.arithmetic)) now) := rfl
  have hstore : storeRanked D run found.reportedMode (.ok ranked) = .op (.deleteResults run.id) fun r =>
      .op (.commitResults ⟨run, r.1, r.2, ranked.map (resultRow D.arithmetic run), found.reportedMode⟩) fun _ =>
        .ret (.ok ranked.length) := rfl
  rw [hexecute, answered]
  simp only [Prog.runWith, strictSem, sem, Option.bind_some, hfound, hranked, hstore, hvalues]
  split <;> rfl

/-- **Every accepted row is stored exactly where none of them is naive** or beyond what the database can hold. -/
theorem keepsOthers_iff {reg : Registration} (hreg : D.registry.registration run.source = .ok reg) :
    KeepsOthers D storable w run found ↔ ∀ r ∈ found.raw, normalized D.arithmetic r = true →
      r.naive D.arithmetic = false ∧ storable (r.values D.arithmetic) = true := by
  constructor
  · rintro ⟨ranked, hranked, hmap, w', hrun, -⟩ r hr hnorm
    have hkept : r ∈ found.raw.filter (normalized D.arithmetic) := List.mem_filter.2 ⟨hr, hnorm⟩
    constructor
    · by_contra hnaive
      rw [Bool.not_eq_false] at hnaive
      have herror := rankFrom_naive (w.now : Int) 1 hkept hnaive
      unfold rankWithinSource at hranked
      rw [herror] at hranked
      cases hranked
    · rw [run_ranked hreg hranked] at hrun
      split at hrun
      · rename_i hall
        rw [← hmap] at hkept
        obtain ⟨item, hitem, rfl⟩ := List.mem_map.1 hkept
        exact List.all_eq_true.1 hall item hitem
      · cases hrun
  · intro h
    have hkept : ∀ r ∈ found.raw.filter (normalized D.arithmetic), r.naive D.arithmetic = false ∧
        storable (r.values D.arithmetic) = true := by
      intro r hr
      obtain ⟨hr, hnorm⟩ := List.mem_filter.1 hr
      exact h r hr hnorm
    obtain ⟨ranked, hranked, hmap⟩ := rankFrom_ok (F := D.arithmetic) (w.now : Int) 1 fun r hr => (hkept r hr).1
    have hlength : ranked.length = (found.raw.filter (normalized D.arithmetic)).length := by
      rw [← hmap, List.length_map]
    have hall : ranked.all (fun item => storable (item.result.values D.arithmetic)) = true := by
      rw [List.all_eq_true]
      intro item hitem
      exact (hkept _ (hmap ▸ List.mem_map_of_mem hitem)).2
    refine ⟨ranked, hranked, hmap, _, by rw [run_ranked hreg hranked, if_pos hall, hlength], ?_⟩
    refine stored_commitResults_self (fun row hrow => ?_) fun id hid => hid
    obtain ⟨item, -, rfl⟩ := List.mem_map.1 hrow
    rfl

/-- `fromisoformat`, of a text with an offset and of one that has none. -/
def readInstant (s : String) : Option Instant :=
  match Paging.fromisoformat s.toList with
  | some t => some (.aware t.1.instant)
  | none => (Paging.fromisoformat (s.toList ++ "+00:00".toList)).map fun t => .naive t.1.instant

/-- Columns hold every text without a NUL. -/
def withoutNul (v : Values) : Bool := v.1.all fun s => !s.toList.contains '\x00'

def readingDeployment : Deployment :=
  { sampleDeployment with arithmetic := { sampleDeployment.arithmetic with fromisoformat := readInstant } }

def sampleRun : LoadedRun := ⟨0, 0, "web", none, "launch"⟩

def stamped (timestamp : String) : Result := { sampleResult with timestamp := some timestamp }

theorem keepsOthers_offset :
    (KeepsOthers readingDeployment withoutNul {} sampleRun ⟨[stamped "2026-07-21T09:12:33+02:00", stamped "today"], none⟩ ↔
      ∀ r ∈ [stamped "2026-07-21T09:12:33+02:00", stamped "today"], normalized readingDeployment.arithmetic r = true →
        r.naive readingDeployment.arithmetic = false ∧ withoutNul (r.values readingDeployment.arithmetic) = true) ∧
      ∀ r ∈ [stamped "2026-07-21T09:12:33+02:00", stamped "today"], normalized readingDeployment.arithmetic r = true →
        r.naive readingDeployment.arithmetic = false ∧ withoutNul (r.values readingDeployment.arithmetic) = true :=
  have hreg : readingDeployment.registry.registration sampleRun.source = .ok { requiresConnection := false } := rfl
  ⟨keepsOthers_iff hreg, by decide +kernel⟩

/-- A page's age without an offset passes the check, and its source fails. -/
theorem naive_row_fails_source :
    ¬ ∀ found : Found, KeepsOthers readingDeployment withoutNul {} sampleRun found := by
  intro hclaim
  obtain ⟨ranked, hranked, -⟩ := hclaim ⟨[stamped "2026-07-21T09:12:33"], none⟩
  have herror : (match rankWithinSource readingDeployment.arithmetic
      ([stamped "2026-07-21T09:12:33"].filter (normalized readingDeployment.arithmetic)) (({} : Store).now) with
    | .ok _ => false
    | .error _ => true) = true := by decide +kernel
  rw [hranked] at herror
  cases herror

end Search
end SafeSend
