import SafeSend.Jobs.Constraints
/-!
# Claims that overlap

One claim is one statement, but not one moment: it takes its snapshot, locks rows one after another, skipping those
another transaction holds, and sets the picked ones running one after another, each checked against the unique indexes
as it is written.  An index waits for a peer that has not committed, and refuses once it has.
-/
namespace SafeSend
namespace Queue

open Lib

inductive ClaimStatus | scanning | writing | committed | raised | abandoned
  deriving DecidableEq, Repr

/-- A claim transaction: what its snapshot found eligible and it has not tried yet, the rows it has locked, and of those
it picked the ones to write and the ones written. -/
structure ClaimTxn where
  now : Nat
  limit : Nat
  lease : Lease
  rest : List (Nat × JobRow)
  found : List (Nat × JobRow) := []
  todo : List Nat := []
  written : List Nat := []
  status : ClaimStatus := .scanning

structure Contention where
  now : Nat := 0
  jobs : Jobs
  claims : Table ClaimTxn := .empty

inductive ContentionOp
  | tick (elapsed : Nat)
  | begin (limit : Nat) (l : Lease)
  /-- The scan's next row. -/
  | lock (c : Nat)
  | pick (c : Nat)
  | write (c n : Nat)
  | commit (c : Nat)
  | rollback (c : Nat)

namespace ClaimTxn

/-- Its locks and its writes are still its own. -/
def live (t : ClaimTxn) : Bool := t.status == .scanning || t.status == .writing

/-- The row the scan is about to try. -/
def scans (t : ClaimTxn) : Option (Nat × JobRow) :=
  if t.status = .scanning ∧ t.found.length < t.limit then t.rest.head? else none

/-- The table as the claim sees it, with its own writes. -/
def table (t : ClaimTxn) (jobs : Jobs) : Jobs := jobs.updateAll (fun n => t.written.contains n) (claimRow t.now t.lease)

def wrote (t : ClaimTxn) (n : Nat) : ClaimTxn := { t with todo := t.todo.erase n, written := n :: t.written }

end ClaimTxn

/-- What is asked of a row's newest version when it is locked; the partition's guard was read in the snapshot. -/
def qualifies (now : Nat) (j : JobRow) : Bool :=
  j.state == .ready && decide (j.runAt ≤ now) && decide (j.attempts < j.maxAttempts)

namespace Contention

def lockedByOther (s : Contention) (c n : Nat) : Bool :=
  s.claims.any fun c' t => c' != c && t.live && t.found.any fun r => r.1 == n

/-- The row's newest version, if the claim can lock it: `SKIP LOCKED`. -/
def lockable (s : Contention) (c now n : Nat) : Option JobRow :=
  if s.lockedByOther c n then none else (s.jobs.get n).filter (qualifies now)

/-- A peer that has not ended has set a row of the partition running. -/
def awaited (s : Contention) (c : Nat) (key : Option String) : Bool :=
  key.isSome && s.claims.any fun c' t => c' != c && t.live && t.written.any fun n =>
    (s.jobs.get n).any fun j => j.partitionKey == key

def withClaim (s : Contention) (c : Nat) (t : ClaimTxn) : Contention := { s with claims := s.claims.modify c fun _ => t }

def step (s : Contention) : ContentionOp → Option Contention
  | .tick elapsed => some { s with now := s.now + elapsed }
  | .begin limit l =>
    let rest := (s.jobs.rows.filter fun r => eligible s.now s.jobs r.2).insertionSort claimsBefore
    some { s with claims := s.claims.insert { now := s.now, limit := limit, lease := l, rest := rest } }
  | .lock c => (s.claims.get c).bind fun t => t.scans.map fun r =>
    s.withClaim c { t with
      rest := t.rest.tail
      found := t.found ++ ((s.lockable c t.now r.1).map fun j => (r.1, j)).toList }
  | .pick c => (s.claims.get c).bind fun t =>
    if t.status = .scanning ∧ (t.rest = [] ∨ t.limit ≤ t.found.length) then
      some (s.withClaim c { t with status := .writing, todo := (picked t.found).map Prod.fst })
    else none
  | .write c n => (s.claims.get c).bind fun t =>
    if t.status = .writing ∧ n ∈ t.todo then
      if !decide (Valid ((t.wrote n).table s.jobs)) then some (s.withClaim c { t with status := .raised })
      else if s.awaited c ((s.jobs.get n).bind JobRow.partitionKey) then none
      else some (s.withClaim c (t.wrote n))
    else none
  | .commit c => (s.claims.get c).bind fun t =>
    if t.status = .writing ∧ t.todo = [] then
      some { s.withClaim c { t with status := .committed } with jobs := t.table s.jobs }
    else none
  | .rollback c => (s.claims.get c).bind fun t =>
    if t.live then some (s.withClaim c { t with status := .abandoned }) else none

/-- The partition has a row locked by another claim under way, or a running job. -/
def taken (s : Contention) (c : Nat) (p : String) : Bool :=
  (s.claims.any fun c' t => c' != c && t.live && t.found.any fun r => r.2.partitionKey == some p) ||
    partitionBusy s.jobs (some p)

/-- The step locks a row of a partition that is taken: by a peer still under way, or by one whose commit the snapshot
did not see. -/
def overlaps (s : Contention) : ContentionOp → Bool
  | .lock c => (s.claims.get c).any fun t => t.scans.any fun r => (s.lockable c t.now r.1).any fun j =>
    j.partitionKey.any fun p => s.taken c p
  | _ => false

/-- A job runs: committed so, or set so by a claim under way. -/
def Runs (s : Contention) (n : Nat) (p : String) : Prop :=
  ∃ j, s.jobs.get n = some j ∧ j.partitionKey = some p ∧
    (j.state = .running ∨ ∃ c t, s.claims.get c = some t ∧ t.live = true ∧ n ∈ t.written)

end Contention

def contention (jobs : Jobs) : Machine Contention ContentionOp where
  init := { jobs := jobs }
  step := Contention.step

/-- No claim raised, no job is claimed by two, no partition runs two. -/
structure Undisputed (s : Contention) : Prop where
  unraised : ∀ c t, s.claims.get c = some t → t.status ≠ .raised
  once : ∀ c c' t t' n, s.claims.get c = some t → s.claims.get c' = some t' →
    (t.live = true ∨ t.status = .committed) → (t'.live = true ∨ t'.status = .committed) →
    n ∈ t.written → n ∈ t'.written → c = c'
  exclusive : ∀ m n p, s.Runs m p → s.Runs n p → m = n

/-! ## What a claim may hold -/

/-- A row the claim may hold: as it stands, and in a partition the claim has to itself. -/
structure Fit (s : Contention) (c : Nat) (r : Nat × JobRow) : Prop where
  row : s.jobs.get r.1 = some r.2
  ready : r.2.state = .ready
  below : r.2.attempts < r.2.maxAttempts
  free : ∀ p, r.2.partitionKey = some p → partitionBusy s.jobs (some p) = false
  others : ∀ c' t, c' ≠ c → s.claims.get c' = some t → t.live = true → ∀ q ∈ t.found,
    q.1 ≠ r.1 ∧ ∀ p, r.2.partitionKey = some p → q.2.partitionKey ≠ some p

structure Apart (s : Contention) : Prop where
  valid : Valid s.jobs
  fits : ∀ c t, s.claims.get c = some t → t.live = true → ∀ r ∈ t.found, Fit s c r
  picks : ∀ c t, s.claims.get c = some t → t.live = true → ∀ n, n ∈ t.todo ∨ n ∈ t.written →
    t.status = .writing ∧ ∃ j, (n, j) ∈ picked t.found
  done : ∀ c t, s.claims.get c = some t → t.status = .committed → ∀ n ∈ t.written,
    ∃ j, s.jobs.get n = some j ∧ j.state = .running
  once : ∀ c c' t t' n, s.claims.get c = some t → s.claims.get c' = some t' → t.status = .committed →
    t'.status = .committed → n ∈ t.written → n ∈ t'.written → c = c'
  unraised : ∀ c t, s.claims.get c = some t → t.status ≠ .raised

variable {s t : Contention} {c : Nat} {x y : ClaimTxn}

theorem not_live {x : ClaimTxn} (h : x.status = .committed ∨ x.status = .raised ∨ x.status = .abandoned) :
    x.live = false := by
  unfold ClaimTxn.live
  rcases h with h | h | h <;> rw [h] <;> rfl

theorem live_of_status {x : ClaimTxn} (h : x.status = .scanning ∨ x.status = .writing) : x.live = true := by
  unfold ClaimTxn.live
  rcases h with h | h <;> rw [h] <;> rfl

theorem get_withClaim {c' : Nat} {z : ClaimTxn} (h : (s.withClaim c y).claims.get c' = some z) :
    (c' = c ∧ z = y) ∨ (c' ≠ c ∧ s.claims.get c' = some z) := by
  unfold Contention.withClaim at h
  rcases Table.get_modify_cases h with ⟨hc, _, -, hz⟩ | hold
  · exact .inl ⟨hc, hz⟩
  · exact .inr hold

/-- What a live claim has picked can be set running. -/
theorem Apart.claimed (h : Apart s) (hx : s.claims.get c = some x) (hl : x.live = true) {ids : List Nat}
    (hids : ∀ n ∈ ids, ∃ j, (n, j) ∈ picked x.found) : Claimed s.jobs ids := by
  have fit {n : Nat} (hn : n ∈ ids) {j : JobRow} (hj : s.jobs.get n = some j) :
      (n, j) ∈ picked x.found ∧ Fit s c (n, j) := by
    obtain ⟨i, hi⟩ := hids n hn
    have hf := h.fits c x hx hl (n, i) ((picked_sublist _).subset hi)
    obtain rfl : i = j := Option.some.inj (hf.row.symm.trans hj)
    exact ⟨hi, hf⟩
  refine ⟨fun n hn j hj => ⟨(fit hn hj).2.ready, (fit hn hj).2.below⟩, fun n hn j p hj hp m i hi hr => ?_, ?_⟩
  · exact partitionBusy_eq_false ((fit hn hj).2.free p hp) hi hr
  · intro m hm n hn i j p hi hj hip hjp
    by_contra hne
    have : Std.Symm fun a b : Nat × JobRow => slot a ≠ slot b := ⟨fun _ _ h h' => h h'.symm⟩
    have hslots := (picked_slots x.found).forall (fit hm hi).1 (fit hn hj).1 fun he => hne (congrArg Prod.fst he)
    exact hslots (by simp [slot, hip, hjp])

/-- **A claim changed by itself**, over the same table. -/
theorem Apart.change (h : Apart s) (hx : s.claims.get c = some x) (hfits : y.live = true → ∀ r ∈ y.found, Fit s c r)
    (hpicks : y.live = true → ∀ n, n ∈ y.todo ∨ n ∈ y.written → y.status = .writing ∧ ∃ j, (n, j) ∈ picked y.found)
    (hcommitted : y.status ≠ .committed) (hraised : y.status ≠ .raised) : Apart (s.withClaim c y) where
  valid := h.valid
  fits c' z hz hl r hr := by
    rcases get_withClaim hz with ⟨rfl, rfl⟩ | ⟨hne, hzold⟩
    · obtain ⟨hrow, hready, hbelow, hfree, hothers⟩ := hfits hl r hr
      refine ⟨hrow, hready, hbelow, hfree, fun c'' u hne' hu hlu q hq => ?_⟩
      rcases get_withClaim hu with ⟨heq, -⟩ | ⟨-, hu⟩
      · exact absurd heq hne'
      · exact hothers c'' u hne' hu hlu q hq
    · obtain ⟨hrow, hready, hbelow, hfree, hothers⟩ := h.fits c' z hzold hl r hr
      refine ⟨hrow, hready, hbelow, hfree, fun c'' u hne' hu hlu q hq => ?_⟩
      rcases get_withClaim hu with ⟨rfl, rfl⟩ | ⟨-, hu⟩
      · -- The changed claim's rows keep clear of this one's.
        obtain ⟨hid, hpart⟩ := (hfits hlu q hq).others c' z hne hzold hl r hr
        exact ⟨Ne.symm hid, fun p hp hqp => hpart p hqp hp⟩
      · exact hothers c'' u hne' hu hlu q hq
  picks c' z hz hl n hn := by
    rcases get_withClaim hz with ⟨rfl, rfl⟩ | ⟨-, hz⟩
    · exact hpicks hl n hn
    · exact h.picks c' z hz hl n hn
  done c' z hz hs n hn := by
    rcases get_withClaim hz with ⟨-, rfl⟩ | ⟨-, hz⟩
    · exact absurd hs hcommitted
    · exact h.done c' z hz hs n hn
  once c' c'' z z' n hz hz' hs hs' hn hn' := by
    rcases get_withClaim hz with ⟨-, rfl⟩ | ⟨-, hz⟩
    · exact absurd hs hcommitted
    · rcases get_withClaim hz' with ⟨-, rfl⟩ | ⟨-, hz'⟩
      · exact absurd hs' hcommitted
      · exact h.once c' c'' z z' n hz hz' hs hs' hn hn'
  unraised c' z hz := by
    rcases get_withClaim hz with ⟨-, rfl⟩ | ⟨-, hz⟩
    · exact hraised
    · exact h.unraised c' z hz

theorem Apart.begin (h : Apart s) (limit : Nat) (l : Lease) (rest : List (Nat × JobRow)) :
    Apart { s with claims := s.claims.insert { now := s.now, limit := limit, lease := l, rest := rest } } where
  valid := h.valid
  fits c' z hz hl r hr := by
    rcases Table.get_insert_cases hz with ⟨-, rfl⟩ | ⟨-, hz⟩
    · exact absurd hr List.not_mem_nil
    · obtain ⟨hrow, hready, hbelow, hfree, hothers⟩ := h.fits c' z hz hl r hr
      refine ⟨hrow, hready, hbelow, hfree, fun c'' u hne hu hlu q hq => ?_⟩
      rcases Table.get_insert_cases hu with ⟨-, rfl⟩ | ⟨-, hu⟩
      · exact absurd hq List.not_mem_nil
      · exact hothers c'' u hne hu hlu q hq
  picks c' z hz hl n hn := by
    rcases Table.get_insert_cases hz with ⟨-, rfl⟩ | ⟨-, hz⟩
    · rcases hn with hn | hn <;> exact absurd hn List.not_mem_nil
    · exact h.picks c' z hz hl n hn
  done c' z hz hs n hn := by
    rcases Table.get_insert_cases hz with ⟨-, rfl⟩ | ⟨-, hz⟩
    · cases hs
    · exact h.done c' z hz hs n hn
  once c' c'' z z' n hz hz' hs hs' hn hn' := by
    rcases Table.get_insert_cases hz with ⟨-, rfl⟩ | ⟨-, hz⟩
    · cases hs
    · rcases Table.get_insert_cases hz' with ⟨-, rfl⟩ | ⟨-, hz'⟩
      · cases hs'
      · exact h.once c' c'' z z' n hz hz' hs hs' hn hn'
  unraised c' z hz := by
    rcases Table.get_insert_cases hz with ⟨-, rfl⟩ | ⟨-, hz⟩
    · exact fun hs => nomatch hs
    · exact h.unraised c' z hz

theorem mem_table {jobs : Jobs} {n : Nat} {j : JobRow} (hn : n ∈ x.written) (hj : jobs.get n = some j) :
    (x.table jobs).get n = some (claimRow x.now x.lease j) := by
  unfold ClaimTxn.table
  rw [Table.get_updateAll, if_pos (List.contains_iff_mem.2 hn), hj]
  rfl

theorem not_mem_table {jobs : Jobs} {n : Nat} (hn : n ∉ x.written) : (x.table jobs).get n = jobs.get n := by
  unfold ClaimTxn.table
  rw [Table.get_updateAll, if_neg fun hc => hn (List.contains_iff_mem.1 hc)]

/-- **A commit**: what the claim wrote runs, and no other claim holds any of it or of its partitions. -/
theorem Apart.commit (h : Apart s) (hx : s.claims.get c = some x) (hs : x.status = .writing) :
    Apart { s.withClaim c { x with status := .committed } with jobs := x.table s.jobs } := by
  have hl : x.live = true := live_of_status (.inr hs)
  have hpicked (n : Nat) (hn : n ∈ x.written) : ∃ j, (n, j) ∈ picked x.found := (h.picks c x hx hl n (.inr hn)).2
  have hfit {n : Nat} (hn : n ∈ x.written) : ∃ j, (n, j) ∈ x.found ∧ Fit s c (n, j) := by
    obtain ⟨j, hj⟩ := hpicked n hn
    exact ⟨j, (picked_sublist _).subset hj, h.fits c x hx hl _ ((picked_sublist _).subset hj)⟩
  have hruns {n : Nat} {j : JobRow} (hj : s.jobs.get n = some j) (hr : j.state = .running) :
      ∃ j', (x.table s.jobs).get n = some j' ∧ j'.state = .running := by
    by_cases hn : n ∈ x.written
    · exact ⟨_, mem_table hn hj, rfl⟩
    · exact ⟨j, by rw [not_mem_table hn, hj], hr⟩
  have hwrote {n : Nat} (hn : n ∈ x.written) : ∃ j', (x.table s.jobs).get n = some j' ∧ j'.state = .running := by
    obtain ⟨j, -, hf⟩ := hfit hn
    exact ⟨_, mem_table hn hf.row, rfl⟩
  refine ⟨h.valid.runAll (h.claimed hx hl hpicked) x.now x.lease, fun c' z hz hlz r hr => ?_, fun c' z hz hlz n hn => ?_,
    fun c' z hz hsz n hn => ?_, fun c' c'' z z' n hz hz' hsz hsz' hn hn' => ?_, fun c' z hz => ?_⟩
  · rcases get_withClaim hz with ⟨-, rfl⟩ | ⟨hne, hz⟩
    · exact absurd hlz (by rw [not_live (.inl rfl)]; exact Bool.false_ne_true)
    · obtain ⟨hrow, hready, hbelow, hfree, hothers⟩ := h.fits c' z hz hlz r hr
      have hclear := hothers c x (Ne.symm hne) hx hl
      have hnot : r.1 ∉ x.written := by
        intro hmem
        obtain ⟨j, hj, -⟩ := hfit hmem
        exact (hclear (r.1, j) hj).1 rfl
      refine ⟨by rw [← hrow]; exact not_mem_table hnot, hready, hbelow, fun p hp => ?_, fun c'' u hne' hu hlu q hq => ?_⟩
      · have hidle := hfree p hp
        unfold partitionBusy at hidle ⊢
        refine Table.any_eq_false.2 fun m i hi => ?_
        by_cases hm : m ∈ x.written
        · obtain ⟨j, hj, hf⟩ := hfit hm
          rw [mem_table hm hf.row, Option.some.injEq] at hi
          subst hi
          have hapart := (hclear (m, j) hj).2 p hp
          simpa [claimRow] using hapart
        · rw [not_mem_table hm] at hi
          exact Table.any_eq_false.1 hidle m i hi
      · rcases get_withClaim hu with ⟨-, rfl⟩ | ⟨-, hu⟩
        · exact absurd hlu (by rw [not_live (.inl rfl)]; exact Bool.false_ne_true)
        · exact hothers c'' u hne' hu hlu q hq
  · rcases get_withClaim hz with ⟨-, rfl⟩ | ⟨-, hz⟩
    · exact absurd hlz (by rw [not_live (.inl rfl)]; exact Bool.false_ne_true)
    · exact h.picks c' z hz hlz n hn
  · rcases get_withClaim hz with ⟨-, rfl⟩ | ⟨-, hz⟩
    · exact hwrote hn
    · obtain ⟨j, hj, hr⟩ := h.done c' z hz hsz n hn
      exact hruns hj hr
  · -- A job committed before runs, and this claim holds ready ones.
    have fresh {c₀ : Nat} {z₀ : ClaimTxn} (hz₀ : s.claims.get c₀ = some z₀) (hs₀ : z₀.status = .committed)
        (hn₀ : n ∈ z₀.written) (hn : n ∈ x.written) : False := by
      obtain ⟨j, hj, hr⟩ := h.done c₀ z₀ hz₀ hs₀ n hn₀
      obtain ⟨i, -, hf⟩ := hfit hn
      obtain rfl : j = i := Option.some.inj (hj.symm.trans hf.row)
      rw [hf.ready] at hr
      cases hr
    rcases get_withClaim hz with ⟨hc, he⟩ | ⟨-, hz₀⟩ <;> rcases get_withClaim hz' with ⟨hc', he'⟩ | ⟨-, hz₁⟩
    · rw [hc, hc']
    · rw [he] at hn
      exact (fresh hz₁ hsz' hn' hn).elim
    · rw [he'] at hn'
      exact (fresh hz₀ hsz hn hn').elim
    · exact h.once c' c'' z z' n hz₀ hz₁ hsz hsz' hn hn'
  · rcases get_withClaim hz with ⟨-, rfl⟩ | ⟨-, hz⟩
    · intro he
      cases he
    · exact h.unraised c' z hz

/-- What is locked outside every taken partition fits. -/
theorem fit_of_lockable {now n : Nat} {j : JobRow} (hj : s.lockable c now n = some j)
    (hfree : ∀ p, j.partitionKey = some p → s.taken c p = false) : Fit s c (n, j) := by
  unfold Contention.lockable at hj
  split at hj
  · cases hj
  · rename_i hlocked
    obtain ⟨hrow, hq⟩ := Option.filter_eq_some_iff.1 hj
    simp only [qualifies, Bool.and_eq_true, beq_iff_eq, decide_eq_true_eq] at hq
    refine ⟨hrow, hq.1.1, hq.2, fun p hp => ?_, fun c' u hne hu hlu q hq' => ⟨fun he => ?_, fun p hp hqp => ?_⟩⟩
    · have ht := hfree p hp
      unfold Contention.taken at ht
      exact (Bool.or_eq_false_iff.1 ht).2
    · refine hlocked (Table.any_eq_true.2 ⟨c', u, hu, ?_⟩)
      simp only [Bool.and_eq_true, bne_iff_ne, ne_eq, List.any_eq_true, beq_iff_eq]
      exact ⟨⟨hne, hlu⟩, q, hq', he⟩
    · have ht := hfree p hp
      unfold Contention.taken at ht
      have hno := Table.any_eq_false.1 (Bool.or_eq_false_iff.1 ht).1 c' u hu
      rw [← Bool.not_eq_true] at hno
      refine hno ?_
      simp only [Bool.and_eq_true, bne_iff_ne, ne_eq, List.any_eq_true, beq_iff_eq]
      exact ⟨⟨hne, hlu⟩, q, hq', hqp⟩

theorem scanning_of_scans {r : Nat × JobRow} (h : x.scans = some r) : x.status = .scanning := by
  unfold ClaimTxn.scans at h
  split at h
  · rename_i hc
    exact hc.1
  · cases h

/-- A claim that still scans has picked nothing. -/
theorem Apart.unpicked (h : Apart s) (hx : s.claims.get c = some x) (hs : x.status = .scanning) {n : Nat} :
    ¬ (n ∈ x.todo ∨ n ∈ x.written) := by
  intro hn
  obtain ⟨hw, -⟩ := h.picks c x hx (live_of_status (.inl hs)) n hn
  rw [hs] at hw
  cases hw

/-- **The scan's next row** is of no taken partition, if the claim can lock it. -/
theorem Apart.lock (h : Apart s) (hx : s.claims.get c = some x) {r : Nat × JobRow} (hr : x.scans = some r)
    (hfree : ∀ j, s.lockable c x.now r.1 = some j → ∀ p, j.partitionKey = some p → s.taken c p = false) :
    Apart (s.withClaim c { x with
      rest := x.rest.tail
      found := x.found ++ ((s.lockable c x.now r.1).map fun j => (r.1, j)).toList }) := by
  have hscan : x.status = .scanning := scanning_of_scans hr
  refine h.change hx (fun _ q hq => ?_) (fun _ n hn => absurd hn (h.unpicked hx hscan)) (by simp [hscan]) (by simp [hscan])
  rcases List.mem_append.1 hq with hq | hq
  · exact h.fits c x hx (live_of_status (.inl hscan)) q hq
  · rw [Option.mem_toList, Option.map_eq_some_iff] at hq
    obtain ⟨j, hj, rfl⟩ := hq
    exact fit_of_lockable hj (hfree j hj)

theorem Apart.pick (h : Apart s) (hx : s.claims.get c = some x) (hs : x.status = .scanning) :
    Apart (s.withClaim c { x with status := .writing, todo := (picked x.found).map Prod.fst }) := by
  refine h.change hx (fun _ q hq => h.fits c x hx (live_of_status (.inl hs)) q hq) (fun _ n hn => ⟨rfl, ?_⟩)
    (fun he => nomatch he) (fun he => nomatch he)
  rcases hn with hn | hn
  · obtain ⟨r, hr, rfl⟩ := List.mem_map.1 hn
    exact ⟨r.2, hr⟩
  · exact absurd (.inr hn) (h.unpicked hx hs)

/-- **A write**: no constraint refuses it, and the row is one of those picked. -/
theorem Apart.write (h : Apart s) (hx : s.claims.get c = some x) (hs : x.status = .writing) {n : Nat} (hn : n ∈ x.todo) :
    Valid ((x.wrote n).table s.jobs) ∧ Apart (s.withClaim c (x.wrote n)) := by
  have hl : x.live = true := live_of_status (.inr hs)
  have hids (m : Nat) (hm : m ∈ (x.wrote n).written) : ∃ j, (m, j) ∈ picked x.found := by
    rcases List.mem_cons.1 hm with rfl | hm
    · exact (h.picks c x hx hl m (.inl hn)).2
    · exact (h.picks c x hx hl m (.inr hm)).2
  refine ⟨h.valid.runAll (h.claimed hx hl hids) x.now x.lease, ?_⟩
  refine h.change hx (fun _ q hq => h.fits c x hx hl q hq) (fun _ m hm => ⟨hs, ?_⟩)
    (fun he => nomatch hs.symm.trans he) (fun he => nomatch hs.symm.trans he)
  rcases hm with hm | hm
  · exact (h.picks c x hx hl m (.inl (List.mem_of_mem_erase hm))).2
  · exact hids m hm

theorem Apart.rollback (h : Apart s) (hx : s.claims.get c = some x) :
    Apart (s.withClaim c { x with status := .abandoned }) := by
  have hdead : ClaimTxn.live { x with status := .abandoned } = false := not_live (.inr (.inr rfl))
  exact h.change hx (fun hl => nomatch hdead.symm.trans hl) (fun hl => nomatch hdead.symm.trans hl) (fun he => nomatch he)
    (fun he => nomatch he)

theorem Apart.step {o : ContentionOp} (h : Apart s) (hok : s.overlaps o = false) (hs : s.step o = some t) : Apart t := by
  cases o with
  | tick elapsed =>
    obtain rfl := Option.some.inj hs
    exact ⟨h.valid, fun c x hx hl r hr => by
        obtain ⟨h1, h2, h3, h4, h5⟩ := h.fits c x hx hl r hr
        exact ⟨h1, h2, h3, h4, h5⟩,
      h.picks, h.done, h.once, h.unraised⟩
  | begin limit l =>
    obtain rfl := Option.some.inj hs
    exact h.begin limit l _
  | lock c =>
    simp only [Contention.step, Option.bind_eq_some_iff, Option.map_eq_some_iff] at hs
    obtain ⟨x, hx, r, hr, rfl⟩ := hs
    refine h.lock hx hr fun j hj p hp => ?_
    simp only [Contention.overlaps, hx, hr, hj, hp, Option.any_some] at hok
    exact hok
  | pick c =>
    simp only [Contention.step, Option.bind_eq_some_iff] at hs
    obtain ⟨x, hx, hs⟩ := hs
    split at hs
    · rename_i hc
      obtain rfl := Option.some.inj hs
      exact h.pick hx hc.1
    · cases hs
  | write c n =>
    simp only [Contention.step, Option.bind_eq_some_iff] at hs
    obtain ⟨x, hx, hs⟩ := hs
    split at hs
    · rename_i hc
      obtain ⟨hvalid, hwrote⟩ := h.write hx hc.1 hc.2
      rw [decide_eq_true hvalid, Bool.not_true, if_neg Bool.false_ne_true] at hs
      split at hs
      · cases hs
      · obtain rfl := Option.some.inj hs
        exact hwrote
    · cases hs
  | commit c =>
    simp only [Contention.step, Option.bind_eq_some_iff] at hs
    obtain ⟨x, hx, hs⟩ := hs
    split at hs
    · rename_i hc
      obtain rfl := Option.some.inj hs
      exact h.commit hx hc.1
    · cases hs
  | rollback c =>
    simp only [Contention.step, Option.bind_eq_some_iff] at hs
    obtain ⟨x, hx, hs⟩ := hs
    split at hs
    · obtain rfl := Option.some.inj hs
      exact h.rollback hx
    · cases hs

/-- A job that runs is a committed one, or one a live claim holds. -/
theorem Apart.exclusive (h : Apart s) {m n : Nat} {p : String} (hm : s.Runs m p) (hn : s.Runs n p) : m = n := by
  have held {k : Nat} {c : Nat} {x : ClaimTxn} (hx : s.claims.get c = some x) (hl : x.live = true) (hk : k ∈ x.written) :
      ∃ j, (k, j) ∈ x.found ∧ Fit s c (k, j) := by
    obtain ⟨-, j, hj⟩ := h.picks c x hx hl k (.inr hk)
    exact ⟨j, (picked_sublist _).subset hj, h.fits c x hx hl _ ((picked_sublist _).subset hj)⟩
  -- A running job is of no partition a live claim has written in.
  have clash {k k' c : Nat} {x : ClaimTxn} {i j : JobRow} (hi : s.jobs.get k = some i) (hip : i.partitionKey = some p)
      (hr : i.state = .running) (hj : s.jobs.get k' = some j) (hjp : j.partitionKey = some p)
      (hx : s.claims.get c = some x) (hl : x.live = true) (hk : k' ∈ x.written) : False := by
    obtain ⟨j', -, hf⟩ := held hx hl hk
    obtain rfl : j = j' := Option.some.inj (hj.symm.trans hf.row)
    exact partitionBusy_eq_false (hf.free p hjp) hi hr hip
  obtain ⟨i, hi, hip, hi'⟩ := hm
  obtain ⟨j, hj, hjp, hj'⟩ := hn
  rcases hi' with hir | ⟨c, x, hx, hl, hmx⟩ <;> rcases hj' with hjr | ⟨c', x', hx', hl', hnx⟩
  · exact h.valid.exclusive m n i j p hi hj hir hjr hip hjp
  · exact (clash hi hip hir hj hjp hx' hl' hnx).elim
  · exact (clash hj hjp hjr hi hip hx hl hmx).elim
  · by_cases hcc : c = c'
    · subst hcc
      obtain rfl : x = x' := Option.some.inj (hx.symm.trans hx')
      have hc : Claimed s.jobs x.written := h.claimed hx hl fun k hk => (h.picks c x hx hl k (.inr hk)).2
      exact hc.apart m hmx n hnx i j p hi hj hip hjp
    · obtain ⟨i', hi', hfi⟩ := held hx hl hmx
      obtain ⟨j', hj', hfj⟩ := held hx' hl' hnx
      obtain rfl : i = i' := Option.some.inj (hi.symm.trans hfi.row)
      obtain rfl : j = j' := Option.some.inj (hj.symm.trans hfj.row)
      exact absurd hjp ((hfi.others c' x' (Ne.symm hcc) hx' hl' _ hj').2 p hip)

theorem Apart.undisputed (h : Apart s) : Undisputed s where
  unraised := h.unraised
  exclusive _ _ _ := h.exclusive
  once c c' x x' n hx hx' hs hs' hn hn' := by
    have held {c : Nat} {x : ClaimTxn} (hx : s.claims.get c = some x) (hl : x.live = true) (hk : n ∈ x.written) :
        ∃ j, (n, j) ∈ x.found ∧ Fit s c (n, j) := by
      obtain ⟨-, j, hj⟩ := h.picks c x hx hl n (.inr hk)
      exact ⟨j, (picked_sublist _).subset hj, h.fits c x hx hl _ ((picked_sublist _).subset hj)⟩
    have clash {c c' : Nat} {x x' : ClaimTxn} (hx : s.claims.get c = some x) (hl : x.live = true) (hk : n ∈ x.written)
        (hx' : s.claims.get c' = some x') (hs' : x'.status = .committed) (hk' : n ∈ x'.written) : False := by
      obtain ⟨j, -, hf⟩ := held hx hl hk
      obtain ⟨i, hi, hr⟩ := h.done c' x' hx' hs' n hk'
      obtain rfl : i = j := Option.some.inj (hi.symm.trans hf.row)
      rw [hf.ready] at hr
      cases hr
    rcases hs with hs | hs <;> rcases hs' with hs' | hs'
    · by_contra hne
      obtain ⟨j, hj, hf⟩ := held hx hs hn
      obtain ⟨j', hj', -⟩ := held hx' hs' hn'
      exact (hf.others c' x' (Ne.symm hne) hx' hs' _ hj').1 rfl
    · exact (clash hx hs hn hx' hs' hn').elim
    · exact (clash hx' hs' hn' hx hs hn).elim
    · exact h.once c c' x x' n hx hx' hs hs' hn hn'

/-- **Claims that do not overlap in a partition never fail and never overlap**, from any table that satisfies its
constraints. -/
theorem claims_undisputed {jobs : Jobs} (hjobs : Valid jobs)
    (h : (contention jobs).Reach (fun s o => s.overlaps o = false) s) : Undisputed s := by
  have hinit : Apart (contention jobs).init :=
    ⟨hjobs, fun _ _ hx => (nomatch hx), fun _ _ hx => (nomatch hx), fun _ _ hx => (nomatch hx),
      fun _ _ _ _ _ hx => (nomatch hx), fun _ _ hx => (nomatch hx)⟩
  exact (Machine.Reach.inv hinit (fun _ _ _ _ hi hok hs => hi.step hok hs) h).undisputed

/-- Two sends due, in the partitions given. -/
def twoSends (p q : String) : Jobs :=
  let row (ref : Nat) (partition : String) : JobRow :=
    newRow {} 0 { kind := .send, refId := ref, partitionKey := some partition }
  ((Table.empty.insert (row 0 p)).insert (row 1 q))

/-- Two claims of one job each: the second skips the job the first has locked and takes the other one, and writes it
once the first has committed. -/
def twoClaims : List ContentionOp := [
  .begin 1 ⟨"host:1", 90, 300⟩, .begin 1 ⟨"host:2", 90, 300⟩,
  .lock 0, .lock 1, .lock 1, .pick 0, .pick 1, .write 0 0, .commit 0, .write 1 1]

theorem claims_undisputed_apart :
    Valid (twoSends "gmail:1" "slack:2") ∧
      ∃ s, (contention (twoSends "gmail:1" "slack:2")).exec (contention (twoSends "gmail:1" "slack:2")).init twoClaims =
        some s ∧ Undisputed s := by
  have hjobs : Valid (twoSends "gmail:1" "slack:2") := by decide +kernel
  have hrun : ((contention (twoSends "gmail:1" "slack:2")).exec (contention (twoSends "gmail:1" "slack:2")).init
      twoClaims).isSome = true := by decide +kernel
  have hal : (contention (twoSends "gmail:1" "slack:2")).allowed (fun s o => !s.overlaps o)
      (contention (twoSends "gmail:1" "slack:2")).init twoClaims = true := by decide +kernel
  obtain ⟨s, hs⟩ := Option.isSome_iff_exists.1 hrun
  refine ⟨hjobs, s, hs, claims_undisputed hjobs (Machine.Steps.of_exec (fun u o ho => ?_) hs hal)⟩
  rwa [Bool.not_eq_true'] at ho

/-- Both sends of one connection: the second claim is refused by `jobs_running_partition_uniq`. -/
theorem overlapping_claims_raise : ¬ ∀ jobs, Valid jobs → ∀ s, (contention jobs).Reach (fun _ _ => True) s → Undisputed s := by
  intro hclaim
  have hjobs : Valid (twoSends "gmail:1" "gmail:1") := by decide +kernel
  have hrun : ((contention (twoSends "gmail:1" "gmail:1")).exec (contention (twoSends "gmail:1" "gmail:1")).init
      twoClaims).any (fun s => (s.claims.get 1).any fun t => t.status == .raised) = true := by decide +kernel
  obtain ⟨s, -, hreach, hp⟩ := Machine.reach_of_exec hrun
  obtain ⟨t, ht, hr⟩ := (Option.any_eq_true _ _).1 hp
  exact (hclaim _ hjobs s hreach).unraised 1 t ht (beq_iff_eq.1 hr)

end Queue
end SafeSend
