import Mathlib.Algebra.Order.Floor.Ring
import SafeSend.Jobs.Moves
import SafeSend.Numbers
/-!
# Scheduling a retry

A provider's `Retry-After` from its header to the row that waits for it.  The header is parsed as a float, so it may be
infinite or longer than any timestamp; nothing between the parser and the statement bounds it, and a statement that
raises leaves the job running.
-/
namespace SafeSend

/-- `_retry_after`: an HTTP-date, as any text that is no float, is not read. -/
def retryAfter (headers : Option (List (String × String))) : Option Seconds :=
  match headers with
  | none => none
  | some headers =>
    let raw :=
      match headers.lookup "Retry-After" with
      | none | some "" => headers.lookup "retry-after"
      | some value => some value
    raw.bind Numbers.readFloat

/-- The microseconds of an interval. -/
def microsOf (q : Rat) : Nat := (q * 1000000 + 1 / 2).floor.toNat

/-- A wait of so many seconds ends within the timestamps. -/
def Reaches (now : Nat) (q : Rat) : Prop := now + microsOf q ≤ LAST_TIMESTAMP

theorem Reaches.mono {now : Nat} {p q : Rat} (h : Reaches now q) (hpq : p ≤ q) : Reaches now p := by
  have hscaled : p * 1000000 + 1 / 2 ≤ q * 1000000 + 1 / 2 := by linarith
  have hmicros : microsOf p ≤ microsOf q := Int.toNat_le_toNat (Rat.floor_monotone hscaled)
  exact Nat.le_trans (Nat.add_le_add_left hmicros now) h

theorem interval_fin (q : Rat) :
    (Seconds.fin q).interval = if microsOf q < 9223372036854775808 then some (microsOf q) else none := rfl

/-- **The statement's arithmetic succeeds** exactly on a finite delay that ends within the timestamps. -/
theorem waitFrom_isSome {now : Nat} {s : Seconds} : (s.waitFrom now).isSome ↔ ∃ q, s = .fin q ∧ Reaches now q := by
  have hlast : LAST_TIMESTAMP < 9223372036854775808 := by decide
  unfold Seconds.waitFrom
  rw [Option.isSome_iff_exists]
  constructor
  · rintro ⟨wait, h⟩
    rw [Option.filter_eq_some_iff, decide_eq_true_eq] at h
    cases s with
    | fin q =>
      rw [interval_fin, Option.ite_none_right_eq_some, Option.some.injEq] at h
      obtain ⟨⟨-, rfl⟩, hle⟩ := h
      exact ⟨q, rfl, hle⟩
    | posInf | negInf | nan => cases h.1
  · rintro ⟨q, rfl, hle⟩
    have hsmall : microsOf q < 9223372036854775808 := by
      unfold Reaches at hle
      omega
    refine ⟨microsOf q, Option.filter_eq_some_iff.2 ⟨?_, decide_eq_true hle⟩⟩
    rw [interval_fin, if_pos hsmall]

/-! ## The delay -/

theorem jitterCeiling_eq (attempts : Nat) : jitterCeiling attempts = min 300 (2 * 2 ^ attempts) := by
  unfold jitterCeiling CAP_SECONDS BASE_SECONDS EXPONENT_CLAMP
  by_cases h : attempts ≤ 16
  · rw [Nat.min_eq_left h]
  · have hpow : (2 : Rat) ^ 16 ≤ 2 ^ attempts := pow_le_pow_right₀ (by norm_num) (by omega)
    rw [Nat.min_eq_right (by omega), min_eq_left (by norm_num), min_eq_left (by linarith)]

theorem jitterCeiling_nonneg (attempts : Nat) : 0 ≤ jitterCeiling attempts := by
  rw [jitterCeiling_eq]
  positivity

theorem Draw.jitter_nonneg (draw : Draw) (attempts : Nat) : 0 ≤ draw.fraction * jitterCeiling attempts :=
  mul_nonneg draw.nonneg (jitterCeiling_nonneg attempts)

theorem Draw.jitter_le (draw : Draw) (attempts : Nat) : draw.fraction * jitterCeiling attempts ≤ jitterCeiling attempts :=
  mul_le_of_le_one_left (jitterCeiling_nonneg attempts) draw.le_one

/-- The draw that waits the whole window. -/
def Draw.greatest : Draw := ⟨1, zero_le_one_rat, Rat.le_refl⟩

theorem atLeast_fin (p jitter : Rat) : (Seconds.fin p).atLeast jitter = .fin (max p jitter) := by
  unfold Seconds.atLeast
  by_cases h : p < jitter
  · rw [max_eq_right h.le]
    simp only [if_pos h]
  · rw [max_eq_left (not_lt.1 h)]
    simp only [if_neg h]

/-- The delay where the provider asks for a finite wait, or for none. -/
theorem fullJitter_cases (attempts : Nat) (asked : Option Seconds) (draw : Draw) :
    (∃ r, asked = some r ∧ r.positive = true ∧
        fullJitter attempts asked draw = r.atLeast (draw.fraction * jitterCeiling attempts)) ∨
      (∀ r, asked = some r → r.positive = false) ∧
        fullJitter attempts asked draw = .fin (draw.fraction * jitterCeiling attempts) := by
  cases asked with
  | none => exact .inr ⟨fun _ h => (by cases h), rfl⟩
  | some r =>
    by_cases hr : r.positive = true
    · exact .inl ⟨r, rfl, hr, if_pos hr⟩
    · refine .inr ⟨fun _ h => ?_, if_neg hr⟩
      cases h
      exact Bool.eq_false_iff.2 hr

/-! ## The statement -/

namespace Queue

open Lib

/-- A failure is recorded unless it is to be retried and the delay's arithmetic raises. -/
theorem fail_isSome {now : Nat} {jobs : Jobs} {job : ClaimedJob} {worker : String} {errorClass : ErrorClass}
    {detail : String} {asked : Option Seconds} {draw : Draw} :
    (fail now jobs job worker errorClass detail asked draw).isSome ↔
      errorClass ≠ .transient ∨ job.maxAttempts ≤ job.attempts ∨
        ((fullJitter job.attempts asked draw).waitFrom now).isSome := by
  unfold fail
  by_cases hc : errorClass = .transient
  · by_cases ha : job.maxAttempts ≤ job.attempts
    · simp [hc, ha]
    · simp [hc, ha]
  · simp [hc]

/-- **A recorded failure takes the row out of its running state.** -/
theorem fail_leaves {now : Nat} {jobs jobs' : Jobs} {job : ClaimedJob} {worker : String} {errorClass : ErrorClass}
    {detail : String} {asked : Option Seconds} {draw : Draw} {out : FailOutcome} {j : JobRow}
    (h : fail now jobs job worker errorClass detail asked draw = some (out, jobs')) (hj : jobs.get job.id = some j)
    (howned : ownedBy worker j = true) : ∃ j', jobs'.get job.id = some j' ∧ j'.state ≠ .running := by
  rcases fail_cases h with ⟨-, state, hs, rfl⟩ | ⟨-, -, wait, delay, rfl⟩
  · refine ⟨_, Table.get_updateWhere_hit _ hj howned, ?_⟩
    rcases hs with rfl | rfl <;> simp [terminalRow]
  · exact ⟨_, Table.get_updateWhere_hit _ hj howned, by simp [retryRow]⟩

/-- The delay is a finite wait of at least what the provider asks for, else within the window, and a failure recorded
with it, whatever the class, takes the job's row out of its running state. -/
structure Schedulable (now attempts : Nat) (asked : Option Seconds) (draw : Draw) : Prop where
  delay : ∃ q, fullJitter attempts asked draw = .fin q ∧ 0 ≤ q ∧
    (∀ r, asked = some r → r.positive = true → ∃ p, r = .fin p ∧ p ≤ q) ∧
    ((∀ r, asked = some r → r.positive = false) → q ≤ min 300 (2 * 2 ^ attempts))
  leaves : ∀ (jobs : Jobs) (job : ClaimedJob) (worker : String) (errorClass : ErrorClass) (detail : String) (j : JobRow),
    job.attempts = attempts → jobs.get job.id = some j → ownedBy worker j = true →
      ∃ out jobs', fail now jobs job worker errorClass detail asked draw = some (out, jobs') ∧
        ∃ j', jobs'.get job.id = some j' ∧ j'.state ≠ .running

/-- A job with one try left, and its row. -/
def lastTry (attempts : Nat) : ClaimedJob :=
  ⟨0, .send, 0, attempts, attempts + 1, none, none, some "host:1", none, none⟩

def heldRow (attempts : Nat) : JobRow where
  kind := .send
  refId := 0
  dedupeKey := none
  partitionKey := none
  state := .running
  runAt := 0
  attempts := attempts
  maxAttempts := attempts + 1
  claimedBy := some "host:1"

/-- **What a retry's arithmetic needs**: the delay it drew ends within the timestamps. -/
theorem Schedulable.reaches {now attempts : Nat} {asked : Option Seconds} {draw : Draw}
    (h : Schedulable now attempts asked draw) : ∃ q, fullJitter attempts asked draw = .fin q ∧ Reaches now q := by
  obtain ⟨out, jobs', hfail, -⟩ := h.leaves (Table.empty.insert (heldRow attempts)) (lastTry attempts) "host:1" .transient ""
    (heldRow attempts) rfl rfl (by simp [ownedBy, heldRow])
  have hsome := fail_isSome.1 (by rw [hfail]; rfl)
  rcases hsome with hclass | hmax | hwait
  · exact absurd rfl hclass
  · exact absurd hmax (Nat.not_succ_le_self attempts)
  · exact waitFrom_isSome.1 hwait

theorem schedulable_of_reaches {now attempts : Nat} {asked : Option Seconds} {draw : Draw}
    (hwindow : Reaches now (jitterCeiling attempts))
    (hasked : ∀ r, asked = some r → r.positive = true → ∃ p, r = .fin p ∧ Reaches now p) :
    Schedulable now attempts asked draw := by
  have hnonneg := draw.jitter_nonneg attempts
  have hle := draw.jitter_le attempts
  have hdelay : ∃ q, fullJitter attempts asked draw = .fin q ∧ 0 ≤ q ∧
      (∀ r, asked = some r → r.positive = true → ∃ p, r = .fin p ∧ p ≤ q) ∧
      ((∀ r, asked = some r → r.positive = false) → q ≤ min 300 (2 * 2 ^ attempts)) ∧ Reaches now q := by
    rcases fullJitter_cases attempts asked draw with ⟨r, hr, hpos, hj⟩ | ⟨hnone, hj⟩
    · obtain ⟨p, rfl, hp⟩ := hasked r hr hpos
      refine ⟨max p (draw.fraction * jitterCeiling attempts), by rw [hj, atLeast_fin], le_max_of_le_right hnonneg, ?_, ?_,
        ?_⟩
      · intro r' hr' _
        rw [hr, Option.some.injEq] at hr'
        exact ⟨p, hr'.symm, le_max_left _ _⟩
      · intro hnone
        rw [hnone _ hr] at hpos
        cases hpos
      · rcases max_choice p (draw.fraction * jitterCeiling attempts) with h | h <;> rw [h]
        · exact hp
        · exact hwindow.mono hle
    · refine ⟨_, hj, hnonneg, ?_, fun _ => ?_, hwindow.mono hle⟩
      · intro r hr hpos
        rw [hnone r hr] at hpos
        cases hpos
      · rw [← jitterCeiling_eq]
        exact hle
  obtain ⟨q, hq, h0, hlong, hshort, hreach⟩ := hdelay
  refine ⟨⟨q, hq, h0, hlong, hshort⟩, ?_⟩
  rintro jobs job worker errorClass detail j rfl hj howned
  have hsome : (fail now jobs job worker errorClass detail asked draw).isSome :=
    fail_isSome.2 (.inr (.inr (waitFrom_isSome.2 ⟨q, hq, hreach⟩)))
  obtain ⟨⟨out, jobs'⟩, hfail⟩ := Option.isSome_iff_exists.1 hsome
  exact ⟨out, jobs', hfail, fail_leaves hfail hj howned⟩

/-- **A retry can be scheduled, whatever is drawn**, exactly where the longest window and the wait a provider asks for end
within the timestamps. -/
theorem schedulable_iff (now attempts : Nat) (headers : Option (List (String × String))) :
    (∀ draw, Schedulable now attempts (retryAfter headers) draw) ↔
      Reaches now (min 300 (2 * 2 ^ attempts)) ∧
        ∀ r, retryAfter headers = some r → r.positive = true → ∃ q, r = .fin q ∧ Reaches now q := by
  rw [← jitterCeiling_eq]
  constructor
  · intro h
    have hgreatest : Draw.greatest.fraction * jitterCeiling attempts = jitterCeiling attempts := one_mul _
    obtain ⟨q, hq, hreach⟩ := (h Draw.greatest).reaches
    rcases fullJitter_cases attempts (retryAfter headers) Draw.greatest with ⟨r, hr, hpos, hj⟩ | ⟨hnone, hj⟩
    · obtain ⟨q', hq', -, hlong, -⟩ := (h Draw.greatest).delay
      rw [hq, Seconds.fin.injEq] at hq'
      subst hq'
      obtain ⟨p, rfl, hpq⟩ := hlong r hr hpos
      rw [hj, atLeast_fin, Seconds.fin.injEq, hgreatest] at hq
      refine ⟨hreach.mono (hq ▸ le_max_right _ _), fun r' hr' _ => ?_⟩
      rw [hr, Option.some.injEq] at hr'
      exact ⟨p, hr'.symm, hreach.mono hpq⟩
    · rw [hj, Seconds.fin.injEq, hgreatest] at hq
      refine ⟨hq ▸ hreach, fun r hr hpos => ?_⟩
      rw [hnone r hr] at hpos
      cases hpos
  · rintro ⟨hwindow, hasked⟩ draw
    exact schedulable_of_reaches hwindow hasked

/-- **An infinite `Retry-After` leaves the job running**: the delay is infinite and the statement raises. -/
theorem infinite_wait_stuck :
    retryAfter (some [("Retry-After", "inf")]) = some .posInf ∧
      fullJitter 1 (retryAfter (some [("Retry-After", "inf")])) .least = .posInf ∧
      fail 0 (Table.empty.insert (heldRow 1)) (lastTry 1) "host:1" .transient "slack:ratelimited"
        (retryAfter (some [("Retry-After", "inf")])) .least = none ∧
      ¬ Schedulable 0 1 (retryAfter (some [("Retry-After", "inf")])) .least := by
  have hparsed : retryAfter (some [("Retry-After", "inf")]) = some .posInf := by decide +kernel
  rw [hparsed]
  have hdelay : fullJitter 1 (some .posInf) .least = .posInf := rfl
  refine ⟨rfl, hdelay, ?_, ?_⟩
  · rw [← Option.not_isSome_iff_eq_none, fail_isSome]
    simp [lastTry, hdelay, Seconds.waitFrom, Seconds.interval]
  · intro h
    obtain ⟨q, hq, -⟩ := h.reaches
    rw [hdelay] at hq
    cases hq

end Queue
end SafeSend
