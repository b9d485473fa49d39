import Mathlib.Algebra.Order.Field.Rat
import SafeSend.Errors
/-!
# Retry scheduling

Full jitter: the whole window is drawn from, with no floor a herd could re-form at.
-/
namespace SafeSend

def BASE_SECONDS : Rat := 2

def CAP_SECONDS : Rat := 300

def EXPONENT_CLAMP : Nat := 16

/-- One draw of the random source, as a fraction of the window. -/
structure Draw where
  fraction : Rat
  nonneg : 0 ≤ fraction
  le_one : fraction ≤ 1

theorem zero_le_one_rat : (0 : Rat) ≤ 1 := Rat.num_nonneg.1 Int.one_nonneg

/-- The least draw there is. -/
def Draw.least : Draw := ⟨0, Rat.le_refl, zero_le_one_rat⟩

def Seconds.positive : Seconds → Bool
  | fin q => 0 < q
  | posInf => true
  | negInf | nan => false

/-- `max(retry_after, jitter)`, the jitter being finite. -/
def Seconds.atLeast (s : Seconds) (jitter : Rat) : Seconds :=
  match s with
  | fin q => fin (if q < jitter then jitter else q)
  | posInf => posInf
  | negInf => fin jitter
  | nan => nan

def jitterCeiling (attempts : Nat) : Rat := min CAP_SECONDS (BASE_SECONDS * 2 ^ min attempts EXPONENT_CLAMP)

/-- Seconds to wait before the next attempt; a provider's `Retry-After` always wins. -/
def fullJitter (attempts : Nat) (retryAfter : Option Seconds) (draw : Draw) : Seconds :=
  let jitter := draw.fraction * jitterCeiling attempts
  match retryAfter with
  | some r => if r.positive then r.atLeast jitter else .fin jitter
  | none => .fin jitter

/-- `make_interval(secs => delay)` in microseconds; none where the statement raises. -/
def Seconds.interval : Seconds → Option Nat
  | fin q =>
    let micros := (q * 1000000 + 1 / 2).floor.toNat
    if micros < 9223372036854775808 then some micros else none
  | _ => none

/-- PostgreSQL's last timestamp, in microseconds since 2000. -/
def LAST_TIMESTAMP : Nat := 9223371331199999999

/-- The wait until `now() + make_interval(secs => delay)`; none where the interval or the timestamp is out of range. -/
def Seconds.waitFrom (now : Nat) (s : Seconds) : Option Nat :=
  s.interval.filter fun wait => decide (now + wait ≤ LAST_TIMESTAMP)

end SafeSend
