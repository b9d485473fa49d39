import Mathlib.Tactic.Common
/-!
# Settings

The settings the modelled code reads.  The attempt ceiling is a deployment's choice; it is at least one.
-/
namespace SafeSend

theorem default_maxAttempts_pos : 0 < 6 := by decide

structure Settings where
  maxAttempts : Nat := 6
  jobLeaseSeconds : Nat := 90
  sendLeaseSeconds : Nat := 300
  maxAttempts_pos : 0 < maxAttempts := by first | exact default_maxAttempts_pos | decide

end SafeSend
