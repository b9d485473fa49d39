import Mathlib.Tactic.Common
/-!
# Enums

The closed vocabularies the tables are typed by, with the labels they are stored under.
-/
namespace SafeSend

inductive ProviderKind | gmail | slack
  deriving DecidableEq, Repr

inductive ConnStatus | active | expired | errored | needsReconnect
  deriving DecidableEq, Repr

inductive JobKind | adapterRun | send
  deriving DecidableEq, Repr

/-- `parked` is terminal *transient*: the attempt ceiling was reached. -/
inductive JobState | ready | running | succeeded | failed | parked | cancelled
  deriving DecidableEq, Repr

inductive ErrorClass | transient | permanent | needsReconnect | config
  deriving DecidableEq, Repr

inductive SendState | inFlight | delivered | failedPermanent | failedTransient | uncertain
  deriving DecidableEq, Repr

inductive RunStatus | pending | running | done | failed | needsReconnect
  deriving DecidableEq, Repr

inductive SourceMode | live | mock | degraded
  deriving DecidableEq, Repr

def ProviderKind.value : ProviderKind → String
  | gmail => "gmail"
  | slack => "slack"

def JobKind.value : JobKind → String
  | adapterRun => "adapter_run"
  | send => "send"

def ErrorClass.value : ErrorClass → String
  | transient => "transient"
  | permanent => "permanent"
  | needsReconnect => "needs_reconnect"
  | config => "config"

def SendState.value : SendState → String
  | inFlight => "in_flight"
  | delivered => "delivered"
  | failedPermanent => "failed_permanent"
  | failedTransient => "failed_transient"
  | uncertain => "uncertain"

/-- The states a send is settled in: nothing the worker does moves it on. -/
def SendState.failed : SendState → Bool
  | failedPermanent | failedTransient => true
  | _ => false

end SafeSend
