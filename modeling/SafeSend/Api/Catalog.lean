import Mathlib.Tactic.Common
import SafeSend.Send.Service
/-!
# The error catalog

One row for each published code, and the envelope a refusal crosses the wire in.  An `ApiError` looks its status and its
classification up; a refusal of the send gate comes with its own.
-/
namespace SafeSend
namespace Api

open Send (SendGateError)

/-- A row of the table; `reachableAsEnvelope` is off for a code that is carried inside a payload only. -/
structure ErrorSpec where
  code : String
  status : Nat
  classification : String
  reachableAsEnvelope : Bool := true
  deriving DecidableEq, Repr

def CATALOG : List ErrorSpec := [
  { code := "unauthorized", status := 401, classification := "permanent" },
  { code := "not_found", status := 404, classification := "permanent" },
  { code := "confirmation_required", status := 422, classification := "permanent" },
  { code := "body_changed_since_confirmation", status := 422, classification := "permanent" },
  { code := "idempotency_key_body_mismatch", status := 422, classification := "permanent" },
  { code := "resolution_required", status := 409, classification := "permanent" },
  { code := "connection_needs_reconnect", status := 409, classification := "needs_reconnect" },
  { code := "connection_not_connected", status := 409, classification := "needs_reconnect",
    reachableAsEnvelope := false },
  { code := "recipient_invalid", status := 422, classification := "permanent" },
  { code := "channel_not_found", status := 422, classification := "permanent", reachableAsEnvelope := false },
  { code := "provider_rate_limited", status := 503, classification := "transient", reachableAsEnvelope := false },
  { code := "provider_unavailable", status := 503, classification := "transient", reachableAsEnvelope := false },
  { code := "internal_config_error", status := 500, classification := "config", reachableAsEnvelope := false },
  { code := "invalid_cursor", status := 422, classification := "permanent" },
  { code := "provider_not_configured", status := 503, classification := "config" },
  { code := "authorization_denied", status := 400, classification := "permanent" },
  { code := "authorization_incomplete", status := 400, classification := "permanent" },
  { code := "state_invalid", status := 400, classification := "permanent" },
  { code := "reconnect_account_mismatch", status := 409, classification := "permanent" }]

/-- `BY_CODE[code]`; `none` is the `KeyError`. -/
def spec (code : String) : Option ErrorSpec := CATALOG.find? fun s => s.code == code

/-- The codes are keys, so the dictionary holds every row. -/
theorem catalog_codes : (CATALOG.map (·.code)).Nodup := by decide

theorem spec_eq_some {code : String} {s : ErrorSpec} : spec code = some s ↔ s ∈ CATALOG ∧ s.code = code := by
  constructor
  · intro h
    exact ⟨List.mem_of_find?_eq_some h, beq_iff_eq.1 (List.find?_some (p := fun s : ErrorSpec => s.code == code) h)⟩
  · rintro ⟨hs, rfl⟩
    cases hf : spec s.code with
    | none => exact absurd (beq_self_eq_true s.code) (List.find?_eq_none.1 hf s hs)
    | some s' =>
      have hcode : s'.code = s.code := beq_iff_eq.1 (List.find?_some (p := fun t : ErrorSpec => t.code == s.code) hf)
      rw [List.inj_on_of_nodup_map catalog_codes (List.mem_of_find?_eq_some hf) hs hcode]

/-! ## The envelope -/

/-- `error` of a body, beside its status; what is absent is dropped. -/
structure Envelope where
  status : Nat
  code : String
  classification : String
  message : String
  extra : List (String × String)
  deriving DecidableEq, Repr

def envelope (status : Nat) (code message classification : String) (extra : List (String × Option String)) : Envelope where
  status := status
  code := code
  classification := classification
  message := message
  extra := extra.filterMap fun e => e.2.map fun value => (e.1, value)

/-- `_gate_error`: the address under both of its names. -/
def gateError (e : SendGateError) : Envelope :=
  envelope e.status e.code e.message e.classification [("action_url", e.actionUrl), ("reconnect_url", e.actionUrl)]

/-- An `ApiError` and its body, which names no code that is not in the catalog. -/
def apiError (code message : String) : Option Envelope :=
  (spec code).map fun s => envelope s.status code message s.classification []

end Api
end SafeSend
