import SafeSend.Send.Sem
/-!
# Recipients

Resolving a destination into something a human recognises.  It happens when a draft is written, never on the send path.
-/
namespace SafeSend
namespace Send

open Lib

/-- The fixture workspace, consulted only when the provider gave no name. -/
def FAKE_CHANNEL_NAMES : List (String × String) :=
  [("C024BE91L", "#acme-renewal"), ("C7X2QF3AA", "#sales"), ("C5N1MK8QQ", "#eng")]

/-- The fixture's name for a channel id, or the id itself. -/
def knownChannel (recipient : String) : String := (FAKE_CHANNEL_NAMES.lookup recipient).getD ("#" ++ recipient)

/-- The display a human confirms against: what the user already typed, then the provider, then the fixture map, then
the id itself. -/
def resolveRecipient (channel : ProviderKind) (recipient : String) (connectionId : Nat) : SendProg String :=
  if channel = .gmail then return recipient
  else if Text.startsWith recipient "#" then return recipient
  else do
    let resolved ← perform (.channelName recipient connectionId)
    return if truthy resolved then resolved.getD "" else knownChannel recipient

/-- The one sentence the confirm dialog leads with. -/
def warningFor (channel : ProviderKind) (recipientDisplay connectionDisplay : String) : String :=
  match channel with
  | .gmail => "This will email " ++ recipientDisplay ++ " from " ++ connectionDisplay ++ "."
  | .slack => "This will post to " ++ recipientDisplay ++ " in " ++ connectionDisplay ++ "."

end Send
end SafeSend
