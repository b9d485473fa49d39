import SafeSend.Sha256
import SafeSend.Jobs.Ownership
import SafeSend.Jobs.Contention
import SafeSend.Send.Election
import SafeSend.Send.Decision
import SafeSend.Send.Settled
import SafeSend.Send.AtMostOnce
import SafeSend.Send.Confirmed
import SafeSend.Send.Stranded
import SafeSend.Send.Durable
import SafeSend.Send.Resend
import SafeSend.Connections.Credentials
import SafeSend.Connections.Overlap
import SafeSend.Search.Closing
import SafeSend.Search.Finished
import SafeSend.Search.Results
import SafeSend.Send.Budget
import SafeSend.Send.Gmail
import SafeSend.Send.Slack
import SafeSend.Send.Suited
import SafeSend.Send.ResolvedOnce
import SafeSend.Providers.Revoked
import SafeSend.Paging.Histories
import SafeSend.Jobs.Batch
import SafeSend.Search.Merge
import SafeSend.Search.Accepted
import SafeSend.Connections.Verified
import SafeSend.Connections.Reconnect
import SafeSend.Connections.SingleUse
import SafeSend.Connections.Rotated
import SafeSend.Send.Edited
import SafeSend.Send.Overlapping
import SafeSend.Search.Degraded
import SafeSend.Send.Mailbox
import SafeSend.Search.Snapshot
import SafeSend.Search.Stream
import SafeSend.Send.Digest
import SafeSend.Connections.Keyring
import SafeSend.ApiKeys
import SafeSend.Jobs.Retry
import SafeSend.Redaction.Settled
import SafeSend.Redaction.Minted
import SafeSend.Redaction.Emitted
import SafeSend.Jobs.Capped
import SafeSend.Search.Wire
import SafeSend.Isolation.Isolated
import SafeSend.Accounts.Holders
import SafeSend.Accounts.LastUsed
import SafeSend.Accounts.StandIns
import SafeSend.Jobs.Ledger
import SafeSend.Jobs.Drained
import SafeSend.Send.Attributed
import SafeSend.Isolation.Readback
import SafeSend.Isolation.Listed
import SafeSend.Api.Refusals
import SafeSend.DatabaseUrl
import SafeSend.Connections.Consent
import SafeSend.Search.Repairs
import SafeSend.Search.Gmail
