import Psst.Lib.Lts
import Psst.Lib.Table
import Psst.Lib.Transaction
import Psst.Lib.Validated
import Psst.Core.State
import Psst.Store.Mailbox
import Psst.Store.Authority
import Psst.Store.Standing
import Psst.Store.Lease
import Psst.Store.Grant
import Psst.Store.Issue
import Psst.Store.Routing
import Psst.Store.Migration
import Psst.Protocol.Auth
import Psst.Relay.Isolation
import Psst.Relay.Dispatch
import Psst.Relay.Polling
import Psst.Relay.Transcript
import Psst.Relay.Inbox
import Psst.Relay.Chronology
import Psst.Relay.Extent
import Psst.Relay.Presence
import Psst.Relay.Allowance
import Psst.Client.Exchange
import Psst.Client.Conclusion
import Psst.Client.Delivery
import Psst.Client.Client
import Psst.Client.Permit
import Psst.Session.Wedge
import Psst.Session.Admission
import Psst.Session.Generation
import Psst.Session.Drain
import Psst.Durable.Refinement
import Psst.Mcp.Cancel
import Psst.Mcp.Watch
import Psst.Mcp.Result
import Psst.Mcp.Schema
import Psst.Activation.Backoff
import Psst.Codex.Demux
import Psst.Codex.Fence
import Psst.Codex.SingleTurn
import Psst.Cli.ReadBack
import Psst.Codex.Conversation
import Psst.Codex.Shutdown
import Psst.Session.Release
