import ProtoRelay.Smtp.Relay
import ProtoRelay.Starttls
import ProtoRelay.Smtp.Envelope
import ProtoRelay.Smtp.StoredLines
import ProtoRelay.Persistence.Routing
import ProtoRelay.Persistence.Accounting
import ProtoRelay.Persistence.Cleanup
import ProtoRelay.Persistence.Snowflake
import ProtoRelay.Outbound.Leases
import ProtoRelay.Outbound.Recovery
import ProtoRelay.Client.Commands
import ProtoRelay.Outbound.Transparency
import ProtoRelay.Pop3.Deletion
import ProtoRelay.Inbound.BodyHash
import ProtoRelay.Inbound.Dmarc
import ProtoRelay.Inbound.Lookups
import ProtoRelay.Imap.Expunge
import ProtoRelay.Mime.Parser
import ProtoRelay.Mime.OwnBytes
import ProtoRelay.Imap.SequenceNumbers
import ProtoRelay.Imap.ReadOnly
import ProtoRelay.Imap.LiteralFraming
import ProtoRelay.Imap.Listening
import ProtoRelay.Pop3.LockLifecycle
import ProtoRelay.Pop3.Retrieval
import ProtoRelay.Webmail.Termination
import ProtoRelay.Webmail.Output
import ProtoRelay.Webmail.SessionValidity
import ProtoRelay.Http2.HpackTable
import ProtoRelay.Http2.HpackRoundTrip
import ProtoRelay.Http2.HpackContext
import ProtoRelay.Http2.Stalls
import ProtoRelay.Http2.StreamTable
import ProtoRelay.Node.Sends
import ProtoRelay.Node.Silence
import ProtoRelay.Http.SafePath
import ProtoRelay.Framework.Budget
import ProtoRelay.Output
