import ReleaseNotifier.Conc.Prog
import ReleaseNotifier.Conc.Pool
import ReleaseNotifier.Conc.RelyGuarantee
import ReleaseNotifier.Conc.Joint
import ReleaseNotifier.Conc.Protocol
import ReleaseNotifier.Table
import ReleaseNotifier.Errors
import ReleaseNotifier.Attempt
import ReleaseNotifier.Subscriptions
import ReleaseNotifier.Sagas
import ReleaseNotifier.Wire
import ReleaseNotifier.Monolith
import ReleaseNotifier.Repo
import ReleaseNotifier.Orchestrator
import ReleaseNotifier.Service
import ReleaseNotifier.Steps
import ReleaseNotifier.Calls
import ReleaseNotifier.Subscribe
import ReleaseNotifier.Ready
import ReleaseNotifier.Outcome
import ReleaseNotifier.Failure
import ReleaseNotifier.Terminal
import ReleaseNotifier.Refresh
import ReleaseNotifier.Revocation
import ReleaseNotifier.Link
import ReleaseNotifier.Reaper
import ReleaseNotifier.Contention
import ReleaseNotifier.Replies
import ReleaseNotifier.Fanout
import ReleaseNotifier.Ledger
import ReleaseNotifier.Notifier
import ReleaseNotifier.Startup
import ReleaseNotifier.Sent
import ReleaseNotifier.Reservation
import ReleaseNotifier.Redelivery
import ReleaseNotifier.Overlap
import ReleaseNotifier.Broker
import ReleaseNotifier.RateLimiter
import ReleaseNotifier.Publisher
import ReleaseNotifier.Connections
import ReleaseNotifier.Confirms
import ReleaseNotifier.Succession
import ReleaseNotifier.Poller
import ReleaseNotifier.Chronicle
import ReleaseNotifier.Scan
import ReleaseNotifier.Detection
import ReleaseNotifier.Caching
import ReleaseNotifier.Handshake
import ReleaseNotifier.Waiter
import ReleaseNotifier.Conc.Scoped
import ReleaseNotifier.Text.Unicode
import ReleaseNotifier.Text.Strings
import ReleaseNotifier.Text.Segments
import ReleaseNotifier.Tracectx
import ReleaseNotifier.Ports
import ReleaseNotifier.Hops
import ReleaseNotifier.Transports
import ReleaseNotifier.Logger
import ReleaseNotifier.Keys
import ReleaseNotifier.Redaction
import ReleaseNotifier.Compensation
import ReleaseNotifier.FirstEvent
import ReleaseNotifier.Backlog
import ReleaseNotifier.Workers
import ReleaseNotifier.Conc.Script
import ReleaseNotifier.Independence
import ReleaseNotifier.CachedClient
import ReleaseNotifier.Admissions
import ReleaseNotifier.TraceGrammar
import ReleaseNotifier.Spellings
import ReleaseNotifier.Retry
import ReleaseNotifier.Text.Pattern
import ReleaseNotifier.RefGrammar
import ReleaseNotifier.Text.DotSegments
import ReleaseNotifier.GitHubPaths
import ReleaseNotifier.Text.Header
import ReleaseNotifier.MailText
import ReleaseNotifier.DedupKeys
import ReleaseNotifier.Text.Mailbox
import ReleaseNotifier.Addresses
import ReleaseNotifier.Conc.Dialogue
import ReleaseNotifier.SmtpClient
import ReleaseNotifier.Delivery
import ReleaseNotifier.Keyed
import ReleaseNotifier.Spans
import ReleaseNotifier.Sampling
import ReleaseNotifier.Topology
import ReleaseNotifier.RunConsumer
import ReleaseNotifier.Custody
import ReleaseNotifier.Sessions
import ReleaseNotifier.AtLeastOnce
import ReleaseNotifier.SmtpSession
import ReleaseNotifier.GitHubClient
import ReleaseNotifier.Lifecycle
import ReleaseNotifier.Serving
import ReleaseNotifier.RestApi
