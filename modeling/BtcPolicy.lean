import BtcPolicy.Lib.Counting
import BtcPolicy.Lib.FiniteMap
import BtcPolicy.Lib.Word
import BtcPolicy.Lib.Runs
import BtcPolicy.Replay
import BtcPolicy.HotLedger
import BtcPolicy.Bitcoin
import BtcPolicy.Channel.Candidate
import BtcPolicy.Channel.Store
import BtcPolicy.Channel.Ingress
import BtcPolicy.Channel.Carrier
import BtcPolicy.Channel.Fire
import BtcPolicy.Channel.Machine
import BtcPolicy.Channel.Evolution
import BtcPolicy.Channel.Arming
import BtcPolicy.Channel.Deadline
import BtcPolicy.Channel.Release
import BtcPolicy.Channel.Egress
import BtcPolicy.Channel.Metering
import BtcPolicy.Channel.Hush
import BtcPolicy.Channel.Silence
import BtcPolicy.Channel.Schedule
import BtcPolicy.Channel.Cover
import BtcPolicy.Federation
import BtcPolicy.Channel.Accounting
import BtcPolicy.Channel.Registration
import BtcPolicy.Channel.Guards
import BtcPolicy.Channel.Signatures
import BtcPolicy.Lib.HashChain
import BtcPolicy.Watchtower
import BtcPolicy.Channel.Lifecycle
import BtcPolicy.Channel.Residency
import BtcPolicy.Channel.Receipts
import BtcPolicy.Node.State
import BtcPolicy.Node.Refresh
import BtcPolicy.Channel.Veil
import BtcPolicy.Node.Blind
import BtcPolicy.Node.Machine
import BtcPolicy.Node.Holds
import BtcPolicy.Node.Subordination
import BtcPolicy.Node.Lockdown
import BtcPolicy.Alerts
import BtcPolicy.Encoding
import BtcPolicy.Node.Commitment
import BtcPolicy.Node.CoordAuth
import BtcPolicy.Manifest
import BtcPolicy.Lib.Json
import BtcPolicy.Node.Payload
import BtcPolicy.Node.Verify
import BtcPolicy.Node.Verdicts
import BtcPolicy.Node.Staging
import BtcPolicy.Node.Ladder
import BtcPolicy.Signer
import BtcPolicy.Coverage.Core
import BtcPolicy.Coverage.Refresh
import BtcPolicy.Coverage.Complete
import BtcPolicy.Coverage.Denominator
import BtcPolicy.Lib.Checks
import BtcPolicy.Policy.Exact
import BtcPolicy.Node.Weight
import BtcPolicy.Node.Sweep
import BtcPolicy.Node.Finalize
import BtcPolicy.Node.Climb
import BtcPolicy.Node.Protected
import BtcPolicy.Node.Registry
import BtcPolicy.Node.Budget
import BtcPolicy.Node.Settle
import BtcPolicy.Lib.RingBuffer
import BtcPolicy.Pin.Attempts
import BtcPolicy.Node.Burn
import BtcPolicy.Node.Package
import BtcPolicy.Coverage.Advance
import BtcPolicy.Node.Snapshot
import BtcPolicy.Policy.Monotone
import BtcPolicy.Policy.Template
import BtcPolicy.Channel.Startup
import BtcPolicy.Signer.Authorize
import BtcPolicy.Signer.Inventory
import BtcPolicy.Signer.Compose
import BtcPolicy.Signer.Bracket
import BtcPolicy.Lib.Lines
import BtcPolicy.Client.Http
import BtcPolicy.Client.Transport
import BtcPolicy.Client.Ingress
import BtcPolicy.Client.Ladder
import BtcPolicy.Client.Independence
import BtcPolicy.Node.Firing
import BtcPolicy.Node.Outbox
import BtcPolicy.Federation.Holders
import BtcPolicy.Lib.Refinement
import BtcPolicy.Node.Ingest
import BtcPolicy.Federation.Wire
