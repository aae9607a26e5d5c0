import ChatRelay.Account
import ChatRelay.Account.Document
import ChatRelay.Address
import ChatRelay.Bytes
import ChatRelay.CommandLine
import ChatRelay.Config
import ChatRelay.Engine
import ChatRelay.Hash.Sha256
import ChatRelay.Host
import ChatRelay.Housekeeping
import ChatRelay.Json.Token
import ChatRelay.Json.Value
import ChatRelay.Link
import ChatRelay.Main
import ChatRelay.Relay.Basic
import ChatRelay.Relay.Chat
import ChatRelay.Relay.Login
import ChatRelay.Relay.Stream
import ChatRelay.Relay.Teardown
import ChatRelay.Ring
import ChatRelay.Server
import ChatRelay.Session
import ChatRelay.Store
import ChatRelay.Table
import ChatRelay.Text.Glyph
import ChatRelay.Text.Quoted
import ChatRelay.Text.Utf8
import ChatRelay.Token
import ChatRelay.Wire.Contents
import ChatRelay.Wire.Field
import ChatRelay.Wire.Framing
import ChatRelay.Wire.Header
import ChatRelay.Wire.Kind
import ChatRelay.Wire.Packet
import ChatRelay.Proofs.Framing
import ChatRelay.Proofs.Relay.Basic
import ChatRelay.Proofs.Relay.Moves
import ChatRelay.Proofs.Reassembly
import ChatRelay.Proofs.Directory
import ChatRelay.Proofs.Outgoing
import ChatRelay.Proofs.Relay.Wiring
import ChatRelay.Proofs.Relay.Delivery
import ChatRelay.Proofs.Relay.Chat
import ChatRelay.Proofs.Runs
import ChatRelay.Proofs.Transcript
import ChatRelay.Proofs.Relay.Login
import ChatRelay.Proofs.Relay.Teardown
import ChatRelay.Proofs.Takeover
import ChatRelay.Proofs.Compensation
import ChatRelay.Proofs.SingleFlight
import ChatRelay.Proofs.Recycling
import ChatRelay.Proofs.Relay.Leases
import ChatRelay.Proofs.Relay.Settled
import ChatRelay.Proofs.Bookkeeping
import ChatRelay.Proofs.Packet
import ChatRelay.Proofs.Text
import ChatRelay.Proofs.Relay.Tenure
import ChatRelay.Proofs.Names
import ChatRelay.Proofs.Views
import ChatRelay.Proofs.Reads
import ChatRelay.Proofs.Relay.Serving
import ChatRelay.Proofs.Origins
import ChatRelay.Proofs.Authentication
import ChatRelay.Proofs.Relay.Verdict
import ChatRelay.Proofs.Guests
import ChatRelay.Proofs.Staleness
import ChatRelay.Proofs.Relay.Lifetime
import ChatRelay.Proofs.Relay.Speech
import ChatRelay.Proofs.Relay.Taken
import ChatRelay.Proofs.Relay.Ending
import ChatRelay.Proofs.Endings
import ChatRelay.Proofs.Housekeeping
import ChatRelay.Proofs.Armed
import ChatRelay.Proofs.Canonical
import ChatRelay.Proofs.Wording
import ChatRelay.Proofs.RoundTrip
import ChatRelay.Proofs.Acceptance
import ChatRelay.Proofs.Queue
import ChatRelay.Proofs.Numbering
import ChatRelay.Proofs.Expiry
import ChatRelay.Proofs.Renewal
import ChatRelay.Proofs.Admission
import ChatRelay.Proofs.Audience
import ChatRelay.Proofs.Rollback
import ChatRelay.Proofs.Credentials
import ChatRelay.Proofs.Noise
import ChatRelay.Proofs.Registration
import ChatRelay.Proofs.Truncation
import ChatRelay.Proofs.Loading
import ChatRelay.Proofs.Deadlines
