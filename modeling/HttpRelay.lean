import HttpRelay.Capacity
import HttpRelay.Client
import HttpRelay.Command.Arguments
import HttpRelay.Command.Help
import HttpRelay.Command.Options
import HttpRelay.Command.Program
import HttpRelay.Config
import HttpRelay.Exchange.Basic
import HttpRelay.Exchange.Feed
import HttpRelay.Exchange.Fetch
import HttpRelay.Exchange.NextHead
import HttpRelay.Exchange.Opening
import HttpRelay.Exchange.Reconnect
import HttpRelay.Exchange.Run
import HttpRelay.Exchange.Stream
import HttpRelay.Exchange.Tunnel
import HttpRelay.Failure
import HttpRelay.Flate.Bits
import HttpRelay.Flate.Bounded
import HttpRelay.Flate.Checksum
import HttpRelay.Flate.Huffman
import HttpRelay.Flate.Inflate
import HttpRelay.Http.Chunked
import HttpRelay.Http.ContentCoding
import HttpRelay.Http.Fields
import HttpRelay.Http.Framing
import HttpRelay.Http.Head
import HttpRelay.Http.HeadReader
import HttpRelay.Http.HeaderBlocks
import HttpRelay.Http.Request
import HttpRelay.Http.SizeLine
import HttpRelay.Http.Snapshot
import HttpRelay.Idna.Composition
import HttpRelay.Idna.CompositionTable
import HttpRelay.Idna.DirectionTable
import HttpRelay.Idna.Domain
import HttpRelay.Idna.Mapping
import HttpRelay.Idna.MappingTable
import HttpRelay.Idna.Punycode
import HttpRelay.Log
import HttpRelay.Main
import HttpRelay.Net.Address
import HttpRelay.Net.Dial
import HttpRelay.Net.Endpoint
import HttpRelay.Net.Proxy
import HttpRelay.Pool
import HttpRelay.Producer
import HttpRelay.Relay.Channel
import HttpRelay.Relay.Feed
import HttpRelay.Relay.Scheduler
import HttpRelay.Stats
import HttpRelay.Text.Base64
import HttpRelay.Text.Blank
import HttpRelay.Text.CodeRanges
import HttpRelay.Text.Json
import HttpRelay.Text.Numeral
import HttpRelay.Text.Percent
import HttpRelay.Text.Quoted
import HttpRelay.Text.Unprintable
import HttpRelay.Text.Utf8
import HttpRelay.Tls
import HttpRelay.Url.Basic
import HttpRelay.Url.Host
import HttpRelay.Url.Parser
import HttpRelay.Wire.Peer
import HttpRelay.Wire.Scan
import HttpRelay.Proofs.Client.Parties
import HttpRelay.Proofs.Client.Permits
import HttpRelay.Proofs.Client.Producers
import HttpRelay.Proofs.Client.Programs
import HttpRelay.Proofs.Client.Sessions
import HttpRelay.Proofs.Client.Traffic
import HttpRelay.Proofs.Exchange.Agreement
import HttpRelay.Proofs.Exchange.Attempts
import HttpRelay.Proofs.Exchange.Bodiless
import HttpRelay.Proofs.Exchange.BodyLoops
import HttpRelay.Proofs.Exchange.BodyPasses
import HttpRelay.Proofs.Exchange.BodyPieces
import HttpRelay.Proofs.Exchange.BodyRuns
import HttpRelay.Proofs.Exchange.CodingLines
import HttpRelay.Proofs.Exchange.Consumers
import HttpRelay.Proofs.Exchange.Delivery
import HttpRelay.Proofs.Exchange.Factories
import HttpRelay.Proofs.Exchange.Failures
import HttpRelay.Proofs.Exchange.Feeds
import HttpRelay.Proofs.Exchange.Fragments
import HttpRelay.Proofs.Exchange.FramingChoice
import HttpRelay.Proofs.Exchange.HeadCuts
import HttpRelay.Proofs.Exchange.HeadLimits
import HttpRelay.Proofs.Exchange.HeadPieces
import HttpRelay.Proofs.Exchange.HeadReads
import HttpRelay.Proofs.Exchange.HeaderDumps
import HttpRelay.Proofs.Exchange.Intake
import HttpRelay.Proofs.Exchange.Openings
import HttpRelay.Proofs.Exchange.Promptness
import HttpRelay.Proofs.Exchange.ReadCounts
import HttpRelay.Proofs.Exchange.ReadLoops
import HttpRelay.Proofs.Exchange.Receipts
import HttpRelay.Proofs.Exchange.Reconnects
import HttpRelay.Proofs.Exchange.Refusals
import HttpRelay.Proofs.Exchange.Runs
import HttpRelay.Proofs.Exchange.Sending
import HttpRelay.Proofs.Exchange.TunnelText
import HttpRelay.Proofs.Exchange.Tunnels
import HttpRelay.Proofs.Exchange.Unanswered
import HttpRelay.Proofs.Flate.Limits
import HttpRelay.Proofs.Flate.Readers
import HttpRelay.Proofs.Flate.Room
import HttpRelay.Proofs.Flate.Trailing
import HttpRelay.Proofs.Http.BlockTexts
import HttpRelay.Proofs.Http.BodyEnds
import HttpRelay.Proofs.Http.BodyFeeds
import HttpRelay.Proofs.Http.ChunkedCuts
import HttpRelay.Proofs.Http.ChunkedEvents
import HttpRelay.Proofs.Http.ChunkedFeeds
import HttpRelay.Proofs.Http.ChunkedForm
import HttpRelay.Proofs.Http.ChunkedRoundTrip
import HttpRelay.Proofs.Http.ChunkedSteps
import HttpRelay.Proofs.Http.ChunkedText
import HttpRelay.Proofs.Http.Codings
import HttpRelay.Proofs.Http.Completion
import HttpRelay.Proofs.Http.DecodedSizes
import HttpRelay.Proofs.Http.DecoderLoops
import HttpRelay.Proofs.Http.DefaultHosts
import HttpRelay.Proofs.Http.FieldLines
import HttpRelay.Proofs.Http.GzipMembers
import HttpRelay.Proofs.Http.HeadForms
import HttpRelay.Proofs.Http.HeadText
import HttpRelay.Proofs.Http.Lengths
import HttpRelay.Proofs.Http.LineLimits
import HttpRelay.Proofs.Http.RequestText
import HttpRelay.Proofs.Http.SizeLines
import HttpRelay.Proofs.Idna.Colons
import HttpRelay.Proofs.Loops
import HttpRelay.Proofs.Net.EndpointText
import HttpRelay.Proofs.Net.ProxyCredentials
import HttpRelay.Proofs.Net.ProxyPasswords
import HttpRelay.Proofs.Outcomes
import HttpRelay.Proofs.Relay.Abandonment
import HttpRelay.Proofs.Relay.ChannelSteps
import HttpRelay.Proofs.Relay.Closes
import HttpRelay.Proofs.Relay.Collecting
import HttpRelay.Proofs.Relay.ConsumerRuns
import HttpRelay.Proofs.Relay.CutOff
import HttpRelay.Proofs.Relay.Fairness
import HttpRelay.Proofs.Relay.FeedEffects
import HttpRelay.Proofs.Relay.FeedMoves
import HttpRelay.Proofs.Relay.FeedRuns
import HttpRelay.Proofs.Relay.FeedSteps
import HttpRelay.Proofs.Relay.Interleavings
import HttpRelay.Proofs.Relay.Order
import HttpRelay.Proofs.Relay.Rounds
import HttpRelay.Proofs.Text.Carry
import HttpRelay.Proofs.Text.Characters
import HttpRelay.Proofs.Text.Escapes
import HttpRelay.Proofs.Text.Marks
import HttpRelay.Proofs.Text.Numerals
import HttpRelay.Proofs.Text.Replacement
import HttpRelay.Proofs.Text.Segments
import HttpRelay.Proofs.Text.Settling
import HttpRelay.Proofs.Text.Sextets
import HttpRelay.Proofs.Text.Unfinished
import HttpRelay.Proofs.Url.Hosts
import HttpRelay.Proofs.Url.Logins
import HttpRelay.Proofs.Url.Passwords
import HttpRelay.Proofs.Url.Readings
import HttpRelay.Proofs.Wire.Pieces
import HttpRelay.Proofs.Wire.Resume
import HttpRelay.Proofs.Wire.Writes
