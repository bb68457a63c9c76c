import Microfips.Data.BigEndian
import Microfips.Data.Buffer
import Microfips.Data.Bursts
import Microfips.Data.Bytes
import Microfips.Data.Chunks
import Microfips.Data.CounterLog
import Microfips.Data.DnsName
import Microfips.Data.Fallible
import Microfips.Data.Hex
import Microfips.Data.Hoare
import Microfips.Data.Isolation
import Microfips.Data.LeakyAverage
import Microfips.Data.Lockstep
import Microfips.Data.OnesComplement
import Microfips.Data.Register
import Microfips.Data.Regroup
import Microfips.Data.Runs
import Microfips.Data.Simulation
import Microfips.Data.Slice
import Microfips.Data.SlidingWindow
import Microfips.Data.StreamDecoder
import Microfips.Data.Text
import Microfips.Data.Trace
import Microfips.Data.Rollover
import Microfips.Identity.Bech32
import Microfips.Identity.Polymod
import Microfips.Identity.Npub
import Microfips.Identity.Allowlist
import Microfips.Noise.Suite
import Microfips.Noise.Additive
import Microfips.Noise.Symmetric
import Microfips.Noise.IK
import Microfips.Noise.XK
import Microfips.Noise.XX
import Microfips.Noise.Agreement
import Microfips.Noise.Messages
import Microfips.Noise.Safety
import Microfips.Noise.Transcript
import Microfips.Noise.Replay
import Microfips.Noise.NarrowReplay
import Microfips.Wire.Negotiation
import Microfips.Wire.Tlv
import Microfips.Wire.Frame
import Microfips.Wire.Stream
import Microfips.Wire.Roundtrip
import Microfips.Mmp.Report
import Microfips.Mmp.Estimators
import Microfips.Mmp.PeerState
import Microfips.Mmp.Instants
import Microfips.Mmp.Shift
import Microfips.Mmp.Tally
import Microfips.Mmp.Bounds
import Microfips.Mmp.Transit
import Microfips.Mmp.Gaps
import Microfips.Mmp.SentCount
import Microfips.Node.Interface
import Microfips.Node.Policy
import Microfips.Node.FrameRate
import Microfips.Node.Slot
import Microfips.Node.State
import Microfips.Node.Rekey
import Microfips.Node.Steady
import Microfips.Node.Footprint
import Microfips.Node.Opening
import Microfips.Node.Outcome
import Microfips.Node.Machine
import Microfips.Node.Epochs
import Microfips.Node.Ledger
import Microfips.Node.Cutover
import Microfips.Node.Repeats
import Microfips.Node.Liveness
import Microfips.Node.Reassembly
import Microfips.Node.Replies
import Microfips.Node.Forgery
import Microfips.Node.Session
import Microfips.Node.Handover
import Microfips.Node.FrameReaders
import Microfips.Node.Deadlines
import Microfips.Node.Slicing
import Microfips.Node.Safety
import Microfips.Node.Panic
import Microfips.Node.Negotiated
import Microfips.Node.Acceptance
import Microfips.Node.Resends
import Microfips.Node.Reports
import Microfips.Node.EpochTally
import Microfips.Node.Gating
import Microfips.Node.Silence
import Microfips.Node.Drain
import Microfips.Node.Reconnect
import Microfips.Node.TrialOrder
import Microfips.Node.Sealing
import Microfips.Node.Exchange
import Microfips.Node.Crossing
import Microfips.Node.Accounts
import Microfips.Node.Datagrams
import Microfips.Node.Handled
import Microfips.Node.Handshake
import Microfips.Node.Receive
import Microfips.Node.Unseen
import Microfips.Node.RekeyAgreement
import Microfips.Node.Channel
import Microfips.Session.Codec
import Microfips.Session.Responder
import Microfips.Session.Initiator
import Microfips.Session.Ipv6Shim
import Microfips.Session.EchoChecksum
import Microfips.Session.Safety
import Microfips.Session.Handler
import Microfips.Session.Machine
import Microfips.Session.Datagram
import Microfips.Session.Roundtrip
import Microfips.Session.Agreement
import Microfips.Session.AckBlock
import Microfips.Session.RejectedAcks
import Microfips.Session.Opening
import Microfips.Session.Loss
import Microfips.Session.Replay
import Microfips.Session.Rejection
import Microfips.Ble.Transport
import Microfips.Ble.Host
import Microfips.EspNow.Fragment
import Microfips.EspNow.Transport
import Microfips.EspNow.Hybrid
import Microfips.EspNow.Discovery
import Microfips.EspNow.Gateway
import Microfips.EspNow.PeerSlot
import Microfips.EspNow.Path
import Microfips.L2cap.RateLimit
import Microfips.L2cap.Conformance
import Microfips.L2cap.Relay
import Microfips.L2cap.Host
import Microfips.Ap.Dhcp
import Microfips.Ap.Leases
import Microfips.Ap.Relay
import Microfips.Mdns.Query
import Microfips.Mdns.Writer
import Microfips.Mdns.Advert
import Microfips.Service.Dispatch
import Microfips.Capture.Btsnoop
