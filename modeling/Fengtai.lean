import Fengtai.Library.BitPolynomial
import Fengtai.Library.Bursts
import Fengtai.Library.Channel
import Fengtai.Library.Custody
import Fengtai.Library.Fairness
import Fengtai.Library.Fifo
import Fengtai.Library.Pieces
import Fengtai.Library.Rings
import Fengtai.Library.Runs
import Fengtai.Library.Segments
import Fengtai.Library.ShiftRegister
import Fengtai.Library.Slots
import Fengtai.Library.TextLines
import Fengtai.Library.Words
import Fengtai.Crc
import Fengtai.CrcDivision
import Fengtai.GseHeader
import Fengtai.ListTemplate
import Fengtai.ListShape
import Fengtai.ListOps
import Fengtai.ListRuns
import Fengtai.Receive.Pool
import Fengtai.Receive.Reassembly
import Fengtai.Receive.Cases
import Fengtai.Receive.Select
import Fengtai.Receive.Table
import Fengtai.Receive.Packet
import Fengtai.Receive.FrameHeader
import Fengtai.Router
import Fengtai.Receive.Decapsulate
import Fengtai.RouterFunc
import Fengtai.Receive.AddressFilter
import Fengtai.Receive.SplitPdu
import Fengtai.Receive.Delivery
import Fengtai.Receive.Repeats
import Fengtai.Receive.NoMixing
import Fengtai.Receive.Bounds
import Fengtai.Receive.Containment
import Fengtai.Receive.Custody
import Fengtai.Receive.Steps
import Fengtai.Receive.Timeout
import Fengtai.Receive.Burst
import Fengtai.Receive.ExtChain
import Fengtai.Receive.ConcatSafety
import Fengtai.Receive.Counters
import Fengtai.Receive.Coverage
import Fengtai.Receive.EncapRing
import Fengtai.Receive.FailedCalls
import Fengtai.Receive.FrameBounds
import Fengtai.Receive.HeaderDamage
import Fengtai.Receive.IndexNodes
import Fengtai.Receive.TwoPdus
import Fengtai.Receive.Interleaving
import Fengtai.Receive.Lost
import Fengtai.Receive.MultiPdu
import Fengtai.Receive.TagRoute
import Fengtai.Config.RouterTable
import Fengtai.Config.Routes
import Fengtai.Config.MappingTable
import Fengtai.Send.Queue
import Fengtai.Send.Fragment
import Fengtai.Send.Gse
import Fengtai.Send.Frame
import Fengtai.Send.Encapsulate
import Fengtai.Send.Partition
import Fengtai.Send.Steps
import Fengtai.Send.Accounting
import Fengtai.Send.Calls
import Fengtai.Send.Lengths
import Fengtai.Send.Loop
import Fengtai.Send.Identity
import Fengtai.Send.Labels
import Fengtai.Send.FrameCodec
import Fengtai.Send.Labelled
import Fengtai.Send.Packets
import Fengtai.Send.Traffic
import Fengtai.Send.Journal
import Fengtai.Send.HeaderCodec
import Fengtai.Send.PacketCodec
import Fengtai.Send.Reception
import Fengtai.Gateway.Threads
import Fengtai.Send.Custody
import Fengtai.Send.RoundTrip
import Fengtai.Gateway.Receiving
import Fengtai.Gateway.Sending
import Fengtai.Gateway.Turns
import Fengtai.Gateway.Network
import Fengtai.Gateway.Buffers
import Fengtai.Gateway.Rounds
import Fengtai.Gateway.Delivery
import Fengtai.Send.Concat
import Fengtai.Send.DelayMetric
import Fengtai.Send.FrameAccount
import Fengtai.Send.FrameShape
import Fengtai.Send.Integrity
import Fengtai.Send.Limits
import Fengtai.Send.Losses
import Fengtai.Send.MultiPdu
import Fengtai.Send.PduAccount
import Fengtai.Send.QueueRuns
import Fengtai.Send.TagRoute
