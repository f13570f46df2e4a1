import ArtyEthernet.Library.Words
import ArtyEthernet.Library.Nibbles
import ArtyEthernet.Library.Buffers
import ArtyEthernet.Library.Trace
import ArtyEthernet.Library.MaximalRuns
import ArtyEthernet.Library.CyclicFifo
import ArtyEthernet.Library.DelayLine
import ArtyEthernet.Library.ShiftRegister
import ArtyEthernet.Library.BitPolynomial
import ArtyEthernet.Library.FinishTimes
import ArtyEthernet.Library.Numerals
import ArtyEthernet.Library.TextFields
import ArtyEthernet.Library.OnesComplement
import ArtyEthernet.Library.MarkedLists
import ArtyEthernet.Library.ToggleSync
import ArtyEthernet.Library.OneShot
import ArtyEthernet.Model.Constants
import ArtyEthernet.Model.ProtocolHelpers
import ArtyEthernet.Model.PacketViews
import ArtyEthernet.Model.Arp
import ArtyEthernet.Model.TxPayloads
import ArtyEthernet.Model.PacketQueue
import ArtyEthernet.Model.Mii
import ArtyEthernet.Model.Rx
import ArtyEthernet.Model.RxQueue
import ArtyEthernet.Model.Framer
import ArtyEthernet.Model.TxQueue
import ArtyEthernet.Model.PeriodicTimers
import ArtyEthernet.Model.ProtocolHandler
import ArtyEthernet.Model.Endpoint
import ArtyEthernet.Model.Status
import ArtyEthernet.Model.HlsTop
import ArtyEthernet.Model.RxMonitor
import ArtyEthernet.Model.HostDecoder
import ArtyEthernet.Model.HostSender
import ArtyEthernet.Model.HostTests
import ArtyEthernet.Model.TestFrame
import ArtyEthernet.Model.Testbench
import ArtyEthernet.Proofs.Rings
import ArtyEthernet.Proofs.FrameData
import ArtyEthernet.Proofs.RxParser
import ArtyEthernet.Proofs.FrameReceiver
import ArtyEthernet.Proofs.RxCapture
import ArtyEthernet.Proofs.RxStage
import ArtyEthernet.Proofs.Framing
import ArtyEthernet.Proofs.HandlerMoves
import ArtyEthernet.Proofs.Requests
import ArtyEthernet.Proofs.TxRing
import ArtyEthernet.Proofs.Wire
import ArtyEthernet.Proofs.TxRuns
import ArtyEthernet.Proofs.TxCounts
import ArtyEthernet.Proofs.ArpParse
import ArtyEthernet.Proofs.HandlerRuns
import ArtyEthernet.Proofs.RxRuns
import ArtyEthernet.Proofs.Backlog
import ArtyEthernet.Proofs.TxWork
import ArtyEthernet.Proofs.Ticks
import ArtyEthernet.Proofs.Serving
import ArtyEthernet.Proofs.WirePacket
import ArtyEthernet.Proofs.ReceiverRuns
import ArtyEthernet.Proofs.ViewReads
import ArtyEthernet.Proofs.ParseRuns
import ArtyEthernet.Proofs.ReplyLine
import ArtyEthernet.Proofs.ReplyCycles
import ArtyEthernet.Proofs.HostFrames
import ArtyEthernet.Proofs.HostSender
import ArtyEthernet.Proofs.BeaconLine
import ArtyEthernet.Proofs.Delivery
import ArtyEthernet.Proofs.IdleLine
import ArtyEthernet.Proofs.TestbenchFrames
import ArtyEthernet.Proofs.Collecting
import ArtyEthernet.Proofs.BetweenFrames
import ArtyEthernet.Proofs.TestbenchRuns
import ArtyEthernet.Results.RxRing
import ArtyEthernet.Results.SlotOwnership
import ArtyEthernet.Results.ArpResponder
import ArtyEthernet.Results.WireFrames
import ArtyEthernet.Results.LoopBack
import ArtyEthernet.Results.Accounting
import ArtyEthernet.Results.ArpReplyCounter
import ArtyEthernet.Results.BeaconSchedule
import ArtyEthernet.Results.QuiescentReply
import ArtyEthernet.Results.CrossConnect
import ArtyEthernet.Results.SlotFifo
import ArtyEthernet.Results.DatagramViews
import ArtyEthernet.Results.SerialParse
import ArtyEthernet.Results.CapturedFrame
import ArtyEthernet.Results.OverlongFrame
import ArtyEthernet.Results.Sidebands
import ArtyEthernet.Results.SentFrame
import ArtyEthernet.Results.FrameCheck
import ArtyEthernet.Results.Announcements
import ArtyEthernet.Results.RequestSpacing
import ArtyEthernet.Results.LineRate
import ArtyEthernet.Results.BeaconDecoding
import ArtyEthernet.Results.ReplyRecognition
import ArtyEthernet.Results.Delivery
import ArtyEthernet.Results.FrameToggle
import ArtyEthernet.Results.BoardLeds
import ArtyEthernet.Results.RxMonitor
import ArtyEthernet.Results.HostAddresses
import ArtyEthernet.Results.HostTraffic
import ArtyEthernet.Results.HardwareTests
import ArtyEthernet.Results.Recovery
import ArtyEthernet.Results.Conversation
import ArtyEthernet.Results.TestFrames
import ArtyEthernet.Results.UdpRequest
import ArtyEthernet.Results.TestbenchSession
import ArtyEthernet.Results.TestbenchVerdicts
