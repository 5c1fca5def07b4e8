import BleMidi.Core.Chunking
import BleMidi.Core.Transducer
import BleMidi.Packet.Bytes
import BleMidi.Packet.PacketParser
import BleMidi.Packet.PacketScan
import BleMidi.Packet.ParserRefinement
import BleMidi.Packet.Segments
import BleMidi.Packet.Grammar
import BleMidi.Packet.Bounds
import BleMidi.Packet.PacketWriter
import BleMidi.Packet.WriterSpec
import BleMidi.Packet.Timestamps
import BleMidi.Packet.WriterSimulation
import BleMidi.Packet.WriterPieces
import BleMidi.Packet.RoundTrip
import BleMidi.Packet.MultiPacket
import BleMidi.Core.RingWindow
import BleMidi.Queue.Fifo
import BleMidi.Queue.TxQueue
import BleMidi.Queue.Chunks
import BleMidi.Packet.PacketStream
import BleMidi.Queue.ReadCases
import BleMidi.Queue.Steady
import BleMidi.Queue.ChunkStream
import BleMidi.Queue.System
import BleMidi.Queue.Conservation
import BleMidi.Queue.Delivery
import BleMidi.Queue.Termination
import BleMidi.Queue.Capacity
import BleMidi.Core.Framing
import BleMidi.Queue.Recognition
import BleMidi.Queue.Reading
import BleMidi.Core.Lockstep
import BleMidi.Packet.WriterTwins
import BleMidi.Queue.Twins
import BleMidi.Service.Producers
import BleMidi.Queue.SplitData
import BleMidi.Queue.Sessions
import BleMidi.Queue.HasData
import BleMidi.Queue.Unsized
import BleMidi.Service.Connect
import BleMidi.Service.Notify
import BleMidi.Packet.CallOrder
import BleMidi.Service.FifoWork
import BleMidi.Service.SingleMessage
import BleMidi.Packet.Operations
import BleMidi.Packet.Headers
import BleMidi.Packet.SysexPaths
import BleMidi.Packet.Cuttings
import BleMidi.Packet.Decomposition
import BleMidi.Packet.Bracketing
import BleMidi.Packet.Unchecked
import BleMidi.Service.SingleData
import BleMidi.Service.SingleMtu
import BleMidi.Queue.Clearing
import BleMidi.Queue.Drained
import BleMidi.Queue.Sizes
import BleMidi.Service.MtuUpdates
import BleMidi.Service.ReadyState
import BleMidi.Service.WorkCount
import BleMidi.Core.Simulation
import BleMidi.Queue.InFlight
import BleMidi.Service.Transmitter
import BleMidi.Queue.Progress
import BleMidi.Packet.Language
import BleMidi.Packet.Truncation
import BleMidi.Packet.Standalone
import BleMidi.Service.Received
import BleMidi.Service.Draining
import BleMidi.Queue.Messages
import BleMidi.Queue.Timing
import BleMidi.Packet.Savings
import BleMidi.Queue.Resizing
import BleMidi.Queue.Shadows
import BleMidi.Service.Peripheral
import BleMidi.Service.SingleStream
import BleMidi.Service.SampleTransfer
import BleMidi.Service.SampleReceive
import BleMidi.Core.Segmentation
import BleMidi.Packet.Packing
import BleMidi.Queue.Fewest
