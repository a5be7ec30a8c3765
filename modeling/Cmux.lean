import Cmux.Foundation.Access
import Cmux.Foundation.Machine
import Cmux.Foundation.Purge
import Cmux.Foundation.Framing
import Cmux.Foundation.Chunking
import Cmux.Foundation.Pipeline
import Cmux.Foundation.ShiftRegister
import Cmux.Foundation.Hexadecimal
import Cmux.Foundation.CircularQueue
import Cmux.Foundation.Interleaving
import Cmux.Foundation.Callbacks
import Cmux.Foundation.Heap
import Cmux.Frame.Crc
import Cmux.Frame.Info
import Cmux.Frame.Builder
import Cmux.Frame.Parser
import Cmux.Frame.RoundTrip
import Cmux.Frame.Recogniser
import Cmux.Frame.Decoders
import Cmux.Frame.ErrorDetection
import Cmux.Frame.EmittedCheck
import Cmux.Frame.Hexdump
import Cmux.Receiver.Lwrb
import Cmux.Receiver.Buffer
import Cmux.Receiver.Refinement
import Cmux.Receiver.CleanLine
import Cmux.Receiver.Liveness
import Cmux.Receiver.Streams
import Cmux.Receiver.Bounds
import Cmux.Receiver.Conservation
import Cmux.Receiver.Resync
import Cmux.Receiver.Reentrancy
import Cmux.Receiver.Ring
import Cmux.Receiver.SharedRing
import Cmux.Service.Bodies
import Cmux.Service.RemotePortNegotiation
import Cmux.Service.Codec
import Cmux.Service.Bounds
import Cmux.Service.Header
import Cmux.Service.RoundTrip
import Cmux.Service.Footprint
import Cmux.Service.PortSettings
import Cmux.Service.PortRoundTrip
import Cmux.Service.ParameterNegotiation
import Cmux.Receiver.FrameDump
import Cmux.Endpoint.Tables
import Cmux.Endpoint.Client
import Cmux.Endpoint.Server
import Cmux.Endpoint.TableBounds
import Cmux.Endpoint.Acknowledgement
import Cmux.Endpoint.Link
import Cmux.Endpoint.Agreement
import Cmux.Endpoint.Wire
import Cmux.Endpoint.Memory
import Cmux.Endpoint.ClientIsolation
import Cmux.Endpoint.ServerIsolation
import Cmux.Endpoint.Isolation
import Cmux.Endpoint.Addressing
import Cmux.Endpoint.Replies
import Cmux.Endpoint.CloseDown
import Cmux.Endpoint.Session
import Cmux.Endpoint.Truncation
import Cmux.Endpoint.Stack
import Cmux.Endpoint.Delivery
import Cmux.Endpoint.Reports
import Cmux.Endpoint.Traffic
import Cmux.Endpoint.Process
import Cmux.Endpoint.Reentrancy
import Cmux.Endpoint.HeapLife
