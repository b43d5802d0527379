import ImportProxy.Base.Packet
import ImportProxy.Detector.Header
import ImportProxy.Lib.Latest
import ImportProxy.Lib.Ring
import ImportProxy.Detector.Options
import ImportProxy.Detector.Allow
import ImportProxy.Lib.Machine
import ImportProxy.Detector.Invariant
import ImportProxy.Detector.Slip
import ImportProxy.Detector.Resend
import ImportProxy.Detector.Verdict
import ImportProxy.Detector.Memory
import ImportProxy.Detector.OutOfOrder
import ImportProxy.Detector.Contiguous
import ImportProxy.Base.Grpc
import ImportProxy.Frontend.Publishers
import ImportProxy.Frontend.Accounting
import ImportProxy.Lib.Fifo
import ImportProxy.Proxy.ImportQueue
import ImportProxy.Backend.Subscriptions
import ImportProxy.Backend.Writer
import ImportProxy.Proxy.Admission
import ImportProxy.Backend.Delivery
import ImportProxy.Frontend.Reader
import ImportProxy.Proxy.System
import ImportProxy.Proxy.Order
import ImportProxy.Backend.Ledger
import ImportProxy.Backend.Pump
import ImportProxy.Backend.Lifecycle
import ImportProxy.Detector.Isolation
import ImportProxy.Proxy.ProgramOptions
import ImportProxy.Backend.Token
import ImportProxy.Frontend.Token
import ImportProxy.Proxy.AccessToken
import ImportProxy.Frontend.Session
import ImportProxy.Lib.Streak
import ImportProxy.Frontend.CutOff
import ImportProxy.Proxy.HeaderRange
import ImportProxy.Detector.Capacity
import ImportProxy.Lib.Spelling
import ImportProxy.Frontend.Canonical
import ImportProxy.Detector.Representation
import ImportProxy.Lib.Embedding
import ImportProxy.Proxy.Service
import ImportProxy.Proxy.Control
import ImportProxy.Proxy.Shutdown
import ImportProxy.Proxy.Fates
import ImportProxy.Proxy.Stopped
import ImportProxy.Lib.Filter
import ImportProxy.Proxy.Filtering
import ImportProxy.Proxy.Metering
import ImportProxy.Lib.Rounds
import ImportProxy.Proxy.Termination
import ImportProxy.Proxy.Configuration
import ImportProxy.Proxy.RoundTrip
import ImportProxy.Backend.WindDown
import ImportProxy.Proxy.Main
import ImportProxy.Proxy.Departure
import ImportProxy.Proxy.Exit
import ImportProxy.Backend.Progress
import ImportProxy.Proxy.Propagation
import ImportProxy.Proxy.Subscribed
import ImportProxy.Proxy.Progress
import ImportProxy.Proxy.Bounded
import ImportProxy.Proxy.Independence
