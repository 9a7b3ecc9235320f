import Dhtperf.Library.Runs
import Dhtperf.Library.PriorityQueue
import Dhtperf.Library.ByteOrder
import Dhtperf.Library.Streams
import Dhtperf.Library.Interleavings
import Dhtperf.Library.Splitting
import Dhtperf.Library.Shell
import Dhtperf.Basic
import Dhtperf.Events
import Dhtperf.Events.Histories
import Dhtperf.Utils
import Dhtperf.Utils.Times
import Dhtperf.Profile
import Dhtperf.Profile.Classes
import Dhtperf.Profile.Keys
import Dhtperf.Profile.Words
import Dhtperf.Profile.ExactText
import Dhtperf.Profile.Generators
import Dhtperf.Profile.Batches
import Dhtperf.Library.OrderedMap
import Dhtperf.Library.FloatingPoint
import Dhtperf.Metrics.Statistics
import Dhtperf.Metrics.NodeLatency
import Dhtperf.Metrics.NodeSuccessRate
import Dhtperf.DhtNode
import Dhtperf.DhtNode.Ports
import Dhtperf.DhtNode.Counters
import Dhtperf.DhtNode.RWPopen
import Dhtperf.DhtNode.Consoles
import Dhtperf.DhtNode.KaddemoIds
import Dhtperf.DhtNode.PastConsole
import Dhtperf.DhtNode.PastSession
import Dhtperf.DhtNode.PastEnding
import Dhtperf.DhtperfController
import Dhtperf.DhtperfController.Polling
import Dhtperf.DhtperfController.Refills
import Dhtperf.DhtperfController.Moves
import Dhtperf.DhtperfController.Acting
import Dhtperf.DhtperfController.Waits
import Dhtperf.DhtperfController.Termination
import Dhtperf.DhtperfController.Rounding
import Dhtperf.DhtperfController.Modes
import Dhtperf.DhtperfController.Order
import Dhtperf.DhtperfController.Conservation
import Dhtperf.Protocol
import Dhtperf.Protocol.Decoding
import Dhtperf.DhtperfController.Reporting
import Dhtperf.ControllerConnection
import Dhtperf.ControllerConnection.Framing
import Dhtperf.ControllerConnection.Writing
import Dhtperf.MasterWorkload
import Dhtperf.MasterWorkload.Lines
import Dhtperf.MasterWorkload.Forms
import Dhtperf.MasterWorkload.Rejections
import Dhtperf.MasterWorkload.Stream
import Dhtperf.MasterWorkload.Nodes
import Dhtperf.DhtperfController.Receiving
import Dhtperf.DhtperfController.Reading
import Dhtperf.Metrics.General
import Dhtperf.Metrics.Summary
import Dhtperf.Metrics.Series
import Dhtperf.ResultProcessor
import Dhtperf.DhtperfMaster
import Dhtperf.DhtperfMaster.Moves
import Dhtperf.DhtperfMaster.Ports
import Dhtperf.DhtNode.Directories
import Dhtperf.DhtperfMaster.Counts
import Dhtperf.DhtperfMaster.Deadlines
import Dhtperf.DhtperfMaster.Texts
import Dhtperf.DhtperfMaster.Writes
import Dhtperf.DhtperfMaster.Reports
import Dhtperf.DhtperfMaster.Failures
import Dhtperf.DhtperfMaster.Opening
import Dhtperf.DhtperfMaster.Contributions
import Dhtperf.DhtperfMaster.Aggregates
import Dhtperf.DhtperfController.Accounts
import Dhtperf.System
import Dhtperf.Experiment
import Dhtperf.Experiment.Results
import Dhtperf.Library.Parts
import Dhtperf.Experiment.Ending
import Dhtperf.DhtperfMaster.Calm
import Dhtperf.Experiment.Completing
import Dhtperf.ResultProcessor.Processing
import Dhtperf.ResultProcessor.Columns
import Dhtperf.ResultProcessor.Divisors
import Dhtperf.Service.Dhtperfd
import Dhtperf.Service.Exchange
import Dhtperf.Service.Settling
