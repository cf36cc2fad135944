import LiteMQ.Foundation.TransitionSystem
import LiteMQ.Foundation.Memory
import LiteMQ.Poller.StateChange
import LiteMQ.Server.HashConnection
import LiteMQ.Server.WriteBufs
import LiteMQ.Server.ResponseStream
import LiteMQ.Foundation.Lines
import LiteMQ.Server.InputFraming
import LiteMQ.Foundation.Counting
import LiteMQ.Poller.Cleaner
import LiteMQ.Poller.CleanerCounters
import LiteMQ.Poller.CleanerGrace
import LiteMQ.Poller.Handle
import LiteMQ.Poller.HandleSerialization
import LiteMQ.Poller.HandleTeardown
import LiteMQ.Poller.Lifetime
import LiteMQ.Connection.SendDescriptorHandler
import LiteMQ.Connection.SharedQueue
import LiteMQ.Connection.WireFormat
import LiteMQ.Connection.MessageOwnership
import LiteMQ.Connection.Connection
import LiteMQ.Connection.Endpoint
import LiteMQ.Connection.Wakeup
import LiteMQ.Foundation.ShortestPrefix
import LiteMQ.Message.PopPrefix
import LiteMQ.Message.QueueCalls
import LiteMQ.Message.QueueAccounting
import LiteMQ.Message.QueueCapacity
import LiteMQ.Message.ConcurrentAdd
import LiteMQ.Message.PushOrder
import LiteMQ.Connection.SocketSlots
import LiteMQ.Connection.TimeoutCallback
import LiteMQ.Poller.ClosedSides
import LiteMQ.Poller.TeardownOnce
import LiteMQ.Poller.Process
import LiteMQ.Server.PeerClose
import LiteMQ.Server.PendingOutput
import LiteMQ.Poller.RearmAnswered
import LiteMQ.Gears.ThreadRunner
import LiteMQ.Gears.ThreadRunnerStart
import LiteMQ.Gears.ActiveObject
import LiteMQ.Gears.Composite
import LiteMQ.Gears.CompositeLoops
import LiteMQ.Gears.CompositeActivation
import LiteMQ.Gears.CompositeState
import LiteMQ.Gears.CompositeThreads
import LiteMQ.Gears.CompositeStopped
import LiteMQ.Gears.ActiveObjectCommonImpl
import LiteMQ.Gears.WorkersGone
import LiteMQ.Poller.Proxy
import LiteMQ.Poller.ProxySafety
import LiteMQ.Foundation.FixedDigits
import LiteMQ.Gears.Time
import LiteMQ.Gears.TimeFormat
import LiteMQ.Gears.TimeNames
import LiteMQ.Gears.TimeItems
import LiteMQ.Gears.TimeReading
import LiteMQ.Gears.TimeRoundTrip
import LiteMQ.Gears.TimeShortForms
import LiteMQ.Foundation.Calendar
import LiteMQ.Gears.Calendar
import LiteMQ.Foundation.IntegerType
import LiteMQ.Gears.TimeArithmetic
import LiteMQ.Foundation.DecimalBytes
import LiteMQ.Gears.StrToInt
import LiteMQ.Gears.IntToStr
import LiteMQ.Foundation.Cursor
import LiteMQ.Gears.TimeParser
import LiteMQ.Gears.TimePrinter
import LiteMQ.Gears.Hex
import LiteMQ.Message.PushFront
import LiteMQ.Connection.FillSendMessages
import LiteMQ.Connection.SendResult
import LiteMQ.Connection.WritePasses
import LiteMQ.Server.WriteBufCalls
import LiteMQ.Foundation.Epochs
import LiteMQ.Poller.BoundedReclamation
import LiteMQ.Poller.Registration
import LiteMQ.Foundation.ShiftRegister
import LiteMQ.Gears.Crc32
import LiteMQ.Gears.BoundedCopy
import LiteMQ.Gears.Concat
import LiteMQ.Foundation.Runs
import LiteMQ.Gears.Flatten
import LiteMQ.Foundation.Lexicographic
import LiteMQ.Gears.SubString
import LiteMQ.Foundation.Occurrences
import LiteMQ.Gears.SubStringSearch
import LiteMQ.Gears.Caseless
import LiteMQ.Foundation.ReferenceTrace
import LiteMQ.Foundation.StreamPosition
import LiteMQ.Gears.InputMemoryStream
import LiteMQ.Gears.OutputMemoryStream
import LiteMQ.Gears.OutputBufferStream
import LiteMQ.Foundation.Mutex
import LiteMQ.Gears.ThreadBuffer
import LiteMQ.Gears.ThreadBufferOwners
import LiteMQ.Foundation.Linearizability
import LiteMQ.Gears.Semaphore
import LiteMQ.Poller.StopPipe
import LiteMQ.Gears.SimpleFormatter
import LiteMQ.Foundation.Token
import LiteMQ.Poller.Acceptor
import LiteMQ.Poller.AcceptedConnections
import LiteMQ.Poller.PollerPool
import LiteMQ.Gears.CharCategory
import LiteMQ.Server.Service
import LiteMQ.Gears.StreamLogger
import LiteMQ.Foundation.Index
import LiteMQ.Poller.HandlerReuse
import LiteMQ.Foundation.Truncation
import LiteMQ.Gears.ErrorText
import LiteMQ.Gears.CompositeErrors
import LiteMQ.Gears.SubStringViews
