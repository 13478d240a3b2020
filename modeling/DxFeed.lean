import DxFeed.Library.SortedList
import DxFeed.Algorithms
import DxFeed.EventData
import DxFeed.PriceLevelBook.Levels
import DxFeed.PriceLevelBook.Source
import DxFeed.PriceLevelBook.Publication
import DxFeed.PriceLevelBook.Merge
import DxFeed.Library.Run
import DxFeed.PriceLevelBook.Book
import DxFeed.PriceLevelBook.Sorted
import DxFeed.PriceLevelBook.Current
import DxFeed.PriceLevelBook.Committed
import DxFeed.BufferedIO.Common
import DxFeed.BufferedIO.Compact
import DxFeed.ServerMessageProcessor.DescribeRecords
import DxFeed.ServerMessageProcessor.RecordBinding
import DxFeed.EventSubscription.Context
import DxFeed.EventSubscription.Dispatch
import DxFeed.Library.Patch
import DxFeed.PublicationPoints
import DxFeed.Snapshot.Replay
import DxFeed.EventSubscription.Bookkeeping
import DxFeed.EventSubscription.Reentrant
import DxFeed.MarketMakerSnapshot
import DxFeed.Library.LinearProbing
import DxFeed.PriceLevelBook.SourceTable
import DxFeed.Library.PackedCode
import DxFeed.SymbolCodec
import DxFeed.BufferedIO.Utf
import DxFeed.BufferedIO.UtfString
import DxFeed.ServerMessageProcessor.RecordDigests
import DxFeed.AddressParser
import DxFeed.AddressParser.RoundTrip
import DxFeed.BufferedIO.Local
import DxFeed.ClientMessageProcessor.Composing
import DxFeed.RecordBuffers
import DxFeed.ServerMessageProcessor.DataMessage
import DxFeed.ServerMessageProcessor.SessionBoundary
import DxFeed.ServerMessageProcessor.SymbolAttribution
import DxFeed.RecordTranscoder.Transcoders
import DxFeed.ServerMessageProcessor.RecordEvents
import DxFeed.ServerMessageProcessor.RecordIsolation
import DxFeed.BufferedIO.ByteArray
import DxFeed.BufferedIO.UtfBounds
import DxFeed.BufferedIO.Words
import DxFeed.RegionalBook
import DxFeed.ServerMessageProcessor.DigestsGuard
import DxFeed.ServerMessageProcessor.FieldConversion
import DxFeed.ServerMessageProcessor.VoidFields
import DxFeed.SubscriptionTime
import DxFeed.Library.DecimalText
import DxFeed.PriceLevelBook.UndefinedSide
import DxFeed.WideDecimal
import DxFeed.Connection.DescribeProtocol
import DxFeed.Connection.SessionOrder
import DxFeed.PriceLevelBook.BookClear
import DxFeed.PriceLevelBook.Create
import DxFeed.PriceLevelBook.Teardown
import DxFeed.BufferedIO.CompactInt
import DxFeed.BufferedIO.Growth
import DxFeed.BufferedIO.ShortUtf
import DxFeed.DynamicArray
import DxFeed.PriceLevelBook.BestPrices
import DxFeed.PriceLevelBook.Cleanup
import DxFeed.PriceLevelBook.OrderSnapshot
import DxFeed.RegionalBook.Notification
import DxFeed.Snapshot.Allocation
import DxFeed.Snapshot.AllocationFailure
import DxFeed.Snapshot.Key
import DxFeed.Snapshot.Survival
import DxFeed.Base64
import DxFeed.BufferedIO.CapacityTests
import DxFeed.BufferedIO.Line
import DxFeed.ClientMessageProcessor.RecordDescriptions
import DxFeed.ClientMessageProcessor.RecordSessions
import DxFeed.PropertyMap
import DxFeed.PropertyMap.Calls
import DxFeed.RecordTranscoder.OrderIndex
import DxFeed.RecordTranscoder.OrderSource
import DxFeed.ServerMessageProcessor.Heartbeat
import DxFeed.ServerMessageProcessor.ReceiveBuffer
import DxFeed.ServerMessageProcessor.ReceiveLoop
import DxFeed.AddressParser.BlankLists
import DxFeed.AddressParser.Bounds
import DxFeed.Candle.Text
import DxFeed.ConfigurationDeserializer.Bounds
import DxFeed.ServerMessageProcessor.LatestDescription
import DxFeed.ServerMessageProcessor.ReceiveAllocation
import DxFeed.ServerMessageProcessor.TimeMarks
import DxFeed.TaskQueue
import DxFeed.TimeFunctions
import DxFeed.EventSubscription.LastEvent
import DxFeed.EventSubscription.OrderSources
import DxFeed.EventSubscription.WildcardMode
import DxFeed.RecordTranscoder.ShortStrings
import DxFeed.ServerMessageProcessor.RecordIdWrites
import DxFeed.Library.SetLog
import DxFeed.EventSubscription.ServerInterests
import DxFeed.EventSubscription.SubscriptionTasks
import DxFeed.EventSubscription.SubscriptionAgreement
import DxFeed.Network.Addresses
import DxFeed.Network.Attempts
import DxFeed.Network.Reader
import DxFeed.Network.Events
import DxFeed.Network.Runs
import DxFeed.Network.Outages
import DxFeed.BufferedIO.Transport
import DxFeed.ClientMessageProcessor.Sending
import DxFeed.ClientMessageProcessor.SubscriptionMessages
import DxFeed.ClientMessageProcessor.ProtocolDescription
import DxFeed.Library.SplitCall
import DxFeed.ServerMessageProcessor.DescribeRecordsInput
import DxFeed.ClientMessageProcessor.RecordsReadBack
import DxFeed.Connection.Heartbeats
import DxFeed.Connection.RoundTrips
