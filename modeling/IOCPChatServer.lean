import IOCPChatServer.IOCompletionPort
import IOCPChatServer.Logic.Authentication
import IOCPChatServer.Logic.Dictionary
import IOCPChatServer.Logic.Membership
import IOCPChatServer.Library.Tickets
import IOCPChatServer.Network.Accepting
import IOCPChatServer.Network.Conservation
import IOCPChatServer.ChatServer
import IOCPChatServer.Database.MySQLManager
import IOCPChatServer.Database.RedisManager
import IOCPChatServer.Library.ConditionVariable
import IOCPChatServer.Library.Holdings
import IOCPChatServer.Library.Roster
import IOCPChatServer.Logic.Intake
import IOCPChatServer.Logic.PacketFrame
import IOCPChatServer.Logic.Regular
import IOCPChatServer.Logic.RoomEvents
import IOCPChatServer.Logic.ChatDelivery
import IOCPChatServer.Logic.Residue
import IOCPChatServer.Logic.StaleBytes
import IOCPChatServer.Logic.TempBuffer
import IOCPChatServer.Logic.UserCount
import IOCPChatServer.Network.Announcements
import IOCPChatServer.Network.SendBuffers
import IOCPChatServer.Network.Shutdown
import IOCPChatServer.Network.StaleCompletions
import IOCPChatServer.Threads.Delivery
import IOCPChatServer.Threads.DoubleBuffering
import IOCPChatServer.Threads.DrainLoop
import IOCPChatServer.Threads.Impersonation
import IOCPChatServer.Threads.Isolation
import IOCPChatServer.Threads.Leakage
import IOCPChatServer.Threads.LoginResults
import IOCPChatServer.Threads.Wakeup
import IOCPChatServer.Threads.Provenance
import IOCPChatServer.Threads.Reuse
import IOCPChatServer.Database.MySQLStatements
import IOCPChatServer.Library.BoundedFifo
import IOCPChatServer.Library.ByteMemory
import IOCPChatServer.Library.LinkedList
import IOCPChatServer.Library.Outbox
import IOCPChatServer.Logic.LoginAnswers
import IOCPChatServer.Logic.UserIDs
import IOCPChatServer.Memory.ObjectMemoryPool
import IOCPChatServer.Memory.RingBufferFifo
import IOCPChatServer.Network.SendOrder
import IOCPChatServer.Network.TimeoutCheck
import IOCPChatServer.Threads.ChatCopies
import IOCPChatServer.Threads.UserIDs
import IOCPChatServer.Library.Decimal
import IOCPChatServer.Library.PrefixTree
import IOCPChatServer.Library.Resumable
import IOCPChatServer.Hiredis.Numbers
import IOCPChatServer.Hiredis.Reader
import IOCPChatServer.Hiredis.ReplyMachine
import IOCPChatServer.Hiredis.ReaderRefinement
import IOCPChatServer.Hiredis.ReaderRuns
import IOCPChatServer.Hiredis.ReaderSafety
import IOCPChatServer.Hiredis.Grammar
import IOCPChatServer.Hiredis.Command
import IOCPChatServer.Hiredis.Context
import IOCPChatServer.Database.CRedisConn
import IOCPChatServer.Library.Simulation
import IOCPChatServer.Library.Framing
import IOCPChatServer.Logic.ChatService
import IOCPChatServer.Logic.ServiceRefinement
import IOCPChatServer.Logic.Transcript
import IOCPChatServer.Logic.SentPackets
import IOCPChatServer.Network.PacketLayout
import IOCPChatServer.Network.ClientStream
import IOCPChatServer.Database.EventRows
import IOCPChatServer.Logic.LoggedTasks
import IOCPChatServer.Database.EventLog
import IOCPChatServer.Database.LoggingWorker
