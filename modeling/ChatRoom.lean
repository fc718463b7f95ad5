import ChatRoom.Support.StepSystem
import ChatRoom.Support.Commuting
import ChatRoom.Support.CString
import ChatRoom.Support.Terminal
import ChatRoom.Support.Substring
import ChatRoom.Support.Splitting
import ChatRoom.Support.Wildcard
import ChatRoom.Support.Framing
import ChatRoom.Support.SqlText
import ChatRoom.Support.SqlLiterals
import ChatRoom.Support.PairRelation
import ChatRoom.Support.FileStream
import ChatRoom.Support.LinkedQueue
import ChatRoom.Support.LinkedList
import ChatRoom.Support.Mutex
import ChatRoom.Support.Program
import ChatRoom.Support.Duplex
import ChatRoom.Support.PostBox
import ChatRoom.Support.Transactions
import ChatRoom.Core.Message
import ChatRoom.Core.UserList
import ChatRoom.Core.UserMemory
import ChatRoom.Core.CircleList
import ChatRoom.Core.Numbers
import ChatRoom.Core.Mysql
import ChatRoom.Core.MysqlClient
import ChatRoom.Core.Accounts
import ChatRoom.Server.Database
import ChatRoom.Server.Lookups
import ChatRoom.Server.Handlers
import ChatRoom.Server.Effects
import ChatRoom.Server.Outcome
import ChatRoom.Server.Rejections
import ChatRoom.Server.Friends
import ChatRoom.Server.GroupSend
import ChatRoom.Server.Sessions
import ChatRoom.Server.Delivery
import ChatRoom.Server.Registry
import ChatRoom.Server.Faults
import ChatRoom.Server.BufferLoop
import ChatRoom.Server.ThreadPool
import ChatRoom.Server.PoolProgress
import ChatRoom.Server.PoolLocks
import ChatRoom.Server.HandOver
import ChatRoom.Client.File
import ChatRoom.Client.FileReceiver
import ChatRoom.Client.Transfers
import ChatRoom.Client.LastChunk
import ChatRoom.Client.Send
import ChatRoom.Client.FileSender
import ChatRoom.Client.Receive
import ChatRoom.Client.Mailbox
import ChatRoom.Client.AddFriend
import ChatRoom.Client.Ban
import ChatRoom.Client.Login
import ChatRoom.Client.Registration
import ChatRoom.Client.Lists
import ChatRoom.Server.Segments
import ChatRoom.System.FileTransfer
import ChatRoom.System.FileDialogue
import ChatRoom.System.OfflineMessages
import ChatRoom.System.PrivateMessages
import ChatRoom.System.Friendship
import ChatRoom.System.FriendRequests
import ChatRoom.System.Ban
import ChatRoom.System.NameQueries
import ChatRoom.System.Accounts
import ChatRoom.Bank.Tables
import ChatRoom.Bank.Requests
import ChatRoom.Bank.Progress
import ChatRoom.Bank.Server
import ChatRoom.Bank.Durable
import ChatRoom.Bank.Overdraft
import ChatRoom.Bank.Transfers
import ChatRoom.Bank.Sequential
import ChatRoom.Bank.Statement
import ChatRoom.Bank.Xml
import ChatRoom.Bank.Tcp
import ChatRoom.Bank.Connection
import ChatRoom.Bank.Messages
import ChatRoom.Bank.CmdStr
import ChatRoom.Bank.FileNames
import ChatRoom.Bank.Replies
import ChatRoom.Bank.Ledger
