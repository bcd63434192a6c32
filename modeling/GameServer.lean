import GameServer.Db.BufferRuns
import GameServer.Db.Matching
import GameServer.Db.Mirror
import GameServer.Db.MultiData
import GameServer.Db.MysqlSet
import GameServer.Db.RedisMap
import GameServer.Db.RedisReconnect
import GameServer.Db.Retries
import GameServer.Db.Threads
import GameServer.Json.Grammar
import GameServer.Json.RoundTrip
import GameServer.Lib.Framing
import GameServer.Lib.LittleEndian
import GameServer.Lib.LuaM
import GameServer.Lib.Rounding
import GameServer.Lib.Runs
import GameServer.Logic.AnswerIds
import GameServer.Logic.Chat
import GameServer.Logic.Debts
import GameServer.Logic.DisconnectNotice
import GameServer.Logic.EntryCounts
import GameServer.Logic.Friendship
import GameServer.Logic.GameManager
import GameServer.Logic.Profiles
import GameServer.Logic.RegisteredIds
import GameServer.Logic.RoomGold
import GameServer.Logic.RoomService
import GameServer.Logic.StoreLogic
import GameServer.Login.GlobalIdNotices
import GameServer.Login.OneAccount
import GameServer.Net.CenterRouting
import GameServer.Net.ClientPackets
import GameServer.Net.ClientRouting
import GameServer.Net.Downlink
import GameServer.Net.PacketMemory
import GameServer.Net.PeerStreams
import GameServer.Net.PendingWrites
import GameServer.Net.Progress
import GameServer.Net.Reassembly
import GameServer.Net.TcpClient
import GameServer.Net.Uplink
import GameServer.Room.BetRequests
import GameServer.Room.Deals
import GameServer.Room.BetSums
import GameServer.Room.HandOrder
import GameServer.Room.IdGenerator
import GameServer.Room.Payout
import GameServer.Room.PaysOnce
import GameServer.Script.Class
import GameServer.Script.LuaEngine
import GameServer.Script.Presence
import GameServer.Share.FieldPaths
import GameServer.Timer.AddTimer
import GameServer.Timer.CatchUp
import GameServer.Timer.OnTime
import GameServer.Timer.Periods
import GameServer.Timer.RaisingCallbacks
import GameServer.Timer.Refinement
import GameServer.Timer.RemovedTimers
