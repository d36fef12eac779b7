import MultiplayerInfra.GameRoom.CommitOrder
import MultiplayerInfra.GameRoom.RecoveryIsolation
import MultiplayerInfra.GameRoom.DroppedTick
import MultiplayerInfra.GameRoom.Malformed
import MultiplayerInfra.GameRoom.Targets
import MultiplayerInfra.GameRoom.ColdStart
import MultiplayerInfra.GameRoom.Broadcast
import MultiplayerInfra.GameRoom.Kills
import MultiplayerInfra.GameRoom.Visits
import MultiplayerInfra.GameRoom.Rooms
import MultiplayerInfra.Leaderboard.Statistics
import MultiplayerInfra.Replay.BackToBack
import MultiplayerInfra.Replay.Restarts
import MultiplayerInfra.Replay.Seek
import MultiplayerInfra.Watcher.Resync
import MultiplayerInfra.Watcher.Collected
import MultiplayerInfra.Watcher.Convergence
import MultiplayerInfra.Gateway.Upstreams
import MultiplayerInfra.Discovery.System
import MultiplayerInfra.Discovery.Routes
import MultiplayerInfra.Discovery.Leaders
import MultiplayerInfra.Discovery.Settling
import MultiplayerInfra.Matchmaking.Assignments
import MultiplayerInfra.Matchmaking.Players
import MultiplayerInfra.Matchmaking.Scaling
import MultiplayerInfra.Matchmaking.QueueDepth
import MultiplayerInfra.Room.Machine
import MultiplayerInfra.Room.ReplayLog
import MultiplayerInfra.Room.Takeover
import MultiplayerInfra.Room.Matches
import MultiplayerInfra.Room.Rating
import MultiplayerInfra.Room.Spectators
import MultiplayerInfra.Room.Results
import MultiplayerInfra.Sockets.Connections
import MultiplayerInfra.Sockets.CleanStart
import MultiplayerInfra.Sockets.HoldSlots
import MultiplayerInfra.Election.Safety
import MultiplayerInfra.Election.Address
import MultiplayerInfra.Election.Matches
import MultiplayerInfra.Lifecycle.Lost
import MultiplayerInfra.Lifecycle.SingleRun
import MultiplayerInfra.Lifecycle.Served
import MultiplayerInfra.Lifecycle.Refinement
import MultiplayerInfra.RoomPool.Exclusive
import MultiplayerInfra.RoomPool.Claimable
import MultiplayerInfra.RoomPool.Claimers
import MultiplayerInfra.Fleet.Fencing
import MultiplayerInfra.Auth.DeadTokens
import MultiplayerInfra.Auth.Credentials
import MultiplayerInfra.Ranking.Page
import MultiplayerInfra.Leaderboard.Rankings
import MultiplayerInfra.Leaderboard.Drift
import MultiplayerInfra.Matchmaking.Waiting
import MultiplayerInfra.Broker.Queue
import MultiplayerInfra.Matchmaking.Requests
import MultiplayerInfra.Matchmaking.Notices
import MultiplayerInfra.Pipeline.Notified
import MultiplayerInfra.Sockets.Inputs
import MultiplayerInfra.Nginx.Location
import MultiplayerInfra.Gateway.Routes
import MultiplayerInfra.Gateway.Services
import MultiplayerInfra.Leaderboard.Consumer
import MultiplayerInfra.Leaderboard.Fairness
import MultiplayerInfra.Leaderboard.Draws
import MultiplayerInfra.Greedy.FirstLeast
import MultiplayerInfra.Analytics.ActiveMatches
import MultiplayerInfra.Analytics.Sessions
import MultiplayerInfra.Notification.Registry
import MultiplayerInfra.Notification.Recipients
import MultiplayerInfra.GameRoom.Participants
import MultiplayerInfra.GameRoom.Producer
import MultiplayerInfra.Reconnect.Service
import MultiplayerInfra.Reconnect.Deltas
import MultiplayerInfra.Reconnect.Reads
