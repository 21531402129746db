import CloudGaming.Market.Races
import CloudGaming.Market.Grace
import CloudGaming.Market.Create
import CloudGaming.Market.Deadlines
import CloudGaming.Host.HeldKeys
import CloudGaming.Host.Isolation
import CloudGaming.Host.GoQueue
import CloudGaming.Market.Cleaning
import CloudGaming.Pairing.Exchange
import CloudGaming.Market.Scripts
import CloudGaming.Market.Edges
import CloudGaming.Host.Runtime
import CloudGaming.Host.Approval
import CloudGaming.Host.Cleanup
import CloudGaming.Control.Orphans
import CloudGaming.Host.VideoDelivery
import CloudGaming.Host.Callbacks
import CloudGaming.Host.Controller
import CloudGaming.Host.Combinations
import CloudGaming.Client.Input
import CloudGaming.Client.Numbered
import CloudGaming.Host.Presence
import CloudGaming.Host.Heartbeats
import CloudGaming.Host.Mirror
import CloudGaming.Signaling.Silence
import CloudGaming.Signaling.Frames
import CloudGaming.Signaling.Burned
import CloudGaming.Signaling.Understood
import CloudGaming.Market.Catalogue
import CloudGaming.Pairing.Capacity
import CloudGaming.Host.Profiles
import CloudGaming.Host.Pacing
import CloudGaming.Host.Overflow
import CloudGaming.Host.Resets
import CloudGaming.Market.Reassigned
import CloudGaming.Host.Sequence
import CloudGaming.Host.AudioClock
import CloudGaming.Async.Lossy
import CloudGaming.Host.InputQueues
import CloudGaming.Host.VideoKeyframes
import CloudGaming.Host.AudioLine
import CloudGaming.Host.Redaction
import CloudGaming.Host.Bytes
import CloudGaming.Host.IceServers
import CloudGaming.Client.Convergence
import CloudGaming.Host.GameInventory
import CloudGaming.Market.Orchestration
import CloudGaming.Signaling.RateLimits
import CloudGaming.Host.NalUnits
import CloudGaming.Host.FramePacing
import CloudGaming.Host.TransportQueue
import CloudGaming.Host.TexturePool
import CloudGaming.Host.Pointer
import CloudGaming.Host.Wheel
import CloudGaming.Host.Bitrate
import CloudGaming.Host.Quality
import CloudGaming.Host.LruCache
import CloudGaming.Host.ConfigStore
import CloudGaming.Host.AudioFraming
import CloudGaming.Host.Resampler
import CloudGaming.Host.AudioBitrate
import CloudGaming.Host.PeerStates
import CloudGaming.Control.Admission
import CloudGaming.Host.AgentServer
import CloudGaming.Host.SampleBufPool
import CloudGaming.Host.SavedFiles
import CloudGaming.Host.Identity
import CloudGaming.Signaling.PairingTokens
import CloudGaming.Host.RemoteCandidates
import CloudGaming.Host.AudioThreads
import CloudGaming.Market.TurnServers
import CloudGaming.Client.Reconnect
import CloudGaming.Host.TrayUpdates
import CloudGaming.Signaling.Breaker
import CloudGaming.Host.Diagnostics
import CloudGaming.Host.GoFeedback
