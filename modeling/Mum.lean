import Mum.Library.Echo
import Mum.Library.Eval
import Mum.Library.Handlers
import Mum.Library.HashMap
import Mum.Library.KeyedStore
import Mum.Library.Desk
import Mum.Library.Log
import Mum.Library.Mpsc
import Mum.Library.ParentChain
import Mum.Library.PathOrder
import Mum.Library.Ring
import Mum.Library.SharedStream
import Mum.Library.Transition
import Mum.Library.Trie
import Mum.Library.Watch
import Mum.Msgs
import Mum.Mumlib.Command
import Mum.Mumlib.Config
import Mum.Mumlib.Error
import Mum.Mumlib.Iter
import Mum.Mumlib.State
import Mum.Audio
import Mum.Audio.Marked
import Mum.Audio.Muted
import Mum.Audio.Output
import Mum.Audio.SoundEffects
import Mum.State
import Mum.State.Answers
import Mum.State.Channel
import Mum.State.ChannelTree
import Mum.State.HandleCommand
import Mum.State.Listing
import Mum.State.Membership
import Mum.State.ProtoTree
import Mum.State.Refused
import Mum.State.Server
import Mum.State.User
import Mum.Network
import Mum.Network.ChannelPackets
import Mum.Network.EventQueue
import Mum.Network.Phase
import Mum.Network.PingFallback
import Mum.Network.Pings
import Mum.Network.Resolve
import Mum.Network.Tcp
import Mum.Network.Udp
import Mum.Network.VoiceOrder
import Mum.Network.VoicePackets
import Mum.Client
import Mum.Client.Changes
import Mum.Client.ConnectAnswers
import Mum.Client.Lifecycle
import Mum.Client.MuteFlags
import Mum.Client.OwnFlags
import Mum.Client.PacketQueue
import Mum.Client.PastMessages
import Mum.Client.PhaseWatch
import Mum.Client.Requests
import Mum.Client.Responses
import Mum.Client.SessionEnd
import Mum.Client.Steps
import Mum.Client.Subscribers
import Mum.Client.Unwraps
import Mum.Client.Attempts
import Mum.Ctl.Status
import Mum.Client.OwnChannel
import Mum.Ctl.EditPanics
import Mum.Ctl.MatchOpt
import Mum.Ctl.OptPanics
import Mum.Ctl.EditEffects
import Mum.Mumd
import Mum.Ctl.ChannelList
import Mum.Exchange
import Mum.Audio.Frames
import Mum.Library.Saturating
import Mum.Library.LossyQueue
import Mum.Audio.Playback
import Mum.Library.Window
import Mum.Audio.Transformers
import Mum.Audio.Input
import Mum.State.Canonical
import Mum.State.UserHistory
import Mum.Audio.SoundFiles
import Mum.Library.InOrder
import Mum.State.Messages
import Mum.State.ReloadConfig
import Mum.Network.PingCounters
import Mum.Network.PendingPings
import Mum.Daemon
import Mum.Daemon.Answers
import Mum.Daemon.Pongs
import Mum.Daemon.Requests
import Mum.Client.Credentials
import Mum.Client.Stuck
import Mum.Client.VoiceKeys
import Mum.Library.Tally
import Mum.Client.MembershipLog
import Mum.Client.Ready
import Mum.Client.Faults
import Mum.Client.GoodServer
import Mum.Daemon.Faults
import Mum.Client.WayOut
import Mum.Client.AnyServer
import Mum.Audio.GatedInput
