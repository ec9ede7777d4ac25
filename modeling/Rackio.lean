import Rackio.Lib.Run
import Rackio.Core.Model
import Rackio.Lib.BigEndian
import Rackio.Lib.Table
import Rackio.Protocol.Framing
import Rackio.Remote.Error
import Rackio.Remote.MetricsStream
import Rackio.Iroh.Pairing
import Rackio.Iroh.Server
import Rackio.Iroh.Provenance
import Rackio.Iroh.Revocation
import Rackio.Remote.Monitor
import Rackio.Remote.Fleet
import Rackio.Remote.Agreement
import Rackio.Remote.Stored
import Rackio.Core.Bucket
import Rackio.Core.History
import Rackio.Core.MinuteHistory
import Rackio.Lib.Progression
import Rackio.Runtime.Sampling
import Rackio.Iroh.History
import Rackio.Remote.QueryHistory
import Rackio.Core.Alert
import Rackio.Runtime.Config
import Rackio.Runtime.LocalIpc
import Rackio.Runtime.ConfigRace
import Rackio.Runtime.Publication
import Rackio.Lib.Streak
import Rackio.Core.Evaluator
import Rackio.Runtime.SampleLoop
import Rackio.Runtime.Retune
import Rackio.Runtime.Retention
import Rackio.Iroh.Paging
import Rackio.Protocol.Wire
import Rackio.Remote.HistoryAgreement
import Rackio.Remote.Freshness
import Rackio.Remote.ClockStep
import Rackio.Remote.Silence
import Rackio.Core.Uuid
import Rackio.Protocol.Conversion
import Rackio.Protocol.FrameStream
import Rackio.Iroh.Bystander
import Rackio.Lib.Json
import Rackio.Lib.Mirror
import Rackio.Iroh.PeerFile
import Rackio.Remote.RegistryFile
import Rackio.Remote.RecordJson
import Rackio.Remote.Hostile
import Rackio.Lib.Shared
import Rackio.Iroh.Identity
import Rackio.Runtime.NodeId
import Rackio.Iroh.Advertisement
import Rackio.Remote.NodeIdentity
import Rackio.Lib.Firsts
import Rackio.Lib.Recent
import Rackio.Lib.KeyedMerge
import Rackio.Lib.Text
import Rackio.Core.SizeCap
import Rackio.Core.AlertResolution
import Rackio.Iroh.Lockout
import Rackio.Runtime.ConfigCommands
import Rackio.Remote.DirectAddresses
import Rackio.Desktop.KnownHosts
import Rackio.Desktop.ChangedHostKeys
import Rackio.Desktop.AuthorisedHosts
import Rackio.Lib.Greatest
import Rackio.Lib.Nearest
import Rackio.Lib.Binary64
import Rackio.Lib.Binary64Arithmetic
import Rackio.Core.Doubles
import Rackio.Core.MinuteQuery
import Rackio.Core.MinutePairs
import Rackio.Core.MinuteSums
import Rackio.Desktop.Presentation
import Rackio.Desktop.FullestDisk
import Rackio.Core.WorstDisk
import Rackio.Desktop.TrayLabels
import Rackio.Lib.Shell
import Rackio.Desktop.RemoteTempDir
import Rackio.Desktop.Preferences
import Rackio.Lib.Edges
import Rackio.Lib.OrderedMap
import Rackio.Desktop.Notifications
import Rackio.Remote.AddressRefresh
import Rackio.Remote.Backoff
import Rackio.Remote.PersistCadence
import Rackio.Lib.Watch
import Rackio.Iroh.LiveStream
import Rackio.Lib.Throttle
import Rackio.Core.Collector
import Rackio.Remote.LiveView
import Rackio.Desktop.TrayMenu
import Rackio.Desktop.TrayRegistry
import Rackio.Desktop.TrayBoard
import Rackio.Lib.Base64Text
import Rackio.Remote.PairingText
import Rackio.Remote.Handshake
import Rackio.Lib.Newest
import Rackio.Runtime.Restart
import Rackio.Lib.Script
import Rackio.Desktop.SshBootstrap
import Rackio.Desktop.SshCourse
import Rackio.Lib.Distinct
import Rackio.Iroh.ConnectionPath
import Rackio.Remote.SessionPath
import Rackio.Lib.Line
import Rackio.Runtime.LocalExchange
import Rackio.Runtime.LocalAnswer
import Rackio.Runtime.LocalDelivery
import Rackio.Desktop.TrendSeries
