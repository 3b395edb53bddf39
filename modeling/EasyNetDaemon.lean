import EasyNetDaemon.Ability.CanonicalJson
import EasyNetDaemon.Admission.GrantConfinement
import EasyNetDaemon.Bidi.CarrierInput
import EasyNetDaemon.Bidi.SchedulerClose
import EasyNetDaemon.Eal.Backoff
import EasyNetDaemon.Eal.LoopDecision
import EasyNetDaemon.Eal.ParallelDispatch
import EasyNetDaemon.Eal.ParserProgress
import EasyNetDaemon.Eal.SkipPropagation
import EasyNetDaemon.Eal.StepIds
import EasyNetDaemon.Eal.TemplateCursor
import EasyNetDaemon.Eal.TraceBuffer
import EasyNetDaemon.Files.StalenessGuard
import EasyNetDaemon.Loops.DispatchOrder
import EasyNetDaemon.Loops.Recovery
import EasyNetDaemon.Loops.TerminalStates
import EasyNetDaemon.Mcp.BoundedLine
import EasyNetDaemon.MediaSession.AccessUnits
import EasyNetDaemon.MediaSession.BinaryFrame
import EasyNetDaemon.MediaSession.DecodableVideo
import EasyNetDaemon.Permission.Broker
import EasyNetDaemon.Persistence.CrashAtomicity
import EasyNetDaemon.Persistence.IdempotentCreation
import EasyNetDaemon.Persistence.JournalTampering
import EasyNetDaemon.Persistence.StoreRuns
import EasyNetDaemon.Presence.DispatchAccounting
import EasyNetDaemon.Presence.FailFast
import EasyNetDaemon.Presence.LosslessStream
import EasyNetDaemon.Presence.Reconnect
import EasyNetDaemon.RemoteDesktop.Adaptation
import EasyNetDaemon.RemoteDesktop.EventHistory
import EasyNetDaemon.RemoteDesktop.H264Level
import EasyNetDaemon.RemoteDesktop.RecoveryStore
import EasyNetDaemon.Schedules.Misfires
import EasyNetDaemon.SharedMedia.DetachedBuffers
import EasyNetDaemon.SharedMedia.LaneLayout
import EasyNetDaemon.ShellGuard.QuoteRemoval
