import ShortcutProxy.Retention
import ShortcutProxy.ClaimAcceptance
import ShortcutProxy.SnapshotPublication
import ShortcutProxy.RangePartition
import ShortcutProxy.SourceGate
import ShortcutProxy.Tokenization
import ShortcutProxy.TokenDomains
import ShortcutProxy.AccurateManifests
import ShortcutProxy.DeltaServing
import ShortcutProxy.PublishedManifests
import ShortcutProxy.FrontDoor
import ShortcutProxy.NativeAgentScope
import ShortcutProxy.ByteRanges
import ShortcutProxy.PassthroughScope
import ShortcutProxy.IcebergLocations
import ShortcutProxy.SigV4Agreement
import ShortcutProxy.ResultReplay
import ShortcutProxy.FinishedRequests
import ShortcutProxy.RetriedRequests
import ShortcutProxy.CrashRecovery
import ShortcutProxy.GenerationMembership
import ShortcutProxy.OpenMirrorDrops
import ShortcutProxy.LeaseState
import ShortcutProxy.StartupWaits
import ShortcutProxy.GenerationJson
import ShortcutProxy.VirtualServing
import ShortcutProxy.QueuedQueries
import ShortcutProxy.StreamedReads
import ShortcutProxy.UserDirectory
import ShortcutProxy.RequestLimits
import ShortcutProxy.MirrorCleanup
import ShortcutProxy.NativeRanges
import ShortcutProxy.RangeReader
