import PathObservatory.Foundation.Canonical
import PathObservatory.Foundation.Time
import PathObservatory.Foundation.Limits
import PathObservatory.Library.OrderedMap
import PathObservatory.Library.Ranking
import PathObservatory.Library.Survivors
import PathObservatory.Library.Streams
import PathObservatory.Library.Filing
import PathObservatory.Domain.Divergence
import PathObservatory.Domain.Observed
import PathObservatory.Domain.ReplayFence
import PathObservatory.Domain.Finalize
import PathObservatory.Domain.Plan
import PathObservatory.Engine.Gates
import PathObservatory.Engine.FalseDivergence
import PathObservatory.Engine.ArrivalOrder
import PathObservatory.Engine.Exclusion
import PathObservatory.Engine.Bounds
import PathObservatory.Engine.ClassSet
import PathObservatory.Engine.StalePlan
import PathObservatory.Store.RecordRoundTrip
import PathObservatory.Store.Recovery
import PathObservatory.Store.TornTail
import PathObservatory.Store.ShortWrites
import PathObservatory.Store.TornHeader
import PathObservatory.Runtime.Publication
import PathObservatory.Runtime.Restart
import PathObservatory.Runtime.Runs
import PathObservatory.Runtime.CurrentPlan
import PathObservatory.Runtime.Closing
import PathObservatory.Runtime.Survival
import PathObservatory.Runtime.Forgetting
import PathObservatory.Runtime.CleanStop
import PathObservatory.Runtime.ReadableRecords
import PathObservatory.Store.ExpectedCodec
import PathObservatory.Store.Tidy
import PathObservatory.Runtime.Identities
import PathObservatory.Infrastructure.LostFraming
import PathObservatory.Runtime.Capabilities
import PathObservatory.Runtime.FindingStatus
import PathObservatory.Engine.OutcomeClasses
import PathObservatory.Json.RoundTrip
import PathObservatory.Documents.EvidenceLines
import PathObservatory.Documents.GenerationRoundTrip
import PathObservatory.Engine.MatchedPath
import PathObservatory.Engine.Contradiction
import PathObservatory.Runtime.Subjects
import PathObservatory.Infrastructure.Drain
import PathObservatory.Runtime.Flushing
import PathObservatory.Engine.StaleTopology
import PathObservatory.Runtime.HistoryWindow
import PathObservatory.Runtime.FindingIdentity
import PathObservatory.Runtime.GapFlags
import PathObservatory.Runtime.BucketInvariant
import PathObservatory.Runtime.SourceOrder
import PathObservatory.Engine.Membership
import PathObservatory.Domain.LinkResolution
import PathObservatory.Domain.ExactFreshness
import PathObservatory.Engine.Waiting
import PathObservatory.Documents.WrittenInstants
import PathObservatory.Documents.NumbersKept
import PathObservatory.Runtime.FailedComparison
import PathObservatory.Foundation.Sha256Streams
import PathObservatory.Store.ChangedBytes
import PathObservatory.Json.Encodings
import PathObservatory.Foundation.Checked
import PathObservatory.Service.Outcome
import PathObservatory.Batches.AnyOrder
import PathObservatory.Batches.AtRest
import PathObservatory.Runtime.Accounts
import PathObservatory.Runtime.Chronicle
import PathObservatory.Laboratory.Session
