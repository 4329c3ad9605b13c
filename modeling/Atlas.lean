import Atlas.Proofs.Accounting
import Atlas.Proofs.Admission
import Atlas.Proofs.BinaryUtf8
import Atlas.Proofs.BreakerCounter
import Atlas.Proofs.BundleReplacement
import Atlas.Proofs.CacheSnapshot
import Atlas.Proofs.CachedAnswers
import Atlas.Proofs.Capacity
import Atlas.Proofs.ChangedSince
import Atlas.Proofs.CleanupLedger
import Atlas.Proofs.Creation
import Atlas.Proofs.Delivery
import Atlas.Proofs.DemandAgreement
import Atlas.Proofs.DeviceFraming
import Atlas.Proofs.FeedOfLog
import Atlas.Proofs.JsonEquality
import Atlas.Proofs.LaunchElevation
import Atlas.Proofs.Lifecycle
import Atlas.Proofs.LogFraming
import Atlas.Proofs.LoginIdentity
import Atlas.Proofs.LoginThrottle
import Atlas.Proofs.MutationExclusion
import Atlas.Proofs.PatchLaws
import Atlas.Proofs.PathContainment
import Atlas.Proofs.RateSlots
import Atlas.Proofs.Reassembly
import Atlas.Proofs.Reconnection
import Atlas.Proofs.RecoveryProgress
import Atlas.Proofs.Refusal
import Atlas.Proofs.Restaging
import Atlas.Proofs.Retention
import Atlas.Proofs.Retries
import Atlas.Proofs.SafeInteger
import Atlas.Proofs.ServerTime
import Atlas.Proofs.SourceFencing
import Atlas.Proofs.TemplateRendering
import Atlas.Proofs.Tracking
import Atlas.Proofs.TrailAnswers
import Atlas.Proofs.ZstandardBoundary
