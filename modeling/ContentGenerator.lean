import ContentGenerator.Workflows.Structure
import ContentGenerator.Workflows.RowKeys
import ContentGenerator.Workflows.SkipClosure
import ContentGenerator.Workflows.SkipSound
import ContentGenerator.Workflows.IterationReady
import ContentGenerator.Workflows.IterationResume
import ContentGenerator.Workflows.Finality
import ContentGenerator.Workflows.WaitMatch
import ContentGenerator.Workflows.WakeUps
import ContentGenerator.Workflows.Correlation
import ContentGenerator.Workflows.WebhookIngress
import ContentGenerator.Workflows.Cancellation
import ContentGenerator.Workflows.Canvas
import ContentGenerator.Workflows.CapabilityContext
import ContentGenerator.Publishing.Submissions
import ContentGenerator.Approvals.FailedMessages
import ContentGenerator.Approvals.Tenants
import ContentGenerator.SourceIngestion.FailureCounts
import ContentGenerator.ChessVideo.Files
import ContentGenerator.StoryIntelligence.RiskCoverage
import ContentGenerator.StoryIntelligence.Decisions
import ContentGenerator.ChessIntelligence.Upserts
import ContentGenerator.ChessIntelligence.HighWaterMark
import ContentGenerator.ContentGeneration.VariantTargets
import ContentGenerator.ContentGeneration.Revisions
import ContentGenerator.Frontend.ApiFetch
import ContentGenerator.IdentityAccess.RefreshTokens
import ContentGenerator.IdentityAccess.MfaEnrolment
import ContentGenerator.ContentGeneration.ClosedJobs
import ContentGenerator.Publishing.ReviewedContent
import ContentGenerator.Core.SingleFlight
import ContentGenerator.ChessIntelligence.AnalysisRuns
import ContentGenerator.Approvals.CallbackSigning
import ContentGenerator.Publishing.VariantPayload
import ContentGenerator.Publishing.AccountQuota
import ContentGenerator.Workflows.WebhookAutomations
import ContentGenerator.Workflows.MergeNodes
import ContentGenerator.Workflows.PauseNodes
import ContentGenerator.Workflows.DelayedWakes
import ContentGenerator.Publishing.PublishRuns
import ContentGenerator.Workflows.PortBindings
import ContentGenerator.Workflows.NextSlots
import ContentGenerator.Core.CacheFills
import ContentGenerator.SourceIngestion.RobotsMemo
import ContentGenerator.Workflows.Retention
import ContentGenerator.SourceIngestion.SitemapWalk
import ContentGenerator.StoryIntelligence.GateOrder
import ContentGenerator.ChessIntelligence.CatalogPages
import ContentGenerator.SourceIngestion.Batching
import ContentGenerator.Publishing.Consolidation
import ContentGenerator.ChessIntelligence.DryRun
