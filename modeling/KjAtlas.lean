import KjAtlas.Access.Control
import KjAtlas.Ai.Governed
import KjAtlas.Ai.Lossless
import KjAtlas.Audit.Completeness
import KjAtlas.Audit.Dedup
import KjAtlas.AuthEdge.JwksRuns
import KjAtlas.AuthEdge.RateLimit
import KjAtlas.AuthEdge.SessionCsrf
import KjAtlas.Bundles.Concurrency
import KjAtlas.Compute.Cancellation
import KjAtlas.Context.QueryHash
import KjAtlas.Diff.Complete
import KjAtlas.Diff.Preview
import KjAtlas.Diff.Selective
import KjAtlas.Documents.Listing
import KjAtlas.Domain.RelationHistory
import KjAtlas.Domain.RelationSignature
import KjAtlas.Domain.TieBreak
import KjAtlas.Export.ReviewedOnly
import KjAtlas.Generations.BlobGcSafe
import KjAtlas.Generations.Corrupted
import KjAtlas.Generations.PutsInOrder
import KjAtlas.Generations.Retention
import KjAtlas.Guests.RedeemAtomic
import KjAtlas.Identity.OneToOne
import KjAtlas.Import.IslandHierarchy
import KjAtlas.Import.LinkTuples
import KjAtlas.Inquiry.HandoffKept
import KjAtlas.Inquiry.Recorded
import KjAtlas.Inquiry.RoundBundleExact
import KjAtlas.Inquiry.SafeModeFields
import KjAtlas.Inquiry.Trace
import KjAtlas.Ir.Components
import KjAtlas.Islands.CountedOnce
import KjAtlas.Islands.Equivalence
import KjAtlas.Merge.OriginTrace
import KjAtlas.Merge.ProjectedEdges
import KjAtlas.Merge.ReadingOrder
import KjAtlas.Merge.RenderedEdges
import KjAtlas.Merge.ServerCandidates
import KjAtlas.Patch.ConflictJson
import KjAtlas.Patch.Export
import KjAtlas.Patch.LocalEdits
import KjAtlas.Patch.Lossless
import KjAtlas.Patch.SameEffect
import KjAtlas.Patch.WorkspaceRuns
import KjAtlas.Proposals.Finality
import KjAtlas.Rediff.ApplySound
import KjAtlas.RequestBody.NestingGuard
import KjAtlas.Sessions.AuthSessionBacked
import KjAtlas.Sessions.TenantSessionAgree
import KjAtlas.Sessions.TenantSwitch
import KjAtlas.Shelf.Patches
import KjAtlas.Ai.LayoutMoves
import KjAtlas.View.CollapseVisibility
import KjAtlas.Geometry.PolygonEdit
import KjAtlas.View.MergeAuditLog
