import RallyPoint.Lib.Str
import RallyPoint.Lib.Log
import RallyPoint.Exclusivity
import RallyPoint.RemovalGate
import RallyPoint.LeadSeat
import RallyPoint.LastSeen
import RallyPoint.Sessions
import RallyPoint.ObligationGate
import RallyPoint.Answering
import RallyPoint.ReplyState
import RallyPoint.Renewal
import RallyPoint.ClaimIndex
import RallyPoint.DeliveryRuns
import RallyPoint.Reconciliation
import RallyPoint.PlannerInputs
import RallyPoint.Staleness
import RallyPoint.Segments
import RallyPoint.Inbox
import RallyPoint.Replay
import RallyPoint.Rotation
import RallyPoint.Migration
import RallyPoint.Collision
import RallyPoint.Cockpit.Approvals
import RallyPoint.Cockpit.ApprovalGate
import RallyPoint.Cockpit.SessionStatus
import RallyPoint.Cockpit.EventStream
import RallyPoint.Cockpit.Consent
import RallyPoint.BacklogRuns
import RallyPoint.Watch
import RallyPoint.FactsPage
import RallyPoint.Routed
import RallyPoint.WorkstreamStatus
import RallyPoint.ReleaseByPath
import RallyPoint.SessionRelease
import RallyPoint.WriteCheck
import RallyPoint.Positions
import RallyPoint.Offers
import RallyPoint.SnapshotWire
import RallyPoint.HookBatch
import RallyPoint.AutoClaim
import RallyPoint.Lib.Scrub
import RallyPoint.InjectText
import RallyPoint.HookEnvelope
import RallyPoint.Lib.JsonText
import RallyPoint.FastPath
import RallyPoint.Lib.Settle
import RallyPoint.Composition
import RallyPoint.CompositionAccounts
import RallyPoint.CompositionCeiling
import RallyPoint.PlannerSelection
import RallyPoint.Lib.UnixPath
import RallyPoint.ScopePaths
import RallyPoint.Lib.Buckets
import RallyPoint.Closers
import RallyPoint.LeaseRuns
import RallyPoint.Lib.Rfc3339
import RallyPoint.Lib.TopPages
import RallyPoint.RecentFacts
import RallyPoint.DbMigration
import RallyPoint.Lib.OrderedMap
import RallyPoint.ReadPositions
import RallyPoint.LivenessWindow
import RallyPoint.Lib.Budget
import RallyPoint.BoundedInbox
import RallyPoint.Lib.Markers
import RallyPoint.AgentState
import RallyPoint.Ownership
import RallyPoint.MergeGate
import RallyPoint.Lib.Time
import RallyPoint.MutationDeadline
import RallyPoint.Lib.Pieces
import RallyPoint.BatchGrammar
import RallyPoint.Lib.Utf16
import RallyPoint.Lib.JsData
import RallyPoint.Lib.Stoppable
import RallyPoint.CheckpointFormat
import RallyPoint.Checkpoint
import RallyPoint.Dag
import RallyPoint.Lib.Distinct
import RallyPoint.RetractionRecords
import RallyPoint.Lib.MarkerScan
import RallyPoint.ScopedSelection
import RallyPoint.HookDedupe
import RallyPoint.ContentHashes
import RallyPoint.ReceiverAck
import RallyPoint.ChannelDelivery
import RallyPoint.ChannelRotation
import RallyPoint.Lib.PosixTree
import RallyPoint.WriteTargets
import RallyPoint.RetryBudget
import RallyPoint.Lib.BufRead
import RallyPoint.CappedLines
import RallyPoint.Limiter
import RallyPoint.Lib.Phrase
import RallyPoint.InjectFrame
import RallyPoint.ReadyBacklog
import RallyPoint.WorktreeGc
import RallyPoint.Lib.Quoted
import RallyPoint.Retrospective
import RallyPoint.Lib.Words
import RallyPoint.Lib.LoosePhrase
import RallyPoint.PeerText
import RallyPoint.BeforeWriteMessage
import RallyPoint.Lib.TailScan
import RallyPoint.ActiveTail
import RallyPoint.WorktreeCleanup
import RallyPoint.Cockpit.Connections
import RallyPoint.Cockpit.Relay
import RallyPoint.BatchReplies
import RallyPoint.CompletionLabel
import RallyPoint.Reservation
import RallyPoint.Reaper
import RallyPoint.ReapReport
import RallyPoint.Observer
import RallyPoint.Lib.FirstMatch
import RallyPoint.InitDocs
