import ProjectAgent.Lib.Prog
import ProjectAgent.Lib.Machine
import ProjectAgent.Lib.Table
import ProjectAgent.Lib.Json
import ProjectAgent.Lib.Locking
import ProjectAgent.Lib.Log
import ProjectAgent.Lib.Watch
import ProjectAgent.Lib.Ranking
import ProjectAgent.Lib.Recorded
import ProjectAgent.Lib.Dict
import ProjectAgent.Lib.Decimal
import ProjectAgent.Basic
import ProjectAgent.Jobs.Queue
import ProjectAgent.Jobs.Rows
import ProjectAgent.Jobs.Fencing
import ProjectAgent.Jobs.Rewrites
import ProjectAgent.Jobs.Invariants
import ProjectAgent.Jobs.Namespaces
import ProjectAgent.Workers.Background
import ProjectAgent.Issue.Domain
import ProjectAgent.Runs.Store
import ProjectAgent.Runs.Services
import ProjectAgent.Runs.Effects
import ProjectAgent.Runs.Lifecycle
import ProjectAgent.Runs.Moves
import ProjectAgent.Runs.Kept
import ProjectAgent.Runs.Worker
import ProjectAgent.Runs.Attempts
import ProjectAgent.Runs.Handlers
import ProjectAgent.Runs.Stranded
import ProjectAgent.Runs.Agreement
import ProjectAgent.Runs.Stale
import ProjectAgent.Runs.Waiting
import ProjectAgent.Runs.Rounds
import ProjectAgent.Runs.Stream
import ProjectAgent.Runs.Reading
import ProjectAgent.Runs.Sequence
import ProjectAgent.Runs.Numbering
import ProjectAgent.Runs.Transactions
import ProjectAgent.Runs.OneStep
import ProjectAgent.Runs.Delivery
import ProjectAgent.Runs.Endings
import ProjectAgent.Documents.Store
import ProjectAgent.Documents.Services
import ProjectAgent.Documents.Rows
import ProjectAgent.Documents.Spec
import ProjectAgent.Documents.Kept
import ProjectAgent.Documents.Sessions
import ProjectAgent.Documents.UseCases
import ProjectAgent.Documents.Transitions
import ProjectAgent.Documents.Publication
import ProjectAgent.Documents.OwnIngestion
import ProjectAgent.Documents.Deletion
import ProjectAgent.Issue.Drafts
import ProjectAgent.Issue.Store
import ProjectAgent.Issue.Services
import ProjectAgent.Issue.Growth
import ProjectAgent.Issue.Spec
import ProjectAgent.Issue.Kept
import ProjectAgent.Issue.Sessions
import ProjectAgent.Issue.Steps
import ProjectAgent.Issue.Durable
import ProjectAgent.Issue.OneAnswer
import ProjectAgent.Issue.Backed
import ProjectAgent.Issue.Recheck
import ProjectAgent.Issue.Avoids
import ProjectAgent.Issue.Final
import ProjectAgent.Issue.Cancel
import ProjectAgent.Lib.Fallible
import ProjectAgent.Lib.Related
import ProjectAgent.Evidence.Domain
import ProjectAgent.Evidence.Rows
import ProjectAgent.Evidence.Governance
import ProjectAgent.Evidence.Packs
import ProjectAgent.Evidence.Access
import ProjectAgent.Evidence.Alike
import ProjectAgent.Evidence.Bundles
import ProjectAgent.Evidence.RoundTrip
import ProjectAgent.Evidence.Frozen
import ProjectAgent.Evidence.Current
import ProjectAgent.Evidence.OneCurrent
import ProjectAgent.Lib.Calls
import ProjectAgent.Evidence.Guard
import ProjectAgent.Evidence.Answers
import ProjectAgent.Ragflow.Provider
import ProjectAgent.Ragflow.Adapter
import ProjectAgent.Ragflow.Bindings
import ProjectAgent.Ragflow.Isolation
import ProjectAgent.Ragflow.Ingestion
import ProjectAgent.Evidence.Accepts
import ProjectAgent.Evidence.Fates
import ProjectAgent.Evidence.Shape
import ProjectAgent.Evidence.Conflicts
import ProjectAgent.Evidence.Permuted
import ProjectAgent.Agent.State
import ProjectAgent.Agent.Calls
import ProjectAgent.Agent.Prompts
import ProjectAgent.Agent.Nodes
import ProjectAgent.Lib.StateGraph
import ProjectAgent.Agent.QaGraph
import ProjectAgent.Identifiers.Domain
import ProjectAgent.Lib.Regex
import ProjectAgent.Identifiers.Extractor
import ProjectAgent.Lib.FirstSeen
import ProjectAgent.Identifiers.Deduplicated
import ProjectAgent.Lib.Surrounded
import ProjectAgent.Identifiers.Shapes
import ProjectAgent.Identifiers.Normal
import ProjectAgent.Identifiers.Stripped
import ProjectAgent.Identifiers.Extracted
import ProjectAgent.Identifiers.Registry
import ProjectAgent.Identifiers.Narrowing
import ProjectAgent.Identifiers.FoundAgain
import ProjectAgent.Identifiers.Merging
import ProjectAgent.Lib.Double
import ProjectAgent.Lib.Precedence
import ProjectAgent.Candidates.Service
import ProjectAgent.Candidates.Ranking
import ProjectAgent.Lib.Evaluated
import ProjectAgent.Ragflow.DatasetLookup
import ProjectAgent.Ragflow.Retrieval
import ProjectAgent.Issue.Authorization
import ProjectAgent.Agent.IssueEvidence
import ProjectAgent.Agent.Selection
import ProjectAgent.Agent.World
import ProjectAgent.Agent.Reached
import ProjectAgent.Agent.Facts
import ProjectAgent.Agent.Steps
import ProjectAgent.Agent.Gathered
import ProjectAgent.Agent.Script
import ProjectAgent.Agent.Guarded
import ProjectAgent.Lib.Assigned
import ProjectAgent.Observability.Sanitization
import ProjectAgent.Workers.RateLimit
import ProjectAgent.Workers.ModelLimiter
import ProjectAgent.Lib.FileTree
import ProjectAgent.ObjectStore.Keys
import ProjectAgent.ObjectStore.FileSystem
import ProjectAgent.ObjectStore.Adapter
import ProjectAgent.ObjectStore.Reading
import ProjectAgent.ObjectStore.Staging
import ProjectAgent.ObjectStore.Atomic
import ProjectAgent.Lib.JsonValue
import ProjectAgent.Auth.Jwt
import ProjectAgent.Auth.OneFailure
import ProjectAgent.Evaluation.Artifacts
import ProjectAgent.Evaluation.Scoring
import ProjectAgent.Evaluation.Metrics
import ProjectAgent.Evaluation.Reported
import ProjectAgent.Evaluation.Ablations
import ProjectAgent.Evaluation.Comparable
import ProjectAgent.Evaluation.Scope
import ProjectAgent.Evaluation.Critical
import ProjectAgent.Evaluation.FinalRound
import ProjectAgent.Evaluation.SecretScan
import ProjectAgent.Evaluation.Loader
import ProjectAgent.Evaluation.NoSecrets
import ProjectAgent.Evaluation.Runner
import ProjectAgent.Evaluation.SafeTexts
import ProjectAgent.Evaluation.Fallbacks
import ProjectAgent.Evaluation.Cases
import ProjectAgent.Evaluation.OneArtifact
import ProjectAgent.Evaluation.Prepare
import ProjectAgent.Evaluation.Recovery
import ProjectAgent.Evaluation.SeededIdentifiers
import ProjectAgent.Lib.Chain
import ProjectAgent.Evaluation.VersionChains
import ProjectAgent.Agent.PromptConfig
import ProjectAgent.Agent.Llm
import ProjectAgent.Ragflow.Client
import ProjectAgent.Ragflow.Status
import ProjectAgent.Documents.Access
import ProjectAgent.Documents.Metadata
