import Leoflow.Properties.SnapshotFencing
import Leoflow.Properties.AttemptFencing
import Leoflow.Properties.CurrentAttempt
import Leoflow.Properties.AgentLost
import Leoflow.Properties.Teardown
import Leoflow.Properties.QueuedAt
import Leoflow.Properties.StrandedRun
import Leoflow.Properties.OrphanedRun
import Leoflow.Properties.PlannerProgress
import Leoflow.Properties.DeclaredMachine
import Leoflow.Properties.AttemptHistory
import Leoflow.Properties.FreshStart
import Leoflow.Properties.AlertEpisodes
import Leoflow.Properties.AlertRetries
import Leoflow.Properties.PagesPerFailure
import Leoflow.Properties.AttemptBudgets
import Leoflow.Properties.RetryCauses
import Leoflow.Properties.PodIdentity
import Leoflow.Properties.WorkerExclusivity
import Leoflow.Properties.WarmReaping
import Leoflow.Properties.WarmListing
import Leoflow.Properties.ReclaimLoops
import Leoflow.Properties.ExecutingRuns
import Leoflow.Properties.RebindCompleteness
import Leoflow.Properties.RegistryIsolation
import Leoflow.Properties.CatchupGaps
import Leoflow.Properties.ClearPreview
import Leoflow.Properties.ClearClosure
import Leoflow.Properties.BufferedVerdicts
import Leoflow.Properties.WarmConvergence
import Leoflow.Properties.WarmAnchors
import Leoflow.Properties.LeaderSettling
import Leoflow.Properties.PodLabels
import Leoflow.Properties.DefaultArgs
import Leoflow.Properties.SecretScope
import Leoflow.Properties.LogSinks
import Leoflow.Properties.XComIsolation
import Leoflow.Properties.TokenChains
import Leoflow.Properties.LoginLimit
import Leoflow.Properties.HandoffTokens
import Leoflow.Properties.KeyRotation
import Leoflow.Properties.Redaction
import Leoflow.Properties.DueSlots
import Leoflow.Properties.CronHorizon
import Leoflow.Properties.RunCaps
import Leoflow.Properties.OperatorInputs
import Leoflow.Properties.AlertTemplates
import Leoflow.Properties.OutcomeRecords
import Leoflow.Properties.TaskOrder
import Leoflow.Properties.LogFlushes
import Leoflow.Properties.LogLines
import Leoflow.Properties.TenantClaims
import Leoflow.Properties.Dockerignore
import Leoflow.Properties.Redirects
import Leoflow.Properties.SecretNames
import Leoflow.Properties.RunPages
import Leoflow.Properties.WholeRuns
