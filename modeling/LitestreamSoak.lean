import LitestreamSoak.Store.Journal
import LitestreamSoak.Store.BlobSweepSafety
import LitestreamSoak.Gate.Soundness
import LitestreamSoak.Worker.ManyDBSafety
import LitestreamSoak.Worker.WALResetSafety
import LitestreamSoak.Worker.UpgradeLaneSafety
import LitestreamSoak.Worker.BoundaryExact
import LitestreamSoak.Orchestrator.ReplacementSafety
import LitestreamSoak.Orchestrator.EvidenceHoldSafety
import LitestreamSoak.Orchestrator.ReliabilitySound
import LitestreamSoak.Store.CostMeterExact
import LitestreamSoak.Store.EvidenceCounts
import LitestreamSoak.Store.EvidenceIncidents
import LitestreamSoak.Store.WindowedEventsCount
import LitestreamSoak.Worker.LoadSupervisorSafety
import LitestreamSoak.Worker.ReplayEngineSafety
import LitestreamSoak.Orchestrator.WorkerStatesSticky
import LitestreamSoak.Worker.LTXCoverageExact
import LitestreamSoak.Worker.RestorePlan
import LitestreamSoak.Worker.LogicalExact
import LitestreamSoak.Worker.OutboxSafety
import LitestreamSoak.Worker.LitestreamProcessSafety
import LitestreamSoak.Orchestrator.RolloutsSafety
import LitestreamSoak.Gate.LifeCycleSafety
import LitestreamSoak.Orchestrator.ClassificationStored
import LitestreamSoak.Orchestrator.Quarantine
import LitestreamSoak.Worker.WALFrames
import LitestreamSoak.Orchestrator.EnvironmentalAgreement
import LitestreamSoak.Churn
import LitestreamSoak.Orchestrator.PullRequestState
import LitestreamSoak.Orchestrator.Representative
import LitestreamSoak.Worker.NoProgress
import LitestreamSoak.Worker.RestoreOutput
import LitestreamSoak.Orchestrator.PullRequestPoller
