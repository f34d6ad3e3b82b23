import Hermes.Security.Identite
import Hermes.Security.Completude
import Hermes.Security.Consentement
import Hermes.Security.Sessions
import Hermes.Security.GardeWorkspace
import Hermes.Execution.Liberation
import Hermes.Execution.Achevement
import Hermes.Mission.Dispatch
import Hermes.Mission.Phases
import Hermes.Mission.Relais
import Hermes.Mission.Relances
import Hermes.Mission.Portillon
import Hermes.Mission.Echappees
import Hermes.Mission.GraphSerializer
import Hermes.Mission.Tolerance
import Hermes.Mission.MagasinMissions
import Hermes.Mission.Durabilite
import Hermes.Mission.Difference
import Hermes.Mission.ImportsLocaux
import Hermes.Mission.NodeExecution
import Hermes.Skills.Orchestrator
import Hermes.Runs.Consommation
import Hermes.Runs.Lignee
import Hermes.Runs.Reconciliation
import Hermes.Core.EventHub
import Hermes.Workflows.Calendrier
import Hermes.Workflows.Branches
import Hermes.Conversation.Historique
import Hermes.Memory.Episodic
import Hermes.Memory.MemoryManager
import Hermes.Checkpoints.GitRef
import Hermes.Maj.Code
import Hermes.Runtime.Places
import Hermes.Execution.Retention
import Hermes.Ral.Courtier
import Hermes.Agent.Conclusion
import Hermes.Mission.PlanDuCahier
import Hermes.Skills.SkillCache
import Hermes.Execution.RuntimeChoisi
import Hermes.Events.SystemEventBus
import Hermes.Skills.Gouvernance
import Hermes.Skills.DependencyResolver
import Hermes.Ral.Replay
import Hermes.Ral.AmorceDeMission
import Hermes.Execution.Sorties
import Hermes.Security.PareFeu
import Hermes.ModelIntelligence.BenchmarkScheduler
import Hermes.Security.SurveillanceFlux
import Hermes.Conversation.ContextSummary
import Hermes.Tools.GitStatus
import Hermes.Core.SnapshotManager
import Hermes.Mission.MissionPlanner
import Hermes.Memory.Transfert
import Hermes.Security.PermissionManager
import Hermes.Security.DeriveWorkspace
import Hermes.Collaboration.DelegationManager
import Hermes.Mission.Journal
import Hermes.ModelIntelligence.AdaptiveRouter
import Hermes.Collaboration.ConsensusEngine
import Hermes.Tasks.TaskManager
import Hermes.Ral.RuntimeRouter
import Hermes.Recovery.RecoveryEngine
