import HarnessLabs.Controller.Halt
import HarnessLabs.PlanGraph.Custody
import HarnessLabs.PlanGraph.Inheritance
import HarnessLabs.PlanGraph.Completion
import HarnessLabs.PlanGraph.CustodyChain
import HarnessLabs.PlanGraph.Integration
import HarnessLabs.Core.AuditBinding
import HarnessLabs.FeatureRun.Agreement
import HarnessLabs.Controller.Scheduler
import HarnessLabs.PlanGraph.GateSlots
import HarnessLabs.FeatureRun.Recovery
import HarnessLabs.FeatureQueue.Serial
import HarnessLabs.FeatureQueue.Settlement
import HarnessLabs.Budget.Reservations
import HarnessLabs.PlanGraph.Lineage
import HarnessLabs.Controller.Idempotency
import HarnessLabs.PlanGraph.Confluence
import HarnessLabs.PlanGraph.Conservation
import HarnessLabs.Campaign.RepositoryHead
import HarnessLabs.PlanGraph.NearestOwner
import HarnessLabs.FeatureRun.HandOff
import HarnessLabs.FeatureRun.Regression
import HarnessLabs.Controller.Replacement
import HarnessLabs.PlanGraph.JoinProposal
import HarnessLabs.PlanGraph.RebaseStall
import HarnessLabs.Controller.Batches
import HarnessLabs.Core.CapabilityBroker
import HarnessLabs.Campaign.TargetGrant
import HarnessLabs.Campaign.Approval
import HarnessLabs.Campaign.Suspects
import HarnessLabs.Controller.Attribution
import HarnessLabs.PlanGraph.Autoresume
import HarnessLabs.PlanGraph.ImpactAnalysis
import HarnessLabs.Improvement.Signatures
import HarnessLabs.PlanGraph.JoinStore
import HarnessLabs.PlanGraph.RepairOrdinal
import HarnessLabs.PlanGraph.ResumeAdmission
import HarnessLabs.PlanGraph.FindingIntake
import HarnessLabs.Observability.Liveness
