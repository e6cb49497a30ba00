import AccessControl.FileTree
import AccessControl.Main
import AccessControl.Proofs.AbortedScope
import AccessControl.Proofs.ActionMembers
import AccessControl.Proofs.AuditTrail
import AccessControl.Proofs.ConfigurationLayers
import AccessControl.Proofs.CutOff
import AccessControl.Proofs.DecisionAtRest
import AccessControl.Proofs.EngineFailure
import AccessControl.Proofs.EvictionRecovery
import AccessControl.Proofs.FailureKind
import AccessControl.Proofs.KeptGrant
import AccessControl.Proofs.Listing
import AccessControl.Proofs.NameGrammar
import AccessControl.Proofs.ObservedRevocation
import AccessControl.Proofs.PlainFacts
import AccessControl.Proofs.Promotion
import AccessControl.Proofs.ReadCounters
import AccessControl.Proofs.ReadEffect
import AccessControl.Proofs.RejectedWrite
import AccessControl.Proofs.ResourceSpelling
import AccessControl.Proofs.RolledBackScope
import AccessControl.Proofs.ScopedRead
import AccessControl.Proofs.SeededDecision
import AccessControl.Proofs.SeedingFault
import AccessControl.Proofs.SequentialUse
import AccessControl.Proofs.StoredNames
import AccessControl.Proofs.SubjectIsolation
import AccessControl.Proofs.Transaction
import AccessControl.Proofs.Transparency
import AccessControl.Proofs.UnknownOutcome
import AccessControl.Proofs.UpdatedActions
import AccessControl.Proofs.WarmUpCopy
import AccessControl.Simulation.Peer
import AccessControl.Simulation.Steps
