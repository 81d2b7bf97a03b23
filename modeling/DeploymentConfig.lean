import DeploymentConfig.Env.Store
import DeploymentConfig.Main
import DeploymentConfig.Website.WorkingSet
import DeploymentConfig.Proofs.Host.Serving
import DeploymentConfig.Proofs.Website.Placement
import DeploymentConfig.Proofs.Website.Record
import DeploymentConfig.Proofs.WorkingSet.Steps
import DeploymentConfig.Proofs.WorkingSet.Loading
import DeploymentConfig.Proofs.WorkingSet.Ledger
import DeploymentConfig.Proofs.Website.Views
import DeploymentConfig.Proofs.WorkingSet.Retry
import DeploymentConfig.Proofs.Website.Residence
import DeploymentConfig.Proofs.WorkingSet.Reload
import DeploymentConfig.Proofs.Website.Routes
import DeploymentConfig.Proofs.WorkingSet.Acceptance
import DeploymentConfig.Proofs.Env.Diff
import DeploymentConfig.Proofs.Env.Writing
import DeploymentConfig.Proofs.Build.Conversion
import DeploymentConfig.Proofs.Document.Sections
import DeploymentConfig.Proofs.Schema.Decode
import DeploymentConfig.Proofs.Schema.Wire
import DeploymentConfig.Proofs.Document.Editing
import DeploymentConfig.Proofs.WorkingSet.InFlight
import DeploymentConfig.Proofs.Env.System
import DeploymentConfig.Proofs.Env.Rows
import DeploymentConfig.Proofs.Host.Resolution
import DeploymentConfig.Proofs.Build.Reception
import DeploymentConfig.Proofs.WorkingSet.Removal
import DeploymentConfig.Proofs.Env.Transition
import DeploymentConfig.Proofs.Host.Composition
import DeploymentConfig.Proofs.WorkingSet.Adjustment
import DeploymentConfig.Proofs.Website.SharedRoutes
import DeploymentConfig.Proofs.Host.Stability
import DeploymentConfig.Proofs.WorkingSet.Settling
import DeploymentConfig.Proofs.Env.Faults
import DeploymentConfig.Proofs.Port.Reading
import DeploymentConfig.Proofs.WorkingSet.Withdrawal
import DeploymentConfig.Proofs.Build.Independence
import DeploymentConfig.Proofs.Port.Suggestion
import DeploymentConfig.Proofs.Issue.Grouping
import DeploymentConfig.Proofs.CommandLine.Refusal
