import Deferral.Audit.Tree
import Deferral.Config.Path
import Deferral.Config.Source
import Deferral.Exchange
import Deferral.Global
import Deferral.Main
import Deferral.Probe.Basic
import Deferral.Session.Basic
import Deferral.Proofs.Exchange.Whereabouts
import Deferral.Proofs.Exchange.Step
import Deferral.Proofs.Exchange.Publication
import Deferral.Proofs.Exchange.Delivery
import Deferral.Proofs.Exchange.Waking
import Deferral.Proofs.System.Change
import Deferral.Proofs.System.Action
import Deferral.Proofs.System.Aging
import Deferral.Proofs.System.Growth
import Deferral.Proofs.System.Soundness
import Deferral.Proofs.System.Provenance
import Deferral.Proofs.System.Custody
import Deferral.Proofs.System.Nesting
import Deferral.Proofs.System.Operation
import Deferral.Proofs.System.Trace
import Deferral.Proofs.System.Laziness
import Deferral.Proofs.System.Abandonment
import Deferral.Proofs.System.References
import Deferral.Proofs.System.Ownership
import Deferral.Proofs.System.Abort
import Deferral.Proofs.System.Cascade
import Deferral.Proofs.Forwarding
import Deferral.Proofs.System.Flow
import Deferral.Proofs.Owing
import Deferral.Proofs.System.Likeness
import Deferral.Proofs.System.Receipt
import Deferral.Proofs.System.Agreement
import Deferral.Proofs.System.Inner
import Deferral.Proofs.System.Rest
import Deferral.Proofs.System.Schedule
import Deferral.Proofs.System.Waiting
import Deferral.Proofs.Probe.Extraction
import Deferral.Proofs.Consumption
import Deferral.Proofs.Exchange.Refusal
import Deferral.Proofs.System.Refusal
import Deferral.Proofs.Refusal
import Deferral.Proofs.OneItem
import Deferral.Proofs.System.Holders
import Deferral.Proofs.System.Lifecycle
import Deferral.Proofs.System.Lifetime
import Deferral.Proofs.Text.Blank
import Deferral.Proofs.Text.Decimal
import Deferral.Proofs.Text.Lines
import Deferral.Proofs.Text.Numeral
import Deferral.Proofs.Text.Double
import Deferral.Proofs.Duration
import Deferral.Proofs.Config.Contribution
import Deferral.Proofs.Config.Precedence
import Deferral.Proofs.Config.Checking
import Deferral.Proofs.Toml.Value
import Deferral.Proofs.Toml.Section
import Deferral.Proofs.Config.RoundTrip
import Deferral.Proofs.System.Holding
import Deferral.Proofs.Global
import Deferral.Proofs.System.Isolation
import Deferral.Proofs.System.Progress
import Deferral.Proofs.System.Retention
import Deferral.Proofs.System.Blocking
import Deferral.Proofs.System.Timed
import Deferral.Proofs.System.Timeout
import Deferral.Proofs.System.Deadline
import Deferral.Proofs.Audit.Source
import Deferral.Proofs.Audit.Path
import Deferral.Proofs.Audit.Tree
import Deferral.Proofs.Audit.Scan
import Deferral.Proofs.Config.Numbers
import Deferral.Proofs.Config.Sufficiency
import Deferral.Proofs.Probe.Arguments
import Deferral.Proofs.Probe.Workers
import Deferral.Proofs.System.Quiescence
import Deferral.Proofs.Probe.Trials
import Deferral.Proofs.Probe.Printed
import Deferral.Proofs.Probe.Reporting
import Deferral.Proofs.Failure
