import LineScript.Host.Echo
import LineScript.Host.Scripted
import LineScript.Main
import LineScript.Proofs.Action
import LineScript.Proofs.Course
import LineScript.Proofs.Lifecycle
import LineScript.Proofs.Failure
import LineScript.Proofs.Delivery
import LineScript.Proofs.DryRun
import LineScript.Proofs.WriteAhead
import LineScript.Proofs.Transcript
import LineScript.Proofs.Truncation
import LineScript.Proofs.PassedOver
import LineScript.Proofs.Accounting
import LineScript.Proofs.ReadFailure
import LineScript.Proofs.Succession
import LineScript.Proofs.RoundTrip
import LineScript.Proofs.Cutting
import LineScript.Proofs.Boundary
import LineScript.Proofs.Locality
import LineScript.Proofs.Placeholder
import LineScript.Proofs.Waiting
import LineScript.Proofs.Grammar
import LineScript.Proofs.ClosedForm
import LineScript.Proofs.Canonical
import LineScript.Proofs.ChildInput
import LineScript.Proofs.Draining
import LineScript.Proofs.Lossless
import LineScript.Proofs.Shown
import LineScript.Proofs.EchoTwins
import LineScript.Proofs.Pipeline
import LineScript.Proofs.Reaping
import LineScript.Proofs.Variables
import LineScript.Proofs.Blame
import LineScript.Proofs.Layering
