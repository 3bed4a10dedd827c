import Rehearsal.Main
import Rehearsal.Workspace
import Rehearsal.Proofs.Environment.Reference
import Rehearsal.Proofs.Placeholder
import Rehearsal.Proofs.Environment.Resolution
import Rehearsal.Proofs.Environment.Secrecy
import Rehearsal.Proofs.Environment.Declassification
import Rehearsal.Proofs.Run.Basic
import Rehearsal.Proofs.Run.Course
import Rehearsal.Proofs.Session.Container
import Rehearsal.Proofs.Session.Cleanup
import Rehearsal.Proofs.Environment.Locality
import Rehearsal.Proofs.Run.Moves
import Rehearsal.Proofs.Run.Writing
import Rehearsal.Proofs.Session.Deletion
import Rehearsal.Proofs.Compile.Scopes
import Rehearsal.Proofs.Compile.Step
import Rehearsal.Proofs.Compile.Definition
import Rehearsal.Proofs.Placeholder.Token
import Rehearsal.Proofs.Compile.Synthesis
import Rehearsal.Proofs.Compile.Demand
import Rehearsal.Proofs.Environment.Layers
import Rehearsal.Proofs.Environment.Patches
import Rehearsal.Proofs.Session.Supply
import Rehearsal.Proofs.Environment.Masking
import Rehearsal.Proofs.Json.PlainText
import Rehearsal.Proofs.Placeholder.Fixed
import Rehearsal.Proofs.Environment.Eager
import Rehearsal.Proofs.Compile.Stable
import Rehearsal.Proofs.Compile.Secrecy
import Rehearsal.Proofs.Compile.Script
import Rehearsal.Proofs.Compile.Binding
import Rehearsal.Proofs.Run.Failure
import Rehearsal.Proofs.Session.Disclosure
import Rehearsal.Proofs.Dict
import Rehearsal.Proofs.Infix
import Rehearsal.Proofs.Json.Compact
import Rehearsal.Proofs.Placeholder.Formed
import Rehearsal.Proofs.Environment.Leftover
import Rehearsal.Proofs.Request.Building
import Rehearsal.Proofs.Request.Template
import Rehearsal.Proofs.Request.Path
import Rehearsal.Proofs.Compile.Inheritance
import Rehearsal.Proofs.Session.Inheritance
import Rehearsal.Proofs.Run.Footprint
import Rehearsal.Proofs.Run.Capture
import Rehearsal.Proofs.Session.Isolation
import Rehearsal.Proofs.Session.Registry
import Rehearsal.Proofs.Session.Capture
import Rehearsal.Proofs.Compile.Outputs
import Rehearsal.Proofs.Session.Outputs
import Rehearsal.Proofs.Environment.Modes
import Rehearsal.Proofs.Workspace
import Rehearsal.Proofs.Run.Blame
import Rehearsal.Proofs.Session.Failure
import Rehearsal.Proofs.Compile.Isolation
import Rehearsal.Proofs.Compile.Naming
import Rehearsal.Proofs.Json.Fields
import Rehearsal.Proofs.Draft
import Rehearsal.Proofs.Compile.Culprit
import Rehearsal.Proofs.Json.Ordered
import Rehearsal.Proofs.Json.MergePatch
import Rehearsal.Proofs.Document
import Rehearsal.Proofs.Compile.Expectation
import Rehearsal.Proofs.Workspace.TakeOver
import Rehearsal.Proofs.Session.Overlay
import Rehearsal.Proofs.Template
import Rehearsal.Proofs.Path
import Rehearsal.Proofs.Operation.Index
import Rehearsal.Proofs.Workspace.Materialization
import Rehearsal.Proofs.Compile.Content
import Rehearsal.Proofs.Session.Content
import Rehearsal.Proofs.Variable
