import BootVolume.App
import BootVolume.CommandLine.Complaint
import BootVolume.CommandLine.Help
import BootVolume.CommandLine.Option
import BootVolume.CommandLine.Reader
import BootVolume.Config
import BootVolume.Console
import BootVolume.Decimal.Double
import BootVolume.Executor
import BootVolume.Failure
import BootVolume.Files.Listing
import BootVolume.Files.Name
import BootVolume.Files.Operations
import BootVolume.Files.Request
import BootVolume.Files.Resolve
import BootVolume.Files.Tree
import BootVolume.Hypervisor
import BootVolume.Invocation
import BootVolume.Layout
import BootVolume.Main
import BootVolume.Manifest.Package
import BootVolume.Manifest.Scan
import BootVolume.Path
import BootVolume.Process.Child
import BootVolume.Process.SearchPath
import BootVolume.Program
import BootVolume.Rehearsal
import BootVolume.Script.Arithmetic
import BootVolume.Script.Builtin
import BootVolume.Script.Command
import BootVolume.Script.Condition
import BootVolume.Script.Fields
import BootVolume.Script.Interpreter
import BootVolume.Script.Pattern
import BootVolume.Script.Printing
import BootVolume.Script.Programs
import BootVolume.Script.Reader
import BootVolume.Script.Redirect
import BootVolume.Script.Run
import BootVolume.Script.State
import BootVolume.Snapshot
import BootVolume.SystemError
import BootVolume.Tasks
import BootVolume.Text.Blank
import BootVolume.Text.Lines
import BootVolume.Text.Pieces
import BootVolume.Text.Quoted
import BootVolume.Text.Unprintable
import BootVolume.Text.Utf8
import BootVolume.Text.Visible
import BootVolume.Toml.Document
import BootVolume.Toml.Node
import BootVolume.Toml.Reader
import BootVolume.Toml.Scalar
import BootVolume.Toml.Value
import BootVolume.Trace
import BootVolume.Volume
import BootVolume.Proofs.Job
import BootVolume.Proofs.Plan
import BootVolume.Proofs.Task
import BootVolume.Proofs.ChildFailure
import BootVolume.Proofs.CommandLine
import BootVolume.Proofs.DryRun
import BootVolume.Proofs.Spelling
import BootVolume.Proofs.Descent
import BootVolume.Proofs.Staging
import BootVolume.Proofs.Sources
import BootVolume.Proofs.Places
import BootVolume.Proofs.Parents
import BootVolume.Proofs.Passage
import BootVolume.Proofs.Delivery
import BootVolume.Proofs.Advancing
import BootVolume.Proofs.Contents
import BootVolume.Proofs.Preserving
import BootVolume.Proofs.Shown
import BootVolume.Proofs.Footprint
import BootVolume.Proofs.Removing
import BootVolume.Proofs.Undoing
import BootVolume.Proofs.Rereading
import BootVolume.Proofs.Agenda
import BootVolume.Proofs.Pairing
import BootVolume.Proofs.Retry
import BootVolume.Proofs.Search
import BootVolume.Proofs.Announcing
import BootVolume.Proofs.Foretelling
import BootVolume.Proofs.Prediction
import BootVolume.Proofs.Arrangement
import BootVolume.Proofs.Launching
import BootVolume.Proofs.Anchoring
import BootVolume.Proofs.Inside
import BootVolume.Proofs.Reordering
import BootVolume.Proofs.Visiting
import BootVolume.Proofs.Switches
import BootVolume.Proofs.Copying
import BootVolume.Proofs.Quieting
import BootVolume.Proofs.Shelving
import BootVolume.Proofs.Stocking
import BootVolume.Proofs.Restaging
import BootVolume.Proofs.Arguments
import BootVolume.Proofs.Lines
import BootVolume.Proofs.Scanning
import BootVolume.Proofs.Ordinary
import BootVolume.Proofs.Outputs
import BootVolume.Proofs.Composing
import BootVolume.Proofs.Discovering
import BootVolume.Proofs.Ascending
import BootVolume.Proofs.Clearing
import BootVolume.Proofs.Omitting
import BootVolume.Proofs.Opening
