import VmFleet.Address.Ip
import VmFleet.Address.Report
import VmFleet.Address.Socket
import VmFleet.Boot.Plan
import VmFleet.Boot.RunDirectory
import VmFleet.Boot.Signal
import VmFleet.Client.Call
import VmFleet.Client.Listing
import VmFleet.Client.Question
import VmFleet.Client.Session
import VmFleet.Client.Volume
import VmFleet.CommandLine.Command
import VmFleet.CommandLine.Grammar
import VmFleet.CommandLine.Help
import VmFleet.CommandLine.Reading
import VmFleet.Config.Basic
import VmFleet.Config.Load
import VmFleet.Config.Reading
import VmFleet.Config.Validation
import VmFleet.Error
import VmFleet.Files.Cause
import VmFleet.Files.Change
import VmFleet.Files.Layout
import VmFleet.Files.Path
import VmFleet.Files.Resolve
import VmFleet.Files.Tree
import VmFleet.Identity.Mac
import VmFleet.Identity.Uuid
import VmFleet.Images.Index
import VmFleet.Images.Store
import VmFleet.Keyed
import VmFleet.Log.Journal
import VmFleet.Log.Outlet
import VmFleet.Main
import VmFleet.Number.Binary64
import VmFleet.Number.Total
import VmFleet.Operation
import VmFleet.Program.Conversation
import VmFleet.Program.Run
import VmFleet.Program.Start
import VmFleet.Registry.Basic
import VmFleet.Registry.Identity
import VmFleet.Registry.Selection
import VmFleet.Rehearsal.Fleet
import VmFleet.Rehearsal.History
import VmFleet.Rehearsal.Link
import VmFleet.Rehearsal.Runner
import VmFleet.Release.Version
import VmFleet.Runner.Launch
import VmFleet.Runner.Output
import VmFleet.Shell.Arithmetic
import VmFleet.Shell.Command
import VmFleet.Shell.Formatted
import VmFleet.Shell.Run
import VmFleet.Shell.State
import VmFleet.Shell.Word
import VmFleet.Supervision.Admission
import VmFleet.Supervision.Daemon
import VmFleet.Supervision.Settings
import VmFleet.Supervision.Step
import VmFleet.Text.Blank
import VmFleet.Text.Decimal
import VmFleet.Text.Hex
import VmFleet.Text.Json
import VmFleet.Text.Reader
import VmFleet.Text.Split
import VmFleet.Text.Utf8
import VmFleet.Toml.Document
import VmFleet.Toml.Quoted
import VmFleet.Toml.Scalar
import VmFleet.Toml.Value
import VmFleet.Vm.Record
import VmFleet.Vm.State
import VmFleet.Proofs.Keyed
import VmFleet.Proofs.Registry
import VmFleet.Proofs.Text.Decode
import VmFleet.Proofs.Release.Order
import VmFleet.Proofs.Release.Spelling
import VmFleet.Proofs.Files.Path
import VmFleet.Proofs.Files.Removal
import VmFleet.Proofs.Files.Resolve
import VmFleet.Proofs.Files.Walk
import VmFleet.Proofs.Files.Joined
import VmFleet.Proofs.Files.Request
import VmFleet.Proofs.Files.Enumeration
import VmFleet.Proofs.Files.Grounded
import VmFleet.Proofs.Files.Canonical
import VmFleet.Proofs.Images.Survey
import VmFleet.Proofs.Images.Scan
import VmFleet.Proofs.Images.Rescan
import VmFleet.Proofs.Images.Plain
import VmFleet.Proofs.Images.Exact
import VmFleet.Proofs.Identity.Uuid
import VmFleet.Proofs.Identity.Candidates
import VmFleet.Proofs.Runner.Output
import VmFleet.Proofs.Rehearsal.Course
import VmFleet.Proofs.Rehearsal.History
import VmFleet.Proofs.Rehearsal.Outlook
import VmFleet.Proofs.Supervision.Identity
import VmFleet.Proofs.Rehearsal.Boots
import VmFleet.Proofs.Rehearsal.Success
import VmFleet.Proofs.Rehearsal.Runners
import VmFleet.Proofs.Rehearsal.Teardown
import VmFleet.Proofs.Client.Talk
import VmFleet.Proofs.Rehearsal.Patience
import VmFleet.Proofs.Supervision.Admission
import VmFleet.Proofs.Supervision.Ascent
import VmFleet.Proofs.Supervision.Ceiling
import VmFleet.Proofs.Supervision.Closing
import VmFleet.Proofs.Supervision.Reuse
import VmFleet.Proofs.Images.Clearing
import VmFleet.Proofs.Images.Requests
import VmFleet.Proofs.Images.Failure
import VmFleet.Proofs.Images.Interleaving
import VmFleet.Proofs.Images.Joining
import VmFleet.Proofs.Boot.Plan
import VmFleet.Proofs.Supervision.Surroundings
import VmFleet.Proofs.Supervision.Traceless
import VmFleet.Proofs.Supervision.Target
import VmFleet.Proofs.Images.Retention
import VmFleet.Proofs.Rehearsal.Fulfilment
import VmFleet.Proofs.Supervision.Console
import VmFleet.Proofs.Supervision.Signalling
import VmFleet.Proofs.Supervision.Sums
import VmFleet.Proofs.Identity.Mac
import VmFleet.Proofs.Address.Report
import VmFleet.Proofs.Log.Journal
import VmFleet.Proofs.Runner.Launch
import VmFleet.Proofs.Supervision.Deadline
import VmFleet.Proofs.Images.Depth
import VmFleet.Proofs.Client.Volume
import VmFleet.Proofs.CommandLine.Wish
