import PodConsole.Text.Decoder
import PodConsole.Text.Blank
import PodConsole.Text.Hex
import PodConsole.Decimal.Digits
import PodConsole.Decimal.Shortest
import PodConsole.Json.Numeral
import PodConsole.Json.Reader
import PodConsole.Json.Writer
import PodConsole.Text.Quoted
import PodConsole.Text.Misfit
import PodConsole.Wire.Command
import PodConsole.Exec.Attach
import PodConsole.Exec.Target
import PodConsole.Kubectl.Arguments
import PodConsole.Kubectl.Line
import PodConsole.Kubectl.Warmup
import PodConsole.Toml.Node
import PodConsole.Toml.Quote
import PodConsole.Toml.Document
import PodConsole.Settings.Address
import PodConsole.Settings.Basic
import PodConsole.Settings.Check
import PodConsole.Settings.Document
import PodConsole.Files.Tree
import PodConsole.Settings.Store
import PodConsole.Session.Basic
import PodConsole.Session.Registry
import PodConsole.Rehearsal.Bench
import PodConsole.CommandLine.Arguments
import PodConsole.CommandLine.Run
import PodConsole.Gateway.Basic
import PodConsole.Gateway.Front
import PodConsole.Gateway.Run
import PodConsole.Gateway.Making
import PodConsole.Gateway.Service
import PodConsole.Gateway.Host
import PodConsole.Kubectl.Attempt
import PodConsole.Main
import PodConsole.Proofs.Text.Streaming
import PodConsole.Proofs.Text.Beginnings
import PodConsole.Proofs.Text.Cuts
import PodConsole.Rehearsal.Container
import PodConsole.Rehearsal.Desk
import PodConsole.Rehearsal.House
import PodConsole.Rehearsal.Shift
import PodConsole.Rehearsal.Solo
import PodConsole.Rehearsal.Trial
import PodConsole.Rehearsal.Visit
import PodConsole.Kubectl.Exchange
import PodConsole.Kubectl.Launch
import PodConsole.Kubectl.Call
import PodConsole.Proofs.Kubectl.Moves
import PodConsole.Proofs.Kubectl.Output
import PodConsole.Proofs.Kubectl.Exchanges
import PodConsole.Proofs.Kubectl.Keystrokes
import PodConsole.Proofs.Session.Sending
import PodConsole.Proofs.Kubectl.Delivery
import PodConsole.Proofs.Kubectl.Fallback
import PodConsole.Proofs.Kubectl.Launching
import PodConsole.Proofs.Rehearsal.Desk
import PodConsole.Session.Course
import PodConsole.Proofs.Session.Lifecycle
import PodConsole.Proofs.Session.Roster
import PodConsole.Proofs.Session.Pushing
import PodConsole.Proofs.Session.Replacing
import PodConsole.Proofs.Session.Seats
import PodConsole.Proofs.Session.Sizes
import PodConsole.Proofs.Gateway.Turns
import PodConsole.Proofs.Gateway.Changes
import PodConsole.Proofs.Gateway.Listing
import PodConsole.Proofs.Gateway.Speakers
import PodConsole.Proofs.Gateway.Sparing
import PodConsole.Proofs.Gateway.Sameness
import PodConsole.Proofs.Gateway.Handshake
import PodConsole.Proofs.Gateway.Isolation
import PodConsole.Proofs.Gateway.Routing
import PodConsole.Proofs.Kubectl.Screens
import PodConsole.Proofs.Gateway.Resizing
import PodConsole.Proofs.Gateway.Hosting
import PodConsole.Proofs.Json.Grammar
import PodConsole.Proofs.Session.Refusals
import PodConsole.Proofs.Json.Numbers
import PodConsole.Proofs.Json.Strings
import PodConsole.Proofs.Json.Reading
import PodConsole.Proofs.Decimal.Digits
import PodConsole.Proofs.Kubectl.Calls
import PodConsole.Proofs.Json.Writing
import PodConsole.Proofs.Wire.Members
import PodConsole.Proofs.Wire.Envelopes
import PodConsole.Proofs.Toml.Strings
import PodConsole.Proofs.Toml.Lines
import PodConsole.Proofs.Toml.Sections
import PodConsole.Proofs.Settings.RoundTrip
import PodConsole.Kubectl.Watch
import PodConsole.Proofs.Gateway.Serving
import PodConsole.Proofs.Kubectl.Verdicts
import PodConsole.Proofs.Kubectl.Signs
import PodConsole.Proofs.Session.Admission
import PodConsole.Proofs.Wire.Commands
import PodConsole.Proofs.Log.Pumping
import PodConsole.Proofs.Session.Outcomes
import PodConsole.Proofs.Rehearsal.House
import PodConsole.Proofs.Gateway.Starting
import PodConsole.Proofs.Exec.Choosing
import PodConsole.Proofs.Files.Trees
import PodConsole.Proofs.Settings.Keeping
import PodConsole.Proofs.Toml.Building
import PodConsole.Proofs.Settings.Overlay
import PodConsole.Proofs.Settings.Layers
import PodConsole.Proofs.Settings.Checks
import PodConsole.Proofs.Session.Rooms
import PodConsole.Proofs.Gateway.Furnishing
