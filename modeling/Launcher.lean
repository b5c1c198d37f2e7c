import Launcher.Archive.Bzip2
import Launcher.Archive.CodePage
import Launcher.Archive.Fault
import Launcher.Archive.Inflate
import Launcher.Archive.Lzma
import Launcher.Archive.Member
import Launcher.Archive.Natives
import Launcher.Archive.PrefixCode
import Launcher.Archive.Reading
import Launcher.Bytes
import Launcher.Commands.Basic
import Launcher.Commands.Execution
import Launcher.Commands.Report
import Launcher.Commands.Search
import Launcher.Commands.Start
import Launcher.Digest.Crc32
import Launcher.Digest.Integrity
import Launcher.Digest.Sha1
import Launcher.Download.Entry
import Launcher.Download.Queue
import Launcher.Download.Result
import Launcher.Download.Worker
import Launcher.Fault
import Launcher.Files.Access
import Launcher.Files.Directories
import Launcher.Files.OpenFile
import Launcher.Files.Path
import Launcher.Files.SystemError
import Launcher.Files.Tree
import Launcher.Identity
import Launcher.InputStream
import Launcher.Install.Event
import Launcher.Install.Plan
import Launcher.Install.Steps
import Launcher.Json.Basic
import Launcher.Json.Parser
import Launcher.Json.Printer
import Launcher.Launch.Argument
import Launcher.Launch.CommandLine
import Launcher.Launch.Phase
import Launcher.Launch.Process
import Launcher.Launch.Session
import Launcher.Launch.Template
import Launcher.Main
import Launcher.Metadata.Document
import Launcher.Metadata.Library
import Launcher.Metadata.Machine
import Launcher.Metadata.Place
import Launcher.Metadata.Rule
import Launcher.Network.Basic
import Launcher.Network.Fetch
import Launcher.Network.Timeout
import Launcher.Number.Amount
import Launcher.Number.Binary64
import Launcher.Number.Digits
import Launcher.Number.Printed
import Launcher.Number.Reading
import Launcher.Number.Shortest
import Launcher.Options.Basic
import Launcher.Options.Commands
import Launcher.Options.Reading
import Launcher.Options.Setting
import Launcher.Options.Usage
import Launcher.Options.Word
import Launcher.Proofs.Action
import Launcher.Proofs.Archive.Confinement
import Launcher.Proofs.Archive.Contents
import Launcher.Proofs.Archive.Extraction
import Launcher.Proofs.Archive.Repetition
import Launcher.Proofs.Archive.Reporting
import Launcher.Proofs.Archive.Rereading
import Launcher.Proofs.Archive.Turns
import Launcher.Proofs.Archive.Unpacking
import Launcher.Proofs.Commands.Ending
import Launcher.Proofs.Commands.Faults
import Launcher.Proofs.Digest.Blocks
import Launcher.Proofs.Download.Agreement
import Launcher.Proofs.Download.Calls
import Launcher.Proofs.Download.Circling
import Launcher.Proofs.Download.Connections
import Launcher.Proofs.Download.Crash
import Launcher.Proofs.Download.Ending
import Launcher.Proofs.Download.Hops
import Launcher.Proofs.Download.Isolation
import Launcher.Proofs.Download.Likeness
import Launcher.Proofs.Download.Listing
import Launcher.Proofs.Download.Order
import Launcher.Proofs.Download.Outcome
import Launcher.Proofs.Download.Receipt
import Launcher.Proofs.Download.Redirection
import Launcher.Proofs.Download.Run
import Launcher.Proofs.Download.Sharing
import Launcher.Proofs.Download.Success
import Launcher.Proofs.Download.Truncation
import Launcher.Proofs.Download.Turn
import Launcher.Proofs.Download.Verdict
import Launcher.Proofs.Files.Alteration
import Launcher.Proofs.Files.Changes
import Launcher.Proofs.Files.Content
import Launcher.Proofs.Files.Filling
import Launcher.Proofs.Files.Likeness
import Launcher.Proofs.Files.Location
import Launcher.Proofs.Files.Making
import Launcher.Proofs.Files.Presence
import Launcher.Proofs.Files.Putting
import Launcher.Proofs.Files.Retention
import Launcher.Proofs.Install.Alteration
import Launcher.Proofs.Install.Call
import Launcher.Proofs.Install.Confinement
import Launcher.Proofs.Install.Digests
import Launcher.Proofs.Install.Finishing
import Launcher.Proofs.Install.Inventory
import Launcher.Proofs.Install.Laying
import Launcher.Proofs.Install.Layout
import Launcher.Proofs.Install.Likeness
import Launcher.Proofs.Install.Placement
import Launcher.Proofs.Install.Planning
import Launcher.Proofs.Install.Postcondition
import Launcher.Proofs.Install.Preparation
import Launcher.Proofs.Install.Protocol
import Launcher.Proofs.Install.Reextraction
import Launcher.Proofs.Install.Reinstallation
import Launcher.Proofs.Install.Rejection
import Launcher.Proofs.Install.Replanning
import Launcher.Proofs.Install.Retry
import Launcher.Proofs.Install.Server
import Launcher.Proofs.Json.Numbers
import Launcher.Proofs.Json.Regular
import Launcher.Proofs.Json.Rereading
import Launcher.Proofs.Json.Strings
import Launcher.Proofs.Launch.Collapsing
import Launcher.Proofs.Launch.Denotation
import Launcher.Proofs.Launch.Evaluation
import Launcher.Proofs.Launch.Grammar
import Launcher.Proofs.Launch.Identity
import Launcher.Proofs.Launch.Inclusion
import Launcher.Proofs.Launch.Layout
import Launcher.Proofs.Launch.Legacy
import Launcher.Proofs.Launch.Quoting
import Launcher.Proofs.Launch.Template
import Launcher.Proofs.Launch.Watching
import Launcher.Proofs.Metadata.Artifacts
import Launcher.Proofs.Metadata.Digests
import Launcher.Proofs.Metadata.Libraries
import Launcher.Proofs.Metadata.Places
import Launcher.Proofs.Metadata.Rules
import Launcher.Proofs.Network.Certification
import Launcher.Proofs.Network.Failure
import Launcher.Proofs.Network.Pursuit
import Launcher.Proofs.Number.Digits
import Launcher.Proofs.Number.Rounding
import Launcher.Proofs.Number.Shortest
import Launcher.Proofs.Repetition
import Launcher.Proofs.Terminal.Columns
import Launcher.Proofs.Terminal.Screen
import Launcher.Proofs.Terminal.Tasks
import Launcher.Proofs.Text.Pieces
import Launcher.Proofs.Text.Utf8
import Launcher.Proofs.Url.Address
import Launcher.Proofs.Url.Parsing
import Launcher.Proofs.Url.Resolution
import Launcher.Proofs.Url.Syntax
import Launcher.Proofs.Url.Target
import Launcher.Proofs.Versions.Coherence
import Launcher.Proofs.Versions.Damage
import Launcher.Proofs.Versions.Fallback
import Launcher.Proofs.Versions.Likeness
import Launcher.Proofs.Versions.Lookup
import Launcher.Proofs.Versions.Outcome
import Launcher.Proofs.Versions.Pursuit
import Launcher.Proofs.Versions.Repetition
import Launcher.Proofs.Versions.Resolution
import Launcher.Proofs.Versions.Snapshot
import Launcher.Proofs.World
import Launcher.Proofs.World.Repetition
import Launcher.Proofs.World.Writing
import Launcher.Terminal.Display
import Launcher.Terminal.Message
import Launcher.Terminal.Output
import Launcher.Terminal.Table
import Launcher.Text.Alphanumeric
import Launcher.Text.Blank
import Launcher.Text.Capital
import Launcher.Text.Cased
import Launcher.Text.CharSet
import Launcher.Text.Encoding
import Launcher.Text.Lower
import Launcher.Text.Pattern
import Launcher.Text.Pattern.Parser
import Launcher.Text.Pieces
import Launcher.Text.Printable
import Launcher.Text.Quoted
import Launcher.Text.Unencodable
import Launcher.Url.Address
import Launcher.Url.Basic
import Launcher.Url.Join
import Launcher.Versions.Index
import Launcher.Versions.Loading
import Launcher.World
