import AsyncMarkers.Batch
import AsyncMarkers.Binding
import AsyncMarkers.CommandLine
import AsyncMarkers.Config
import AsyncMarkers.Config.File
import AsyncMarkers.Diagnostic
import AsyncMarkers.Disk.Basic
import AsyncMarkers.Disk.FileSystem
import AsyncMarkers.Disk.IoError
import AsyncMarkers.Disk.Path
import AsyncMarkers.Disk.Tree
import AsyncMarkers.Engine
import AsyncMarkers.History
import AsyncMarkers.Json.Printer
import AsyncMarkers.Json.Reader
import AsyncMarkers.Json.Token
import AsyncMarkers.Json.Value
import AsyncMarkers.Log
import AsyncMarkers.Main
import AsyncMarkers.Marker
import AsyncMarkers.Number.Double
import AsyncMarkers.Number.Numeral
import AsyncMarkers.Number.Shortest
import AsyncMarkers.Pattern.Basic
import AsyncMarkers.Pattern.CharSet
import AsyncMarkers.Pattern.Digit
import AsyncMarkers.Pattern.Parser
import AsyncMarkers.Pattern.Token
import AsyncMarkers.Proofs.Report
import AsyncMarkers.Proofs.Settle
import AsyncMarkers.Proofs.Subtree
import AsyncMarkers.Proofs.Treatment
import AsyncMarkers.Proofs.Walk
import AsyncMarkers.Rule.Basic
import AsyncMarkers.Rule.Call
import AsyncMarkers.Rule.Change
import AsyncMarkers.Rule.Declaration
import AsyncMarkers.Rule.Load
import AsyncMarkers.Rule.Node
import AsyncMarkers.Rule.Signature
import AsyncMarkers.Selection
import AsyncMarkers.Session
import AsyncMarkers.Text.LetterCase
import AsyncMarkers.Text.LowerCase
import AsyncMarkers.Tree.Basic
import AsyncMarkers.Tree.Decode
import AsyncMarkers.Tree.Encode
import AsyncMarkers.Tree.Load
import AsyncMarkers.Tree.Names
import AsyncMarkers.Tree.Recorder
import AsyncMarkers.Tree.Synthetic
import AsyncMarkers.Tree.Visit
import AsyncMarkers.Proofs.Verdict
import AsyncMarkers.Proofs.Pass
import AsyncMarkers.Proofs.NormalForm
import AsyncMarkers.Proofs.Tally
import AsyncMarkers.Proofs.Settled
import AsyncMarkers.Proofs.Reading
import AsyncMarkers.Proofs.UserCode
import AsyncMarkers.Proofs.SecondRun
import AsyncMarkers.Proofs.Summary
import AsyncMarkers.Proofs.Stray
import AsyncMarkers.Proofs.Growth
import AsyncMarkers.Proofs.Termination
import AsyncMarkers.Proofs.Comparison
import AsyncMarkers.Proofs.Completion
import AsyncMarkers.Proofs.Notes
import AsyncMarkers.Proofs.Limit
import AsyncMarkers.Proofs.Statistics
import AsyncMarkers.Proofs.Accounts
import AsyncMarkers.Proofs.Isolation
import AsyncMarkers.Proofs.Relabelling
import AsyncMarkers.Proofs.Renaming
import AsyncMarkers.Proofs.Positions
import AsyncMarkers.Proofs.Rounds
import AsyncMarkers.Proofs.RuleOrder
import AsyncMarkers.Proofs.JsonValue
import AsyncMarkers.Proofs.NodeCodec
import AsyncMarkers.Proofs.TreeCodec
import AsyncMarkers.Proofs.JsonNumber
import AsyncMarkers.Proofs.JsonText
import AsyncMarkers.Proofs.Files
import AsyncMarkers.Proofs.ReadBack
import AsyncMarkers.Proofs.Routes
import AsyncMarkers.Proofs.Directories
import AsyncMarkers.Proofs.PathNames
import AsyncMarkers.Proofs.Outputs
import AsyncMarkers.Proofs.Tour
import AsyncMarkers.Proofs.TourEffects
import AsyncMarkers.Proofs.Coverage
import AsyncMarkers.Proofs.Independence
import AsyncMarkers.Proofs.Comments
import AsyncMarkers.Proofs.Outline
import AsyncMarkers.Proofs.Interruption
import AsyncMarkers.Proofs.Recording
import AsyncMarkers.Proofs.SingleFile
import AsyncMarkers.Proofs.Bookkeeping
import AsyncMarkers.Proofs.Matching
import AsyncMarkers.Proofs.Selecting
import AsyncMarkers.Proofs.Plans
import AsyncMarkers.Proofs.Course
import AsyncMarkers.Proofs.Twins
