import DocCoverage.Category
import DocCoverage.Check
import DocCoverage.Collect
import DocCoverage.Declaration
import DocCoverage.Disk
import DocCoverage.Documents
import DocCoverage.Fault
import DocCoverage.FileSystem.Node
import DocCoverage.FileSystem.Resolve
import DocCoverage.FileSystem.View
import DocCoverage.Identifiers
import DocCoverage.Inventory
import DocCoverage.Invocation
import DocCoverage.Json
import DocCoverage.Layout
import DocCoverage.Log.Directive
import DocCoverage.Log.Event
import DocCoverage.Log.Filter
import DocCoverage.Log.Traced
import DocCoverage.Log.Value
import DocCoverage.Main
import DocCoverage.Matcher
import DocCoverage.Mention
import DocCoverage.Overlay.Key
import DocCoverage.Overlay.Load
import DocCoverage.Overlay.Reader
import DocCoverage.Path
import DocCoverage.Pattern.Atom
import DocCoverage.Pattern.Bracket
import DocCoverage.Pattern.Depth
import DocCoverage.Pattern.Manner
import DocCoverage.Pattern.Opening
import DocCoverage.Pattern.Reading
import DocCoverage.Program
import DocCoverage.Proofs.AddedLines
import DocCoverage.Proofs.Agreement
import DocCoverage.Proofs.Arguments
import DocCoverage.Proofs.Ascending
import DocCoverage.Proofs.ByteOrder
import DocCoverage.Proofs.Channels
import DocCoverage.Proofs.Collectors
import DocCoverage.Proofs.CommandLine.Grammar
import DocCoverage.Proofs.CommandLine.Reading
import DocCoverage.Proofs.CommandLine.Requests
import DocCoverage.Proofs.CommandLine.Shape
import DocCoverage.Proofs.CommandLine.Storing
import DocCoverage.Proofs.Contract
import DocCoverage.Proofs.Coverage
import DocCoverage.Proofs.Cuts
import DocCoverage.Proofs.Declarations
import DocCoverage.Proofs.DeclaredNames
import DocCoverage.Proofs.Evaluation
import DocCoverage.Proofs.Findings
import DocCoverage.Proofs.FirstFault
import DocCoverage.Proofs.Inputs
import DocCoverage.Proofs.Json.Grammar
import DocCoverage.Proofs.Json.Printed
import DocCoverage.Proofs.Json.Reader
import DocCoverage.Proofs.Json.Reading
import DocCoverage.Proofs.Lines
import DocCoverage.Proofs.LoadedLayout
import DocCoverage.Proofs.LogSetUp
import DocCoverage.Proofs.Logging
import DocCoverage.Proofs.Matching
import DocCoverage.Proofs.Modes
import DocCoverage.Proofs.NamingConvention
import DocCoverage.Proofs.Needed
import DocCoverage.Proofs.Occurrence
import DocCoverage.Proofs.Outcome
import DocCoverage.Proofs.Overlay.Choice
import DocCoverage.Proofs.Overlay.Decoding
import DocCoverage.Proofs.Overlay.Entries
import DocCoverage.Proofs.Overlay.Machine
import DocCoverage.Proofs.Overlay.Residue
import DocCoverage.Proofs.Overlay.Spelling
import DocCoverage.Proofs.Overlay.Stray
import DocCoverage.Proofs.Overlay.Strings
import DocCoverage.Proofs.OwnLine
import DocCoverage.Proofs.Reached
import DocCoverage.Proofs.Relisted
import DocCoverage.Proofs.Relocation
import DocCoverage.Proofs.Rendering
import DocCoverage.Proofs.Results
import DocCoverage.Proofs.ShallowScan
import DocCoverage.Proofs.Sources
import DocCoverage.Proofs.Stems
import DocCoverage.Proofs.Words
import DocCoverage.Report
import DocCoverage.Scan
import DocCoverage.Text.Alphanumeric
import DocCoverage.Text.Blank
import DocCoverage.Text.Hexadecimal
import DocCoverage.Text.LetterTable
import DocCoverage.Text.Ranges
import DocCoverage.Text.Utf8
import DocCoverage.Text.Word
import DocCoverage.Text.WordTable
