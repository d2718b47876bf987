import Sheetsmith.Text.Blank
import Sheetsmith.Text.Delimited
import Sheetsmith.Text.Fold
import Sheetsmith.Text.Hidden
import Sheetsmith.Text.Letter
import Sheetsmith.Text.Lowercase
import Sheetsmith.Text.Mark
import Sheetsmith.Text.Number
import Sheetsmith.Text.Pattern
import Sheetsmith.Text.Quoted
import Sheetsmith.Text.Range
import Sheetsmith.Text.Split
import Sheetsmith.Text.Utf8
import Sheetsmith.Text.Word
import Sheetsmith.Numeric.Binary
import Sheetsmith.Numeric.Decimal
import Sheetsmith.Numeric.Fixed
import Sheetsmith.Numeric.Remainder
import Sheetsmith.Color.Basic
import Sheetsmith.Color.Hex
import Sheetsmith.Color.Named
import Sheetsmith.Color.Read
import Sheetsmith.Sheet.Basic
import Sheetsmith.Sheet.Copy
import Sheetsmith.Sheet.Edit
import Sheetsmith.Sheet.Event
import Sheetsmith.Sheet.Forest
import Sheetsmith.Sheet.Parse
import Sheetsmith.Sheet.Render
import Sheetsmith.Sheet.Walk
import Sheetsmith.Value.Basic
import Sheetsmith.Value.Color
import Sheetsmith.Value.FontWeight
import Sheetsmith.Value.Length
import Sheetsmith.Value.Position
import Sheetsmith.Vendor.Basic
import Sheetsmith.Vendor.Expand
import Sheetsmith.Vendor.Gradient
import Sheetsmith.Vendor.Table
import Sheetsmith.Optimize.Basic
import Sheetsmith.Optimize.Merge
import Sheetsmith.Optimize.Prune
import Sheetsmith.Optimize.Shorthand
import Sheetsmith.Usage.Clean
import Sheetsmith.Usage.Report
import Sheetsmith.Usage.Table
import Sheetsmith.Usage.Token
import Sheetsmith.Files.Basic
import Sheetsmith.Files.Collect
import Sheetsmith.Files.Tree
import Sheetsmith.Press
import Sheetsmith.Cli.Arguments
import Sheetsmith.Cli.Measure
import Sheetsmith.Cli.Run
import Sheetsmith.Main
import Sheetsmith.Proofs.Text.Trim
import Sheetsmith.Proofs.Text.Parts
import Sheetsmith.Proofs.Text.Pieces
import Sheetsmith.Proofs.Text.Runs
import Sheetsmith.Proofs.Text.Lexing
import Sheetsmith.Proofs.Text.Loose
import Sheetsmith.Proofs.Sheet.Buffer
import Sheetsmith.Proofs.Sheet.Scan
import Sheetsmith.Proofs.Sheet.Lookup
import Sheetsmith.Proofs.Sheet.Preorder
import Sheetsmith.Proofs.Sheet.Outline
import Sheetsmith.Proofs.Sheet.Writing
import Sheetsmith.Proofs.Sheet.Attach
import Sheetsmith.Proofs.Sheet.Building
import Sheetsmith.Proofs.Sheet.Reading
import Sheetsmith.Proofs.Sheet.Composition
import Sheetsmith.Proofs.Sheet.RoundTrip
import Sheetsmith.Proofs.Sheet.NormalForm
import Sheetsmith.Proofs.Sheet.Growth
import Sheetsmith.Proofs.Sheet.Copying
import Sheetsmith.Proofs.Sheet.Running
import Sheetsmith.Proofs.Sheet.Ancestry
import Sheetsmith.Proofs.Vendor.Maintain
import Sheetsmith.Proofs.Vendor.Placing
import Sheetsmith.Proofs.Vendor.Additive
import Sheetsmith.Proofs.Vendor.Around
import Sheetsmith.Proofs.Vendor.Demands
import Sheetsmith.Proofs.Vendor.Calls
import Sheetsmith.Proofs.Vendor.Gradients
import Sheetsmith.Proofs.Vendor.Filling
import Sheetsmith.Proofs.Vendor.FilterText
import Sheetsmith.Proofs.Vendor.Table
import Sheetsmith.Proofs.Vendor.Wanted
import Sheetsmith.Proofs.Vendor.Rank
import Sheetsmith.Proofs.Vendor.Settled
import Sheetsmith.Proofs.Vendor.Grafting
import Sheetsmith.Proofs.Vendor.FilterTwin
import Sheetsmith.Proofs.Vendor.GradientChains
import Sheetsmith.Proofs.Vendor.Visiting
import Sheetsmith.Proofs.Vendor.FixedPoint
import Sheetsmith.Proofs.Sheet.Document
import Sheetsmith.Proofs.Sheet.Duplicates
import Sheetsmith.Proofs.Sheet.History
import Sheetsmith.Proofs.Optimize.Passes
import Sheetsmith.Proofs.Vendor.Rounds
import Sheetsmith.Proofs.Vendor.Progress
import Sheetsmith.Proofs.Pressing
import Sheetsmith.Proofs.Usage.Counts
import Sheetsmith.Proofs.Sheet.Row
import Sheetsmith.Proofs.Usage.Cleaning
import Sheetsmith.Proofs.Usage.Literals
import Sheetsmith.Proofs.Usage.Chains
import Sheetsmith.Proofs.Usage.Project
import Sheetsmith.Proofs.Usage.Strategies
import Sheetsmith.Proofs.Text.Quotable
import Sheetsmith.Proofs.Value.Strings
import Sheetsmith.Proofs.Value.Shrinking
import Sheetsmith.Proofs.Sheet.Cost
import Sheetsmith.Proofs.Sheet.Slimming
import Sheetsmith.Proofs.Sheet.Headers
import Sheetsmith.Proofs.Optimize.Shorthands
import Sheetsmith.Proofs.Optimize.Shrinking
import Sheetsmith.Proofs.Text.Ascii
import Sheetsmith.Proofs.Text.Rewriting
import Sheetsmith.Proofs.Text.Lowering
import Sheetsmith.Proofs.Sheet.Flattening
import Sheetsmith.Proofs.Value.Lengths
import Sheetsmith.Proofs.Value.Measures
import Sheetsmith.Proofs.Value.Sides
import Sheetsmith.Proofs.Optimize.Merging
import Sheetsmith.Proofs.Optimize.Rules
import Sheetsmith.Proofs.Optimize.Boxes
import Sheetsmith.Proofs.Optimize.Rounds
import Sheetsmith.Proofs.Optimize.Cascade
import Sheetsmith.Proofs.Sheet.Twins
import Sheetsmith.Proofs.Optimize.Everywhere
import Sheetsmith.Proofs.Optimize.Barren
import Sheetsmith.Proofs.Optimize.Tidy
import Sheetsmith.Proofs.Optimize.Saturation
import Sheetsmith.Proofs.Optimize.Pruning
import Sheetsmith.Proofs.Optimize.Resting
import Sheetsmith.Proofs.Optimize.Stable
import Sheetsmith.Proofs.Sheet.Walking
import Sheetsmith.Proofs.Sheet.Numbering
import Sheetsmith.Proofs.Usage.Recleaning
import Sheetsmith.Proofs.Value.Stages
import Sheetsmith.Proofs.Value.Tokens
import Sheetsmith.Proofs.Value.Recoloring
import Sheetsmith.Proofs.Value.Verbatim
import Sheetsmith.Proofs.Value.Sweeping
import Sheetsmith.Proofs.Color.Characters
import Sheetsmith.Proofs.Value.Sparing
import Sheetsmith.Proofs.Value.Untouched
import Sheetsmith.Proofs.Vendor.Blocks
import Sheetsmith.Proofs.Vendor.Names
import Sheetsmith.Proofs.Vendor.Copies
import Sheetsmith.Proofs.Vendor.Renaming
import Sheetsmith.Proofs.Optimize.Absorbing
import Sheetsmith.Proofs.Optimize.Joining
