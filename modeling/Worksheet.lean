import Worksheet.Block.Basic
import Worksheet.Block.Outline
import Worksheet.Block.Sections
import Worksheet.Call.Basic
import Worksheet.Call.Definition
import Worksheet.Call.Parser
import Worksheet.Call.Quoted
import Worksheet.Call.Scanner
import Worksheet.Chars.Alphabetic
import Worksheet.Chars.Basic
import Worksheet.Chars.Blank
import Worksheet.Chars.Cased
import Worksheet.Chars.Digits
import Worksheet.Chars.Lowercase
import Worksheet.Chars.Ranges
import Worksheet.Command.Basic
import Worksheet.Command.Options
import Worksheet.Command.Printed
import Worksheet.Command.Run
import Worksheet.Content.Basic
import Worksheet.Content.Categorize
import Worksheet.Content.Error
import Worksheet.Content.FillBlank
import Worksheet.Content.Line
import Worksheet.Content.Matching
import Worksheet.Content.MultipleChoice
import Worksheet.Content.Ordering
import Worksheet.Content.Selector
import Worksheet.Content.Validation
import Worksheet.Decimal.Layout
import Worksheet.Decimal.Reader
import Worksheet.Decimal.Shortest
import Worksheet.Diagnostic
import Worksheet.Engine
import Worksheet.Eval.Builtin
import Worksheet.Eval.Context
import Worksheet.Eval.Error
import Worksheet.Eval.Functions
import Worksheet.Eval.Material
import Worksheet.Eval.Variables
import Worksheet.Exercise
import Worksheet.Field.Basic
import Worksheet.Field.Config
import Worksheet.Field.Metadata
import Worksheet.Files
import Worksheet.Fixture.Basic
import Worksheet.Fixture.Expectation
import Worksheet.Fixture.FrontMatter
import Worksheet.Fixture.Suite
import Worksheet.Json.Basic
import Worksheet.Json.Decode
import Worksheet.Json.Encode
import Worksheet.Json.Exercise
import Worksheet.Json.Reader
import Worksheet.Keyed
import Worksheet.Kind.Basic
import Worksheet.Kind.Builtin
import Worksheet.Kind.Registry
import Worksheet.Main
import Worksheet.Markdown.Blocks
import Worksheet.Markdown.Info
import Worksheet.Markdown.Line
import Worksheet.Marker
import Worksheet.Outcome
import Worksheet.Proofs.Block.Braces
import Worksheet.Proofs.Block.Index
import Worksheet.Proofs.Block.Lines
import Worksheet.Proofs.Block.Outline
import Worksheet.Proofs.Block.Partition
import Worksheet.Proofs.Block.Places
import Worksheet.Proofs.Block.Sections
import Worksheet.Proofs.Block.Segments
import Worksheet.Proofs.Block.Stands
import Worksheet.Proofs.Call.Arguments
import Worksheet.Proofs.Call.Brackets
import Worksheet.Proofs.Call.Cut
import Worksheet.Proofs.Call.Faults
import Worksheet.Proofs.Call.Fragments
import Worksheet.Proofs.Call.Identifier
import Worksheet.Proofs.Call.Nesting
import Worksheet.Proofs.Call.Plain
import Worksheet.Proofs.Call.Spans
import Worksheet.Proofs.Categorize.Filled
import Worksheet.Proofs.Categorize.RoundTrip
import Worksheet.Proofs.Chars.AsciiCase
import Worksheet.Proofs.Chars.Bytes
import Worksheet.Proofs.Chars.Lowercase
import Worksheet.Proofs.Chars.Pieces
import Worksheet.Proofs.Chars.Split
import Worksheet.Proofs.Chars.Trim
import Worksheet.Proofs.Chars.Words
import Worksheet.Proofs.Checked.Access
import Worksheet.Proofs.Checked.Call
import Worksheet.Proofs.Checked.Content
import Worksheet.Proofs.Checked.Engine
import Worksheet.Proofs.Checked.Eval
import Worksheet.Proofs.Checked.Fields
import Worksheet.Proofs.Checked.Functions
import Worksheet.Proofs.Checked.Kinds
import Worksheet.Proofs.Checked.Marker
import Worksheet.Proofs.Checked.Material
import Worksheet.Proofs.Checked.Outline
import Worksheet.Proofs.Checked.Placed
import Worksheet.Proofs.Checked.Random
import Worksheet.Proofs.Checked.Rendering
import Worksheet.Proofs.Checked.Scan
import Worksheet.Proofs.Checked.Scanner
import Worksheet.Proofs.Checked.Sections
import Worksheet.Proofs.Content.Reread
import Worksheet.Proofs.Engine.Accounts
import Worksheet.Proofs.Engine.Blocks
import Worksheet.Proofs.Engine.Builtin
import Worksheet.Proofs.Engine.Exercise
import Worksheet.Proofs.Engine.Installation
import Worksheet.Proofs.Engine.Integrity
import Worksheet.Proofs.Engine.Isolation
import Worksheet.Proofs.Engine.Places
import Worksheet.Proofs.Eval.Alike
import Worksheet.Proofs.Eval.Builtin
import Worksheet.Proofs.Eval.Chain
import Worksheet.Proofs.Eval.Events
import Worksheet.Proofs.Eval.History
import Worksheet.Proofs.Eval.Masking
import Worksheet.Proofs.Eval.Memo
import Worksheet.Proofs.Eval.Observed
import Worksheet.Proofs.Eval.Plain
import Worksheet.Proofs.Eval.Randomize
import Worksheet.Proofs.Eval.Settled
import Worksheet.Proofs.Eval.Splice
import Worksheet.Proofs.Eval.Watched
import Worksheet.Proofs.Field.Items
import Worksheet.Proofs.Field.Pieces
import Worksheet.Proofs.Field.Verbatim
import Worksheet.Proofs.FillBlank.Placed
import Worksheet.Proofs.FillBlank.RoundTrip
import Worksheet.Proofs.FillBlank.Tokens
import Worksheet.Proofs.Fixture.FrontMatter
import Worksheet.Proofs.Inert.Engine
import Worksheet.Proofs.Keyed
import Worksheet.Proofs.Kind.Checks
import Worksheet.Proofs.Kind.Detection
import Worksheet.Proofs.Kind.Dispatch
import Worksheet.Proofs.Kind.Faults
import Worksheet.Proofs.Kind.Illustrations
import Worksheet.Proofs.Kind.Recognition
import Worksheet.Proofs.Kind.Registry
import Worksheet.Proofs.Kind.Saving
import Worksheet.Proofs.Kind.Tags
import Worksheet.Proofs.Kind.Variation
import Worksheet.Proofs.Layout.Engine
import Worksheet.Proofs.Layout.Lines
import Worksheet.Proofs.Layout.Outline
import Worksheet.Proofs.Marker.Decorators
import Worksheet.Proofs.Marker.Extract
import Worksheet.Proofs.Marker.Settled
import Worksheet.Proofs.Matching.RoundTrip
import Worksheet.Proofs.Matching.Script
import Worksheet.Proofs.Matching.Written
import Worksheet.Proofs.Move.Basic
import Worksheet.Proofs.Move.Blocks
import Worksheet.Proofs.Move.Content
import Worksheet.Proofs.Move.Diagnostics
import Worksheet.Proofs.Move.Kinds
import Worksheet.Proofs.Move.Lines
import Worksheet.Proofs.Move.Material
import Worksheet.Proofs.Move.Outline
import Worksheet.Proofs.MultipleChoice.Question
import Worksheet.Proofs.MultipleChoice.RoundTrip
import Worksheet.Proofs.Ordering.RoundTrip
import Worksheet.Proofs.Outcome
import Worksheet.Proofs.Random.Rejection
import Worksheet.Proofs.Random.Sampling
import Worksheet.Proofs.Random.Shuffling
import Worksheet.Proofs.Results
import Worksheet.Proofs.Selector.RoundTrip
import Worksheet.Proofs.Validation.Combinators
import Worksheet.Proofs.Validation.Duplicates
import Worksheet.Proofs.Validation.Kinds
import Worksheet.Proofs.Validation.Rules
import Worksheet.Proofs.Words.Loading
import Worksheet.Proofs.Words.Names
import Worksheet.Random
import Worksheet.RegistryError
import Worksheet.Text
import Worksheet.Toml.Reader
import Worksheet.Toml.Table
import Worksheet.Value
import Worksheet.Words.Builtin
import Worksheet.Words.File
import Worksheet.Words.Library
