import ScriptLint.Command.Basic
import ScriptLint.Command.Check
import ScriptLint.Command.Flags
import ScriptLint.Command.Run
import ScriptLint.Config.Basic
import ScriptLint.Config.Decoding
import ScriptLint.Config.Load
import ScriptLint.Config.Render
import ScriptLint.Discovery
import ScriptLint.Entries
import ScriptLint.FileTree
import ScriptLint.Main
import ScriptLint.Number.Binary64
import ScriptLint.Path
import ScriptLint.Pattern.Glob
import ScriptLint.Pattern.Include
import ScriptLint.Pattern.Matcher
import ScriptLint.Proofs.Command.ExitCode
import ScriptLint.Proofs.Command.Options
import ScriptLint.Proofs.Command.Order
import ScriptLint.Proofs.Command.Preparation
import ScriptLint.Proofs.Config.Decoding
import ScriptLint.Proofs.Config.Effective
import ScriptLint.Proofs.Config.Validation
import ScriptLint.Proofs.Discovery
import ScriptLint.Proofs.Entries
import ScriptLint.Proofs.Except
import ScriptLint.Proofs.FileTree
import ScriptLint.Proofs.Path
import ScriptLint.Proofs.Rule.ByteOrderMark
import ScriptLint.Proofs.Rule.LineEndings
import ScriptLint.Proofs.Rule.Selection
import ScriptLint.Proofs.Rule.Standard
import ScriptLint.Proofs.Run.Cancellation
import ScriptLint.Proofs.Run.Concatenation
import ScriptLint.Proofs.Run.Order
import ScriptLint.Proofs.Run.Outcome
import ScriptLint.Proofs.Run.Pool
import ScriptLint.Proofs.Run.Schedule
import ScriptLint.Proofs.Run.Validation
import ScriptLint.Proofs.Script.Encoding
import ScriptLint.Proofs.Script.Lines
import ScriptLint.Proofs.Script.Utf16
import ScriptLint.Proofs.Text.Bytes
import ScriptLint.Proofs.Text.Utf8
import ScriptLint.Report
import ScriptLint.Rule.Basic
import ScriptLint.Rule.Object
import ScriptLint.Rule.Registry
import ScriptLint.Rule.RequireSingleInstance
import ScriptLint.Rule.RequireVersion
import ScriptLint.Rule.RequireWarn
import ScriptLint.Rule.Selection
import ScriptLint.Rule.TrailingNewline
import ScriptLint.Rule.TrailingWhitespace
import ScriptLint.Rule.UnusedFunctions
import ScriptLint.Run.Check
import ScriptLint.Run.Pool
import ScriptLint.Run.Runner
import ScriptLint.Script.Basic
import ScriptLint.Script.Encoding
import ScriptLint.Script.Lines
import ScriptLint.Script.Read
import ScriptLint.Table
import ScriptLint.Text.Class
import ScriptLint.Text.Fold
import ScriptLint.Text.Letter
import ScriptLint.Text.Printable
import ScriptLint.Text.Quoted
import ScriptLint.Text.Utf8
import ScriptLint.Text.Width
import ScriptLint.Timestamp
import ScriptLint.Value
import ScriptLint.Yaml.Cursor
import ScriptLint.Yaml.Fault
import ScriptLint.Yaml.Node
import ScriptLint.Yaml.Printer
import ScriptLint.Yaml.Scalar
import ScriptLint.Yaml.Tag
import ScriptLint.Yaml.Token
import ScriptLint.Yaml.TokenStream
import ScriptLint.Yaml.Tree
import ScriptLint.Proofs.Run.RuleChoice
import ScriptLint.Proofs.Command.Errors
import ScriptLint.Proofs.NewFile
import ScriptLint.Proofs.Config.Defaults
import ScriptLint.Proofs.Pattern.Include
import ScriptLint.Proofs.Command.Init
import ScriptLint.Proofs.Command.NewFile
import ScriptLint.Proofs.Rule.Registry
import ScriptLint.Proofs.Rule.Findings
import ScriptLint.Proofs.Report.Text
import ScriptLint.Proofs.Report.Json
import ScriptLint.Proofs.Number.Rounding
import ScriptLint.Proofs.Number.Shortest
import ScriptLint.Proofs.Yaml.Decimal
import ScriptLint.Proofs.Config.RoundTrip
import ScriptLint.Proofs.Script.Decomposition
import ScriptLint.Proofs.Rule.UnusedFunctions.Use
import ScriptLint.Proofs.Rule.UnusedFunctions.Comment
import ScriptLint.Proofs.Rule.RequireVersion
import ScriptLint.Proofs.Rule.ModeSpelling
import ScriptLint.Proofs.Run.Stopping
import ScriptLint.Proofs.Rule.Clone
import ScriptLint.Proofs.Run.SettingsOrder
import ScriptLint.Proofs.Rule.TrailingWhitespace
import ScriptLint.Proofs.Rule.RuleList
import ScriptLint.Proofs.Config.Nearest
import ScriptLint.Proofs.Path.Display
import ScriptLint.Rule.Sequence
import ScriptLint.Proofs.Rule.Sequence
import ScriptLint.Run.Streaming
import ScriptLint.Command.Streaming
import ScriptLint.Proofs.Run.Streaming
import ScriptLint.Proofs.Command.Streaming
import ScriptLint.Discovery.Walk
import ScriptLint.Proofs.Discovery.Walk
