import FlagLine.Text.Classes
import FlagLine.Text.Case
import FlagLine.Text.Basic
import FlagLine.Token.Basic
import FlagLine.Token.Quoting
import FlagLine.Decimal.Shortest
import FlagLine.Data.Value
import FlagLine.Data.Table
import FlagLine.Config.Field
import FlagLine.Config.Schema
import FlagLine.Config.Read
import FlagLine.Config.Dump
import FlagLine.Data.Merge
import FlagLine.Yaml.Compose
import FlagLine.Yaml.Scanner
import FlagLine.Yaml.Load
import FlagLine.Text.Glob
import FlagLine.Host.Path
import FlagLine.Host.Files
import FlagLine.Host.Run
import FlagLine.Validator.Basic
import FlagLine.Validator.Files
import FlagLine.Validator.Choice
import FlagLine.Validator.Command
import FlagLine.Validator.Answer
import FlagLine.Color.Basic
import FlagLine.Color.Render
import FlagLine.Regex.Syntax
import FlagLine.Regex.Parse
import FlagLine.Regex.Match
import FlagLine.Program.Detect
import FlagLine.Config.Lookup
import FlagLine.Config.Defaults
import FlagLine.Config.Load
import FlagLine.Match.Words
import FlagLine.Shell.Words
import FlagLine.Editor.Keys
import FlagLine.Editor.Commands
import FlagLine.Editor.Bindings
import FlagLine.Editor.Lexer
import FlagLine.Editor.Buffer
import FlagLine.Editor.Duplicates
import FlagLine.Editor.Completer
import FlagLine.Editor.Session
import FlagLine.Cli.Args
import FlagLine.Cli.Run
import FlagLine.Decimal.Nearest
import FlagLine.Digest.Sha256
import FlagLine.Fingerprint.Datum
import FlagLine.Fingerprint.Printed
import FlagLine.Fingerprint.Walk
import FlagLine.Fingerprint.Tagged
import FlagLine.Data.Json
import FlagLine.Bench.Basic
import FlagLine.Bench.World
import FlagLine.Bench.Colors
import FlagLine.Bench.Validators
import FlagLine.Bench.Programs
import FlagLine.Bench.Loading
import FlagLine.Bench.Lines
import FlagLine.Bench.Keys
import FlagLine.Bench.Editing
import FlagLine.Bench.Suite
import FlagLine.Main
import FlagLine.Proofs.Token.Scan
import FlagLine.Proofs.Token.Layout
import FlagLine.Proofs.Token.Reread
import FlagLine.Proofs.Token.Rebuild
import FlagLine.Proofs.Token.Join
import FlagLine.Proofs.Editor.Styling
import FlagLine.Proofs.Program.Parts
import FlagLine.Proofs.Match.History
import FlagLine.Proofs.Editor.DuplicateGroups
import FlagLine.Proofs.Editor.DuplicatesMode
import FlagLine.Proofs.Config.ProgramLookup
import FlagLine.Proofs.Config.MergeGrouping
import FlagLine.Proofs.Editor.DuplicatesDelete
import FlagLine.Proofs.Editor.CompletionSpan
import FlagLine.Proofs.Match.PatternOrder
import FlagLine.Proofs.Program.Launchers
import FlagLine.Proofs.Validator.ChoiceCycle
import FlagLine.Proofs.Text.Split
import FlagLine.Proofs.Validator.MultipleAppend
import FlagLine.Proofs.Host.Walk
import FlagLine.Proofs.Validator.FileCompletion
import FlagLine.Proofs.Config.ExpansionLevels
import FlagLine.Proofs.Config.ExpansionCycles
import FlagLine.Proofs.Editor.GroupColors
import FlagLine.Proofs.Editor.DeleteParam
import FlagLine.Proofs.Color.Reading
import FlagLine.Proofs.Editor.CommandNames
import FlagLine.Proofs.Cli.CommandLine
import FlagLine.Proofs.Text.LowerCase
import FlagLine.Proofs.Config.NameCase
import FlagLine.Proofs.Regex.GroupNames
import FlagLine.Proofs.Match.CaptureNames
