import ReportTheme.Entries
import ReportTheme.Double
import ReportTheme.Text.Digits
import ReportTheme.Double.Extended
import ReportTheme.Double.Shortest
import ReportTheme.Json.Number
import ReportTheme.Json.Basic
import ReportTheme.Json.Quoted
import ReportTheme.Json.Printer
import ReportTheme.Json.Lexeme
import ReportTheme.Json.Reading
import ReportTheme.Json.Decode
import ReportTheme.Text.Unprintable
import ReportTheme.Text.Blank
import ReportTheme.Text.Quote
import ReportTheme.Json.Record
import ReportTheme.Error
import ReportTheme.Mode
import ReportTheme.Token
import ReportTheme.Palette
import ReportTheme.Palette.BuiltIn
import ReportTheme.Palette.Store
import ReportTheme.Style.Value
import ReportTheme.Style.Json
import ReportTheme.Style.Path
import ReportTheme.Style.Tree
import ReportTheme.Style.Merge
import ReportTheme.Preset.Choice
import ReportTheme.Preset.Apply
import ReportTheme.Theme
import ReportTheme.Document
import ReportTheme.Memo
import ReportTheme.Changes
import ReportTheme.Editor
import ReportTheme.Toml.Value
import ReportTheme.Toml.Scalar
import ReportTheme.Toml.Mark
import ReportTheme.Toml.Definition
import ReportTheme.Toml.Part
import ReportTheme.Toml.Document
import ReportTheme.Toml.Printer
import ReportTheme.Config
import ReportTheme.Command.Options
import ReportTheme.Command.Arguments
import ReportTheme.Command.Run
import ReportTheme.Command.Report
import ReportTheme.Command.Folder
import ReportTheme.Main
import ReportTheme.Proofs.Entries
import ReportTheme.Proofs.Style.Keyed
import ReportTheme.Proofs.Json.Unsigned
import ReportTheme.Proofs.Style.Path
import ReportTheme.Proofs.Style.Parting
import ReportTheme.Proofs.Style.Refusal
import ReportTheme.Proofs.Style.Removal
import ReportTheme.Proofs.Style.Field
import ReportTheme.Proofs.Style.Tree
import ReportTheme.Proofs.Style.Bags
import ReportTheme.Proofs.Style.Merge
import ReportTheme.Proofs.Style.Inheritance
import ReportTheme.Proofs.Style.Unsigned
import ReportTheme.Proofs.Style.Written
import ReportTheme.Proofs.Style.Equal
import ReportTheme.Proofs.Style.Unordered
import ReportTheme.Proofs.Preset.Write
import ReportTheme.Proofs.Preset.Detect
import ReportTheme.Proofs.Preset.Frame
import ReportTheme.Proofs.Preset.Unordered
import ReportTheme.Proofs.Preset.Background
import ReportTheme.Proofs.Preset.Again
import ReportTheme.Proofs.Preset.Sequence
import ReportTheme.Proofs.Document
import ReportTheme.Proofs.Resolution
import ReportTheme.Proofs.Memo
import ReportTheme.Proofs.Style.Alike
import ReportTheme.Proofs.Memo.Policy
import ReportTheme.Proofs.Changes
import ReportTheme.Proofs.Session.Operation
import ReportTheme.Proofs.Session.Content
import ReportTheme.Proofs.Session.Selection
import ReportTheme.Proofs.Session.Tracking
import ReportTheme.Proofs.Session.Presets
import ReportTheme.Proofs.Session.Variant
import ReportTheme.Proofs.Session.Freshness
import ReportTheme.Proofs.Json.Decode
import ReportTheme.Proofs.Style.Json
import ReportTheme.Proofs.Style.Reference
import ReportTheme.Proofs.Style.Faithful
import ReportTheme.Proofs.Style.Ingest
import ReportTheme.Proofs.Style.Reread
import ReportTheme.Proofs.Style.Built
import ReportTheme.Proofs.Theme
import ReportTheme.Proofs.Session.Reload
import ReportTheme.Proofs.Json.Lexeme
import ReportTheme.Proofs.Session.Baseline
import ReportTheme.Proofs.Session.Refusal
import ReportTheme.Proofs.Json.Record
import ReportTheme.Proofs.Json.ByValue
import ReportTheme.Proofs.Json.RecordByValue
import ReportTheme.Proofs.Theme.Normal
import ReportTheme.Proofs.Style.Malformed
import ReportTheme.Proofs.Theme.Malformed
import ReportTheme.Proofs.Theme.File
import ReportTheme.Proofs.Palette.Store
import ReportTheme.Proofs.Palette.Unordered
import ReportTheme.Proofs.Document.Layout
import ReportTheme.Proofs.Document.Walk
import ReportTheme.Proofs.Resolution.Complete
import ReportTheme.Proofs.Json.RecordField
import ReportTheme.Proofs.Command.Mode
import ReportTheme.Proofs.Changes.History
import ReportTheme.Proofs.Changes.Dotted
