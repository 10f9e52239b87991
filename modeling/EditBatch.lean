import EditBatch.Batch
import EditBatch.Batch.Application
import EditBatch.Binary64
import EditBatch.Binary64.Shortest
import EditBatch.CommandLine
import EditBatch.Document
import EditBatch.Document.FlatText
import EditBatch.Document.Rope
import EditBatch.Edit
import EditBatch.EditError
import EditBatch.Environment
import EditBatch.FileError
import EditBatch.FileSystem
import EditBatch.Host
import EditBatch.Host.World
import EditBatch.Json.Number
import EditBatch.Json.Reader
import EditBatch.Json.Script
import EditBatch.Json.Text
import EditBatch.LineBreak
import EditBatch.Main
import EditBatch.Offset
import EditBatch.OffsetMap
import EditBatch.Options
import EditBatch.Path
import EditBatch.Program
import EditBatch.Proofs.LawfulDocument
import EditBatch.Proofs.Layout
import EditBatch.Proofs.OffsetMap
import EditBatch.Proofs.Progress
import EditBatch.Script
import EditBatch.Script.Error
import EditBatch.Script.Load
import EditBatch.Settings
import EditBatch.Settings.Storage
import EditBatch.Text.Bytes
import EditBatch.Text.Digit
import EditBatch.Text.Hidden
import EditBatch.Text.Quoted
import EditBatch.Value
import EditBatch.Value.Message
import EditBatch.Yaml.Decoder
import EditBatch.Yaml.Meaning
import EditBatch.Yaml.Node
import EditBatch.Yaml.Properties
import EditBatch.Yaml.Reader
import EditBatch.Yaml.Scalars
import EditBatch.Yaml.Script
import EditBatch.Yaml.Settings
import EditBatch.Yaml.State
import EditBatch.Yaml.Writer
import EditBatch.Proofs.Provenance
import EditBatch.Proofs.Refusal
import EditBatch.Proofs.Anchors
import EditBatch.Proofs.Splice
import EditBatch.Proofs.Survival
import EditBatch.Proofs.Preview
import EditBatch.Proofs.Lines
import EditBatch.Proofs.LawfulLines
import EditBatch.Proofs.Indistinguishable
import EditBatch.Proofs.Recording
import EditBatch.Proofs.JoinedLines
import EditBatch.Proofs.LineDeletion
import EditBatch.Proofs.Deletions
import EditBatch.Proofs.SeveralLines
import EditBatch.Proofs.Monotone
import EditBatch.Proofs.Rebasing
import EditBatch.Proofs.FileSystem
import EditBatch.Proofs.Compilation
import EditBatch.Proofs.Execution
import EditBatch.Proofs.Caret
import EditBatch.Proofs.Modes
import EditBatch.Proofs.Marker
import EditBatch.Proofs.Swallowed
import EditBatch.Proofs.LineGeometry
import EditBatch.Proofs.LineRecording
import EditBatch.Proofs.Yaml.Passing
import EditBatch.Proofs.Yaml.Numerals
import EditBatch.Proofs.Yaml.QuotedText
import EditBatch.Proofs.Arguments
import EditBatch.Proofs.Yaml.BlockText
import EditBatch.Proofs.Yaml.Documents
import EditBatch.Proofs.Yaml.Origins
import EditBatch.Proofs.Yaml.ScriptRoundTrip
import EditBatch.Proofs.Positions
import EditBatch.Proofs.ByteCuts
import EditBatch.Proofs.RecordingHistory
import EditBatch.Proofs.PiecewiseCompilation
import EditBatch.Proofs.CheckedArithmetic
import EditBatch.Proofs.Yaml.SettingsRoundTrip
import EditBatch.Proofs.ArgumentOrder
import EditBatch.Proofs.Json.Grammar
import EditBatch.Proofs.Json.Tokens
import EditBatch.Proofs.Json.Values
import EditBatch.Proofs.Json.Operations
import EditBatch.Proofs.Json.Scripts
