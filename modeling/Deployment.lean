import Deployment.CommandLine.Arguments
import Deployment.CommandLine.Failure
import Deployment.CommandLine.LogFilter
import Deployment.CommandLine.Session
import Deployment.CommandLine.Settings
import Deployment.CommandLine.Streams
import Deployment.CommandLine.Summary
import Deployment.CommandLine.Usage
import Deployment.Decimal.Digits
import Deployment.Decimal.Layout
import Deployment.Decimal.Reading
import Deployment.Decimal.Shortest
import Deployment.Host.Command
import Deployment.Host.FileTree
import Deployment.Host.IoError
import Deployment.Host.Program
import Deployment.Host.Runner
import Deployment.Host.ScriptedRunner
import Deployment.Host.ShellScript
import Deployment.Host.Utility
import Deployment.Json.Numeral
import Deployment.Json.Printer
import Deployment.Json.Reader
import Deployment.Json.Shape
import Deployment.Json.Text
import Deployment.Main
import Deployment.Manifest.Entry
import Deployment.Manifest.Label
import Deployment.Manifest.Model
import Deployment.Manifest.Parse
import Deployment.Manifest.Section
import Deployment.Manifest.Tree
import Deployment.Manifest.WatchTime
import Deployment.Proofs.Blocks
import Deployment.Proofs.DistinctKeys
import Deployment.Proofs.Fields
import Deployment.Proofs.FirstFault
import Deployment.Proofs.MergeKeySurfacing
import Deployment.Proofs.MergeResolution
import Deployment.Proofs.Numerals
import Deployment.Proofs.Outcome
import Deployment.Proofs.Parts
import Deployment.Proofs.PropertyTree
import Deployment.Proofs.Stages
import Deployment.Proofs.WellFormed
import Deployment.Property.Basic
import Deployment.Property.Build
import Deployment.Property.Location
import Deployment.Property.Lookup
import Deployment.Property.Merge
import Deployment.Template.Context
import Deployment.Template.DriverScript
import Deployment.Template.Renderer
import Deployment.Text.Blank
import Deployment.Text.Quoted
import Deployment.Text.Shown
import Deployment.Text.Split
import Deployment.Text.Utf8
import Deployment.Yaml.Cursor
import Deployment.Yaml.DecodeError
import Deployment.Yaml.Decoding
import Deployment.Yaml.Document
import Deployment.Yaml.Event
import Deployment.Yaml.Lexeme
import Deployment.Yaml.Lexer
import Deployment.Yaml.MergeKey
import Deployment.Yaml.Number
import Deployment.Yaml.Printer
import Deployment.Yaml.Problem
import Deployment.Yaml.Scalar
import Deployment.Yaml.Shape
import Deployment.Yaml.Style
import Deployment.Yaml.Token
import Deployment.Yaml.Value
import Deployment.Proofs.MergeMeaning
import Deployment.Proofs.SourceOrder
import Deployment.Proofs.MergedBlock
import Deployment.Proofs.UnknownKeys
import Deployment.Proofs.PropertyMaps
import Deployment.Proofs.Layers
import Deployment.Proofs.NormalForm
import Deployment.Proofs.JsonReading
import Deployment.Proofs.Rebuilding
import Deployment.Proofs.JsonNumbers
import Deployment.Proofs.JsonFloats
import Deployment.Proofs.JsonRoundTrip
import Deployment.Proofs.Records
import Deployment.Proofs.WatchTimes
import Deployment.Proofs.Rereading
import Deployment.Proofs.Attachments
import Deployment.Proofs.ParseLog
import Deployment.Proofs.RecordShape
import Deployment.Proofs.EntryGrammar
import Deployment.Proofs.ManifestChecks
import Deployment.Proofs.NullRecords
import Deployment.Proofs.NullFields
import Deployment.Proofs.WatchTimeGrammar
import Deployment.Proofs.PreparedOutcomes
import Deployment.Proofs.PropertyFaults
import Deployment.Proofs.FileTrees
import Deployment.Proofs.Rendering
import Deployment.Proofs.HostPrograms
import Deployment.Proofs.LayerLaws
import Deployment.Proofs.FieldSlots
import Deployment.Proofs.PrintedTexts
import Deployment.Proofs.WatchTimeValues
import Deployment.Proofs.DottedPaths
import Deployment.Proofs.SectionLists
import Deployment.Proofs.EntryLabels
import Deployment.Proofs.ContextTexts
import Deployment.Proofs.Contexts
import Deployment.Proofs.WatchTimeJson
import Deployment.Proofs.Reordering
import Deployment.Proofs.ReorderedEntries
import Deployment.Proofs.ReorderedTrees
import Deployment.Proofs.ReorderedManifests
import Deployment.Proofs.LocationTexts
import Deployment.Proofs.RefusedTexts
import Deployment.Proofs.ExitCodes
import Deployment.Proofs.TemporaryFiles
