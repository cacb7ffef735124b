import IndexAccess.Accessor.ArrayElement
import IndexAccess.Accessor.Basic
import IndexAccess.Accessor.Identity
import IndexAccess.Accessor.Scripted
import IndexAccess.Binary64.Basic
import IndexAccess.Binary64.Layout
import IndexAccess.Binary64.Rounding
import IndexAccess.Binary64.Shortest
import IndexAccess.CommandLine.Arguments
import IndexAccess.CommandLine.Files
import IndexAccess.CommandLine.Program
import IndexAccess.Context
import IndexAccess.Entries
import IndexAccess.Expression
import IndexAccess.Failure
import IndexAccess.Feature.Basic
import IndexAccess.Feature.Builtin
import IndexAccess.Feature.Scripted
import IndexAccess.Feature.Session
import IndexAccess.Json.Fault
import IndexAccess.Json.Printer
import IndexAccess.Json.Reader
import IndexAccess.Log.Output
import IndexAccess.Log.Record
import IndexAccess.Main
import IndexAccess.Node.Construct
import IndexAccess.Node.Lookup
import IndexAccess.Node.Members
import IndexAccess.Node.Native
import IndexAccess.Number.FractionText
import IndexAccess.Number.IntegerText
import IndexAccess.Path
import IndexAccess.Procedure
import IndexAccess.Proofs.Accessor.ElementIndex
import IndexAccess.Proofs.Accessor.IgnoresRegistry
import IndexAccess.Proofs.Binary64.Rounding
import IndexAccess.Proofs.Binary64.Shortest
import IndexAccess.Proofs.CommandLine.Arguments
import IndexAccess.Proofs.CommandLine.LogFlags
import IndexAccess.Proofs.CommandLine.Piping
import IndexAccess.Proofs.CommandLine.ReadCommand
import IndexAccess.Proofs.CommandLine.Sources
import IndexAccess.Proofs.Context.Dispatch
import IndexAccess.Proofs.Context.Extension
import IndexAccess.Proofs.Context.Failures
import IndexAccess.Proofs.Context.Standard
import IndexAccess.Proofs.Context.Transparency
import IndexAccess.Proofs.Entries
import IndexAccess.Proofs.Feature.Answer
import IndexAccess.Proofs.Json.DigitLimit
import IndexAccess.Proofs.Json.Document
import IndexAccess.Proofs.Json.Numbers
import IndexAccess.Proofs.Json.RoundTrip
import IndexAccess.Proofs.Json.Strings
import IndexAccess.Proofs.Json.Suffixes
import IndexAccess.Proofs.Json.Tokens
import IndexAccess.Proofs.LogLevels
import IndexAccess.Proofs.Node.CanonicalForm
import IndexAccess.Proofs.Node.DistinctNames
import IndexAccess.Proofs.Node.Document
import IndexAccess.Proofs.Node.Equality
import IndexAccess.Proofs.Node.FirstOffender
import IndexAccess.Proofs.Node.NormalForm
import IndexAccess.Proofs.Node.Offenders
import IndexAccess.Proofs.Node.Restored
import IndexAccess.Proofs.Number.Digits
import IndexAccess.Proofs.Outcome
import IndexAccess.Proofs.Path.Kind
import IndexAccess.Proofs.Path.Readings
import IndexAccess.Proofs.Path.Walk
import IndexAccess.Proofs.Registry.Candidates
import IndexAccess.Proofs.Registry.History
import IndexAccess.Proofs.Registry.Operations
import IndexAccess.Proofs.RunInvariant
import IndexAccess.Proofs.Silence
import IndexAccess.Proofs.Text.Surrogates
import IndexAccess.Proofs.Text.Utf8
import IndexAccess.Proofs.Value.Comparable
import IndexAccess.Proofs.Value.Display
import IndexAccess.Proofs.Value.Distinct
import IndexAccess.Proofs.Value.Hash
import IndexAccess.Proofs.Value.Quantity
import IndexAccess.Registry
import IndexAccess.Run
import IndexAccess.Session.Basic
import IndexAccess.Session.Sharing
import IndexAccess.Settings
import IndexAccess.Text.Basic
import IndexAccess.Text.Blank
import IndexAccess.Text.Capital
import IndexAccess.Text.ControlSequence
import IndexAccess.Text.Hexadecimal
import IndexAccess.Text.Numeral
import IndexAccess.Text.Printable
import IndexAccess.Text.Quoted
import IndexAccess.Text.Utf8
import IndexAccess.TypedValue
import IndexAccess.Value.Basic
import IndexAccess.Value.Class
import IndexAccess.Value.Conversion
import IndexAccess.Value.Display
import IndexAccess.Value.Distinct
import IndexAccess.Value.Equality
import IndexAccess.Value.Hash
import IndexAccess.Value.Shown
import IndexAccess.Value.Subscript
import IndexAccess.Proofs.Node.Containers
import IndexAccess.Proofs.CommandLine.ListCommand
import IndexAccess.Proofs.Number.Numerals
import IndexAccess.Proofs.Session.Sharing
import IndexAccess.Proofs.Session.Steps
import IndexAccess.Proofs.Settings
import IndexAccess.Proofs.Feature.Registrations
