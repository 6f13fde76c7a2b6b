import ListfileSettings.Assignment
import ListfileSettings.Assignment.Reader
import ListfileSettings.Choice
import ListfileSettings.CommandLine.Arguments
import ListfileSettings.CommandLine.Options
import ListfileSettings.CommandLine.Run
import ListfileSettings.Decimal.Digits
import ListfileSettings.Decimal.Shortest
import ListfileSettings.Decimal.Wide
import ListfileSettings.Draft
import ListfileSettings.Event
import ListfileSettings.Failure
import ListfileSettings.Json
import ListfileSettings.Json.Decode
import ListfileSettings.Json.Fault
import ListfileSettings.Json.Mismatch
import ListfileSettings.Json.Reader
import ListfileSettings.Json.Typed
import ListfileSettings.Json.Writer
import ListfileSettings.Key
import ListfileSettings.Literal
import ListfileSettings.LogFilter
import ListfileSettings.LogSetup
import ListfileSettings.Main
import ListfileSettings.Override
import ListfileSettings.Path
import ListfileSettings.Proofs.Assignment.Acceptance
import ListfileSettings.Proofs.Assignment.Append
import ListfileSettings.Proofs.Assignment.Below
import ListfileSettings.Proofs.Assignment.Bindings
import ListfileSettings.Proofs.Assignment.Faults
import ListfileSettings.Proofs.Assignment.FirstCharacter
import ListfileSettings.Proofs.Assignment.Grammar
import ListfileSettings.Proofs.Assignment.Invariant
import ListfileSettings.Proofs.Assignment.LineEndings
import ListfileSettings.Proofs.Assignment.Printing
import ListfileSettings.Proofs.Assignment.Remainder
import ListfileSettings.Proofs.Assignment.Step
import ListfileSettings.Proofs.CommandLine.Environment
import ListfileSettings.Proofs.CommandLine.Located
import ListfileSettings.Proofs.CommandLine.Lossless
import ListfileSettings.Proofs.CommandLine.Reload
import ListfileSettings.Proofs.Draft.Assignments
import ListfileSettings.Proofs.Draft.Calls
import ListfileSettings.Proofs.Draft.Encodings
import ListfileSettings.Proofs.Draft.Environment
import ListfileSettings.Proofs.Draft.Files
import ListfileSettings.Proofs.Draft.Integers
import ListfileSettings.Proofs.Draft.Items
import ListfileSettings.Proofs.Draft.Listing
import ListfileSettings.Proofs.Draft.Members
import ListfileSettings.Proofs.Draft.Nearest
import ListfileSettings.Proofs.Draft.Objects
import ListfileSettings.Proofs.Draft.Overrides
import ListfileSettings.Proofs.Draft.Policies
import ListfileSettings.Proofs.Draft.Sources
import ListfileSettings.Proofs.Draft.Stem
import ListfileSettings.Proofs.Draft.Warnings
import ListfileSettings.Proofs.Draft.Written
import ListfileSettings.Proofs.Except
import ListfileSettings.Proofs.Json.Acceptance
import ListfileSettings.Proofs.Json.Canonical
import ListfileSettings.Proofs.Json.Decimals
import ListfileSettings.Proofs.Json.Decode
import ListfileSettings.Proofs.Json.Finite
import ListfileSettings.Proofs.Json.Grammar
import ListfileSettings.Proofs.Json.Numbers
import ListfileSettings.Proofs.Json.Printing
import ListfileSettings.Proofs.Json.Strings
import ListfileSettings.Proofs.Json.Suffix
import ListfileSettings.Proofs.Json.Typed
import ListfileSettings.Proofs.Json.Values
import ListfileSettings.Proofs.Override.Decoding
import ListfileSettings.Proofs.Override.Integers
import ListfileSettings.Proofs.Override.Order
import ListfileSettings.Proofs.Path.Normal
import ListfileSettings.Proofs.Path.Places
import ListfileSettings.Proofs.Search.Nearest
import ListfileSettings.Proofs.Settings.Agreement
import ListfileSettings.Proofs.Settings.Applied
import ListfileSettings.Proofs.Settings.Assigned
import ListfileSettings.Proofs.Settings.Domain
import ListfileSettings.Proofs.Settings.Given
import ListfileSettings.Proofs.Settings.InPlace
import ListfileSettings.Proofs.Settings.Integers
import ListfileSettings.Proofs.Settings.Listing
import ListfileSettings.Proofs.Settings.Members
import ListfileSettings.Proofs.Settings.Reasons
import ListfileSettings.Proofs.Settings.Record
import ListfileSettings.Proofs.Settings.Shown
import ListfileSettings.Proofs.Text.Case
import ListfileSettings.Proofs.Text.Decoding
import ListfileSettings.Proofs.Text.Pieces
import ListfileSettings.Proofs.Text.Stripped
import ListfileSettings.Proofs.Text.Utf8
import ListfileSettings.Settings
import ListfileSettings.Settings.InPlace
import ListfileSettings.Settings.Listing
import ListfileSettings.Settings.Reader
import ListfileSettings.Settings.Update
import ListfileSettings.Settings.Value
import ListfileSettings.Text.AlphanumericTable
import ListfileSettings.Text.Blank
import ListfileSettings.Text.Case
import ListfileSettings.Text.CaseTable
import ListfileSettings.Text.UnprintedTable
import ListfileSettings.Text.Utf8
import ListfileSettings.World
import ListfileSettings.Proofs.Override.Variables
