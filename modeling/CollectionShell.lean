import CollectionShell.Text.Uppercase
import CollectionShell.Text.Quoted
import CollectionShell.Quotation.Tracker
import CollectionShell.Double.Layout
import CollectionShell.Json.Decode
import CollectionShell.Json.Print
import CollectionShell.Json.Inspect
import CollectionShell.Json.Compare
import CollectionShell.Operation.Parse
import CollectionShell.Execution.Run
import CollectionShell.Log.Sink
import CollectionShell.Settings.Load
import CollectionShell.Console.CommandLine
import CollectionShell.Main
import CollectionShell.Proofs.Operation.Modes
import CollectionShell.Proofs.Operation.Splitting
import CollectionShell.Proofs.Json.Rendering
import CollectionShell.Proofs.Operation.RoundTrip
import CollectionShell.Proofs.Operation.Imbalance
import CollectionShell.Proofs.Execution.Contract
import CollectionShell.Proofs.Operation.ShellQuotes
import CollectionShell.Proofs.Log.Runs
import CollectionShell.Proofs.Operation.Boundary
import CollectionShell.Proofs.Operation.Spelling
import CollectionShell.Proofs.Operation.Places
import CollectionShell.Proofs.Operation.Diagnostics
import CollectionShell.Proofs.Json.Indented
import CollectionShell.Proofs.Console.Printed
import CollectionShell.Proofs.Operation.LaidOut
import CollectionShell.Proofs.Operation.OpenDepth
import CollectionShell.Proofs.Operation.Commas
import CollectionShell.Proofs.Operation.Rejoined
import CollectionShell.Proofs.Quotation.Prefixes
import CollectionShell.Proofs.Operation.EvenRuns
import CollectionShell.Proofs.Double.Rounding
import CollectionShell.Proofs.Json.Magnitude
import CollectionShell.Proofs.Json.Tree
import CollectionShell.Proofs.Json.Depth
import CollectionShell.Proofs.Double.Shortest
import CollectionShell.Proofs.Operation.StrictJson
import CollectionShell.Proofs.Json.WrittenDoubles
import CollectionShell.Proofs.Json.Infinities
import CollectionShell.Proofs.Json.WrittenBack
import CollectionShell.Proofs.Operation.FiniteArguments
import CollectionShell.Proofs.Operation.FirstViolation
import CollectionShell.Proofs.Execution.AbsentArguments
import CollectionShell.Proofs.Log.KnownLevels
import CollectionShell.Proofs.Operation.FirstClosing
