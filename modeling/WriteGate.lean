import WriteGate.Main
import WriteGate.Proofs.Run.Schedule
import WriteGate.Json.Reading
import WriteGate.Proofs.Run.Blame
import WriteGate.Proofs.CommandLine.ExitStatus
import WriteGate.Proofs.Pattern.Edges
import WriteGate.Proofs.Pattern.LineEnds
import WriteGate.Proofs.Signal.LineEnds
import WriteGate.Proofs.Content
import WriteGate.Proofs.Pattern.Surroundings
import WriteGate.Proofs.Signal.LinesAdded
import WriteGate.Proofs.Json.Forms
import WriteGate.Proofs.Report.Forms
import WriteGate.Proofs.Json.RoundTrip
import WriteGate.Proofs.Report.RoundTrip
import WriteGate.Proofs.Run.Composition
import WriteGate.Proofs.FileSystem.Walking
import WriteGate.Proofs.FileSystem.Ways
import WriteGate.Proofs.FileSystem.ReadBack
import WriteGate.Proofs.FileSystem.Tree
import WriteGate.Proofs.Run.Abort
import WriteGate.Proofs.CommandLine.Endings
import WriteGate.Proofs.CommandLine.Output
import WriteGate.Proofs.Pattern.Pieces
import WriteGate.Proofs.Signal.OpenCall
import WriteGate.Proofs.Signal.FirstArgument
import WriteGate.Proofs.Decoding
import WriteGate.Proofs.Justification
import WriteGate.Proofs.Signal.MethodCall
import WriteGate.Proofs.Signal.CryptographyImport
import WriteGate.Proofs.Signal.WholeWord
import WriteGate.Proofs.CommandLine.Number
import WriteGate.Proofs.CommandLine.Grammar
import WriteGate.Proofs.CommandLine.Meaning
import WriteGate.Proofs.Report.Text
import WriteGate.Proofs.FileSystem.SourceName
import WriteGate.Proofs.Run.Shares
import WriteGate.Proofs.Run.InputOrder
import WriteGate.Proofs.FileSystem.Respelling
import WriteGate.Proofs.Run.Targets
