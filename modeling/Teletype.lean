import Teletype.Main
import Teletype.Proofs.Utf8.Decoding
import Teletype.Proofs.Input.Session
import Teletype.Proofs.Input.Accounting
import Teletype.Proofs.Input.Chunking
import Teletype.Proofs.Input.Refilling
import Teletype.Proofs.Input.Characters
import Teletype.Proofs.Utf8.Position
import Teletype.Proofs.Text.WellFormed
import Teletype.Proofs.Text.Cutting
import Teletype.Proofs.Text.Making
import Teletype.Proofs.Text.Equality
import Teletype.Proofs.Text.Indexing
import Teletype.Proofs.Text.Joining
import Teletype.Proofs.Text.Search
import Teletype.Proofs.Output.Inversion
import Teletype.Proofs.Console.Inversion
import Teletype.Proofs.Console.Session
import Teletype.Proofs.Console.Sides
import Teletype.Proofs.Console.Words
import Teletype.Proofs.Console.Writing
import Teletype.Proofs.Command.Scan
import Teletype.Proofs.Fraction.Exact
import Teletype.Proofs.Literal.Integer
import Teletype.Proofs.Output.Progress
import Teletype.Proofs.Console.RoundTrip
import Teletype.Proofs.Console.Trailing
import Teletype.Proofs.Command.Job
import Teletype.Proofs.Command.Prefix
import Teletype.Proofs.Command.Grammar
import Teletype.Proofs.Command.Transparency
import Teletype.Proofs.Binary32.Rounding
import Teletype.Proofs.Binary32.Literal
import Teletype.Proofs.Binary32.RoundTrip
import Teletype.Proofs.Command.Idempotence
import Teletype.Proofs.Fraction.Order
import Teletype.Proofs.Input.Lines
import Teletype.Proofs.Input.Ends
import Teletype.Proofs.Quoted.Reading
import Teletype.Proofs.Wording
import Teletype.Proofs.Command.Arguments
import Teletype.Proofs.Utf8.Replacing
import Teletype.Proofs.Literal.Significant
import Teletype.Proofs.Console.Shortest
