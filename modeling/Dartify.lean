import Dartify.Main
import Dartify.Comment.Cursor
import Dartify.Literal.Decode
import Dartify.Literal.Encode
import Dartify.Proofs.Files.Destination
import Dartify.Proofs.Program.Boundary
import Dartify.Proofs.Program.Reachability
import Dartify.Proofs.Files.Spelling
import Dartify.Proofs.Program.Closure
import Dartify.Proofs.Program.Order
import Dartify.Proofs.Dart.Order
import Dartify.Proofs.Dart.Rejection
import Dartify.Proofs.Dart.Erasure
import Dartify.Proofs.Dart.Progress
import Dartify.Proofs.Literal.RoundTrip
import Dartify.Proofs.Literal.Inert
import Dartify.Proofs.Literal.Numerals
import Dartify.Proofs.Tree.Leaves
import Dartify.Proofs.Dart.Constructors
import Dartify.Proofs.Dart.Grouping
import Dartify.Proofs.Program.Filewise
import Dartify.Proofs.Program.Nesting
import Dartify.Proofs.Program.Requests
import Dartify.Proofs.Comment.Items
import Dartify.Proofs.Command.Delivery
import Dartify.Proofs.Program.BlockComments
import Dartify.Proofs.Dart.Tokens
import Dartify.Proofs.Dart.Lacking
import Dartify.Proofs.Dart.Commas
import Dartify.Proofs.Dart.Words
import Dartify.Proofs.Dart.Brackets
import Dartify.Proofs.Program.Mark
import Dartify.Proofs.Program.LineEnds
import Dartify.Proofs.Comment.Agreement
import Dartify.Proofs.Comment.Overlap
import Dartify.Proofs.Abstraction.Supertypes
import Dartify.Proofs.Files.Canonical
import Dartify.Proofs.Tree.Parents
import Dartify.Proofs.Dart.Nesting
import Dartify.Proofs.Tree.SourceOrder
