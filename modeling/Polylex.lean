import Polylex.Tokenizer
import Polylex.Interchange.Codec
import Polylex.Proofs.Tokenization
import Polylex.Proofs.Run.Composition
import Polylex.Proofs.Template.Recovery
import Polylex.Proofs.Levels
import Polylex.Proofs.Run.Depth
import Polylex.Proofs.PostProcessing
import Polylex.Proofs.Literal.Exhausted
import Polylex.Proofs.OneMoreLevel
import Polylex.Proofs.Run.Regions
import Polylex.Proofs.Pruning
import Polylex.Proofs.Literal.Steady
import Polylex.Proofs.Literal.Brackets
import Polylex.Proofs.Run.History
import Polylex.Proofs.Scanning
import Polylex.Proofs.ZonePlaces
import Polylex.Proofs.Literal.Degradation
import Polylex.Proofs.Literal.Terminator
import Polylex.Proofs.Region.Nesting
import Polylex.Proofs.Merging.Classification
import Polylex.Proofs.Region.Switching
import Polylex.Proofs.Run.WithoutActions
import Polylex.Proofs.Partition
import Polylex.Proofs.Traversal
import Polylex.Proofs.FirstDefect
import Polylex.Proofs.Run.Provenance
import Polylex.Proofs.Lines
import Polylex.Proofs.Literal.Flags
import Polylex.Proofs.Pattern.EmptyMatch
import Polylex.Proofs.Pattern.WordStart
import Polylex.Proofs.Run.Loops
