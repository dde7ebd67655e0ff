import Backtrack.Parser.Parse
import Backtrack.Pattern.Reader
import Backtrack.Session
import Backtrack.Proofs.Trie.Arranged
import Backtrack.Proofs.Reading
import Backtrack.Proofs.Trie.LongestMatch
import Backtrack.Proofs.Trie.Order
import Backtrack.Proofs.Literal
import Backtrack.Proofs.OrderedAlternation
import Backtrack.Proofs.Trie.Branches
import Backtrack.Proofs.Trie.Enumeration
import Backtrack.Proofs.Trie.Canonical
import Backtrack.Proofs.Effect
import Backtrack.Proofs.Position
import Backtrack.Proofs.Presentation.Text
import Backtrack.Proofs.Presentation.Agreement
import Backtrack.Proofs.Presentation.Grammar
import Backtrack.Proofs.Spelling
import Backtrack.Proofs.Decision
import Backtrack.Proofs.Origin
import Backtrack.Proofs.Building
import Backtrack.Proofs.ExactMatch
import Backtrack.Proofs.Misuse
import Backtrack.Proofs.NoFault
import Backtrack.Proofs.Atomic
import Backtrack.Proofs.Checkpoints
import Backtrack.Proofs.Shift
import Backtrack.Proofs.Rendering
import Backtrack.Proofs.Column
import Backtrack.Proofs.Excerpt
import Backtrack.Proofs.Diagnostics
import Backtrack.Proofs.Splicing
import Backtrack.Proofs.Factoring
import Backtrack.Proofs.Nest
import Backtrack.Proofs.Flattening
import Backtrack.Proofs.Concatenation
import Backtrack.Proofs.CharacterSets
import Backtrack.Proofs.EndOfInput
import Backtrack.Proofs.ItemPlace
import Backtrack.Proofs.Comparison
import Backtrack.Proofs.Trie.Turns
import Backtrack.Proofs.Pattern.Alternatives
import Backtrack.Proofs.Pattern.Folding
import Backtrack.Proofs.Pattern.Joining
import Backtrack.Proofs.Pattern.Matching
