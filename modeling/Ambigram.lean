import Ambigram.Grammar.Parse
import Ambigram.Grammar.Print
import Ambigram.Grammar.Sketch
import Ambigram.Snippet
import Ambigram.Stream
import Ambigram.Tree.Dump
import Ambigram.Value.Json
import Ambigram.Value.Registers
import Ambigram.Proofs.Limits
import Ambigram.Proofs.Derivation
import Ambigram.Proofs.Peeling
import Ambigram.Proofs.PrintSound
import Ambigram.Proofs.Discipline
import Ambigram.Proofs.Run
import Ambigram.Proofs.Replay
import Ambigram.Proofs.Coverage
import Ambigram.Proofs.ParseSound
import Ambigram.Proofs.Budget
import Ambigram.Proofs.Inversion
import Ambigram.Proofs.Erasure
import Ambigram.Proofs.Loosening
import Ambigram.Proofs.Behaviour
import Ambigram.Proofs.Computation
import Ambigram.Proofs.Termination
import Ambigram.Proofs.Alike
import Ambigram.Proofs.Annotation
import Ambigram.Proofs.Remembering
import Ambigram.Proofs.Lexemes
import Ambigram.Proofs.Abreast
import Ambigram.Proofs.Following
import Ambigram.Proofs.Longest
import Ambigram.Proofs.Spacing
import Ambigram.Proofs.Vocabulary
import Ambigram.Proofs.Calculator.Grammar
import Ambigram.Proofs.Calculator.Spelling
import Ambigram.Proofs.Pieces
import Ambigram.Proofs.Taking
import Ambigram.Proofs.Calculator.Writing
import Ambigram.Proofs.Calculator.Printing
import Ambigram.Proofs.Calculator.Reading
import Ambigram.Proofs.Calculator.RoundTrip
import Ambigram.Proofs.Compounds
import Ambigram.Proofs.Unwinding
import Ambigram.Proofs.Minimum
import Ambigram.Proofs.Separators
import Ambigram.Proofs.Bounds
import Ambigram.Proofs.Literal
import Ambigram.Automaton
import Ambigram.Proofs.Search
import Ambigram.Proofs.Exact
import Ambigram.Proofs.Exclusive
import Ambigram.Proofs.Grouping
import Ambigram.Proofs.Furthest
import Ambigram.Proofs.Factoring
import Ambigram.Proofs.Appending
import Ambigram.Proofs.SeparatedLists
import Ambigram.Proofs.Records
import Ambigram.Proofs.Fieldwise
import Ambigram.Proofs.Misses
import Ambigram.Proofs.Costs
import Ambigram.Proofs.Nesting
import Ambigram.Proofs.Reach
import Ambigram.Proofs.Numbers
import Ambigram.Proofs.Enough
import Ambigram.Proofs.Splicing
import Ambigram.Proofs.Places
import Ambigram.Proofs.Registration
import Ambigram.Proofs.Inverses
import Ambigram.Proofs.Permutations
import Ambigram.Proofs.Dumps
import Ambigram.Value.Entries
import Ambigram.Value.Stored
import Ambigram.Proofs.Storage
import Ambigram.Proofs.Sameness
import Ambigram.Proofs.FiniteMaps
