import MessageSelector.Main
import MessageSelector.Proofs.Calculations
import MessageSelector.Proofs.Candidates
import MessageSelector.Proofs.Canonical
import MessageSelector.Proofs.Commands.Arguments
import MessageSelector.Proofs.Commands.Documents
import MessageSelector.Proofs.Commands.Evaluation
import MessageSelector.Proofs.Commands.Headers
import MessageSelector.Proofs.Commands.Literals
import MessageSelector.Proofs.Comparison
import MessageSelector.Proofs.ComparisonAlgebra
import MessageSelector.Proofs.Composition
import MessageSelector.Proofs.Diagnostics
import MessageSelector.Proofs.Doubles.Integers
import MessageSelector.Proofs.Doubles.Nearest
import MessageSelector.Proofs.Doubles.Order
import MessageSelector.Proofs.Doubles.Parts
import MessageSelector.Proofs.Doubles.Reading
import MessageSelector.Proofs.Doubles.Rounding
import MessageSelector.Proofs.Doubles.Scientific
import MessageSelector.Proofs.Doubles.Search
import MessageSelector.Proofs.Doubles.Zeros
import MessageSelector.Proofs.Equality
import MessageSelector.Proofs.Escapes
import MessageSelector.Proofs.Evaluation
import MessageSelector.Proofs.Excerpts
import MessageSelector.Proofs.Expansions
import MessageSelector.Proofs.Faults.Causes
import MessageSelector.Proofs.Faults.Leftmost
import MessageSelector.Proofs.Faults.Payloads
import MessageSelector.Proofs.Faults.Shifting
import MessageSelector.Proofs.Fixpoint
import MessageSelector.Proofs.Grammar.Awaited
import MessageSelector.Proofs.Grammar.Completeness
import MessageSelector.Proofs.Grammar.CutShort
import MessageSelector.Proofs.Grammar.Positions
import MessageSelector.Proofs.Grammar.Soundness
import MessageSelector.Proofs.Grammar.Words
import MessageSelector.Proofs.IndexKeys
import MessageSelector.Proofs.Information
import MessageSelector.Proofs.KeyWalks
import MessageSelector.Proofs.LastWrites
import MessageSelector.Proofs.Layers
import MessageSelector.Proofs.Layouts
import MessageSelector.Proofs.Lexical.Cuts
import MessageSelector.Proofs.Lexical.Letters
import MessageSelector.Proofs.Lexical.Lexemes
import MessageSelector.Proofs.Lexical.Numbers
import MessageSelector.Proofs.Lexical.Spacing
import MessageSelector.Proofs.LiteralTexts
import MessageSelector.Proofs.Meanings
import MessageSelector.Proofs.Nesting.Balance
import MessageSelector.Proofs.Nesting.Fits
import MessageSelector.Proofs.Nesting.Lexemes
import MessageSelector.Proofs.Nesting.Limits
import MessageSelector.Proofs.Nesting.Marks
import MessageSelector.Proofs.Nesting.NoDeeper
import MessageSelector.Proofs.Nesting.Numbers
import MessageSelector.Proofs.Nesting.Surroundings
import MessageSelector.Proofs.Numerals
import MessageSelector.Proofs.NumericOrder
import MessageSelector.Proofs.Outcomes
import MessageSelector.Proofs.Pairs.Agreement
import MessageSelector.Proofs.Pairs.Building
import MessageSelector.Proofs.Pairs.Climbing
import MessageSelector.Proofs.Pairs.Coverage
import MessageSelector.Proofs.Pairs.Grammar
import MessageSelector.Proofs.Pairs.Magnitudes
import MessageSelector.Proofs.Pairs.Operands
import MessageSelector.Proofs.Pairs.Shapes
import MessageSelector.Proofs.Pairs.Signs
import MessageSelector.Proofs.Pairs.Sources
import MessageSelector.Proofs.Parentheses
import MessageSelector.Proofs.Parts
import MessageSelector.Proofs.Readers
import MessageSelector.Proofs.Rewording
import MessageSelector.Proofs.RoundTrip
import MessageSelector.Proofs.Sameness
import MessageSelector.Proofs.Scanning
import MessageSelector.Proofs.Scans
import MessageSelector.Proofs.ShortTexts
import MessageSelector.Proofs.SignRuns
import MessageSelector.Proofs.Spelling
import MessageSelector.Proofs.Standing
import MessageSelector.Proofs.Texts
import MessageSelector.Proofs.Timestamps
import MessageSelector.Proofs.TwoModes
import MessageSelector.Proofs.Unclosed
import MessageSelector.Proofs.WellFormed
import MessageSelector.Proofs.Wildcards
import MessageSelector.Proofs.WrittenNumbers
import MessageSelector.Proofs.WrittenValues
