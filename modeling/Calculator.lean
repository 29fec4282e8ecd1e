import Calculator.Evaluate
import Calculator.CommandLine.Output
import Calculator.Main
import Calculator.Proofs.Reaches
import Calculator.Proofs.Refusal
import Calculator.Proofs.OperatorTree
import Calculator.Proofs.Infix
import Calculator.Proofs.Brackets
import Calculator.Proofs.OpenGroups
import Calculator.Proofs.Group
import Calculator.Proofs.Acceptance
import Calculator.Proofs.Provenance
import Calculator.Proofs.Messages
import Calculator.Proofs.Recovery
import Calculator.Proofs.WellFormed
import Calculator.Proofs.Stretches
import Calculator.Proofs.Footprint
import Calculator.Proofs.Finishing
import Calculator.Proofs.Closing
import Calculator.Proofs.TokenGrammar
import Calculator.Proofs.Fragments
import Calculator.Proofs.Reading
import Calculator.Proofs.Culprits
import Calculator.Proofs.Alternation
import Calculator.Proofs.Correspondence
import Calculator.Proofs.Shape
import Calculator.Proofs.EntryCount
import Calculator.Proofs.LengthCheck
import Calculator.Proofs.Spacing
import Calculator.Proofs.Binary64
import Calculator.Proofs.FiniteForm
import Calculator.Proofs.Positional
import Calculator.Proofs.Printing
import Calculator.Proofs.Tokenizing
import Calculator.Proofs.Classifying
import Calculator.Proofs.CommandWords
import Calculator.Proofs.FileMode
import Calculator.Proofs.Logging
import Calculator.Proofs.Batches
