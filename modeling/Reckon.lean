import Reckon.Calculator
import Reckon.Settings.File
import Reckon.Proofs.Grammar.Derivation
import Reckon.Proofs.Grammar.Uniqueness
import Reckon.Proofs.Grammar.Soundness
import Reckon.Proofs.Grammar.Completeness
import Reckon.Proofs.Token.Step
import Reckon.Proofs.Registry.Reached
import Reckon.Proofs.Token.Lexeme
import Reckon.Proofs.Decimal.Numeral
import Reckon.Proofs.Token.Scan
import Reckon.Proofs.Grammar.Laying
import Reckon.Proofs.Grammar.Growth
import Reckon.Proofs.Grammar.Parsing
import Reckon.Proofs.Grammar.Refusal
import Reckon.Proofs.Grammar.Extent
import Reckon.Proofs.Grammar.Outcomes
import Reckon.Proofs.Grammar.Placement
import Reckon.Proofs.Grammar.Composition
import Reckon.Proofs.Grammar.Restriction
import Reckon.Proofs.Evaluation.Meaning
import Reckon.Proofs.Tree.Built
import Reckon.Proofs.Evaluation.Refinement
import Reckon.Proofs.Tree.Made
import Reckon.Proofs.Evaluation.Pass
import Reckon.Proofs.Evaluation.NullsAsZero
import Reckon.Proofs.Evaluation.Nulls
import Reckon.Proofs.Token.Classes
import Reckon.Proofs.Registry.Calls
import Reckon.Proofs.Token.Cutting
import Reckon.Proofs.Token.Lexing
import Reckon.Proofs.Token.RoundTrip
import Reckon.Proofs.Token.Embedding
import Reckon.Proofs.Tree.Depth
import Reckon.Proofs.Tree.Building
import Reckon.Proofs.Operation.Arithmetic
import Reckon.Proofs.Evaluation.Calculation
import Reckon.Proofs.Evaluation.Escape
import Reckon.Proofs.Grammar.Likeness
import Reckon.Proofs.Tree.Likeness
import Reckon.Proofs.Registry.Extension
import Reckon.Proofs.Token.Stripping
import Reckon.Proofs.Evaluation.Likeness
import Reckon.Proofs.Evaluation.Forms
import Reckon.Proofs.Evaluation.Reuse
import Reckon.Proofs.Evaluation.Stripping
import Reckon.Proofs.Text.Lines
import Reckon.Proofs.Diagnostic
import Reckon.Proofs.Token.Position
import Reckon.Proofs.Tree.Position
import Reckon.Proofs.Grammar.Position
import Reckon.Proofs.Normalization
import Reckon.Proofs.Delivery
import Reckon.Proofs.Request
import Reckon.Proofs.Evaluation.Failure
import Reckon.Proofs.Registry.Precedence
import Reckon.Proofs.Evaluation.Variables
import Reckon.Proofs.Grammar.Measures
import Reckon.Proofs.Tree.Rooting
import Reckon.Proofs.Token.Skipping
import Reckon.Proofs.Token.Layout
import Reckon.Proofs.Tree.Order
import Reckon.Proofs.Grammar.Correspondence
import Reckon.Proofs.Tree.Preorder
import Reckon.Proofs.Tree.Outline
import Reckon.Proofs.Token.Shortest
import Reckon.Proofs.Evaluation.Calls
import Reckon.Proofs.Tree.Postorder
import Reckon.Proofs.Grammar.Moment
import Reckon.Proofs.Grammar.Mirror
import Reckon.Proofs.Grammar.CallDepth
import Reckon.Proofs.Grammar.Ending
