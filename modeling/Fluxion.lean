import Fluxion.Answer
import Fluxion.Binary64
import Fluxion.Binary64.Printer
import Fluxion.Bracket
import Fluxion.Chain
import Fluxion.Decimal
import Fluxion.Decimal.Fixed
import Fluxion.Decimal.Shortest
import Fluxion.Expr
import Fluxion.Expr.Derivative
import Fluxion.Expr.Parser
import Fluxion.Expr.Printer
import Fluxion.InPlace
import Fluxion.Main
import Fluxion.Numeral
import Fluxion.Op
import Fluxion.Proofs.Answer.Block
import Fluxion.Proofs.Answer.Characters
import Fluxion.Proofs.Binary64.Bits
import Fluxion.Proofs.Binary64.Halves
import Fluxion.Proofs.Binary64.Nearest
import Fluxion.Proofs.Binary64.Neighbours
import Fluxion.Proofs.Bracket.Balance
import Fluxion.Proofs.Bracket.Matching
import Fluxion.Proofs.Bracket.Nearest
import Fluxion.Proofs.Bracket.Pairing
import Fluxion.Proofs.Bracket.Surplus
import Fluxion.Proofs.Bracket.Wrapping
import Fluxion.Proofs.Chain.Cut
import Fluxion.Proofs.Chain.Grouping
import Fluxion.Proofs.Decimal.Accuracy
import Fluxion.Proofs.Decimal.Front
import Fluxion.Proofs.Decimal.Literal
import Fluxion.Proofs.Decimal.Trimming
import Fluxion.Proofs.Decimal.Value
import Fluxion.Proofs.Expr.Acceptable
import Fluxion.Proofs.Expr.Acceptance
import Fluxion.Proofs.Expr.Calculus
import Fluxion.Proofs.Expr.Conservation
import Fluxion.Proofs.Expr.Constants
import Fluxion.Proofs.Expr.Growth
import Fluxion.Proofs.Expr.Image
import Fluxion.Proofs.Expr.Likeness
import Fluxion.Proofs.Expr.Loosest
import Fluxion.Proofs.Expr.Places
import Fluxion.Proofs.Expr.Precedence
import Fluxion.Proofs.Expr.Provenance
import Fluxion.Proofs.Expr.Reacceptance
import Fluxion.Proofs.Expr.Reading
import Fluxion.Proofs.Expr.RealReading
import Fluxion.Proofs.Expr.Redundancy
import Fluxion.Proofs.Expr.Rereading
import Fluxion.Proofs.Expr.Settling
import Fluxion.Proofs.Expr.Unambiguity
import Fluxion.Proofs.Expr.Vocabulary
import Fluxion.Proofs.InPlace.Brackets
import Fluxion.Proofs.InPlace.Operators
import Fluxion.Proofs.InPlace.Parts
import Fluxion.Proofs.InPlace.Reading
import Fluxion.Proofs.InPlace.Unnested
import Fluxion.Proofs.Numeral.Grammar
import Fluxion.Proofs.Numeral.Literal
import Fluxion.Proofs.Numeral.Scaled
import Fluxion.Proofs.Session.Lines
import Fluxion.Proofs.Text.Utf8
import Fluxion.Rounding
import Fluxion.Session
import Fluxion.Shape
import Fluxion.Text.Backspace
import Fluxion.Text.Blank
import Fluxion.Text.Cluster
import Fluxion.Text.ClusterBreak
import Fluxion.Text.GraphemeBase
import Fluxion.Text.Ignorable
import Fluxion.Text.Quoted
import Fluxion.Workbench
