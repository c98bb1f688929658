import TypedExpr.Engine.Lookup
import TypedExpr.Eval.Listing
import TypedExpr.Expr.Listing
import TypedExpr.Expr.Text
import TypedExpr.Proofs.Acceptance
import TypedExpr.Proofs.Arithmetic
import TypedExpr.Proofs.Casts
import TypedExpr.Proofs.Collections
import TypedExpr.Proofs.Collections.Bits
import TypedExpr.Proofs.Compound
import TypedExpr.Proofs.Conformance
import TypedExpr.Proofs.Declarations
import TypedExpr.Proofs.Depth
import TypedExpr.Proofs.Frame
import TypedExpr.Proofs.Grammar.Precedence
import TypedExpr.Proofs.Hiding
import TypedExpr.Proofs.Inequality
import TypedExpr.Proofs.Lineage
import TypedExpr.Proofs.Linearity
import TypedExpr.Proofs.Lines
import TypedExpr.Proofs.Literals
import TypedExpr.Proofs.Positions
import TypedExpr.Proofs.Purity
import TypedExpr.Proofs.Scanning.Brackets
import TypedExpr.Proofs.Scanning.TypeText
import TypedExpr.Proofs.Spans
import TypedExpr.Proofs.Text
import TypedExpr.Proofs.Text.Bytes
import TypedExpr.View
