import MarkupAudit.Rule.Basic
import MarkupAudit.Text.Digit

/-! The ids of rules, and rules in the order of the numbers in their ids. -/

namespace MarkupAudit.Catalog

/-- The text without a line feed at its end. -/
def withoutLastLineFeed (t : Text) : Text :=
  if t.getLast? = some '\n' then t.dropLast else t

/-- Whether an id is the letter R and decimal digits, perhaps with a line feed after them. -/
def isRuleId (id : String) : Bool :=
  match withoutLastLineFeed id.toList with
  | 'R' :: digits => !digits.isEmpty && digits.all Text.isDecimal
  | _ => false

/-- The number in the id of a rule; 0 if the id is not the letter R and decimal digits. The ids that
are put in order are those of the known rules, none of which has too many digits for a numeral. -/
def number (r : Rule) : Nat :=
  match withoutLastLineFeed r.id.toList with
  | 'R' :: digits => (Text.decimalFrom 0 digits).getD 0
  | _ => 0

/-- The rules by number; rules with the same number stay in order. -/
def byNumber (rules : List Rule) : List Rule :=
  rules.mergeSort fun a b => number a ≤ number b

end MarkupAudit.Catalog
