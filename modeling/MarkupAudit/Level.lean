import MarkupAudit.Text.Blank
import MarkupAudit.Text.Case

/-! Conformance levels. -/

namespace MarkupAudit

/-- A conformance level, from the least demanding to the most. -/
inductive Level where
  | a
  | aa
  | aaa
deriving Repr, DecidableEq

namespace Level

/-- The levels in order. -/
def all : List Level := [.a, .aa, .aaa]

/-- The name of a level. -/
def name : Level → String
  | .a => "A"
  | .aa => "AA"
  | .aaa => "AAA"

/-- The level of the name. -/
def named? (s : String) : Option Level :=
  all.find? fun level => level.name == s

theorem named?_eq_some_iff {s : String} {level : Level} :
    named? s = some level ↔ level.name = s := by
  constructor
  · intro h
    simpa using List.find?_some h
  · rintro rfl
    cases level <;> decide

/-- The level that a text names, in either case and with white space around the name. -/
def ofString? (s : String) : Option Level :=
  named? (Text.upperString (Text.trimString s))

end Level

end MarkupAudit
