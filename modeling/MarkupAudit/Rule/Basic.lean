import MarkupAudit.Pattern.Search

/-!
Rules. A rule looks for a pattern in the blanked text of a document and asks of each match, together
with the whole text, whether it is a problem; some rules also know how to mend a match.
-/

namespace MarkupAudit

/-- Why a rule gave no answer. -/
inductive Fault where
  /-- A numeral has too many digits, or digits that no number is written with. -/
  | badNumeral
  /-- A name has fewer characters than the rule looks at. -/
  | shortName
  /-- The part of the rule that was asked for is not something that can be asked. -/
  | notCallable
  /-- The rule has no pattern to look for. -/
  | noPattern
  /-- The rule gave up by itself. -/
  | raised
deriving Repr, DecidableEq

/-- Whether a match is a problem, given the matched characters and the whole text. -/
abbrev Condition := Text → Text → Except Fault Bool

/-- A condition that always has an answer. -/
def Condition.ofBool (holds : Text → Text → Bool) : Condition :=
  fun tag document => .ok (holds tag document)

/-- What a mending rule gives for a match. -/
inductive Mended where
  /-- The text to put in place of the match. -/
  | text (t : Text)
  /-- Something that is not a text, by the name of its kind. -/
  | other (kind : String)
deriving Repr, DecidableEq

/-- How a rule mends a match. -/
inductive Repair where
  | function (mend : Text → Except Fault Mended)
  /-- Something is given as the repair that cannot be asked to mend. -/
  | notCallable

/-- A repair that always gives a text. -/
def Repair.ofFunction (mend : Text → Text) : Repair :=
  .function fun tag => .ok (.text (mend tag))

/-- A rule. -/
structure Rule where
  id : String
  /-- The elements that the rule is about, as shown to users. -/
  tag : String
  /-- The name of the conformance level. -/
  level : String
  /-- The number of the success criterion. -/
  criterion : String
  /-- What to look for; none if the rule has something else in its place. -/
  pattern : Option Pattern
  /-- Whether a match is a problem; none if the rule has something else in its place. -/
  applies : Option Condition
  message : String
  recommendation : String
  repair : Option Repair := none
  /-- Whether the rule can find problems at all. -/
  implemented : Bool := true

namespace Rule

/-- Whether the rule offers a repair. -/
def fixable (r : Rule) : Bool :=
  r.repair.isSome

end Rule

end MarkupAudit
