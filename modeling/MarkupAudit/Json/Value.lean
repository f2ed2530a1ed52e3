import MarkupAudit.Decimal.Shortest
import MarkupAudit.Text.Quoted

/-!
JSON values, and their text in messages and settings: there texts stand in quotes inside lists and
objects, and numbers that are not whole have the fewest digits that read back.
-/

namespace MarkupAudit.Json

/-- A JSON value. The members of an object are in order, each key once. -/
inductive Value where
  | null
  | bool (b : Bool)
  | int (n : Int)
  | float (x : Float)
  | string (s : String)
  | array (items : List Value)
  | object (members : List (String × Value))
deriving Inhabited

/-- Numbers from 0.0001 up to ten to the power of sixteen are written without an exponent. -/
def floatLayout : Decimal.Layout where
  least := -3
  greatest := 16
  exponentWidth := 2
  infinity := "inf"
  notANumber := "nan"

namespace Value

mutual

/-- The text of a value with texts in quotes. -/
def shown : Value → String
  | .null => "None"
  | .bool b => if b then "True" else "False"
  | .int n => toString n
  | .float x => floatLayout.render x
  | .string s => Text.quoted s
  | .array items => "[" ++ ", ".intercalate (shownItems items) ++ "]"
  | .object members => "\x7b" ++ ", ".intercalate (shownMembers members) ++ "\x7d"

/-- The texts of the items of a list. -/
def shownItems : List Value → List String
  | [] => []
  | v :: items => shown v :: shownItems items

/-- The texts of the members of an object. -/
def shownMembers : List (String × Value) → List String
  | [] => []
  | m :: members => shownMember m :: shownMembers members

/-- The text of a member: its key in quotes and its value. -/
def shownMember : String × Value → String
  | (key, v) => Text.quoted key ++ ": " ++ shown v

end

/-- The text of a value; a text is its own. -/
def plain : Value → String
  | .string s => s
  | v => shown v

/-- The value of the key in an object. -/
def get? (members : List (String × Value)) (key : String) : Option Value :=
  (members.find? fun m => m.1 == key).map (·.2)

/-- Sets a key: in its place if it is there, otherwise at the end. -/
def set (key : String) (v : Value) : List (String × Value) → List (String × Value)
  | [] => [(key, v)]
  | m :: members => if m.1 = key then (key, v) :: members else m :: set key v members

end Value

end MarkupAudit.Json
