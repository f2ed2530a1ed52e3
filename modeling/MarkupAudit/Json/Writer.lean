import MarkupAudit.Json.Value

/-!
Writing JSON, with an indentation of two spaces for each level and with every character outside of
printable ASCII as one or two code units of 16 bits.
-/

namespace MarkupAudit.Json

namespace Writer

/-- A code unit of 16 bits, as an escape. -/
def unit (n : Nat) : String :=
  "\\u" ++ Text.hexadecimal 4 n

/-- A character as it stands in a text. -/
def char (c : Char) : String :=
  if c = '"' then "\\\""
  else if c = '\\' then "\\\\"
  else if c = '\n' then "\\n"
  else if c = '\r' then "\\r"
  else if c = '\t' then "\\t"
  else if c = '\x08' then "\\b"
  else if c = '\x0c' then "\\f"
  else if ' ' ≤ c ∧ c ≤ '~' then String.singleton c
  else if c.toNat < 0x10000 then unit c.toNat
  else unit (0xD800 + (c.toNat - 0x10000) / 0x400) ++ unit (0xDC00 + (c.toNat - 0x10000) % 0x400)

/-- A text in quotation marks. -/
def string (s : String) : String :=
  "\"" ++ String.join (s.toList.map char) ++ "\""

/-- A line break and the indentation of a level. -/
def newLine (level : Nat) : String :=
  "\n" ++ String.ofList (List.replicate (2 * level) ' ')

/-- The parts on lines of their own between two brackets, or the brackets alone. -/
def block (level : Nat) (opening closing : String) (parts : List String) : String :=
  if parts.isEmpty then opening ++ closing
  else opening ++ newLine (level + 1) ++ ("," ++ newLine (level + 1)).intercalate parts ++
    newLine level ++ closing

/-- Numbers that are not whole are written as in messages. -/
def floatLayout : Decimal.Layout :=
  { Json.floatLayout with infinity := "Infinity", notANumber := "NaN" }

mutual

/-- A value at a level of indentation. -/
def value (level : Nat) : Value → String
  | .null => "null"
  | .bool b => if b then "true" else "false"
  | .int n => toString n
  | .float x => floatLayout.render x
  | .string s => string s
  | .array vs => block level "[" "]" (items (level + 1) vs)
  | .object ms => block level "\x7b" "\x7d" (members (level + 1) ms)

/-- The items of a list. -/
def items (level : Nat) : List Value → List String
  | [] => []
  | v :: vs => value level v :: items level vs

/-- The members of an object. -/
def members (level : Nat) : List (String × Value) → List String
  | [] => []
  | m :: ms => member level m :: members level ms

/-- A member of an object. -/
def member (level : Nat) : String × Value → String
  | (key, v) => string key ++ ": " ++ value level v

end

end Writer

/-- The value as a text. -/
def write (v : Value) : String :=
  Writer.value 0 v

end MarkupAudit.Json
