import MarkupAudit.Json.Value
import MarkupAudit.Text.Basic
import MarkupAudit.Text.Digit

/-!
Reading JSON. Besides the values of the standard, `NaN`, `Infinity` and `-Infinity` are read as
numbers. Of members with one key the last gives the value and the first gives the place. A text has
no surrogates: one that is escaped without its other half is kept as a character of private use.
-/

namespace MarkupAudit.Json

/-- Why a text is not read. -/
inductive ReadError where
  /-- The text is not JSON. -/
  | malformed
  /-- A whole number has more digits than a numeral may have. -/
  | longNumeral
  /-- Lists and objects are nested too deeply. -/
  | tooDeep
deriving Repr, DecidableEq

namespace Reader

/-- The greatest depth of lists and objects inside each other. -/
def depthLimit : Nat := 990

/-- White space between the parts of a value. -/
def isGap (c : Char) : Bool :=
  c = ' ' || c = '\t' || c = '\n' || c = '\r'

/-- The text without leading white space. -/
def skipGap (t : Text) : Text :=
  t.dropWhile isGap

/-- The number that four hexadecimal digits write. -/
def unit? (a b c d : Char) : Option Nat := do
  let high := 16 * (← Text.hexValue? a) + (← Text.hexValue? b)
  let low := 16 * (← Text.hexValue? c) + (← Text.hexValue? d)
  return 256 * high + low

/-- The character that a backslash and a letter stand for. -/
def escape? : Char → Option Char
  | '"' => some '"'
  | '\\' => some '\\'
  | '/' => some '/'
  | 'b' => some '\x08'
  | 'f' => some '\x0c'
  | 'n' => some '\n'
  | 'r' => some '\r'
  | 't' => some '\t'
  | _ => none

/-- The code units up to the closing quotation mark, and the text after it. -/
def units? : Text → Option (List Nat × Text)
  | '"' :: r => some ([], r)
  | '\\' :: 'u' :: a :: b :: c :: d :: r => do
    let n ← unit? a b c d
    let (ns, rest) ← units? r
    return (n :: ns, rest)
  | '\\' :: c :: r => do
    let e ← escape? c
    let (ns, rest) ← units? r
    return (e.toNat :: ns, rest)
  | c :: r =>
    if c < ' ' || c = '\\' then none
    else do
      let (ns, rest) ← units? r
      return (c.toNat :: ns, rest)
  | [] => none

/-- Whether a code unit is the first or the second half of a pair. -/
def isSurrogate (n : Nat) : Bool :=
  0xD800 ≤ n && n < 0xE000

/-- The character of a code unit that is not in a pair. Each surrogate has a private-use character
of its own, from U+10F000 to U+10F7FF, that stands for it: it is neither a space nor a letter, has
no other case, and is not printed. -/
def ofUnit (n : Nat) : Char :=
  if isSurrogate n then Char.ofNat (0x10F000 + (n - 0xD800)) else Char.ofNat n

/-- The characters of code units, of which a high and a low surrogate make one. -/
def ofUnits : List Nat → List Char
  | [] => []
  | [n] => [ofUnit n]
  | n :: m :: ns =>
    if 0xD800 ≤ n && n < 0xDC00 && 0xDC00 ≤ m && m < 0xE000 then
      Char.ofNat (0x10000 + (n - 0xD800) * 0x400 + (m - 0xDC00)) :: ofUnits ns
    else ofUnit n :: ofUnits (m :: ns)

/-- A text in quotation marks, after the opening one. -/
def string (t : Text) : Except ReadError (String × Text) :=
  match units? t with
  | some (ns, rest) => .ok (String.ofList (ofUnits ns), rest)
  | none => .error .malformed

/-- The number that digits write. -/
def natOf (digits : Text) : Nat :=
  digits.foldl (fun n c => 10 * n + (c.toNat - '0'.toNat)) 0

/-- The floating-point number nearest to `digits` times ten to the power of `exponent`. -/
def floatOf (digits : Nat) (exponent : Int) : Float :=
  let size : Int := (Nat.toDigits 10 digits).length
  if digits == 0 || size + exponent < -400 then 0.0
  else if 400 < size + exponent then 1.0 / 0.0
  else if exponent < 0 then Float.ofScientific digits true exponent.natAbs
  else Float.ofScientific digits false exponent.natAbs

/-- The fraction of a number, if one follows: its digits and the text after them. -/
def fraction : Text → Text × Text
  | '.' :: r =>
    let digits := r.takeWhile Char.isDigit
    if digits.isEmpty then ([], '.' :: r) else (digits, r.dropWhile Char.isDigit)
  | t => ([], t)

/-- The exponent of a number, if one follows, and the text after it. -/
def exponent (t : Text) : Option Int × Text :=
  match t with
  | e :: r =>
    if e = 'e' || e = 'E' then
      let (negative, unsigned) : Bool × Text := match r with
        | '-' :: u => (true, u)
        | '+' :: u => (false, u)
        | u => (false, u)
      let digits := unsigned.takeWhile Char.isDigit
      if digits.isEmpty then (none, t)
      else
        let n : Int := natOf digits
        (some (if negative then -n else n), unsigned.dropWhile Char.isDigit)
    else (none, t)
  | [] => (none, t)

/-- The digits before the point: a zero, or digits that do not start with one. -/
def wholeDigits : Text → Text × Text
  | '0' :: r => (['0'], r)
  | t => (t.takeWhile Char.isDigit, t.dropWhile Char.isDigit)

/-- A number without its sign. -/
def number (negative : Bool) (t : Text) : Except ReadError (Value × Text) :=
  let (whole, afterWhole) := wholeDigits t
  if whole.isEmpty then .error .malformed
  else
    let (part, afterPart) := fraction afterWhole
    let (power, rest) := exponent afterPart
    if part.isEmpty && power.isNone then
      if Text.numeralLimit < whole.length then .error .longNumeral
      else
        let n : Int := natOf whole
        .ok (.int (if negative then -n else n), rest)
    else
      let x := floatOf (natOf (whole ++ part)) (power.getD 0 - part.length)
      .ok (.float (if negative then -x else x), rest)

/-- What follows the word if the text starts with it. -/
def afterWord? (word : String) (t : Text) : Option Text :=
  if word.toList.isPrefixOf t then some (t.drop word.length) else none

/-- A value that is neither a text nor a list nor an object. -/
def scalar (t : Text) : Except ReadError (Value × Text) :=
  let word (w : String) (v : Value) : Option (Value × Text) := (afterWord? w t).map fun r => (v, r)
  let found := (word "null" .null) <|> (word "true" (.bool true)) <|> (word "false" (.bool false))
    <|> (word "NaN" (.float (0.0 / 0.0))) <|> (word "Infinity" (.float (1.0 / 0.0)))
    <|> (word "-Infinity" (.float (-(1.0 / 0.0))))
  match found, t with
  | some r, _ => .ok r
  | none, '-' :: r => number true r
  | none, _ => number false t

mutual

/-- A value at the start of the text. -/
def value (fuel depth : Nat) (t : Text) : Except ReadError (Value × Text) :=
  match fuel with
  | 0 => .error .malformed
  | fuel + 1 =>
    match t, depth with
    | '"' :: r, _ => (string r).map fun (s, rest) => (.string s, rest)
    | '[' :: _, 0 => .error .tooDeep
    | '[' :: r, depth + 1 =>
      match skipGap r with
      | ']' :: rest => .ok (.array [], rest)
      | start => (items fuel depth start).map fun (vs, rest) => (.array vs, rest)
    | '\x7b' :: _, 0 => .error .tooDeep
    | '\x7b' :: r, depth + 1 =>
      match skipGap r with
      | '\x7d' :: rest => .ok (.object [], rest)
      | start => (members fuel depth [] start).map fun (ms, rest) => (.object ms, rest)
    | _, _ => scalar t

/-- The items of a list up to its end; the text starts with an item. -/
def items (fuel depth : Nat) (t : Text) : Except ReadError (List Value × Text) :=
  match fuel with
  | 0 => .error .malformed
  | fuel + 1 => do
    let (v, afterValue) ← value fuel depth t
    match skipGap afterValue with
    | ']' :: rest => .ok ([v], rest)
    | ',' :: r =>
      let (vs, rest) ← items fuel depth (skipGap r)
      .ok (v :: vs, rest)
    | _ => .error .malformed

/-- The members of an object up to its end, after the members `found`; the text starts with a
member. -/
def members (fuel depth : Nat) (found : List (String × Value)) (t : Text) :
    Except ReadError (List (String × Value) × Text) :=
  match fuel with
  | 0 => .error .malformed
  | fuel + 1 =>
    match t with
    | '"' :: r => do
      let (key, afterKey) ← string r
      match skipGap afterKey with
      | ':' :: r =>
        let (v, afterValue) ← value fuel depth (skipGap r)
        let found := Value.set key v found
        match skipGap afterValue with
        | '\x7d' :: rest => .ok (found, rest)
        | ',' :: r => members fuel depth found (skipGap r)
        | _ => .error .malformed
      | _ => .error .malformed
    | _ => .error .malformed

end

end Reader

/-- The value that a text writes, with nothing but white space around it. -/
def read (s : String) : Except ReadError Value :=
  let t := s.toList
  match Reader.value (2 * t.length + 2) Reader.depthLimit (Reader.skipGap t) with
  | .error e => .error e
  | .ok (v, rest) => if (Reader.skipGap rest).isEmpty then .ok v else .error .malformed

end MarkupAudit.Json
