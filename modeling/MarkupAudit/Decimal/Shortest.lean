import MarkupAudit.Decimal.Binary64
import MarkupAudit.Text.Numeral

/-!
The fewest decimal digits that read back to a floating-point number. Of the decimals with that many
digits that read back, the one nearest to the number is taken.
-/

namespace MarkupAudit.Decimal

/-- The decimal `0.d₁d₂…` times ten to the power of `point`. -/
structure Digits where
  digits : List Char
  point : Int
deriving Repr, DecidableEq

namespace Shortest

/-- The least number of tens that lift `num / den` to one or more, looking at `fuel` of them. -/
def liftBy (num den : Nat) : Nat → Nat
  | 0 => 0
  | fuel + 1 => if den ≤ num then 0 else liftBy (10 * num) den fuel + 1

/-- The place of the decimal point: the `e` with `10 ^ (e - 1) ≤ num / den < 10 ^ e`. -/
def pointOf (num den : Nat) : Int :=
  if den ≤ num then (Nat.toDigits 10 (num / den)).length
  else 1 - (liftBy num den (Nat.log2 den + 2) : Nat)

/-- A number in quarters of a unit `2 ^ exponent`, with the ends of the interval of numbers that
are nearer to it than to its neighbours. -/
structure Interval where
  value : Nat
  low : Nat
  high : Nat
  /-- Whether the ends themselves read back to the number. -/
  closed : Bool
  exponent : Int

/-- The interval of `mantissa * 2 ^ exponent`. Below a power of two the neighbours are closer. -/
def intervalOf (mantissa : Nat) (exponent : Int) : Interval where
  value := 4 * mantissa
  low := if mantissa == Nat.pow 2 52 && exponent != -1074 then 4 * mantissa - 1 else 4 * mantissa - 2
  high := 4 * mantissa + 2
  closed := mantissa % 2 == 0
  exponent := exponent - 2

/-- The factors by which `d * 10 ^ p` and `x * 2 ^ q` are compared as whole numbers. -/
def factors (p q : Int) : Nat × Nat :=
  (Nat.pow 10 p.toNat * Nat.pow 2 (-q).toNat, Nat.pow 10 (-p).toNat * Nat.pow 2 q.toNat)

/-- The whole number `d` for which `d * 10 ^ p` is in the interval and nearest to the value, the
even one of two equally near. -/
def nearest? (i : Interval) (p : Int) : Option Nat :=
  let (a, b) := factors p i.exponent
  let below := i.value * b / a
  let inside (d : Nat) : Bool :=
    if i.closed then i.low * b ≤ d * a && d * a ≤ i.high * b
    else i.low * b < d * a && d * a < i.high * b
  let gapBelow := i.value * b - below * a
  let gapAbove := (below + 1) * a - i.value * b
  if inside below then
    if inside (below + 1) &&
        (gapAbove < gapBelow || gapAbove == gapBelow && below % 2 == 1) then some (below + 1)
    else some below
  else if inside (below + 1) then some (below + 1)
  else none

/-- Tries `count` digits and then more, `fuel` times. -/
def select (i : Interval) (point : Int) (count : Nat) : Nat → Digits
  | 0 => { digits := ['0'], point := 1 }
  | fuel + 1 =>
    match nearest? i (point - count) with
    | some d =>
      let text := Nat.toDigits 10 d
      let kept := (text.reverse.dropWhile (· == '0')).reverse
      { digits := kept, point := point - count + text.length }
    | none => select i point (count + 1) fuel

end Shortest

open Shortest in
/-- The fewest digits of `mantissa * 2 ^ exponent`, which is not zero. -/
def shortest (mantissa : Nat) (exponent : Int) : Digits :=
  let i := intervalOf mantissa exponent
  let point := pointOf (mantissa * Nat.pow 2 exponent.toNat) (Nat.pow 2 (-exponent).toNat)
  select i point 1 17

/-- How digits are written out. -/
structure Layout where
  /-- The least place of the point that is written without an exponent. -/
  least : Int
  /-- The greatest one. -/
  greatest : Int
  /-- The least number of digits of an exponent. -/
  exponentWidth : Nat
  infinity : String
  notANumber : String

/-- The digits with a decimal point and at least one digit on each side of it, or with an
exponent. -/
def Layout.write (layout : Layout) (d : Digits) : List Char :=
  let count : Int := d.digits.length
  if layout.least ≤ d.point && d.point ≤ layout.greatest then
    if d.point ≤ 0 then '0' :: '.' :: List.replicate (-d.point).toNat '0' ++ d.digits
    else if count ≤ d.point then
      d.digits ++ List.replicate (d.point - count).toNat '0' ++ ['.', '0']
    else d.digits.take d.point.toNat ++ '.' :: d.digits.drop d.point.toNat
  else
    let exponent := d.point - 1
    let sign := if exponent < 0 then '-' else '+'
    let fraction := match d.digits.drop 1 with
      | [] => []
      | rest => '.' :: rest
    d.digits.take 1 ++ fraction ++ 'e' :: sign ::
      Text.padZeros layout.exponentWidth (Nat.toDigits 10 exponent.natAbs)

/-- A floating-point number in the fewest digits that read back. -/
def Layout.render (layout : Layout) (x : Float) : String :=
  match Binary64.ofFloat x with
  | .nan => layout.notANumber
  | .infinite negative => if negative then "-" ++ layout.infinity else layout.infinity
  | .finite negative mantissa exponent =>
    let text := if mantissa == 0 then ['0', '.', '0']
      else layout.write (shortest mantissa exponent)
    String.ofList (if negative then '-' :: text else text)

end MarkupAudit.Decimal
