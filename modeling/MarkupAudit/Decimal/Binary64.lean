/-!
Floating-point numbers by their bits: a finite number is a whole number, its mantissa, times a power
of two.
-/

namespace MarkupAudit.Decimal

/-- What the bits of a floating-point number say. -/
inductive Binary64 where
  /-- The number `mantissa * 2 ^ exponent`, or its negative. -/
  | finite (negative : Bool) (mantissa : Nat) (exponent : Int)
  | infinite (negative : Bool)
  | nan
deriving Repr, DecidableEq

namespace Binary64

/-- Reads the sign, the eleven bits of the exponent and the 52 bits of the fraction. -/
def ofFloat (x : Float) : Binary64 :=
  let bits := x.toBits.toNat
  let negative := bits / Nat.pow 2 63 == 1
  let biased : Nat := bits / Nat.pow 2 52 % Nat.pow 2 11
  let fraction : Nat := bits % Nat.pow 2 52
  if biased == 2047 then if fraction == 0 then infinite negative else nan
  else if biased == 0 then finite negative fraction (-1074)
  else finite negative (Nat.pow 2 52 + fraction) ((biased : Int) - 1075)

/-- The greatest whole number that is not greater than a finite number. -/
def floor? : Binary64 → Option Int
  | finite negative mantissa exponent =>
    let signed : Int := if negative then -mantissa else mantissa
    some (if 0 ≤ exponent then signed * Nat.pow 2 exponent.toNat
      else Int.fdiv signed (Nat.pow 2 (-exponent).toNat))
  | _ => none

end Binary64

end MarkupAudit.Decimal
