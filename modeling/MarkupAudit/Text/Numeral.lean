/-! Written numbers: digits padded with zeros, in decimal and in hexadecimal. -/

namespace MarkupAudit.Text

/-- The digits with zeros on the left up to the width. -/
def padZeros (width : Nat) (digits : List Char) : List Char :=
  List.replicate (width - digits.length) '0' ++ digits

/-- The number in decimal digits, at least `width` of them. -/
def decimal (width n : Nat) : String :=
  String.ofList (padZeros width (Nat.toDigits 10 n))

/-- The number in lower case hexadecimal digits, at least `width` of them. -/
def hexadecimal (width n : Nat) : String :=
  String.ofList (padZeros width (Nat.toDigits 16 n))

/-- The value of a hexadecimal digit, `0` to `9`, `a` to `f` or `A` to `F`. -/
def hexValue? (c : Char) : Option Nat :=
  if '0' ≤ c ∧ c ≤ '9' then some (c.toNat - '0'.toNat)
  else if 'a' ≤ c ∧ c ≤ 'f' then some (c.toNat - 'a'.toNat + 10)
  else if 'A' ≤ c ∧ c ≤ 'F' then some (c.toNat - 'A'.toNat + 10)
  else none

end MarkupAudit.Text
