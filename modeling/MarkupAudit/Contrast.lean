import MarkupAudit.Text.Blank
import MarkupAudit.Text.Numeral

/-!
Colours and the contrast between them, by the relative luminance of sRGB colours. A colour that is
not written as six hexadecimal digits cannot be judged, and then counts as having enough contrast.
-/

namespace MarkupAudit

/-- A colour by its red, green and blue components, 0 to 255. -/
structure Rgb where
  red : Nat
  green : Nat
  blue : Nat
deriving Repr, DecidableEq

namespace Rgb

/-- The colour that six hexadecimal digits write. -/
def ofDigits? : Text → Option Rgb
  | [r₁, r₀, g₁, g₀, b₁, b₀] => do
    let red := 16 * (← Text.hexValue? r₁) + (← Text.hexValue? r₀)
    let green := 16 * (← Text.hexValue? g₁) + (← Text.hexValue? g₀)
    let blue := 16 * (← Text.hexValue? b₁) + (← Text.hexValue? b₀)
    return { red, green, blue }
  | _ => none

/-- The colour that a text writes, with or without a number sign before its six digits and with
white space around them. -/
def ofText? (t : Text) : Option Rgb :=
  match Text.trim t with
  | '#' :: digits => ofDigits? digits
  | digits => ofDigits? digits

/-- Whether a text is a number sign and six hexadecimal digits. -/
def isWritten : Text → Bool
  | '#' :: digits => (ofDigits? digits).isSome
  | _ => false

end Rgb

namespace Contrast

/-- The least contrast of text and its background. -/
def textMinimum : Float := 4.5

/-- The least contrast of a control and its background. -/
def controlMinimum : Float := 3.0

/-- The light of one component, given as a fraction of the greatest. -/
def light (v : Float) : Float :=
  if v ≤ 0.03928 then v / 12.92 else Float.pow ((v + 0.055) / 1.055) 2.4

/-- The relative luminance of a colour with the given components. -/
def luminance (red green blue : Float) : Float :=
  0.2126 * light (red / 255.0) + 0.7152 * light (green / 255.0) + 0.0722 * light (blue / 255.0)

/-- The relative luminance for any three whole numbers, unless a number or the light of one is
beyond the greatest floating-point number. -/
def luminance? (red green blue : Int) : Option Float :=
  let within (c : Int) : Bool :=
    let v := Float.ofInt c
    v.isFinite && (light (v / 255.0)).isFinite
  if within red && within green && within blue then
    some (luminance (Float.ofInt red) (Float.ofInt green) (Float.ofInt blue))
  else none

/-- The relative luminance of a colour. -/
def luminanceOf (c : Rgb) : Float :=
  luminance (Float.ofNat c.red) (Float.ofNat c.green) (Float.ofNat c.blue)

/-- The contrast ratio of two colours, at least 1. -/
def ratio (a b : Rgb) : Float :=
  let x := luminanceOf a
  let y := luminanceOf b
  let lighter := if y > x then y else x
  let darker := if y < x then y else x
  (lighter + 0.05) / (darker + 0.05)

/-- The contrast ratio of two written colours. -/
def ratio? (foreground background : Text) : Option Float :=
  match Rgb.ofText? foreground, Rgb.ofText? background with
  | some a, some b => some (ratio a b)
  | _, _ => none

/-- Whether two written colours have the contrast, or cannot be judged. -/
def meets (foreground background : Text) (minimum : Float) : Bool :=
  match ratio? foreground background with
  | some r => r ≥ minimum
  | none => true

end Contrast

end MarkupAudit
