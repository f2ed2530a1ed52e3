import MarkupAudit.Markup.Attribute

/-! The declarations of a tag's style attribute. -/

namespace MarkupAudit.Markup

/-- Properties with their values, each property once, in the order in which they first appear. -/
abbrev Style := List (Text × Text)

namespace Style

/-- Sets a property: in its place if it is there, otherwise at the end. -/
def set (property value : Text) : Style → Style
  | [] => [(property, value)]
  | (p, v) :: style =>
    if p = property then (p, value) :: style else (p, v) :: set property value style

/-- The value of a property. -/
def get? (style : Style) (property : String) : Option Text :=
  (style.find? fun entry => entry.1 == property.toList).map (·.2)

/-- The value of a property, or no characters. -/
def get (style : Style) (property : String) : Text :=
  (style.get? property).getD []

/-- Whether a property is set. -/
def has (style : Style) (property : String) : Bool :=
  (style.get? property).isSome

/-- Sets what a declaration says. A declaration without a colon or without a property says
nothing. -/
def declare (style : Style) (declaration : Text) : Style :=
  match declaration.dropWhile (· != ':') with
  | [] => style
  | _ :: value =>
    let property := Text.lower (Text.trim (declaration.takeWhile (· != ':')))
    if property.isEmpty then style else style.set property (Text.trim value)

/-- The declarations between semicolons, from left to right. -/
def ofText (t : Text) : Style :=
  (Text.splitAt ';' t).foldl declare []

end Style

/-- The declarations of the style attribute. -/
def styleOf (tag : Text) : Style :=
  Style.ofText (attributeValue tag "style")

end MarkupAudit.Markup
