import MarkupAudit.Markup.Attribute

/-! Changes to the attributes of an opening tag. -/

namespace MarkupAudit.Markup

/-- An attribute as it is written into a tag: bare, or with its value between double quotation
marks. -/
def writeAttribute (name : Text) : Option Text → Text
  | none => name
  | some value => name ++ '=' :: '"' :: value ++ ['"']

/-- The tag with the attribute right after its name. A tag that has the attribute already, or has no
name, stays as it is. -/
def insertAttribute (name : Text) (value : Option Text) (tag : Text) : Text :=
  if hasAttribute tag name then tag
  else match tagHead? tag with
    | none => tag
    | some head => head.lead ++ head.name ++ ' ' :: writeAttribute name value ++ head.rest

/-- The tag with the attribute's value replaced, or with the attribute inserted if it is not there.
An attribute without a value stays as it is. -/
def setAttribute (name value tag : Text) : Text :=
  if hasAttribute tag name then
    match valueAt? tag name with
    | none => tag
    | some (offset, written) =>
      tag.take offset ++ '"' :: value ++ '"' :: tag.drop (offset + written.width)
  else insertAttribute name (some value) tag

end MarkupAudit.Markup
