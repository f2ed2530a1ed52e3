import MarkupAudit.Rule.Condition

/-! Rules about labels, instructions and errors of forms. -/

namespace MarkupAudit.Guideline.InputAssistance

open Pattern Markup

/-- Whether a required field stands in a document that never speaks of errors. -/
def lacksErrorSupport (t document : Text) : Bool :=
  hasAnyAttribute t ["required", "aria-required"] &&
    !(anyWord ["error", "invalid", "aria-describedby", "aria-errormessage"]).occursIn document

/-- The tag with the identifier, with the tag's name set aside. -/
def identified (value : Text) : Pattern :=
  word "<" ++ hold (oneIn "abcdefghijklmnopqrstuvwxyz" ++ longest isNameChar) ++ wordEdge ++
    longest (· != '>') ++ wholeValue "id" value

/-- Whether a label names an element that cannot have one. -/
def namesNonControl (t document : Text) : Bool :=
  let target := attributeValue t "for"
  !target.isEmpty &&
    match (identified target).first? document with
    | none => false
    | some owner =>
      !isOneOf (Text.lower owner.held)
        ["input", "select", "textarea", "button", "meter", "output", "progress"]

/-- Whether a form has required or restricted fields and no instructions. -/
def lacksInstructions (t : Text) : Bool :=
  let body := elementBody t
  (blank ++ anyWord ["required", "aria-required", "pattern"] ++ wordEdge).occursIn body &&
    !(anyWord ["instruction", "note", "guidance", "help", "hint", "required"]).occursIn
      (innerText body)

/-- Whether a field has a placeholder in place of a label. -/
def hasPlaceholderOnly (t document : Text) : Bool :=
  let id := attributeValue t "id"
  hasAttribute t "placeholder".toList &&
    !hasAnyAttribute t ["aria-label", "aria-labelledby", "aria-describedby", "title"] &&
    !(!id.isEmpty &&
      (tagStart (word "label") ++ longest (· != '>') ++ wholeValue "for" id).occursIn document)

/-- Whether a group has a legend that is not its first child. -/
def hasLateLegend (t : Text) : Bool :=
  let body := elementBody t
  containsTag body "legend" && !(blanks ++ tagStart (word "legend")).startsIn body

/-- Whether a form speaks of errors and makes no suggestions. -/
def lacksSuggestions (t : Text) : Bool :=
  let body := elementBody t
  (word "error").occursIn body &&
    !(anyWord ["suggestion", "hint", "try again", "did you mean", "for example", "e.g."]).occursIn
      body

def errorSupport : Rule where
  id := "R74"
  tag := "input|select|textarea"
  level := "A"
  criterion := "3.3.1"
  pattern := some (tag ["input", "select", "textarea"])
  applies := some (.ofBool lacksErrorSupport)
  message := "Missing or unclear error handling for form field"
  recommendation :=
    "Include specific error messages and associate them with form fields using " ++
      "aria-describedby or inline hints."

def labelOwner : Rule where
  id := "R75"
  tag := "label"
  level := "A"
  criterion := "3.3.2"
  pattern := some (tag ["label"])
  applies := some (.ofBool namesNonControl)
  message := "Label missing field association or clear instruction"
  recommendation :=
    "Use the 'for' attribute or aria-label/aria-labelledby to associate the label with a " ++
      "field, and include helpful instructions."

def formInstructions : Rule where
  id := "R76"
  tag := "form"
  level := "A"
  criterion := "3.3.2"
  pattern := some (element "form")
  applies := some (.ofTag lacksInstructions)
  message := "Form or field missing user instructions"
  recommendation :=
    "Provide clear guidance at the top of the form or next to relevant fields to help " ++
      "users understand what to do."

def placeholder : Rule where
  id := "R77"
  tag := "input|textarea"
  level := "A"
  criterion := "3.3.2"
  pattern := some (tag ["input", "textarea"])
  applies := some (.ofBool hasPlaceholderOnly)
  message := "Form control lacks descriptive label"
  recommendation :=
    "Use aria-describedby or an associated label to provide clear information about what " ++
      "is expected from the user."

def legendFirst : Rule where
  id := "R78"
  tag := "fieldset"
  level := "A"
  criterion := "3.3.2"
  pattern := some (element "fieldset")
  applies := some (.ofTag hasLateLegend)
  message := "Missing <legend> for related form controls"
  recommendation :=
    "Use a <legend> as the first child of <fieldset> to describe the grouped form " ++
      "controls."

def errorSuggestions : Rule where
  id := "R79"
  tag := "form"
  level := "AA"
  criterion := "3.3.3"
  pattern := some (element "form")
  applies := some (.ofTag lacksSuggestions)
  message := "Missing error suggestions or guidance"
  recommendation :=
    "Include contextual suggestions or hints near fields with errors to help users " ++
      "understand and fix issues."

end MarkupAudit.Guideline.InputAssistance
