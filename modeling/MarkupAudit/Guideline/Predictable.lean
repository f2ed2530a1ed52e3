import MarkupAudit.Rule.Condition

/-! Rules about changes of context and about consistency. -/

namespace MarkupAudit.Guideline.Predictable

open Pattern Markup

/-- Something in a script that leads elsewhere. -/
def contextChange : Pattern :=
  word "location" <|> word "redirect" <|> word "window.open" <|> word "submit" ++ blanks ++ word "("

/-- A control that submits a form. -/
def submitControl : Pattern :=
  tagStart (word "input") ++ longest (· != '>') ++ given "type" (word "submit") ++ wordEdge ++
      restOfTag <|>
    tagStart (word "button") ++ longest (· != '>') ++ given "type" (word "submit") ++ wordEdge ++
      restOfTag ++ shortest (fun _ => true) ++ closingTag (word "button")

/-- What a control that submits a form is labelled with. -/
def submitLabel (control : Text) : Text :=
  if isOneOf (tagName control) ["input"] then
    let value := attributeValue control "value"
    Text.lower (Text.trim (if value.isEmpty then "submit".toList else value))
  else Text.lower (innerText (elementBody control))

/-- Whether a control is labelled otherwise than the first one that submits a form. -/
def differsFromFirst (control document : Text) : Bool :=
  match (submitControl.all document).map fun m => submitLabel m.text with
  | [] => false
  | label :: labels => labels.any (· != label) && submitLabel control != label

def focusChange : Rule where
  id := "R70"
  tag := "input|a|button|select"
  level := "A"
  criterion := "3.2.1"
  pattern := some (tagOf (["input", "a", "button", "select"].map word) (restWith "onfocus"))
  applies := some (.ofTag fun t => contextChange.occursIn (attributeValue t "onfocus"))
  message := "Element changes context on focus"
  recommendation :=
    "Avoid using onfocus events to trigger context changes like redirections. Require " ++
      "explicit user action instead."

def inputChange : Rule where
  id := "R71"
  tag := "select|input|textarea"
  level := "A"
  criterion := "3.2.2"
  pattern := some (tagOf (["select", "input", "textarea"].map word) (restWith "onchange"))
  applies := some (.ofTag fun t => contextChange.occursIn (attributeValue t "onchange"))
  message := "Element changes context automatically on input"
  recommendation :=
    "Require a confirmation action (e.g., clicking a button) before applying input-based " ++
      "context changes."

/-- Needs several documents to compare, so that it finds nothing in one. -/
def navigationOrder : Rule where
  id := "R72"
  tag := "nav|header|footer"
  level := "AA"
  criterion := "3.2.3"
  pattern := some (tag ["nav", "header", "footer"])
  applies := some (.ofBool fun _ _ => false)
  message := "Navigation structure should be consistent"
  recommendation :=
    "Ensure that repeated navigational elements maintain order, labeling, and structure " ++
      "across all pages."
  implemented := false

def submitLabels : Rule where
  id := "R73"
  tag := "input|button"
  level := "AA"
  criterion := "3.2.4"
  pattern := some (submitControl)
  applies := some (.ofBool differsFromFirst)
  message := "Inconsistent labeling for same functionality"
  recommendation :=
    "Ensure consistent visible text and accessible name (aria-label) for elements with " ++
      "the same function across pages."

end MarkupAudit.Guideline.Predictable
