import MarkupAudit.Rule.Condition

/-! Rules about well-formed tags, names and states of controls, and status messages. -/

namespace MarkupAudit.Guideline.Compatibility

open Pattern Markup

/-- Whether a tag closes what cannot be closed, repeats an attribute, or holds another tag. -/
def isMalformed (t : Text) : Bool :=
  "</".toList.isPrefixOf t || !decide (attributeNames t).Nodup ||
    ((collapseQuoted t).drop 1).contains '<'

/-- The attributes of which a control of the role needs one, for the roles that need any. -/
def roleStates : List (String × List String) :=
  [("checkbox", ["aria-checked"]), ("switch", ["aria-checked"]), ("radio", ["aria-checked"]),
   ("menuitemcheckbox", ["aria-checked"]), ("menuitemradio", ["aria-checked"]),
   ("slider", ["aria-valuenow"]), ("spinbutton", ["aria-valuenow"]),
   ("scrollbar", ["aria-valuenow", "aria-controls"]), ("combobox", ["aria-expanded"]),
   ("tab", ["aria-selected"]), ("option", ["aria-selected"])]

/-- Whether an input has neither a label nor a name. -/
def lacksName (t document : Text) : Bool :=
  let value := attributeValue t "type"
  let kind := Text.lower (Text.trim (if value.isEmpty then "text".toList else value))
  let id := attributeValue t "id"
  !isOneOf kind ["hidden", "submit", "reset", "button", "image"] && !isLabelled t &&
    !(!id.isEmpty && (wholeValue "for" id).occursIn document) && !hasAttribute t "name".toList

/-- Whether a control does not tell its state, or an input its name. -/
def lacksNameOrState (t document : Text) : Bool :=
  match roleStates.find? fun entry => plainValue t "role" == entry.1.toList with
  | some entry => !hasAnyAttribute t entry.2
  | none => isOneOf (tagName t) ["input"] && lacksName t document

/-- A word for a place where status messages appear. -/
def statusWord : Pattern :=
  wholeWord ["status", "alert", "notification", "toast", "flash"]

/-- Whether status messages appear in an element that does not announce them. -/
def isUnannounced (t : Text) : Bool :=
  let hooks := joined [attributeValue t "id", attributeValue t "class"]
  statusWord.occursIn (Text.replaceChar '_' ' ' (Text.replaceChar '-' ' ' hooks)) &&
    !hasAttribute t "aria-live".toList && !isOneOf (plainValue t "role") ["status", "alert", "log"]

def buttonName : Rule where
  id := "R7"
  tag := "button"
  level := "A"
  criterion := "4.1.2"
  pattern := some (element "button")
  applies := some (.ofTag isSilent)
  message := "Button missing accessible name"
  recommendation := "Include visible text or an aria-label to describe the button's purpose."

def malformedTag : Rule where
  id := "R80"
  tag := "html|body|button|form|input|select|textarea"
  level := "A"
  criterion := "4.1.1"
  pattern := some (tag ["html", "body", "button", "form", "input", "select", "textarea"] <|>
    closingTag (word "input"))
  applies := some (.ofTag isMalformed)
  message := "Malformed or improperly structured HTML tag"
  recommendation :=
    "Check for repeated attributes, invalid nesting, or improper tag syntax. Use a " ++
      "validator to ensure the HTML is well-formed."

def nameOrState : Rule where
  id := "R81"
  tag := "input|div|span|li|a"
  level := "A"
  criterion := "4.1.2"
  pattern := some (tag ["input", "div", "span", "li", "a"])
  applies := some (.ofBool lacksNameOrState)
  message := "Missing accessible name, role, or value"
  recommendation :=
    "Ensure interactive elements use native semantics or ARIA attributes (aria-label, " ++
      "role, aria-checked) and provide name/type where appropriate."

def statusMessage : Rule where
  id := "R82"
  tag := "div|output|p|span"
  level := "AA"
  criterion := "4.1.3"
  pattern := some (tag ["div", "output", "p", "span"])
  applies := some (.ofTag isUnannounced)
  message := "Missing ARIA status announcement for dynamic updates"
  recommendation :=
    "Use aria-live='polite' or role='status' on containers with dynamic content updates " ++
      "so assistive technologies can announce changes."

end MarkupAudit.Guideline.Compatibility
