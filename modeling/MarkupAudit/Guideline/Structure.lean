import MarkupAudit.Rule.Condition

/-! Rules about tables, lists, headings, labels and the purpose of fields. -/

namespace MarkupAudit.Guideline.Structure

open Pattern Markup

/-- Whether a header cell is tied to no data cells. -/
def isUnassociated (tag document : Text) : Bool :=
  !hasAttribute tag "scope".toList &&
    (!hasAttribute tag "id".toList ||
      !(blank ++ word "headers" ++ blanks ++ word "=").occursIn document)

/-- Whether a form has two or more choices and no group for them. -/
def hasLooseChoices (t : Text) : Bool :=
  let choices := (given "type" (word "radio" <|> word "checkbox") ++ wordEdge).all t
  2 ≤ choices.length && !containsTag t "fieldset"

/-- Where an identifier of exactly the given letters is given. -/
def exactIdentifier (value : Text) : Pattern :=
  blank ++ exactly "id".toList ++ blanks ++ exactly "=".toList ++ blanks ++ quoteMark? ++
    exactly value ++ one fun c => c == '"' || c == '\'' || c == '>' || Text.isBlank c

/-- Whether a label names no element, or one that does not exist. -/
def lacksTarget (tag document : Text) : Bool :=
  let target := attributeValue tag "for"
  target.isEmpty || !(exactIdentifier target).occursIn document

/-- An item of a list that is written out by hand: a paragraph that starts with a bullet or a
number. -/
def handWrittenItem : Pattern :=
  tagOf [word "p", word "div"] restOfTag ++ blanks ++
    (oneIn "•·▪◦*-" <|> digits ++ oneIn ".)") ++ blank

/-- Whether a section has neither a heading in its body nor a label. -/
def lacksHeading (t : Text) : Bool :=
  !heading.occursIn (elementBody t) && !hasAttribute t "aria-label".toList

/-- Whether the first table head of a document follows its first table body. -/
def hasHeadAfterBody (document : Text) : Bool :=
  match (tagStart (word "thead")).first? document, (tagStart (word "tbody")).first? document with
  | some head, some body => body.start < head.start
  | _, _ => false

/-- A word for a colour or a shape. -/
def colourOrShape : Pattern :=
  wholeWord ["red", "blue", "green", "circle", "square", "round", "arrow", "triangle"]

/-- Whether the attributes of an element without a name speak of a colour or a shape. -/
def dependsOnSight (t : Text) : Bool :=
  !isLabelled t && colourOrShape.occursIn (t.drop ((tagName t).length + 1))

/-- A word for personal data. -/
def personalData : Pattern :=
  wholeWord
    ["name", "fname", "lname", "given", "family", "email", "e-mail", "tel", "phone", "address",
     "street", "city", "postal", "zip", "country", "bday", "birthday", "username", "organization"]

/-- Whether a field asks for personal data without telling which. -/
def hidesPurpose (t : Text) : Bool :=
  let kind := Text.lower (attributeValue t "type")
  let hints := joined [attributeValue t "name", attributeValue t "id",
    if isOneOf kind ["email", "tel"] then kind else []]
  !isOneOf kind ["hidden", "submit", "button", "reset", "image", "checkbox", "radio", "file"] &&
    personalData.occursIn (Text.replaceChar '_' ' ' hints) &&
    isOneOf (plainValue t "autocomplete") ["", "off", "on"]

/-- Whether a field has no name and the document has no labels. -/
def lacksAnyLabel (tag document : Text) : Bool :=
  !isLabelled tag && !containsTag document "label"

/-- A label with its content, or its opening tag alone if another closing tag comes first. -/
def labelElement : Pattern :=
  tagOf [word "label"] restOfTag ++ upTo (word "</label") ++ closingTag (word "label") <|>
    tag ["label"]

def tableSections : Rule where
  id := "R22"
  tag := "table"
  level := "A"
  criterion := "1.3.1"
  pattern := some (tag ["table"])
  applies := some (.ofDocument fun document =>
    !containsTag document "thead" || !containsTag document "tbody")
  message := "Table missing semantic structure"
  recommendation :=
    "Use <thead>, <tbody>, and <tfoot> to group rows and provide a clear structure for " ++
      "the table."

def tableCaption : Rule where
  id := "R23"
  tag := "table"
  level := "A"
  criterion := "1.3.1"
  pattern := some (tag ["table"])
  applies := some (.ofDocument fun document => !containsTag document "caption")
  message := "Table missing caption"
  recommendation := "Add a <caption> as the first child of the <table> to describe its purpose."

def headerCell : Rule where
  id := "R24"
  tag := "th"
  level := "A"
  criterion := "1.3.1"
  pattern := some (tag ["th"])
  applies := some (.ofBool isUnassociated)
  message := "Table header missing association"
  recommendation :=
    "Use the id attribute in <th> and the headers attribute in <td> to associate data " ++
      "cells with their headers."

def formChoices : Rule where
  id := "R25"
  tag := "form"
  level := "A"
  criterion := "1.3.1"
  pattern := some (element "form")
  applies := some (.ofTag hasLooseChoices)
  message := "Form controls not grouped"
  recommendation :=
    "Use <fieldset> to group related form controls and include a <legend> to describe the " ++
      "group."

def fieldsetLegend : Rule where
  id := "R26"
  tag := "fieldset"
  level := "A"
  criterion := "1.3.1"
  pattern := some (elementOrTag "fieldset")
  applies := some (.ofTag fun t => !containsTag (elementBody t) "legend")
  message := "Fieldset missing legend"
  recommendation := "Add a <legend> inside the <fieldset> to describe the group of form controls."

def labelTarget : Rule where
  id := "R27"
  tag := "label"
  level := "A"
  criterion := "1.3.1"
  pattern := some (labelElement)
  applies := some (.ofBool fun t document => !field.occursIn t && lacksTarget t document)
  message := "Form field missing label"
  recommendation :=
    "Ensure each form field has a <label> associated with it using the for attribute and " ++
      "a matching id on the input."

def headings : Rule where
  id := "R28"
  tag := "body"
  level := "A"
  criterion := "1.3.1"
  pattern := some (tag ["body"])
  applies := some (.ofDocument fun document => !heading.occursIn document)
  message := "Content missing heading structure"
  recommendation := "Use <h1> to <h6> to organize content hierarchically and improve navigation."

def handWrittenList : Rule where
  id := "R29"
  tag := "p|div"
  level := "A"
  criterion := "1.3.1"
  pattern := some (handWrittenItem)
  applies := some (.ofBool fun _ _ => true)
  message := "List missing semantic structure"
  recommendation := "Use <ul> or <ol> for lists and include <li> for each list item."

def sectionHeading : Rule where
  id := "R30"
  tag := "section"
  level := "A"
  criterion := "1.3.1"
  pattern := some (element "section")
  applies := some (.ofTag lacksHeading)
  message := "Section missing heading"
  recommendation :=
    "Include a heading (<h1> to <h6>) inside each <section> element to describe its " ++
      "content."

def articleHeading : Rule where
  id := "R31"
  tag := "article"
  level := "A"
  criterion := "1.3.1"
  pattern := some (element "article")
  applies := some (.ofTag lacksHeading)
  message := "Article missing heading"
  recommendation :=
    "Include a heading (<h1> to <h6>) inside each <article> to provide a descriptive " ++
      "title."

def orderedList : Rule where
  id := "R32"
  tag := "ol"
  level := "A"
  criterion := "1.3.1"
  pattern := some (element "ol")
  applies := some (.ofTag fun t => !containsTag (elementBody t) "li")
  message := "Ordered list missing structure"
  recommendation := "Use <li> elements inside <ol> to define each item in the ordered list."

def unorderedList : Rule where
  id := "R33"
  tag := "ul"
  level := "A"
  criterion := "1.3.1"
  pattern := some (element "ul")
  applies := some (.ofTag fun t => !containsTag (elementBody t) "li")
  message := "Unordered list missing structure"
  recommendation := "Use <li> elements inside <ul> to define each item in the unordered list."

def listItem : Rule where
  id := "R34"
  tag := "li"
  level := "A"
  criterion := "1.3.1"
  pattern := some (tag ["li"])
  applies := some (.ofDocument fun document =>
    !(["ul", "ol", "menu"].any (containsTag document)))
  message := "List item outside of a list"
  recommendation :=
    "Ensure <li> elements are properly nested inside <ul>, <ol>, or <dl> elements."

def tableOrder : Rule where
  id := "R35"
  tag := "table"
  level := "A"
  criterion := "1.3.2"
  pattern := some (tag ["table"])
  applies := some (.ofDocument hasHeadAfterBody)
  message := "Table with illogical row/column order"
  recommendation :=
    "Ensure the table follows a logical visual order using <thead>, <tbody>, and <tfoot>."

def tableHead : Rule where
  id := "R36"
  tag := "thead"
  level := "A"
  criterion := "1.3.1"
  pattern := some (element "table")
  applies := some (.ofTag fun t => containsTag t "th" && !containsTag t "thead")
  message := "Table head is missing or misused"
  recommendation := "Include a <thead> section at the top of your table to group header rows."

def tableBody : Rule where
  id := "R37"
  tag := "tbody"
  level := "A"
  criterion := "1.3.1"
  pattern := some (element "table")
  applies := some (.ofTag fun t => containsTag t "thead" && !containsTag t "tbody")
  message := "Table body missing or unordered"
  recommendation := "Use <tbody> to group the main content rows and ensure logical row ordering."

def sightInstruction : Rule where
  id := "R38"
  tag := "p, span, strong, em"
  level := "A"
  criterion := "1.3.3"
  pattern := some (tag ["p", "span", "strong", "em"])
  applies := some (.ofTag dependsOnSight)
  message := "Instruction depends only on color or shape"
  recommendation :=
    "Do not rely solely on color or shape for instructions. Add visible text or use " ++
      "aria-label/title to describe the purpose."

def autocompleteOff : Rule where
  id := "R39"
  tag := "input, select, textarea, form"
  level := "AA"
  criterion := "1.3.5"
  pattern := some (tag ["input", "select", "textarea", "form"])
  applies := some (.ofTag fun t => isOneOf (plainValue t "autocomplete") ["off"])
  message := "Form element missing or misusing autocomplete attribute"
  recommendation :=
    "Use meaningful autocomplete values (e.g., 'name', 'email', 'tel') instead of " ++
      "omitting the attribute or setting it to 'off', to improve form usability and " ++
      "accessibility."

def fieldPurpose : Rule where
  id := "R40"
  tag := "input, select, textarea"
  level := "AA"
  criterion := "1.3.5"
  pattern := some (tag ["input", "select", "textarea"])
  applies := some (.ofTag hidesPurpose)
  message := "Form field missing semantic autocomplete attribute"
  recommendation :=
    "Use autocomplete attributes like 'bday', 'name', 'address-line1', etc., to help " ++
      "assistive technologies and browsers identify the field's purpose semantically."

def emptyCaption : Rule where
  id := "R85"
  tag := "caption"
  level := "A"
  criterion := "1.3.1"
  pattern := some (element "caption")
  applies := some (.ofTag isEmptyElement)
  message := "Table caption is empty"
  recommendation := "Write a caption that describes the purpose of the table."

def emptyLegend : Rule where
  id := "R86"
  tag := "legend"
  level := "A"
  criterion := "1.3.1"
  pattern := some (element "legend")
  applies := some (.ofTag isEmptyElement)
  message := "Legend has no text"
  recommendation := "Give the <legend> text that names the group of form controls."

def selectLabel : Rule where
  id := "R89"
  tag := "select"
  level := "A"
  criterion := "1.3.1"
  pattern := some (tag ["select"])
  applies := some (.ofBool lacksAnyLabel)
  message := "Select without label"
  recommendation := "Associate a <label> with the <select> or give it an aria-label."

def textareaLabel : Rule where
  id := "R90"
  tag := "textarea"
  level := "A"
  criterion := "1.3.1"
  pattern := some (tag ["textarea"])
  applies := some (.ofBool lacksAnyLabel)
  message := "Textarea without label"
  recommendation := "Associate a <label> with the <textarea> or give it an aria-label."

def quotationSource : Rule where
  id := "R91"
  tag := "q"
  level := "A"
  criterion := "1.3.1"
  pattern := some (tag ["q"])
  applies := some (.ofTag fun t => (trimmedValue t "cite").isEmpty)
  message := "Quotation missing cite attribute"
  recommendation := "Add a cite attribute pointing to the source of the quotation."

end MarkupAudit.Guideline.Structure
