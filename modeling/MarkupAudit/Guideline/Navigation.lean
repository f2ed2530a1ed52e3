import MarkupAudit.Markup.Amend
import MarkupAudit.Rule.Condition

/-! Rules about titles, links, headings, focus and names of controls. -/

namespace MarkupAudit.Guideline.Navigation

open Pattern Markup

/-- The start of an element that usually shows an icon. -/
def iconStart : Pattern :=
  tagStart (anyOf [word "i", word "span", word "svg"])

/-- A link that skips to the main content. -/
def skipLink : Pattern :=
  tagStart (word "a") ++ longest (· != '>') ++ word "href" ++ blanks ++ word "=" ++ blanks ++
    oneIn "\"'" ++ word "#" ++ anyWord ["main", "content", "skip"] ++
    longest (fun c => !(c == '"' || c == '\'')) ++ oneIn "\"'"

/-- The main landmark. -/
def mainLandmark : Pattern :=
  tagStart (word "main") <|> given "role" (word "main") ++ wordEdge

/-- Whether the title shows nothing, or only says that there is none. -/
def isPoorTitle (t : Text) : Bool :=
  let title := Text.lower (innerText (elementBody t))
  title.isEmpty ||
    isOneOf title
      ["untitled", "untitled document", "document", "page", "home page", "new page"]

/-- A tag that gives a tab index. -/
def tabIndexTag : Pattern :=
  word "<" ++ oneIn "abcdefghijklmnopqrstuvwxyz" ++ longest isNameChar ++ wordEdge ++
    restWith "tabindex"

/-- Whether the tab index is positive. Fails if it is of digits, but no number. -/
def hasPositiveTabIndex : Condition := fun t _ =>
  let value := trimmedValue t "tabindex"
  if !value.isEmpty && value.all Text.isDigit then
    match Text.numeral? value with
    | some n => .ok (0 < n)
    | none => .error .badNumeral
  else .ok false

/-- The text without the full stops at its end. -/
def withoutStops (t : Text) : Text :=
  (t.reverse.dropWhile (· == '.')).reverse

/-- Whether the text of a link without a name does not tell where it leads. -/
def isVagueLink (t : Text) : Bool :=
  !isLabelled t &&
    isOneOf (withoutStops (Text.lower (innerText (elementBody t))))
      ["click here", "here", "read more", "more", "details", "link", "this"]

/-- A way to find a page other than the navigation bar. -/
def otherNavigation : Pattern :=
  word "sitemap" <|> given "type" (word "search") <|> given "role" (word "search")

/-- A label or a heading with its content. -/
def labelOrHeading : Pattern :=
  word "<" ++ hold (word "label" <|> headingName) ++ wordEdge ++ restOfTag ++
    shortest (fun _ => true) ++ closingTag sameAgain

/-- Whether a label or a heading is silent. A label may wrap the field that it is for. -/
def isSilentLabel (t : Text) : Bool :=
  isSilent t && !(isOneOf (tagName t) ["label"] && field.occursIn (elementBody t))

/-- A declaration that takes the outline away. -/
def outlineRemoved : Pattern :=
  word "outline" ++ blanks ++ word ":" ++ blanks ++
    (word "none" <|> word "0" ++ optional (word "px")) ++ blanks ++
    (word ";" <|> lastLineEnd <|> word "!")

/-- The start of a heading, with its level set aside. -/
def headingLevel : Pattern :=
  word "<" ++ word "h" ++ hold (oneIn "123456") ++ wordEdge

/-- Whether a heading is not of the first level and no heading of the level above is in the
document. Fails on a tag without a level in its name. -/
def skipsLevel : Condition := fun t document =>
  match (tagName t).drop 1 with
  | [] => .error .shortName
  | c :: _ =>
    match Text.numeral? [c] with
    | none => .error .badNumeral
    | some level =>
      .ok (level != 1 &&
        !((headingLevel.all document).any fun m => (Text.numeral? m.held).any (· + 1 == level)))

/-- A labelled control with its content. -/
def labelledControl : Pattern :=
  word "<" ++ hold (anyWord ["button", "a", "label"]) ++ wordEdge ++ restWith "aria-label" ++
    shortest (fun _ => true) ++ closingTag sameAgain

/-- Whether the text that a control shows is not part of its label. -/
def differsFromLabel (t : Text) : Bool :=
  let label := plainValue t "aria-label"
  let shown := Text.lower (innerText (elementBody t))
  !label.isEmpty && !shown.isEmpty && !Text.hasPart shown label

def iconLink : Rule where
  id := "R8"
  tag := "a"
  level := "A"
  criterion := "2.4.4"
  pattern := some (element "a")
  applies := some (.ofTag fun t => isSilent t && iconStart.occursIn (elementBody t))
  message := "Anchor with icon only and no accessible label"
  recommendation := "Use aria-label to describe the purpose of the link."

def frameTitle : Rule where
  id := "R10"
  tag := "iframe"
  level := "A"
  criterion := "2.4.1"
  pattern := some (tag ["iframe"])
  applies := some (.ofTag fun t => (trimmedValue t "title").isEmpty)
  message := "Iframe missing title attribute"
  recommendation := "Add a title attribute that describes the iframe's purpose."
  repair := some (.ofFunction (insertAttribute "title".toList (some "Embedded content".toList)))

def bypassBlock : Rule where
  id := "R57"
  tag := "body"
  level := "A"
  criterion := "2.4.1"
  pattern := some (tag ["body"])
  applies := some (.ofDocument fun document =>
    !skipLink.occursIn document && !mainLandmark.occursIn document)
  message := "Missing skip link or landmark for main content"
  recommendation :=
    "Include a 'Skip to main content' link (<a href='#main'>) and ensure a corresponding " ++
      "<main> or [role='main'] exists."

def pageTitle : Rule where
  id := "R58"
  tag := "title"
  level := "A"
  criterion := "2.4.2"
  pattern := some (element "title")
  applies := some (.ofTag isPoorTitle)
  message := "Missing or non-descriptive page title"
  recommendation :=
    "Ensure the <title> inside <head> is descriptive and meaningful for the page content."

def focusOrder : Rule where
  id := "R59"
  tag := "any"
  level := "A"
  criterion := "2.4.3"
  pattern := some (tabIndexTag)
  applies := some (hasPositiveTabIndex)
  message := "Potential focus order issue due to tabindex"
  recommendation :=
    "Use tabindex carefully. Positive values override the natural tab sequence; prefer 0 " ++
      "or document order."

def vagueLink : Rule where
  id := "R60"
  tag := "a"
  level := "A"
  criterion := "2.4.4"
  pattern := some (element "a")
  applies := some (.ofTag isVagueLink)
  message := "Link text is vague or meaningless"
  recommendation :=
    "Write meaningful link text that explains the action or destination, e.g., 'View " ++
      "pricing details'."

def navigationMethod : Rule where
  id := "R61"
  tag := "nav"
  level := "AA"
  criterion := "2.4.5"
  pattern := some (tag ["nav"])
  applies := some (.ofDocument fun document => !otherNavigation.occursIn document)
  message := "Only one navigation method provided"
  recommendation :=
    "Provide multiple navigation options (e.g., a nav bar, search function, or sitemap) " ++
      "to enhance accessibility."

def silentLabel : Rule where
  id := "R62"
  tag := "label|h1|h2|h3|h4|h5|h6"
  level := "AA"
  criterion := "2.4.6"
  pattern := some (labelOrHeading)
  applies := some (.ofTag isSilentLabel)
  message := "Form controls or headings not labeled semantically"
  recommendation :=
    "Use <label> with for or aria-label for form fields, and structure content using " ++
      "meaningful <h1>-<h6> headings."

def focusOutline : Rule where
  id := "R63"
  tag := "button|a|input|select|textarea"
  level := "AA"
  criterion := "2.4.7"
  pattern := some (tag ["button", "a", "input", "select", "textarea"])
  applies := some (.ofTag fun t => outlineRemoved.occursIn (attributeValue t "style"))
  message := "Interactive element lacks visible focus indicator"
  recommendation :=
    "Ensure interactive elements are styled with visible focus indicators (e.g., :focus " ++
      "with outline or border)."

def emptyLink : Rule where
  id := "R64"
  tag := "a"
  level := "A"
  criterion := "2.4.4"
  pattern := some (element "a")
  applies := some (.ofTag fun t => isSilent t && !iconStart.occursIn (elementBody t))
  message := "Link is empty, icon-only, or lacks descriptive text"
  recommendation :=
    "Ensure links have meaningful text or use aria-label/title attributes if icon-only."

def headingOrder : Rule where
  id := "R65"
  tag := "h1|h2|h3|h4|h5|h6"
  level := "AAA"
  criterion := "2.4.10"
  pattern := some (tagOf [headingName] restOfTag)
  applies := some (skipsLevel)
  message := "Missing semantic heading structure"
  recommendation :=
    "Use semantic HTML headings (<h1>-<h6>) in order, without skipping levels, to convey " ++
      "the structure of the page."

def labelInName : Rule where
  id := "R66"
  tag := "button|a|label"
  level := "A"
  criterion := "2.5.3"
  pattern := some (labelledControl)
  applies := some (.ofTag differsFromLabel)
  message := "Label text does not match accessible name"
  recommendation :=
    "Ensure the visible label matches the accessible name (e.g., aria-label or " ++
      "aria-labelledby)."

end MarkupAudit.Guideline.Navigation
