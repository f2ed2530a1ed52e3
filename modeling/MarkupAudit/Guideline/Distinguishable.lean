import MarkupAudit.Markup.Amend
import MarkupAudit.Contrast
import MarkupAudit.Rule.Condition

/-! Rules about colour, contrast, text size, spacing and layout. -/

namespace MarkupAudit.Guideline.Distinguishable

open Pattern Markup

/-- The names of elements and of all headings. -/
def withHeadings (names : List String) : List Pattern :=
  names.map word ++ [headingName]

/-- A tag whose style sets a colour. -/
def colouredTag : Pattern :=
  word "<" ++ one Text.isWord ++ longest Text.isWord ++ wordEdge ++ longest (· != '>') ++
    word "style" ++ blanks ++ word "=" ++ blanks ++ oneIn "\"'" ++
    longest (fun c => !(c == '"' || c == '\'' || c == '>')) ++ wordEdge ++ word "color" ++ blanks ++
    word ":" ++ restOfTag

/-- Whether an element without a name is set off by its colour alone. -/
def dependsOnColour (t : Text) : Bool :=
  let style := styleOf t
  style.has "color" && !isLabelled t &&
    !(["text-decoration", "border", "border-bottom", "font-weight", "font-style",
      "outline"].any style.has)

/-- Whether a text has a colour too close to its background, which is white unless set. -/
def hasFaintText (t : Text) : Bool :=
  let style := styleOf t
  let foreground := style.get "color"
  let background := (style.get? "background-color").getD "#ffffff".toList
  Rgb.isWritten foreground && !Contrast.meets foreground background Contrast.textMinimum

/-- Whether a control has a colour too close to its background. -/
def hasFaintControl (t : Text) : Bool :=
  let style := styleOf t
  let foreground := style.get "color"
  let background := style.get "background-color"
  Rgb.isWritten foreground && Rgb.isWritten background &&
    !Contrast.meets foreground background Contrast.controlMinimum

/-- Whether a text stands on an image or a gradient with nothing to set it off. -/
def standsOnImage (t : Text) : Bool :=
  let style := styleOf t
  let backdrop := style.get "background-image" ++ style.get "background"
  (word "url(" <|> word "gradient(").occursIn backdrop &&
    !style.has "background-color" && !style.has "text-shadow"

/-- A size in pixels. -/
def pixelSize : Pattern :=
  digits ++ optional (exactly ".".toList ++ digits) ++ exactly "px".toList ++ lastLineEnd

/-- A whole number of pixels, with the numeral set aside. -/
def pixelWidth : Pattern :=
  hold digits ++ exactly "px".toList ++ lastLineEnd

/-- Whether an image with alternative text seems to show text and is no logo. -/
def showsText (t : Text) : Bool :=
  let alt := trimmedValue t "alt"
  let source := attributeValue t "src"
  3 ≤ alt.length && !(word "logo").occursIn (alt ++ ' ' :: source) &&
    (anyWord ["text", "banner", "heading", "headline", "title", "quote", "slogan"]).occursIn source

/-- A class for content that only assistive technology presents. -/
def hiddenClass : Pattern :=
  word "class" ++ blanks ++ word "=" ++ blanks ++ oneIn "\"'" ++
    longest (fun c => !(c == '"' || c == '\'')) ++ anyWord ["visually-hidden", "sr-only"]

/-- Whether a drawing without a name draws text that is given nowhere else. -/
def drawsText (t document : Text) : Bool :=
  !(isLabelled t || hasAttribute t "aria-hidden".toList) && !hiddenClass.occursIn document &&
    containsTag (elementBody t) "text"

/-- Whether a layout is fixed to more than 320 pixels. Fails on a width of too many digits. -/
def hasFixedWidth : Condition := fun t _ =>
  let style := styleOf t
  match pixelWidth.matchAt? (Cursor.start (Text.trim (style.get "width"))) with
  | none => .ok false
  | some m =>
    match Text.numeral? m.held with
    | none => .error .badNumeral
    | some width =>
      let limit := Text.trim (style.get "max-width")
      .ok (320 < width && !isOneOf limit ["100%", "auto", "fit-content"])

/-- A declaration that fixes a spacing of the text. -/
def spacingLock : Pattern :=
  anyWord ["letter-spacing", "word-spacing", "line-height"] ++ blanks ++ word ":" ++
    longest (fun c => !(c == ';' || c == '"' || c == '\'')) ++ word "!important"

/-- Whether content shown on hover or focus can be neither dismissed nor found otherwise. -/
def cannotDismiss (t document : Text) : Bool :=
  hasAnyAttribute t ["onmouseover", "onfocus"] &&
    !hasAnyAttribute t ["onmouseleave", "onmouseout", "onblur"] &&
    !Text.hasPart "aria-describedby".toList document

def colourOnly : Rule where
  id := "R41"
  tag := "inline-styled elements"
  level := "A"
  criterion := "1.4.1"
  pattern := some (colouredTag)
  applies := some (.ofTag dependsOnColour)
  message := "Color used as the only visual indicator"
  recommendation :=
    "Avoid relying only on color to convey information. Use additional indicators such as " ++
      "text, underline, icons, or labels to ensure accessibility. See WCAG techniques G14 " ++
      "and G205."

def autoplay : Rule where
  id := "R42"
  tag := "audio"
  level := "A"
  criterion := "1.4.2"
  pattern := some (tag ["audio"])
  applies := some (.ofTag playsUnasked)
  message := "Autoplaying audio without controls"
  recommendation :=
    "Add 'controls' attribute to <audio> or provide visible custom controls for " ++
      "play/pause and volume."
  repair := some (.ofFunction (insertAttribute "controls".toList none))

def textContrast : Rule where
  id := "R43"
  tag := "text elements"
  level := "AA"
  criterion := "1.4.3"
  pattern := some (tagOf (withHeadings ["a", "p", "span", "li", "label", "td"]) restOfTag)
  applies := some (.ofTag hasFaintText)
  message := "Low text contrast"
  recommendation :=
    "Ensure text has a contrast ratio of at least 4.5:1 against its background. Use tools " ++
      "like Contrast Checker or adjust foreground and background colors appropriately. See " ++
      "WCAG G18."

def textOnImage : Rule where
  id := "R44"
  tag := "text over image"
  level := "AA"
  criterion := "1.4.3"
  pattern := some (tagOf (withHeadings ["a", "p", "span", "div", "section"]) restOfTag)
  applies := some (.ofTag standsOnImage)
  message := "Text over image or gradient lacks contrast support"
  recommendation :=
    "Use a solid background color or text shadow to ensure text remains legible over " ++
      "images or gradients. See WCAG G145."

def textSize : Rule where
  id := "R45"
  tag := "text containers"
  level := "AA"
  criterion := "1.4.4"
  pattern := some (tagOf (withHeadings ["html", "body", "div", "span", "p", "a"]) restOfTag)
  applies := some (.ofTag fun t => pixelSize.startsIn ((styleOf t).get "font-size"))
  message := "Fixed text size using 'px' prevents proper text resizing"
  recommendation :=
    "Use relative units like em, rem, or % instead of px for font size to support text " ++
      "resizing. This ensures compliance with WCAG techniques G142 and C28."

def imageOfText : Rule where
  id := "R46"
  tag := "img"
  level := "AA"
  criterion := "1.4.5"
  pattern := some (tag ["img"])
  applies := some (.ofTag showsText)
  message := "Image of text used instead of HTML text"
  recommendation :=
    "Avoid using images to convey textual information. Use HTML text styled with CSS " ++
      "unless the image is a logo or required for specific presentation. Ensure alt text " ++
      "conveys the same message if an image must be used."

def drawnText : Rule where
  id := "R47"
  tag := "svg"
  level := "AAA"
  criterion := "1.4.9"
  pattern := some (element "svg")
  applies := some (.ofBool drawsText)
  message := "Text rendered with image elements instead of HTML"
  recommendation :=
    "Avoid using images, canvas, SVG, or object to render text unless necessary. Use real " ++
      "HTML text and style it with CSS. If unavoidable, provide accessible alternatives like " ++
      "aria-label or visually hidden content."

def layoutWidth : Rule where
  id := "R48"
  tag := "body|div|main|section"
  level := "AA"
  criterion := "1.4.10"
  pattern := some (tag ["body", "div", "main", "section"])
  applies := some (hasFixedWidth)
  message := "Layout does not adapt to viewport size"
  recommendation :=
    "Avoid fixed width using px or vw. Use relative units (%, em, rem) and max-width to " ++
      "ensure responsive layouts."

def controlContrast : Rule where
  id := "R49"
  tag := "button|input|select"
  level := "AA"
  criterion := "1.4.11"
  pattern := some (tag ["button", "input", "select"])
  applies := some (.ofTag hasFaintControl)
  message := "Non-text UI element might have insufficient contrast"
  recommendation :=
    "Ensure UI elements have at least a 3:1 contrast ratio between foreground and " ++
      "background colors. Use visual indicators like borders or highlights for focus and " ++
      "active states."

def textSpacing : Rule where
  id := "R50"
  tag := "p|span|li|h[1-6]"
  level := "AA"
  criterion := "1.4.12"
  pattern := some (tagOf (withHeadings ["p", "span", "li"]) restOfTag)
  applies := some (.ofTag fun t => spacingLock.occursIn (attributeValue t "style"))
  message := "Text element may not support spacing adjustments"
  recommendation :=
    "Use CSS properties like letter-spacing, line-height, and word-spacing to ensure text " ++
      "remains readable when users adjust spacing."

def hoverContent : Rule where
  id := "R51"
  tag := "button|a|input|label"
  level := "AA"
  criterion := "1.4.13"
  pattern := some (tag ["button", "a", "input", "label"])
  applies := some (.ofBool cannotDismiss)
  message := "Content triggered by hover or focus may not be dismissible"
  recommendation :=
    "Ensure that content triggered on hover or focus can be dismissed without moving the " ++
      "pointer or losing focus. Use proper event handling or aria-describedby patterns."

end MarkupAudit.Guideline.Distinguishable
