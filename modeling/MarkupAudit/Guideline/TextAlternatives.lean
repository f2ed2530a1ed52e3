import MarkupAudit.Markup.Amend
import MarkupAudit.Rule.Condition

/-! Rules about text alternatives for images, objects and other content that is not text. -/

namespace MarkupAudit.Guideline.TextAlternatives

open Pattern Markup

/-- Whether an object or a canvas offers neither a name nor a text to fall back on. -/
def lacksFallback (t : Text) : Bool :=
  !isLabelled t && isEmptyElement t

/-- Whether a drawing has no name, no title and no mark that it is to be passed over. -/
def lacksTitle (t : Text) : Bool :=
  !(isLabelled t || hasAttribute t "aria-hidden".toList) && !containsTag (elementBody t) "title"

/-- Whether some area in the body of an image map has no alternative text. -/
def hasAreaWithoutAlt (t : Text) : Bool :=
  ((tag ["area"]).all (elementBody t)).any fun m => lacksAlt m.text

/-- Whether the body of a picture has no image, or one without alternative text. -/
def lacksImageWithAlt (t : Text) : Bool :=
  let images := (tag ["img"]).all (elementBody t)
  images.isEmpty || images.any fun m => lacksAlt m.text

def image : Rule where
  id := "R1"
  tag := "img"
  level := "A"
  criterion := "1.1.1"
  pattern := some (tag ["img"])
  applies := some (.ofTag lacksAlt)
  message := "Image without alt attribute"
  recommendation :=
    "Add an alt attribute to describe the image content or use alt=\"\" if decorative. " ++
      "Even inside <picture>, ensure <img> has alt."
  repair := some (.ofFunction (insertAttribute "alt".toList (some [])))

def imageInput : Rule where
  id := "R2"
  tag := "input[type=\"image\"]"
  level := "A"
  criterion := "1.1.1"
  pattern := some (tagStart (word "input") ++ longest (· != '>') ++ given "type" (word "image") ++
    wordEdge ++ restOfTag)
  applies := some (.ofTag lacksAlt)
  message := "Image input missing alt attribute"
  recommendation := "Add an alt attribute that describes the function of the button."
  repair := some (.ofFunction (insertAttribute "alt".toList (some "Submit".toList)))

def area : Rule where
  id := "R3"
  tag := "area"
  level := "A"
  criterion := "1.1.1"
  pattern := some (tag ["area"])
  applies := some (.ofTag lacksAlt)
  message := "Area element missing alt attribute"
  recommendation := "Provide a descriptive alt attribute for each <area> tag in image maps."
  repair := some (.ofFunction (insertAttribute "alt".toList (some "Link".toList)))

def object : Rule where
  id := "R4"
  tag := "object"
  level := "A"
  criterion := "1.1.1"
  pattern := some (elementOrTag "object")
  applies := some (.ofTag lacksFallback)
  message := "Object without text alternative"
  recommendation :=
    "Include a text description inside or near the <object> tag or use aria-label."

def drawing : Rule where
  id := "R5"
  tag := "svg"
  level := "A"
  criterion := "1.1.1"
  pattern := some (elementOrTag "svg")
  applies := some (.ofTag lacksTitle)
  message := "SVG missing aria-label or aria-hidden"
  recommendation :=
    "Add aria-label or <title> for informative SVGs, or aria-hidden='true' for decorative " ++
      "ones."
  repair := some (.ofFunction (insertAttribute "aria-hidden".toList (some "true".toList)))

def applet : Rule where
  id := "R6"
  tag := "applet"
  level := "A"
  criterion := "1.1.1"
  pattern := some (tag ["applet"])
  applies := some (.ofTag lacksAlt)
  message := "Applet element requires alt text"
  recommendation := "Add alt attribute that describes the content or purpose of the applet."

def figure : Rule where
  id := "R9"
  tag := "figure"
  level := "A"
  criterion := "1.1.1"
  pattern := some (element "figure")
  applies := some (.ofTag fun t => !containsTag t "figcaption")
  message := "Figure missing figcaption"
  recommendation := "Include a <figcaption> to describe the figure content."

def embed : Rule where
  id := "R11"
  tag := "embed"
  level := "A"
  criterion := "1.1.1"
  pattern := some (tag ["embed"])
  applies := some (.ofTag fun t => !isLabelled t)
  message := "Embed missing fallback content"
  recommendation :=
    "Provide fallback content or use title/aria-label to describe the embedded content."

def canvas : Rule where
  id := "R12"
  tag := "canvas"
  level := "A"
  criterion := "1.1.1"
  pattern := some (elementOrTag "canvas")
  applies := some (.ofTag lacksFallback)
  message := "Canvas missing fallback content"
  recommendation := "Provide descriptive fallback content between <canvas> tags."

def progress : Rule where
  id := "R83"
  tag := "progress"
  level := "A"
  criterion := "1.1.1"
  pattern := some (tag ["progress"])
  applies := some (.ofTag fun t => !isLabelled t)
  message := "Progress element missing accessible name"
  recommendation := "Add aria-label or aria-labelledby so the progress indicator is announced."

def meter : Rule where
  id := "R84"
  tag := "meter"
  level := "A"
  criterion := "1.1.1"
  pattern := some (tag ["meter"])
  applies := some (.ofTag fun t => !isLabelled t)
  message := "Meter element missing accessible name"
  recommendation := "Add aria-label or aria-labelledby so the meter value has context."

def figureCaption : Rule where
  id := "R87"
  tag := "figcaption"
  level := "A"
  criterion := "1.1.1"
  pattern := some (element "figcaption")
  applies := some (.ofTag isEmptyElement)
  message := "Figcaption has no description"
  recommendation := "Describe the figure content inside <figcaption>."

def imageMap : Rule where
  id := "R88"
  tag := "map"
  level := "A"
  criterion := "1.1.1"
  pattern := some (element "map")
  applies := some (.ofTag hasAreaWithoutAlt)
  message := "Image map has areas without alt text"
  recommendation := "Give every <area> in the <map> an alt attribute describing its link target."

def picture : Rule where
  id := "R93"
  tag := "picture"
  level := "A"
  criterion := "1.1.1"
  pattern := some (element "picture")
  applies := some (.ofTag lacksImageWithAlt)
  message := "Picture without an img that has alt text"
  recommendation := "Give the <img> inside <picture> an alt attribute describing the image."

end MarkupAudit.Guideline.TextAlternatives
