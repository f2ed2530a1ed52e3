import MarkupAudit.Markup.Amend
import MarkupAudit.Rule.Condition

/-! Rules about the use of the keyboard and about time. -/

namespace MarkupAudit.Guideline.Keyboard

open Pattern Markup

/-- Whether a link works as a control and cannot be reached by the keyboard. -/
def cannotReach (t : Text) : Bool :=
  !hasAnyAttribute t ["href", "tabindex"] &&
    (hasAttribute t "onclick".toList ||
      isOneOf (Text.lower (attributeValue t "role")) ["button"])

/-- Whether an element that can be clicked does not answer to keys and is no control. -/
def answersClicksOnly (t : Text) : Bool :=
  !hasAnyAttribute t ["onkeydown", "onkeyup", "onkeypress"] &&
    !(hasAttribute t "role".toList && hasAttribute t "tabindex".toList)

/-- Whether an element is out of the order of focus in a document without any key handling. -/
def trapsFocus (t document : Text) : Bool :=
  isOneOf (trimmedValue t "tabindex") ["-1"] &&
    !(anyWord ["onkeydown", "onkeyup", "escape"]).occursIn document

/-- Whether the tag is a moving text, which has no controls to offer. -/
def isMarquee (t : Text) : Bool :=
  isOneOf (tagName t) ["marquee"]

/-- Whether something moves or sounds by itself and cannot be stopped. -/
def movesUnasked (t : Text) : Bool :=
  isMarquee t || playsUnasked t

/-- The tag with controls, unless it can have none. -/
def addControls (t : Text) : Text :=
  if isMarquee t then t else insertAttribute "controls".toList none t

def linkControl : Rule where
  id := "R52"
  tag := "a"
  level := "A"
  criterion := "2.1.1"
  pattern := some (tag ["a"])
  applies := some (.ofTag cannotReach)
  message := "Element may not be fully accessible via keyboard"
  recommendation :=
    "Use native HTML elements and attributes like tabindex, onkeydown, and ARIA roles to " ++
      "ensure keyboard accessibility."

def clickOnly : Rule where
  id := "R53"
  tag := "div|span|li|td|p|section"
  level := "A"
  criterion := "2.1.1"
  pattern := some (tagOf (["div", "span", "li", "td", "p", "section"].map word)
    (restWith "onclick"))
  applies := some (.ofTag answersClicksOnly)
  message := "Interactive element lacks keyboard event support or semantic structure"
  recommendation :=
    "Add keyboard handlers (onkeydown, onkeypress) and consider using semantic HTML " ++
      "elements like <button> or <a> instead of generic <div> or <span>."

def focusTrap : Rule where
  id := "R54"
  tag := "a|button|input"
  level := "A"
  criterion := "2.1.2"
  pattern := some (tag ["a", "button", "input"])
  applies := some (.ofBool trapsFocus)
  message := "Component may trap keyboard focus"
  recommendation :=
    "Ensure users can exit focusable components using keyboard (Tab or Esc). Don't trap " ++
      "focus unless you provide a clear exit."

def accessKey : Rule where
  id := "R55"
  tag := "a|button"
  level := "A"
  criterion := "2.1.4"
  pattern := some (tagOf (["a", "button", "input"].map word) (restWith "accesskey"))
  applies := some (.ofTag fun t => !(trimmedValue t "accesskey").isEmpty)
  message := "Accesskey defined without flexibility"
  recommendation :=
    "Allow users to customize or disable accesskey combinations. Document the used keys " ++
      "to avoid conflicts."

def movingContent : Rule where
  id := "R56"
  tag := "video|audio|marquee"
  level := "A"
  criterion := "2.2.2"
  pattern := some (tag ["video", "audio", "marquee"])
  applies := some (.ofTag movesUnasked)
  message := "Media content autoplaying without user controls"
  recommendation :=
    "Avoid autoplay or include visible controls to let users pause, stop or control " ++
      "playback."
  repair := some (.ofFunction addControls)

end MarkupAudit.Guideline.Keyboard
