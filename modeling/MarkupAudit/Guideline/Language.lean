import MarkupAudit.Markup.Amend
import MarkupAudit.Rule.Condition

/-! Rules about the language of a page and of its parts. -/

namespace MarkupAudit.Guideline.Language

open Pattern Markup

/-- Whether a text is a language tag: two or three letters, then parts of two to eight letters or
digits, with hyphens between. -/
def isLanguageTag (t : Text) : Bool :=
  match Text.splitAt '-' t with
  | [] => false
  | primary :: parts =>
    2 ≤ primary.length && primary.length ≤ 3 && primary.all Char.isAlpha &&
      parts.all fun part => 2 ≤ part.length && part.length ≤ 8 && part.all Char.isAlphanum

/-- Whether the page tells no language, or none that there is. -/
def lacksLanguage (t : Text) : Bool :=
  let language := trimmedValue t "lang"
  isOneOf (Text.lower language) ["xx"] || !isLanguageTag language

/-- Whether the page tells that it is in English, or does not tell. -/
def isEnglish (document : Text) : Bool :=
  match (tag ["html"]).first? document with
  | none => true
  | some m =>
    let language := plainValue m.text "lang"
    language.isEmpty || "en".toList.isPrefixOf language

/-- Letters that English words rarely have. -/
def accented : Pattern :=
  oneIn "áéíóúüàèìòùâêîôûäëïöñçßæœ"

/-- A phrase with its content. -/
def phrase : Pattern :=
  word "<" ++ hold (word "span" <|> word "p") ++ wordEdge ++ restOfTag ++
    shortest (fun _ => true) ++ closingTag sameAgain

/-- Whether a phrase of an English page seems foreign and does not tell its language. -/
def isForeign (t document : Text) : Bool :=
  !hasAttribute t "lang".toList && accented.occursIn (innerText (elementBody t)) &&
    isEnglish document

def pageLanguage : Rule where
  id := "R67"
  tag := "html"
  level := "A"
  criterion := "3.1.1"
  pattern := some (tag ["html"])
  applies := some (.ofTag lacksLanguage)
  message := "Missing or incorrect lang attribute on <html>"
  recommendation := "Add a valid lang attribute to <html> (e.g., lang='en', lang='es')."
  repair := some (.ofFunction (setAttribute "lang".toList "en".toList))

def phraseLanguage : Rule where
  id := "R68"
  tag := "span|p"
  level := "AA"
  criterion := "3.1.2"
  pattern := some (phrase)
  applies := some (.ofBool isForeign)
  message := "Foreign language content missing lang attribute"
  recommendation :=
    "Use the lang attribute to identify the language of foreign phrases or sections."

def abbreviation : Rule where
  id := "R69"
  tag := "abbr"
  level := "AAA"
  criterion := "3.1.4"
  pattern := some (tag ["abbr"])
  applies := some (.ofTag fun t => (trimmedValue t "title").isEmpty)
  message := "<abbr> missing title attribute"
  recommendation :=
    "Add a title attribute to <abbr> elements to provide the expanded form of the " ++
      "abbreviation."

end MarkupAudit.Guideline.Language
