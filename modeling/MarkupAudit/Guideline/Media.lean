import MarkupAudit.Rule.Condition

/-! Rules about sound and moving pictures. -/

namespace MarkupAudit.Guideline.Media

open Pattern Markup

/-- A track that offers descriptions. -/
def descriptionsTrack : Pattern :=
  tagStart (word "track") ++ longest (· != '>') ++ given "kind" (word "descriptions")

/-- A track that offers captions or subtitles. -/
def captionsTrack : Pattern :=
  tagStart (word "track") ++ longest (· != '>') ++
    given "kind" (word "captions" <|> word "subtitles")

/-- The type or the file name of a sound. -/
def soundSource : Pattern :=
  word "audio/" <|>
    word "." ++ anyWord ["mp3", "wav", "ogg", "oga", "m4a", "flac"] ++ wordEdge

/-- The type or the file name of a moving picture. -/
def videoSource : Pattern :=
  word "video/" <|> word "." ++ anyWord ["mp4", "webm", "ogv", "mov", "m4v"] ++ wordEdge

/-- Whether the type or the data of an object is of the kind. -/
def isObjectOf (kind : Pattern) (tag : Text) : Bool :=
  kind.occursIn (joined [attributeValue tag "type", attributeValue tag "data"])

/-- Whether nothing in the text speaks of a transcript. -/
def lacksTranscript (document : Text) : Bool :=
  !(word "transcript").occursIn document

/-- Whether a video object comes without any description. -/
def lacksObjectDescription (tag document : Text) : Bool :=
  isObjectOf videoSource tag && !descriptionsTrack.occursIn document &&
    !(word "description").occursIn document

/-- Whether a video has no track of descriptions, and no text speaks of one. -/
def lacksTextDescription (t document : Text) : Bool :=
  !descriptionsTrack.occursIn t && !(word "transcript" <|> word "description").occursIn document

/-- Whether a track is of no known kind, or is in a language that it does not tell. -/
def hasBadKind (tag : Text) : Bool :=
  let kind := plainValue tag "kind"
  !isOneOf kind ["subtitles", "captions", "descriptions", "chapters", "metadata"] ||
    isOneOf kind ["subtitles", "captions"] && !hasAttribute tag "srclang".toList

def audioTranscript : Rule where
  id := "R13"
  tag := "audio"
  level := "A"
  criterion := "1.2.1"
  pattern := some (tag ["audio"])
  applies := some (.ofDocument lacksTranscript)
  message := "Audio element missing transcript"
  recommendation :=
    "Provide a transcript of the audio content, including dialogues and relevant sounds, " ++
      "in a <p> or <transcript> tag."

def audioObjectTranscript : Rule where
  id := "R14"
  tag := "object"
  level := "A"
  criterion := "1.2.1"
  pattern := some (tag ["object"])
  applies := some (.ofBool fun t document => isObjectOf soundSource t && lacksTranscript document)
  message := "Object containing only audio missing transcript"
  recommendation :=
    "Include a transcript of the audio content outside the <object> tag to detail the " ++
      "audio content."

def videoText : Rule where
  id := "R15"
  tag := "video"
  level := "A"
  criterion := "1.2.3"
  pattern := some (elementOrTag "video")
  applies := some (.ofBool lacksTextDescription)
  message := "Video missing textual description"
  recommendation :=
    "Provide a textual description of the video content in a <p> tag or include a <track> " ++
      "element with kind='descriptions'."

def videoCaptions : Rule where
  id := "R16"
  tag := "video"
  level := "A"
  criterion := "1.2.2"
  pattern := some (elementOrTag "video")
  applies := some (.ofTag fun t => !captionsTrack.occursIn t)
  message := "Video missing subtitles"
  recommendation :=
    "Add a <track> element with kind='subtitles' to provide synchronized subtitles for " ++
      "the video."

def trackKind : Rule where
  id := "R17"
  tag := "track"
  level := "A"
  criterion := "1.2.2"
  pattern := some (tag ["track"])
  applies := some (.ofTag hasBadKind)
  message := "Track element missing a valid kind"
  recommendation :=
    "Ensure the <track> element includes kind='subtitles' and other necessary attributes " ++
      "like src, srclang, and label."

def videoDescription : Rule where
  id := "R18"
  tag := "video"
  level := "AA"
  criterion := "1.2.5"
  pattern := some (elementOrTag "video")
  applies := some (.ofTag fun t => !descriptionsTrack.occursIn t)
  message := "Video missing audio description"
  recommendation :=
    "Add a <track> element with kind='descriptions' to provide an audio description for " ++
      "visually impaired users."

def objectDescription : Rule where
  id := "R19"
  tag := "object"
  level := "AA"
  criterion := "1.2.5"
  pattern := some (tag ["object"])
  applies := some (.ofBool lacksObjectDescription)
  message := "Object missing audio description"
  recommendation :=
    "Ensure the embedded multimedia in the <object> tag includes synchronized audio " ++
      "descriptions or provide a textual description nearby."

def videoExtendedDescription : Rule where
  id := "R20"
  tag := "video"
  level := "AAA"
  criterion := "1.2.7"
  pattern := some (elementOrTag "video")
  applies := some (.ofTag fun t => !descriptionsTrack.occursIn t)
  message := "Video missing synchronized audio description"
  recommendation :=
    "Include a <track> element with kind='descriptions' to provide synchronized audio " ++
      "descriptions for the video."

def objectExtendedDescription : Rule where
  id := "R21"
  tag := "object"
  level := "AAA"
  criterion := "1.2.7"
  pattern := some (tag ["object"])
  applies := some (.ofBool lacksObjectDescription)
  message := "Object missing synchronized audio description"
  recommendation :=
    "Ensure the multimedia embedded in the <object> tag includes synchronized audio " ++
      "descriptions or provide a detailed textual description nearby."

def mediaSource : Rule where
  id := "R92"
  tag := "source"
  level := "A"
  criterion := "1.2.2"
  pattern := some (tag ["source"])
  applies := some (.ofBool fun t document =>
    !hasAttribute t "srcset".toList && !containsTag document "track")
  message := "Media source without any caption track"
  recommendation := "Add a <track kind=\"captions\"> to the media element that uses this source."

end MarkupAudit.Guideline.Media
