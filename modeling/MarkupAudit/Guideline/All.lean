import MarkupAudit.Catalog.Order
import MarkupAudit.Guideline.Compatibility
import MarkupAudit.Guideline.Distinguishable
import MarkupAudit.Guideline.InputAssistance
import MarkupAudit.Guideline.Keyboard
import MarkupAudit.Guideline.Language
import MarkupAudit.Guideline.Media
import MarkupAudit.Guideline.Navigation
import MarkupAudit.Guideline.Predictable
import MarkupAudit.Guideline.Structure
import MarkupAudit.Guideline.TextAlternatives

/-! The rules that the audit knows, by the four principles of accessibility and by number. -/

namespace MarkupAudit.Guideline

/-- The rules for what users have to perceive. -/
def perceivable : List Rule :=
  [TextAlternatives.image, TextAlternatives.imageInput, TextAlternatives.area,
   TextAlternatives.object, TextAlternatives.drawing, TextAlternatives.applet,
   TextAlternatives.figure, TextAlternatives.embed, TextAlternatives.canvas, Media.audioTranscript,
   Media.audioObjectTranscript, Media.videoText, Media.videoCaptions, Media.trackKind,
   Media.videoDescription, Media.objectDescription, Media.videoExtendedDescription,
   Media.objectExtendedDescription, Structure.tableSections, Structure.tableCaption,
   Structure.headerCell, Structure.formChoices, Structure.fieldsetLegend, Structure.labelTarget,
   Structure.headings, Structure.handWrittenList, Structure.sectionHeading,
   Structure.articleHeading, Structure.orderedList, Structure.unorderedList, Structure.listItem,
   Structure.tableOrder, Structure.tableHead, Structure.tableBody, Structure.sightInstruction,
   Structure.autocompleteOff, Structure.fieldPurpose, Distinguishable.colourOnly,
   Distinguishable.autoplay, Distinguishable.textContrast, Distinguishable.textOnImage,
   Distinguishable.textSize, Distinguishable.imageOfText, Distinguishable.drawnText,
   Distinguishable.layoutWidth, Distinguishable.controlContrast, Distinguishable.textSpacing,
   Distinguishable.hoverContent, TextAlternatives.progress, TextAlternatives.meter,
   Structure.emptyCaption, Structure.emptyLegend, TextAlternatives.figureCaption,
   TextAlternatives.imageMap, Structure.selectLabel, Structure.textareaLabel,
   Structure.quotationSource, Media.mediaSource, TextAlternatives.picture]

/-- The rules for what users have to operate. -/
def operable : List Rule :=
  [Navigation.iconLink, Navigation.frameTitle, Keyboard.linkControl, Keyboard.clickOnly,
   Keyboard.focusTrap, Keyboard.accessKey, Keyboard.movingContent, Navigation.bypassBlock,
   Navigation.pageTitle, Navigation.focusOrder, Navigation.vagueLink, Navigation.navigationMethod,
   Navigation.silentLabel, Navigation.focusOutline, Navigation.emptyLink, Navigation.headingOrder,
   Navigation.labelInName]

/-- The rules for what users have to understand. -/
def understandable : List Rule :=
  [Language.pageLanguage, Language.phraseLanguage, Language.abbreviation, Predictable.focusChange,
   Predictable.inputChange, Predictable.navigationOrder, Predictable.submitLabels,
   InputAssistance.errorSupport, InputAssistance.labelOwner, InputAssistance.formInstructions,
   InputAssistance.placeholder, InputAssistance.legendFirst, InputAssistance.errorSuggestions]

/-- The rules for what other programs have to make out. -/
def robust : List Rule :=
  [Compatibility.buttonName, Compatibility.malformedTag, Compatibility.nameOrState,
   Compatibility.statusMessage]

/-- All rules, by principle. -/
def groups : List (List Rule) :=
  [perceivable, operable, understandable, robust]

/-- All rules, by the number in their id. -/
def rules : List Rule :=
  Catalog.byNumber groups.flatten

end MarkupAudit.Guideline
