import MarkupAudit.Guideline.InputAssistance
import MarkupAudit.Guideline.Structure
import MarkupAudit.Proofs.Markup.Assignment
import MarkupAudit.Proofs.Pattern.Language

/-! # Labels and their targets

A label names its target by an identifier, and the rule about labels looks for the identifier in the
whole text. What it looks for is told here without regard to how it is sought. An attribute `id` in
lower case is always found, in either quotation marks and behind anything. One in upper case is not,
although the rule about targets that are no controls finds it. -/

namespace MarkupAudit

namespace Markup

/-- The first `for` with a value in the tag has the target for its value. -/
def PointsAt (label target : Text) : Prop :=
  attributeValue? label "for".toList = some target

theorem RenderedTag.pointsAt {label : RenderedTag} {target : Text}
    (h : label.given? "for".toList = some target) : PointsAt label.text target :=
  (attributeValue?_rendered label (.of "for".toList (by decide))).trans h

/-- An attribute with a value in quotation marks. -/
structure QuotedAttribute where
  name : Text
  quotation : Quotation
  value : Text

/-- The attribute behind a space. -/
def QuotedAttribute.text (a : QuotedAttribute) : Text :=
  ' ' :: (a.name ++ '=' :: a.quotation.mark :: (a.value ++ [a.quotation.mark]))

/-- An opening tag with attributes that all have quoted values. -/
structure QuotedTag where
  name : Text
  attributes : List QuotedAttribute

/-- The tag as it is written. -/
def QuotedTag.text (tag : QuotedTag) : Text :=
  '<' :: (tag.name ++ (tag.attributes.flatMap (·.text) ++ ['>']))

end Markup

namespace Guideline.Structure

open Pattern Markup

/-- Something in the text is identified by the target: behind white space stands `id`, in lower
case, then an equals sign with any white space on both sides, perhaps a quotation mark, the target,
and one more mark, white space or a closing bracket. -/
def Identifies (document target : Text) : Prop :=
  ∃ before space gap gap' mark stop after,
    document = before ++ space :: ("id".toList ++ (gap ++ '=' :: (gap' ++ (mark ++
      (target ++ stop :: after))))) ∧
    Text.isBlank space ∧ (∀ c ∈ gap, Text.isBlank c) ∧ (∀ c ∈ gap', Text.isBlank c) ∧
    (mark = [] ∨ mark = ['"'] ∨ mark = ['\'']) ∧
    (stop = '"' ∨ stop = '\'' ∨ stop = '>' ∨ Text.isBlank stop)

theorem takes_quoteMark? {part : Text} :
    quoteMark?.Takes part ↔ part = [] ∨ part = ['"'] ∨ part = ['\''] := by
  have hdouble (x : Char) : Text.sameFold '"' x = (x == '"') :=
    Text.sameFold_of_not_letter (by decide) (by decide) (by decide) x
  have hsingle (x : Char) : Text.sameFold '\'' x = (x == '\'') :=
    Text.sameFold_of_not_letter (by decide) (by decide) (by decide) x
  rw [quoteMark?, Pattern.optional, takes_orElse, takes_nothing, or_comm, oneIn, takes_one]
  simp [hdouble, hsingle, or_and_right, exists_or]

/-- What is sought as an identifier is what a reader sees as one. -/
theorem takes_exactIdentifier {target part : Text} :
    (exactIdentifier target).Takes part ↔ ∃ space gap gap' mark stop,
      part = space :: ("id".toList ++ (gap ++ '=' :: (gap' ++ (mark ++ (target ++ [stop]))))) ∧
      Text.isBlank space ∧ (∀ c ∈ gap, Text.isBlank c) ∧ (∀ c ∈ gap', Text.isBlank c) ∧
      (mark = [] ∨ mark = ['"'] ∨ mark = ['\'']) ∧
      (stop = '"' ∨ stop = '\'' ∨ stop = '>' ∨ Text.isBlank stop) := by
  simp only [exactIdentifier, takes_append, takes_quoteMark?, takes_exactly, takes_one, blank,
    blanks, takes_longest, Bool.or_eq_true, beq_iff_eq, or_assoc]
  constructor
  · rintro ⟨_, _, rfl, ⟨_, _, rfl, ⟨_, mark, rfl, ⟨_, gap', rfl, ⟨_, _, rfl, ⟨_, gap, rfl,
      ⟨_, _, rfl, ⟨space, hspace, rfl⟩, rfl⟩, hgap⟩, rfl⟩, hgap'⟩, hmark⟩, rfl⟩, stop, hstop, rfl⟩
    exact ⟨space, gap, gap', mark, stop, by simp, hspace, hgap, hgap', hmark, hstop⟩
  · rintro ⟨space, gap, gap', mark, stop, rfl, hspace, hgap, hgap', hmark, hstop⟩
    refine ⟨_, _, ?_, ⟨_, _, rfl, ⟨_, mark, rfl, ⟨_, gap', rfl, ⟨_, _, rfl, ⟨_, gap, rfl,
      ⟨_, _, rfl, ⟨space, hspace, rfl⟩, rfl⟩, hgap⟩, rfl⟩, hgap'⟩, hmark⟩, rfl⟩, stop, hstop, rfl⟩
    simp

theorem occursIn_exactIdentifier_iff (document target : Text) :
    (exactIdentifier target).occursIn document ↔ Identifies document target := by
  have hlocal : (exactIdentifier target).isLocal := by
    simp only [exactIdentifier, isLocal_append, isLocal_exactly]
    rfl
  simp only [occursIn_iff hlocal, takes_exactIdentifier]
  constructor
  · rintro ⟨before, _, after, rfl, space, gap, gap', mark, stop, rfl, hwritten⟩
    exact ⟨before, space, gap, gap', mark, stop, after, by simp, hwritten⟩
  · rintro ⟨before, space, gap, gap', mark, stop, after, rfl, hwritten⟩
    exact ⟨before, _, after, by simp, space, gap, gap', mark, stop, rfl, hwritten⟩

theorem lacksTarget_eq_false_iff {label target : Text} (hlabel : PointsAt label target)
    (hne : target ≠ []) (document : Text) :
    lacksTarget label document = false ↔ Identifies document target := by
  have htarget : attributeValue label "for" = target := by
    rw [attributeValue, show attributeValue? label "for".toList = some target from hlabel,
      Option.getD_some]
  have hempty : target.isEmpty = false := by simpa using hne
  rw [← occursIn_exactIdentifier_iff, lacksTarget, htarget, hempty, Bool.false_or,
    Bool.not_eq_false']

/-- A tag with an attribute `id` identifies its value, wherever the tag stands. -/
theorem identifies_of_isInfix {owner : QuotedTag} {document target : Text}
    (howner : owner.text <:+: document)
    (hgives : ∃ a ∈ owner.attributes, a.name = "id".toList ∧ a.value = target) :
    Identifies document target := by
  obtain ⟨⟨_, quotation, _⟩, ha, rfl, rfl⟩ := hgives
  obtain ⟨front, back, hattributes⟩ := List.append_of_mem ha
  obtain ⟨before, after, rfl⟩ := howner
  refine ⟨before ++ '<' :: (owner.name ++ front.flatMap (·.text)), ' ', [], [], [quotation.mark],
    quotation.mark, back.flatMap (·.text) ++ '>' :: after, ?_, by decide, by simp, by simp, ?_, ?_⟩
  · simp [QuotedTag.text, hattributes, QuotedAttribute.text]
  · cases quotation <;> simp [Quotation.mark]
  · cases quotation <;> simp [Quotation.mark]

/-- A label is accepted just if something is identified by its target. So it is if an attribute `id`
of some tag has the target for its value. -/
theorem label_accepted (target document : Text) (hne : target ≠ []) :
    (∀ label : RenderedTag, label.given? "for".toList = some target →
      PointsAt label.text target) ∧
    ∀ label, PointsAt label target →
      (∀ owner : QuotedTag, owner.text <:+: document →
        (∃ a ∈ owner.attributes, a.name = "id".toList ∧ a.value = target) →
        lacksTarget label document = false) ∧
      (lacksTarget label document = false ↔ Identifies document target) := by
  refine ⟨fun label => RenderedTag.pointsAt, fun label hlabel => ?_⟩
  have hiff := lacksTarget_eq_false_iff hlabel hne document
  exact ⟨fun owner howner hgives => hiff.mpr (identifies_of_isInfix howner hgives), hiff⟩

/-- A target with a character that patterns give a meaning, of a field in the midst of a text. -/
theorem label_accepted_dotted :
    let label : RenderedTag :=
      { name := "label".toList
        attributes := [⟨.of "for".toList (by decide),
          some (.quoted ⟨.double, "a.b".toList, by decide, by decide⟩)⟩]
        name_isNameChar := List.all_eq_true.mp (by decide) }
    let owner : QuotedTag :=
      { name := "input".toList
        attributes := [⟨"type".toList, .double, "text".toList⟩,
          ⟨"id".toList, .single, "a.b".toList⟩] }
    label.text = "<label for=\"a.b\">".toList ∧
      owner.text = "<input type=\"text\" id='a.b'>".toList ∧
      lacksTarget label.text ("id=a.b ".toList ++ owner.text ++ "</p>".toList) = false := by
  intro label owner
  have haccepted := label_accepted "a.b".toList ("id=a.b ".toList ++ owner.text ++ "</p>".toList)
    (by decide)
  have hlabel : PointsAt label.text "a.b".toList := haccepted.1 label (by decide +kernel)
  refine ⟨by decide +kernel, by decide +kernel, (haccepted.2 label.text hlabel).1 owner ?_ ?_⟩
  · exact ⟨_, _, rfl⟩
  · exact ⟨⟨"id".toList, .single, "a.b".toList⟩, by simp [owner], rfl, rfl⟩

/-- The name of an attribute means the same in every case, but an identifier is only found behind
one in lower case. The rule about labels of other elements finds it all the same. -/
theorem label_of_upper_case_rejected :
    let label := "<label for=\"a\">".toList
    let owner (name : String) : QuotedTag := ⟨name.toList, [⟨"ID".toList, .double, "a".toList⟩]⟩
    PointsAt label "a".toList ∧ Text.lower "ID".toList = "id".toList ∧
      (owner "input").text = "<input ID=\"a\">".toList ∧
      lacksTarget label (owner "input").text = true ∧
      lacksTarget label (owner "div").text = true ∧
      InputAssistance.namesNonControl label (owner "div").text = true := by
  intro label owner
  refine ⟨?_, ?_, ?_, ?_, ?_, ?_⟩
  · unfold PointsAt
    decide +kernel
  all_goals decide +kernel

end Guideline.Structure

end MarkupAudit
