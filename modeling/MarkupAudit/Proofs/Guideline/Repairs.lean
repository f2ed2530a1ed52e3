import MarkupAudit.Edit.Mending
import MarkupAudit.Guideline.Language
import MarkupAudit.Guideline.Navigation
import MarkupAudit.Proofs.Markup.Assignment

/-! # Repairs that give an attribute its value

The rule about the language of a page and the one about titles of frames ask for the value of an
attribute. Their repairs ask first whether there is such an attribute: both insert one that is not
there, and of one that is there, the first repair sets the value and the second one does nothing. -/

namespace MarkupAudit.Guideline

open Markup Text

/-! ## The language of a page -/

def langToken : Token := .of "lang".toList (by decide)

theorem apart_lang {n : Text} (h : lower n ≠ "lang".toList) : Apart langToken.text n := by
  have hlower : lower langToken.text = "lang".toList := by decide +kernel
  exact apart_of_lower_ne (by decide) (by rwa [hlower])

/-- The rule asks for nothing but the value. -/
theorem pageLanguage_condition {t : Text} {value : Option Text}
    (h : attributeValue? t langToken.text = value) (document : Text) :
    Language.pageLanguage.condition t document =
      .ok (isOneOf (lower (trim (value.getD []))) ["xx"] ||
        !Language.isLanguageTag (trim (value.getD []))) := by
  rw [← h]
  rfl

/-- The repair puts the page in English, and all other attributes are read as before. If the page
has the attribute, but nowhere with a value, the repair does nothing and the problem stays. -/
theorem pageLanguage_repair (tag : RenderedTag) (hfirst : tag.name.head?.any Char.isAlpha)
    (hquoted : tag.isQuoted) :
    ∃ fixed, Language.pageLanguage.repair.map (·.mend tag.text) = some (.ok (.text fixed)) ∧
      (tag.isBare "lang".toList → fixed = tag.text ∧
        ∀ document, Language.pageLanguage.condition fixed document = .ok true) ∧
      (¬tag.isBare "lang".toList →
        attributeValue? fixed "lang".toList = some "en".toList ∧
        (∀ document, Language.pageLanguage.condition fixed document = .ok false) ∧
        ∀ n : Token, lower n.text ≠ "lang".toList →
          attributeValue? fixed n.text = attributeValue? tag.text n.text ∧
            hasAttribute fixed n.text = hasAttribute tag.text n.text) := by
  let english : QuotedValue := ⟨.double, "en".toList, by decide, by decide⟩
  refine ⟨setAttribute langToken.text english.content tag.text, rfl, fun hbare => ?_,
    fun hbare => ?_⟩
  · rw [setAttribute_of_isBare (n := langToken) hbare]
    have hnone : attributeValue? tag.text langToken.text = none := by
      rw [attributeValue?_rendered]
      exact Option.isNone_iff_eq_none.mp (Bool.and_eq_true_iff.mp hbare).2
    refine ⟨rfl, fun document => ?_⟩
    rw [pageLanguage_condition hnone]
    decide +kernel
  · have hreaders := setAttribute_readers (n := langToken) (w := english) hquoted rfl hfirst hbare
    obtain ⟨hvalue, -⟩ := hreaders langToken
    refine ⟨hvalue, fun document => ?_, fun n hn => (hreaders n).2 (apart_lang hn)⟩
    rw [pageLanguage_condition hvalue]
    decide +kernel

/-- A language in single quotation marks behind an attribute without a value is replaced, and an
attribute whose name ends with that of the language is kept. -/
theorem pageLanguage_repair_quoted :
    let tag : RenderedTag :=
      { name := "html".toList
        attributes :=
          [⟨langToken, none⟩,
            ⟨.of "data-lang".toList (by decide),
              some (.quoted ⟨.double, "<x/lang".toList, by decide, by decide⟩)⟩,
            ⟨.of "LANG".toList (by decide),
              some (.quoted ⟨.single, " ".toList, by decide, by decide⟩)⟩]
        name_isNameChar := List.all_eq_true.mp (by decide) }
    tag.text = "<html lang data-lang=\"<x/lang\" LANG=' '>".toList ∧
      tag.name.head?.any Char.isAlpha ∧ tag.isQuoted ∧
      Language.pageLanguage.condition tag.text [] = .ok true ∧
      ∃ fixed, Language.pageLanguage.repair.map (·.mend tag.text) = some (.ok (.text fixed)) ∧
        attributeValue? fixed "lang".toList = some "en".toList ∧
        Language.pageLanguage.condition fixed [] = .ok false ∧
        attributeValue? fixed "data-lang".toList = attributeValue? tag.text "data-lang".toList := by
  intro tag
  have hbare : ¬tag.isBare "lang".toList := by decide +kernel
  obtain ⟨fixed, hfixed, -, hmended⟩ :=
    pageLanguage_repair tag (by decide) (by decide)
  obtain ⟨hvalue, hcondition, hothers⟩ := hmended hbare
  exact ⟨by decide, by decide, by decide, congrArg Except.ok (by decide +kernel), fixed, hfixed,
    hvalue, hcondition [],
    (hothers (.of "data-lang".toList (by decide)) (by decide +kernel)).1⟩

/-- The language of a page is mentioned, and the repair does not set it. -/
theorem pageLanguage_repair_bare :
    let tag : RenderedTag :=
      { name := "html".toList
        attributes := [⟨langToken, none⟩]
        name_isNameChar := List.all_eq_true.mp (by decide) }
    tag.text = "<html lang>".toList ∧
      Language.pageLanguage.condition tag.text tag.text = .ok true ∧
      Language.pageLanguage.repair.map (·.mend tag.text) = some (.ok (.text tag.text)) ∧
      attributeValue? tag.text "lang".toList = none := by
  intro tag
  refine ⟨by decide, congrArg Except.ok (by decide +kernel), ?_, by decide +kernel⟩
  exact congrArg (fun t => some (Except.ok (Mended.text t)))
    (show setAttribute "lang".toList "en".toList tag.text = tag.text by decide +kernel)

/-! ## The title of a frame -/

def titleToken : Token := .of "title".toList (by decide)

/-- The rule asks for nothing but the value. -/
theorem frameTitle_condition {t : Text} {value : Option Text}
    (h : attributeValue? t titleToken.text = value) (document : Text) :
    Navigation.frameTitle.condition t document = .ok (trim (value.getD [])).isEmpty := by
  rw [← h]
  rfl

/-- The repair gives a title to a frame that has no attribute of the name. A frame that has one
without a text in it is kept as it is, and the problem stays. -/
theorem frameTitle_repair (tag : RenderedTag) (hfirst : tag.name.head?.any Char.isAlpha)
    (hquoted : tag.isQuoted) (document : Text)
    (happlies : Navigation.frameTitle.condition tag.text document = .ok true) :
    ∃ fixed, Navigation.frameTitle.repair.map (·.mend tag.text) = some (.ok (.text fixed)) ∧
      ((¬∃ a ∈ tag.attributes, a.isNamed "title".toList) →
        attributeValue? fixed "title".toList = some "Embedded content".toList ∧
        ∀ document, Navigation.frameTitle.condition fixed document = .ok false) ∧
      ((∃ a ∈ tag.attributes, a.isNamed "title".toList) →
        fixed = tag.text ∧ Navigation.frameTitle.condition fixed document = .ok true) := by
  let shown : QuotedValue := ⟨.double, "Embedded content".toList, by decide, by decide⟩
  have hhas := hasAttribute_of_isQuoted hquoted titleToken
  refine ⟨insertAttribute titleToken.text (some shown.content) tag.text, rfl, fun hlacks => ?_,
    fun hnamed => ?_⟩
  · rw [← List.any_eq_true, Bool.not_eq_true] at hlacks
    obtain ⟨hvalue, -⟩ := insertAttribute_readers (w := shown) hquoted rfl hfirst
      (hhas.trans hlacks) titleToken
    refine ⟨hvalue, fun document => ?_⟩
    rw [frameTitle_condition hvalue]
    decide +kernel
  · rw [insertAttribute_of_hasAttribute (hhas.trans (List.any_eq_true.mpr hnamed))]
    exact ⟨rfl, happlies⟩

/-- A frame that only mentions a title in the value of another attribute gets one. -/
theorem frameTitle_repair_source :
    let tag : RenderedTag :=
      { name := "iframe".toList
        attributes :=
          [⟨.of "src".toList (by decide),
              some (.quoted ⟨.double, "/v?a='b' title=c".toList, by decide, by decide⟩)⟩,
            ⟨.of "allowfullscreen".toList (by decide), none⟩]
        name_isNameChar := List.all_eq_true.mp (by decide) }
    tag.text = "<iframe src=\"/v?a='b' title=c\" allowfullscreen>".toList ∧
      tag.name.head?.any Char.isAlpha ∧ tag.isQuoted ∧
      Navigation.frameTitle.condition tag.text [] = .ok true ∧
      ∃ fixed, Navigation.frameTitle.repair.map (·.mend tag.text) = some (.ok (.text fixed)) ∧
        attributeValue? fixed "title".toList = some "Embedded content".toList ∧
        Navigation.frameTitle.condition fixed [] = .ok false := by
  intro tag
  have happlies : Navigation.frameTitle.condition tag.text [] = .ok true :=
    congrArg Except.ok (by decide +kernel)
  have hlacks : ¬∃ a ∈ tag.attributes, a.isNamed "title".toList := by
    rw [← List.any_eq_true]
    decide +kernel
  obtain ⟨fixed, hfixed, hmended, -⟩ :=
    frameTitle_repair tag (by decide) (by decide) [] happlies
  exact ⟨by decide, by decide, by decide, happlies, fixed, hfixed, (hmended hlacks).1,
    (hmended hlacks).2 []⟩

/-- A frame with an empty title is reported, and the repair keeps it as it is. -/
theorem frameTitle_repair_empty :
    let tag : RenderedTag :=
      { name := "iframe".toList
        attributes := [⟨titleToken, some (.quoted ⟨.double, [], by decide, by decide⟩)⟩]
        name_isNameChar := List.all_eq_true.mp (by decide) }
    tag.text = "<iframe title=\"\">".toList ∧
      Navigation.frameTitle.condition tag.text tag.text = .ok true ∧
      Navigation.frameTitle.repair.map (·.mend tag.text) = some (.ok (.text tag.text)) := by
  intro tag
  refine ⟨by decide, congrArg Except.ok (by decide +kernel), ?_⟩
  exact congrArg (fun t => some (Except.ok (Mended.text t)))
    (show insertAttribute "title".toList (some "Embedded content".toList) tag.text = tag.text by
      decide +kernel)

end MarkupAudit.Guideline
