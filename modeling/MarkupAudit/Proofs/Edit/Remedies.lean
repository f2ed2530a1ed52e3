import MarkupAudit.Proofs.Catalog.Merging
import MarkupAudit.Proofs.Edit.Composition
import MarkupAudit.Proofs.Evaluation.Reports
import MarkupAudit.Proofs.Markup.Elements

/-! # Rules that mend tags

Each rule with a repair finds tags of some names, and its repair amends the tag that it finds. The
rules about alternative texts and about drawings give the tag an attribute that it lacks, and
amended tags elsewhere do not change what these rules find. -/

namespace MarkupAudit

open Markup Pattern Cursor

/-- A rule that finds tags of some names, perhaps with pieces that follow them, and mends the
tag. -/
structure Remedy where
  rule : Rule
  /-- The names of the tags. -/
  names : List String
  /-- What the rule looks for. -/
  pattern : Pattern
  /-- What the rule asks of a match. -/
  holds : Text → Bool
  /-- The number of pieces behind a tag that belong to the match. -/
  takes : Tag → List Piece → Option ℕ
  /-- What the rule makes of a match. -/
  mend : Text → Text
  asksOf : rule.AsksOf pattern holds
  takesPieces : pattern.TakesPieces takes
  exists_name : ∀ {u after k}, takes u after = some k → ∃ name ∈ names, u.isNamed name.toList
  repair_eq : rule.repair = some (.ofFunction mend)
  keepsName : KeepsName mend

/-- A remedy that gives tags an attribute which they lack. Amending tags changes neither how far a
match reaches nor whether a tag that stays the same is found. -/
structure Completion extends Remedy where
  attr : Text
  value : Text
  attr_isNameLetter : ∀ c ∈ attr, isNameLetter c
  bracketless : Bracketless (' ' :: writeAttribute attr (some value))
  mend_eq : mend = insertAttribute attr (some value)
  lacks : ∀ {u : Tag} {r : Text}, holds (u.text ++ r) → hasAttribute u.text attr = false
  takes_amend : ∀ {change : ℕ → Tag → Tag}, (∀ (q : ℕ) (u : Tag), u.Amended (change q u)) →
    ∀ {u u' : Tag}, u.Amended u' → ∀ q after,
      (takes u' (amend change q after)).getD 0 = (takes u after).getD 0
  holds_amend : ∀ {change : ℕ → Tag → Tag}, (∀ (q : ℕ) (u : Tag), u.Amended (change q u)) →
    ∀ {u q after k}, takes u (amend change q after) = some k →
      holds (u.text ++ render ((amend change q after).take k)) →
      takes u after = some k ∧ holds (u.text ++ render (after.take k))

/-! ## Remedies of single tags -/

/-- A remedy whose rule looks for single tags. -/
def Remedy.ofOpening (rule : Rule) (names : List String) {p inner : Pattern} {holds : Text → Bool}
    {mend : Text → Text} (hopens : OpensTag p inner)
    (hnamed : ∀ u : Tag, p.startsIn u.text → ∃ name ∈ names, u.isNamed name.toList)
    (asksOf : rule.AsksOf p holds) (repair_eq : rule.repair = some (.ofFunction mend))
    (keepsName : KeepsName mend) : Remedy where
  rule := rule
  names := names
  pattern := p
  holds := holds
  takes u _ := if p.startsIn u.text then some 0 else none
  mend := mend
  asksOf := asksOf
  takesPieces := hopens.takesPieces
  exists_name h := hnamed _ (Option.ite_none_right_eq_some.mp h).1
  repair_eq := repair_eq
  keepsName := keepsName

theorem exists_name_of_startsIn_tag {names : List String} (hne : names ≠ [])
    (hnames : ∀ name ∈ names, IsName name) (u : Tag) (h : (tag names).startsIn u.text) :
    ∃ name ∈ names, u.isNamed name.toList := by
  rwa [startsIn_tag hne hnames, List.any_eq_true] at h

/-- A tag of which something else is asked behind the name has this name. -/
theorem Pattern.OpensTag.isNamed_of_startsIn {p rest : Pattern} {name : String}
    (h : OpensTag p (word name ++ wordEdge ++ rest)) (hname : IsName name) (hrest : InsideTag rest)
    (u : Tag) (hstarts : p.startsIn u.text) : u.isNamed name.toList := by
  have hnone : ∀ k, u.text.length ≤ k →
      rest.run (place u.text k []) (fun there => restOfTag.run there some) = none := by
    intro k hk
    exact hrest.run_eq_none fun j hj => run_restOfTag_of_length_le (hk.trans hj) some
  rw [h.startsIn_eq, run_append, run_append, isSome_run_name hname u hnone,
    Bool.and_eq_true] at hstarts
  exact hstarts.1

/-- A remedy whose rule looks for the tags of some names. -/
def Remedy.ofNames (rule : Rule) (names : List String) {holds : Text → Bool} {mend : Text → Text}
    (hne : names ≠ []) (hnames : ∀ name ∈ names, IsName name)
    (asksOf : rule.AsksOf (tag names) holds) (repair_eq : rule.repair = some (.ofFunction mend))
    (keepsName : KeepsName mend) : Remedy :=
  .ofOpening rule names (opensTag_tag hnames) (exists_name_of_startsIn_tag hne hnames) asksOf
    repair_eq keepsName

namespace Completion

/-- A remedy that gives single tags an alternative text. -/
def ofOpening (rule : Rule) (name value : String) {p inner : Pattern} (hopens : OpensTag p inner)
    (hnamed : ∀ u : Tag, p.startsIn u.text → ∃ n ∈ [name], u.isNamed n.toList)
    (asksOf : rule.AsksOf p lacksAlt)
    (repair_eq : rule.repair =
      some (.ofFunction (insertAttribute "alt".toList (some value.toList))))
    (bracketless : Bracketless (' ' :: writeAttribute "alt".toList (some value.toList))) :
    Completion where
  toRemedy := .ofOpening rule [name] hopens hnamed asksOf repair_eq
    (keepsName_insertAttribute bracketless)
  attr := "alt".toList
  value := value.toList
  attr_isNameLetter := List.all_eq_true.mp (by decide)
  bracketless := bracketless
  mend_eq := rfl
  lacks {u r} h := by
    change (!hasAttribute (u.text ++ r) "alt".toList) = true at h
    rwa [u.hasAttribute_append, Bool.not_eq_true'] at h
  takes_amend {_} _ {u u'} _ _ _ := by
    change (if p.startsIn u'.text then some 0 else none).getD 0 =
      (if p.startsIn u.text then some 0 else none).getD 0
    cases p.startsIn u.text <;> cases p.startsIn u'.text <;> rfl
  holds_amend {_} _ {u q after k} htakes hholds := by
    obtain ⟨-, hk⟩ := Option.ite_none_right_eq_some.mp htakes
    obtain rfl := Option.some.inj hk
    exact ⟨htakes, hholds⟩

def image : Completion :=
  .ofOpening Guideline.TextAlternatives.image "img" "" (opensTag_tag (by decide))
    (exists_name_of_startsIn_tag (by decide) (by decide)) ⟨rfl, rfl⟩ rfl (by decide)

/-- What follows the name in the tag of an input that is an image. -/
def typedImage : Pattern :=
  longest (· != '>') ++ given "type" (word "image") ++ wordEdge

theorem insideTag_typedImage : InsideTag typedImage := by
  have hmark : InsideTag quoteMark? := .either (.one (by decide)) .nothing
  have hblanks : InsideTag blanks := .longest (by decide)
  have hequals : InsideTag (word "=") := .letters (by decide)
  have htype : InsideTag (given "type" (word "image")) :=
    .seq (.seq (.seq (.seq (.seq (.word (by decide)) hblanks) hequals) hblanks) hmark)
      (.word (by decide))
  exact .seq (.seq (.longest (by decide)) htype) .wordEdge

theorem opensTag_imageInput :
    OpensTag (tagStart (word "input") ++ longest (· != '>') ++ given "type" (word "image") ++
      wordEdge ++ restOfTag) (word "input" ++ wordEdge ++ typedImage) :=
  ⟨.seq (.seq (.word (by decide)) .wordEdge) insideTag_typedImage, fun _ _ => rfl⟩

def imageInput : Completion :=
  .ofOpening Guideline.TextAlternatives.imageInput "input" "Submit" opensTag_imageInput
    (fun u h => ⟨"input", by simp,
      opensTag_imageInput.isNamed_of_startsIn (by decide) insideTag_typedImage u h⟩)
    ⟨rfl, rfl⟩ rfl (by decide)

def area : Completion :=
  .ofOpening Guideline.TextAlternatives.area "area" "Link" (opensTag_tag (by decide))
    (exists_name_of_startsIn_tag (by decide) (by decide)) ⟨rfl, rfl⟩ rfl (by decide)

theorem lacksTitle_append (u : Tag) (r : Text) :
    Guideline.TextAlternatives.lacksTitle (u.text ++ r) =
      (!(isLabelled u.text || hasAttribute u.text "aria-hidden".toList) &&
        !containsTag (elementBody (u.text ++ r)) "title") := by
  have hlabelled : isLabelled (u.text ++ r) = isLabelled u.text := by
    simp only [isLabelled, hasAnyAttribute, u.hasAttribute_append]
  rw [Guideline.TextAlternatives.lacksTitle, hlabelled, u.hasAttribute_append]

def drawing : Completion where
  rule := Guideline.TextAlternatives.drawing
  names := ["svg"]
  pattern := elementOrTag "svg"
  holds := Guideline.TextAlternatives.lacksTitle
  takes := elementTakes "svg".toList
  mend := insertAttribute "aria-hidden".toList (some "true".toList)
  asksOf := ⟨rfl, rfl⟩
  takesPieces := takesPieces_elementOrTag (by decide)
  exists_name h := ⟨"svg", by simp, (Option.ite_none_right_eq_some.mp h).1⟩
  repair_eq := rfl
  keepsName := keepsName_insertAttribute (by decide)
  attr := "aria-hidden".toList
  value := "true".toList
  attr_isNameLetter := List.all_eq_true.mp (by decide)
  bracketless := by decide
  mend_eq := rfl
  lacks {u r} h := by
    rw [lacksTitle_append, Bool.and_eq_true, Bool.not_eq_true', Bool.or_eq_false_iff] at h
    exact h.1.2
  takes_amend {_} hchange {_ _} h q after := by
    rw [elementTakes_amend hchange h]
  holds_amend {change} hchange {u q after k} htakes hholds := by
    have hsame : elementTakes "svg".toList u after = some k := by
      rwa [← elementTakes_amend hchange (.inl rfl)]
    refine ⟨hsame, ?_⟩
    rw [lacksTitle_append, elementBody_of_elementTakes htakes, take_amend,
      containsTag_amend hchange (by decide)] at hholds
    rwa [lacksTitle_append, elementBody_of_elementTakes hsame]

end Completion

/-! ## All remedies -/

theorem keepsName_addControls : KeepsName Guideline.Keyboard.addControls := by
  intro u r hu
  rw [Guideline.Keyboard.addControls]
  split
  · exact ⟨u, rfl, rfl⟩
  · exact keepsName_insertAttribute (by decide) u r hu

namespace Remedy

def frameTitle : Remedy :=
  .ofNames Guideline.Navigation.frameTitle ["iframe"] (by decide) (by decide) ⟨rfl, rfl⟩ rfl
    (keepsName_insertAttribute (by decide))

def autoplay : Remedy :=
  .ofNames Guideline.Distinguishable.autoplay ["audio"] (by decide) (by decide) ⟨rfl, rfl⟩ rfl
    (keepsName_insertAttribute (by decide))

def movingContent : Remedy :=
  .ofNames Guideline.Keyboard.movingContent ["video", "audio", "marquee"] (by decide) (by decide)
    ⟨rfl, rfl⟩ rfl keepsName_addControls

def pageLanguage : Remedy :=
  .ofNames Guideline.Language.pageLanguage ["html"] (by decide) (by decide) ⟨rfl, rfl⟩ rfl
    (keepsName_setAttribute (by decide) (by decide))

end Remedy

namespace Guideline

/-- The remedies that give tags an attribute which they lack. -/
def completions : List Completion :=
  [.image, .imageInput, .area, .drawing]

/-- The remedies of the known rules. -/
def remedies : List Remedy :=
  completions.map (·.toRemedy) ++ [.frameTitle, .autoplay, .movingContent, .pageLanguage]

/-- The known rules with repairs are those of the remedies. -/
theorem filter_fixable : rules.filter (·.fixable) = remedies.map (·.rule) := by
  rw [rules_eq_insertionSort]
  rfl

theorem isName_names : ∀ m ∈ remedies, ∀ name ∈ m.names,
    IsName name ∧ name.toList.head?.any Char.isAlpha := by
  decide +kernel

/-- Where a completion and a remedy have a name in common, they are of the same rule. -/
theorem names_disjoint : ∀ m ∈ completions, ∀ other ∈ remedies, ∀ name ∈ m.names,
    ∀ name' ∈ other.names, name.toList.map Char.toLower = name'.toList.map Char.toLower →
      other.rule.id = m.rule.id := by
  decide +kernel

end Guideline

end MarkupAudit
