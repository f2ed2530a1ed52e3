import MarkupAudit.Proofs.Catalog.Merging
import MarkupAudit.Proofs.Evaluation.Reports
import MarkupAudit.Proofs.Markup.Readers
import MarkupAudit.Proofs.Region.Layout

/-! # Absent attributes are detected

Of a page that is written tag by tag, six rules report just the opening tags of their element that
lack all attributes of some list, each with its own part of the page and in the order of the
page. -/

namespace MarkupAudit

open Markup

/-! ## Written pages -/

/-- The name of an element: a plain letter, then plain letters and digits. Elements that are regions
as a whole are left out. -/
structure ElementName where
  first : Char
  others : Text
  first_isAlpha : first.isAlpha
  others_isAlphanum : others.all Char.isAlphanum
  not_region : Text.lower (first :: others) ∉ ["script".toList, "style".toList]

/-- The characters of the name. -/
def ElementName.text (n : ElementName) : Text :=
  n.first :: n.others

/-- An opening tag whose values have no opening brackets. -/
structure OpeningTag where
  name : ElementName
  attributes : List WrittenAttribute
  opening_notMem : ∀ a ∈ attributes, ∀ v ∈ a.value, '<' ∉ v.content

/-- A part of a page. -/
inductive PageItem where
  | chars (t : Text) (opening_notMem : '<' ∉ t)
  | closing (name : ElementName)
  | opening (tag : OpeningTag)

theorem ElementName.text_isAlphanum (n : ElementName) : n.text.all Char.isAlphanum := by
  simp [text, Char.isAlphanum, n.first_isAlpha, n.others_isAlphanum]

/-- The tag by its name and attributes. -/
def OpeningTag.written (tag : OpeningTag) : WrittenTag where
  name := tag.name.text
  attributes := tag.attributes
  name_ne_nil := by simp [ElementName.text]
  name_isAlphanum := tag.name.text_isAlphanum

/-- The characters of a part. -/
def PageItem.text : PageItem → Text
  | .chars t _ => t
  | .closing name => '<' :: '/' :: name.text ++ ['>']
  | .opening tag => tag.written.text

/-- The parts of a page in order. -/
abbrev Page := List PageItem

/-- The characters of a page. -/
def Page.text (page : Page) : Text :=
  page.flatMap PageItem.text

/-- The offsets of the opening tags of which something holds, in order; the parts start at an
offset. -/
def Page.openings (holds : OpeningTag → Bool) : (offset : ℕ) → Page → List (ℕ × ℕ)
  | _, [] => []
  | q, item :: items =>
    let stop := q + item.text.length
    let rest := Page.openings holds stop items
    match item with
    | .opening tag => if holds tag then (q, stop) :: rest else rest
    | _ => rest

/-! ## Rules about absent attributes -/

/-- What may be absent: the alternative text of three elements, the name of three others. -/
inductive Absence where
  | imageText
  | areaText
  | appletText
  | embedName
  | progressName
  | meterName

namespace Absence

/-- The rule that reports the absence. -/
def ruleId : Absence → String
  | imageText => "R1"
  | areaText => "R3"
  | appletText => "R6"
  | embedName => "R11"
  | progressName => "R83"
  | meterName => "R84"

/-- The element that is looked for. -/
def element : Absence → String
  | imageText => "img"
  | areaText => "area"
  | appletText => "applet"
  | embedName => "embed"
  | progressName => "progress"
  | meterName => "meter"

/-- The attributes of which one should be there. -/
def attributes : Absence → List String
  | imageText | areaText | appletText => ["alt"]
  | embedName | progressName | meterName => ["aria-label", "aria-labelledby", "title"]

/-- Whether an opening tag is one of the element and has none of the attributes. -/
def isIn (a : Absence) (tag : OpeningTag) : Bool :=
  Text.lower tag.name.text == a.element.toList &&
    tag.attributes.all fun attr => !a.attributes.any fun n => Text.lower attr.name.text == n.toList

/-- The rule by its id. -/
def rule : Absence → Rule
  | imageText => Guideline.TextAlternatives.image
  | areaText => Guideline.TextAlternatives.area
  | appletText => Guideline.TextAlternatives.applet
  | embedName => Guideline.TextAlternatives.embed
  | progressName => Guideline.TextAlternatives.progress
  | meterName => Guideline.TextAlternatives.meter

theorem rule_id (a : Absence) : a.rule.id = a.ruleId := by
  cases a <;> rfl

theorem rule_mem (a : Absence) : a.rule ∈ Guideline.rules := by
  cases a <;> simp [rule, Guideline.mem_rules, Guideline.perceivable]

theorem isName_element (a : Absence) : Pattern.IsName a.element := by
  cases a <;> decide

theorem asksOf_rule (a : Absence) :
    a.rule.AsksOf (Pattern.tag [a.element]) fun tag => !hasAnyAttribute tag a.attributes := by
  have halt : lacksAlt = fun tag => !hasAnyAttribute tag ["alt"] := by
    funext tag
    simp [lacksAlt, hasAnyAttribute]
  cases a with
  | imageText | areaText | appletText => exact ⟨rfl, congrArg (some ∘ Condition.ofTag) halt⟩
  | embedName | progressName | meterName => exact ⟨rfl, rfl⟩

end Absence

/-! ## Pages in pieces -/

theorem opening_notMem_of_isAlphanum {t : Text} (h : t.all Char.isAlphanum) : '<' ∉ t := by
  intro hmem
  have := List.all_eq_true.mp h _ hmem
  revert this
  decide

theorem closing_notMem_of_isAlphanum {t : Text} (h : t.all Char.isAlphanum) : '>' ∉ t := by
  intro hmem
  have := List.all_eq_true.mp h _ hmem
  revert this
  decide

theorem Markup.WrittenAttribute.opening_notMem {a : WrittenAttribute}
    (h : ∀ v ∈ a.value, '<' ∉ v.content) : '<' ∉ a.shown QuotedValue.text := by
  have hname : '<' ∉ a.name.text := by
    intro hmem
    have := a.name.text_isNameLetter _ hmem
    revert this
    decide
  unfold WrittenAttribute.shown
  cases hv : a.value with
  | none => simpa using hname
  | some v =>
      have hmark : '<' ≠ v.quotation.mark := by cases v.quotation <;> decide
      simp [hname, QuotedValue.text, hmark, h v hv]

namespace OpeningTag

/-- The opening tag as a piece of a text. -/
def tag (x : OpeningTag) : Tag where
  body := x.written.body
  opening_notMem := by
    simp only [WrittenTag.body, List.mem_append, List.mem_flatMap, not_or, not_exists, not_and]
    exact ⟨opening_notMem_of_isAlphanum x.name.text_isAlphanum,
      fun a ha => WrittenAttribute.opening_notMem (x.opening_notMem a ha)⟩
  closing_notMem := x.written.bracket_notMem_body

theorem text_tag (x : OpeningTag) : x.tag.text = x.written.text :=
  x.written.text_eq.symm

theorem word_tag (x : OpeningTag) : x.tag.word = x.name.text := by
  have hname : ∀ c ∈ x.name.text, Text.isWord c := by
    intro c hc
    have hc := List.all_eq_true.mp x.name.text_isAlphanum c hc
    exact Text.forall_plain (P := fun c => c.isAlphanum → Text.isWord c) (by decide) c
      (Text.plain_of_isAlphanum hc) hc
  have hrest : (x.attributes.flatMap (·.shown QuotedValue.text)).takeWhile Text.isWord = [] := by
    cases x.attributes with
    | nil => rfl
    | cons a attributes => rfl
  change (x.name.text ++ x.attributes.flatMap (·.shown QuotedValue.text)).takeWhile Text.isWord = _
  rw [List.takeWhile_append_of_pos hname, hrest, List.append_nil]

end OpeningTag

/-- The names that elements are compared with are in lower case. -/
theorem ElementName.isNamed_eq (n : ElementName) {u : Tag} (hu : u.word = n.text) {name : String}
    (hname : Pattern.IsName name) (hlower : name.toList.map Char.toLower = name.toList) :
    u.isNamed name.toList = (Text.lower n.text == name.toList) := by
  have hplain : ∀ x ∈ n.text, x.toNat < 128 :=
    fun x hx => Text.plain_of_isAlphanum (List.all_eq_true.mp n.text_isAlphanum x hx)
  rw [Tag.isNamed, hu, Text.startsLike_length_eq, hlower, Text.lower_of_plain hplain,
    Bool.beq_eq_decide_eq]
  intro c hc x hx
  exact Text.sameFold_of_plain
    (Text.plain_of_isAlphanum (List.all_eq_true.mp hname.2 c hc)) (hplain x hx)

/-- The closing tag of the name as a piece of a text. -/
def ElementName.closingTag (n : ElementName) : Tag where
  body := '/' :: n.text
  opening_notMem := by simpa using opening_notMem_of_isAlphanum n.text_isAlphanum
  closing_notMem := by simpa using closing_notMem_of_isAlphanum n.text_isAlphanum

namespace PageItem

/-- A part of a page as a piece of a text. -/
def piece : PageItem → Piece
  | .chars t h => .plain t h
  | .closing name => .tag name.closingTag
  | .opening tag => .tag tag.tag

theorem text_piece (item : PageItem) : item.piece.text = item.text := by
  cases item with
  | chars t h => rfl
  | closing name => rfl
  | opening tag => exact tag.text_tag

end PageItem

namespace Page

/-- A page in pieces. -/
def layout (page : Page) : Layout where
  pieces := page.map PageItem.piece
  tail := []
  closing_notMem := by simp

theorem text_layout (page : Page) : page.layout.text = page.text := by
  simp only [Layout.text, layout, render, List.append_nil, List.flatMap_map, text,
    PageItem.text_piece]

/-- A page has no regions. -/
theorem regions_eq_nil (page : Page) : Region.all page.text = [] := by
  rw [← text_layout, Region.all_layout_eq_nil_iff]
  refine ⟨?_, fun q => by simp [layout, Text.standsAt]⟩
  intro u hu
  obtain ⟨item, -, hitem⟩ := List.mem_map.mp hu
  cases item with
  | chars t h => cases hitem
  | closing name =>
      obtain rfl := Piece.tag.inj hitem
      rfl
  | opening tag =>
      obtain rfl := Piece.tag.inj hitem
      have hcomment : "!--".toList.isPrefixOf tag.tag.body = false := by
        have hne : '!' ≠ tag.name.first := by
          intro heq
          have := tag.name.first_isAlpha
          rw [← heq] at this
          revert this
          decide
        change "!--".toList.isPrefixOf (tag.name.first :: _) = false
        simp [List.isPrefixOf, hne]
      have hnames : ¬ (Text.lower tag.name.text = "script".toList ∨
          Text.lower tag.name.text = "style".toList) := by
        simpa only [ElementName.text, List.mem_cons, List.not_mem_nil, or_false] using
          tag.name.not_region
      rw [Tag.opensRegion, hcomment, tag.name.isNamed_eq tag.word_tag (by decide) (by decide),
        tag.name.isNamed_eq tag.word_tag (by decide) (by decide), Bool.false_or, Bool.eq_false_iff,
        ne_eq, Bool.or_eq_true, beq_iff_eq, beq_iff_eq]
      exact hnames

/-- Going from tag to tag, a page is passed through part by part. -/
theorem spans_layout {takes : Tag → Bool} {holds : OpeningTag → Bool}
    (hopening : ∀ tag : OpeningTag, takes tag.tag = holds tag)
    (hclosing : ∀ u : Tag, u.word = [] → takes u = false) (page : Page) (q : ℕ) :
    spans (fun u _ => if takes u then some 0 else none) 0 q (page.map PageItem.piece) =
      page.openings holds q := by
  induction page generalizing q with
  | nil => rfl
  | cons item page ih =>
      cases item with
      | chars t h => exact ih _
      | closing name =>
          have htakes : takes name.closingTag = false := hclosing _ rfl
          simp only [List.map_cons, PageItem.piece, spans, htakes]
          exact ih _
      | opening tag =>
          have hrest := ih (q + tag.written.text.length)
          simp only [List.map_cons, PageItem.piece, spans, hopening, openings, PageItem.text,
            tag.text_tag, ← hrest]
          cases holds tag with
          | false => rfl
          | true => simp

end Page

namespace Absence

theorem hasAnyAttribute_text (a : Absence) (tag : OpeningTag) :
    hasAnyAttribute tag.written.text a.attributes =
      tag.attributes.any fun attr =>
        a.attributes.any fun n => Text.lower attr.name.text == n.toList := by
  have hnames : ∀ n ∈ a.attributes,
      ∃ m : AttributeName, m.text = n.toList ∧ Text.lower m.text = n.toList := by
    intro n hn
    have hspelled : ∀ n ∈ a.attributes, n.toList.head?.any Char.isAlpha ∧
        n.toList.tail.all isNameLetter ∧ n.toList.map Char.toLower = n.toList := by
      cases a <;> decide
    obtain ⟨hfirst, hothers, hlower⟩ := hspelled n hn
    obtain ⟨c, hc, halpha⟩ := (Option.any_eq_true _ _).mp hfirst
    obtain ⟨r, hr⟩ := List.head?_eq_some_iff.mp hc
    rw [hr, List.tail_cons] at hothers
    refine ⟨⟨c, r, halpha, hothers⟩, hr.symm, ?_⟩
    rw [AttributeName.lower_text, AttributeName.text, ← hr, hlower]
  rw [Bool.eq_iff_iff, hasAnyAttribute, List.any_eq_true]
  simp only [List.any_eq_true, beq_iff_eq]
  constructor
  · rintro ⟨n, hn, hhas⟩
    obtain ⟨m, hm, hlower⟩ := hnames n hn
    rw [← hm, hasAttribute_text, List.any_eq_true] at hhas
    obtain ⟨attr, hattr, heq⟩ := hhas
    exact ⟨attr, hattr, n, hn, by rw [of_decide_eq_true heq, hlower]⟩
  · rintro ⟨attr, hattr, n, hn, heq⟩
    obtain ⟨m, hm, hlower⟩ := hnames n hn
    refine ⟨n, hn, ?_⟩
    rw [← hm, hasAttribute_text, List.any_eq_true]
    exact ⟨attr, hattr, by rw [heq, hlower, decide_eq_true rfl]⟩

theorem startsIn_element (a : Absence) (u : Tag) :
    (Pattern.tag [a.element]).startsIn u.text = u.isNamed a.element.toList := by
  rw [Pattern.startsIn_tag (by simp) (by simpa using a.isName_element), List.any_cons,
    List.any_nil, Bool.or_false]

/-- The rule takes and reports just the tags in which the attributes are absent. -/
theorem takes_opening (a : Absence) (tag : OpeningTag) :
    ((Pattern.tag [a.element]).startsIn tag.tag.text &&
        (!Text.isFiller tag.tag.text && !hasAnyAttribute tag.tag.text a.attributes)) =
      a.isIn tag := by
  have hfiller := tag.tag.isFiller_append []
  rw [List.append_nil] at hfiller
  rw [a.startsIn_element, hfiller, tag.text_tag, hasAnyAttribute_text, isIn,
    tag.name.isNamed_eq tag.word_tag a.isName_element (by cases a <;> decide)]
  simp [List.not_any_eq_all_not]

/-- A tag without a word behind its bracket has no name. -/
theorem startsIn_of_word_eq_nil (a : Absence) {u : Tag} (hu : u.word = []) :
    (Pattern.tag [a.element]).startsIn u.text = false := by
  rw [a.startsIn_element, Bool.eq_false_iff]
  intro hnamed
  have hlength := u.length_of_isNamed hnamed
  rw [hu] at hlength
  exact a.isName_element.1 (List.eq_nil_of_length_eq_zero hlength.symm)

end Absence

/-- The known rules can be loaded and a page can be evaluated. Each of the six rules then reports
just the opening tags of its element that have none of its attributes, in order. -/
theorem Evaluation.reports_absences (page : Page) (language : String) (path : Option String) :
    let s : Snapshot := { text := page.text, language, path }
    ∃ rules e, Catalog.load [] = .ok rules ∧
      Evaluation.ofEntries? (Region.blank s.text) s (rules.map .rule) = .ok e ∧
      ∀ a : Absence, (e.findings.filter (·.ruleId == a.ruleId)).map (·.span) =
        (page.openings a.isIn 0).map fun part => s.span part.1 part.2 := by
  intro s
  refine ⟨Guideline.rules, _, Catalog.load_nil, Evaluation.ofEntries?_blank s _, fun a => ?_⟩
  have hopens : Pattern.OpensTag (Pattern.tag [a.element]) _ :=
    Pattern.opensTag_tag (by simpa using a.isName_element)
  have hfilter := filter_spans (Pattern.tag [a.element]).startsIn
    (fun u => !Text.isFiller u && !hasAnyAttribute u a.attributes)
    (show page.layout.pieces = [] ++ page.layout.pieces from rfl)
  have hblank : Region.blank s.text = page.layout.text := by
    rw [page.text_layout]
    exact Region.blank_of_all_eq_nil page.regions_eq_nil
  rw [← a.rule_id, Evaluation.ofSnapshot, Evaluation.findings_filter Guideline.nodup_ids a.rule_mem,
    hblank, a.asksOf_rule.spans_eq, hopens.takesPieces.all_eq_spans]
  refine congrArg (List.map fun part : ℕ × ℕ => s.span part.1 part.2) (hfilter.trans ?_)
  refine @Page.spans_layout (fun u => _) a.isIn a.takes_opening (fun u hu => ?_) page 0
  rw [a.startsIn_of_word_eq_nil hu, Bool.false_and]

/-- Of two images, in either case, the one without an alternative text is reported, and so is the
bar of progress that has no name; a closing tag and a plain text are not. -/
theorem Evaluation.reports_absences_image_progress :
    let alt : WrittenAttribute :=
      ⟨⟨'A', "lt".toList, by decide, by decide⟩, some ⟨.double, [], by simp, by simp⟩⟩
    let id : WrittenAttribute := ⟨⟨'i', ['d'], by decide, by decide⟩, none⟩
    let image : ElementName := ⟨'I', "mg".toList, by decide, by decide, by decide⟩
    let progress : ElementName := ⟨'p', "rogress".toList, by decide, by decide, by decide⟩
    let page : Page := [.opening ⟨image, [alt], by simp [alt]⟩, .chars " alt > ".toList (by simp),
      .opening ⟨image, [id], by simp [id]⟩, .opening ⟨progress, [], by simp⟩, .closing progress]
    let s : Snapshot := { text := page.text }
    String.ofList s.text = "<Img Alt=\"\"> alt > <Img id><progress></progress>" ∧
      ∃ rules e, Catalog.load [] = .ok rules ∧
        Evaluation.ofEntries? (Region.blank s.text) s (rules.map .rule) = .ok e ∧
        (e.findings.filter (·.ruleId == "R1")).map (·.span) = [s.span 19 27] ∧
        (e.findings.filter (·.ruleId == "R83")).map (·.span) = [s.span 27 37] ∧
        e.findings.filter (·.ruleId == "R3") = [] := by
  intro alt id image progress page s
  obtain ⟨rules, e, hload, heval, hreports⟩ := reports_absences page s.language s.path
  have himage : page.openings Absence.imageText.isIn 0 = [(19, 27)] := by decide +kernel
  have hprogress : page.openings Absence.progressName.isIn 0 = [(27, 37)] := by decide +kernel
  have harea : page.openings Absence.areaText.isIn 0 = [] := by decide +kernel
  refine ⟨by decide +kernel, rules, e, hload, heval, ?_, ?_, ?_⟩
  · exact (hreports .imageText).trans (by rw [himage]; rfl)
  · exact (hreports .progressName).trans (by rw [hprogress]; rfl)
  · exact List.map_eq_nil_iff.mp ((hreports .areaText).trans (by rw [harea]; rfl))

end MarkupAudit
