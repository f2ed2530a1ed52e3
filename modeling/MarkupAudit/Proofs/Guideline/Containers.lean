import MarkupAudit.Proofs.Evaluation.Faults
import MarkupAudit.Proofs.Markup.Enclosure

/-! # Rules about what an element contains

An image map is reported for its areas and a picture for its images. The rules about these elements
look for tags in the body of the element, and the rules about areas and images look for them in the
whole text. They agree, also where a tag reaches over the start or the end of the body. -/

namespace MarkupAudit

/-- The body of a matched element lies between its first `>` and its last `</`. -/
structure Match.HasBody (m : Match) (t : Text) (start stop : ℕ) : Prop where
  le : start ≤ stop
  lt_start : m.start < start
  bracket : t[start - 1]? = some '>'
  first : ∀ i, m.start ≤ i → i + 1 < start → t[i]? ≠ some '>'
  closes : t.standsAt "</".toList stop
  stop_le : stop + 2 ≤ m.stop
  last : ∀ i, stop < i → i + 2 ≤ m.stop → t.standsAt "</".toList i = false

namespace Pattern

open Cursor Markup

variable {name : String} (hname : IsName name) {t : Text}

include hname

/-- The body of an element is what its opening tag and its closing tag enclose. -/
theorem exists_body_of_mem_all {m : Match} (h : m ∈ (element name).all t) :
    ∃ start stop, m.HasBody t start stop ∧ elementBody m.text = Text.slice t start stop := by
  obtain ⟨start, stop, hstart, hnext⟩ := exists_tags_of_mem_element hname h
  obtain ⟨hlt, -, hbracket, hfirst⟩ := stop?_openingTags hstart
  obtain ⟨hle, hcloses, -⟩ := (closingTags t name.toList).next?_eq_some_iff.mp hnext
  -- so the `</` of the closing tag is the last one
  have hnone {i : ℕ} := opener_notMem_closingTag (i := i) hname.2 hcloses
  obtain ⟨hopens, -, bracket, hbehind, -, -, hstop⟩ := closingTagStop?_eq_some_iff.mp hcloses
  have hbody : m.HasBody t start stop :=
    { le := hle
      lt_start := by omega
      bracket := hbracket
      first := hfirst
      closes := hopens
      stop_le := by omega
      last := fun i hlo hhi => Bool.eq_false_iff.mpr fun hstands =>
        hnone hlo (by omega) (Text.getElem?_of_standsAt (k := 0) hstands (by decide)) }
  refine ⟨start, stop, hbody, ?_⟩
  rw [(inText_all h).text_eq, elementBody_slice hstart hname.2 hnext]

/-- The tags in the body of an element are those of the text that lie in it. -/
theorem exists_mem_all_elementBody {m : Match} (h : m ∈ (element name).all t) :
    ∃ start stop, m.HasBody t start stop ∧
      ∀ inner : String, IsName inner → ∀ holds : Text → Prop,
        (∃ i ∈ (tag [inner]).all (elementBody m.text), holds i.text) ↔
          ∃ i ∈ (tag [inner]).all t, (start ≤ i.start ∧ i.stop ≤ stop) ∧ holds i.text := by
  obtain ⟨start, stop, hbody, hslice⟩ := exists_body_of_mem_all hname h
  refine ⟨start, stop, hbody, fun inner hinner holds => ?_⟩
  obtain ⟨a, rfl⟩ : ∃ a, start = a + 1 := ⟨start - 1, by have := hbody.lt_start; omega⟩
  have hle : stop ≤ t.length := by
    have := hbody.stop_le
    have := (inText_all h).stop_le
    omega
  simp only [hslice, and_assoc]
  exact exists_mem_all_slice hinner hle hbody.bracket holds

omit hname in
theorem not_isFiller_of_mem_tag {m : Match} (h : m ∈ (tag [name]).all t) :
    ¬Text.isFiller m.text := by
  have hrun : ∀ here next, (tag [name]).run here next =
      (ones [Text.sameFold '<'] (word name ++ (wordEdge ++ restOfTag))).run here next :=
    fun _ _ => rfl
  exact not_isFiller_of_mem_all hrun h

omit hname in
theorem not_isFiller_of_mem_element {m : Match} (h : m ∈ (element name).all t) :
    ¬Text.isFiller m.text := by
  have hrun : ∀ here next, (element name).run here next =
      (ones [Text.sameFold '<'] (word name ++ (wordEdge ++ (restOfTag ++
        (shortest (fun _ => true) ++ closingTag (word name)))))).run here next := fun _ _ => rfl
  exact not_isFiller_of_mem_all hrun h

end Pattern

/-! ## Findings -/

namespace Evaluation

/-- A finding with the id is about just the part between the offsets. -/
def Reports (e : Evaluation) (id : String) (start stop : ℕ) : Prop :=
  ∃ f ∈ e.findings, f.ruleId = id ∧ f.span.start = start ∧ f.span.stop = stop

/-- A finding with the id is about a part that lies between the offsets. -/
def ReportsInside (e : Evaluation) (id : String) (start stop : ℕ) : Prop :=
  ∃ f ∈ e.findings, f.ruleId = id ∧ start ≤ f.span.start ∧ f.span.stop ≤ stop

end Evaluation

namespace Guideline

/-- A known rule that asks of the matched characters alone and never matches white space only. -/
structure Finds (r : Rule) (p : Pattern) (holds : Text → Bool) : Prop extends r.AsksOf p holds where
  known : r ∈ rules
  shown : ∀ {t : Text} {m : Match}, m ∈ p.all t → ¬Text.isFiller m.text

namespace Finds

open Evaluation

variable {r : Rule} {p : Pattern} {holds : Text → Bool} (h : Finds r p holds) {t : Text}
  {s : Snapshot}

include h

/-- The findings of the rule are those of the matches of which its condition holds. -/
theorem exists_finding_iff (within : ℕ → ℕ → Prop) :
    (∃ f ∈ (ofPrepared t s rules).findings,
        f.ruleId = r.id ∧ within f.span.start f.span.stop) ↔
      ∃ m ∈ p.all t, within m.start m.stop ∧ holds m.text := by
  have hfilter := findings_filter (t := t) (s := s) nodup_ids h.known
  rw [h.findings_eq] at hfilter
  constructor
  · rintro ⟨f, hf, hid, hwithin⟩
    have hmem : f ∈ (ofPrepared t s rules).findings.filter (·.ruleId == r.id) :=
      List.mem_filter.mpr ⟨hf, beq_iff_eq.mpr hid⟩
    rw [hfilter] at hmem
    obtain ⟨m, hm, rfl⟩ := List.mem_map.mp hmem
    obtain ⟨hm, hholds⟩ := List.mem_filter.mp hm
    rw [Bool.and_eq_true] at hholds
    exact ⟨m, hm, hwithin, hholds.2⟩
  · rintro ⟨m, hm, hwithin, hholds⟩
    have hshown : Text.isFiller m.text = false := Bool.eq_false_iff.mpr (h.shown hm)
    have hmem : r.finding s m ∈ (ofPrepared t s rules).findings.filter (·.ruleId == r.id) := by
      rw [hfilter]
      exact List.mem_map_of_mem (List.mem_filter.mpr ⟨hm, by rw [hshown, hholds]; rfl⟩)
    exact ⟨_, (List.mem_filter.mp hmem).1, rfl, hwithin⟩

theorem reports_iff {m : Match} (hm : m ∈ p.all t) :
    (ofPrepared t s rules).Reports r.id m.start m.stop ↔ holds m.text := by
  rw [Reports, h.exists_finding_iff fun start stop => start = m.start ∧ stop = m.stop]
  constructor
  · rintro ⟨m', hm', ⟨hstart, hstop⟩, hholds⟩
    rwa [(Pattern.inText_all hm').text_eq, hstart, hstop, ← (Pattern.inText_all hm).text_eq]
      at hholds
  · intro hholds
    exact ⟨m, hm, ⟨rfl, rfl⟩, hholds⟩

theorem reportsInside_iff {start stop : ℕ} :
    (ofPrepared t s rules).ReportsInside r.id start stop ↔
      ∃ m ∈ p.all t, (start ≤ m.start ∧ m.stop ≤ stop) ∧ holds m.text :=
  h.exists_finding_iff fun x y => start ≤ x ∧ y ≤ stop

end Finds

namespace TextAlternatives

theorem finds_image : Finds image (.tag ["img"]) Markup.lacksAlt :=
  { pattern_eq := rfl, applies_eq := rfl, known := by simp [mem_rules, perceivable]
    shown := Pattern.not_isFiller_of_mem_tag }

theorem finds_area : Finds area (.tag ["area"]) Markup.lacksAlt :=
  { pattern_eq := rfl, applies_eq := rfl, known := by simp [mem_rules, perceivable]
    shown := Pattern.not_isFiller_of_mem_tag }

theorem finds_imageMap : Finds imageMap (.element "map") hasAreaWithoutAlt :=
  { pattern_eq := rfl, applies_eq := rfl, known := by simp [mem_rules, perceivable]
    shown := Pattern.not_isFiller_of_mem_element }

theorem finds_picture : Finds picture (.element "picture") lacksImageWithAlt :=
  { pattern_eq := rfl, applies_eq := rfl, known := by simp [mem_rules, perceivable]
    shown := Pattern.not_isFiller_of_mem_element }

end TextAlternatives

end Guideline

namespace Evaluation

open Guideline.TextAlternatives

theorem reports_imageMap_iff {t : Text} {s : Snapshot} {m : Match}
    (hm : m ∈ (Pattern.element "map").all t) :
    ∃ start stop, m.HasBody t start stop ∧
      ((ofPrepared t s Guideline.rules).Reports imageMap.id m.start m.stop ↔
        (ofPrepared t s Guideline.rules).ReportsInside area.id start stop) := by
  obtain ⟨start, stop, hbody, htags⟩ := Pattern.exists_mem_all_elementBody (by decide) hm
  refine ⟨start, stop, hbody, ?_⟩
  rw [finds_imageMap.reports_iff hm, finds_area.reportsInside_iff, hasAreaWithoutAlt,
    List.any_eq_true]
  exact htags "area" (by decide) fun i => Markup.lacksAlt i

theorem reports_picture_iff {t : Text} {s : Snapshot} {m : Match}
    (hm : m ∈ (Pattern.element "picture").all t) :
    ∃ start stop, m.HasBody t start stop ∧
      ((ofPrepared t s Guideline.rules).Reports picture.id m.start m.stop ↔
        (¬∃ q ∈ image.pattern, ∃ i ∈ q.all t, start ≤ i.start ∧ i.stop ≤ stop) ∨
          (ofPrepared t s Guideline.rules).ReportsInside image.id start stop) := by
  obtain ⟨start, stop, hbody, htags⟩ := Pattern.exists_mem_all_elementBody (by decide) hm
  have hempty : ((Pattern.tag ["img"]).all (Markup.elementBody m.text)).isEmpty ↔
      ¬∃ q ∈ image.pattern, ∃ i ∈ q.all t, start ≤ i.start ∧ i.stop ≤ stop := by
    have hany := htags "img" (by decide) fun _ => True
    simp only [and_true] at hany
    rw [List.isEmpty_iff, List.eq_nil_iff_forall_not_mem, ← not_exists, hany]
    simp [image]
  refine ⟨start, stop, hbody, ?_⟩
  rw [finds_picture.reports_iff hm, finds_image.reportsInside_iff, lacksImageWithAlt,
    Bool.or_eq_true, List.any_eq_true]
  exact or_congr hempty (htags "img" (by decide) fun i => Markup.lacksAlt i)

/-- An image map is reported just if an area in its body is, and a picture just if no image lies in
its body or one that does is reported. -/
theorem containers_agree (t : Text) (s : Snapshot) (hlength : t.length = s.text.length) :
    ∃ known e, Catalog.load [] = .ok known ∧ ofEntries? t s (known.map .rule) = .ok e ∧
      (∀ p ∈ imageMap.pattern, ∀ m ∈ p.all t, ∃ start stop, m.HasBody t start stop ∧
        (e.Reports "R88" m.start m.stop ↔ e.ReportsInside "R3" start stop)) ∧
      ∀ p ∈ picture.pattern, ∀ m ∈ p.all t, ∃ start stop, m.HasBody t start stop ∧
        (e.Reports "R93" m.start m.stop ↔
          (¬∃ q ∈ image.pattern, ∃ i ∈ q.all t, start ≤ i.start ∧ i.stop ≤ stop) ∨
            e.ReportsInside "R1" start stop) := by
  refine ⟨_, _, Catalog.load_nil, ofEntries?_of_length hlength _, ?_, ?_⟩
  · intro p hp m hm
    obtain rfl := Option.some.inj hp
    exact reports_imageMap_iff hm
  · intro p hp m hm
    obtain rfl := Option.some.inj hp
    exact reports_picture_iff hm

/-- The last area reaches over the end of the map and the only image over the end of the picture.
Both are reported, but the map is not, and the picture has no image. -/
theorem containers_agree_cut_tags :
    let t := "<area <map><area alt=a><area </map><picture><img </picture>".toList
    let map : Match := ⟨6, 35, "<map><area alt=a><area </map>".toList, []⟩
    let drawing : Match := ⟨35, 59, "<picture><img </picture>".toList, []⟩
    ∃ e, ofEntries? t { text := t } (Guideline.rules.map .rule) = .ok e ∧
      (∃ start stop, map.HasBody t start stop ∧
        (e.Reports "R88" 6 35 ↔ e.ReportsInside "R3" start stop)) ∧
      (∃ start stop, drawing.HasBody t start stop ∧
        (e.Reports "R93" 35 59 ↔
          (¬∃ q ∈ image.pattern, ∃ i ∈ q.all t, start ≤ i.start ∧ i.stop ≤ stop) ∨
            e.ReportsInside "R1" start stop)) ∧
      e.Reports "R3" 23 35 ∧ ¬e.Reports "R88" 6 35 ∧ e.Reports "R1" 44 59 ∧
        e.Reports "R93" 35 59 := by
  intro t map drawing
  have hmap : map ∈ (Pattern.element "map").all t := by decide +kernel
  have hdrawing : drawing ∈ (Pattern.element "picture").all t := by decide +kernel
  have harea : (⟨23, 35, "<area </map>".toList, []⟩ : Match) ∈ (Pattern.tag ["area"]).all t := by
    decide +kernel
  have himage : (⟨44, 59, "<img </picture>".toList, []⟩ : Match) ∈
      (Pattern.tag ["img"]).all t := by
    decide +kernel
  obtain ⟨known, e, hknown, he, hmaps, hpictures⟩ := containers_agree t { text := t } rfl
  obtain rfl := Except.ok.inj (Catalog.load_nil.symm.trans hknown)
  refine ⟨e, he, hmaps _ rfl map hmap, hpictures _ rfl drawing hdrawing, ?_⟩
  obtain rfl : e = ofPrepared t { text := t } Guideline.rules :=
    Except.ok.inj (he.symm.trans (ofEntries?_of_length (s := { text := t }) rfl _))
  refine ⟨?_, ?_, ?_, ?_⟩
  · exact (finds_area.reports_iff harea).mpr (by decide +kernel)
  · exact fun hreports => absurd ((finds_imageMap.reports_iff hmap).mp hreports) (by decide +kernel)
  · exact (finds_image.reports_iff himage).mpr (by decide +kernel)
  · exact (finds_picture.reports_iff hdrawing).mpr (by decide +kernel)

end Evaluation

end MarkupAudit
