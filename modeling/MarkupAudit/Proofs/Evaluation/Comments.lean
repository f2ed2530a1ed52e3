import MarkupAudit.Proofs.Evaluation.Reports
import MarkupAudit.Proofs.Region.Comments
import Mathlib.Data.List.Forall2

/-! # Comments have no part in an evaluation

Rules see the blanked text. The document itself gives a finding its positions, which depend on the
line breaks alone, and its evidence. So documents with one blanked text have the same findings but
for the evidence, and what stands in a comment has no part in them. -/

namespace MarkupAudit

namespace Evaluation

/-- Two evaluations list the same failed rules and the same findings, but for the evidence. -/
structure SameButEvidence (x y : Evaluation) : Prop where
  failed_eq : x.failed = y.failed
  findings : List.Forall₂ (fun f g => f = { g with evidence := f.evidence }) x.findings y.findings

theorem SameButEvidence.append {w x y z : Evaluation} (hwx : w.SameButEvidence x)
    (hyz : y.SameButEvidence z) : (w ++ y).SameButEvidence (x ++ z) where
  failed_eq := congrArg₂ (· ++ ·) hwx.failed_eq hyz.failed_eq
  findings := List.rel_append hwx.findings hyz.findings

section Lines

variable {t : Text} {s s' : Snapshot} (hlines : lineStarts s.text = lineStarts s'.text)

include hlines

theorem span_eq (start stop : ℕ) : s.span start stop = s'.span start stop := by
  simp only [Snapshot.span, Snapshot.position, hlines]

/-- A rule sees the prepared text only. -/
theorem ofRule_sameButEvidence (r : Rule) : (ofRule t s r).SameButEvidence (ofRule t s' r) := by
  unfold ofRule Rule.findings
  cases r.reports t with
  | error fault => exact ⟨rfl, .nil⟩
  | ok ms =>
      refine ⟨rfl, ?_⟩
      change List.Forall₂ _ (ms.map (r.finding s)) (ms.map (r.finding s'))
      rw [List.forall₂_map_left_iff, List.forall₂_map_right_iff, List.forall₂_same]
      intro m _
      simp only [Rule.finding, span_eq hlines]

theorem ofPrepared_sameButEvidence (rules : List Rule) :
    (ofPrepared t s rules).SameButEvidence (ofPrepared t s' rules) := by
  induction rules with
  | nil => exact ⟨rfl, .nil⟩
  | cons r rules ih => exact (ofRule_sameButEvidence hlines r).append ih

end Lines

/-- What stands in a comment has no part in an evaluation: with another inside that has the same
length and the same line breaks and does not end the comment, the regions and the blanked text are
the same, and every catalogue has the same findings and failed rules, but for the evidence. -/
theorem comment_ignored (before body other after : Text)
    (hregion : (before.length, before.length + body.length + 7) ∈
      Region.all (Region.withComment before body after))
    (hlength : other.length = body.length)
    (hbreaks : ∀ (i : ℕ) (c : Char), c = '\r' ∨ c = '\n' →
      (body[i]? = some c ↔ other[i]? = some c))
    (hkeeps : Region.KeepsOpen other) :
    let text := Region.withComment before body after
    let changed := Region.withComment before other after
    Region.all changed = Region.all text ∧ Region.blank changed = Region.blank text ∧
      ∀ (s : Snapshot) (rules : List Rule), ∃ e e',
        ofEntries? (Region.blank text) { s with text := text } (rules.map .rule) = .ok e ∧
        ofEntries? (Region.blank changed) { s with text := changed } (rules.map .rule) = .ok e' ∧
        e'.SameButEvidence e := by
  intro text changed
  have hblank : Region.blank changed = Region.blank text :=
    Region.blank_withComment_eq hregion hlength hkeeps hbreaks
  have hlines : lineStarts changed = lineStarts text := by
    rw [← Region.lineStarts_blank changed, hblank, Region.lineStarts_blank]
  refine ⟨Region.all_withComment_eq hregion hlength hkeeps, hblank, fun s rules => ?_⟩
  refine ⟨_, _, ofEntries?_blank { s with text := text } rules,
    ofEntries?_blank { s with text := changed } rules, ?_⟩
  unfold ofSnapshot
  rw [hblank]
  exact ofPrepared_sameButEvidence hlines rules

/-- An image and a paragraph in a comment are replaced by the opening tag of a script. -/
theorem comment_ignored_script :
    let text := Region.withComment "<p>".toList "<img><p>\n".toList "<img>".toList
    let changed := Region.withComment "<p>".toList "<script>\n".toList "<img>".toList
    Region.all text = [(3, 19)] ∧
      Region.all changed = Region.all text ∧ Region.blank changed = Region.blank text ∧
      ∀ (s : Snapshot) (rules : List Rule), ∃ e e',
        ofEntries? (Region.blank text) { s with text := text } (rules.map .rule) = .ok e ∧
        ofEntries? (Region.blank changed) { s with text := changed } (rules.map .rule) = .ok e' ∧
        e'.SameButEvidence e := by
  have hall : Region.all (Region.withComment "<p>".toList "<img><p>\n".toList "<img>".toList) =
      [(3, 19)] := by decide +kernel
  have hregion : ("<p>".toList.length, "<p>".toList.length + "<img><p>\n".toList.length + 7) ∈
      Region.all (Region.withComment "<p>".toList "<img><p>\n".toList "<img>".toList) := by
    rw [hall]
    decide
  have hkeeps : Region.KeepsOpen "<script>\n".toList :=
    ⟨by decide, by decide, by simp [List.infix_cons_iff]⟩
  have hsame : ∀ i < 9,
      ("<img><p>\n".toList[i]? = some '\r' ↔ "<script>\n".toList[i]? = some '\r') ∧
        ("<img><p>\n".toList[i]? = some '\n' ↔ "<script>\n".toList[i]? = some '\n') := by
    decide
  have hbreaks : ∀ (i : ℕ) (c : Char), c = '\r' ∨ c = '\n' →
      ("<img><p>\n".toList[i]? = some c ↔ "<script>\n".toList[i]? = some c) := by
    intro i c hc
    rcases Nat.lt_or_ge i 9 with hlt | hge
    · rcases hc with rfl | rfl
      · exact (hsame i hlt).1
      · exact (hsame i hlt).2
    · rw [List.getElem?_eq_none (by simpa using hge), List.getElem?_eq_none (by simpa using hge)]
  exact ⟨hall, comment_ignored "<p>".toList "<img><p>\n".toList "<script>\n".toList "<img>".toList
    hregion (by decide) hbreaks hkeeps⟩

end Evaluation

end MarkupAudit
