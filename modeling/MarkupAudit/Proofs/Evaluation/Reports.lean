import MarkupAudit.Catalog
import MarkupAudit.Proofs.Pattern.Bounds
import MarkupAudit.Proofs.Region.Blanking
import MarkupAudit.Rule.Condition

/-! # What an evaluation reports

The findings of an evaluation are those of its rules in order. A rule whose condition is on the
matched characters alone reports the matches of its pattern that meet the condition, and what a
match shows is what stands between its offsets. -/

namespace MarkupAudit

/-! ## One rule -/

namespace Condition

variable {holds : Condition} {document : Text} {m : Match} {ms : List Match}

theorem select_cons_of_filler (h : Text.isFiller m.text) :
    holds.select document (m :: ms) = holds.select document ms := by
  rw [select, if_pos h]

theorem select_cons_of_error {fault : Fault} (hfiller : ¬Text.isFiller m.text)
    (h : holds m.text document = .error fault) :
    holds.select document (m :: ms) = .error fault := by
  rw [select, if_neg hfiller, h]
  rfl

theorem select_cons_of_ok {problem : Bool} (hfiller : ¬Text.isFiller m.text)
    (h : holds m.text document = .ok problem) :
    holds.select document (m :: ms) =
      (holds.select document ms).map fun rest => if problem then m :: rest else rest := by
  rw [select, if_neg hfiller, h]
  rfl

theorem select_sublist {reported : List Match} (h : holds.select document ms = .ok reported) :
    reported.Sublist ms := by
  induction ms generalizing reported with
  | nil =>
      obtain rfl := Except.ok.inj h
      exact .slnil
  | cons m ms ih =>
      by_cases hfiller : Text.isFiller m.text
      · rw [select_cons_of_filler hfiller] at h
        exact (ih h).cons m
      · cases hproblem : holds m.text document with
        | error fault =>
            rw [select_cons_of_error hfiller hproblem] at h
            cases h
        | ok problem =>
            rw [select_cons_of_ok hfiller hproblem] at h
            cases hrest : holds.select document ms with
            | error fault =>
                rw [hrest] at h
                cases h
            | ok rest =>
                rw [hrest] at h
                obtain rfl := Except.ok.inj h
                split
                · exact (ih hrest).cons_cons m
                · exact (ih hrest).cons m

theorem select_ofTag (holds : Text → Bool) (document : Text) (ms : List Match) :
    (Condition.ofTag holds).select document ms =
      .ok (ms.filter fun m => !Text.isFiller m.text && holds m.text) := by
  induction ms with
  | nil => rfl
  | cons m ms ih =>
      by_cases hfiller : Text.isFiller m.text
      · rw [select_cons_of_filler hfiller, ih]
        simp [hfiller]
      · rw [select_cons_of_ok hfiller rfl, ih]
        cases hholds : holds m.text <;> simp [hfiller, hholds, Except.map]

end Condition

/-- A rule that looks for a pattern and asks of the matched characters alone. -/
structure Rule.AsksOf (r : Rule) (p : Pattern) (holds : Text → Bool) : Prop where
  pattern_eq : r.pattern = some p
  applies_eq : r.applies = some (.ofTag holds)

namespace Rule.AsksOf

variable {r : Rule} {p : Pattern} {holds : Text → Bool} (h : r.AsksOf p holds) (t : Text)
  (s : Snapshot)

include h

theorem findings_eq :
    (Evaluation.ofRule t s r).findings =
      ((p.all t).filter fun m => !Text.isFiller m.text && holds m.text).map (r.finding s) := by
  have hreports : r.reports t =
      .ok ((p.all t).filter fun m => !Text.isFiller m.text && holds m.text) := by
    rw [reports, h.pattern_eq, condition, h.applies_eq]
    exact Condition.select_ofTag holds t (p.all t)
  rw [Evaluation.ofRule, findings, hreports]
  rfl

/-- The parts that the rule reports are those of the matches that meet the condition. -/
theorem spans_eq :
    (Evaluation.ofRule t s r).findings.map (·.span) =
      (((p.all t).map fun m => (m.start, m.stop)).filter fun part =>
        !Text.isFiller (Text.slice t part.1 part.2) && holds (Text.slice t part.1 part.2)).map
          fun part => s.span part.1 part.2 := by
  have hfilter : ((p.all t).filter fun m => !Text.isFiller m.text && holds m.text) =
      (p.all t).filter fun m => !Text.isFiller (Text.slice t m.start m.stop) &&
        holds (Text.slice t m.start m.stop) := by
    refine List.filter_congr fun m hm => ?_
    rw [(Pattern.inText_all hm).text_eq]
  rw [h.findings_eq, hfilter, List.map_map, List.filter_map, List.map_map]
  rfl

end Rule.AsksOf

namespace Evaluation

/-! ## All rules -/

theorem findings_cons (t : Text) (s : Snapshot) (r : Rule) (rules : List Rule) :
    (ofPrepared t s (r :: rules)).findings =
      (ofRule t s r).findings ++ (ofPrepared t s rules).findings := rfl

theorem mem_findings_iff {t : Text} {s : Snapshot} {rules : List Rule} {f : Finding} :
    f ∈ (ofPrepared t s rules).findings ↔ ∃ r ∈ rules, f ∈ (ofRule t s r).findings := by
  induction rules with
  | nil => simp [ofPrepared]
  | cons r rules ih => simp [findings_cons, ih]

/-- A finding is that of a match of the rule's pattern. -/
theorem exists_match_of_pattern {t : Text} {s : Snapshot} {r : Rule} {p : Pattern} {f : Finding}
    (hp : r.pattern = some p) (h : f ∈ (ofRule t s r).findings) :
    ∃ m ∈ p.all t, f = r.finding s m := by
  unfold ofRule at h
  split at h
  · next fs hfs =>
      rw [Rule.findings, Rule.reports, hp] at hfs
      cases hselect : r.condition.select t (p.all t) with
      | error e => simp [hselect, Except.map] at hfs
      | ok ms =>
          simp only [hselect] at hfs
          obtain rfl := Except.ok.inj hfs
          obtain ⟨m, hm, rfl⟩ := List.mem_map.mp h
          exact ⟨m, (Condition.select_sublist hselect).subset hm, rfl⟩
  · simp at h

theorem exists_match_of_mem {t : Text} {s : Snapshot} {r : Rule} {f : Finding}
    (h : f ∈ (ofRule t s r).findings) : ∃ p : Pattern, ∃ m ∈ p.all t, f = r.finding s m := by
  cases hp : r.pattern with
  | none => simp [ofRule, Rule.findings, Rule.reports, hp, Except.map] at h
  | some p => exact ⟨p, exists_match_of_pattern hp h⟩

theorem ruleId_of_mem {t : Text} {s : Snapshot} {r : Rule} {f : Finding}
    (h : f ∈ (ofRule t s r).findings) : f.ruleId = r.id := by
  obtain ⟨p, m, -, rfl⟩ := exists_match_of_mem h
  rfl

/-- Every finding is about a part of the text. -/
theorem span_of_mem {t : Text} {s : Snapshot} {rules : List Rule} {f : Finding}
    (h : f ∈ (ofPrepared t s rules).findings) :
    f.span.start ≤ f.span.stop ∧ f.span.stop ≤ t.length := by
  obtain ⟨r, -, hf⟩ := mem_findings_iff.mp h
  obtain ⟨p, m, hm, rfl⟩ := exists_match_of_mem hf
  exact ⟨(Pattern.inText_all hm).start_le, (Pattern.inText_all hm).stop_le⟩

/-- With distinct ids, the findings with the id of a rule are those of that rule. -/
theorem findings_filter {t : Text} {s : Snapshot} {rules : List Rule}
    (hids : (rules.map (·.id)).Nodup) {r : Rule} (hr : r ∈ rules) :
    (ofPrepared t s rules).findings.filter (·.ruleId == r.id) = (ofRule t s r).findings := by
  have hown : ∀ x : Rule, (ofRule t s x).findings.filter (·.ruleId == r.id) =
      if x.id = r.id then (ofRule t s x).findings else [] := by
    intro x
    split
    · next heq =>
        rw [List.filter_eq_self]
        intro f hf
        rw [ruleId_of_mem hf, heq]
        simp
    · next hne =>
        rw [List.filter_eq_nil_iff]
        intro f hf
        simpa [ruleId_of_mem hf] using hne
  induction rules with
  | nil => simp at hr
  | cons x rules ih =>
      rw [List.map_cons, List.nodup_cons] at hids
      rw [findings_cons, List.filter_append, hown]
      rcases List.mem_cons.mp hr with rfl | hmem
      · have hothers : (ofPrepared t s rules).findings.filter (·.ruleId == r.id) = [] := by
          rw [List.filter_eq_nil_iff]
          intro f hf
          obtain ⟨y, hy, hfy⟩ := mem_findings_iff.mp hf
          rw [ruleId_of_mem hfy, beq_iff_eq]
          intro heq
          exact hids.1 (heq ▸ List.mem_map_of_mem hy)
        rw [if_pos rfl, hothers, List.append_nil]
      · have hne : x.id ≠ r.id := fun heq => hids.1 (heq ▸ List.mem_map_of_mem hmem)
        rw [if_neg hne, List.nil_append, ih hids.2 hmem]

theorem rules?_map_rule (rules : List Rule) : Catalog.rules? (rules.map .rule) = some rules := by
  induction rules with
  | nil => rfl
  | cons r rules ih => rw [List.map_cons, Catalog.rules?, ih, Option.map_some]

/-- Rules can be evaluated on every text that is as long as the document. -/
theorem ofEntries?_of_length {t : Text} {s : Snapshot} (hlength : t.length = s.text.length)
    (rules : List Rule) : ofEntries? t s (rules.map .rule) = .ok (ofPrepared t s rules) := by
  rw [ofEntries?, if_neg (not_not.mpr hlength), rules?_map_rule]

/-- A document with its regions blanked can be evaluated. -/
theorem ofEntries?_blank (s : Snapshot) (rules : List Rule) :
    ofEntries? (Region.blank s.text) s (rules.map .rule) = .ok (ofSnapshot s rules) :=
  ofEntries?_of_length (Region.length_blank s.text) rules

end Evaluation

end MarkupAudit
