import MarkupAudit.Proofs.Document.Positions
import MarkupAudit.Proofs.Evaluation.Reports
import MarkupAudit.Proofs.Pattern.Order
import Mathlib.Data.List.Forall2

/-! # Findings in order, and the rules that fail

A rule is asked about the matches of its pattern that show something. If it has an answer for all of
them, it reports those of which its condition holds, from left to right; otherwise it reports none,
not even those before the match that it failed on, and is listed among the rules that failed. -/

namespace MarkupAudit

/-! ## The matches that a condition selects -/

namespace Condition

variable {holds : Condition} {document : Text} {m : Match} {ms : List Match}

/-- The condition has no answer for a match that shows something. -/
def FailsOn (holds : Condition) (document : Text) (m : Match) : Prop :=
  ¬Text.isFiller m.text ∧ ∃ fault, holds m.text document = .error fault

instance (holds : Condition) (document : Text) (m : Match) :
    Decidable (holds.FailsOn document m) :=
  have : Decidable (∃ fault, holds m.text document = .error fault) :=
    match holds m.text document with
    | .error fault => .isTrue ⟨fault, rfl⟩
    | .ok _ => .isFalse nofun
  inferInstanceAs (Decidable (_ ∧ _))

/-- Selecting fails just if there is no answer for some match. -/
theorem select_eq_error_iff :
    (∃ fault, holds.select document ms = .error fault) ↔ ∃ m ∈ ms, holds.FailsOn document m := by
  induction ms with
  | nil => simp [select]
  | cons m ms ih =>
      simp only [List.exists_mem_cons_iff, ← ih]
      by_cases hfiller : Text.isFiller m.text
      · simp [select_cons_of_filler hfiller, FailsOn, hfiller]
      · cases h : holds m.text document with
        | error fault => simp [select_cons_of_error hfiller h, FailsOn, hfiller, h]
        | ok problem =>
            rw [select_cons_of_ok hfiller h]
            cases holds.select document ms <;> simp [FailsOn, h, Except.map]

/-- If there is an answer for all matches, those are selected of which the condition holds. -/
theorem select_eq_filter (h : ∀ m ∈ ms, ¬holds.FailsOn document m) :
    holds.select document ms =
      .ok (ms.filter fun m => !Text.isFiller m.text && holds m.text document = .ok true) := by
  induction ms with
  | nil => rfl
  | cons m ms ih =>
      obtain ⟨hm, hrest⟩ := List.forall_mem_cons.mp h
      by_cases hfiller : Text.isFiller m.text
      · simp [select_cons_of_filler hfiller, ih hrest, hfiller]
      · cases hanswer : holds m.text document with
        | error fault => exact (hm ⟨hfiller, fault, hanswer⟩).elim
        | ok problem =>
            rw [select_cons_of_ok hfiller hanswer, ih hrest]
            cases problem <;> simp [hfiller, hanswer, Except.map]

end Condition

/-! ## What a rule reports -/

namespace Rule

/-- The rule has no answer for some match of its pattern that shows something. -/
def Fails (r : Rule) (document : Text) : Prop :=
  ∃ p ∈ r.pattern, ∃ m ∈ p.all document, r.condition.FailsOn document m

instance (r : Rule) (document : Text) : Decidable (r.Fails document) :=
  inferInstanceAs (Decidable (∃ p ∈ r.pattern, ∃ m ∈ p.all document, _))

/-- The parts that the rule reports: none if it fails, otherwise the matches that show something and
of which its condition holds. -/
def reportedParts (r : Rule) (document : Text) : List (ℕ × ℕ) :=
  if r.Fails document then []
  else ((r.pattern.toList.flatMap (·.all document)).filter fun m =>
    !Text.isFiller m.text && r.condition m.text document = .ok true).map fun m => (m.start, m.stop)

/-- The findings are those of the rule: what it reports, from left to right and without overlap, each
with the part of the document that it is about and the positions of its offsets. -/
structure Found (r : Rule) (prepared : Text) (s : Snapshot) (findings : List Finding) : Prop where
  parts_eq : findings.map (fun f => (f.span.start, f.span.stop)) = r.reportedParts prepared
  own : ∀ f ∈ findings, f.ruleId = r.id ∧ f.level = r.level ∧ f.message = r.message ∧
    f.recommendation = r.recommendation
  inOrder : findings.Pairwise fun f g =>
    f.span.start < g.span.start ∧ f.span.stop ≤ g.span.start
  within : ∀ f ∈ findings, f.span.start < f.span.stop ∧ f.span.stop ≤ s.text.length
  evidence_eq : ∀ f ∈ findings, f.evidence = Text.slice s.text f.span.start f.span.stop
  shown : ∀ f ∈ findings, ¬Text.isFiller (Text.slice prepared f.span.start f.span.stop)
  positions : ∀ f ∈ findings, s.position? f.span.start = .ok f.span.startPosition ∧
    s.position? f.span.stop = .ok f.span.stopPosition

end Rule

namespace Evaluation

variable {t : Text} {s : Snapshot} {r : Rule}

theorem ofRule_of_fails (h : r.Fails t) :
    ofRule t s r = { findings := [], failed := [r.id] } := by
  obtain ⟨p, hp, hfails⟩ := h
  obtain ⟨fault, hselect⟩ := Condition.select_eq_error_iff.mpr hfails
  have hreports : r.reports t = .error fault := by
    rw [Rule.reports, Option.mem_def.mp hp]
    exact hselect
  rw [ofRule, Rule.findings, hreports]
  rfl

/-- The matches that a rule reports when it does not fail. -/
theorem ofRule_of_not_fails {p : Pattern} (hp : r.pattern = some p) (h : ¬r.Fails t) :
    ofRule t s r =
      { findings := ((p.all t).filter fun m =>
          !Text.isFiller m.text && r.condition m.text t = .ok true).map (r.finding s)
        failed := [] } := by
  have hanswers : ∀ m ∈ p.all t, ¬r.condition.FailsOn t m := by
    intro m hm hfails
    exact h ⟨p, hp, m, hm, hfails⟩
  have hreports : r.reports t = .ok ((p.all t).filter fun m =>
      !Text.isFiller m.text && r.condition m.text t = .ok true) := by
    rw [Rule.reports, hp]
    exact Condition.select_eq_filter hanswers
  rw [ofRule, Rule.findings, hreports]
  rfl

theorem failed_ofRule (hpattern : r.pattern.isSome) :
    (ofRule t s r).failed = if r.Fails t then [r.id] else [] := by
  obtain ⟨p, hp⟩ := Option.isSome_iff_exists.mp hpattern
  by_cases h : r.Fails t
  · rw [ofRule_of_fails h, if_pos h]
  · rw [ofRule_of_not_fails hp h, if_neg h]

/-- The failed rules are those without an answer, in the order of the rules. -/
theorem failed_eq {rules : List Rule} (hpatterns : ∀ r ∈ rules, r.pattern.isSome) :
    (ofPrepared t s rules).failed = (rules.filter fun r => r.Fails t).map (·.id) := by
  induction rules with
  | nil => rfl
  | cons r rules ih =>
      obtain ⟨hr, hrest⟩ := List.forall_mem_cons.mp hpatterns
      change (ofRule t s r).failed ++ (ofPrepared t s rules).failed = _
      rw [failed_ofRule hr, ih hrest]
      by_cases h : r.Fails t <;> simp [h]

theorem findings_eq_flatten (t : Text) (s : Snapshot) (rules : List Rule) :
    (ofPrepared t s rules).findings = (rules.map fun r => (ofRule t s r).findings).flatten := by
  induction rules with
  | nil => rfl
  | cons r rules ih => simp [findings_cons, ih]

end Evaluation

/-! ## Order -/

/-- A match that shows something has characters. -/
theorem Match.InText.start_lt {m : Match} {t : Text} (h : m.InText t)
    (hshown : ¬Text.isFiller m.text) : m.start < m.stop := by
  by_contra hle
  apply hshown
  have hempty : m.text = [] := by
    rw [h.text_eq, Text.slice_natCast, List.drop_eq_nil_iff, List.length_take]
    omega
  rw [hempty]
  rfl

namespace Rule

variable {t : Text} {s : Snapshot} {r : Rule}

theorem found_nil (h : r.Fails t) : r.Found t s [] where
  parts_eq := by simp [reportedParts, h]
  own := by simp
  inOrder := .nil
  within := by simp
  evidence_eq := by simp
  shown := by simp
  positions := by simp

/-- The findings of some matches in order that all show something. -/
theorem found_of_matches {p : Pattern} (hlength : t.length = s.text.length) {ms : List Match}
    (hms : ms.Sublist (p.all t)) (hshown : ∀ m ∈ ms, ¬Text.isFiller m.text)
    (hparts : ms.map (fun m => (m.start, m.stop)) = r.reportedParts t) :
    r.Found t s (ms.map (r.finding s)) := by
  have hinText : ∀ m ∈ ms, m.InText t := fun m hm => Pattern.inText_all (hms.subset hm)
  have hwithin : ∀ m ∈ ms, m.start < m.stop ∧ m.stop ≤ s.text.length := by
    intro m hm
    exact ⟨(hinText m hm).start_lt (hshown m hm), hlength ▸ (hinText m hm).stop_le⟩
  have hapart : ms.Pairwise fun m n => m.start < n.start ∧ m.stop ≤ n.start := by
    refine ((p.all_pairwise t).sublist hms).imp_of_mem fun {m n} hm _ hle => ⟨?_, hle⟩
    exact (hwithin m hm).1.trans_le hle
  constructor
  · rw [List.map_map, ← hparts]
    rfl
  · exact List.forall_mem_map.mpr fun m _ => ⟨rfl, rfl, rfl, rfl⟩
  · exact List.pairwise_map.mpr hapart
  · exact List.forall_mem_map.mpr hwithin
  · exact List.forall_mem_map.mpr fun m _ => rfl
  · refine List.forall_mem_map.mpr fun m hm => ?_
    change ¬Text.isFiller (Text.slice t m.start m.stop)
    rw [← (hinText m hm).text_eq]
    exact hshown m hm
  · refine List.forall_mem_map.mpr fun m hm => ?_
    obtain ⟨hlt, hle⟩ := hwithin m hm
    exact ⟨Snapshot.position?_of_le (hlt.le.trans hle), Snapshot.position?_of_le hle⟩

theorem found_ofRule (hlength : t.length = s.text.length) (hpattern : r.pattern.isSome) :
    r.Found t s (Evaluation.ofRule t s r).findings := by
  obtain ⟨p, hp⟩ := Option.isSome_iff_exists.mp hpattern
  by_cases h : r.Fails t
  · rw [Evaluation.ofRule_of_fails h]
    exact found_nil h
  · rw [Evaluation.ofRule_of_not_fails hp h]
    refine found_of_matches hlength List.filter_sublist (fun m hm => ?_) ?_
    · have hkept := (List.mem_filter.mp hm).2
      rw [Bool.and_eq_true, Bool.not_eq_true'] at hkept
      simp [hkept.1]
    · simp [reportedParts, h, hp]

end Rule

namespace Evaluation

/-- An evaluation has a group of findings for each rule, in the order of the rules. The findings of a
group go from left to right and do not overlap. The rules without an answer for some match are
listed as failed, in the order of the rules, and have no findings. -/
theorem findings_in_order (prepared : Text) (s : Snapshot) (rules : List Rule)
    (hlength : prepared.length = s.text.length) (hpatterns : ∀ r ∈ rules, r.pattern.isSome) :
    ∃ e groups, ofEntries? prepared s (rules.map .rule) = .ok e ∧
      e.findings = groups.flatten ∧
      List.Forall₂ (fun r fs => r.Found prepared s fs ∧ (r.Fails prepared → fs = [])) rules groups ∧
      e.failed = (rules.filter fun r => r.Fails prepared).map (·.id) := by
  refine ⟨_, _, ofEntries?_of_length hlength rules, findings_eq_flatten prepared s rules, ?_,
    failed_eq hpatterns⟩
  rw [List.forall₂_map_right_iff, List.forall₂_same]
  intro r hr
  refine ⟨Rule.found_ofRule hlength (hpatterns r hr), fun hfails => ?_⟩
  rw [ofRule_of_fails hfails]

/-- A rule that reports the first tab index and has no answer for the second one. -/
theorem findings_in_order_late_fault :
    let text := "<a tabindex=1><a tabindex=²><img>".toList
    let rules := [Guideline.Navigation.focusOrder, Guideline.TextAlternatives.image]
    (∀ r ∈ rules, r.pattern.isSome) ∧ rules.map (fun r => decide (r.Fails text)) = [true, false] ∧
      ∃ e groups, ofEntries? text { text } (rules.map .rule) = .ok e ∧
        e.findings = groups.flatten ∧
        List.Forall₂ (fun r fs => r.Found text { text } fs ∧ (r.Fails text → fs = [])) rules
          groups ∧
        e.failed = (rules.filter fun r => r.Fails text).map (·.id) := by
  have hpatterns : ∀ r ∈ [Guideline.Navigation.focusOrder, Guideline.TextAlternatives.image],
      r.pattern.isSome := by
    simp [Guideline.Navigation.focusOrder, Guideline.TextAlternatives.image]
  exact ⟨hpatterns, by decide +kernel, findings_in_order _ _ _ rfl hpatterns⟩

end Evaluation

end MarkupAudit
