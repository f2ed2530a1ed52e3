import MarkupAudit.Proofs.Catalog.Resolution

/-! # Rules are independent

What one rule finds, and whether it fails, does not depend on the other rules. So an evaluation goes
through a catalogue part by part, and disabling rules takes away what these rules find or fail at and
nothing else. -/

namespace MarkupAudit

namespace Evaluation

variable (t : Text) (s : Snapshot)

/-! ## Catalogues in parts -/

theorem append_assoc (x y z : Evaluation) : x ++ y ++ z = x ++ (y ++ z) := by
  change Evaluation.mk _ _ = Evaluation.mk _ _
  simp only [mk.injEq]
  exact ⟨List.append_assoc _ _ _, List.append_assoc _ _ _⟩

theorem ofPrepared_append (c d : List Rule) :
    ofPrepared t s (c ++ d) = ofPrepared t s c ++ ofPrepared t s d := by
  induction c with
  | nil => rfl
  | cons r c ih => rw [List.cons_append, ofPrepared, ofPrepared, ih, append_assoc]

/-! ## Rules left out -/

/-- What the rules with some of the ids found and failed at. -/
def restrict (keep : String → Bool) (e : Evaluation) : Evaluation where
  findings := e.findings.filter fun f => keep f.ruleId
  failed := e.failed.filter keep

theorem restrict_append (keep : String → Bool) (x y : Evaluation) :
    (x ++ y).restrict keep = x.restrict keep ++ y.restrict keep := by
  change Evaluation.mk _ _ = Evaluation.mk _ _
  simp only [mk.injEq]
  exact ⟨List.filter_append _ _, List.filter_append _ _⟩

theorem failed_ofRule_subset (r : Rule) : ∀ id ∈ (ofRule t s r).failed, id = r.id := by
  unfold ofRule
  split <;> simp

/-- A rule finds and fails in its own name only. -/
theorem restrict_ofRule (keep : String → Bool) (r : Rule) :
    (ofRule t s r).restrict keep = if keep r.id then ofRule t s r else ⟨[], []⟩ := by
  have hfindings : ∀ f ∈ (ofRule t s r).findings, keep f.ruleId = keep r.id := by
    intro f hf
    rw [ruleId_of_mem hf]
  have hfailed : ∀ id ∈ (ofRule t s r).failed, keep id = keep r.id := by
    intro id hid
    rw [failed_ofRule_subset t s r id hid]
  unfold restrict
  by_cases hkeep : keep r.id
  · rw [if_pos hkeep, List.filter_eq_self.mpr fun f hf => (hfindings f hf).trans hkeep,
      List.filter_eq_self.mpr fun id hid => (hfailed id hid).trans hkeep]
  · rw [if_neg hkeep, List.filter_eq_nil_iff.mpr fun f hf => by rwa [hfindings f hf],
      List.filter_eq_nil_iff.mpr fun id hid => by rwa [hfailed id hid]]

/-- Leaving rules out leaves the findings and failures of the other rules as they are. -/
theorem ofPrepared_filter (keep : String → Bool) (rules : List Rule) :
    ofPrepared t s (rules.filter fun r => keep r.id) = (ofPrepared t s rules).restrict keep := by
  induction rules with
  | nil => rfl
  | cons r rules ih =>
      rw [ofPrepared, restrict_append, restrict_ofRule, ← ih, List.filter_cons]
      by_cases hkeep : keep r.id
      · rw [if_pos hkeep, if_pos hkeep, ofPrepared]
      · rw [if_neg hkeep, if_neg hkeep]
        rfl

end Evaluation

/-! ## Disabled rules -/

namespace Catalog

/-- A known rule is disabled by its id with any case and with white space around it. -/
theorem mem_disabledIds_iff {disabled : List String} {r : Rule} (hr : r ∈ Guideline.rules) :
    r.id ∈ disabledIds disabled ↔
      r.id ∈ disabled.map fun d => Text.upperString (Text.trimString d) := by
  have hne : r.id ≠ "" := (id_normal r hr).2
  rw [disabledIds, Text.mem_distinct, List.mem_filter, and_iff_left]
  simpa using hne

theorem load_eq_filter {disabled : List String} {rules : List Rule} (h : load disabled = .ok rules) :
    rules = Guideline.rules.filter fun r =>
      r.id ∉ disabled.map fun d => Text.upperString (Text.trimString d) := by
  rw [(load_eq_ok h).1]
  refine List.filter_congr fun r hr => ?_
  simp only [List.contains_eq_mem, mem_disabledIds_iff hr, decide_not]

end Catalog

namespace Evaluation

/-- Two catalogues find together what each of them finds, the first one first. The known rules
without the disabled ones find and fail at what all known rules do, without what the disabled ones
do, in the same order. -/
theorem rules_independent (prepared : Text) (s : Snapshot)
    (hlength : prepared.length = s.text.length) :
    (∀ c d : List Rule, ∃ x y,
      ofEntries? prepared s (c.map .rule) = .ok x ∧ ofEntries? prepared s (d.map .rule) = .ok y ∧
      ofEntries? prepared s ((c ++ d).map .rule) =
        .ok { findings := x.findings ++ y.findings, failed := x.failed ++ y.failed }) ∧
    ∀ (disabled : List String) (rules : List Rule), Catalog.load disabled = .ok rules →
      ∃ known full kept, Catalog.load [] = .ok known ∧
        ofEntries? prepared s (known.map .rule) = .ok full ∧
        ofEntries? prepared s (rules.map .rule) = .ok kept ∧
        kept.findings = full.findings.filter (fun f =>
          f.ruleId ∉ disabled.map fun d => Text.upperString (Text.trimString d)) ∧
        kept.failed = full.failed.filter (fun id =>
          id ∉ disabled.map fun d => Text.upperString (Text.trimString d)) := by
  constructor
  · intro c d
    refine ⟨_, _, ofEntries?_of_length hlength c, ofEntries?_of_length hlength d, ?_⟩
    rw [ofEntries?_of_length hlength, ofPrepared_append]
    rfl
  · intro disabled rules hload
    refine ⟨_, _, _, Catalog.load_nil, ofEntries?_of_length hlength _,
      ofEntries?_of_length hlength _, ?_⟩
    have hkept := ofPrepared_filter prepared s
      (fun id => id ∉ disabled.map fun d => Text.upperString (Text.trimString d)) Guideline.rules
    rw [← Catalog.load_eq_filter hload] at hkept
    rw [hkept]
    exact ⟨rfl, rfl⟩

/-- The rule about images is disabled by its id in lower case. -/
theorem rules_independent_without_images :
    let text := "<img><area>".toList
    ∃ rules, Catalog.load [" r1", ""] = .ok rules ∧
      ∃ known full kept, Catalog.load [] = .ok known ∧
        ofEntries? text { text } (known.map .rule) = .ok full ∧
        ofEntries? text { text } (rules.map .rule) = .ok kept ∧
        kept.findings = full.findings.filter (fun f =>
          f.ruleId ∉ [" r1", ""].map fun d => Text.upperString (Text.trimString d)) ∧
        kept.failed = full.failed.filter (fun id =>
          id ∉ [" r1", ""].map fun d => Text.upperString (Text.trimString d)) := by
  have hids : Catalog.disabledIds [" r1", ""] = ["R1"] := by decide +kernel
  have hknown : Catalog.unknownIds Guideline.rules [" r1", ""] = [] := by
    rw [Catalog.unknownIds, Guideline.map_id_rules]
    decide +kernel
  have hleft : Guideline.TextAlternatives.imageInput ∈
      Guideline.rules.filter fun r => !(Catalog.disabledIds [" r1", ""]).contains r.id := by
    rw [hids, List.mem_filter]
    exact ⟨by simp [Guideline.mem_rules, Guideline.perceivable], by decide⟩
  have hload := Catalog.load_of_known hknown (List.ne_nil_of_mem hleft)
  exact ⟨_, hload, (rules_independent _ { text := "<img><area>".toList } rfl).2 _ _ hload⟩

end Evaluation

end MarkupAudit
