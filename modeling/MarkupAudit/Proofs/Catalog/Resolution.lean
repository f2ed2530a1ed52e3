import MarkupAudit.Audit.Run
import MarkupAudit.Proofs.Catalog.Merging
import MarkupAudit.Proofs.Evaluation.Reports
import MarkupAudit.Proofs.Report.Summary

/-! # Resolved catalogues

The rules that a catalogue is resolved to are complete and not disabled. So resolving them once more
changes nothing, and their findings can be summarised. -/

namespace MarkupAudit

namespace Text

theorem mem_foldl_distinct {names seen : List String} {name : String} :
    name ∈ names.foldl (fun seen name => if seen.contains name then seen else seen ++ [name]) seen ↔
      name ∈ seen ∨ name ∈ names := by
  induction names generalizing seen with
  | nil => simp
  | cons first names ih =>
      rw [List.foldl_cons, ih, List.mem_cons]
      split
      · next hseen =>
          have hfirst : first ∈ seen := by simpa using hseen
          constructor
          · exact Or.imp_right .inr
          · rintro (h | rfl | h)
            · exact .inl h
            · exact .inl hfirst
            · exact .inr h
      · simp [or_assoc]

@[simp] theorem mem_distinct {names : List String} {name : String} :
    name ∈ distinct names ↔ name ∈ names := by
  rw [distinct, mem_foldl_distinct]
  simp

end Text

namespace Catalog

/-! ## Resolution -/

/-- The ids of the known rules are written as disabled ids are. -/
theorem id_normal : ∀ r ∈ Guideline.rules,
    Text.upperString (Text.trimString r.id) = r.id ∧ r.id ≠ "" := by
  have hnormal : ∀ r ∈ Guideline.rules,
      Text.upper (Text.trim r.id.toList) = r.id.toList ∧ r.id ≠ "" :=
    Guideline.forall_rules (by decide +kernel)
  intro r hr
  obtain ⟨hsame, hne⟩ := hnormal r hr
  rw [Text.upperString, Text.trimString, String.toList_ofList, hsame, String.ofList_toList]
  exact ⟨rfl, hne⟩

theorem mem_disabledIds {disabled : List String} {r : Rule} (hr : r ∈ Guideline.rules)
    (h : r.id ∈ disabled) : r.id ∈ disabledIds disabled := by
  obtain ⟨hnormal, hne⟩ := id_normal r hr
  rw [disabledIds, Text.mem_distinct, List.mem_filter]
  refine ⟨List.mem_map.mpr ⟨r.id, h, hnormal⟩, ?_⟩
  simpa using hne

/-- The rules are those that a catalogue without flaws consists of, and none of them is disabled. -/
structure Resolved (disabled : List String) (rules : List Rule) : Prop where
  validate_eq : validate (rules.map .rule) = .ok rules
  enabled : ∀ r ∈ rules, r.id ∉ disabled

theorem load_eq_ok {disabled : List String} {rules : List Rule} (h : load disabled = .ok rules) :
    rules = Guideline.rules.filter (fun r => !(disabledIds disabled).contains r.id) ∧
      validate (rules.map .rule) = .ok rules := by
  simp only [load, known_eq] at h
  split at h
  · cases h
  · split at h
    · next checked hvalidate =>
        obtain rfl := Except.ok.inj h
        obtain ⟨rfl, -⟩ := validate_rules hvalidate
        exact ⟨rfl, hvalidate⟩
    · cases h

theorem resolve_some_eq_ok {disabled : List String} {entries : List CatalogEntry}
    {rules : List Rule} (h : resolve disabled (some entries) = .ok rules) :
    ∃ given, rules? entries = some given ∧
      rules = given.filter (fun r => !disabled.contains r.id) ∧
      validate (rules.map .rule) = .ok rules := by
  unfold resolve at h
  simp only at h
  split at h
  · cases h
  · next given hgiven =>
      split at h
      · next checked hvalidate =>
          obtain rfl := Except.ok.inj h
          obtain ⟨rfl, -⟩ := validate_rules hvalidate
          exact ⟨given, hgiven, rfl, hvalidate⟩
      · cases h

theorem resolved_of_load {disabled : List String} {rules : List Rule}
    (h : load disabled = .ok rules) : Resolved disabled rules := by
  obtain ⟨hrules, hvalidate⟩ := load_eq_ok h
  refine ⟨hvalidate, fun r hr hdisabled => ?_⟩
  rw [hrules] at hr
  obtain ⟨hknown, hkept⟩ := List.mem_filter.mp hr
  have hlisted := mem_disabledIds hknown hdisabled
  simp [hlisted] at hkept

theorem resolved_of_resolve {disabled : List String} {catalog : Option (List CatalogEntry)}
    {rules : List Rule} (h : resolve disabled catalog = .ok rules) : Resolved disabled rules := by
  cases catalog with
  | none => exact resolved_of_load h
  | some entries =>
      obtain ⟨given, -, hrules, hvalidate⟩ := resolve_some_eq_ok h
      refine ⟨hvalidate, fun r hr => ?_⟩
      rw [hrules] at hr
      simpa using (List.mem_filter.mp hr).2

/-- The rules are taken from the catalogue, or from the known ones if none is given. -/
theorem mem_of_resolve {disabled : List String} {catalog : Option (List Rule)} {rules : List Rule}
    (h : resolve disabled (catalog.map (·.map .rule)) = .ok rules) :
    ∀ r ∈ rules, r ∈ catalog.getD Guideline.rules := by
  cases catalog with
  | none =>
      obtain ⟨hrules, -⟩ := load_eq_ok h
      rw [hrules]
      exact fun r hr => (List.mem_filter.mp hr).1
  | some given =>
      obtain ⟨given', hgiven, hrules, -⟩ := resolve_some_eq_ok h
      rw [Evaluation.rules?_map_rule] at hgiven
      obtain rfl := Option.some.inj hgiven
      rw [hrules]
      exact fun r hr => (List.mem_filter.mp hr).1

/-- If there are no rules to use, it is said why. -/
theorem exists_message_of_resolve {disabled : List String} {catalog : Option (List Rule)}
    {e : ResolveError} (h : resolve disabled (catalog.map (·.map .rule)) = .error e) :
    ∃ message, e.message? = some message := by
  cases catalog with
  | none =>
      have hload : load disabled = .error e := h
      simp only [load, known_eq] at hload
      split at hload
      · obtain rfl := Except.error.inj hload
        exact ⟨_, rfl⟩
      · split at hload
        · cases hload
        · obtain rfl := Except.error.inj hload
          exact ⟨_, rfl⟩
  | some given =>
      rw [Option.map_some] at h
      unfold resolve at h
      simp only [Evaluation.rules?_map_rule] at h
      split at h
      · cases h
      · obtain rfl := Except.error.inj h
        exact ⟨_, rfl⟩

namespace Resolved

variable {disabled : List String} {rules : List Rule} (h : Resolved disabled rules)

include h

theorem complete : ∀ r ∈ rules, r.Complete :=
  (validate_rules h.validate_eq).2

/-- Resolving resolved rules changes nothing. -/
theorem resolve_eq : resolve disabled (some (rules.map .rule)) = .ok rules := by
  have hkept : rules.filter (fun r => !disabled.contains r.id) = rules := by
    rw [List.filter_eq_self]
    intro r hr
    simpa using h.enabled r hr
  rw [resolve, Evaluation.rules?_map_rule]
  simp only [hkept, h.validate_eq]

end Resolved

end Catalog

/-! ## Summaries of findings -/

theorem Level.mem_levelNames_of_named? {s : String} (h : (named? s).isSome) :
    Text.upperString (Text.trimString s) ∈ Summary.levelNames := by
  obtain ⟨level, hlevel⟩ := Option.isSome_iff_exists.mp h
  rw [← named?_eq_some_iff.mp hlevel]
  cases level <;> decide +kernel

namespace Summary

/-- The findings of complete rules can be summarised. -/
theorem exists_ofFindings {rules : List Rule} (h : ∀ r ∈ rules, r.Complete) (now : String)
    (t : Text) (s : Snapshot) :
    ∃ summary, ofFindings now (Evaluation.ofPrepared t s rules).findings = .ok summary := by
  refine exists_ofFindings_iff.mpr fun f hf => ?_
  obtain ⟨r, hr, hfound⟩ := Evaluation.mem_findings_iff.mp hf
  obtain ⟨p, m, -, rfl⟩ := Evaluation.exists_match_of_mem hfound
  exact Level.mem_levelNames_of_named? (h r hr).level

end Summary

end MarkupAudit
