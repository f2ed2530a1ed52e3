import MarkupAudit.Command.Execute
import MarkupAudit.Proofs.Audit.Fixing
import MarkupAudit.Proofs.Text.Idempotence

/-! # Disabled rules

The known rules are those of the four groups, sorted by number from 1 to 93. They are used without
the disabled ones, unless a disabled id is not known or no rule is left. Rules that were resolved
once stay what they are when they are resolved again, so that scans and fixes go by them. -/

namespace MarkupAudit

namespace Text

theorem mem_insertName {name other : String} {names : List String} :
    other ∈ insertName name names ↔ other = name ∨ other ∈ names := by
  induction names with
  | nil => simp [insertName]
  | cons first names ih =>
      rw [insertName]
      split
      · simp
      · rw [List.mem_cons, ih, List.mem_cons, or_left_comm]

@[simp] theorem mem_sortNames {name : String} {names : List String} :
    name ∈ sortNames names ↔ name ∈ names := by
  induction names with
  | nil => simp [sortNames]
  | cons first names ih =>
      rw [sortNames, List.foldr_cons, ← sortNames, mem_insertName, ih, List.mem_cons]

end Text

namespace Catalog

/-- The ids that a list of disabled rules names: its entries that are not blank, trimmed and in
upper case. -/
def namedIds (disabled : List String) : List String :=
  (disabled.filter fun s => !Text.isFiller s.toList).map fun s =>
    Text.upperString (Text.trimString s)

variable {disabled : List String}

theorem mem_disabledIds_iff_named {id : String} :
    id ∈ disabledIds disabled ↔ id ∈ namedIds disabled := by
  simp only [disabledIds, namedIds, Text.mem_distinct, List.mem_filter, List.mem_map]
  constructor
  · rintro ⟨⟨s, hs, rfl⟩, hne⟩
    refine ⟨s, ⟨hs, ?_⟩, rfl⟩
    have hfiller := mt Text.upperString_trimString_eq_empty_iff.mpr (by simpa using hne)
    simpa using hfiller
  · rintro ⟨s, ⟨hs, hfiller⟩, rfl⟩
    refine ⟨⟨s, hs, rfl⟩, ?_⟩
    have hne := mt Text.upperString_trimString_eq_empty_iff.mp (by simpa using hfiller)
    simpa using hne

theorem mem_unknownIds_iff {id : String} :
    id ∈ unknownIds Guideline.rules disabled ↔ id ∈ namedIds disabled ∧ id ∉ Guideline.ids := by
  rw [unknownIds, Guideline.map_id_rules, List.mem_filter, mem_disabledIds_iff_named]
  simp

/-- The known rules that are left. -/
def enabled (disabled : List String) : List Rule :=
  Guideline.rules.filter fun r => r.id ∉ namedIds disabled

theorem filter_disabledIds :
    (Guideline.rules.filter fun r => !(disabledIds disabled).contains r.id) = enabled disabled := by
  refine List.filter_congr fun r _ => ?_
  simp [mem_disabledIds_iff_named]

/-- The rules that are left are those of the groups that are not disabled, by number. -/
theorem enabled_perm : (enabled disabled).Perm
    (Guideline.groups.flatten.filter fun r => r.id ∉ namedIds disabled) :=
  Guideline.rules_perm.filter _

theorem pairwise_enabled :
    (enabled disabled).Pairwise fun a b => number a < number b :=
  Guideline.pairwise_rules.filter _

theorem map_id_enabled :
    (enabled disabled).map (·.id) = Guideline.ids.filter fun id => id ∉ namedIds disabled := by
  rw [← Guideline.map_id_rules, List.filter_map]
  rfl

theorem enabled_eq_nil_iff :
    enabled disabled = [] ↔ ∀ id ∈ Guideline.ids, id ∈ namedIds disabled := by
  rw [← List.map_eq_nil_iff, map_id_enabled, List.filter_eq_nil_iff]
  simp

/-! ## Loading the known rules -/

theorem load_of_unknown (h : ∃ id ∈ namedIds disabled, id ∉ Guideline.ids) :
    ∃ unknown, load disabled = .error (.config (.unknownRules unknown)) ∧
      ∀ id, id ∈ unknown ↔ id ∈ namedIds disabled ∧ id ∉ Guideline.ids := by
  obtain ⟨id, hnamed, hid⟩ := h
  have hne : unknownIds Guideline.rules disabled ≠ [] :=
    List.ne_nil_of_mem (mem_unknownIds_iff.mpr ⟨hnamed, hid⟩)
  refine ⟨Text.sortNames (unknownIds Guideline.rules disabled), ?_, fun id => ?_⟩
  · simp [load, known_eq, hne]
  · rw [Text.mem_sortNames, mem_unknownIds_iff]

theorem load_of_named_known (h : ∀ id ∈ namedIds disabled, id ∈ Guideline.ids) :
    load disabled =
      if enabled disabled = [] then .error (.catalog .empty) else .ok (enabled disabled) := by
  have hknown : unknownIds Guideline.rules disabled = [] := by
    rw [List.eq_nil_iff_forall_not_mem]
    intro id hid
    obtain ⟨hnamed, hunknown⟩ := mem_unknownIds_iff.mp hid
    exact hunknown (h id hnamed)
  split
  · next hempty =>
      simp only [load, known_eq, hknown, filter_disabledIds, hempty]
      rfl
  · next hne =>
      rw [← filter_disabledIds] at hne ⊢
      exact load_of_known hknown hne

theorem exists_config_error_iff : (∃ e, load disabled = .error (.config e)) ↔
    ∃ id ∈ namedIds disabled, id ∉ Guideline.ids := by
  constructor
  · rintro ⟨e, he⟩
    by_contra hnone
    have hknown : ∀ id ∈ namedIds disabled, id ∈ Guideline.ids := by simpa using hnone
    rw [load_of_named_known hknown] at he
    split at he <;> cases he
  · intro h
    obtain ⟨unknown, hload, -⟩ := load_of_unknown h
    exact ⟨_, hload⟩

theorem exists_catalog_error_iff : (∃ e, load disabled = .error (.catalog e)) ↔
    ∀ id, id ∈ namedIds disabled ↔ id ∈ Guideline.ids := by
  constructor
  · rintro ⟨e, he⟩
    have hknown : ∀ id ∈ namedIds disabled, id ∈ Guideline.ids := by
      by_contra hsome
      have hunknown : ∃ id ∈ namedIds disabled, id ∉ Guideline.ids := by simpa using hsome
      obtain ⟨unknown, hload, -⟩ := load_of_unknown hunknown
      rw [he] at hload
      cases hload
    rw [load_of_named_known hknown] at he
    split at he
    · next hempty => exact fun id => ⟨hknown id, enabled_eq_nil_iff.mp hempty id⟩
    · cases he
  · intro h
    have hempty : enabled disabled = [] := enabled_eq_nil_iff.mpr fun id => (h id).mpr
    exact ⟨.empty, by rw [load_of_named_known fun id => (h id).mp, if_pos hempty]⟩

theorem load_of_some_enabled (hknown : ∀ id ∈ namedIds disabled, id ∈ Guideline.ids)
    (hleft : ∃ id ∈ Guideline.ids, id ∉ namedIds disabled) :
    load disabled = .ok (enabled disabled) := by
  obtain ⟨id, hid, hnamed⟩ := hleft
  have hne : enabled disabled ≠ [] := fun hempty => hnamed (enabled_eq_nil_iff.mp hempty id hid)
  rw [load_of_named_known hknown, if_neg hne]

end Catalog

/-! ## Rules that are resolved again -/

/-- A document that is audited with the settings, and with the rules as the catalogue, is audited
with these rules as they are: scanned, fixed, and scanned again after its fix. So it is by the
commands, which find the rules first. -/
structure Catalog.AuditsWith (config : Config) (rules : List Rule) : Prop where
  scan : ∀ {now files path s} (root : Option Path),
    Snapshot.ofFile files config.htmlSuffixes path = .ok s → s.isHtml →
    Scan.file now files config (some (rules.map .rule)) root path =
      Scan.withRules now files config root s rules
  fix : ∀ {now files path s} (root : Option Path) (dryRun : Bool) (host : Host),
    Snapshot.ofFile files config.htmlSuffixes path = .ok s → s.isHtml →
    Fix.file now files config (some (rules.map .rule)) root dryRun host path =
      Fix.withRules now files config root dryRun host path s rules
  rescan : ∀ {now files path after log s o} (root : Option Path) (host : Host) (batch : Batch)
      (findingsBefore : ℕ), host.commit batch files path = (some after, log) →
    Snapshot.ofFile after config.htmlSuffixes path = .ok s → s.isHtml →
    (Scan.withRules now after config root s rules).result = .ok o →
    (Fix.committed now files config root host path rules findingsBefore batch).result = .ok
      { applied := true, editsCount := batch.edits.length, findingsBefore
        findingsAfter := some o.findings.length, fixedRules := batch.ruleIds }
  scanCommand : ∀ {now files path s root} (noReport : Bool), (Path.ofString root).isNullFree →
    Snapshot.ofFile files config.htmlSuffixes path = .ok s → s.isHtml →
    (Command.withConfig now files config (.scan path (some root) noReport)).result =
      (Command.ofRun Command.scanResult (Scan.withRules now files config
        (if noReport then none else some (files.resolve (Path.ofString root))) s rules)).result
  fixCommand : ∀ {now files path s root} (dryRun : Bool), (Path.ofString root).isNullFree →
    Snapshot.ofFile files config.htmlSuffixes path = .ok s → s.isHtml →
    (Command.withConfig now files config (.fix path (some root) dryRun)).result =
      (Command.ofRun Command.fixResult (Fix.withRules now files config
        (some (files.resolve (Path.ofString root))) dryRun .file path s rules)).result

namespace Catalog

theorem auditsWith_of_load {config : Config} {rules : List Rule}
    (h : load config.disabledRules = .ok rules) : AuditsWith config rules := by
  have hresolved := resolved_of_load h
  have hscan : ∀ {now files path s} (root : Option Path),
      Snapshot.ofFile files config.htmlSuffixes path = .ok s → s.isHtml →
      Scan.file now files config (some (rules.map .rule)) root path =
        Scan.withRules now files config root s rules := by
    intro now files path s root hs hhtml
    exact Scan.file_eq_withRules now root hs hhtml hresolved
  have hfix : ∀ {now files path s} (root : Option Path) (dryRun : Bool) (host : Host),
      Snapshot.ofFile files config.htmlSuffixes path = .ok s → s.isHtml →
      Fix.file now files config (some (rules.map .rule)) root dryRun host path =
        Fix.withRules now files config root dryRun host path s rules := by
    intro now files path s root dryRun host hs hhtml
    simp [Fix.file, hs, Snapshot.requireHtml, hhtml, hresolved.resolve_eq, resolveLog]
  refine ⟨hscan, hfix, ?_, ?_, ?_⟩
  · intro now files path after log s o root host batch findingsBefore hcommit hs hhtml ho
    simp [Fix.committed, hcommit, hscan root hs hhtml, ho]
  · intro now files path s root noReport hroot hs hhtml
    simp [Command.withConfig, h, Command.withRules, hroot, hscan _ hs hhtml]
  · intro now files path s root dryRun hroot hs hhtml
    simp [Command.withConfig, h, Command.withRules, hroot, hfix _ _ _ hs hhtml]

/-- Rules are not loaded because of the settings exactly if an unknown id is disabled, which is then
told, and because of the catalogue exactly if all known ids are. Otherwise the rules of all groups
are loaded without the disabled ones, in the order of the numbers in their ids. Whatever the
settings, the rules that are resolved from them stay what they are when they are resolved again, and
documents are audited with them. -/
theorem disabled_rules_left_out (disabled : List String) :
    ((∃ e, load disabled = .error (.config e)) ↔
      ∃ id ∈ namedIds disabled, id ∉ Guideline.ids) ∧
    (∀ e, load disabled = .error (.config e) → ∃ unknown, e = .unknownRules unknown ∧
      ∀ id, id ∈ unknown ↔ id ∈ namedIds disabled ∧ id ∉ Guideline.ids) ∧
    ((∃ e, load disabled = .error (.catalog e)) ↔
      ∀ id, id ∈ namedIds disabled ↔ id ∈ Guideline.ids) ∧
    ((∀ id ∈ namedIds disabled, id ∈ Guideline.ids) →
      (∃ id ∈ Guideline.ids, id ∉ namedIds disabled) →
      ∃ rules, load disabled = .ok rules ∧ List.Sublist rules Guideline.rules ∧
        rules.Perm (Guideline.groups.flatten.filter fun r => r.id ∉ namedIds disabled) ∧
        rules.Pairwise (fun a b => number a < number b) ∧
        rules.map (·.id) = Guideline.ids.filter fun id => id ∉ namedIds disabled) ∧
    ∀ (config : Config) (rules : List Rule), resolve config.disabledRules none = .ok rules →
      resolve config.disabledRules (some (rules.map .rule)) = .ok rules ∧
        AuditsWith config rules := by
  refine ⟨exists_config_error_iff, fun e he => ?_, exists_catalog_error_iff, ?_, ?_⟩
  · obtain ⟨unknown, hload, hunknown⟩ := load_of_unknown (exists_config_error_iff.mp ⟨e, he⟩)
    rw [he] at hload
    cases hload
    exact ⟨unknown, rfl, hunknown⟩
  · intro hknown hleft
    exact ⟨_, load_of_some_enabled hknown hleft, List.filter_sublist, enabled_perm,
      pairwise_enabled, map_id_enabled⟩
  · intro config rules h
    exact ⟨(resolved_of_load h).resolve_eq, auditsWith_of_load h⟩

/-- The second rule is disabled by its id in lower case with white space around it. -/
theorem disabled_rules_left_out_second :
    let disabled := ["", " r2\t"]
    (∀ id ∈ namedIds disabled, id ∈ Guideline.ids) ∧
      (∃ id ∈ Guideline.ids, id ∉ namedIds disabled) ∧
      ∃ rules, load disabled = .ok rules ∧
        rules.map (·.id) = Guideline.ids.filter (fun id => id ≠ "R2") ∧
        resolve disabled (some (rules.map .rule)) = .ok rules := by
  intro disabled
  have hnamed : namedIds disabled = ["R2"] := by decide +kernel
  have hknown : ∀ id ∈ namedIds disabled, id ∈ Guideline.ids := by rw [hnamed]; decide +kernel
  have hleft : ∃ id ∈ Guideline.ids, id ∉ namedIds disabled := by
    rw [hnamed]
    exact ⟨"R1", by decide +kernel, by decide⟩
  obtain ⟨rules, hload, -, -, -, hids⟩ := (disabled_rules_left_out disabled).2.2.2.1 hknown hleft
  obtain ⟨hagain, -⟩ :=
    (disabled_rules_left_out disabled).2.2.2.2 { disabledRules := disabled } rules hload
  refine ⟨hknown, hleft, rules, hload, ?_, hagain⟩
  rw [hids, hnamed]
  simp

end Catalog

end MarkupAudit
