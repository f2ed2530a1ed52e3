import MarkupAudit.Proofs.Audit.Scanning

/-! # How a scan ends

A scan fails exactly if there are no rules to use. Otherwise what it finds and says depends neither
on the project nor on what becomes of the report. There are two exceptions: an entry of the
catalogue that is not a rule, and a null character in the path of the report, end the scan without
an outcome. -/

namespace MarkupAudit

namespace Catalog

theorem rules?_eq_none_iff {entries : List CatalogEntry} :
    rules? entries = none ↔ ∃ v, .other v ∈ entries := by
  induction entries with
  | nil => simp [rules?]
  | cons entry entries ih =>
      cases entry with
      | rule r => simp [rules?, ih]
      | other v => simp [rules?]

theorem eq_map_of_rules? {entries : List CatalogEntry} {rules : List Rule}
    (h : rules? entries = some rules) : entries = rules.map .rule := by
  induction entries generalizing rules with
  | nil => rw [← Option.some.inj h, List.map_nil]
  | cons entry entries ih =>
      cases entry with
      | rule r =>
          obtain ⟨rest, hrest, rfl⟩ := Option.map_eq_some_iff.mp h
          rw [ih hrest, List.map_cons]
      | other v => cases h

/-- A catalogue without anything else consists of rules. -/
theorem exists_eq_map_rule {catalog : Option (List CatalogEntry)}
    (h : ∀ v, .other v ∉ catalog.getD []) :
    ∃ given : Option (List Rule), catalog = given.map (·.map .rule) := by
  cases catalog with
  | none => exact ⟨none, rfl⟩
  | some entries =>
      cases hrules : rules? entries with
      | none =>
          obtain ⟨v, hv⟩ := rules?_eq_none_iff.mp hrules
          exact absurd hv (h v)
      | some rules => exact ⟨some rules, congrArg some (eq_map_of_rules? hrules)⟩

theorem resolve_of_other {catalog : Option (List CatalogEntry)} {v : Json.Value}
    (h : .other v ∈ catalog.getD []) (disabled : List String) :
    resolve disabled catalog = .error .notRule := by
  cases catalog with
  | none => cases h
  | some entries =>
      have hnone : rules? entries = none := rules?_eq_none_iff.mpr ⟨v, h⟩
      rw [resolve, hnone]

end Catalog

/-- The time at which findings are summarised changes nothing else. -/
theorem Summary.exists_counts {now : String} {findings : List Finding} {summary : Summary}
    (h : ofFindings now findings = .ok summary) :
    ∃ byLevel, ∀ later, ofFindings later findings =
      .ok { total := findings.length, byLevel, timestamp := later } := by
  obtain ⟨hlevels, -, hget, -⟩ := ofFindings_eq_ok_iff.mp h
  exact ⟨summary.byLevel, fun later => ofFindings_eq_ok_iff.mpr ⟨hlevels, rfl, hget, rfl⟩⟩

theorem StatusMessage.kind_ofSummary (s : Summary) :
    (ofSummary s).kind = "success" ↔ s.total = 0 := by
  unfold ofSummary
  split
  · next h => simp [h]
  · next h => simp [h]

/-- What a scan tells of a document: all of its outcome that is not about the report or the time. -/
structure Verdict where
  findings : List Finding
  failedRules : List String
  total : ℕ
  byLevel : LevelCounts
  message : StatusMessage

/-- What is told of a document after an evaluation, given the numbers of findings by level. -/
def Verdict.ofEvaluation (e : Evaluation) (byLevel : LevelCounts) : Verdict where
  findings := e.findings
  failedRules := e.failed
  total := e.findings.length
  byLevel
  message := StatusMessage.ofSummary { total := e.findings.length, byLevel, timestamp := "" }

namespace ScanOutcome

/-- What an outcome tells of the document, if it has a summary. -/
def verdict? (o : ScanOutcome) : Option Verdict :=
  o.summary.map fun summary =>
    { findings := o.findings, failedRules := o.failedRules, total := summary.total,
      byLevel := summary.byLevel, message := o.message }

variable (e : Evaluation) (summary : Summary) (report : Option Report.Written)

theorem status_ofEvaluation : (ofEvaluation e summary report).status =
    if (ofEvaluation e summary report).failedRules = [] ∧
      (ofEvaluation e summary report).reportError = none then .success else .incomplete := by
  simp only [ofEvaluation, Evaluation.degraded, Bool.not_not, Bool.and_eq_true, List.isEmpty_iff,
    Option.isNone_iff_eq_none]

theorem reportPath_or_reportError : (ofEvaluation e summary report).reportPath = none ∨
    (ofEvaluation e summary report).reportError = none := by
  cases report with
  | none => exact .inl rfl
  | some w => cases hfate : w.fate <;> simp [ofEvaluation, Option.filter, hfate]

end ScanOutcome

namespace Scan

section Resolution

variable (now : String) (files : FileTree) (config : Config) (projectRoot : Option Path)
  {catalog : Option (List CatalogEntry)} {s : Snapshot} (hs : s.isHtml)

include hs

theorem snapshot_of_error {e : ResolveError} {message : String}
    (h : Catalog.resolve config.disabledRules catalog = .error e)
    (hmessage : e.message? = some message) :
    (snapshot now files config catalog projectRoot s).files = files ∧
      (snapshot now files config catalog projectRoot s).result =
        .ok (ScanOutcome.unavailable message) := by
  simp [snapshot, Snapshot.requireHtml, hs, h, hmessage]

theorem snapshot_of_notRule
    (h : Catalog.resolve config.disabledRules catalog = .error .notRule) :
    (snapshot now files config catalog projectRoot s).result = .error .notRule := by
  simp [snapshot, Snapshot.requireHtml, hs, h, ResolveError.message?]

theorem snapshot_of_ok {rules : List Rule}
    (h : Catalog.resolve config.disabledRules catalog = .ok rules) :
    (snapshot now files config catalog projectRoot s).result =
      (withRules now files config projectRoot s rules).result := by
  simp [snapshot, Snapshot.requireHtml, hs, h]

end Resolution

/-- Without a project, a scan has an outcome if the catalogue has nothing but rules, and it fails if
and only if there are no rules to use. The rules to use have no flaws, and if there are none it is
said why. Something else in the catalogue is not told as a flaw and ends the scan. -/
theorem snapshot_without_project (now : String) (files : FileTree) (config : Config)
    (catalog : Option (List CatalogEntry)) {s : Snapshot} (hs : s.isHtml) :
    let resolved := Catalog.resolve config.disabledRules catalog
    let run := snapshot now files config catalog none s
    ((∃ v, .other v ∈ catalog.getD []) →
      resolved = .error .notRule ∧ run.result = .error .notRule) ∧
    ((∀ v, .other v ∉ catalog.getD []) →
      ((∃ rules, resolved = .ok rules ∧ Catalog.Resolved config.disabledRules rules) ∨
        (∃ e, resolved = .error (.catalog e)) ∨ ∃ e, resolved = .error (.config e)) ∧
      ∃ o, run.result = .ok o ∧ (o.status = .failed ↔ ∃ e, resolved = .error e)) := by
  intro resolved run
  refine ⟨fun ⟨v, hv⟩ => ?_, fun hrules => ?_⟩
  · have hresolve := Catalog.resolve_of_other hv config.disabledRules
    exact ⟨hresolve, snapshot_of_notRule now files config none hs hresolve⟩
  · obtain ⟨given, rfl⟩ := Catalog.exists_eq_map_rule hrules
    cases hresolved : resolved with
    | ok rules =>
        have hcomplete := Catalog.resolved_of_resolve hresolved
        refine ⟨.inl ⟨rules, rfl, hcomplete⟩, ?_⟩
        rw [snapshot_of_ok now files config none hs hresolved]
        rcases result_withRules now files config none s hcomplete.complete with
          ⟨o, ho, -, hstatus⟩ | ⟨hnull, -⟩
        · exact ⟨o, ho, by simpa using hstatus⟩
        · -- No report is written without a project, so no path can be refused.
          exact absurd (by simp [Reportable]) hnull
    | error e =>
        obtain ⟨message, hmessage⟩ := Catalog.exists_message_of_resolve hresolved
        refine ⟨.inr ?_, ?_⟩
        · cases e with
          | catalog e => exact .inl ⟨e, rfl⟩
          | config e => exact .inr ⟨e, rfl⟩
          | notRule => cases hmessage
        · refine ⟨_, (snapshot_of_error now files config none hs hresolved hmessage).2, ?_⟩
          exact ⟨fun _ => ⟨e, rfl⟩, fun _ => rfl⟩

/-- A rule that is given twice is told as a flaw. -/
theorem snapshot_without_project_twice :
    let s : Snapshot := { text := "<img>".toList }
    let catalog : Option (List CatalogEntry) :=
      some [.rule Guideline.TextAlternatives.image, .rule Guideline.TextAlternatives.image]
    s.isHtml ∧ (∀ v, .other v ∉ catalog.getD []) ∧
      ∃ o, (snapshot "" (FileTree.empty []) {} catalog none s).result = .ok o ∧
        o.status = .failed := by
  intro s catalog
  have hs : s.isHtml := by decide +kernel
  have hrules : ∀ v, .other v ∉ catalog.getD [] := by simp [catalog]
  obtain ⟨-, o, ho, hstatus⟩ :=
    (snapshot_without_project "" (FileTree.empty []) {} catalog hs).2 hrules
  exact ⟨hs, hrules, o, ho, hstatus.mpr ⟨.catalog (.duplicateId "R1"), rfl⟩⟩

/-- A number that is given as a rule is not told as a flaw. -/
theorem snapshot_without_project_number :
    let s : Snapshot := { text := "<img>".toList }
    s.isHtml ∧ Catalog.resolve [] (some [.other (.int 5)]) = .error .notRule ∧
      (snapshot "" (FileTree.empty []) {} (some [.other (.int 5)]) none s).result =
        .error .notRule := by
  intro s
  have hs : s.isHtml := by decide +kernel
  exact ⟨hs, rfl, snapshot_of_notRule "" (FileTree.empty []) {} none hs rfl⟩

/-- With a catalogue of rules, or none, a scan fails if and only if there are no rules to use; then
it finds nothing, says why and leaves the files as they are. Otherwise it tells the same of the
document whatever the time, the files, the project and the other settings are. Only a null character
in the path of the report can end it without an outcome. -/
theorem snapshot_verdict (disabled : List String) (catalog : Option (List Rule)) {s : Snapshot}
    (hs : s.isHtml) :
    let entries := catalog.map (·.map CatalogEntry.rule)
    (∀ e, Catalog.resolve disabled entries = .error e → ∃ message, e.message? = some message ∧
      ∀ now files config projectRoot, config.disabledRules = disabled →
        let run := snapshot now files config entries projectRoot s
        run.files = files ∧
        ∃ o, run.result = .ok o ∧ o.status = .failed ∧ o.findings = [] ∧ o.summary = none ∧
          o.message.kind = "error" ∧ o.error = some message) ∧
    (∀ rules, Catalog.resolve disabled entries = .ok rules → ∃ byLevel,
      ∀ now files config projectRoot, config.disabledRules = disabled →
        let run := snapshot now files config entries projectRoot s
        ((∃ o, run.result = .ok o) ∨
          ¬Reportable config projectRoot ∧ run.result = .error .nullInPath) ∧
        ∀ o, run.result = .ok o →
          o.verdict? = some (Verdict.ofEvaluation (Evaluation.ofSnapshot s rules) byLevel) ∧
          o.status =
            (if o.failedRules = [] ∧ o.reportError = none then .success else .incomplete) ∧
          (o.reportPath = none ∨ o.reportError = none) ∧
          (o.message.kind = "success" ↔ o.findings = [])) := by
  intro entries
  refine ⟨fun e he => ?_, fun rules hresolve => ?_⟩
  · obtain ⟨message, hmessage⟩ := Catalog.exists_message_of_resolve he
    refine ⟨message, hmessage, ?_⟩
    rintro now files config projectRoot rfl
    obtain ⟨hfiles, hresult⟩ := snapshot_of_error now files config projectRoot hs he hmessage
    exact ⟨hfiles, _, hresult, rfl, rfl, rfl, rfl, rfl⟩
  · have hcomplete := (Catalog.resolved_of_resolve hresolve).complete
    -- All runs share the numbers of one summary; only its time is their own.
    obtain ⟨summary, hsummary⟩ := Summary.exists_ofFindings hcomplete "" (Region.blank s.text) s
    obtain ⟨byLevel, hcounts⟩ := Summary.exists_counts hsummary
    refine ⟨byLevel, ?_⟩
    rintro now files config projectRoot rfl
    simp only [snapshot_of_ok now files config projectRoot hs hresolve]
    rcases result_withRules_of_summary now files config projectRoot (hcounts now) with
      ⟨report, hresult⟩ | ⟨hnull, herror⟩
    · refine ⟨.inl ⟨_, hresult⟩, fun o ho => ?_⟩
      obtain rfl := Except.ok.inj (hresult.symm.trans ho)
      refine ⟨rfl, ScanOutcome.status_ofEvaluation _ _ _,
        ScanOutcome.reportPath_or_reportError _ _ _, ?_⟩
      exact (StatusMessage.kind_ofSummary _).trans List.length_eq_zero_iff
    · refine ⟨.inr ⟨hnull, herror⟩, fun o ho => ?_⟩
      rw [herror] at ho
      cases ho

/-- With a report and without one, the known rules find the same. -/
theorem snapshot_verdict_known :
    let s : Snapshot := { text := "<img>".toList }
    let root := Path.ofString "."
    s.isHtml ∧ Reportable {} (some root) ∧
      ∃ o o', (snapshot "" (FileTree.empty []) {} none (some root) s).result = .ok o ∧
        (snapshot "" (FileTree.empty []) { writeReport := false } none none s).result = .ok o' ∧
        o.verdict? = o'.verdict? := by
  intro s root
  have hs : s.isHtml := by decide +kernel
  have hreport : Reportable {} (some root) := by
    rintro _ ⟨⟩ -
    decide +kernel
  obtain ⟨byLevel, houtcomes⟩ := (snapshot_verdict [] none hs).2 Guideline.rules Catalog.load_nil
  obtain ⟨houtcome, hverdict⟩ := houtcomes "" (FileTree.empty []) {} (some root) rfl
  obtain ⟨houtcome', hverdict'⟩ :=
    houtcomes "" (FileTree.empty []) { writeReport := false } none rfl
  obtain ⟨o, ho⟩ := houtcome.resolve_right fun h => h.1 hreport
  obtain ⟨o', ho'⟩ := houtcome'.resolve_right fun h => h.1 (by simp [Reportable])
  exact ⟨hs, hreport, o, o', ho, ho', (hverdict o ho).1.trans (hverdict' o' ho').1.symm⟩

/-- A null character in the path of the report takes the findings away. -/
theorem snapshot_verdict_null :
    let s : Snapshot := { text := "<img>".toList }
    let config : Config := { reportPath := "a\x00/b" }
    s.isHtml ∧ Catalog.resolve config.disabledRules none = .ok Guideline.rules ∧
      (snapshot "" (FileTree.empty []) config none (some (Path.ofString ".")) s).result =
        .error .nullInPath := by
  intro s config
  have hs : s.isHtml := by decide +kernel
  have hresolve : Catalog.resolve config.disabledRules none = .ok Guideline.rules :=
    Catalog.load_nil
  have hfate : ∀ record, (Report.write (FileTree.empty []) record (Path.ofString ".")
      config.reportPath).fate = .nullInPath := by
    intro record
    have hnull :
        (Report.target (Path.ofString ".") config.reportPath).parent.isNullFree = false := by
      decide +kernel
    simp only [Report.write, hnull, Bool.not_false, if_true]
  obtain ⟨summary, hsummary⟩ := Summary.exists_ofFindings
    (Catalog.resolved_of_resolve hresolve).complete "" (Region.blank s.text) s
  refine ⟨hs, hresolve, ?_⟩
  rw [snapshot_of_ok "" (FileTree.empty []) config _ hs hresolve, withRules]
  simp only [Evaluation.ofSnapshot, hsummary]
  simp [report?, config, hfate]

end Scan

end MarkupAudit
