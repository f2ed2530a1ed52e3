import MarkupAudit.Audit.Scan
import MarkupAudit.Proofs.Catalog.Resolution
import MarkupAudit.Proofs.Files.Tree

/-! # What a scan changes and finds

A scan writes the report of the project and changes no other file. With rules that are resolved
already it finds what an evaluation finds, and fails only if the path of the report has a null
character. -/

namespace MarkupAudit

theorem Path.isNullFree_parent {p : Path} (h : p.isNullFree) : p.parent.isNullFree := by
  rw [isNullFree, List.all_eq_true] at h ⊢
  exact fun part hpart => h part (List.dropLast_subset _ hpart)

namespace Report

variable (files : FileTree) (record : Json.Value) (root : Path) (relative : String)

theorem touchesOnly_write :
    FileTree.TouchesOnly [(files.resolve (target root relative)).parts] files
      (write files record root relative).files := by
  unfold write
  simp only
  have hfolders : FileTree.TouchesOnly [] files
      (files.makeFolders (target root relative).parent).1 :=
    FileTree.touchesOnly_makeFoldersFrom files _ _
  generalize files.makeFolders (target root relative).parent = made at hfolders ⊢
  split
  · exact .refl _ files
  · split
    · exact hfolders.mono (by simp)
    · split
      · exact hfolders.mono (by simp)
      · -- Only what is written once the folders are there can touch a file.
        split
        · next after hwrite =>
            have htouches := FileTree.touchesOnly_write? hwrite
            rw [hfolders.resolve_eq] at htouches
            exact hfolders.trans htouches
        · exact hfolders.mono (by simp)

/-- At a path that the system takes, a report is written or refused. -/
theorem fate_write_ne (h : (target root relative).isNullFree) :
    (write files record root relative).fate ≠ .nullInPath := by
  have hparent : (target root relative).parent.isNullFree := Path.isNullFree_parent h
  unfold write
  simp only [hparent, h, Bool.not_true, Bool.false_eq_true, if_false]
  split
  · simp
  · split <;> simp

end Report

/-! ## Scans -/

namespace Scan

/-- Where a scan may write its report. -/
def reportPlaces (files : FileTree) (config : Config) (projectRoot : Option Path) :
    List Location :=
  match projectRoot with
  | some root =>
    if config.writeReport then [(files.resolve (Report.target root config.reportPath)).parts] else []
  | none => []

variable (now : String) (files : FileTree) (config : Config) (projectRoot : Option Path)

theorem touchesOnly_report? (record : Json.Value) :
    FileTree.TouchesOnly (reportPlaces files config projectRoot) files
      (((report? files config projectRoot record).map (·.files)).getD files) := by
  unfold report? reportPlaces
  cases projectRoot with
  | none => exact .refl _ files
  | some root =>
      cases hwrite : config.writeReport with
      | false => exact .refl _ files
      | true => exact Report.touchesOnly_write files record root config.reportPath

theorem touchesOnly_withRules (s : Snapshot) (rules : List Rule) :
    FileTree.TouchesOnly (reportPlaces files config projectRoot) files
      (withRules now files config projectRoot s rules).files := by
  unfold withRules
  simp only
  split
  · exact .refl _ files
  · exact touchesOnly_report? files config projectRoot _

theorem touchesOnly_snapshot (catalog : Option (List CatalogEntry)) (s : Snapshot) :
    FileTree.TouchesOnly (reportPlaces files config projectRoot) files
      (snapshot now files config catalog projectRoot s).files := by
  unfold snapshot
  split
  · exact .refl _ files
  · simp only
    split
    · split
      · exact .refl _ files
      · exact .refl _ files
    · exact touchesOnly_withRules now files config projectRoot s _

/-- If a report is to be written, the system takes its path. -/
def Reportable (config : Config) (projectRoot : Option Path) : Prop :=
  ∀ root ∈ projectRoot, config.writeReport → (Report.target root config.reportPath).isNullFree

theorem fate_report?_ne {record : Json.Value} {w : Report.Written}
    (h : Reportable config projectRoot) (hw : report? files config projectRoot record = some w) :
    w.fate ≠ .nullInPath := by
  unfold report? at hw
  cases projectRoot with
  | none => cases hw
  | some root =>
      simp only at hw
      split at hw
      · next hwrite =>
          obtain rfl := Option.some.inj hw
          exact Report.fate_write_ne files record root config.reportPath (h root rfl hwrite)
      · cases hw

/-- Findings that can be summarised are given, unless the system does not take the path of the
report. -/
theorem result_withRules_of_summary {s : Snapshot} {rules : List Rule} {summary : Summary}
    (h : Summary.ofFindings now (Evaluation.ofSnapshot s rules).findings = .ok summary) :
    (∃ report, (withRules now files config projectRoot s rules).result =
      .ok (ScanOutcome.ofEvaluation (Evaluation.ofSnapshot s rules) summary report)) ∨
    ¬Reportable config projectRoot ∧
      (withRules now files config projectRoot s rules).result = .error .nullInPath := by
  unfold withRules
  simp only [h]
  split
  · next hnull =>
      refine .inr ⟨fun hreport => ?_, rfl⟩
      obtain ⟨w, hw, hfate⟩ := (Option.any_eq_true _ _).mp hnull
      exact fate_report?_ne files config projectRoot hreport hw (by simpa using hfate)
  · exact .inl ⟨_, rfl⟩

/-- With complete rules, a scan gives what the evaluation finds, unless the system does not take the
path of the report. -/
theorem result_withRules (s : Snapshot) {rules : List Rule} (hrules : ∀ r ∈ rules, r.Complete) :
    (∃ o, (withRules now files config projectRoot s rules).result = .ok o ∧
      o.findings = (Evaluation.ofSnapshot s rules).findings ∧ o.status ≠ .failed) ∨
    ¬Reportable config projectRoot ∧
      (withRules now files config projectRoot s rules).result = .error .nullInPath := by
  obtain ⟨summary, hsummary⟩ := Summary.exists_ofFindings hrules now (Region.blank s.text) s
  refine (result_withRules_of_summary now files config projectRoot hsummary).imp_left ?_
  rintro ⟨report, hresult⟩
  refine ⟨_, hresult, rfl, ?_⟩
  unfold ScanOutcome.ofEvaluation
  simp only
  split <;> simp

variable {files config} {path : String} {s : Snapshot} {rules : List Rule}

theorem file_of_error {e : DocumentError} (catalog : Option (List CatalogEntry))
    (h : Snapshot.ofFile files config.htmlSuffixes path = .error e) :
    file now files config catalog projectRoot path = { files, result := .error (.document e) } := by
  rw [file, h]

theorem file_of_not_html (catalog : Option (List CatalogEntry))
    (hs : Snapshot.ofFile files config.htmlSuffixes path = .ok s) (hhtml : s.isHtml = false) :
    file now files config catalog projectRoot path =
      { files, result := .error (.document (.notHtml s.label)) } := by
  simp [file, hs, snapshot, Snapshot.requireHtml, hhtml]

/-- The rules that are resolved already are those that the scan evaluates. -/
theorem file_eq_withRules (hs : Snapshot.ofFile files config.htmlSuffixes path = .ok s)
    (hhtml : s.isHtml) (hrules : Catalog.Resolved config.disabledRules rules) :
    file now files config (some (rules.map .rule)) projectRoot path =
      withRules now files config projectRoot s rules := by
  simp [file, hs, snapshot, Snapshot.requireHtml, hhtml, hrules.resolve_eq, Catalog.resolveLog]

end Scan

end MarkupAudit
