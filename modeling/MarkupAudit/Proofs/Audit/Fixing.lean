import MarkupAudit.Proofs.Audit.Scanning
import MarkupAudit.Proofs.Edit.Commit
import MarkupAudit.Proofs.Edit.Resolution

/-! # Fixes are made whole or not at all

A fix either leaves all files as they are, or it commits the edits that mend the findings and
evaluates the new document with the same rules. The second happens just if the fix is not a trial,
the host is the file, and there are edits. -/

namespace MarkupAudit

theorem Snapshot.ofFile_eq_ok_iff {files : FileTree} {suffixes : List String} {path : String}
    {s : Snapshot} :
    ofFile files suffixes path = .ok s ↔ ∃ t, files.textAt? path = some t ∧
      s = { text := t, language := languageOf suffixes (Path.ofString path).suffix
            path := some (Path.ofString path).toString } := by
  unfold ofFile FileTree.textAt?
  simp only
  split
  · next hread => simp [hread]
  · next content hread =>
      split
      · next hdecode => simp [hread, hdecode]
      · next t hdecode =>
          rw [hread, Option.bind_some, hdecode]
          constructor
          · intro h
            exact ⟨t, rfl, (Except.ok.inj h).symm⟩
          · rintro ⟨u, hu, rfl⟩
            rw [Option.some.inj hu]

/-! ## Repairs that do not fail -/

/-- Where the rule offers a repair that can be asked, the repair gives an answer for every text. -/
def Rule.MendsAlways (r : Rule) : Prop :=
  ∀ mend, r.repair = some (.function mend) → ∀ t, ∃ m, mend t = .ok m

theorem EditBuilder.mendFinding_ne_fault {rules : List Rule} (hcomplete : ∀ r ∈ rules, r.Complete)
    (hmends : ∀ r ∈ rules, r.MendsAlways) (b : EditBuilder) (f : Finding) (fault : Fault) :
    mendFinding rules b f ≠ .error (.fault fault) := by
  unfold mendFinding
  split
  · simp
  · next r repair hfound =>
      obtain ⟨r', hr', hrepair'⟩ := Option.bind_eq_some_iff.mp hfound
      obtain ⟨repair', hrepair, hpair⟩ := Option.map_eq_some_iff.mp hrepair'
      obtain ⟨rfl, rfl⟩ := Prod.mk.inj hpair
      have hmem : r' ∈ rules := by simpa using List.mem_of_find?_eq_some hr'
      have husable := (hcomplete r' hmem).isUsable
      cases repair' with
      | notCallable => simp [hrepair, Catalog.isUsable] at husable
      | function mend =>
          obtain ⟨m, hm⟩ := hmends r' hmem mend hrepair (b.currentText f.span.start f.span.stop)
          simp only [Repair.mend, hm]
          split
          · simp_all
          · simp
          · split
            · simp
            · split <;> simp

theorem EditBuilder.mendAll_ne_fault {rules : List Rule} (hcomplete : ∀ r ∈ rules, r.Complete)
    (hmends : ∀ r ∈ rules, r.MendsAlways) (b : EditBuilder) (findings : List Finding)
    (fault : Fault) : mendAll rules b findings ≠ .error (.fault fault) := by
  induction findings generalizing b with
  | nil => simp [mendAll]
  | cons f findings ih =>
      rw [mendAll]
      cases hfirst : mendFinding rules b f with
      | ok next => exact ih next
      | error e =>
          intro h
          obtain rfl := Except.error.inj h
          exact mendFinding_ne_fault hcomplete hmends b f fault hfirst

theorem Batch.mending_ne_fault {rules : List Rule} (hcomplete : ∀ r ∈ rules, r.Complete)
    (hmends : ∀ r ∈ rules, r.MendsAlways) (s : Snapshot) (findings : List Finding)
    (fault : Fault) : mending s findings rules ≠ .error (.fault fault) := by
  unfold mending
  cases hall : EditBuilder.mendAll rules { snapshot := s } findings with
  | ok last => simp [Except.map]
  | error e =>
      intro h
      obtain rfl := Except.error.inj h
      exact EditBuilder.mendAll_ne_fault hcomplete hmends _ findings fault hall

theorem Guideline.mendsAlways {r : Rule} (hr : r ∈ rules) : r.MendsAlways := by
  intro mend hrepair t
  obtain ⟨u, hu⟩ := givesText_rules r hr (.function mend) hrepair t
  exact ⟨.text u, hu⟩

/-! ## What a fix does -/

namespace Fix

/-- The batch holds the edits that the fix of a document has to commit. -/
structure Due (dryRun : Bool) (host : Host) (s : Snapshot) (rules : List Rule) (batch : Batch) :
    Prop where
  notDryRun : dryRun = false
  host_eq : host = .file
  mending_eq : Batch.mending s (Evaluation.ofSnapshot s rules).findings rules = .ok batch
  edits_ne_nil : batch.edits ≠ []

variable (now : String) (files : FileTree) (config : Config) (projectRoot : Option Path)
  (dryRun : Bool) (host : Host) (path : String) {s : Snapshot} {rules : List Rule} {batch : Batch}

/-- Without edits to commit, nothing changes. There is no outcome only if a repair fails. -/
theorem withRules_of_not_due (h : ∀ batch, ¬ Due dryRun host s rules batch) :
    (withRules now files config projectRoot dryRun host path s rules).files = files ∧
      ((∃ o, (withRules now files config projectRoot dryRun host path s rules).result = .ok o ∧
          o.applied = false) ∨
        ∃ f, Batch.mending s (Evaluation.ofSnapshot s rules).findings rules = .error (.fault f) ∧
          (withRules now files config projectRoot dryRun host path s rules).result =
            .error (.fault f)) := by
  unfold withRules
  simp only
  split
  · next f hmending => exact ⟨rfl, .inr ⟨f, hmending, rfl⟩⟩
  · exact ⟨rfl, .inl ⟨_, rfl, rfl⟩⟩
  · next batch hmending =>
      split
      · exact ⟨rfl, .inl ⟨_, rfl, rfl⟩⟩
      · next hedits =>
          rw [Bool.or_eq_true, not_or, Bool.not_eq_true, List.isEmpty_iff] at hedits
          cases host with
          | file => exact absurd ⟨hedits.1, rfl, hmending, hedits.2⟩ (h batch)
          | refusing => exact ⟨rfl, .inl ⟨_, rfl, rfl⟩⟩

/-- The edits to commit are committed, and the new document is evaluated with the same rules. There
is no outcome only if the system does not take the path of the report. -/
theorem withRules_of_due (hs : Snapshot.ofFile files config.htmlSuffixes path = .ok s)
    (hhtml : s.isHtml) (hrules : Catalog.Resolved config.disabledRules rules)
    (hdue : Due dryRun host s rules batch) :
    ∃ updated, batch.apply s.text = .ok updated ∧
      ((withRules now files config projectRoot dryRun host path s rules).result = .ok
          { applied := true, editsCount := batch.edits.length
            findingsBefore := (Evaluation.ofSnapshot s rules).findings.length
            findingsAfter :=
              some (Evaluation.ofSnapshot { s with text := updated } rules).findings.length
            fixedRules := batch.ruleIds } ∨
        ¬Scan.Reportable config projectRoot ∧
          (withRules now files config projectRoot dryRun host path s rules).result =
            .error .nullInPath) ∧
      FileTree.TouchesOnly
        ((files.resolve (Path.ofString path)).parts :: Scan.reportPlaces files config projectRoot)
        files (withRules now files config projectRoot dryRun host path s rules).files ∧
      ((files.resolve (Path.ofString path)).parts ∉ Scan.reportPlaces files config projectRoot →
        (withRules now files config projectRoot dryRun host path s rules).files.read?
          (Path.ofString path) = some (FileTree.encode updated)) := by
  obtain ⟨hdry, rfl, hmending, hedits⟩ := hdue
  obtain ⟨t, ht, hst⟩ := Snapshot.ofFile_eq_ok_iff.mp hs
  have htext : files.textAt? path = some s.text := by rw [ht, hst]
  have hbuilt := Batch.builtFrom_mending hmending
  obtain ⟨pending, hspec⟩ := hbuilt.build_spec
  obtain ⟨after, hcommit, hupdated, hdocument⟩ := Batch.exists_commit hbuilt htext
  -- The rescan reads the new text and goes by the rules as they are.
  have hrescan : Snapshot.ofFile after config.htmlSuffixes path =
      .ok { s with text := Edit.substitution s.text 0 batch.edits } :=
    Snapshot.ofFile_eq_ok_iff.mpr ⟨_, hupdated, by rw [hst]⟩
  have hscan := Scan.file_eq_withRules now projectRoot hrescan hhtml hrules
  have hresult := Scan.result_withRules now after config projectRoot
    { s with text := Edit.substitution s.text 0 batch.edits } hrules.complete
  have hreport := Scan.touchesOnly_withRules now after config projectRoot
    { s with text := Edit.substitution s.text 0 batch.edits } rules
  have hplaces : Scan.reportPlaces after config projectRoot =
      Scan.reportPlaces files config projectRoot := by
    cases projectRoot with
    | none => rfl
    | some root => rw [Scan.reportPlaces, Scan.reportPlaces, hdocument.resolve_eq]
  rw [hplaces] at hreport
  rw [← hscan] at hresult hreport
  have hempty : batch.edits.isEmpty = false := by simpa using hedits
  have hfiles : (withRules now files config projectRoot dryRun .file path s rules).files =
      (Scan.file now after config (some (rules.map .rule)) projectRoot path).files := by
    simp only [withRules, hmending, hdry, hempty, committed, Host.commit, hcommit]
    cases (Scan.file now after config (some (rules.map .rule)) projectRoot path).result <;> rfl
  refine ⟨_, hspec.apply_eq, ?_, ?_, fun hplace => ?_⟩
  · rcases hresult with ⟨o, ho, hfindings, -⟩ | ⟨hnull, herror⟩
    · exact .inl (by
        simp [withRules, hmending, hdry, hempty, committed, Host.commit, hcommit, ho, hfindings])
    · exact .inr ⟨hnull, by
        simp [withRules, hmending, hdry, hempty, committed, Host.commit, hcommit, herror]⟩
  · rw [hfiles]
    exact hdocument.trans hreport
  · rw [hfiles]
    refine hreport.read?_eq ?_ (FileTree.textAt?_eq_some_iff.mp hupdated)
    rwa [hdocument.resolve_eq]

theorem file_eq_withRules {catalog : Option (List CatalogEntry)}
    (hs : Snapshot.ofFile files config.htmlSuffixes path = .ok s) (hhtml : s.isHtml)
    (hrules : Catalog.resolve config.disabledRules catalog = .ok rules) :
    (file now files config catalog projectRoot dryRun host path).files =
        (withRules now files config projectRoot dryRun host path s rules).files ∧
      (file now files config catalog projectRoot dryRun host path).result =
        (withRules now files config projectRoot dryRun host path s rules).result := by
  simp [file, hs, Snapshot.requireHtml, hhtml, hrules]

/-- Whatever the catalogue, as long as no repair fails, a fix of a document has an outcome, or it has
applied edits and the system does not take the path of the report. Unless an outcome says that the
edits were applied, no file has changed. If they were, then there were edits, the file holds the
document with all of them, provided that no report was written in its place, and the outcome counts
the findings in the old document and in the new one. -/
theorem made_whole_or_not_at_all (catalog : Option (List Rule))
    (hs : Snapshot.ofFile files config.htmlSuffixes path = .ok s) (hhtml : s.isHtml)
    (hmends : ∀ given, catalog = some given → ∀ r ∈ given, r.MendsAlways) :
    let run := file now files config (catalog.map (·.map .rule)) projectRoot dryRun host path
    let resolved := Catalog.resolve config.disabledRules (catalog.map (·.map .rule))
    (((∃ rules batch, resolved = .ok rules ∧ Due dryRun host s rules batch) →
        Scan.Reportable config projectRoot) → ∃ o, run.result = .ok o) ∧
    ∀ o, run.result = .ok o →
      (o.dryRun ∨ o.error ≠ none ∨ o.applied = false → run.files = files) ∧
      (o.applied ↔ ∃ rules batch, resolved = .ok rules ∧ Due dryRun host s rules batch) ∧
      (o.applied → ∃ rules batch updated, resolved = .ok rules ∧
        Batch.mending s (Evaluation.ofSnapshot s rules).findings rules = .ok batch ∧
        batch.apply s.text = .ok updated ∧
        o.editsCount = batch.edits.length ∧ 0 < o.editsCount ∧
        o.findingsBefore = (Evaluation.ofSnapshot s rules).findings.length ∧
        o.findingsAfter =
          some (Evaluation.ofSnapshot { s with text := updated } rules).findings.length ∧
        ((files.resolve (Path.ofString path)).parts ∉ Scan.reportPlaces files config projectRoot →
          run.files.read? (Path.ofString path) = some (FileTree.encode updated))) := by
  intro run resolved
  cases hresolved : resolved with
  | error e =>
      obtain ⟨message, hmessage⟩ := Catalog.exists_message_of_resolve hresolved
      have hrun : run.files = files ∧ run.result = .ok { error := some message } := by
        simp only [resolved] at hresolved
        simp [run, file, hs, Snapshot.requireHtml, hhtml, hresolved, hmessage]
      refine ⟨fun _ => ⟨_, hrun.2⟩, fun o ho => ?_⟩
      obtain rfl := Except.ok.inj (hrun.2.symm.trans ho)
      exact ⟨fun _ => hrun.1, by simp, by simp⟩
  | ok rules =>
      obtain ⟨hfiles, hresult⟩ : run.files = _ ∧ run.result = _ :=
        file_eq_withRules now files config projectRoot dryRun host path hs hhtml hresolved
      have hrules := Catalog.resolved_of_resolve hresolved
      rw [hfiles, hresult]
      by_cases hdue : ∃ batch, Due dryRun host s rules batch
      · obtain ⟨batch, hdue⟩ := hdue
        obtain ⟨updated, happly, hok, -, hread⟩ :=
          withRules_of_due now files config projectRoot dryRun host path hs hhtml hrules hdue
        rcases hok with hok | ⟨hnull, herror⟩
        · refine ⟨fun _ => ⟨_, hok⟩, fun o ho => ?_⟩
          obtain rfl := Except.ok.inj (hok.symm.trans ho)
          refine ⟨by simp, by simpa using ⟨batch, hdue⟩, fun _ => ?_⟩
          exact ⟨rules, batch, updated, rfl, hdue.mending_eq, happly, rfl,
            List.length_pos_iff.mpr hdue.edits_ne_nil, rfl, rfl, hread⟩
        · refine ⟨fun hreport => absurd (hreport ⟨rules, batch, rfl, hdue⟩) hnull, fun o ho => ?_⟩
          rw [herror] at ho
          cases ho
      · rw [not_exists] at hdue
        have hmends' : ∀ r ∈ rules, r.MendsAlways := by
          intro r hr
          have hmem := Catalog.mem_of_resolve hresolved r hr
          cases catalog with
          | none => exact Guideline.mendsAlways hmem
          | some given => exact hmends given rfl r hmem
        obtain ⟨hsame, ⟨o, ho, happlied⟩ | ⟨f, hfault, -⟩⟩ :=
          withRules_of_not_due now files config projectRoot dryRun host path hdue
        · refine ⟨fun _ => ⟨o, ho⟩, fun o' ho' => ?_⟩
          obtain rfl := Except.ok.inj (ho.symm.trans ho')
          refine ⟨fun _ => hsame, ?_, by simp [happlied]⟩
          simpa [happlied] using hdue
        · exact absurd hfault (Batch.mending_ne_fault hrules.complete hmends' s _ f)

/-- In an image without alternative text the fix puts in an empty one, and writes its report
elsewhere. -/
theorem made_whole_image :
    let t : Text := "<img>".toList
    let s : Snapshot := { text := t, path := some "a.html" }
    let files : FileTree :=
      ⟨["w"], [(["w"], .folder), (["w", "a.html"], .file (FileTree.encode t))]⟩
    let catalog := some [Guideline.TextAlternatives.image]
    let root : Path := ⟨"/", ["w"]⟩
    let run := file "" files {} (catalog.map (·.map .rule)) (some root) false .file "a.html"
    Snapshot.ofFile files [".html", ".htm", ".xhtml"] "a.html" = .ok s ∧ s.isHtml ∧
      (∀ given, catalog = some given → ∀ r ∈ given, r.MendsAlways) ∧
      (files.resolve (Path.ofString "a.html")).parts ∉ Scan.reportPlaces files {} (some root) ∧
      ∃ o, run.result = .ok o ∧ o.applied ∧ o.editsCount = 1 ∧ o.findingsBefore = 1 ∧
        o.findingsAfter = some 0 ∧ run.files.read? (Path.ofString "a.html") =
          some (FileTree.encode "<img alt=\"\">".toList) := by
  intro t s files catalog root run
  have hs : Snapshot.ofFile files [".html", ".htm", ".xhtml"] "a.html" = .ok s := by
    have htext : files.textAt? "a.html" = some t := by decide +kernel
    have hlanguage : Snapshot.languageOf [".html", ".htm", ".xhtml"]
        (Path.ofString "a.html").suffix = "html" := by decide +kernel
    have hpath : (Path.ofString "a.html").toString = "a.html" := by decide +kernel
    exact Snapshot.ofFile_eq_ok_iff.mpr ⟨t, htext, by rw [hlanguage, hpath]⟩
  have hhtml : s.isHtml := by decide +kernel
  have hmends : ∀ given, catalog = some given → ∀ r ∈ given, r.MendsAlways := by
    rintro given hgiven r hr mend hmend u
    obtain rfl := Option.some.inj hgiven
    obtain rfl := List.mem_singleton.mp hr
    obtain rfl := Repair.function.inj (Option.some.inj hmend)
    exact ⟨_, rfl⟩
  have hplace : (files.resolve (Path.ofString "a.html")).parts ∉
      Scan.reportPlaces files {} (some root) := by decide +kernel
  have hedits : (Batch.mending s
      (Evaluation.ofSnapshot s [Guideline.TextAlternatives.image]).findings
      [Guideline.TextAlternatives.image]).toOption.map (·.edits) =
        some [⟨0, 5, "<img alt=\"\">".toList, ["R1"]⟩] := by decide +kernel
  have hresolve : Catalog.resolve [] (catalog.map (·.map .rule)) =
      .ok [Guideline.TextAlternatives.image] := rfl
  refine ⟨hs, hhtml, hmends, hplace, ?_⟩
  have hreport : Scan.Reportable {} (some root) := by
    rintro _ ⟨⟩ -
    decide +kernel
  obtain ⟨houtcome, houtcomes⟩ := made_whole_or_not_at_all "" files {} (some root) false .file
    "a.html" catalog hs hhtml hmends
  obtain ⟨o, ho⟩ := houtcome fun _ => hreport
  obtain ⟨-, happlied, hspec⟩ := houtcomes o ho
  obtain ⟨batch, hbatch, hone⟩ := exists_ok_of_map_toOption hedits
  have happly : o.applied :=
    happlied.mpr ⟨_, batch, hresolve, rfl, rfl, hbatch, by simp [hone]⟩
  obtain ⟨rules, batch', updated, hrules, hbatch', hupdated, hcount, -, hbefore, hafter, hread⟩ :=
    hspec happly
  obtain rfl := Except.ok.inj (hresolve.symm.trans hrules)
  obtain rfl := Except.ok.inj (hbatch.symm.trans hbatch')
  have htext : updated = "<img alt=\"\">".toList := by
    unfold Batch.apply at hupdated
    split at hupdated
    · rw [← Except.ok.inj hupdated, hone]
      decide
    · cases hupdated
  subst htext
  refine ⟨o, ho, happly, by rw [hcount, hone]; rfl, ?_, ?_, hread hplace⟩
  · rw [hbefore]
    decide +kernel
  · rw [hafter]
    decide +kernel

end Fix

end MarkupAudit
