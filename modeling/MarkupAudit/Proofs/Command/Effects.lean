import MarkupAudit.Command.Execute
import MarkupAudit.Proofs.Audit.Fixing
import MarkupAudit.Proofs.Json.Writer

/-! # What commands change and print

A command changes no file but the report of the project and, if it applies fixes, the document. The
exit code of a scan tells whether the outcome that it printed has findings: they stand last in what
is printed, so the ends of the printed texts tell the outcomes apart. -/

namespace MarkupAudit

/-! ## How printed values end -/

namespace Json

theorem suffix_intercalate (separator : String) (parts : List String) (last : String) :
    last.toList <:+ (separator.intercalate (parts ++ [last])).toList := by
  by_cases hparts : parts = []
  · simp [hparts]
  · rw [String.intercalate_append_of_ne_nil hparts (by simp), String.intercalate_singleton,
      String.toList_append]
    exact List.suffix_append _ _

theorem Writer.members_append (level : ℕ) (ms ms' : List (String × Value)) :
    members level (ms ++ ms') = members level ms ++ members level ms' := by
  simp only [members_eq_map, List.map_append]

/-- An object ends with the value of its last member. -/
theorem suffix_write_object (ms : List (String × Value)) (key : String) (v : Value) :
    (Writer.value 1 v).toList ++ ['\n', '}'] <:+ (write (.object (ms ++ [(key, v)]))).toList := by
  have hmember : (Writer.value 1 v).toList <:+ (Writer.member 1 (key, v)).toList := by
    rw [Writer.member, String.toList_append]
    exact List.suffix_append _ _
  obtain ⟨front, hfront⟩ := hmember.trans
    (suffix_intercalate ("," ++ Writer.newLine 1) (Writer.members 1 ms) (Writer.member 1 (key, v)))
  have hmembers : Writer.members 1 (ms ++ [(key, v)]) =
      Writer.members 1 ms ++ [Writer.member 1 (key, v)] := Writer.members_append 1 ms _
  have hclose : (Writer.newLine 0).toList ++ "\x7d".toList = ['\n', '}'] := by decide
  rw [write, Writer.value, hmembers, Writer.block, if_neg (by simp), ← hclose]
  simp only [String.toList_append, ← hfront, Nat.zero_add]
  exact ⟨"\x7b".toList ++ (Writer.newLine 1).toList ++ front, by simp⟩

end Json

namespace Command

theorem suffix_printed (ms : List (String × Json.Value)) (key : String) {v : Json.Value}
    (ending : List Char) (h : ending <:+ (Json.Writer.value 1 v).toList) :
    ending ++ ['\n', '}', '\n'] <:+ (printed (.object (ms ++ [(key, v)]))).toList := by
  obtain ⟨front, hfront⟩ := h
  obtain ⟨before, hbefore⟩ := Json.suffix_write_object ms key v
  refine ⟨before ++ front, ?_⟩
  rw [printed, String.toList_append, ← hbefore, ← hfront]
  simp

theorem suffix_failure (message : String) :
    ['"', '\n', '}', '\n'] <:+ (failure message).output.toList := by
  refine suffix_printed [("status", .string "FAILED")] "error" ['"'] ?_
  rw [Json.Writer.value, Json.Writer.string, String.toList_append]
  exact List.suffix_append _ _

theorem suffix_items (vs : List Json.Value) :
    [if vs = [] then '[' else ' ', ']'] <:+ (Json.Writer.value 1 (.array vs)).toList := by
  rw [Json.Writer.value]
  cases vs with
  | nil => decide
  | cons v vs =>
      have hclose : [' ', ']'] <:+ (Json.Writer.newLine 1 ++ "]").toList := by decide
      rw [Json.Writer.items, Json.Writer.block, if_neg (by simp), if_neg (by simp),
        String.append_assoc, String.toList_append]
      exact List.suffix_append_of_suffix hclose

theorem suffix_outcome (o : ScanOutcome) :
    [if o.findings = [] then '[' else ' ', ']', '\n', '}', '\n'] <:+
      (printed o.toJson).toList := by
  have hitems := suffix_items (o.findings.map Finding.toJson)
  simp only [List.map_eq_nil_iff] at hitems
  exact suffix_printed [_, _, _, _, _, _, _] "findings" _ hitems

/-! ## Exit codes of scans -/

/-- The exit code tells whether the outcome that was printed has findings. -/
structure ScanExit (r : CommandResult) : Prop where
  one_iff : r.exitCode = 1 ↔ ∃ o : ScanOutcome, o.findings ≠ [] ∧ r.output = printed o.toJson
  zero_iff : r.exitCode = 0 ↔ ∃ o : ScanOutcome, o.findings = [] ∧ r.output = printed o.toJson

theorem eq_of_suffix {α : Type} {xs ys zs : List α} (hx : xs <:+ zs) (hy : ys <:+ zs)
    (h : xs.length = ys.length) : xs = ys :=
  (List.suffix_of_suffix_length_le hx hy h.le).eq_of_length h

theorem findings_eq_nil_iff_of_printed {o o' : ScanOutcome}
    (h : printed o.toJson = printed o'.toJson) : o.findings = [] ↔ o'.findings = [] := by
  have ho := suffix_outcome o
  rw [h] at ho
  have hend := eq_of_suffix ho (suffix_outcome o') rfl
  split_ifs at hend <;> simp_all

theorem ScanExit.of_outcome {o : ScanOutcome} (hstatus : o.status ≠ .failed) :
    ScanExit (scanResult o) := by
  have houtput : (scanResult o).output = printed o.toJson := rfl
  by_cases hfindings : o.findings = []
  · have hcode : (scanResult o).exitCode = 0 := by simp [scanResult, hstatus, hfindings]
    refine ⟨⟨by simp [hcode], ?_⟩, ⟨fun _ => ⟨o, hfindings, houtput⟩, fun _ => hcode⟩⟩
    rintro ⟨o', ho', hsame⟩
    exact absurd ((findings_eq_nil_iff_of_printed hsame).mp hfindings) ho'
  · have hcode : (scanResult o).exitCode = 1 := by simp [scanResult, hstatus, hfindings]
    refine ⟨⟨fun _ => ⟨o, hfindings, houtput⟩, fun _ => hcode⟩, ⟨by simp [hcode], ?_⟩⟩
    rintro ⟨o', ho', hsame⟩
    exact absurd ((findings_eq_nil_iff_of_printed hsame).mpr ho') hfindings

theorem ScanExit.of_no_outcome {r : CommandResult} (hcode : r.exitCode = 2)
    (houtput : ∀ o : ScanOutcome, r.output ≠ printed o.toJson) : ScanExit r where
  one_iff := ⟨by simp [hcode], fun ⟨o, _, ho⟩ => absurd ho (houtput o)⟩
  zero_iff := ⟨by simp [hcode], fun ⟨o, _, ho⟩ => absurd ho (houtput o)⟩

theorem ScanExit.of_failure (message : String) : ScanExit (failure message) := by
  refine .of_no_outcome rfl fun o h => ?_
  have hfailure := suffix_failure message
  rw [h] at hfailure
  have houtcome : [']', '\n', '}', '\n'] <:+ (printed o.toJson).toList :=
    (List.suffix_cons _ _).trans (suffix_outcome o)
  have hend := eq_of_suffix hfailure houtcome rfl
  simp at hend

theorem ScanExit.of_usageError (line : String) :
    ScanExit { exitCode := 2, usageError := some line } := by
  refine .of_no_outcome rfl fun o h => ?_
  have houtcome := suffix_outcome o
  rw [← h] at houtcome
  simp at houtcome

/-! ## Changed files -/

/-- The places at which the file may be different after a command with the result. -/
inductive MayChange (files : FileTree) (config : Config) (r : CommandResult) :
    Command → Location → Prop where
  | scanReport {path root : String} (hwrite : config.writeReport) :
      MayChange files config r (.scan path (some root) false)
        (files.resolve (Report.target (files.resolve (Path.ofString root)) config.reportPath)).parts
  | fixReport {path root : String} {o : FixOutcome} (hr : r = fixResult o) (happlied : o.applied)
      (hwrite : config.writeReport) :
      MayChange files config r (.fix path (some root) false)
        (files.resolve (Report.target (files.resolve (Path.ofString root)) config.reportPath)).parts
  | document {path root : String} :
      MayChange files config r (.fix path (some root) false)
        (files.resolve (Path.ofString path)).parts

/-- What a command may leave: changed files at the places allowed, none at all if it has nothing to
write, and for a scan an exit code that goes with what was printed. -/
structure Effects (files : FileTree) (config : Config) (command : Command) (r : CommandResult)
    (after : FileTree) : Prop where
  places : ∀ location, after.fileAt? location ≠ files.fileAt? location →
    MayChange files config r command location
  rules_unchanged : command = .rules → after = files
  fix_unchanged : ∀ path root dryRun, command = .fix path root dryRun →
    dryRun ∨ r.exitCode = 1 → after = files
  failed_unchanged : r.exitCode = 2 → after = files
  scanExit : ∀ path root noReport, command = .scan path root noReport → ScanExit r

variable (now : String) {files : FileTree} {config : Config} {command : Command}
  {r : CommandResult}

theorem Effects.of_unchanged
    (hscan : ∀ path root noReport, command = .scan path root noReport → ScanExit r) :
    Effects files config command r files where
  places _ h := absurd rfl h
  rules_unchanged _ := rfl
  fix_unchanged _ _ _ _ _ := rfl
  failed_unchanged _ := rfl
  scanExit := hscan

theorem mem_reportPlaces {root : Option Path} {location : Location}
    (h : location ∈ Scan.reportPlaces files config root) :
    ∃ p, root = some p ∧ config.writeReport ∧
      location = (files.resolve (Report.target p config.reportPath)).parts := by
  cases root with
  | none => simp [Scan.reportPlaces] at h
  | some p =>
      rw [Scan.reportPlaces] at h
      split at h
      · next hwrite => exact ⟨p, rfl, hwrite, List.mem_singleton.mp h⟩
      · simp at h

/-- A document that cannot be audited is reported, and nothing changes. -/
theorem effects_of_document_error {α : Type} {result : α → CommandResult} {e : DocumentError}
    (h : (ofRun result { files, result := .error (.document e) }).result = .ok r) :
    Effects files config command r
      (ofRun result { files, result := .error (.document e) }).files := by
  obtain rfl : failure e.message = r := Except.ok.inj h
  exact .of_unchanged fun _ _ _ _ => .of_failure e.message

/-- A scan that was carried out writes the report if it may, and exits with 0 or 1. -/
theorem Effects.of_scan {path root : String} {noReport : Bool} {o : ScanOutcome} {after : FileTree}
    (hstatus : o.status ≠ .failed)
    (htouches : FileTree.TouchesOnly (Scan.reportPlaces files config
      (if noReport then none else some (files.resolve (Path.ofString root)))) files after) :
    Effects files config (.scan path (some root) noReport) (scanResult o) after where
  places location hlocation := by
    have hmem := not_imp_comm.mp htouches.fileAt?_eq hlocation
    obtain ⟨p, hp, hwrite, rfl⟩ := mem_reportPlaces hmem
    cases noReport with
    | true => cases hp
    | false =>
        obtain rfl := Option.some.inj hp
        exact .scanReport hwrite
  rules_unchanged h := by cases h
  fix_unchanged _ _ _ h := by cases h
  failed_unchanged hcode := by
    simp only [scanResult, hstatus, if_false] at hcode
    split at hcode <;> cases hcode
  scanExit _ _ _ _ := .of_outcome hstatus

/-- A fix that was carried out writes the document and the report if it may, and exits with 0. -/
theorem Effects.of_fix {path root : String} {o : FixOutcome} {after : FileTree}
    (happlied : o.applied) (hcode : (fixResult o).exitCode = 0)
    (htouches : FileTree.TouchesOnly ((files.resolve (Path.ofString path)).parts ::
      Scan.reportPlaces files config (some (files.resolve (Path.ofString root)))) files after) :
    Effects files config (.fix path (some root) false) (fixResult o) after where
  places location hlocation := by
    have hmem := not_imp_comm.mp htouches.fileAt?_eq hlocation
    rcases List.mem_cons.mp hmem with rfl | hmem
    · exact .document
    · obtain ⟨p, hp, hwrite, rfl⟩ := mem_reportPlaces hmem
      obtain rfl := Option.some.inj hp
      exact .fixReport rfl happlied hwrite
  rules_unchanged h := by cases h
  fix_unchanged _ _ dryRun hcommand h := by
    obtain ⟨rfl, rfl, rfl⟩ := Command.fix.inj hcommand
    simp [hcode] at h
  failed_unchanged h := by simp [hcode] at h
  scanExit _ _ _ h := by cases h

theorem effects_scan {path root : String} {noReport : Bool} {known : List Rule}
    (hknown : Catalog.Resolved config.disabledRules known)
    (h : (withRules now files config known (.scan path (some root) noReport)).result = .ok r) :
    Effects files config (.scan path (some root) noReport) r
      (withRules now files config known (.scan path (some root) noReport)).files := by
  have hroot : (Path.ofString root).isNullFree := by
    by_contra hnull
    rw [Bool.not_eq_true] at hnull
    simp [withRules, hnull] at h
  simp only [withRules, hroot, Bool.not_true, Bool.false_eq_true, if_false] at h ⊢
  cases hs : Snapshot.ofFile files config.htmlSuffixes path with
  | error e =>
      rw [Scan.file_of_error now _ _ hs] at h ⊢
      exact effects_of_document_error h
  | ok s =>
      cases hhtml : s.isHtml with
      | false =>
          rw [Scan.file_of_not_html now _ _ hs hhtml] at h ⊢
          exact effects_of_document_error h
      | true =>
          rw [Scan.file_eq_withRules now _ hs hhtml hknown] at h ⊢
          rcases Scan.result_withRules now files config
            (if noReport then none else some (files.resolve (Path.ofString root))) s hknown.complete
            with ⟨o, ho, -, hstatus⟩ | ⟨-, herror⟩
          · obtain rfl : scanResult o = r := by simpa [ofRun, ho] using h
            exact .of_scan hstatus (Scan.touchesOnly_withRules now files config _ s known)
          · simp [ofRun, herror] at h

theorem effects_fix {path root : String} {dryRun : Bool} {known : List Rule}
    (hknown : Catalog.Resolved config.disabledRules known)
    (h : (withRules now files config known (.fix path (some root) dryRun)).result = .ok r) :
    Effects files config (.fix path (some root) dryRun) r
      (withRules now files config known (.fix path (some root) dryRun)).files := by
  have hroot : (Path.ofString root).isNullFree := by
    by_contra hnull
    rw [Bool.not_eq_true] at hnull
    simp [withRules, hnull] at h
  simp only [withRules, hroot, Bool.not_true, Bool.false_eq_true, if_false] at h ⊢
  cases hs : Snapshot.ofFile files config.htmlSuffixes path with
  | error e =>
      rw [Fix.file, hs] at h ⊢
      exact effects_of_document_error h
  | ok s =>
      cases hhtml : s.isHtml with
      | false =>
          have hrequire : s.requireHtml = .error (.notHtml s.label) := by
            simp [Snapshot.requireHtml, hhtml]
          rw [Fix.file, hs] at h ⊢
          simp only [hrequire] at h ⊢
          exact effects_of_document_error h
      | true =>
          obtain ⟨hfiles, hresult⟩ := Fix.file_eq_withRules now files config
            (some (files.resolve (Path.ofString root))) dryRun .file path hs hhtml hknown.resolve_eq
          simp only [ofRun] at h ⊢
          rw [hfiles]
          rw [hresult] at h
          by_cases hdue : ∃ batch, Fix.Due dryRun .file s known batch
          · obtain ⟨batch, hdue⟩ := hdue
            obtain ⟨updated, -, hok, htouches, -⟩ := Fix.withRules_of_due now files config
              (some (files.resolve (Path.ofString root))) dryRun .file path hs hhtml hknown hdue
            obtain rfl := hdue.notDryRun
            rcases hok with hok | ⟨-, herror⟩
            · simp only [hok, Except.ok.injEq] at h
              rw [← h]
              exact .of_fix rfl rfl htouches
            · simp [herror] at h
          · rw [not_exists] at hdue
            rw [(Fix.withRules_of_not_due now files config
              (some (files.resolve (Path.ofString root))) dryRun .file path hdue).1]
            exact .of_unchanged (by simp)

theorem effects_withRules {known : List Rule}
    (hknown : command ≠ .rules → Catalog.Resolved config.disabledRules known)
    (h : (withRules now files config known command).result = .ok r) :
    Effects files config command r (withRules now files config known command).files := by
  cases command with
  | scan path root noReport =>
      cases root with
      | none => cases h
      | some root => exact effects_scan now (hknown (by simp)) h
  | fix path root dryRun =>
      cases root with
      | none => cases h
      | some root => exact effects_fix now (hknown (by simp)) h
  | rules => exact .of_unchanged (by simp)

theorem effects_withConfig (h : (withConfig now files config command).result = .ok r) :
    Effects files config command r (withConfig now files config command).files := by
  unfold withConfig at h ⊢
  simp only at h ⊢
  split at h
  · next e hload =>
      obtain rfl := Except.ok.inj h
      exact .of_unchanged fun _ _ _ _ => .of_failure _
  · next known hload =>
      refine effects_withRules now (fun hne => ?_) h
      rw [if_neg hne] at hload
      exact Catalog.resolved_of_load hload

/-- Whatever the files and the arguments, a command that ends with an exit code has changed at most
the report of the project, if it may write one, and the document that it fixed. Lists of rules,
trials, fixes that failed and commands that could not be carried out leave all files as they are. A
scan exits with 1 if it printed findings, and with 0 if it printed an outcome without any. -/
theorem effects_of_execute {args : List String} (h : (execute now files args).result = .ok r) :
    (∀ location, (execute now files args).files.fileAt? location ≠ files.fileAt? location →
      ∃ invocation config, parse args = .ok (some invocation) ∧
        settings files invocation.config = .ok config ∧
        MayChange files config r invocation.command location) ∧
    (r.exitCode = 2 → (execute now files args).files = files) ∧
    ∀ invocation, parse args = .ok (some invocation) →
      (invocation.command = .rules → (execute now files args).files = files) ∧
      (∀ path root dryRun, invocation.command = .fix path root dryRun →
        dryRun ∨ r.exitCode = 1 → (execute now files args).files = files) ∧
      (∀ path root noReport, invocation.command = .scan path root noReport → ScanExit r) := by
  have hcases : (execute now files args).files = files ∧
        (∀ invocation, parse args = .ok (some invocation) → ScanExit r) ∨
      ∃ invocation config, parse args = .ok (some invocation) ∧
        settings files invocation.config = .ok config ∧
        Effects files config invocation.command r (execute now files args).files := by
    unfold execute at h ⊢
    split at h
    · next e hparse => exact .inl ⟨rfl, by simp [hparse]⟩
    · next hparse => exact .inl ⟨rfl, by simp [hparse]⟩
    · next invocation hparse =>
        split at h
        · next e hsettings =>
            obtain rfl := Except.ok.inj h
            exact .inl ⟨rfl, fun _ _ => .of_usageError _⟩
        · cases h
        · next config hsettings =>
            exact .inr ⟨invocation, config, hparse, hsettings, effects_withConfig now h⟩
  rcases hcases with ⟨hsame, hscan⟩ | ⟨invocation, config, hparse, hsettings, heffects⟩
  · refine ⟨fun _ hchanged => absurd (by rw [hsame]) hchanged, fun _ => hsame, ?_⟩
    exact fun invocation hparse =>
      ⟨fun _ => hsame, fun _ _ _ _ _ => hsame, fun _ _ _ _ => hscan invocation hparse⟩
  · refine ⟨fun location hchanged => ?_, heffects.failed_unchanged, fun other hother => ?_⟩
    · exact ⟨invocation, config, hparse, hsettings, heffects.places location hchanged⟩
    · obtain rfl := Option.some.inj (Except.ok.inj (hparse.symm.trans hother))
      exact ⟨heffects.rules_unchanged, heffects.fix_unchanged, heffects.scanExit⟩

/-- Arguments for which there are settings and rules are carried out with these. -/
theorem execute_eq_withRules {args : List String} {invocation : Invocation} {known : List Rule}
    (hparse : parse args = .ok (some invocation))
    (hsettings : settings files invocation.config = .ok config)
    (hload : Catalog.load (if invocation.command = .rules then [] else config.disabledRules) =
      .ok known) :
    (execute now files args).result = (withRules now files config known invocation.command).result ∧
      (execute now files args).files =
        (withRules now files config known invocation.command).files := by
  simp [execute, hparse, hsettings, withConfig, hload]

/-- A scan of a document with a finding writes the report and nothing else. -/
theorem effects_of_execute_scan :
    let files : FileTree :=
      ⟨["w"], [(["w"], .folder), (["w", "a.html"], .file (FileTree.encode "<img>".toList))]⟩
    let run := execute "" files ["scan", "a.html"]
    let report := ["w", "diagnostics", "semantic-checker-log.json"]
    ∃ r, run.result = .ok r ∧ r.exitCode = 1 ∧
      (∃ o : ScanOutcome, o.findings ≠ [] ∧ r.output = printed o.toJson) ∧
      files.fileAt? report = none ∧ (run.files.fileAt? report).isSome ∧
      ∀ location, run.files.fileAt? location ≠ files.fileAt? location → location = report := by
  intro files run report
  have hparse : parse ["scan", "a.html"] =
      .ok (some ⟨.scan "a.html" (some ".") false, .absent, none⟩) := by rfl
  have hsettings : settings files .absent = .ok {} := rfl
  obtain ⟨hrun, hfiles⟩ := execute_eq_withRules "" hparse hsettings Catalog.load_nil
  obtain ⟨hcode, hwritten⟩ : run.result.toOption.map (·.exitCode) = some 1 ∧
      (run.files.fileAt? report).isSome := by
    simp only [run, hrun, hfiles]
    rw [Guideline.rules_eq_insertionSort]
    decide +kernel
  have hplace : (files.resolve (Report.target (files.resolve (Path.ofString "."))
      ({} : Config).reportPath)).parts = report := by decide +kernel
  obtain ⟨r, hresult, hone⟩ := exists_ok_of_map_toOption hcode
  obtain ⟨hplaces, -, hothers⟩ := effects_of_execute "" hresult
  have hexit := (hothers _ hparse).2.2 _ _ _ rfl
  refine ⟨r, hresult, hone, hexit.one_iff.mp hone, rfl, hwritten, fun location hchanged => ?_⟩
  obtain ⟨invocation, config, hparse', hsettings, hmay⟩ := hplaces location hchanged
  obtain rfl := Option.some.inj (Except.ok.inj (hparse.symm.trans hparse'))
  obtain rfl : ({} : Config) = config := Except.ok.inj hsettings
  cases hmay
  exact hplace

end Command

end MarkupAudit
