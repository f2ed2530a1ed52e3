import MarkupAudit.Proofs.Audit.Fixing
import MarkupAudit.Proofs.Text.Lower

/-! # Which files are audited

The document in a file is audited if the suffix of the file is one of those in the settings. A
suffix that is not among them stands for the kind of document that it names, and one of these kinds
is audited as well: that of the suffix `.html`. -/

namespace MarkupAudit

/-! ## Suffixes -/

/-- A suffix is empty, or a dot with something behind it that has no dots. -/
theorem Path.suffixOf_eq (name : Text) :
    suffixOf name = [] ∨ ∃ r, suffixOf name = '.' :: r ∧ '.' ∉ r := by
  unfold suffixOf
  simp only
  split
  · exact .inl rfl
  · refine .inr ⟨_, rfl, ?_⟩
    rw [List.mem_reverse]
    intro hdot
    simpa using List.mem_takeWhile_imp hdot

/-- A suffix without its dots has the lower case `html` just if the suffix has the lower case
`.html`. -/
theorem Text.lower_bareSuffix_eq_iff (name : Text) :
    lower ((lower (Path.suffixOf name)).dropWhile (· == '.')) = "html".toList ↔
      lower (Path.suffixOf name) = ".html".toList := by
  rcases Path.suffixOf_eq name with hnone | ⟨r, hsuffix, hr⟩
  · rw [hnone]
    decide
  · have hlow : lower ('.' :: r) = '.' :: lowerFrom ['.'] r := lowerFrom_cons_of_plain (by decide) ..
    have hdots : '.' ∉ lowerFrom ['.'] r := fun hdot => hr (dot_mem_of_lowerFrom hdot)
    have hbare : ('.' :: lowerFrom ['.'] r).dropWhile (· == '.') = lowerFrom ['.'] r := by
      rw [List.dropWhile_cons_of_pos (by decide), List.dropWhile_eq_self_iff]
      intro hpos hdot
      have hmem := List.getElem_mem hpos
      rw [beq_iff_eq.mp hdot] at hmem
      exact hdots hmem
    have hall : "html".toList.all fun x => decide (x.toNat < 128 ∧ x ∉ ['\x00', 'i', 'k']) := by
      decide
    have hhtml : ∀ x ∈ "html".toList, x.toNat < 128 ∧ x ∉ ['\x00', 'i', 'k'] :=
      fun x hx => of_decide_eq_true (List.all_eq_true.mp hall x hx)
    rw [hsuffix, hlow, hbare]
    constructor
    · intro h
      rw [eq_of_lower_eq (fun x hx => toLower_of_mem_lowerFrom hx) hhtml h]
      rfl
    · intro h
      rw [(List.cons.inj h).2]
      decide

namespace Snapshot

/-- The kind that a suffix stands for is the one that is audited. -/
theorem lowerString_languageOf_eq_iff (htmlSuffixes : List String) (p : Path) :
    Text.lowerString (languageOf htmlSuffixes p.suffix) = "html" ↔
      Text.lowerString p.suffix ∈ htmlSuffixes.map Text.lowerString ∨
        Text.lowerString p.suffix = ".html" := by
  have hstring : ∀ (t : Text) (s : String), String.ofList t = s ↔ t = s.toList := by
    intro t s
    rw [← String.toList_inj, String.toList_ofList]
  unfold languageOf
  simp only [List.contains_iff_mem]
  split
  · next hmem => exact ⟨fun _ => .inl hmem, fun _ => by decide +kernel⟩
  · next hmem =>
      rw [or_iff_right hmem]
      have hsuffix : p.suffix.toList = Path.suffixOf p.name.toList := String.toList_ofList
      simp only [Text.lowerString, String.toList_ofList, hsuffix, hstring]
      rw [← Text.lower_bareSuffix_eq_iff]
      generalize (Text.lower (Path.suffixOf p.name.toList)).dropWhile (· == '.') = bare
      cases bare with
      | nil => decide +kernel
      | cons c r => simp [String.toList_ofList]

end Snapshot

/-! ## Scans and fixes -/

section Audits

variable (now : String) {files : FileTree} {config : Config}
  (catalog : Option (List CatalogEntry)) (projectRoot : Option Path) {path : String} {s : Snapshot}
  (hs : Snapshot.ofFile files config.htmlSuffixes path = .ok s)

include hs

/-- A scan refuses the document in a readable file just if it is of another kind. -/
theorem Scan.document_error_iff :
    (∃ e, (file now files config catalog projectRoot path).result = .error (.document e)) ↔
      s.isHtml = false := by
  cases hhtml : s.isHtml with
  | false =>
      rw [file_of_not_html now projectRoot catalog hs hhtml]
      simp
  | true =>
      have hsome : ∀ e, (file now files config catalog projectRoot path).result ≠
          .error (.document e) := by
        intro e
        simp only [file, hs, snapshot, Snapshot.requireHtml, hhtml, if_true]
        split
        · split <;> simp
        · unfold withRules
          simp only
          split
          · simp
          · simp only
            split <;> simp
      simpa using hsome

/-- A fix refuses the document in a readable file just if it is of another kind: the document that
is scanned again is of the same kind. -/
theorem Fix.document_error_iff (dryRun : Bool) (host : Host) :
    (∃ e, (file now files config catalog projectRoot dryRun host path).result =
      .error (.document e)) ↔ s.isHtml = false := by
  cases hhtml : s.isHtml with
  | false => simp [file, hs, Snapshot.requireHtml, hhtml]
  | true =>
      have hsome : ∀ e, (file now files config catalog projectRoot dryRun host path).result ≠
          .error (.document e) := by
        intro e
        cases hresolve : Catalog.resolve config.disabledRules catalog with
        | error error =>
            simp only [file, hs, Snapshot.requireHtml, hhtml, if_true, hresolve]
            split <;> simp
        | ok rules =>
            rw [(file_eq_withRules now files config projectRoot dryRun host path hs hhtml
              hresolve).2]
            by_cases hdue : ∃ batch, Due dryRun host s rules batch
            · obtain ⟨batch, hdue⟩ := hdue
              obtain ⟨updated, -, hresult, -⟩ := withRules_of_due now files config projectRoot
                dryRun host path hs hhtml (Catalog.resolved_of_resolve hresolve) hdue
              rcases hresult with hok | ⟨-, herror⟩
              · simp [hok]
              · simp [herror]
            · rw [not_exists] at hdue
              obtain ⟨-, ⟨o, hok, -⟩ | ⟨f, -, herror⟩⟩ :=
                withRules_of_not_due now files config projectRoot dryRun host path hdue
              · simp [hok]
              · simp [herror]
      simpa using hsome

end Audits

/-- The document in a file that can be read is audited just if the suffix of the file, in lower
case, is one of the suffixes in the settings in lower case, or `.html`. Scans and fixes refuse the
documents in all other files, and no others. -/
theorem Snapshot.audited_iff (files : FileTree) (path : String) {t : Text}
    (ht : files.textAt? path = some t) (config : Config) :
    let low := Text.lowerString (Path.ofString path).suffix
    let admitted := low ∈ config.htmlSuffixes.map Text.lowerString ∨ low = ".html"
    (∃ s, ofFile files config.htmlSuffixes path = .ok s ∧ s.text = t ∧ (s.isHtml ↔ admitted)) ∧
      ∀ now catalog projectRoot,
        ((∃ e, (Scan.file now files config catalog projectRoot path).result =
          .error (.document e)) ↔ ¬admitted) ∧
        ∀ dryRun host,
          (∃ e, (Fix.file now files config catalog projectRoot dryRun host path).result =
            .error (.document e)) ↔ ¬admitted := by
  intro low admitted
  have hs : ofFile files config.htmlSuffixes path = .ok
      { text := t, language := languageOf config.htmlSuffixes (Path.ofString path).suffix
        path := some (Path.ofString path).toString } :=
    ofFile_eq_ok_iff.mpr ⟨t, ht, rfl⟩
  have hhtml := lowerString_languageOf_eq_iff config.htmlSuffixes (Path.ofString path)
  refine ⟨⟨_, hs, rfl, ?_⟩, fun now catalog projectRoot => ⟨?_, fun dryRun host => ?_⟩⟩
  · rw [isHtml, beq_iff_eq]
    exact hhtml
  · rw [Scan.document_error_iff now catalog projectRoot hs, isHtml, beq_eq_false_iff_ne, ne_eq]
    exact not_congr hhtml
  · rw [Fix.document_error_iff now catalog projectRoot hs, isHtml, beq_eq_false_iff_ne, ne_eq]
    exact not_congr hhtml

/-- With one suffix in the settings, a file that has it in upper case is audited. -/
theorem Snapshot.audited_upper_case :
    let t : Text := "<img>".toList
    let files : FileTree :=
      ⟨["w"], [(["w"], .folder), (["w", "a.HTM"], .file (FileTree.encode t))]⟩
    let config : Config := { htmlSuffixes := [".htm"] }
    files.textAt? "a.HTM" = some t ∧
      (∃ s, ofFile files config.htmlSuffixes "a.HTM" = .ok s ∧ s.text = t ∧ s.isHtml) ∧
      ∀ now catalog projectRoot,
        (¬∃ e, (Scan.file now files config catalog projectRoot "a.HTM").result =
          .error (.document e)) ∧
        ∀ dryRun host,
          ¬∃ e, (Fix.file now files config catalog projectRoot dryRun host "a.HTM").result =
            .error (.document e) := by
  intro t files config
  have ht : files.textAt? "a.HTM" = some t := by decide +kernel
  have hsuffix : Text.lowerString (Path.ofString "a.HTM").suffix ∈
      config.htmlSuffixes.map Text.lowerString := by decide +kernel
  obtain ⟨⟨s, hs, htext, hhtml⟩, haudits⟩ := audited_iff files "a.HTM" ht config
  refine ⟨ht, ⟨s, hs, htext, hhtml.mpr (.inl hsuffix)⟩, fun now catalog projectRoot => ?_⟩
  obtain ⟨hscan, hfix⟩ := haudits now catalog projectRoot
  exact ⟨fun he => hscan.mp he (.inl hsuffix), fun dryRun host he =>
    (hfix dryRun host).mp he (.inl hsuffix)⟩

/-- With the same suffix loaded, a file with the suffix `.html` is audited all the same. -/
theorem Snapshot.audited_unlisted :
    let t : Text := "<img>".toList
    let files : FileTree :=
      ⟨["w"], [(["w"], .folder), (["w", "a.html"], .file (FileTree.encode t))]⟩
    ∃ config, Config.ofMembers [("html_suffixes", .array [.string ".htm"])] = .ok config ∧
      config.htmlSuffixes = [".htm"] ∧
      Text.lowerString (Path.ofString "a.html").suffix ∉
        config.htmlSuffixes.map Text.lowerString ∧
      (∃ s, ofFile files config.htmlSuffixes "a.html" = .ok s ∧ s.isHtml) ∧
      (¬∃ e, (Scan.file "" files config none none "a.html").result = .error (.document e)) ∧
      ¬∃ e, (Fix.file "" files config none none false .file "a.html").result =
        .error (.document e) := by
  intro t files
  have hload : Config.ofMembers [("html_suffixes", .array [.string ".htm"])] =
      .ok { htmlSuffixes := [".htm"] } := rfl
  have ht : files.textAt? "a.html" = some t := by decide +kernel
  have hlanguage : languageOf [".htm"] (Path.ofString "a.html").suffix = "html" := by
    decide +kernel
  have hs : ofFile files [".htm"] "a.html" = .ok
      { text := t, path := some (Path.ofString "a.html").toString } :=
    ofFile_eq_ok_iff.mpr ⟨t, ht, by rw [hlanguage]⟩
  have hhtml : isHtml { text := t, path := some (Path.ofString "a.html").toString } := by
    decide +kernel
  refine ⟨_, hload, rfl, by decide +kernel, ⟨_, hs, hhtml⟩, ?_, ?_⟩
  · rw [Scan.document_error_iff "" none none hs, hhtml]
    simp
  · rw [Fix.document_error_iff "" none none hs, hhtml]
    simp

end MarkupAudit
