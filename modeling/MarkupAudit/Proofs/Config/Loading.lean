import MarkupAudit.Config.Loader
import MarkupAudit.Proofs.Files.Tree
import MarkupAudit.Proofs.Json.Reader

/-! # What a file of settings gives

The bytes of a file give settings or what is wrong with them, with three exceptions: bytes that are
not UTF-8, a whole number with too many digits, and lists and objects that are nested too deeply. -/

namespace MarkupAudit

/-- What is told if the text of the file at a path is not read. -/
def LoadError.ofRead (path : String) : Json.ReadError → LoadError
  | .malformed => .config (.malformed path)
  | .longNumeral => .longNumeral
  | .tooDeep => .tooDeep

namespace Config

theorem load_of_file {files : FileTree} {path : String} {content : ByteArray}
    (h : files.nodeAt? (Path.ofString path) = some (.file content)) :
    load files (some path) = ofBytes (Path.ofString path).toString content := by
  rw [load]
  simp only [h]

section Bytes

variable (path : String) {content : ByteArray}

theorem ofBytes_of_decode?_eq_none (h : FileTree.decode? content = none) :
    ofBytes path content = .error .notUtf8 := by
  rw [ofBytes, Option.map_eq_none_iff.mp h]

theorem ofBytes_of_read_ok {t : Text} {v : Json.Value} (h : FileTree.decode? content = some t)
    (hread : Json.read (String.ofList t) = .ok v) :
    (∃ config, ofBytes path content = .ok config) ∨
      ∃ e, ofBytes path content = .error (.config e) := by
  obtain ⟨s, hs, rfl⟩ := Option.map_eq_some_iff.mp h
  rw [String.ofList_toList] at hread
  unfold ofBytes
  simp only [hs, hread]
  cases v with
  | object members =>
      simp only
      split
      · exact .inl ⟨_, rfl⟩
      · exact .inr ⟨_, rfl⟩
  | _ => exact .inr ⟨_, rfl⟩

/-- Only a text that is not a JSON value is told as what is wrong with the settings. -/
theorem ofBytes_of_read_error {t : Text} {e : Json.ReadError}
    (h : FileTree.decode? content = some t) (hread : Json.read (String.ofList t) = .error e) :
    ofBytes path content = .error (LoadError.ofRead path e) := by
  obtain ⟨s, hs, rfl⟩ := Option.map_eq_some_iff.mp h
  rw [String.ofList_toList] at hread
  unfold ofBytes
  simp only [hs, hread]
  cases e <;> rfl

theorem ofBytes_of_decode?_eq_some {t : Text} (h : FileTree.decode? content = some t) :
    (∃ config, ofBytes path content = .ok config) ∨
      (∃ e, ofBytes path content = .error (.config e)) ∨
      Json.HasLongNumeral t ∧ ofBytes path content = .error .longNumeral ∨
      Json.Reader.depthLimit < Json.openings t ∧ ofBytes path content = .error .tooDeep := by
  cases hread : Json.read (String.ofList t) with
  | ok v => exact (ofBytes_of_read_ok path h hread).imp_right .inl
  | error e =>
      have hdue := Json.dueTo_of_read hread
      have herror := ofBytes_of_read_error path h hread
      rw [String.toList_ofList] at hdue
      cases e with
      | malformed => exact .inr (.inl ⟨_, herror⟩)
      | longNumeral => exact .inr (.inr (.inl ⟨hdue, herror⟩))
      | tooDeep => exact .inr (.inr (.inr ⟨hdue, herror⟩))

end Bytes

/-- A file gives settings or what is wrong with them, unless its bytes are not UTF-8, or some digits
in its text are too many for a numeral, or so many brackets open in it that lists and objects are
nested too deeply. -/
theorem load_answers {files : FileTree} {path : String} {content : ByteArray}
    (hfile : files.nodeAt? (Path.ofString path) = some (.file content)) :
    (FileTree.decode? content = none ↔ load files (some path) = .error .notUtf8) ∧
    ∀ t, FileTree.decode? content = some t →
      (∃ config, load files (some path) = .ok config) ∨
        (∃ e, load files (some path) = .error (.config e)) ∨
        Json.HasLongNumeral t ∧ load files (some path) = .error .longNumeral ∨
        Json.Reader.depthLimit < Json.openings t ∧ load files (some path) = .error .tooDeep := by
  rw [load_of_file hfile]
  refine ⟨⟨ofBytes_of_decode?_eq_none _, fun h => ?_⟩, fun t => ofBytes_of_decode?_eq_some _⟩
  rw [Option.eq_none_iff_forall_ne_some]
  intro t ht
  rcases ofBytes_of_decode?_eq_some (Path.ofString path).toString ht with
    ⟨config, hconfig⟩ | ⟨e, he⟩ | ⟨-, he⟩ | ⟨-, he⟩ <;> simp_all

/-- Only a file `c.json`. -/
def settingsFile (content : ByteArray) : FileTree where
  working := []
  nodes := [(["c.json"], .file content)]

theorem nodeAt?_settingsFile (content : ByteArray) :
    (settingsFile content).nodeAt? (Path.ofString "c.json") = some (.file content) :=
  rfl

theorem load_settingsFile_answers :
    let files := settingsFile (FileTree.encode "\x7b\"log_level\": 10\x7d".toList)
    (∃ config, load files (some "c.json") = .ok config) ∨
      ∃ e, load files (some "c.json") = .error (.config e) := by
  intro files
  rcases (load_answers (nodeAt?_settingsFile _)).2 _ (FileTree.decode?_encode _) with
    hok | herror | ⟨⟨digits, hinfix, -, hlong⟩, -⟩ | ⟨hdeep, -⟩
  · exact .inl hok
  · exact .inr herror
  · exact absurd (hlong.trans_le hinfix.length_le) (by decide)
  · exact absurd hdeep (by decide)

/-- Bytes that are not UTF-8, a long numeral and deep lists are not told as what is wrong with the
settings. -/
theorem load_settingsFile_escapes :
    load (settingsFile ⟨#[0xFF]⟩) (some "c.json") = .error .notUtf8 ∧
    load (settingsFile (FileTree.encode (.replicate (Text.numeralLimit + 1) '1')))
      (some "c.json") = .error .longNumeral ∧
    load (settingsFile (FileTree.encode (.replicate (Json.Reader.depthLimit + 1) '[')))
      (some "c.json") = .error .tooDeep := by
  have herror : ∀ {t : Text} {e : Json.ReadError}, Json.read (String.ofList t) = .error e →
      load (settingsFile (FileTree.encode t)) (some "c.json") = .error (.ofRead "c.json" e) := by
    intro t e hread
    rw [load_of_file (nodeAt?_settingsFile _)]
    exact ofBytes_of_read_error "c.json" (FileTree.decode?_encode t) hread
  refine ⟨?_, herror (Json.read_ones (Nat.lt_succ_self _)),
    herror (Json.read_brackets (Nat.lt_succ_self _))⟩
  rw [load_of_file (nodeAt?_settingsFile _)]
  exact ofBytes_of_decode?_eq_none _ (by decide +kernel)

/-! ## Settings that are loaded -/

theorem isAbsolute_of_reportPathSetting {v : Option Json.Value} {path : String}
    (h : reportPathSetting v = .ok path) : (Path.ofString path).isAbsolute = false := by
  unfold reportPathSetting at h
  simp only at h
  split at h
  · cases h
  · next hrelative =>
      obtain rfl := Except.ok.inj h
      simpa using hrelative

theorem exists_of_bind_eq_ok {ε α β : Type} {x : Except ε α} {f : α → Except ε β} {b : β}
    (h : x >>= f = .ok b) : ∃ a, x = .ok a ∧ f a = .ok b := by
  cases x with
  | error e => cases h
  | ok a => exact ⟨a, rfl, h⟩

/-- That settings are given by the members of an object. -/
structure GivenBy (config : Config) (members : List (String × Json.Value)) : Prop where
  keys : ∀ m ∈ members, m.1 ∈ knownKeys
  reportPath : reportPathSetting (Json.Value.get? members "report_path") = .ok config.reportPath
  writeReport : writeReportSetting (Json.Value.get? members "write_report") = .ok config.writeReport
  htmlSuffixes : suffixesSetting (Json.Value.get? members "html_suffixes") = .ok config.htmlSuffixes
  logLevel : logLevelSetting (Json.Value.get? members "log_level") = .ok config.logLevel
  disabledRules : ∃ ids, listSetting (Json.Value.get? members "disabled_rules") = .ok ids ∧
    config.disabledRules = ids.map fun s => Text.upperString (Text.trimString s)

theorem ofMembers_eq_ok_iff {members : List (String × Json.Value)} {config : Config} :
    ofMembers members = .ok config ↔ config.GivenBy members := by
  have hunknown : ((members.map (·.1)).filter fun key => !knownKeys.contains key).isEmpty ↔
      ∀ m ∈ members, m.1 ∈ knownKeys := by
    simp [List.filter_eq_nil_iff]
  unfold ofMembers
  simp only
  constructor
  · intro h
    split at h
    · cases h
    · next hkeys =>
        obtain ⟨reportPath, hpath, h⟩ := exists_of_bind_eq_ok h
        obtain ⟨writeReport, hwrite, h⟩ := exists_of_bind_eq_ok h
        obtain ⟨htmlSuffixes, hsuffixes, h⟩ := exists_of_bind_eq_ok h
        obtain ⟨logLevel, hlevel, h⟩ := exists_of_bind_eq_ok h
        obtain ⟨ids, hids, h⟩ := exists_of_bind_eq_ok h
        obtain rfl := Except.ok.inj h
        exact ⟨hunknown.mp (by simpa using hkeys), hpath, hwrite, hsuffixes, hlevel, ids, hids, rfl⟩
  · rintro ⟨hkeys, hpath, hwrite, hsuffixes, hlevel, ids, hids, hdisabled⟩
    obtain ⟨reportPath, writeReport, htmlSuffixes, disabledRules, logLevel⟩ := config
    obtain rfl : disabledRules = _ := hdisabled
    rw [hunknown.mpr hkeys, hpath, hwrite, hsuffixes, hlevel, hids]
    rfl

theorem ofBytes_eq_ok_iff {path : String} {content : ByteArray} {config : Config} :
    ofBytes path content = .ok config ↔ ∃ t members, FileTree.decode? content = some t ∧
      Json.read (String.ofList t) = .ok (.object members) ∧ config.GivenBy members := by
  constructor
  · intro h
    unfold ofBytes at h
    split at h
    · cases h
    · next s hs =>
        split at h
        · cases h
        · cases h
        · cases h
        · next members hread =>
            split at h
            · next hmembers =>
                obtain rfl := Except.ok.inj h
                refine ⟨s.toList, members, ?_, ?_, ofMembers_eq_ok_iff.mp hmembers⟩
                · rw [FileTree.decode?, hs, Option.map_some]
                · rw [String.ofList_toList, hread]
            · cases h
        · cases h
  · rintro ⟨t, members, hdecode, hread, hgiven⟩
    obtain ⟨s, hs, rfl⟩ := Option.map_eq_some_iff.mp hdecode
    rw [String.ofList_toList] at hread
    unfold ofBytes
    simp only [hs, hread, ofMembers_eq_ok_iff.mpr hgiven]

/-- Settings that are loaded from a path are given by the members of an object. -/
theorem exists_givenBy_of_load {files : FileTree} {path : String} {config : Config}
    (h : load files (some path) = .ok config) : ∃ members, config.GivenBy members := by
  rw [load] at h
  split at h
  · cases h
  · cases h
  · obtain ⟨t, members, -, -, hgiven⟩ := ofBytes_eq_ok_iff.mp h
    exact ⟨members, hgiven⟩

/-- The path of the report is relative in all settings that are loaded. -/
theorem isAbsolute_reportPath_of_load {files : FileTree} {source : Option String} {config : Config}
    (h : load files source = .ok config) :
    (Path.ofString config.reportPath).isAbsolute = false := by
  cases source with
  | none =>
      rw [← Except.ok.inj h]
      decide
  | some path =>
      obtain ⟨members, hgiven⟩ := exists_givenBy_of_load h
      exact isAbsolute_of_reportPathSetting hgiven.reportPath

end Config

end MarkupAudit
