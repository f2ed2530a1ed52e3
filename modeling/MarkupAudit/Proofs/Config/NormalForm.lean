import MarkupAudit.Proofs.Config.Loading
import MarkupAudit.Proofs.Json.Writer
import MarkupAudit.Proofs.Text.Idempotence

/-! # Settings in normal form

All settings that a file gives are in normal form, whatever JSON values stand in the file. Settings
in normal form are what an object of just these settings gives, so that loading them again changes
nothing. -/

namespace MarkupAudit

/-- The value of a key that stands once. -/
theorem Json.Value.get?_of_mem {members : List (String × Json.Value)} {key : String}
    {v : Json.Value} (hkeys : (members.map (·.1)).Nodup) (h : (key, v) ∈ members) :
    get? members key = some v := by
  induction members with
  | nil => cases h
  | cons m members ih =>
      obtain ⟨hm, hrest⟩ := List.nodup_cons.mp hkeys
      rcases List.mem_cons.mp h with rfl | h
      · simp [get?]
      · have hne : m.1 ≠ key := by
          rintro rfl
          exact hm (List.mem_map.mpr ⟨_, h, rfl⟩)
        rw [get?, List.find?_cons_of_neg (by simpa using hne)]
        exact ih hrest h

namespace Config

/-- A suffix in normal form: trimmed, in lower case and with a dot first. -/
def IsSuffix (s : String) : Prop :=
  Text.trimString s = s ∧ Text.lowerString s = s ∧ s.toList.head? = some '.'

instance (s : String) : Decidable (IsSuffix s) :=
  inferInstanceAs (Decidable (_ ∧ _ ∧ _))

/-- Settings in normal form. -/
structure IsNormal (config : Config) : Prop where
  reportPath_visible : Text.isFiller config.reportPath.toList = false
  reportPath_trimmed : Text.trimString config.reportPath = config.reportPath
  reportPath_relative : (Path.ofString config.reportPath).isAbsolute = false
  htmlSuffixes_ne_nil : config.htmlSuffixes ≠ []
  htmlSuffixes : ∀ s ∈ config.htmlSuffixes, IsSuffix s
  disabledRules : ∀ s ∈ config.disabledRules, Text.trimString s = s ∧ Text.upperString s = s
  logLevel : config.logLevel ∈ logLevels.map (·.1)

/-! ## The path of the report -/

theorem textSetting?_eq_some {v : Option Json.Value} {s : String} (h : textSetting? v = some s) :
    Text.trimString s = s ∧ Text.isFiller s.toList = false := by
  unfold textSetting? at h
  split at h
  · cases h
  · cases h
  · next v _ =>
      obtain ⟨hempty, htrim⟩ := Option.ite_none_left_eq_some.mp h
      have htrimmed : Text.trimString s = s := by
        rw [← Option.some.inj htrim, Text.trimString_trimString]
      rw [Option.some.inj htrim] at hempty
      exact ⟨htrimmed, by rw [Text.isFiller_eq_isEmpty htrimmed]; simpa using hempty⟩

theorem textSetting?_string {s : String} (htrimmed : Text.trimString s = s)
    (hvisible : Text.isFiller s.toList = false) : textSetting? (some (.string s)) = some s := by
  have hplain : (Json.Value.string s).plain = s := rfl
  have hempty : s.isEmpty = false := by rw [← Text.isFiller_eq_isEmpty htrimmed, hvisible]
  simp [textSetting?, hplain, htrimmed, hempty]

theorem reportPathSetting_eq_ok {v : Option Json.Value} {path : String}
    (h : reportPathSetting v = .ok path) :
    Text.trimString path = path ∧ Text.isFiller path.toList = false := by
  unfold reportPathSetting at h
  simp only at h
  split at h
  · cases h
  · obtain rfl := Except.ok.inj h
    cases hv : textSetting? v with
    | none => decide +kernel
    | some s => exact textSetting?_eq_some hv

theorem reportPathSetting_string {path : String} (htrimmed : Text.trimString path = path)
    (hvisible : Text.isFiller path.toList = false)
    (hrelative : (Path.ofString path).isAbsolute = false) :
    reportPathSetting (some (.string path)) = .ok path := by
  simp [reportPathSetting, textSetting?_string htrimmed hvisible, hrelative]

/-! ## The suffixes -/

/-- A dot before a text leaves it trimmed and in lower case. -/
theorem isSuffix_dot_append (s : String) :
    IsSuffix ("." ++ Text.lowerString (Text.trimString s)) := by
  have hlist : ("." ++ Text.lowerString (Text.trimString s)).toList =
      '.' :: Text.lower (Text.trim s.toList) := by
    simp [Text.lowerString, Text.trimString]
  refine ⟨?_, ?_, by rw [hlist]; rfl⟩
  · rw [Text.trimString_eq_self_iff, hlist]
    exact Text.isTrimmed_cons (by decide) (Text.isTrimmed_lower (Text.isTrimmed_trim _))
  · have hlower : Text.lower ('.' :: Text.lower (Text.trim s.toList)) =
        '.' :: Text.lower (Text.trim s.toList) := by
      refine Text.lowerFrom_of_forall (List.forall_mem_cons.mpr ⟨by decide +kernel, ?_⟩) []
      exact fun x hx => Text.lowerChar_of_mem_lower hx
    rw [Text.lowerString, hlist, hlower, ← hlist, String.ofList_toList]

theorem normalSuffix_eq_ok {s suffix : String} (h : normalSuffix s = .ok suffix) :
    IsSuffix suffix := by
  have htrimmed : Text.trimString (Text.lowerString (Text.trimString s)) =
      Text.lowerString (Text.trimString s) :=
    Text.trimString_lowerString (Text.trimString_trimString s)
  unfold normalSuffix at h
  simp only at h
  split at h
  · cases h
  · split at h
    · next hdot =>
        obtain rfl := Except.ok.inj h
        exact ⟨htrimmed, Text.lowerString_lowerString _, hdot⟩
    · obtain rfl := Except.ok.inj h
      exact isSuffix_dot_append s

theorem normalSuffix_of_isSuffix {s : String} (h : IsSuffix s) : normalSuffix s = .ok s := by
  obtain ⟨htrimmed, hlower, hdot⟩ := h
  have hempty : s.isEmpty = false := by
    rw [Bool.eq_false_iff, ne_eq, String.isEmpty_iff]
    rintro rfl
    cases hdot
  simp [normalSuffix, htrimmed, hlower, hempty, hdot]

theorem normalSuffixes_eq_ok {ss suffixes : List String} (h : normalSuffixes ss = .ok suffixes) :
    ∀ suffix ∈ suffixes, IsSuffix suffix := by
  induction ss generalizing suffixes with
  | nil =>
      obtain rfl := Except.ok.inj h
      simp
  | cons s ss ih =>
      unfold normalSuffixes at h
      split at h
      · cases h
      · next suffix hsuffix =>
          cases hrest : normalSuffixes ss with
          | error e =>
              rw [hrest] at h
              cases h
          | ok rest =>
              rw [hrest] at h
              obtain rfl := Except.ok.inj h
              exact List.forall_mem_cons.mpr ⟨normalSuffix_eq_ok hsuffix, ih hrest⟩

theorem normalSuffixes_of_forall {ss : List String} (h : ∀ s ∈ ss, IsSuffix s) :
    normalSuffixes ss = .ok ss := by
  induction ss with
  | nil => rfl
  | cons s ss ih =>
      obtain ⟨hs, hrest⟩ := List.forall_mem_cons.mp h
      unfold normalSuffixes
      rw [normalSuffix_of_isSuffix hs, ih hrest]
      rfl

theorem suffixesSetting_eq_ok {v : Option Json.Value} {suffixes : List String}
    (h : suffixesSetting v = .ok suffixes) :
    suffixes ≠ [] ∧ ∀ suffix ∈ suffixes, IsSuffix suffix := by
  have hdefault : ({} : Config).htmlSuffixes ≠ [] ∧
      ∀ suffix ∈ ({} : Config).htmlSuffixes, IsSuffix suffix := by decide +kernel
  unfold suffixesSetting at h
  split at h
  · rwa [← Except.ok.inj h]
  · rwa [← Except.ok.inj h]
  · obtain ⟨ss, -, h⟩ := exists_of_bind_eq_ok h
    obtain ⟨rest, hrest, h⟩ := exists_of_bind_eq_ok h
    split at h
    · cases h
    · next hempty =>
        obtain rfl := Except.ok.inj h
        exact ⟨by simpa using hempty, normalSuffixes_eq_ok hrest⟩

/-- Texts as the items of a list setting. -/
theorem listSetting_strings (ss : List String) :
    listSetting (some (.array (ss.map .string))) = .ok ss := by
  have hplain : (ss.map Json.Value.string).map Json.Value.plain = ss := by
    rw [List.map_map]
    exact List.map_id ss
  rw [listSetting, hplain]

theorem suffixesSetting_strings {ss : List String} (hne : ss ≠ []) (h : ∀ s ∈ ss, IsSuffix s) :
    suffixesSetting (some (.array (ss.map .string))) = .ok ss := by
  have hempty : ss.isEmpty = false := by simpa using hne
  simp only [suffixesSetting, listSetting_strings, Except.bind, bind, normalSuffixes_of_forall h,
    hempty]
  rfl

/-! ## The log level -/

theorem isSome_logLevel?_iff {name : String} :
    (logLevel? name).isSome ↔ name ∈ logLevels.map (·.1) := by
  rw [logLevel?, Option.isSome_map, List.find?_isSome, List.mem_map]
  simp only [beq_iff_eq]

theorem logLevelSetting_eq_ok {v : Option Json.Value} {name : String}
    (h : logLevelSetting v = .ok name) : name ∈ logLevels.map (·.1) := by
  unfold logLevelSetting at h
  simp only at h
  split at h
  · next hsome =>
      obtain rfl := Except.ok.inj h
      exact isSome_logLevel?_iff.mp hsome
  · cases h

theorem logLevelSetting_string {name : String} (h : name ∈ logLevels.map (·.1)) :
    logLevelSetting (some (.string name)) = .ok name := by
  have hnames : ∀ name ∈ logLevels.map (·.1), Text.trimString name = name ∧
      Text.isFiller name.toList = false ∧ Text.upperString name = name := by decide +kernel
  obtain ⟨htrimmed, hvisible, hupper⟩ := hnames name h
  have hknown : (logLevel? name).isSome := isSome_logLevel?_iff.mpr h
  simp [logLevelSetting, textSetting?_string htrimmed hvisible, hupper, hknown]

/-! ## All settings -/

/-- The settings as the members of an object. -/
def members (config : Config) : List (String × Json.Value) :=
  [("report_path", .string config.reportPath), ("write_report", .bool config.writeReport),
   ("html_suffixes", .array (config.htmlSuffixes.map .string)),
   ("disabled_rules", .array (config.disabledRules.map .string)),
   ("log_level", .string config.logLevel)]

theorem map_fst_members (config : Config) : config.members.map (·.1) = knownKeys :=
  rfl

/-- Any members that give settings give them in normal form. -/
theorem GivenBy.isNormal {config : Config} {given : List (String × Json.Value)}
    (h : config.GivenBy given) : config.IsNormal where
  reportPath_visible := (reportPathSetting_eq_ok h.reportPath).2
  reportPath_trimmed := (reportPathSetting_eq_ok h.reportPath).1
  reportPath_relative := isAbsolute_of_reportPathSetting h.reportPath
  htmlSuffixes_ne_nil := (suffixesSetting_eq_ok h.htmlSuffixes).1
  htmlSuffixes := (suffixesSetting_eq_ok h.htmlSuffixes).2
  disabledRules := by
    obtain ⟨ids, -, hids⟩ := h.disabledRules
    intro s hs
    rw [hids] at hs
    obtain ⟨id, -, rfl⟩ := List.mem_map.mp hs
    exact ⟨Text.trimString_upperString (Text.trimString_trimString id),
      Text.upperString_upperString _⟩
  logLevel := logLevelSetting_eq_ok h.logLevel

/-- Settings in normal form are given by themselves, in whatever order they stand. -/
theorem IsNormal.givenBy {config : Config} (h : config.IsNormal)
    {given : List (String × Json.Value)} (hperm : given.Perm config.members) :
    config.GivenBy given := by
  have hkeys : (given.map (·.1)).Nodup := by
    rw [(hperm.map _).nodup_iff, map_fst_members]
    decide
  have hget : ∀ m ∈ config.members, Json.Value.get? given m.1 = some m.2 :=
    fun m hm => Json.Value.get?_of_mem hkeys (hperm.mem_iff.mpr hm)
  have hids : config.disabledRules.map (fun s => Text.upperString (Text.trimString s)) =
      config.disabledRules := by
    refine List.map_congr_left (g := id) (fun s hs => ?_) |>.trans (List.map_id _)
    obtain ⟨htrimmed, hupper⟩ := h.disabledRules s hs
    rw [htrimmed, hupper, id]
  simp only [members, List.forall_mem_cons, List.not_mem_nil] at hget
  obtain ⟨hpath, hwrite, hsuffixes, hdisabled, hlevel, -⟩ := hget
  refine ⟨?_, ?_, ?_, ?_, ?_, config.disabledRules, ?_, hids.symm⟩
  · intro m hm
    rw [← map_fst_members config]
    exact List.mem_map_of_mem (hperm.mem_iff.mp hm)
  · rw [hpath]
    exact reportPathSetting_string h.reportPath_trimmed h.reportPath_visible h.reportPath_relative
  · rw [hwrite]
    rfl
  · rw [hsuffixes]
    exact suffixesSetting_strings h.htmlSuffixes_ne_nil h.htmlSuffixes
  · rw [hlevel]
    exact logLevelSetting_string h.logLevel
  · rw [hdisabled]
    exact listSetting_strings _

theorem textual_members (config : Config) :
    (Json.Value.object config.members).Textual Json.Reader.depthLimit := by
  have hstrings : ∀ (depth : ℕ) (ss : List String),
      (Json.Value.array (ss.map .string)).Textual (depth + 1) := by
    intro depth ss
    exact .array (List.forall_mem_map.mpr fun s _ => .string depth s)
  refine .object (by rw [map_fst_members]; decide) ?_
  simp only [members, List.forall_mem_cons, List.not_mem_nil, false_implies, implies_true, and_true]
  exact ⟨.string _ _, .bool _ _, hstrings _ _, hstrings _ _, .string _ _⟩

/-- That bytes write an object of just these settings, in any order. -/
def WrittenAs (config : Config) (content : ByteArray) : Prop :=
  ∃ t given, FileTree.decode? content = some t ∧
    Json.read (String.ofList t) = .ok (.object given) ∧ given.Perm config.members

theorem writtenAs_write (config : Config) :
    config.WrittenAs (FileTree.encode (Json.write (.object config.members)).toList) := by
  refine ⟨_, config.members, FileTree.decode?_encode _, ?_, .refl _⟩
  rw [String.ofList_toList]
  exact Json.read_write config.textual_members

/-- Settings that are loaded from a file are in normal form. Any file that has just these settings
gives them again, and there is such a file. -/
theorem loaded_is_normal_and_fixed {files : FileTree} {path : String} {config : Config}
    (h : load files (some path) = .ok config) :
    config.IsNormal ∧
    (∀ (others : FileTree) (again : String) (content : ByteArray),
      others.nodeAt? (Path.ofString again) = some (.file content) → config.WrittenAs content →
      load others (some again) = .ok config) ∧
    config.WrittenAs (FileTree.encode (Json.write (.object config.members)).toList) := by
  obtain ⟨given, hgiven⟩ := exists_givenBy_of_load h
  have hnormal : config.IsNormal := hgiven.isNormal
  refine ⟨hnormal, ?_, config.writtenAs_write⟩
  rintro others again content hfile ⟨t, given, hdecode, hread, hperm⟩
  rw [load_of_file hfile]
  exact ofBytes_eq_ok_iff.mpr ⟨t, given, hdecode, hread, hnormal.givenBy hperm⟩

/-- Settings with white space, letters that have no single capital, a final sigma and a blank
text. -/
theorem loaded_is_normal_and_fixed_spelling :
    let given : List (String × Json.Value) :=
      [("report_path", .string " \t"),
       ("html_suffixes", .array [.string "HTML ", .string " .\u0391\u03A3"]),
       ("disabled_rules", .array [.string " r1", .string "\u00DF", .bool true]),
       ("log_level", .string "debug\n")]
    let config : Config :=
      { htmlSuffixes := [".html", ".\u03B1\u03C2"], disabledRules := ["R1", "SS", "TRUE"]
        logLevel := "DEBUG" }
    let files := settingsFile (FileTree.encode (Json.write (.object given)).toList)
    let again := settingsFile (FileTree.encode (Json.write (.object config.members)).toList)
    load files (some "c.json") = .ok config ∧ config.IsNormal ∧
      load again (some "c.json") = .ok config := by
  intro given config files again
  have hgiven : config.GivenBy given := ofMembers_eq_ok_iff.mp (by decide +kernel)
  have htextual : (Json.Value.object given).Textual Json.Reader.depthLimit := by
    refine .object (by decide) ?_
    simp only [given, List.forall_mem_cons, List.not_mem_nil, false_implies, implies_true, and_true]
    refine ⟨.string _ _, .array ?_, .array ?_, .string _ _⟩
    · simp [Json.Value.Textual.string]
    · simp [Json.Value.Textual.string, Json.Value.Textual.bool]
  have h : load files (some "c.json") = .ok config := by
    rw [load_of_file (nodeAt?_settingsFile _)]
    refine ofBytes_eq_ok_iff.mpr ⟨_, given, FileTree.decode?_encode _, ?_, hgiven⟩
    rw [String.ofList_toList]
    exact Json.read_write htextual
  obtain ⟨hnormal, hagain, hwritten⟩ := loaded_is_normal_and_fixed h
  exact ⟨h, hnormal, hagain again "c.json" _ (nodeAt?_settingsFile _) hwritten⟩

end Config

end MarkupAudit
