import MarkupAudit.Proofs.Audit.Scanning
import MarkupAudit.Proofs.Config.Loading

/-! # Where a report is written

The path of the report is relative in all settings that are loaded, so it starts at the root of the
project. It can go up from there: each double dot without a name before it leaves a folder. A report
is inside the project exactly if the path comes back by the names of the folders it has left. -/

namespace MarkupAudit

namespace Path

theorem resolveParts_append (base parts more : List String) :
    resolveParts base (parts ++ more) = resolveParts (resolveParts base parts) more :=
  List.foldl_append

/-- A relative path in normal form: the number of folders to go up, and the names to go down after
that. -/
structure Climb where
  up : ℕ := 0
  down : List String := []
deriving Repr, DecidableEq

namespace Climb

/-- The normal form with one more part. -/
def step (c : Climb) (part : String) : Climb :=
  if part = ".." then
    if c.down.isEmpty then { c with up := c.up + 1 } else { c with down := c.down.dropLast }
  else { c with down := c.down ++ [part] }

/-- The place that is reached from a folder. -/
def place (c : Climb) (base : List String) : List String :=
  base.take (base.length - c.up) ++ c.down

theorem place_step (c : Climb) (base : List String) (part : String) :
    (c.step part).place base =
      if part = ".." then (c.place base).dropLast else c.place base ++ [part] := by
  unfold step place
  by_cases hpart : part = ".."
  · cases hdown : c.down with
    | nil =>
        -- From the root of all files nothing leads up, just as no name is left to be dropped.
        have htake : (base.take (base.length - c.up)).dropLast =
            base.take (base.length - (c.up + 1)) := by
          rw [List.dropLast_eq_take, List.length_take, List.take_take]
          congr 1
          omega
        simp only [hpart, List.isEmpty_nil, if_true, List.append_nil, htake]
    | cons name names => simp [hpart, List.dropLast_append_of_ne_nil]
  · simp [hpart]

/-- The place is inside the folder if the names lead back into the folders that are left. -/
theorem prefix_place_iff (c : Climb) (base : List String) :
    base <+: c.place base ↔ base.drop (base.length - c.up) <+: c.down := by
  have hbase := List.take_append_drop (base.length - c.up) base
  rw [place]
  nth_rewrite 1 [← hbase]
  exact List.prefix_append_right_inj _

end Climb

/-- The normal form of a relative path. -/
def climb (parts : List String) : Climb :=
  parts.foldl Climb.step {}

theorem resolveParts_place (c : Climb) (base parts : List String) :
    resolveParts (c.place base) parts = (parts.foldl Climb.step c).place base := by
  induction parts generalizing c with
  | nil => rfl
  | cons part parts ih =>
      rw [List.foldl_cons, ← ih, Climb.place_step]
      rfl

/-- Resolving the parts one by one from a folder leads to where their normal form leads. -/
theorem resolveParts_eq_place (base parts : List String) :
    resolveParts base parts = (climb parts).place base := by
  have hstart : ({} : Climb).place base = base := by simp [Climb.place]
  rw [climb, ← resolveParts_place, hstart]

end Path

namespace Report

/-- The path of a report is resolved from the resolved root of the project. -/
theorem resolve_target (files : FileTree) (root : Path) {relative : String}
    (h : (Path.ofString relative).isAbsolute = false) :
    (files.resolve (target root relative)).parts =
      Path.resolveParts (files.resolve root).parts (Path.ofString relative).parts := by
  have htarget : target root relative =
      { root with parts := root.parts ++ (Path.ofString relative).parts } := by
    rw [target, Path.join, h]
    rfl
  rw [htarget]
  exact Path.resolveParts_append _ _ _

theorem exists_write?_of_written {files : FileTree} {record : Json.Value} {root : Path}
    {relative : String} (h : (write files record root relative).fate = .written) :
    ∃ prepared, FileTree.TouchesOnly [] files prepared ∧
      prepared.write? (target root relative) (Json.write record).toUTF8 =
        some (write files record root relative).files := by
  have hfolders : FileTree.TouchesOnly [] files
      (files.makeFolders (target root relative).parent).1 :=
    FileTree.touchesOnly_makeFoldersFrom files _ _
  refine ⟨_, hfolders, ?_⟩
  unfold write at h ⊢
  simp only at h ⊢
  split_ifs at h ⊢
  split at h
  · next hwrite => rw [hwrite]
  · cases h

/-- A report that is written is found at its place. -/
theorem fileAt?_write {files : FileTree} {record : Json.Value} {root : Path} {relative : String}
    (h : (write files record root relative).fate = .written) :
    (write files record root relative).files.fileAt?
      (files.resolve (target root relative)).parts = some (Json.write record).toUTF8 := by
  obtain ⟨prepared, hfolders, hwrite⟩ := exists_write?_of_written h
  have hread := FileTree.read?_write? hwrite
  obtain ⟨location, hlocate, hfile⟩ := FileTree.read?_eq_some_iff.mp hread
  have hplace := FileTree.locate?_eq_some hlocate
  rw [(FileTree.touchesOnly_write? hwrite).resolve_eq, hfolders.resolve_eq] at hplace
  rwa [← hplace]

end Report

theorem Scan.reportPlaces_subset (files : FileTree) (config : Config) (root : Path) :
    reportPlaces files config (some root) ⊆
      [(files.resolve (Report.target root config.reportPath)).parts] := by
  unfold reportPlaces
  cases config.writeReport with
  | false => exact List.nil_subset _
  | true => exact List.Subset.refl _

/-- With settings that are loaded, the path of the report is resolved to where its normal form leads
from the root of the project, and the report and a scan write no file but the one there. It is
inside the project if and only if the path comes back by the names of the folders that it leaves. -/
theorem Report.confined_iff {settings : FileTree} {source : Option String} {config : Config}
    (h : Config.load settings source = .ok config) (files : FileTree) (root : Path) :
    let base := (files.resolve root).parts
    let climb := Path.climb (Path.ofString config.reportPath).parts
    (files.resolve (Report.target root config.reportPath)).parts = climb.place base ∧
    (∀ record,
      FileTree.TouchesOnly [climb.place base] files
        (Report.write files record root config.reportPath).files ∧
      ((Report.write files record root config.reportPath).fate = .written →
        (Report.write files record root config.reportPath).files.fileAt? (climb.place base) =
          some (Json.write record).toUTF8)) ∧
    (∀ now catalog s,
      FileTree.TouchesOnly [climb.place base] files
        (Scan.snapshot now files config catalog (some root) s).files) ∧
    (base <+: climb.place base ↔ base.drop (base.length - climb.up) <+: climb.down) := by
  intro base climb
  have hplace : (files.resolve (Report.target root config.reportPath)).parts =
      climb.place base := by
    rw [Report.resolve_target files root (Config.isAbsolute_reportPath_of_load h)]
    exact Path.resolveParts_eq_place _ _
  rw [← hplace]
  refine ⟨rfl, fun record => ?_, fun now catalog s => ?_, ?_⟩
  · exact ⟨Report.touchesOnly_write files record root _, Report.fileAt?_write⟩
  · exact (Scan.touchesOnly_snapshot now files config (some root) catalog s).mono
      (Scan.reportPlaces_subset files config root)
  · rw [hplace]
    exact climb.prefix_place_iff base

/-- The default path goes down only. -/
example : (Path.climb (Path.ofString ({} : Config).reportPath).parts).up = 0 := by decide

/-- A path that leaves the project and comes back. -/
theorem Report.confined_return :
    let settings := Config.settingsFile
      (FileTree.encode "\x7b\"report_path\": \"a/../../w/log.json\"\x7d".toList)
    ∃ config, Config.load settings (some "c.json") = .ok config ∧
      ["w"] <+: (Path.climb (Path.ofString config.reportPath).parts).place ["w"] := by
  intro settings
  have hload : Config.load settings (some "c.json") =
      .ok { reportPath := "a/../../w/log.json" } := by
    decide +kernel
  refine ⟨_, hload, ?_⟩
  exact (Report.confined_iff hload (FileTree.empty ["w"]) (Path.ofString ".")).2.2.2.mpr (by decide)

/-- A path that leaves the project for good: the report is written beside it. -/
theorem Report.write_outside :
    let settings := Config.settingsFile
      (FileTree.encode "\x7b\"report_path\": \"../x.json\"\x7d".toList)
    let files := FileTree.empty ["w"]
    let root := Path.ofString "."
    ∃ config, Config.load settings (some "c.json") = .ok config ∧
      (files.resolve root).parts = ["w"] ∧ files.fileAt? ["x.json"] = none ∧
      (Report.write files .null root config.reportPath).files.fileAt? ["x.json"] =
        some (Json.write .null).toUTF8 := by
  refine ⟨{ reportPath := "../x.json" }, ?_⟩
  decide +kernel

end MarkupAudit
