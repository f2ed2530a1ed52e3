import MarkupAudit.Files.Tree
import Mathlib.Data.List.Basic

/-! # What operations on files change

A file is written at one location and folders are only added, so a path leads to the same place as
before, and the files at all other locations stay as they are. -/

namespace MarkupAudit

namespace FileTree

/-! ## Locations -/

@[simp] theorem node?_nil (files : FileTree) : files.node? [] = some .folder := rfl

theorem node?_of_ne_nil (files : FileTree) {location : Location} (h : location ≠ []) :
    files.node? location = (files.nodes.find? fun entry => entry.1 == location).map (·.2) := by
  rw [node?, if_neg (by simpa using h)]

theorem ne_nil_of_node? {files : FileTree} {location : Location}
    (h : files.node? location ≠ some .folder) : location ≠ [] := by
  rintro rfl
  exact h rfl

theorem node?_put_self (files : FileTree) {location : Location} (h : location ≠ []) (node : Node) :
    (files.put location node).node? location = some node := by
  rw [node?_of_ne_nil _ h, put, List.find?_cons_of_pos (by simp), Option.map_some]

/-- The entries of other locations are found whatever is left out at a location. -/
theorem find?_filter_of_ne (nodes : List (Location × Node)) {location other : Location}
    (h : other ≠ location) :
    (nodes.filter fun entry => entry.1 != location).find? (fun entry => entry.1 == other) =
      nodes.find? fun entry => entry.1 == other := by
  rw [List.find?_filter]
  congr 1
  funext entry
  by_cases hentry : entry.1 = other <;> simp [hentry, h]

theorem node?_put_of_ne (files : FileTree) {location other : Location} (h : other ≠ location)
    (node : Node) : (files.put location node).node? other = files.node? other := by
  by_cases hnil : other = []
  · rw [hnil, node?_nil, node?_nil]
  · rw [node?_of_ne_nil _ hnil, node?_of_ne_nil _ hnil, put,
      List.find?_cons_of_neg (by simpa using h.symm), find?_filter_of_ne _ h]

/-- The content of the file at a location. -/
def fileAt? (files : FileTree) (location : Location) : Option ByteArray :=
  match files.node? location with
  | some (.file content) => some content
  | _ => none

theorem fileAt?_eq_some_iff {files : FileTree} {location : Location} {content : ByteArray} :
    files.fileAt? location = some content ↔ files.node? location = some (.file content) := by
  unfold fileAt?
  split <;> simp_all

theorem fileAt?_congr {files after : FileTree} {location : Location}
    (h : after.node? location = files.node? location) :
    after.fileAt? location = files.fileAt? location := by
  rw [fileAt?, fileAt?, h]

/-! ## Paths -/

/-- A path that leads somewhere leads to its resolved form. -/
theorem walk_eq_some {files : FileTree} {here location : Location} {parts : List String}
    (h : files.walk here parts = some location) : location = Path.resolveParts here parts := by
  induction parts generalizing here with
  | nil => exact (Option.some.inj h).symm
  | cons part parts ih =>
      rw [walk] at h
      split at h
      · exact ih h
      · cases h

theorem locate?_eq_some {files : FileTree} {p : Path} {location : Location}
    (h : files.locate? p = some location) : location = (files.resolve p).parts :=
  walk_eq_some h

theorem read?_eq_some_iff {files : FileTree} {p : Path} {content : ByteArray} :
    files.read? p = some content ↔
      ∃ location, files.locate? p = some location ∧ files.fileAt? location = some content := by
  have hread : files.read? p = (files.locate? p).bind files.fileAt? := by
    rw [read?, nodeAt?]
    cases files.locate? p <;> rfl
  rw [hread, Option.bind_eq_some_iff]

/-! ## Changes -/

/-- At most the files at some places are different. The folders that were there are still there, and
relative paths start from the same folder. -/
structure TouchesOnly (places : List Location) (files after : FileTree) : Prop where
  working_eq : after.working = files.working
  folder : ∀ {location}, files.node? location = some .folder → after.node? location = some .folder
  fileAt?_eq : ∀ {location}, location ∉ places → after.fileAt? location = files.fileAt? location

namespace TouchesOnly

variable {places : List Location} {files after : FileTree}

theorem refl (places : List Location) (files : FileTree) : TouchesOnly places files files :=
  ⟨rfl, id, fun _ => rfl⟩

theorem mono {more : List Location} (h : TouchesOnly places files after)
    (hsub : ∀ location ∈ places, location ∈ more) : TouchesOnly more files after where
  working_eq := h.working_eq
  folder := h.folder
  fileAt?_eq hlocation := h.fileAt?_eq fun hmem => hlocation (hsub _ hmem)

theorem trans {more : List Location} {last : FileTree} (h : TouchesOnly places files after)
    (hmore : TouchesOnly more after last) : TouchesOnly (places ++ more) files last where
  working_eq := hmore.working_eq.trans h.working_eq
  folder hfolder := hmore.folder (h.folder hfolder)
  fileAt?_eq hlocation := by
    rw [List.mem_append, not_or] at hlocation
    exact (hmore.fileAt?_eq hlocation.2).trans (h.fileAt?_eq hlocation.1)

theorem resolve_eq (h : TouchesOnly places files after) (p : Path) :
    after.resolve p = files.resolve p := by
  rw [resolve, resolve, startOf, startOf, h.working_eq]

/-- Folders stay, so a path that leads somewhere still leads there. -/
theorem walk_eq (h : TouchesOnly places files after) {here location : Location}
    {parts : List String} (hwalk : files.walk here parts = some location) :
    after.walk here parts = some location := by
  induction parts generalizing here with
  | nil => exact hwalk
  | cons part parts ih =>
      rw [walk] at hwalk ⊢
      split at hwalk
      · next hfolder =>
          rw [h.folder hfolder]
          exact ih hwalk
      · cases hwalk

theorem locate?_eq (h : TouchesOnly places files after) {p : Path} {location : Location}
    (hlocate : files.locate? p = some location) : after.locate? p = some location := by
  rw [locate?, startOf, h.working_eq]
  exact h.walk_eq hlocate

/-- A file at none of the places can be read as before. -/
theorem read?_eq (h : TouchesOnly places files after) {p : Path} {content : ByteArray}
    (hplace : (files.resolve p).parts ∉ places) (hread : files.read? p = some content) :
    after.read? p = some content := by
  obtain ⟨location, hlocate, hfile⟩ := read?_eq_some_iff.mp hread
  rw [← locate?_eq_some hlocate] at hplace
  exact read?_eq_some_iff.mpr ⟨location, h.locate?_eq hlocate, (h.fileAt?_eq hplace).trans hfile⟩

end TouchesOnly

theorem touchesOnly_put {files : FileTree} {location : Location}
    (h : files.node? location ≠ some .folder) (node : Node) :
    TouchesOnly [location] files (files.put location node) where
  working_eq := rfl
  folder {other} hfolder := by
    have hne : other ≠ location := by
      rintro rfl
      exact h hfolder
    rw [node?_put_of_ne files hne, hfolder]
  fileAt?_eq {other} hother :=
    fileAt?_congr (node?_put_of_ne files (by simpa using hother) node)

/-- A new folder takes no file away. -/
theorem touchesOnly_put_folder {files : FileTree} {location : Location}
    (h : files.node? location = none) : TouchesOnly [] files (files.put location .folder) where
  working_eq := rfl
  folder := (touchesOnly_put (by simp [h]) .folder).folder
  fileAt?_eq {other} _ := by
    by_cases hother : other = location
    · subst hother
      have hne : other ≠ [] := by
        rintro rfl
        cases h
      rw [fileAt?, fileAt?, node?_put_self files hne, h]
    · exact fileAt?_congr (node?_put_of_ne files hother .folder)

theorem touchesOnly_makeFoldersFrom (files : FileTree) (here : Location) (parts : List String) :
    TouchesOnly [] files (files.makeFoldersFrom here parts).1 := by
  induction parts generalizing files here with
  | nil => exact .refl [] files
  | cons part parts ih =>
      rw [makeFoldersFrom]
      split
      · exact ih files _
      · cases hnode : files.node? (here ++ [part]) with
        | none => simpa [hnode] using (touchesOnly_put_folder hnode).trans (ih _ _)
        | some node =>
            cases node with
            | folder => simpa [hnode] using ih files _
            | file content => simpa [hnode] using TouchesOnly.refl [] files

/-! ## Writing a file -/

theorem write?_eq_some {files after : FileTree} {p : Path} {content : ByteArray}
    (h : files.write? p content = some after) :
    ∃ location, files.locate? p = some location ∧ files.node? location ≠ some .folder ∧
      after = files.put location (.file content) := by
  unfold write? at h
  split at h
  · cases h
  · next location hlocate =>
      split at h
      · cases h
      · next hnode => exact ⟨location, hlocate, hnode, (Option.some.inj h).symm⟩

theorem touchesOnly_write? {files after : FileTree} {p : Path} {content : ByteArray}
    (h : files.write? p content = some after) :
    TouchesOnly [(files.resolve p).parts] files after := by
  obtain ⟨location, hlocate, hnode, rfl⟩ := write?_eq_some h
  rw [← locate?_eq_some hlocate]
  exact touchesOnly_put hnode _

theorem read?_write? {files after : FileTree} {p : Path} {content : ByteArray}
    (h : files.write? p content = some after) : after.read? p = some content := by
  have htouches := touchesOnly_write? h
  obtain ⟨location, hlocate, hnode, rfl⟩ := write?_eq_some h
  rw [read?_eq_some_iff]
  refine ⟨location, htouches.locate?_eq hlocate, ?_⟩
  rw [fileAt?_eq_some_iff]
  exact node?_put_self files (ne_nil_of_node? hnode) _

/-- A file that is there can be written. -/
theorem exists_write? {files : FileTree} {p : Path} {old : ByteArray}
    (h : files.read? p = some old) (content : ByteArray) :
    ∃ after, files.write? p content = some after := by
  obtain ⟨location, hlocate, hfile⟩ := read?_eq_some_iff.mp h
  rw [fileAt?_eq_some_iff] at hfile
  exact ⟨files.put location (.file content), by simp [write?, hlocate, hfile]⟩

/-! ## Texts in files -/

theorem decode?_encode (t : Text) : decode? (encode t) = some t := by
  have hdecode : String.fromUTF8? (String.ofList t).toUTF8 = some (String.ofList t) := by
    rw [String.fromUTF8?, String.toUTF8_eq_toByteArray, dif_pos (String.ofList t).isValidUTF8]
    rfl
  rw [decode?, encode, hdecode, Option.map_some, String.toList_ofList]

theorem encode_of_decode? {content : ByteArray} {t : Text} (h : decode? content = some t) :
    encode t = content := by
  obtain ⟨s, hs, rfl⟩ := Option.map_eq_some_iff.mp h
  rw [String.fromUTF8?] at hs
  split at hs
  · obtain rfl := Option.some.inj hs
    rw [encode, String.ofList_toList]
    rfl
  · cases hs

theorem encode_append (t u : Text) : encode (t ++ u) = encode t ++ encode u := by
  rw [encode, String.ofList_append, String.toUTF8, String.toByteArray_append]
  rfl

end FileTree

end MarkupAudit
