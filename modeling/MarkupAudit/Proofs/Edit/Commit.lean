import MarkupAudit.Audit.Fix
import MarkupAudit.Proofs.Edit.Substitution
import MarkupAudit.Proofs.Files.Tree

/-! # Commits to a file that others change

A batch is committed if and only if the file still holds the text that the batch was built from, and
then the bytes outside the edited parts stay as they are. In a run in which others write and delete
the file, a batch that changes its text is not committed twice unless the old text is restored in
between. -/

namespace MarkupAudit

namespace Batch

/-- The batch was built from the snapshot, by requests of which some may have been refused. -/
def BuiltFrom (batch : Batch) (s : Snapshot) : Prop :=
  ∃ rs, batch = (EditBuilder.respondAll { snapshot := s } rs).build

theorem BuiltFrom.digest_eq {batch : Batch} {s : Snapshot} (h : batch.BuiltFrom s) :
    batch.digest = contentDigest s.text := by
  obtain ⟨rs, rfl⟩ := h
  have hs := EditBuilder.respondAll_snapshot { snapshot := s } rs
  rw [EditBuilder.build, Snapshot.digest, hs]

theorem BuiltFrom.build_spec {batch : Batch} {s : Snapshot} (h : batch.BuiltFrom s) :
    ∃ pending, BuildSpec s pending batch := by
  obtain ⟨rs, rfl⟩ := h
  have hbuild := ((EditBuilder.disjoint_initial s).respondAll rs).build_spec
  rw [EditBuilder.respondAll_snapshot] at hbuild
  exact ⟨_, hbuild⟩

theorem BuiltFrom.pairwise {batch : Batch} {s : Snapshot} (h : batch.BuiltFrom s) :
    batch.edits.Pairwise fun e f => e.stop ≤ f.start := by
  obtain ⟨rs, rfl⟩ := h
  have hdisjoint := (EditBuilder.disjoint_initial s).respondAll rs
  exact Edit.inOrder_separated hdisjoint.apart hdisjoint.within

end Batch

/-! ## Edits that mend findings -/

namespace EditBuilder

theorem mendFinding_eq_ok {rules : List Rule} {b next : EditBuilder} {f : Finding}
    (h : mendFinding rules b f = .ok next) :
    next = b ∨ ∃ r : EditRequest, b.replace r.start r.stop r.newText r.ruleId = .ok next := by
  unfold mendFinding at h
  split at h
  · exact .inl (Except.ok.inj h).symm
  · next r repair _ =>
      simp only at h
      split at h
      · cases h
      · cases h
      · split at h
        · exact .inl (Except.ok.inj h).symm
        · next replacement _ _ =>
            split at h
            · next hreplace =>
                obtain rfl := Except.ok.inj h
                exact .inr ⟨⟨f.span.start, f.span.stop, replacement, r.id⟩, hreplace⟩
            · cases h

theorem mendAll_eq_ok {rules : List Rule} {b next : EditBuilder} {findings : List Finding}
    (h : mendAll rules b findings = .ok next) : ∃ rs, next = respondAll b rs := by
  induction findings generalizing b with
  | nil => exact ⟨[], (Except.ok.inj h).symm⟩
  | cons f findings ih =>
      rw [mendAll] at h
      cases hfirst : mendFinding rules b f with
      | error e => simp [hfirst] at h
      | ok first =>
          rw [hfirst] at h
          obtain ⟨rs, rfl⟩ := ih h
          rcases mendFinding_eq_ok hfirst with rfl | ⟨r, hr⟩
          · exact ⟨rs, rfl⟩
          · refine ⟨r :: rs, ?_⟩
            rw [respondAll, respondAll, List.foldl_cons, respond, hr]

end EditBuilder

theorem Batch.builtFrom_mending {s : Snapshot} {findings : List Finding} {rules : List Rule}
    {batch : Batch} (h : mending s findings rules = .ok batch) : batch.BuiltFrom s := by
  unfold mending at h
  cases hmend : EditBuilder.mendAll rules { snapshot := s } findings with
  | error e => simp [hmend, Except.map] at h
  | ok last =>
      rw [hmend] at h
      obtain ⟨rs, rfl⟩ := EditBuilder.mendAll_eq_ok hmend
      exact ⟨rs, (Except.ok.inj h).symm⟩

/-! ## Bytes outside the edited parts -/

/-- The offset of a character in the bytes of its text. -/
def byteOffset (t : Text) (n : ℕ) : ℕ :=
  (FileTree.encode (t.take n)).size

/-- The bytes of a text from the character at `cursor` on, with the bytes of the edited parts
replaced. All bytes between two parts are taken from `content`. -/
def Edit.substitutionBytes (t : Text) (content : ByteArray) (cursor : ℕ) : List Edit → ByteArray
  | [] => content.extract (byteOffset t cursor) content.size
  | e :: edits =>
    content.extract (byteOffset t cursor) (byteOffset t e.start) ++ FileTree.encode e.newText ++
      substitutionBytes t content e.stop edits

namespace FileTree

theorem encode_slice (t : Text) {start stop : ℕ} (h : start ≤ stop) :
    (encode t).extract (byteOffset t start) (byteOffset t stop) =
      encode (Text.slice t start stop) := by
  have htake : t.take stop = t.take start ++ Text.slice t start stop := by
    rw [Text.slice_natCast]
    conv_lhs => rw [← List.take_append_drop start (t.take stop)]
    rw [List.take_take, min_eq_left h]
  have hbytes : encode t =
      encode (t.take start) ++ (encode (Text.slice t start stop) ++ encode (t.drop stop)) := by
    rw [← encode_append, ← encode_append, ← List.append_assoc, ← htake, List.take_append_drop]
  have hstop : byteOffset t stop = byteOffset t start + (encode (Text.slice t start stop)).size := by
    rw [byteOffset, htake, encode_append, ByteArray.size_append, byteOffset]
  rw [hbytes, hstop, byteOffset, ← Nat.add_zero (encode (t.take start)).size, Nat.add_assoc,
    ByteArray.extract_append_size_add, Nat.zero_add, ByteArray.extract_append_size_left,
    ByteArray.extract_zero_size]

theorem encode_drop (t : Text) (start : ℕ) :
    (encode t).extract (byteOffset t start) (encode t).size = encode (t.drop start) := by
  have hbytes : encode t = encode (t.take start) ++ encode (t.drop start) := by
    rw [← encode_append, List.take_append_drop]
  rw [hbytes, ByteArray.size_append, byteOffset, ← Nat.add_zero (encode (t.take start)).size,
    Nat.add_assoc, ByteArray.extract_append_size_add, Nat.zero_add, ByteArray.extract_zero_size]

/-- Substituting in a text substitutes in its bytes. -/
theorem encode_substitution {t : Text} {cursor : ℕ} {edits : List Edit}
    (hcursor : ∀ e ∈ edits, cursor ≤ e.start)
    (hseparated : edits.Pairwise fun e f => e.stop ≤ f.start) :
    encode (Edit.substitution t cursor edits) =
      Edit.substitutionBytes t (encode t) cursor edits := by
  induction edits generalizing cursor with
  | nil => exact (encode_drop t cursor).symm
  | cons e edits ih =>
      obtain ⟨hlater, hrest⟩ := List.pairwise_cons.mp hseparated
      rw [Edit.substitution, Edit.substitutionBytes, encode_append, encode_append,
        encode_slice t (hcursor e (by simp)), ih hlater hrest]

/-- The text of the file at a path. -/
def textAt? (files : FileTree) (path : String) : Option Text :=
  (files.read? (Path.ofString path)).bind decode?

theorem textAt?_eq_some_iff {files : FileTree} {path : String} {t : Text} :
    files.textAt? path = some t ↔ files.read? (Path.ofString path) = some (encode t) := by
  rw [textAt?, Option.bind_eq_some_iff]
  constructor
  · rintro ⟨content, hread, hdecode⟩
    rw [hread, encode_of_decode? hdecode]
  · intro hread
    exact ⟨encode t, hread, decode?_encode t⟩

end FileTree

/-! ## One commit -/

namespace Batch

open FileTree

/-- The edits are refused unless the file has a text with the digest of the batch. -/
theorem commit_eq_ok {batch : Batch} {files after : FileTree} {path : String}
    (h : batch.commit files path = .ok after) :
    ∃ t, files.textAt? path = some t ∧ contentDigest t = batch.digest := by
  unfold commit at h
  simp only at h
  split at h
  · cases h
  · next content hread =>
      split at h
      · cases h
      · next t hdecode =>
          split at h
          · cases h
          · next updated happly =>
              refine ⟨t, by rw [textAt?, hread, Option.bind_some, hdecode], ?_⟩
              unfold apply at happly
              split at happly
              · next hdigest => exact hdigest
              · cases happly

/-- A batch is committed to a file with its text. Then the file holds the text with the edits, and
nothing else has changed. -/
theorem exists_commit {batch : Batch} {s : Snapshot} (hbuilt : batch.BuiltFrom s)
    {files : FileTree} {path : String} (htext : files.textAt? path = some s.text) :
    ∃ after, batch.commit files path = .ok after ∧
      after.textAt? path = some (Edit.substitution s.text 0 batch.edits) ∧
      TouchesOnly [(files.resolve (Path.ofString path)).parts] files after := by
  obtain ⟨pending, hspec⟩ := hbuilt.build_spec
  have hread := textAt?_eq_some_iff.mp htext
  have hcommit : batch.commit files path = .ok
      (if Edit.substitution s.text 0 batch.edits = s.text then files
        else (files.write? (Path.ofString path)
          (encode (Edit.substitution s.text 0 batch.edits))).getD files) := by
    simp only [commit, hread, decode?_encode, hspec.apply_eq]
  rw [hcommit]
  by_cases hsame : Edit.substitution s.text 0 batch.edits = s.text
  · rw [if_pos hsame, hsame]
    exact ⟨files, rfl, htext, .refl _ files⟩
  · obtain ⟨after, hafter⟩ :=
      exists_write? hread (encode (Edit.substitution s.text 0 batch.edits))
    rw [if_neg hsame, hafter]
    exact ⟨after, rfl, textAt?_eq_some_iff.mpr (read?_write? hafter), touchesOnly_write? hafter⟩

end Batch

/-! ## Runs -/

/-- A batch with the snapshot that it was built from. -/
structure Proposal where
  snapshot : Snapshot
  batch : Batch
  builtFrom : batch.BuiltFrom snapshot

namespace Proposal

/-- What the batch makes of the text of the snapshot. -/
def updated (p : Proposal) : Text :=
  Edit.substitution p.snapshot.text 0 p.batch.edits

/-- Whether the file at a path takes the edits. -/
def isAccepted (p : Proposal) (path : String) (files : FileTree) : Bool :=
  (Host.file.commit p.batch files path).1.isSome

end Proposal

/-- What may happen to a file: others write it or delete it, and edits are committed to it. -/
inductive FileEvent where
  | write (content : ByteArray)
  | delete
  | commit (p : Proposal)

namespace FileEvent

/-- The files after an event at a path. -/
def next (path : String) (files : FileTree) : FileEvent → FileTree
  | .write content => (files.write? (Path.ofString path) content).getD files
  | .delete =>
    match files.read? (Path.ofString path), files.locate? (Path.ofString path) with
    | some _, some location => files.erase location
    | _, _ => files
  | .commit p => (Host.file.commit p.batch files path).1.getD files

/-- The files after events at a path. -/
def run (path : String) (files : FileTree) (events : List FileEvent) : FileTree :=
  events.foldl (next path) files

/-- The text that a committed batch was built from. -/
def source : FileEvent → List Text
  | .commit p => [p.snapshot.text]
  | .write _ | .delete => []

/-- The texts that the file has in a run, and those that the committed batches were built from. -/
def texts (path : String) (files : FileTree) : List FileEvent → List Text
  | [] => (files.textAt? path).toList
  | e :: events =>
    (files.textAt? path).toList ++ e.source ++ texts path (e.next path files) events

@[simp] theorem run_nil (path : String) (files : FileTree) : run path files [] = files := rfl

theorem run_append (path : String) (files : FileTree) (xs ys : List FileEvent) :
    run path files (xs ++ ys) = run path (run path files xs) ys :=
  List.foldl_append

/-- The texts at a commit of a run are among those of the run. -/
theorem texts_at_commit (path : String) (files : FileTree) (before rest : List FileEvent)
    (p : Proposal) :
    p.snapshot.text ∈ texts path files (before ++ .commit p :: rest) ∧
      ∀ t, (run path files before).textAt? path = some t →
        t ∈ texts path files (before ++ .commit p :: rest) := by
  induction before generalizing files with
  | nil =>
      refine ⟨by simp [texts, source], fun t ht => ?_⟩
      rw [run_nil] at ht
      simp [texts, ht]
  | cons e before ih =>
      obtain ⟨hsnapshot, htext⟩ := ih (e.next path files)
      rw [List.cons_append, texts]
      exact ⟨List.mem_append_right _ hsnapshot, fun t ht => List.mem_append_right _ (htext t ht)⟩

/-- What a commit to a file does: it is accepted just if the file has the text that the batch was
built from. Then the bytes of the edited parts are replaced, and otherwise nothing changes. -/
structure CommitSpec (path : String) (files : FileTree) (p : Proposal) : Prop where
  accepted_iff : p.isAccepted path files ↔ files.textAt? path = some p.snapshot.text
  bytes : p.isAccepted path files → ∃ content,
    files.read? (Path.ofString path) = some content ∧ FileTree.decode? content = some p.snapshot.text ∧
    (next path files (.commit p)).read? (Path.ofString path) = some (FileTree.encode p.updated) ∧
    FileTree.encode p.updated =
      Edit.substitutionBytes p.snapshot.text content 0 p.batch.edits
  elsewhere : FileTree.TouchesOnly [(files.resolve (Path.ofString path)).parts] files
    (next path files (.commit p))
  refused : ¬ p.isAccepted path files → next path files (.commit p) = files

theorem next_commit_of_ok {path : String} {files after : FileTree} {p : Proposal}
    (h : p.batch.commit files path = .ok after) :
    p.isAccepted path files ∧ next path files (.commit p) = after := by
  simp [Proposal.isAccepted, next, Host.commit, h]

theorem next_commit_of_error {path : String} {files : FileTree} {p : Proposal} {e : CommitError}
    (h : p.batch.commit files path = .error e) :
    p.isAccepted path files = false ∧ next path files (.commit p) = files := by
  simp [Proposal.isAccepted, next, Host.commit, h]

/-- Without a collision of digests at the file, a commit does what it should. -/
theorem commitSpec {path : String} {files : FileTree} {p : Proposal}
    (hdigest : ∀ t, files.textAt? path = some t →
      contentDigest t = contentDigest p.snapshot.text → t = p.snapshot.text) :
    CommitSpec path files p := by
  cases hcommit : p.batch.commit files path with
  | error e =>
      obtain ⟨hrefused, hnext⟩ := next_commit_of_error hcommit
      refine ⟨⟨by simp [hrefused], fun htext => ?_⟩, by simp [hrefused], ?_, fun _ => hnext⟩
      · obtain ⟨after, hok, -⟩ := Batch.exists_commit p.builtFrom htext
        rw [hcommit] at hok
        cases hok
      · rw [hnext]
        exact .refl _ files
  | ok after =>
      obtain ⟨haccepted, hnext⟩ := next_commit_of_ok hcommit
      obtain ⟨t, ht, hsame⟩ := Batch.commit_eq_ok hcommit
      obtain rfl := hdigest t ht (hsame.trans p.builtFrom.digest_eq)
      obtain ⟨after', hok, hupdated, htouches⟩ := Batch.exists_commit p.builtFrom ht
      obtain rfl := Except.ok.inj (hcommit.symm.trans hok)
      refine ⟨by simp [haccepted, ht], fun _ => ?_, by rwa [hnext], by simp [haccepted]⟩
      refine ⟨_, FileTree.textAt?_eq_some_iff.mp ht, FileTree.decode?_encode _, ?_, ?_⟩
      · rw [hnext]
        exact FileTree.textAt?_eq_some_iff.mp hupdated
      · exact FileTree.encode_substitution (by simp) p.builtFrom.pairwise

/-- Something that does not hold before events and holds after them comes about by one of them. -/
theorem exists_turn (holds : FileTree → Prop) {path : String} {files : FileTree}
    {events : List FileEvent} (hfirst : ¬ holds files) (hlast : holds (run path files events)) :
    ∃ xs e ys, events = xs ++ e :: ys ∧ ¬ holds (run path files xs) ∧
      holds (run path files (xs ++ [e])) := by
  induction events generalizing files with
  | nil => exact absurd hlast hfirst
  | cons e events ih =>
      by_cases hnext : holds (e.next path files)
      · exact ⟨[], e, events, rfl, hfirst, hnext⟩
      · obtain ⟨xs, e', ys, rfl, hbefore, hafter⟩ := ih hnext hlast
        exact ⟨e :: xs, e', ys, rfl, hbefore, hafter⟩

/-- In every run in which no digests collide, each commit is accepted just if the file then has the
text that the batch was built from, and replaces the edited parts only. A batch that changes its
text and has been accepted is accepted again only after some event has restored the text. -/
theorem commits_of_run (path : String) (files : FileTree) (events : List FileEvent)
    (hdigests : ∀ t ∈ texts path files events, ∀ u ∈ texts path files events,
      contentDigest t = contentDigest u → t = u)
    (before rest : List FileEvent) (p : Proposal) (hevents : events = before ++ .commit p :: rest) :
    CommitSpec path (run path files before) p ∧
      ∀ between last, rest = between ++ .commit p :: last → p.updated ≠ p.snapshot.text →
        p.isAccepted path (run path files before) →
        p.isAccepted path (run path files (before ++ .commit p :: between)) →
        ∃ xs e ys, between = xs ++ e :: ys ∧
          (run path files (before ++ .commit p :: xs)).textAt? path ≠ some p.snapshot.text ∧
          (run path files (before ++ .commit p :: (xs ++ [e]))).textAt? path =
            some p.snapshot.text := by
  have hspec : ∀ earlier later, events = earlier ++ .commit p :: later →
      CommitSpec path (run path files earlier) p := by
    rintro earlier later rfl
    obtain ⟨hsnapshot, htext⟩ := texts_at_commit path files earlier later p
    exact commitSpec fun t ht => hdigests t (htext t ht) _ hsnapshot
  refine ⟨hspec before rest hevents, ?_⟩
  rintro between last rfl hchanges hfirst hagain
  have hstart : ∀ zs, run path files (before ++ .commit p :: zs) =
      run path (next path (run path files before) (.commit p)) zs := by
    intro zs
    rw [run_append]
    rfl
  have hsecond := hspec (before ++ .commit p :: between) last (by simp [hevents])
  have hold := hsecond.accepted_iff.mp hagain
  obtain ⟨content, -, -, hread, -⟩ := (hspec before _ hevents).bytes hfirst
  have hnew := FileTree.textAt?_eq_some_iff.mpr hread
  rw [hstart] at hold
  obtain ⟨xs, e, ys, rfl, hturn⟩ :=
    exists_turn (fun files => files.textAt? path = some p.snapshot.text)
      (by simpa [hnew] using hchanges) hold
  refine ⟨xs, e, ys, rfl, ?_⟩
  rwa [hstart, hstart]

theorem run_singleton (path : String) (files : FileTree) (e : FileEvent) :
    run path files [e] = next path files e :=
  rfl

/-- A batch is committed to a file with a line break of two characters, and a second time it is
refused. -/
theorem commits_of_run_twice :
    let t : Text := "ab\r\n".toList
    let path := "a.html"
    let files : FileTree :=
      ⟨["w"], [(["w"], .folder), (["w", "a.html"], .file (FileTree.encode t))]⟩
    let b : EditBuilder := EditBuilder.respondAll { snapshot := { text := t } } [⟨0, 1, ['x'], ""⟩]
    let p : Proposal := ⟨{ text := t }, b.build, _, rfl⟩
    let events := [.commit p, .commit p]
    (∀ t ∈ texts path files events, ∀ u ∈ texts path files events,
        contentDigest t = contentDigest u → t = u) ∧
      events = [] ++ .commit p :: [.commit p] ∧
      p.isAccepted path files ∧ p.updated = "xb\r\n".toList ∧
      (run path files [.commit p]).read? (Path.ofString path) =
        some (FileTree.encode "xb\r\n".toList) ∧
      p.isAccepted path (run path files [.commit p]) = false := by
  intro t path files b p events
  have htext : files.textAt? path = some t := by decide +kernel
  have hupdated : p.updated = "xb\r\n".toList := by decide +kernel
  have hdiffer : contentDigest "xb\r\n".toList ≠ contentDigest t := by decide +kernel
  obtain ⟨after, hcommit, hafter, -⟩ := Batch.exists_commit p.builtFrom htext
  have hnext : next path files (.commit p) = after := (next_commit_of_ok hcommit).2
  have hagain : next path after (.commit p) = after := by
    cases hsecond : p.batch.commit after path with
    | error e => exact (next_commit_of_error hsecond).2
    | ok last =>
        obtain ⟨u, hu, hsame⟩ := Batch.commit_eq_ok hsecond
        obtain rfl := Option.some.inj (hu.symm.trans (hafter.trans (congrArg some hupdated)))
        exact absurd (hsame.trans p.builtFrom.digest_eq) hdiffer
  have htexts : ∀ u ∈ texts path files events, u = t ∨ u = "xb\r\n".toList := by
    have hnew : after.textAt? path = some "xb\r\n".toList := hafter.trans (congrArg some hupdated)
    simp only [events, texts, hnext, hagain, htext, hnew, source, Option.toList_some, p]
    simp
  have hdigests : ∀ t ∈ texts path files events, ∀ u ∈ texts path files events,
      contentDigest t = contentDigest u → t = u := by
    intro v hv u hu hsame
    rcases htexts v hv with rfl | rfl <;> rcases htexts u hu with rfl | rfl
    · rfl
    · exact absurd hsame.symm hdiffer
    · exact absurd hsame hdiffer
    · rfl
  obtain ⟨hspec, htwice⟩ := commits_of_run path files events hdigests [] [.commit p] p rfl
  have hfirst : p.isAccepted path files := hspec.accepted_iff.mpr htext
  obtain ⟨content, -, -, hbytes, -⟩ := hspec.bytes hfirst
  have hread : (run path files [.commit p]).read? (Path.ofString path) =
      some (FileTree.encode "xb\r\n".toList) := by
    rw [run_singleton, ← hupdated]
    exact hbytes
  refine ⟨hdigests, rfl, hfirst, hupdated, hread, ?_⟩
  rw [Bool.eq_false_iff]
  intro hagain
  obtain ⟨xs, e, ys, hnil, -⟩ := htwice [] [] rfl (by rw [hupdated]; decide) hfirst hagain
  simp at hnil

end FileEvent

end MarkupAudit
