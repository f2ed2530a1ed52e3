import MarkupAudit.Proofs.Edit.Regions

/-! # Mending that only adds

Without the rule on the page's language, every repair puts pieces behind the name of a tag. The
mended text is then the text with these pieces added: what is left without them is the text itself,
and each of them stands right behind the name of a reported tag, outside the regions. -/

namespace MarkupAudit

open Markup

/-! ## Texts with additions -/

/-- A part of a text that was there before, or that was added. -/
inductive Part where
  | kept (t : Text)
  | added (t : Text)

namespace Part

/-- The characters of the part. -/
def text : Part → Text
  | .kept t => t
  | .added t => t

/-- The characters of the part that were there before. -/
def original : Part → Text
  | .kept t => t
  | .added _ => []

/-- The parts together. -/
def join (parts : List Part) : Text :=
  parts.flatMap text

/-- The parts together, without what was added. -/
def withoutAdded (parts : List Part) : Text :=
  parts.flatMap original

/-- Every addition is one of which `fits` holds, at its place in what was there before. -/
def Fits (fits : ℕ → Text → Prop) (offset : ℕ) (parts : List Part) : Prop :=
  ∀ before piece after, parts = before ++ .added piece :: after →
    fits (offset + (withoutAdded before).length) piece

section Fits

variable {fits : ℕ → Text → Prop} {offset : ℕ} {parts : List Part}

theorem fits_kept (t : Text) : Fits fits offset [.kept t] := by
  intro before piece after heq
  cases before with
  | nil => cases heq
  | cons x before =>
      obtain ⟨-, htail⟩ := List.cons.inj heq
      exact absurd htail.symm (by simp)

theorem Fits.cons_kept {t : Text} (h : Fits fits (offset + t.length) parts) :
    Fits fits offset (.kept t :: parts) := by
  intro before piece after heq
  cases before with
  | nil => cases heq
  | cons x before =>
      obtain ⟨rfl, htail⟩ := List.cons.inj heq
      have hfits := h before piece after htail
      rwa [Nat.add_assoc, ← List.length_append] at hfits

theorem Fits.append_added (h : Fits fits offset parts) {pieces : List Text}
    (hpieces : ∀ piece ∈ pieces, fits offset piece) :
    Fits fits offset (pieces.map .added ++ parts) := by
  induction pieces with
  | nil => exact h
  | cons first pieces ih =>
      obtain ⟨hfirst, hrest⟩ := List.forall_mem_cons.mp hpieces
      intro before piece after heq
      cases before with
      | nil =>
          obtain ⟨hpiece, -⟩ := List.cons.inj heq
          obtain rfl := Part.added.inj hpiece
          exact hfirst
      | cons x before =>
          obtain ⟨rfl, htail⟩ := List.cons.inj heq
          exact ih hrest before piece after htail

end Fits

theorem join_append_added (t : Text) (pieces : List Text) (parts : List Part) :
    join (.kept t :: (pieces.map .added ++ parts)) = t ++ (pieces.flatten ++ join parts) := by
  have hadded : (pieces.map added).flatMap text = pieces.flatten := by
    rw [List.flatMap_map]
    exact List.flatMap_id
  rw [join, List.flatMap_cons, List.flatMap_append, hadded]
  rfl

theorem withoutAdded_append_added (t : Text) (pieces : List Text) (parts : List Part) :
    withoutAdded (.kept t :: (pieces.map .added ++ parts)) = t ++ withoutAdded parts := by
  simp [withoutAdded, original, List.flatMap_map]

end Part

namespace Edit

/-- Edits that only supply pieces add them to the text and keep all the rest. -/
theorem exists_parts_of_supplies {t : Text} {pieces : List Text} {fits : ℕ → Prop}
    {edits : List Edit} (hsupplies : ∀ e ∈ edits, e.Supplies pieces fits)
    (hwithin : ∀ e ∈ edits, e.start ≤ t.length)
    (hseparated : edits.Pairwise fun e f => e.stop ≤ f.start) (cursor : ℕ)
    (hcursor : ∀ e ∈ edits, cursor ≤ e.start) :
    ∃ parts, substitution t cursor edits = Part.join parts ∧
      Part.withoutAdded parts = t.drop cursor ∧
      Part.Fits (fun q piece => piece ∈ pieces ∧ fits q) cursor parts := by
  induction edits generalizing cursor with
  | nil =>
      refine ⟨[.kept (t.drop cursor)], ?_, ?_, Part.fits_kept _⟩
      · simp [substitution, Part.join, Part.text]
      · simp [Part.withoutAdded, Part.original]
  | cons e edits ih =>
      obtain ⟨hlater, hseparated⟩ := List.pairwise_cons.mp hseparated
      obtain ⟨⟨hstop, added, hnew, hadded⟩, hsupplies⟩ := List.forall_mem_cons.mp hsupplies
      obtain ⟨hstart, hwithin⟩ := List.forall_mem_cons.mp hwithin
      have hbefore : cursor ≤ e.start := hcursor e (by simp)
      rw [hstop] at hlater
      -- An edit takes nothing away, so that the rest of the text starts where the edit does.
      obtain ⟨parts, hjoin, horiginal, hfits⟩ := ih hsupplies hwithin hseparated e.start hlater
      refine ⟨.kept (Text.slice t cursor e.start) :: (added.map .added ++ parts), ?_, ?_, ?_⟩
      · rw [Part.join_append_added, substitution, hstop, hjoin, hnew, List.append_assoc]
      · rw [Part.withoutAdded_append_added, horiginal, Text.slice_append_drop t hbefore]
      · apply Part.Fits.cons_kept
        rw [Text.length_slice t cursor hstart, Nat.add_sub_cancel' hbefore]
        exact hfits.append_added hadded

end Edit

/-! ## Pieces behind the names of reported tags -/

namespace Finding

/-- The place is right behind the name of a tag that is reported, and outside the regions. -/
def PlaceBehindName (t : Text) (findings : List Finding) (q : ℕ) : Prop :=
  (∃ f ∈ findings, ∃ name rest, NamedTag (Text.slice t f.part.1 f.part.2) name rest ∧
      q = f.part.1 + ('<' :: name).length) ∧
    ∀ r ∈ Region.all t, q ≤ r.1 ∨ r.2 ≤ q

end Finding

namespace Guideline

/-- Without the rule on the page's language, each edit that mends findings supplies pieces. -/
theorem exists_supplying_core {given : List Rule} (hknown : given ⊆ rules)
    (hids : (given.map (·.id)).Nodup) (hlanguage : "R67" ∉ given.map (·.id)) {s : Snapshot}
    {p : ℕ × ℕ} (h : Edit.Changes s given (Evaluation.ofSnapshot s given).findings p) :
    ∃ core, (Edit.composed s given (Evaluation.ofSnapshot s given).findings p).Core s.text
        (Region.all s.text) core ∧ core.start ≤ s.text.length ∧
      core.Supplies pieces
        (Finding.PlaceBehindName s.text (Evaluation.ofSnapshot s given).findings) := by
  obtain ⟨step, hstep⟩ := List.exists_mem_of_ne_nil _ h.steps_ne_nil
  obtain ⟨-, -, -, -, ⟨f, hf, -, rfl⟩, c, r, hstarts, -⟩ :=
    exists_remedy_startsOutside hknown hids hstep
  have hinserts : ∀ step ∈
      MendStep.stepsAt given (Evaluation.ofSnapshot s given).findings f.part,
      Inserts pieces step.mend := by
    intro step hstep
    obtain ⟨m, hm, hgiven, rfl, -⟩ := exists_remedy_startsOutside hknown hids hstep
    exact inserts_mend hm fun hid => hlanguage (hid ▸ List.mem_map_of_mem hgiven)
  obtain ⟨core, hcore, hstop, added, hnew, hadded⟩ :=
    Region.StartsOutside.exists_core_of_inserts
      (e := Edit.composed s given (Evaluation.ofSnapshot s given).findings f.part) hstarts
      head?_of_mem_pieces hinserts rfl
  have hwithin : core.stop ≤ f.part.2 := hcore.stop_le
  refine ⟨core, hcore, ?_, hstop, added, hnew, fun piece hpiece => ?_⟩
  · rw [← hstop]
    exact hwithin.trans hstarts.stop_le
  · obtain ⟨hmem, name, rest, hnamed, hstart⟩ := hadded piece hpiece
    have houtside := hcore.outside
    rw [hstop] at houtside
    exact ⟨hmem, ⟨f, hf, name, rest, hnamed, hstart⟩, houtside⟩

end Guideline

namespace Batch

/-- The known rules can be loaded, and a text can be evaluated with any of them. If the rule on the
page's language is not among them and the findings can be mended, then the mended text is the text
with pieces added: without these it is the text itself, and each of them stands right behind the
name of a reported tag and outside the regions. -/
theorem mending_only_adds :
    ∃ rules, Catalog.load [] = .ok rules ∧
      ∀ (s : Snapshot) (given : List Rule), given ⊆ rules → (given.map (·.id)).Nodup →
        "R67" ∉ given.map (·.id) →
        ∃ e, Evaluation.ofEntries? (Region.blank s.text) s (given.map .rule) = .ok e ∧
          ∀ batch, mending s e.findings given = .ok batch →
            ∃ parts, batch.apply s.text = .ok (Part.join parts) ∧
              Part.withoutAdded parts = s.text ∧
              ∀ before piece after, parts = before ++ .added piece :: after →
                piece ∈ Guideline.pieces ∧
                Finding.PlaceBehindName s.text e.findings (Part.withoutAdded before).length := by
  refine ⟨Guideline.rules, Catalog.load_nil, fun s given hknown hids hlanguage => ?_⟩
  refine ⟨_, Evaluation.ofEntries?_blank s _, fun batch hbatch => ?_⟩
  obtain ⟨hedits, hseparated, happly⟩ := edits_of_mending_known hknown hids hbatch
  have hcores : ∀ edit ∈ batch.edits, ∃ core,
      edit.Core s.text (Region.all s.text) core ∧ core.start ≤ s.text.length ∧
        core.Supplies Guideline.pieces
          (Finding.PlaceBehindName s.text (Evaluation.ofSnapshot s given).findings) := by
    intro edit hedit
    obtain ⟨p, hchanges, rfl⟩ := (hedits edit).mp hedit
    exact Guideline.exists_supplying_core hknown hids hlanguage hchanges
  choose! coreOf hcore hwithin hsupplies using hcores
  obtain ⟨parts, hjoin, horiginal, hfits⟩ := Edit.exists_parts_of_supplies
    (List.forall_mem_map.mpr hsupplies) (List.forall_mem_map.mpr hwithin)
    (Edit.separated_cores hcore hseparated) 0 fun _ _ => Nat.zero_le _
  rw [Edit.substitution_cores hcore hseparated fun _ _ => Nat.zero_le _, hjoin] at happly
  refine ⟨parts, happly, horiginal, fun before piece after heq => ?_⟩
  have hplace := hfits before piece after heq
  rwa [Nat.zero_add] at hplace

/-- Two rules put the same piece behind one name, since what follows hides the first one from the
second rule. The comment in the other tag stays where it is. -/
theorem mending_only_adds_controls_twice :
    let s : Snapshot := { text := "<audio\"autoplay><img <!-- x -->>".toList }
    let given := [Guideline.TextAlternatives.image, Guideline.Distinguishable.autoplay,
      Guideline.Keyboard.movingContent]
    ∃ rules, Catalog.load [] = .ok rules ∧ given ⊆ rules ∧ (given.map (·.id)).Nodup ∧
      "R67" ∉ given.map (·.id) ∧
      ∃ e batch parts, Evaluation.ofEntries? (Region.blank s.text) s (given.map .rule) = .ok e ∧
        mending s e.findings given = .ok batch ∧ batch.apply s.text = .ok (Part.join parts) ∧
        String.ofList (Part.join parts) =
          "<audio controls controls\"autoplay><img alt=\"\" <!-- x -->>" ∧
        Part.withoutAdded parts = s.text := by
  intro s given
  have hknown : given ⊆ Guideline.rules := by
    intro r hr
    simp only [given, List.mem_cons, List.not_mem_nil, or_false] at hr
    rcases hr with rfl | rfl | rfl
    · exact Guideline.rule_mem (Guideline.toRemedy_mem (m := .image) (by simp [Guideline.completions]))
    · exact Guideline.rule_mem (m := .autoplay) (by simp [Guideline.remedies])
    · exact Guideline.rule_mem (m := .movingContent) (by simp [Guideline.remedies])
  have hids : (given.map (·.id)).Nodup := by decide
  have hlanguage : "R67" ∉ given.map (·.id) := by decide
  have hmends : (mending s (Evaluation.ofSnapshot s given).findings given).toOption.map
      (fun batch => Edit.substitution s.text 0 batch.edits) =
        some "<audio controls controls\"autoplay><img alt=\"\" <!-- x -->>".toList := by
    decide +kernel
  obtain ⟨rules, hload, hadds⟩ := mending_only_adds
  obtain rfl := Except.ok.inj (Catalog.load_nil.symm.trans hload)
  obtain ⟨e, heval, hadds⟩ := hadds s given hknown hids hlanguage
  obtain rfl := Except.ok.inj ((Evaluation.ofEntries?_blank s _).symm.trans heval)
  obtain ⟨batch, hbatch, hsubstitution⟩ := exists_ok_of_map_toOption hmends
  obtain ⟨parts, happly, horiginal, -⟩ := hadds batch hbatch
  obtain ⟨-, -, hmended⟩ := edits_of_mending_known hknown hids hbatch
  refine ⟨_, hload, hknown, hids, hlanguage, _, batch, parts, heval, hbatch, happly, ?_, horiginal⟩
  rw [Except.ok.inj (happly.symm.trans hmended), hsubstitution, String.ofList_toList]

end Batch

end MarkupAudit
