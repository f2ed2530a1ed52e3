import MarkupAudit.Proofs.Edit.Resolution

/-! # Repairs that conflict

In a tidy text a rule with a repair finds single tags, or, where it looks for drawings, a tag with
pieces that follow it. Two different parts of this kind overlap only where a tag stands in a drawing.
So mending fails just if the repair of a drawing and that of a tag in it both change something. -/

namespace MarkupAudit

open Markup

/-! ## Parts of a layout -/

namespace Markup

/-- The offset of the piece with the number `n`. -/
def pieceOffset (pieces : List Piece) (n : ℕ) : ℕ :=
  (render (pieces.take n)).length

theorem pieceOffset_mono (pieces : List Piece) {n m : ℕ} (h : n ≤ m) :
    pieceOffset pieces n ≤ pieceOffset pieces m := by
  have htake : pieces.take n = (pieces.take m).take n := by
    rw [List.take_take, Nat.min_eq_left h]
  rw [pieceOffset, htake]
  exact length_render_take_le n _

/-- A part of a text that starts with the piece with the number `n` and has `k` pieces behind it. -/
structure IsPart (pieces : List Piece) (n k : ℕ) (p : ℕ × ℕ) : Prop where
  start_eq : p.1 = pieceOffset pieces n
  stop_eq : p.2 = pieceOffset pieces (n + 1 + k)
  start_lt : p.1 < p.2

namespace IsPart

variable {pieces : List Piece} {n m k : ℕ} {p q : ℕ × ℕ}

/-- A piece that a part overlaps is contained in it. -/
theorem contains (hp : IsPart pieces n k p) (hq : IsPart pieces m 0 q) (hleft : p.1 < q.2)
    (hright : q.1 < p.2) : p.1 ≤ q.1 ∧ q.2 ≤ p.2 := by
  have hbehind : n ≤ m := by
    by_contra hlt
    have := pieceOffset_mono pieces (show m + 1 + 0 ≤ n by omega)
    rw [← hq.stop_eq, ← hp.start_eq] at this
    omega
  have hbefore : m + 1 ≤ n + 1 + k := by
    by_contra hlt
    have := pieceOffset_mono pieces (show n + 1 + k ≤ m by omega)
    rw [← hp.stop_eq, ← hq.start_eq] at this
    omega
  constructor
  · rw [hp.start_eq, hq.start_eq]
    exact pieceOffset_mono pieces hbehind
  · rw [hp.stop_eq, hq.stop_eq]
    exact pieceOffset_mono pieces hbefore

/-- Two pieces that overlap are the same. -/
theorem eq_of_overlap (hp : IsPart pieces n 0 p) (hq : IsPart pieces m 0 q) (hleft : p.1 < q.2)
    (hright : q.1 < p.2) : p = q := by
  obtain ⟨hstart, hstop⟩ := hp.contains hq hleft hright
  obtain ⟨hstart', hstop'⟩ := hq.contains hp hright hleft
  exact Prod.ext (le_antisymm hstart hstart') (le_antisymm hstop' hstop)

end IsPart

end Markup

namespace Pattern.TakesPieces

variable {p : Pattern} {takes : Tag → List Piece → Option ℕ} (h : TakesPieces p takes)

include h

theorem exists_isPart {d : Layout} {part : ℕ × ℕ} (hpart : part ∈ spans takes 0 0 d.pieces) :
    ∃ n k u after, takes u after = some k ∧ IsPart d.pieces n k part := by
  obtain ⟨before, u, after, k, hpieces, hk, rfl⟩ := h.exists_tag_of_mem hpart
  refine ⟨before.length, k, u, after, hk, ?_, ?_, ?_⟩
  · rw [pieceOffset, hpieces, List.take_left]
  · have htake : d.pieces.take (before.length + 1 + k) = before ++ .tag u :: after.take k := by
      rw [hpieces, Nat.add_assoc, List.take_length_add_append, Nat.add_comm 1, List.take_succ_cons]
    rw [pieceOffset, htake]
    simp [Piece.text, Nat.add_assoc]
  · simp only [Tag.length_text]
    omega

/-- What is found by going from piece to piece does not overlap. -/
theorem eq_of_overlap {d : Layout} {part other : ℕ × ℕ} (hpart : part ∈ spans takes 0 0 d.pieces)
    (hother : other ∈ spans takes 0 0 d.pieces) (hleft : part.1 < other.2)
    (hright : other.1 < part.2) : part = other := by
  have hpairwise : (spans takes 0 0 d.pieces).Pairwise fun r s => r.2 ≤ s.1 := by
    have hscan := h.scan_eq_spans d 0 [] d.pieces rfl
    exact hscan ▸ (h.occurrences d).scan_pairwise _
  rw [List.pairwise_iff_getElem] at hpairwise
  obtain ⟨i, hi, rfl⟩ := List.mem_iff_getElem.mp hpart
  obtain ⟨j, hj, rfl⟩ := List.mem_iff_getElem.mp hother
  rcases Nat.lt_trichotomy i j with hlt | rfl | hgt
  · exact absurd (hpairwise i j hi hj hlt) (Nat.not_le.mpr hright)
  · rfl
  · exact absurd (hpairwise j i hj hi hgt) (Nat.not_le.mpr hleft)

end Pattern.TakesPieces

/-! ## Parts of findings -/

namespace Guideline

/-- All remedies but that of drawings are for single tags. -/
theorem takes_eq_zero {m : Remedy} (hm : m ∈ remedies) (hid : m.rule.id ≠ "R5") {u : Tag}
    {after : List Piece} {k : ℕ} (h : m.takes u after = some k) : k = 0 := by
  have hsingle : ∀ {b : Bool}, (if b then some 0 else none) = some k → k = 0 := by
    intro b hk
    exact (Option.some.inj (Option.ite_none_right_eq_some.mp hk).2).symm
  simp only [remedies, completions, List.map_cons, List.map_nil, List.cons_append, List.nil_append,
    List.mem_cons, List.not_mem_nil, or_false] at hm
  rcases hm with rfl | rfl | rfl | rfl | rfl | rfl | rfl | rfl
  · exact hsingle h
  · exact hsingle h
  · exact hsingle h
  · exact absurd rfl hid
  · exact hsingle h
  · exact hsingle h
  · exact hsingle h
  · exact hsingle h

theorem id_mem_of_ne : ∀ m ∈ remedies, m.rule.id ≠ "R5" →
    m.rule.id ∈ ["R1", "R2", "R3", "R10", "R42", "R56", "R67"] := by
  decide +kernel

section Overlap

variable {d : Layout} {m m' : Remedy} (hm : m ∈ remedies) (hm' : m' ∈ remedies) {p q : ℕ × ℕ}
  (hp : p ∈ spans m.takes 0 0 d.pieces) (hq : q ∈ spans m'.takes 0 0 d.pieces)

include hm hp in
theorem exists_isPart_of_ne (hid : m.rule.id ≠ "R5") : ∃ n, IsPart d.pieces n 0 p := by
  obtain ⟨n, k, u, after, hk, hpart⟩ := m.takesPieces.exists_isPart hp
  obtain rfl := takes_eq_zero hm hid hk
  exact ⟨n, hpart⟩

include hm hm' hp hq

/-- Of two different parts that remedies find and that overlap, one is a drawing and contains the
other, which is not. -/
theorem contains_of_overlap (hne : p ≠ q) (hleft : p.1 < q.2) (hright : q.1 < p.2) :
    m.rule.id = "R5" ∧ m'.rule.id ≠ "R5" ∧ p.1 ≤ q.1 ∧ q.2 ≤ p.2 ∨
      m'.rule.id = "R5" ∧ m.rule.id ≠ "R5" ∧ q.1 ≤ p.1 ∧ p.2 ≤ q.2 := by
  by_cases hid : m.rule.id = "R5" <;> by_cases hid' : m'.rule.id = "R5"
  · -- Drawings are found by one scan, which goes on behind each of them.
    obtain rfl := List.inj_on_of_nodup_map nodup_remedies hm hm' (hid.trans hid'.symm)
    exact absurd (m.takesPieces.eq_of_overlap hp hq hleft hright) hne
  · obtain ⟨n, k, -, -, -, hpart⟩ := m.takesPieces.exists_isPart hp
    obtain ⟨n', hpart'⟩ := exists_isPart_of_ne hm' hq hid'
    exact .inl ⟨hid, hid', hpart.contains hpart' hleft hright⟩
  · obtain ⟨n, hpart⟩ := exists_isPart_of_ne hm hp hid
    obtain ⟨n', k, -, -, -, hpart'⟩ := m'.takesPieces.exists_isPart hq
    exact .inr ⟨hid', hid, hpart'.contains hpart hright hleft⟩
  · -- Two tags are the same piece or have nothing in common.
    obtain ⟨n, hpart⟩ := exists_isPart_of_ne hm hp hid
    obtain ⟨n', hpart'⟩ := exists_isPart_of_ne hm' hq hid'
    exact absurd (hpart.eq_of_overlap hpart' hleft hright) hne

end Overlap

end Guideline

/-! ## Findings that are mended -/

namespace Finding

/-- The repair of the finding's own rule makes something else of what stands at its part. -/
def Mends (s : Snapshot) (rules : List Rule) (f : Finding) : Prop :=
  ∃ r ∈ rules, r.id = f.ruleId ∧ ∃ repair t, r.repair = some repair ∧
    repair.mend (Text.slice s.text f.part.1 f.part.2) = .ok (.text t) ∧
      t ≠ Text.slice s.text f.part.1 f.part.2

theorem mends_iff_exists_step (s : Snapshot) {rules : List Rule}
    (hids : (rules.map (·.id)).Nodup) (f : Finding) :
    f.Mends s rules ↔ ∃ step, MendStep.ofFinding? rules f = some step ∧
      step.mend (Text.slice s.text f.part.1 f.part.2) ≠ Text.slice s.text f.part.1 f.part.2 := by
  constructor
  · rintro ⟨r, hr, hid, repair, t, hrepair, hmend, hne⟩
    refine ⟨⟨r.id, MendStep.textOf repair⟩, ?_, by simpa [MendStep.textOf, hmend] using hne⟩
    rw [MendStep.ofFinding?, ← hid, Rule.find?_eq_of_nodup hids hr, Option.bind_some, hrepair,
      Option.map_some]
  · rintro ⟨step, hstep, hne⟩
    obtain ⟨r, hr, hmap⟩ := Option.bind_eq_some_iff.mp hstep
    obtain ⟨repair, hrepair, rfl⟩ := Option.map_eq_some_iff.mp hmap
    refine ⟨r, List.mem_of_find?_eq_some hr, by simpa using List.find?_some hr, repair, ?_⟩
    simp only [MendStep.textOf] at hne
    split at hne
    · next t hmend => exact ⟨t, hrepair, hmend, hne⟩
    · exact absurd rfl hne

end Finding

/-- A part is changed just if one of its findings by itself would change it. -/
theorem Edit.changes_iff_exists_mends {s : Snapshot} {rules : List Rule}
    (hids : (rules.map (·.id)).Nodup) {findings : List Finding} {p : ℕ × ℕ} :
    Changes s rules findings p ↔ ∃ f ∈ findings, f.part = p ∧ f.Mends s rules := by
  rw [Changes, Ne, MendStep.changing_eq_nil_iff]
  push Not
  constructor
  · rintro ⟨step, hstep, hne⟩
    obtain ⟨f, hf, hown⟩ := List.mem_filterMap.mp hstep
    rw [List.mem_filter, decide_eq_true_iff] at hf
    obtain ⟨hf, rfl⟩ := hf
    exact ⟨f, hf, rfl, (f.mends_iff_exists_step s hids).mpr ⟨step, hown, hne⟩⟩
  · rintro ⟨f, hf, rfl, hmends⟩
    obtain ⟨step, hstep, hne⟩ := (f.mends_iff_exists_step s hids).mp hmends
    refine ⟨step, List.mem_filterMap.mpr ⟨f, List.mem_filter.mpr ⟨hf, ?_⟩, hstep⟩, hne⟩
    exact decide_eq_true rfl

namespace Guideline

/-- A finding of the known rules that would be mended is that of a remedy. -/
theorem exists_remedy_of_mends {s : Snapshot} {d : Layout} (hd : d.text = Region.blank s.text)
    {f : Finding} (hf : f ∈ (Evaluation.ofSnapshot s rules).findings) (h : f.Mends s rules) :
    ∃ m ∈ remedies, m.rule.id = f.ruleId ∧ f.part ∈ spans m.takes 0 0 d.pieces := by
  obtain ⟨r, hr, hid, repair, t, hrepair, -⟩ := h
  obtain ⟨m, hm, rfl, -⟩ := exists_remedy_of_repair hr hrepair
  refine ⟨m, hm, hid, ?_⟩
  have hown : f ∈ (Evaluation.ofRule d.text s m.rule).findings := by
    rw [hd, ← Evaluation.findings_filter nodup_ids hr, List.mem_filter, beq_iff_eq]
    exact ⟨hf, hid.symm⟩
  exact ((m.exists_finding_iff s).mp ⟨f, hown, rfl⟩).1

end Guideline

/-! ## Conflicts -/

/-- A finding that is a drawing contains another one, at a different part, and both would be
mended. -/
structure Finding.Conflicts (s : Snapshot) (rules : List Rule) (f g : Finding) : Prop where
  outer_id : f.ruleId = "R5"
  inner_id : g.ruleId ∈ ["R1", "R2", "R3", "R10", "R42", "R56", "R67"]
  outer_mends : f.Mends s rules
  inner_mends : g.Mends s rules
  part_ne : g.part ≠ f.part
  start_le : f.part.1 ≤ g.part.1
  stop_le : g.part.2 ≤ f.part.2

namespace Guideline

variable {s : Snapshot} {d : Layout} (hd : d.text = Region.blank s.text)

include hd

/-- In a tidy text, parts clash just where findings conflict. -/
theorem exists_clash_iff :
    (∃ p q, Edit.Clash s rules (Evaluation.ofSnapshot s rules).findings p q) ↔
      ∃ f ∈ (Evaluation.ofSnapshot s rules).findings,
        ∃ g ∈ (Evaluation.ofSnapshot s rules).findings, f.Conflicts s rules g := by
  constructor
  · rintro ⟨p, q, hne, hp, hq, hleft, hright⟩
    obtain ⟨f, hf, rfl, hmends⟩ := (Edit.changes_iff_exists_mends nodup_ids).mp hp
    obtain ⟨g, hg, rfl, hmends'⟩ := (Edit.changes_iff_exists_mends nodup_ids).mp hq
    obtain ⟨m, hm, hid, hspan⟩ := exists_remedy_of_mends hd hf hmends
    obtain ⟨m', hm', hid', hspan'⟩ := exists_remedy_of_mends hd hg hmends'
    have hmem := id_mem_of_ne m hm
    have hmem' := id_mem_of_ne m' hm'
    have hcontains := contains_of_overlap hm hm' hspan hspan' hne hleft hright
    rw [hid, hid'] at hcontains
    rw [hid] at hmem
    rw [hid'] at hmem'
    rcases hcontains with ⟨houter, hinner, hstart, hstop⟩ | ⟨houter, hinner, hstart, hstop⟩
    · exact ⟨f, hf, g, hg, houter, hmem' hinner, hmends, hmends', hne.symm, hstart, hstop⟩
    · exact ⟨g, hg, f, hf, houter, hmem hinner, hmends', hmends, hne, hstart, hstop⟩
  · rintro ⟨f, hf, g, hg, h⟩
    obtain ⟨m, hm, -, hspan⟩ := exists_remedy_of_mends hd hg h.inner_mends
    obtain ⟨n, k, -, -, -, hpart⟩ := m.takesPieces.exists_isPart hspan
    refine ⟨f.part, g.part, h.part_ne.symm,
      (Edit.changes_iff_exists_mends nodup_ids).mpr ⟨f, hf, rfl, h.outer_mends⟩,
      (Edit.changes_iff_exists_mends nodup_ids).mpr ⟨g, hg, rfl, h.inner_mends⟩, ?_, ?_⟩
    · exact lt_of_le_of_lt h.start_le hpart.start_lt
    · exact lt_of_lt_of_le hpart.start_lt h.stop_le

end Guideline

namespace Batch

/-- The known rules can be loaded and a text can be evaluated. If what is shown of the text is tidy,
then mending its findings fails just if some of them conflict, and what is said then is that edits
overlap. Otherwise there are edits, and they can be applied to the text. -/
theorem mending_fails_iff (s : Snapshot) (htidy : isTidy (Region.blank s.text)) :
    ∃ rules e, Catalog.load [] = .ok rules ∧
      Evaluation.ofEntries? (Region.blank s.text) s (rules.map .rule) = .ok e ∧
      ((∃ error, mending s e.findings rules = .error error) ↔
        ∃ f ∈ e.findings, ∃ g ∈ e.findings, f.Conflicts s rules g) ∧
      (∀ error, mending s e.findings rules = .error error →
        ∃ start stop otherStart otherStop,
          error = .edit (.overlap start stop otherStart otherStop)) ∧
      ((¬∃ f ∈ e.findings, ∃ g ∈ e.findings, f.Conflicts s rules g) →
        ∃ batch t, mending s e.findings rules = .ok batch ∧ batch.apply s.text = .ok t) := by
  refine ⟨Guideline.rules, _, Catalog.load_nil, Evaluation.ofEntries?_blank s _, ?_⟩
  obtain ⟨d, hd⟩ := exists_layout htidy
  have hspans : ∀ f ∈ (Evaluation.ofSnapshot s Guideline.rules).findings,
      f.span.start ≤ f.span.stop ∧ f.span.stop ≤ s.text.length := by
    intro f hf
    have hspan := Evaluation.span_of_mem hf
    rwa [Region.length_blank] at hspan
  rw [← Guideline.exists_clash_iff hd]
  obtain ⟨last, hlast, hreflects⟩ | ⟨p, q, hclash, herror⟩ :=
    (EditBuilder.reflects_initial s Guideline.rules).mendAll Guideline.nodup_ids
      Guideline.givesText_rules _ hspans
  · have hok := mending_of_mendAll_ok hlast
    have hnone : ¬∃ p q, Edit.Clash s Guideline.rules
        (Evaluation.ofSnapshot s Guideline.rules).findings p q := by
      rintro ⟨p, q, hclash⟩
      exact hreflects.not_clash p q hclash
    obtain ⟨-, -, happly⟩ :=
      edits_of_mending hspans Guideline.nodup_ids Guideline.givesText_rules hok
    rw [hok]
    refine ⟨⟨?_, fun hsome => absurd hsome hnone⟩, ?_, fun _ => ⟨_, _, rfl, happly⟩⟩
    · rintro ⟨error, h⟩
      cases h
    · intro error h
      cases h
  · have hsome : ∃ p q, Edit.Clash s Guideline.rules
        (Evaluation.ofSnapshot s Guideline.rules).findings p q := ⟨p, q, hclash⟩
    rw [mending_of_mendAll_error herror]
    refine ⟨⟨fun _ => hsome, fun _ => ⟨_, rfl⟩⟩, fun error h => ?_, fun hnone => absurd hsome hnone⟩
    exact ⟨_, _, _, _, (Except.error.inj h).symm⟩

/-- An image in a drawing: both are to be mended. The bracket in the comment does not count. -/
theorem mending_fails_image_in_drawing :
    let s : Snapshot := { text := "<svg><!-- < --><img></svg>".toList }
    isTidy (Region.blank s.text) ∧
      ∃ rules e, Catalog.load [] = .ok rules ∧
        Evaluation.ofEntries? (Region.blank s.text) s (rules.map .rule) = .ok e ∧
        (∃ error, mending s e.findings rules = .error error) ∧
        ∃ f ∈ e.findings, ∃ g ∈ e.findings, f.Conflicts s rules g := by
  intro s
  have htidy : isTidy (Region.blank s.text) := by decide +kernel
  have hfails : (mending s (Evaluation.ofSnapshot s Guideline.rules).findings
      Guideline.rules).toOption.isNone := by
    rw [Guideline.rules_eq_insertionSort]
    decide +kernel
  obtain ⟨rules, e, hload, heval, hiff, -⟩ := mending_fails_iff s htidy
  obtain rfl := Except.ok.inj (Catalog.load_nil.symm.trans hload)
  obtain rfl := Except.ok.inj ((Evaluation.ofEntries?_blank s _).symm.trans heval)
  have herror : ∃ error, mending s (Evaluation.ofSnapshot s Guideline.rules).findings
      Guideline.rules = .error error := by
    cases hmending : mending s (Evaluation.ofSnapshot s Guideline.rules).findings
        Guideline.rules with
    | error error => exact ⟨error, rfl⟩
    | ok batch =>
        rw [hmending] at hfails
        cases hfails
  exact ⟨htidy, _, _, hload, heval, herror, hiff.mp herror⟩

end Batch

end MarkupAudit
