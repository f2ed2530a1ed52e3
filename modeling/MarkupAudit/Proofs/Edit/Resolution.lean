import MarkupAudit.Proofs.Edit.Amendment
import MarkupAudit.Proofs.Edit.Remedies

/-! # Mending resolves findings

In a tidy text, all edits that mend findings amend tags. So the mended text has the same pieces but
for these tags, what a completion finds there starts at a tag that was in the text before, and a tag
that lacked the attribute was found before and has it now. -/

namespace MarkupAudit

open Markup

/-! ## Steps that amend a tag -/

namespace MendStep

/-- Steps change nothing one after the other just if none of them changes the text by itself. -/
theorem changing_eq_nil_iff {t : Text} {steps : List MendStep} :
    changing t steps = [] ↔ ∀ step ∈ steps, step.mend t = t := by
  induction steps with
  | nil => simp [changing]
  | cons x steps ih =>
      rw [List.forall_mem_cons, ← ih]
      by_cases hx : x.mend t = t
      · simp [changing, hx]
      · simp [changing, hx]

theorem compose_cons (t : Text) (step : MendStep) (steps : List MendStep) :
    compose t (step :: steps) = compose (step.mend t) steps :=
  rfl

section Tag

variable {u : Tag} (hu : u.hasPlainName) {steps : List MendStep} (r : Text)

include hu

/-- Repairs that amend a tag one after the other amend it together. -/
theorem compose_append_of_keepsName (h : ∀ step ∈ steps, KeepsName step.mend) :
    ∃ u' : Tag, u'.word = u.word ∧ compose (u.text ++ r) steps = u'.text ++ r := by
  induction steps generalizing u with
  | nil => exact ⟨u, rfl, rfl⟩
  | cons step steps ih =>
      obtain ⟨hstep, hsteps⟩ := List.forall_mem_cons.mp h
      obtain ⟨v, hv, hmend⟩ := hstep u r hu
      have hplain : v.hasPlainName := by rwa [Tag.hasPlainName, hv]
      obtain ⟨w, hw, hcompose⟩ := ih hplain hsteps
      exact ⟨w, hw.trans hv, by rw [compose_cons, hmend, hcompose]⟩

end Tag

end MendStep

theorem Edit.Changes.steps_ne_nil {s : Snapshot} {rules : List Rule} {findings : List Finding}
    {p : ℕ × ℕ} (h : Changes s rules findings p) : MendStep.stepsAt rules findings p ≠ [] := by
  intro hnil
  rw [Changes, hnil] at h
  exact h rfl

namespace Completion

variable (m : Completion)

/-- A completion leaves alone a tag that has the attribute. -/
theorem mend_of_hasAttribute {u : Tag} (h : hasAttribute u.text m.attr) (r : Text) :
    m.mend (u.text ++ r) = u.text ++ r := by
  rw [m.mend_eq, insertAttribute, u.hasAttribute_append, if_pos h]

/-- A completion gives a tag the attribute. -/
theorem exists_mend {u : Tag} (hu : u.hasPlainName) (r : Text) :
    ∃ u' : Tag, u'.word = u.word ∧ hasAttribute u'.text m.attr ∧
      m.mend (u.text ++ r) = u'.text ++ r := by
  cases h : hasAttribute u.text m.attr with
  | true => exact ⟨u, rfl, h, m.mend_of_hasAttribute h r⟩
  | false =>
      refine ⟨_, u.word_insert m.bracketless, hasAttribute_insert u m.attr_isNameLetter _, ?_⟩
      rw [m.mend_eq, insertAttribute_append hu h m.bracketless]

theorem mend_ne {u : Tag} (hu : u.hasPlainName) (h : hasAttribute u.text m.attr = false)
    (r : Text) : m.mend (u.text ++ r) ≠ u.text ++ r := by
  obtain ⟨v, -, hv, hmend⟩ := m.exists_mend hu r
  intro heq
  rw [hmend] at heq
  have hsame : v = u := by rw [← v.read_append r, heq, u.read_append]
  rw [hsame, h] at hv
  cases hv

theorem compose_of_hasAttribute {u : Tag} (h : hasAttribute u.text m.attr) (r : Text)
    {steps : List MendStep} (hsteps : ∀ step ∈ steps, step.mend = m.mend) :
    MendStep.compose (u.text ++ r) steps = u.text ++ r := by
  induction steps with
  | nil => rfl
  | cons step steps ih =>
      obtain ⟨hstep, hrest⟩ := List.forall_mem_cons.mp hsteps
      rw [MendStep.compose_cons, hstep, m.mend_of_hasAttribute h, ih hrest]

/-- A completion that is applied at all gives a tag the attribute. -/
theorem exists_compose {u : Tag} (hu : u.hasPlainName) (r : Text) {steps : List MendStep}
    (hne : steps ≠ []) (hsteps : ∀ step ∈ steps, step.mend = m.mend) :
    ∃ u' : Tag, u'.word = u.word ∧ hasAttribute u'.text m.attr ∧
      MendStep.compose (u.text ++ r) steps = u'.text ++ r := by
  obtain ⟨step, steps, rfl⟩ := List.exists_cons_of_ne_nil hne
  obtain ⟨hstep, hrest⟩ := List.forall_mem_cons.mp hsteps
  obtain ⟨v, hword, hhas, hmend⟩ := m.exists_mend hu r
  refine ⟨v, hword, hhas, ?_⟩
  rw [MendStep.compose_cons, hstep, hmend, m.compose_of_hasAttribute hhas r hrest]

end Completion

/-! ## What remedies find -/

/-- A part of a text starts with a tag, and `r` follows the tag there. -/
structure StartsWithTag (t : Text) (p : ℕ × ℕ) (u : Tag) (r : Text) : Prop where
  standsAt : t.standsAt u.text p.1
  le_stop : p.1 + u.text.length ≤ p.2
  slice_eq : Text.slice t p.1 p.2 = u.text ++ r
  rest_eq : Text.slice t (p.1 + u.text.length : ℕ) p.2 = r

theorem startsWithTag {d : Layout} {before after : List Piece} {u : Tag}
    (hpieces : d.pieces = before ++ .tag u :: after) (k : ℕ) :
    StartsWithTag d.text ((render before).length,
      (render before).length + u.text.length + (render (after.take k)).length) u
      (render (after.take k)) := by
  have hstands := Layout.standsAt_tag hpieces
  have hslice := Layout.slice_tag hpieces k
  refine ⟨hstands, Nat.le_add_right _ _, hslice, ?_⟩
  have hsplit := Text.slice_append d.text (Nat.le_add_right (render before).length u.text.length)
    (Nat.le_add_right _ (render (after.take k)).length)
  rw [hslice, Text.slice_of_standsAt hstands] at hsplit
  exact List.append_cancel_left hsplit

namespace Remedy

variable (m : Remedy) {d : Layout} {p : ℕ × ℕ}

/-- What a remedy finds is a tag of one of its names, with what follows it. -/
theorem exists_tag (h : p ∈ spans m.takes 0 0 d.pieces) :
    ∃ u r, StartsWithTag d.text p u r ∧ ∃ name ∈ m.names, u.isNamed name.toList := by
  obtain ⟨before, u, after, k, hpieces, hk, rfl⟩ := m.takesPieces.exists_tag_of_mem h
  exact ⟨u, _, startsWithTag hpieces k, m.exists_name hk⟩

/-- The parts of the findings of a remedy. -/
theorem exists_finding_iff (s : Snapshot) :
    (∃ f ∈ (Evaluation.ofRule d.text s m.rule).findings, f.part = p) ↔
      p ∈ spans m.takes 0 0 d.pieces ∧ m.holds (Text.slice d.text p.1 p.2) := by
  have hspans := m.asksOf.spans_eq d.text s
  rw [m.takesPieces.all_eq_spans] at hspans
  constructor
  · rintro ⟨f, hf, rfl⟩
    have hmem := List.mem_map_of_mem (f := (·.span)) hf
    rw [hspans] at hmem
    obtain ⟨p, hp, hspan⟩ := List.mem_map.mp hmem
    obtain ⟨hp, hholds⟩ := List.mem_filter.mp hp
    have hpart : f.part = p := by
      rw [Finding.part, ← hspan]
      rfl
    rw [Bool.and_eq_true] at hholds
    rw [hpart]
    exact ⟨hp, hholds.2⟩
  · rintro ⟨hp, hholds⟩
    obtain ⟨u, r, hstarts, -⟩ := m.exists_tag hp
    have hmem : s.span p.1 p.2 ∈ (Evaluation.ofRule d.text s m.rule).findings.map (·.span) := by
      rw [hspans]
      refine List.mem_map.mpr ⟨p, List.mem_filter.mpr ⟨hp, ?_⟩, rfl⟩
      rw [hholds, hstarts.slice_eq, u.isFiller_append]
      rfl
    obtain ⟨f, hf, hspan⟩ := List.mem_map.mp hmem
    refine ⟨f, hf, ?_⟩
    rw [Finding.part, hspan]
    rfl

end Remedy

/-! ## Steps that mend findings -/

theorem Rule.find?_eq_of_nodup {rules : List Rule} (hids : (rules.map (·.id)).Nodup) {r : Rule}
    (hr : r ∈ rules) : rules.find? (fun x => x.id == r.id) = some r := by
  cases hfind : rules.find? fun x => x.id == r.id with
  | none => simpa using List.find?_eq_none.mp hfind r hr
  | some x =>
      have hid : x.id = r.id := by simpa using List.find?_some hfind
      have hx := List.mem_of_find?_eq_some hfind
      rw [List.inj_on_of_nodup_map hids hx hr hid]

namespace Guideline

/-- The findings of the known rules in the text as it stands. -/
def findings (s : Snapshot) : List Finding :=
  (Evaluation.ofPrepared s.text s rules).findings

theorem nodup_remedies : (remedies.map (·.rule.id)).Nodup := by
  decide +kernel

theorem rule_mem {m : Remedy} (hm : m ∈ remedies) : m.rule ∈ rules := by
  have hmem : m.rule ∈ rules.filter (·.fixable) := by
    rw [filter_fixable]
    exact List.mem_map_of_mem hm
  exact (List.mem_filter.mp hmem).1

/-- Each repair of a known rule is that of a remedy. -/
theorem exists_remedy_of_repair {r : Rule} (hr : r ∈ rules) {repair : Repair}
    (h : r.repair = some repair) : ∃ m ∈ remedies, m.rule = r ∧ repair = .ofFunction m.mend := by
  have hmem : r ∈ rules.filter (·.fixable) := by
    rw [List.mem_filter, Rule.fixable, h]
    exact ⟨hr, rfl⟩
  rw [filter_fixable] at hmem
  obtain ⟨m, hm, rfl⟩ := List.mem_map.mp hmem
  rw [m.repair_eq] at h
  exact ⟨m, hm, rfl, (Option.some.inj h).symm⟩

theorem givesText_rules : EditBuilder.GivesText rules := by
  intro r hr repair hrepair t
  obtain ⟨m, -, -, rfl⟩ := exists_remedy_of_repair hr hrepair
  exact ⟨m.mend t, rfl⟩

/-- With some of the known rules, each step at a part is that of a remedy which reports the
part. -/
theorem exists_remedy_of_step {given : List Rule} (hknown : ∀ r ∈ given, r ∈ rules)
    (hids : (given.map (·.id)).Nodup) {t : Text} {s : Snapshot} {p : ℕ × ℕ} {step : MendStep}
    (h : step ∈ MendStep.stepsAt given (Evaluation.ofPrepared t s given).findings p) :
    ∃ m ∈ remedies, m.rule ∈ given ∧ step = ⟨m.rule.id, m.mend⟩ ∧
      ∃ f ∈ (Evaluation.ofRule t s m.rule).findings, f.part = p := by
  obtain ⟨f, hf, hstep⟩ := List.mem_filterMap.mp h
  rw [List.mem_filter, decide_eq_true_iff] at hf
  obtain ⟨r, hr, hmap⟩ := Option.bind_eq_some_iff.mp hstep
  obtain ⟨repair, hrepair, rfl⟩ := Option.map_eq_some_iff.mp hmap
  have hmem := List.mem_of_find?_eq_some hr
  obtain ⟨m, hm, rfl, rfl⟩ := exists_remedy_of_repair (hknown r hmem) hrepair
  have hid : m.rule.id = f.ruleId := by simpa using List.find?_some hr
  refine ⟨m, hm, hmem, rfl, f, ?_, hf.2⟩
  rw [← Evaluation.findings_filter hids hmem, List.mem_filter, beq_iff_eq]
  exact ⟨hf.1, hid.symm⟩

/-- The step for a finding of a remedy's rule is that of the remedy. -/
theorem ofFinding?_eq {m : Remedy} (hm : m ∈ remedies) {f : Finding} (hid : f.ruleId = m.rule.id) :
    MendStep.ofFinding? rules f = some ⟨m.rule.id, m.mend⟩ := by
  rw [MendStep.ofFinding?, hid, Rule.find?_eq_of_nodup nodup_ids (rule_mem hm), Option.bind_some,
    m.repair_eq]
  rfl

theorem toRemedy_mem {m : Completion} (hm : m ∈ completions) : m.toRemedy ∈ remedies :=
  List.mem_append_left _ (List.mem_map_of_mem hm)

section Clean

variable {t : Text} (hclean : ∀ c ∈ t, c ∉ Text.plainTwins) {q : ℕ} {u : Tag}
  (hu : t.standsAt u.text q)

include hclean hu

theorem notMem_plainTwins : ∀ c ∈ u.text, c ∉ Text.plainTwins := by
  intro c hc
  have hmem := (List.isPrefixOf_iff_prefix.mp hu).subset hc
  exact hclean c (List.mem_of_mem_drop hmem)

theorem hasPlainName_of_standsAt {m : Remedy} (hm : m ∈ remedies)
    (hnamed : ∃ name ∈ m.names, u.isNamed name.toList) : u.hasPlainName := by
  obtain ⟨name, hmem, hname⟩ := hnamed
  obtain ⟨hisName, hfirst⟩ := isName_names m hm name hmem
  exact Tag.hasPlainName_of_isNamed (notMem_plainTwins hclean hu) hisName hname hfirst

end Clean

variable {s : Snapshot} {d : Layout} (hd : d.text = s.text) {p : ℕ × ℕ}

include hd

/-- Each step at a part is that of a remedy that finds the part. -/
theorem exists_remedy {step : MendStep} (h : step ∈ MendStep.stepsAt rules (findings s) p) :
    ∃ m ∈ remedies, step.mend = m.mend ∧ p ∈ spans m.takes 0 0 d.pieces := by
  obtain ⟨m, hm, -, rfl, f, hf, hpart⟩ := exists_remedy_of_step (fun _ => id) nodup_ids h
  rw [← hd] at hf
  exact ⟨m, hm, rfl, ((m.exists_finding_iff s).mp ⟨f, hf, hpart⟩).1⟩

/-- What a remedy finds is a part with the step of the remedy. -/
theorem exists_step {m : Remedy} (hm : m ∈ remedies) (hp : p ∈ spans m.takes 0 0 d.pieces)
    (hholds : m.holds (Text.slice d.text p.1 p.2)) :
    ∃ step ∈ MendStep.stepsAt rules (findings s) p, step.mend = m.mend := by
  obtain ⟨f, hf, hpart⟩ := (m.exists_finding_iff s).mpr ⟨hp, hholds⟩
  have hid := Evaluation.ruleId_of_mem hf
  rw [hd] at hf
  refine ⟨_, List.mem_filterMap.mpr ⟨f, List.mem_filter.mpr ⟨?_, ?_⟩, ofFinding?_eq hm hid⟩, rfl⟩
  · exact Evaluation.mem_findings_iff.mpr ⟨m.rule, rule_mem hm, hf⟩
  · rw [hpart, decide_eq_true rfl]

/-! ## Edits that mend findings -/

/-- Where the steps at a part amend the tag that the part starts with, so does the edit. -/
theorem amendsTag_composed {u u' : Tag} {r : Text} (hstarts : StartsWithTag d.text p u r)
    (hplain : u.hasPlainName) (hword : u'.word = u.word)
    (hcompose : MendStep.compose (u.text ++ r) (MendStep.stepsAt rules (findings s) p) =
      u'.text ++ r) :
    (Edit.composed s rules (findings s) p).AmendsTag d.text u u' := by
  refine ⟨hstarts.standsAt, hplain, hword, hstarts.le_stop, ?_⟩
  change MendStep.compose (Text.slice s.text p.1 p.2) _ =
    u'.text ++ Text.slice d.text (p.1 + u.text.length : ℕ) p.2
  rw [← hd, hstarts.slice_eq, hcompose, hstarts.rest_eq]

variable (hclean : ∀ c ∈ d.text, c ∉ Text.plainTwins)

include hclean

/-- Each edit that mends findings amends a tag. -/
theorem exists_amendsTag (h : Edit.Changes s rules (findings s) p) :
    ∃ u u', (Edit.composed s rules (findings s) p).AmendsTag d.text u u' := by
  obtain ⟨step, hstep⟩ := List.exists_mem_of_ne_nil _ h.steps_ne_nil
  obtain ⟨m, hm, -, hp⟩ := exists_remedy hd hstep
  obtain ⟨u, r, hstarts, hnamed⟩ := m.exists_tag hp
  have hplain := hasPlainName_of_standsAt hclean hstarts.standsAt hm hnamed
  have hkeeps : ∀ step ∈ MendStep.stepsAt rules (findings s) p, KeepsName step.mend := by
    intro step hstep
    obtain ⟨other, -, hmend, -⟩ := exists_remedy hd hstep
    rw [hmend]
    exact other.keepsName
  obtain ⟨u', hword, hcompose⟩ := MendStep.compose_append_of_keepsName hplain r hkeeps
  exact ⟨u, u', amendsTag_composed hd hstarts hplain hword hcompose⟩

/-- At a tag of a completion, all steps are those of the completion. -/
theorem mend_eq_of_mem {m : Completion} (hm : m ∈ completions) {u : Tag}
    (hu : d.text.standsAt u.text p.1) (hnamed : ∃ name ∈ m.names, u.isNamed name.toList)
    {step : MendStep} (h : step ∈ MendStep.stepsAt rules (findings s) p) : step.mend = m.mend := by
  obtain ⟨other, hother, hmend, hp⟩ := exists_remedy hd h
  obtain ⟨v, r, hstarts, name', hname', hnamed'⟩ := other.exists_tag hp
  obtain rfl := Tag.eq_of_standsAt hu hstarts.standsAt
  obtain ⟨name, hname, hnamed⟩ := hnamed
  have hplain := notMem_plainTwins hclean hu
  have hspelled :=
    Tag.map_toLower_word hplain (isName_names _ (toRemedy_mem hm) name hname).1 hnamed
  have hspelled' := Tag.map_toLower_word hplain (isName_names _ hother name' hname').1 hnamed'
  have hid := names_disjoint m hm other hother name hname name' hname'
    (hspelled.symm.trans hspelled')
  rw [hmend, List.inj_on_of_nodup_map nodup_remedies hother (toRemedy_mem hm) hid]

/-- An edit at a tag of a completion gives the tag the attribute. -/
theorem exists_completed {m : Completion} (hm : m ∈ completions) {u : Tag}
    (hu : d.text.standsAt u.text p.1) (hnamed : ∃ name ∈ m.names, u.isNamed name.toList)
    (h : Edit.Changes s rules (findings s) p) :
    ∃ u', (Edit.composed s rules (findings s) p).AmendsTag d.text u u' ∧
      hasAttribute u'.text m.attr := by
  obtain ⟨step, hstep⟩ := List.exists_mem_of_ne_nil _ h.steps_ne_nil
  obtain ⟨other, -, -, hp⟩ := exists_remedy hd hstep
  obtain ⟨v, r, hstarts, -⟩ := other.exists_tag hp
  obtain rfl := Tag.eq_of_standsAt hu hstarts.standsAt
  have hplain := hasPlainName_of_standsAt hclean hu (toRemedy_mem hm) hnamed
  obtain ⟨u', hword, hhas, hcompose⟩ := m.exists_compose hplain r h.steps_ne_nil
    fun step hstep => mend_eq_of_mem hd hclean hm hu hnamed hstep
  exact ⟨u', amendsTag_composed hd hstarts hplain hword hcompose, hhas⟩

/-- What a completion finds is changed. -/
theorem changes_of_mem {m : Completion} (hm : m ∈ completions)
    (hp : p ∈ spans m.takes 0 0 d.pieces) (hholds : m.holds (Text.slice d.text p.1 p.2)) :
    Edit.Changes s rules (findings s) p := by
  intro hnil
  obtain ⟨step, hstep, hmend⟩ := exists_step hd (toRemedy_mem hm) hp hholds
  obtain ⟨u, r, hstarts, hnamed⟩ := m.exists_tag hp
  have hplain := hasPlainName_of_standsAt hclean hstarts.standsAt (toRemedy_mem hm) hnamed
  have hsame := MendStep.changing_eq_nil_iff.mp hnil step hstep
  rw [hstarts.slice_eq] at hholds
  rw [← hd, hstarts.slice_eq, hmend] at hsame
  exact m.mend_ne hplain (m.lacks hholds) r hsame

/-! ## The mended text -/

section Mended

variable {edits : List Edit}
  (hedits : ∀ e, e ∈ edits ↔ ∃ p, Edit.Changes s rules (findings s) p ∧
    e = Edit.composed s rules (findings s) p)
  (hseparated : edits.Pairwise fun e f => e.stop ≤ f.start)

include hedits

theorem exists_amendsTag_of_mem {e : Edit} (he : e ∈ edits) : ∃ u u', e.AmendsTag d.text u u' := by
  obtain ⟨p, hp, rfl⟩ := (hedits e).mp he
  exact exists_amendsTag hd hclean hp

include hseparated

/-- In the mended text, a completion finds nothing. -/
theorem findings_amend_eq_nil {m : Completion} (hm : m ∈ completions) (s' : Snapshot) :
    (Evaluation.ofRule (d.amend (Edit.amendment edits)).text s' m.rule).findings = [] := by
  have hchange := Edit.amended_amendment edits
  rw [List.eq_nil_iff_forall_not_mem]
  intro f hf
  obtain ⟨hp, hholds⟩ := (m.exists_finding_iff s').mp ⟨f, hf, rfl⟩
  obtain ⟨before, u, after, k, hpieces, htakes, hslice, hreached⟩ :=
    Layout.slice_amend (fun q u r => m.takes_amend hchange (hchange q u) _ r) hp
  rw [hslice] at hholds
  by_cases hedit : ∃ e ∈ edits, e.start = (render before).length
  · -- The tag has been edited, so that it has the attribute now.
    obtain ⟨e, he, hstart⟩ := hedit
    obtain ⟨p, hchanges, rfl⟩ := (hedits e).mp he
    have hstands : d.text.standsAt u.text p.1 := by
      rw [show p.1 = (render before).length from hstart]
      exact Layout.standsAt_tag hpieces
    have hnamed : ∃ name ∈ m.names, u.isNamed name.toList := by
      simpa only [(hchange _ u).isNamed_eq] using m.exists_name htakes
    obtain ⟨u', hamends, hhas⟩ := exists_completed hd hclean hm hstands hnamed hchanges
    have hlacks := m.lacks hholds
    rw [← hstart, Edit.amendment_of_mem (fun e => exists_amendsTag_of_mem hd hclean hedits)
      hseparated he hamends, hhas] at hlacks
    cases hlacks
  · -- The tag has not been edited, although it has been found before.
    push Not at hedit
    rw [Edit.amendment_of_ne hedit] at htakes hholds
    obtain ⟨hk, hholds⟩ := m.holds_amend hchange htakes hholds
    have hchanges := changes_of_mem hd hclean hm (hreached k hk)
      (by rwa [(startsWithTag hpieces k).slice_eq])
    exact hedit _ ((hedits _).mpr ⟨_, hchanges, rfl⟩) rfl

end Mended

end Guideline

/-- What is known of a result says that there is one. -/
theorem exists_ok_of_map_toOption {ε α β : Type} {x : Except ε α} {f : α → β} {b : β}
    (h : x.toOption.map f = some b) : ∃ a, x = .ok a ∧ f a = b := by
  cases x with
  | error e => cases h
  | ok a => exact ⟨a, rfl, Option.some.inj h⟩

namespace Batch

/-- The edits of a batch that mends findings, and what it makes of the text. -/
theorem edits_of_mending {s : Snapshot} {findings : List Finding} {rules : List Rule}
    {batch : Batch}
    (hspans : ∀ f ∈ findings, f.span.start ≤ f.span.stop ∧ f.span.stop ≤ s.text.length)
    (hids : (rules.map (·.id)).Nodup) (htexts : EditBuilder.GivesText rules)
    (h : mending s findings rules = .ok batch) :
    (∀ e, e ∈ batch.edits ↔ ∃ p, Edit.Changes s rules findings p ∧
        e = Edit.composed s rules findings p) ∧
      batch.edits.Pairwise (fun e f => e.stop ≤ f.start) ∧
      batch.apply s.text = .ok (Edit.substitution s.text 0 batch.edits) := by
  obtain ⟨last, hlast, hreflects⟩ | ⟨p, q, -, herror⟩ :=
    (EditBuilder.reflects_initial s rules).mendAll hids htexts findings hspans
  · rw [List.nil_append] at hreflects
    rw [mending_of_mendAll_ok hlast] at h
    obtain rfl := Except.ok.inj h
    have hbuild := hreflects.disjoint.build_spec
    rw [hreflects.snapshot_eq] at hbuild
    refine ⟨fun e => ?_, ?_, hbuild.apply_eq⟩
    · rw [hbuild.perm.mem_iff]
      exact hreflects.mem_edits_iff e
    · exact Edit.inOrder_separated hreflects.disjoint.apart hreflects.disjoint.within
  · rw [mending_of_mendAll_error herror] at h
    cases h

/-- The known rules can be loaded and a text can be evaluated. If the text is tidy, has no regions
and no characters that stand for plain letters, and its findings can be mended, then the mended text
can be evaluated and has no finding of the rules about missing alternative texts and about
drawings. -/
theorem mending_resolves (s : Snapshot) (hregions : Region.all s.text = [])
    (htidy : isTidy s.text) (hclean : ∀ c ∈ s.text, c ∉ Text.plainTwins) :
    ∃ rules e, Catalog.load [] = .ok rules ∧
      Evaluation.ofEntries? (Region.blank s.text) s (rules.map .rule) = .ok e ∧
      ∀ batch, mending s e.findings rules = .ok batch →
        ∃ t, batch.apply s.text = .ok t ∧ ∀ s' : Snapshot, s'.text = t →
          ∃ e', Evaluation.ofEntries? (Region.blank s'.text) s' (rules.map .rule) = .ok e' ∧
            ∀ f ∈ e'.findings, f.ruleId ∉ ["R1", "R2", "R3", "R5"] := by
  obtain ⟨d, hd⟩ := exists_layout htidy
  have hfindings : ∀ s : Snapshot, Region.all s.text = [] →
      (Evaluation.ofSnapshot s Guideline.rules).findings = Guideline.findings s := by
    intro s hs
    rw [Evaluation.ofSnapshot, Region.blank_of_all_eq_nil hs]
    rfl
  refine ⟨Guideline.rules, _, Catalog.load_nil, Evaluation.ofEntries?_blank s _, ?_⟩
  intro batch hbatch
  rw [hfindings s hregions] at hbatch
  obtain ⟨hedits, hseparated, happly⟩ := edits_of_mending (fun f hf => Evaluation.span_of_mem hf)
    Guideline.nodup_ids Guideline.givesText_rules hbatch
  rw [← hd] at hclean hregions
  have hmended : Edit.substitution s.text 0 batch.edits =
      (d.amend (Edit.amendment batch.edits)).text := by
    rw [← hd]
    exact Edit.substitution_eq_amend
      (fun e => Guideline.exists_amendsTag_of_mem hd hclean hedits) hseparated
  rw [hmended] at happly
  refine ⟨_, happly, fun s' hs' => ⟨_, Evaluation.ofEntries?_blank s' _, ?_⟩⟩
  intro f hf hid
  have hregions' := regions_amend (Edit.amended_amendment batch.edits) hregions
  rw [hfindings s' (hs' ▸ hregions'), Guideline.findings] at hf
  obtain ⟨m, hm, hrule⟩ : ∃ m ∈ Guideline.completions, m.rule.id = f.ruleId := List.mem_map.mp hid
  have hrules := Guideline.rule_mem (Guideline.toRemedy_mem hm)
  have hown : f ∈ (Evaluation.ofRule s'.text s' m.rule).findings := by
    rw [← Evaluation.findings_filter Guideline.nodup_ids hrules, List.mem_filter, beq_iff_eq]
    exact ⟨hf, hrule.symm⟩
  rw [hs', Guideline.findings_amend_eq_nil hd hclean hedits hseparated hm] at hown
  cases hown

/-- An image and a drawing are mended, and nothing is found then. -/
theorem mending_resolves_image_drawing :
    let s : Snapshot := { text := "<IMG src='a'/><svg></svg>".toList }
    Region.all s.text = [] ∧ isTidy s.text ∧ (∀ c ∈ s.text, c ∉ Text.plainTwins) ∧
      ∃ rules e batch t e', Catalog.load [] = .ok rules ∧
        Evaluation.ofEntries? (Region.blank s.text) s (rules.map .rule) = .ok e ∧
        mending s e.findings rules = .ok batch ∧
        batch.edits.map (·.newText) =
          ["<IMG alt=\"\" src='a'/>".toList, "<svg aria-hidden=\"true\"></svg>".toList] ∧
        batch.apply s.text = .ok t ∧
        Evaluation.ofEntries? (Region.blank t) { s with text := t } (rules.map .rule) = .ok e' ∧
        ∀ f ∈ e'.findings, f.ruleId ∉ ["R1", "R2", "R3", "R5"] := by
  intro s
  have hregions : Region.all s.text = [] := by decide +kernel
  have htidy : isTidy s.text := by decide +kernel
  have hclean : ∀ c ∈ s.text, c ∉ Text.plainTwins := by
    have hall : s.text.all (!Text.plainTwins.contains ·) := by decide +kernel
    intro c hc
    simpa using List.all_eq_true.mp hall c hc
  have hmends : (mending s (Evaluation.ofSnapshot s Guideline.rules).findings
      Guideline.rules).toOption.map (fun batch => batch.edits.map (·.newText)) =
        some ["<IMG alt=\"\" src='a'/>".toList, "<svg aria-hidden=\"true\"></svg>".toList] := by
    rw [Guideline.rules_eq_insertionSort]
    decide +kernel
  obtain ⟨rules, e, hload, heval, hresolves⟩ := mending_resolves s hregions htidy hclean
  obtain rfl := Except.ok.inj (Catalog.load_nil.symm.trans hload)
  obtain rfl := Except.ok.inj ((Evaluation.ofEntries?_blank s _).symm.trans heval)
  cases hbatch : mending s (Evaluation.ofSnapshot s Guideline.rules).findings Guideline.rules with
  | error error =>
      rw [hbatch] at hmends
      cases hmends
  | ok batch =>
      rw [hbatch] at hmends
      obtain ⟨t, happly, hagain⟩ := hresolves batch hbatch
      obtain ⟨e', heval', hnone⟩ := hagain { s with text := t } rfl
      exact ⟨hregions, htidy, hclean, _, _, batch, t, e', hload, heval, hbatch,
        Option.some.inj hmends, happly, heval', hnone⟩

end Batch

end MarkupAudit
