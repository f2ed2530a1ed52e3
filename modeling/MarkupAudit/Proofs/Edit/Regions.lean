import MarkupAudit.Proofs.Edit.Cores
import MarkupAudit.Proofs.Edit.Insertions

/-! # Mending and regions

A rule finds what is shown, but its repair sees the text with its regions. What a repair puts behind
the name of a tag stands outside the regions, since no region starts in a name. Only the repair of
the page's language may read an attribute that stands in a region; as long as it does not, all
regions stay as they are. -/

namespace MarkupAudit

open Markup Pattern

/-! ## Parts that start outside the regions -/

namespace Text

theorem drop_of_getElem? {t : Text} {q : ℕ} {c : Char} (h : t[q]? = some c) :
    t.drop q = c :: t.drop (q + 1) := by
  obtain ⟨hlt, rfl⟩ := List.getElem?_eq_some_iff.mp h
  exact List.drop_eq_getElem_cons hlt

end Text

namespace Region

/-- A part of a text starts outside the regions, with a bracket and a word character. -/
structure StartsOutside (t : Text) (p : ℕ × ℕ) (c : Char) (r : Text) : Prop where
  slice_eq : Text.slice t p.1 p.2 = '<' :: c :: r
  isWord : Text.isWord c
  not_covers : ¬Covers (all t) p.1
  start_le : p.1 ≤ p.2
  stop_le : p.2 ≤ t.length

theorem StartsOutside.char_eq {t : Text} {p : ℕ × ℕ} {c c' : Char} {r r' : Text}
    (h : StartsOutside t p c r) (h' : StartsOutside t p c' r') : c = c' := by
  have hcons := h.slice_eq.symm.trans h'.slice_eq
  exact (List.cons.inj (List.cons.inj hcons).2).1

/-- What a remedy finds in the blanked text starts outside the regions. -/
theorem exists_startsOutside {m : Remedy} (hm : m ∈ Guideline.remedies) {s : Snapshot} {t : Text}
    {f : Finding} (hf : f ∈ (Evaluation.ofRule (blank t) s m.rule).findings) :
    ∃ c r, StartsOutside t f.part c r ∧
      ∃ name ∈ m.names, name.toList.head?.any (Text.sameFold · c) := by
  rw [m.asksOf.findings_eq] at hf
  obtain ⟨x, hx, rfl⟩ := List.mem_map.mp hf
  have hisName : ∀ name ∈ m.names, IsName name :=
    fun name hname => (Guideline.isName_names m hm name hname).1
  obtain ⟨hbracket, ⟨name, hname, hspelled⟩, hlt, hle⟩ :=
    (Guideline.startsWithName_pattern hm).exists_name_of_mem_all (Guideline.names_ne_nil m hm)
      hisName (List.mem_filter.mp hx).1
  obtain ⟨hbracket, hcovers⟩ := shown_of_standsAt (by decide) hbracket
  obtain ⟨hspelled, -⟩ := shown_of_spelledAt (hisName name hname).2 hspelled
  obtain ⟨first, letters, hfirst⟩ := List.exists_cons_of_ne_nil (hisName name hname).1
  rw [hfirst, Text.spelledAt_cons, Bool.and_eq_true] at hspelled
  obtain ⟨c, hc, hsame⟩ := (Option.any_eq_true _ _).mp hspelled.1
  have halphanum : first.isAlphanum := by
    have hall := (hisName name hname).2
    rw [hfirst, List.all_cons, Bool.and_eq_true] at hall
    exact hall.1
  rw [length_blank] at hle
  have hopen : t[x.start]? = some '<' := by
    rw [Text.standsAt_singleton] at hbracket
    obtain ⟨d, hd, hmark⟩ := (Option.any_eq_true _ _).mp hbracket
    rw [hd, beq_iff_eq.mp hmark]
  obtain ⟨n, hn⟩ : ∃ n, x.stop - x.start = n + 2 := ⟨x.stop - x.start - 2, by omega⟩
  have hslice : Text.slice t x.start x.stop = '<' :: c :: (t.drop (x.start + 1 + 1)).take n := by
    rw [Text.slice_natCast, List.drop_take, hn, Text.drop_of_getElem? hopen,
      Text.drop_of_getElem? hc, List.take_succ_cons, List.take_succ_cons]
  have hstart : x.start ≤ x.stop := by omega
  refine ⟨c, _, ⟨hslice, Text.isWord_of_sameFold halphanum hsame, hcovers 0 (by decide), hstart,
    hle⟩, name, hname, ?_⟩
  rw [hfirst]
  simpa using hsame

/-- The end of the name with which a part starts outside the regions is not inside one. -/
theorem StartsOutside.nameEnd {t : Text} {p : ℕ × ℕ} {c : Char} {r name rest : Text}
    (h : StartsOutside t p c r) (hu : NamedTag (Text.slice t p.1 p.2) name rest) {region : ℕ × ℕ}
    (hregion : region ∈ all t) :
    p.1 + (name.length + 1) ≤ region.1 ∨ region.2 ≤ p.1 + (name.length + 1) := by
  by_contra hinside
  rw [not_or, Nat.not_le, Nat.not_le] at hinside
  have hbehind : p.1 < region.1 := by
    by_contra hle
    exact h.not_covers ⟨region, hregion, by omega, by omega⟩
  -- The region would start in the name, with a character that no name has.
  obtain ⟨n, hn⟩ : ∃ n, region.1 = p.1 + (n + 1) := ⟨region.1 - p.1 - 1, by omega⟩
  have hlength := Text.length_slice t p.1 h.stop_le
  have hget : (Text.slice t p.1 p.2)[n + 1]? = name[n]? := by
    rw [hu.eq_append, List.getElem?_cons_succ, List.getElem?_append_left (by omega)]
  rw [hu.eq_append, List.length_cons, List.length_append] at hlength
  have hbracket : name[n]? = some '<' := by
    rw [← hget, Text.slice_natCast, List.getElem?_drop, List.getElem?_take_of_lt (by omega), ← hn]
    exact opens_of_mem_all hregion
  have hmem := List.mem_of_getElem? hbracket
  exact absurd (hu.isNameChar '<' hmem) (by decide)

end Region

/-! ## The language of a page -/

namespace Markup

theorem length_openingTag_le (t : Text) : (openingTag t).length ≤ t.length := by
  induction t with
  | nil => exact le_refl 0
  | cons c t ih =>
      rw [openingTag]
      split
      · simp
      · exact Nat.succ_le_succ ih

theorem width_le_length {y : Text} {written : WrittenValue} (h : readValue? y = some written) :
    written.width ≤ y.length := by
  cases y with
  | nil => simp [readValue?] at h
  | cons c r =>
      rw [readValue?] at h
      split at h
      · obtain ⟨hmem, hwritten⟩ := Option.ite_none_right_eq_some.mp h
        obtain rfl := Option.some.inj hwritten
        have hlt : (r.takeWhile (· != c)).length < r.length := by
          refine lt_of_le_of_ne (List.takeWhile_prefix _).length_le fun hlength => ?_
          have hall := (List.takeWhile_prefix _).eq_of_length hlength
          have hpass : c ∈ r.takeWhile (· != c) := by
            rw [hall]
            simpa using hmem
          simpa using List.mem_takeWhile_imp hpass
        simp only [List.length_cons]
        omega
      · obtain ⟨-, hwritten⟩ := Option.ite_none_left_eq_some.mp h
        obtain rfl := Option.some.inj hwritten
        exact (List.takeWhile_prefix _).length_le

/-- The value of an attribute is written in the tag. -/
theorem valueAt?_stop_le {tag name : Text} {offset : ℕ} {written : WrittenValue}
    (h : valueAt? tag name = some (offset, written)) : offset + written.width ≤ tag.length := by
  unfold valueAt? at h
  simp only at h
  split at h
  · cases h
  · next found _ =>
      obtain ⟨value, hvalue, hpair⟩ := Option.map_eq_some_iff.mp h
      obtain ⟨rfl, rfl⟩ := Prod.mk.inj hpair
      have hwidth := width_le_length hvalue
      have hlength := length_openingTag_le tag
      have hne : (openingTag tag).drop found.stop ≠ [] := by
        intro hnil
        rw [hnil] at hvalue
        cases hvalue
      rw [List.length_drop] at hwidth
      rw [ne_eq, List.drop_eq_nil_iff, not_le] at hne
      omega

end Markup

namespace MendStep

theorem ruleId_of_ofFinding? {rules : List Rule} {f : Finding} {step : MendStep}
    (h : ofFinding? rules f = some step) : step.ruleId = f.ruleId := by
  obtain ⟨r, hr, hmap⟩ := Option.bind_eq_some_iff.mp h
  obtain ⟨repair, -, rfl⟩ := Option.map_eq_some_iff.mp hmap
  simpa using List.find?_some hr

/-- A rule that reports no part twice has at most one step at a part. -/
theorem length_stepsAt_le_one {rules : List Rule} {findings : List Finding} {p : ℕ × ℕ} {id : String}
    (hid : ∀ step ∈ stepsAt rules findings p, step.ruleId = id)
    (hparts : ((findings.filter (·.ruleId == id)).map (·.part)).Nodup) :
    (stepsAt rules findings p).length ≤ 1 := by
  have hfinding : ∀ f ∈ findings, (ofFinding? rules f).isSome && decide (f.part = p) →
      decide (f.part = p) && (f.ruleId == id) := by
    intro f hf h
    rw [Bool.and_eq_true, decide_eq_true_iff] at h
    obtain ⟨step, hstep⟩ := Option.isSome_iff_exists.mp h.1
    have hmem : step ∈ stepsAt rules findings p :=
      List.mem_filterMap.mpr ⟨f, List.mem_filter.mpr ⟨hf, by simpa using h.2⟩, hstep⟩
    simp [h.2, ← ruleId_of_ofFinding? hstep, hid step hmem]
  calc (stepsAt rules findings p).length
      = findings.countP fun f => (ofFinding? rules f).isSome && decide (f.part = p) := by
        rw [stepsAt, List.length_filterMap_eq_countP, List.countP_filter]
    _ ≤ findings.countP fun f => decide (f.part = p) && (f.ruleId == id) :=
        List.countP_mono_left hfinding
    _ = ((findings.filter (·.ruleId == id)).map (·.part)).count p := by
        rw [← List.countP_filter, List.count, List.countP_map]
        exact List.countP_congr fun f _ => by simp
    _ ≤ 1 := List.nodup_iff_count_le_one.mp hparts p

end MendStep

namespace Guideline

theorem id_of_toLower_eq : ∀ m ∈ remedies, ∀ name ∈ m.names,
    name.toList.head?.any (·.toLower == 'h') → m.rule.id = "R67" := by
  decide +kernel

/-- No other remedy finds what starts like the tag of a page. -/
theorem id_of_sameFold {m : Remedy} (hm : m ∈ remedies) {name : String} (hname : name ∈ m.names)
    {c : Char} (hc : c = 'h' ∨ c = 'H') (h : name.toList.head?.any (Text.sameFold · c)) :
    m.rule.id = "R67" := by
  refine id_of_toLower_eq m hm name hname ?_
  obtain ⟨first, hfirst, hsame⟩ := (Option.any_eq_true _ _).mp h
  have hplain : first.toNat < 128 := by
    have halpha := (isName_names m hm name hname).2
    rw [hfirst, Option.any_some] at halpha
    exact Text.plain_of_isAlphanum (by simp [Char.isAlphanum, halpha])
  have hcplain : c.toNat < 128 ∧ c.toLower = 'h' := by
    rcases hc with rfl | rfl <;> decide
  rw [Text.sameFold_of_plain hplain hcplain.1, hcplain.2, beq_iff_eq] at hsame
  rw [hfirst, Option.any_some, ← hsame, beq_self_eq_true]

theorem pageLanguage_mem : .pageLanguage ∈ remedies := by
  simp [remedies]

/-- No remedy reports a part twice. -/
theorem nodup_parts {m : Remedy} (hm : m ∈ remedies) (t : Text) (s : Snapshot) :
    ((Evaluation.ofRule t s m.rule).findings.map (·.part)).Nodup := by
  have hisName : ∀ name ∈ m.names, IsName name :=
    fun name hname => (isName_names m hm name hname).1
  have hall : ((m.pattern.all t).map fun x => (x.start, x.stop)).Nodup :=
    (startsWithName_pattern hm).nodup_all (names_ne_nil m hm) hisName
  rw [m.asksOf.findings_eq, List.map_map]
  exact hall.sublist (List.filter_sublist.map _)

variable {given : List Rule} (hknown : ∀ r ∈ given, r ∈ rules)
  (hids : (given.map (·.id)).Nodup) {s : Snapshot} {p : ℕ × ℕ}

include hknown hids

/-- Each step at a part is that of a remedy which reports the part, and the part starts outside the
regions with the first letter of a name of the remedy. -/
theorem exists_remedy_startsOutside {step : MendStep}
    (h : step ∈ MendStep.stepsAt given (Evaluation.ofSnapshot s given).findings p) :
    ∃ m ∈ remedies, m.rule ∈ given ∧ step = ⟨m.rule.id, m.mend⟩ ∧
      (∃ f ∈ (Evaluation.ofSnapshot s given).findings, f.ruleId = m.rule.id ∧ f.part = p) ∧
      ∃ c r, Region.StartsOutside s.text p c r ∧
        ∃ name ∈ m.names, name.toList.head?.any (Text.sameFold · c) := by
  obtain ⟨m, hm, hgiven, hstep, f, hf, rfl⟩ := exists_remedy_of_step hknown hids h
  have hreported : f ∈ (Evaluation.ofSnapshot s given).findings :=
    Evaluation.mem_findings_iff.mpr ⟨m.rule, hgiven, hf⟩
  exact ⟨m, hm, hgiven, hstep, ⟨f, hreported, Evaluation.ruleId_of_mem hf, rfl⟩,
    Region.exists_startsOutside hm hf⟩

/-- A part that starts with the letter of the page's tag has no steps but one, which sets the
language of the page. -/
theorem steps_eq_of_page {c : Char} {r : Text} (hstarts : Region.StartsOutside s.text p c r)
    (hpage : c = 'h' ∨ c = 'H')
    (h : MendStep.stepsAt given (Evaluation.ofSnapshot s given).findings p ≠ []) :
    MendStep.stepsAt given (Evaluation.ofSnapshot s given).findings p =
        [⟨"R67", setAttribute "lang".toList "en".toList⟩] ∧
      ∃ f ∈ (Evaluation.ofSnapshot s given).findings, f.ruleId = "R67" ∧ f.part = p := by
  have hpages : ∀ step ∈ MendStep.stepsAt given (Evaluation.ofSnapshot s given).findings p,
      Remedy.pageLanguage.rule ∈ given ∧ step = ⟨"R67", Remedy.pageLanguage.mend⟩ ∧
        ∃ f ∈ (Evaluation.ofSnapshot s given).findings, f.ruleId = "R67" ∧ f.part = p := by
    intro step hstep
    obtain ⟨m, hm, hgiven, hstep, hreported, c', r', hstarts', name, hname, hsame⟩ :=
      exists_remedy_startsOutside hknown hids hstep
    obtain rfl := hstarts.char_eq hstarts'
    have hid := id_of_sameFold hm hname hpage hsame
    obtain rfl := List.inj_on_of_nodup_map nodup_remedies hm pageLanguage_mem hid
    exact ⟨hgiven, hstep, hreported⟩
  obtain ⟨first, hfirst⟩ := List.exists_mem_of_ne_nil _ h
  obtain ⟨hgiven, rfl, hreported⟩ := hpages first hfirst
  have hone : (MendStep.stepsAt given (Evaluation.ofSnapshot s given).findings p).length ≤ 1 := by
    refine MendStep.length_stepsAt_le_one (fun step hstep => by rw [(hpages step hstep).2.1]) ?_
    have hparts := nodup_parts pageLanguage_mem (Region.blank s.text) s
    rwa [← Evaluation.findings_filter hids hgiven] at hparts
  obtain ⟨step, hstep⟩ :=
    List.length_eq_one_iff.mp (le_antisymm hone (List.length_pos_of_mem hfirst))
  rw [hstep, List.mem_singleton] at hfirst
  exact ⟨by rw [hstep, ← hfirst]; rfl, hreported⟩

/-- A part that is mended starts outside the regions, and either all of its steps insert, or its
only step sets the language of the page. -/
theorem exists_startsOutside_of_steps
    (h : MendStep.stepsAt given (Evaluation.ofSnapshot s given).findings p ≠ []) :
    ∃ c r, Region.StartsOutside s.text p c r ∧
      ((∀ step ∈ MendStep.stepsAt given (Evaluation.ofSnapshot s given).findings p,
          Inserts pieces step.mend) ∨
        MendStep.stepsAt given (Evaluation.ofSnapshot s given).findings p =
            [⟨"R67", setAttribute "lang".toList "en".toList⟩] ∧
          ∃ f ∈ (Evaluation.ofSnapshot s given).findings, f.ruleId = "R67" ∧ f.part = p) := by
  obtain ⟨first, hfirst⟩ := List.exists_mem_of_ne_nil _ h
  obtain ⟨-, -, -, -, -, c, r, hstarts, -⟩ := exists_remedy_startsOutside hknown hids hfirst
  refine ⟨c, r, hstarts, ?_⟩
  by_cases hpage : c = 'h' ∨ c = 'H'
  · exact .inr (steps_eq_of_page hknown hids hstarts hpage h)
  · left
    intro step hstep
    obtain ⟨m, hm, -, rfl, -, c', r', hstarts', name, hname, hsame⟩ :=
      exists_remedy_startsOutside hknown hids hstep
    obtain rfl := hstarts.char_eq hstarts'
    refine inserts_mend hm fun hid => hpage ?_
    obtain rfl := List.inj_on_of_nodup_map nodup_remedies hm pageLanguage_mem hid
    obtain rfl : name = "html" := List.mem_singleton.mp hname
    exact Text.eq_of_sameFold_h hsame

end Guideline

/-! ## The cores of repairs -/

namespace Region.StartsOutside

variable {t : Text} {e : Edit} {c : Char} {r : Text} (h : StartsOutside t (e.start, e.stop) c r)

include h

/-- An edit that changes nothing has its core where the part starts. -/
theorem core_of_unchanged (hnew : e.newText = Text.slice t e.start e.stop) :
    e.Core t (all t) ⟨e.start, e.start, [], []⟩ := by
  refine Edit.core_of_append [] [] _ [] h.start_le h.stop_le rfl hnew ?_
  intro region hregion
  by_contra hinside
  simp only [List.length_nil] at hinside
  exact h.not_covers ⟨region, hregion, by omega, by omega⟩

/-- Repairs that insert change nothing but what stands behind the name, where they put pieces. -/
theorem exists_core_of_inserts {pieces : List Text} {steps : List MendStep}
    (hpieces : ∀ piece ∈ pieces, piece.head? = some ' ')
    (hsteps : ∀ step ∈ steps, Inserts pieces step.mend)
    (hnew : e.newText = MendStep.compose (Text.slice t e.start e.stop) steps) :
    ∃ core, e.Core t (all t) core ∧ core.Supplies pieces fun q =>
      ∃ name rest, NamedTag (Text.slice t e.start e.stop) name rest ∧
        q = e.start + ('<' :: name).length := by
  have hslice : Text.slice t e.start e.stop = '<' :: c :: r := h.slice_eq
  by_cases hc : c.isAlpha
  · have hu := namedTag_of_isAlpha hc r
    rw [← hslice] at hu
    obtain ⟨inserted, hinserted, hcompose⟩ := MendStep.compose_of_inserts hpieces hsteps hu
    refine ⟨_, Edit.core_of_append ('<' :: _) [] _ inserted.flatten h.start_le h.stop_le
      hu.eq_append (hnew.trans hcompose) fun region hregion => h.nameEnd hu hregion, rfl,
      inserted, rfl, fun piece hpiece => ?_⟩
    exact ⟨hinserted piece hpiece, _, _, hu, rfl⟩
  · have hblank := Text.not_isBlank_of_isWord h.isWord
    have hnameless : tagHead? (Text.slice t e.start e.stop) = none := by
      rw [hslice, tagHead?_of_not_isAlpha hblank (by simpa using hc)]
    rw [MendStep.compose_of_nameless hsteps hnameless] at hnew
    exact ⟨_, h.core_of_unchanged hnew, rfl, [], rfl, by simp⟩

/-- Setting an attribute changes nothing but its value, or what stands behind the name. -/
theorem exists_core_of_setAttribute {name value : Text}
    (hnew : e.newText = setAttribute name value (Text.slice t e.start e.stop))
    (hvalue : hasAttribute (Text.slice t e.start e.stop) name → ∀ offset written,
      valueAt? (Text.slice t e.start e.stop) name = some (offset, written) →
        ∀ region ∈ all t,
          e.start + offset + written.width ≤ region.1 ∨ region.2 ≤ e.start + offset) :
    ∃ core, e.Core t (all t) core := by
  unfold setAttribute at hnew
  split at hnew
  · next hhas =>
      split at hnew
      · exact ⟨_, h.core_of_unchanged hnew⟩
      · next offset written hat =>
          set u := Text.slice t e.start e.stop
          have hstop := valueAt?_stop_le hat
          have hfront : (u.take offset).length = offset := by
            rw [List.length_take]
            omega
          have hmiddle : ((u.drop offset).take written.width).length = written.width := by
            rw [List.length_take, List.length_drop]
            omega
          have hu : u = u.take offset ++
              ((u.drop offset).take written.width ++ u.drop (offset + written.width)) := by
            rw [← List.drop_drop, List.take_append_drop, List.take_append_drop]
          refine ⟨_, Edit.core_of_append _ _ _ ('"' :: (value ++ ['"'])) h.start_le h.stop_le hu
            (hnew.trans (by simp)) ?_⟩
          rw [hfront, hmiddle]
          exact hvalue hhas offset written hat
  · let step : MendStep := ⟨"", insertAttribute name (some value)⟩
    have hstep : ∀ x ∈ [step], Inserts [' ' :: writeAttribute name (some value)] x.mend :=
      List.forall_mem_singleton.mpr (inserts_insertAttribute (List.mem_singleton.mpr rfl))
    obtain ⟨core, hcore, -⟩ :=
      h.exists_core_of_inserts (List.forall_mem_singleton.mpr rfl) hstep hnew
    exact ⟨core, hcore⟩

end Region.StartsOutside

namespace Guideline

/-- The value that the repair of a page's language would replace stands outside the regions. -/
def LanguageOutside (t : Text) (p : ℕ × ℕ) : Prop :=
  hasAttribute (Text.slice t p.1 p.2) "lang".toList → ∀ offset written,
    valueAt? (Text.slice t p.1 p.2) "lang".toList = some (offset, written) →
      ∀ r ∈ Region.all t, p.1 + offset + written.width ≤ r.1 ∨ r.2 ≤ p.1 + offset

/-- Each edit that mends findings has a core outside the regions. -/
theorem exists_core {given : List Rule} (hknown : ∀ r ∈ given, r ∈ rules)
    (hids : (given.map (·.id)).Nodup) {s : Snapshot} {p : ℕ × ℕ}
    (hlanguage : ∀ f ∈ (Evaluation.ofSnapshot s given).findings, f.ruleId = "R67" →
      LanguageOutside s.text f.part)
    (h : Edit.Changes s given (Evaluation.ofSnapshot s given).findings p) :
    ∃ core, (Edit.composed s given (Evaluation.ofSnapshot s given).findings p).Core s.text
      (Region.all s.text) core := by
  obtain ⟨c, r, hstarts, hinserts | ⟨hstep, f, hf, hid, rfl⟩⟩ :=
    exists_startsOutside_of_steps hknown hids h.steps_ne_nil
  · obtain ⟨core, hcore, -⟩ := Region.StartsOutside.exists_core_of_inserts
      (e := Edit.composed s given (Evaluation.ofSnapshot s given).findings p) hstarts
      head?_of_mem_pieces hinserts rfl
    exact ⟨core, hcore⟩
  · have hnew : (Edit.composed s given (Evaluation.ofSnapshot s given).findings f.part).newText =
        setAttribute "lang".toList "en".toList (Text.slice s.text f.part.1 f.part.2) := by
      change MendStep.compose _ _ = _
      rw [hstep, MendStep.compose_singleton]
    exact Region.StartsOutside.exists_core_of_setAttribute hstarts hnew (hlanguage f hf hid)

end Guideline

/-! ## Mending keeps regions -/

namespace Batch

/-- The edits of a batch that mends what some of the known rules find. -/
theorem edits_of_mending_known {given : List Rule} (hknown : ∀ r ∈ given, r ∈ Guideline.rules)
    (hids : (given.map (·.id)).Nodup) {s : Snapshot} {batch : Batch}
    (h : mending s (Evaluation.ofSnapshot s given).findings given = .ok batch) :
    (∀ e, e ∈ batch.edits ↔
        ∃ p, Edit.Changes s given (Evaluation.ofSnapshot s given).findings p ∧
          e = Edit.composed s given (Evaluation.ofSnapshot s given).findings p) ∧
      batch.edits.Pairwise (fun e f => e.stop ≤ f.start) ∧
      batch.apply s.text = .ok (Edit.substitution s.text 0 batch.edits) := by
  refine edits_of_mending (fun f hf => ?_) hids
    (fun r hr => Guideline.givesText_rules r (hknown r hr)) h
  have hspan := Evaluation.span_of_mem hf
  rwa [Region.length_blank] at hspan

/-- The known rules can be loaded and a text can be evaluated. If its findings can be mended and no
language is set in a region, then the mended text has the regions of the text, in their order, and
no edit changes anything in a region. -/
theorem mending_keeps_regions (s : Snapshot) :
    ∃ rules e, Catalog.load [] = .ok rules ∧
      Evaluation.ofEntries? (Region.blank s.text) s (rules.map .rule) = .ok e ∧
      ∀ batch, mending s e.findings rules = .ok batch →
        (∀ f ∈ e.findings, f.ruleId = "R67" → Guideline.LanguageOutside s.text f.part) →
          (∃ t, batch.apply s.text = .ok t ∧
            Text.OccurInOrder ((Region.all s.text).map fun r => Text.slice s.text r.1 r.2) t) ∧
          ∀ edit ∈ batch.edits, ∃ core, edit.Core s.text (Region.all s.text) core := by
  refine ⟨Guideline.rules, _, Catalog.load_nil, Evaluation.ofEntries?_blank s _, ?_⟩
  intro batch hbatch hlanguage
  obtain ⟨hedits, hseparated, happly⟩ :=
    edits_of_mending_known (fun _ => id) Guideline.nodup_ids hbatch
  have hcores : ∀ edit ∈ batch.edits, ∃ core, edit.Core s.text (Region.all s.text) core := by
    intro edit hedit
    obtain ⟨p, hchanges, rfl⟩ := (hedits edit).mp hedit
    exact Guideline.exists_core (fun _ => id) Guideline.nodup_ids hlanguage hchanges
  refine ⟨⟨_, happly, ?_⟩, hcores⟩
  choose! coreOf hcore using hcores
  rw [Edit.substitution_cores hcore hseparated fun _ _ => Nat.zero_le _]
  refine Edit.occurInOrder_substitution (Region.all_ordered s.text) ?_
    (Edit.separated_cores hcore hseparated) ?_
  · exact List.forall_mem_map.mpr fun edit hedit => (hcore edit hedit).start_le_stop
  · exact List.forall_mem_map.mpr fun edit hedit => (hcore edit hedit).outside

/-- A comment in the tag of a page stays as it is when the page gets a language. -/
theorem mending_keeps_regions_comment :
    let s : Snapshot := { text := "<html lang=\"\" <!-- page -->>".toList }
    Region.all s.text = [(14, 27)] ∧
      ∃ rules e batch t, Catalog.load [] = .ok rules ∧
        Evaluation.ofEntries? (Region.blank s.text) s (rules.map .rule) = .ok e ∧
        mending s e.findings rules = .ok batch ∧
        batch.edits.map (·.newText) = ["<html lang=\"en\" <!-- page -->>".toList] ∧
        (∀ f ∈ e.findings, f.ruleId = "R67" → Guideline.LanguageOutside s.text f.part) ∧
        batch.apply s.text = .ok t ∧ Text.OccurInOrder ["<!-- page -->".toList] t := by
  intro s
  have hregions : Region.all s.text = [(14, 27)] := by decide +kernel
  have hmends : (mending s (Evaluation.ofSnapshot s Guideline.rules).findings
      Guideline.rules).toOption.map (fun batch => batch.edits.map (·.newText)) =
        some ["<html lang=\"en\" <!-- page -->>".toList] := by
    rw [Guideline.rules_eq_insertionSort]
    decide +kernel
  have hvalues : ∀ f ∈ (Evaluation.ofSnapshot s Guideline.rules).findings, f.ruleId = "R67" →
      f.part.1 = 0 ∧ (valueAt? (Text.slice s.text f.part.1 f.part.2) "lang".toList).map
        (fun value => value.1 + value.2.width) = some 13 := by
    rw [Guideline.rules_eq_insertionSort]
    decide +kernel
  obtain ⟨rules, e, hload, heval, hkeeps⟩ := mending_keeps_regions s
  obtain rfl := Except.ok.inj (Catalog.load_nil.symm.trans hload)
  obtain rfl := Except.ok.inj ((Evaluation.ofEntries?_blank s _).symm.trans heval)
  have hlanguage : ∀ f ∈ (Evaluation.ofSnapshot s Guideline.rules).findings, f.ruleId = "R67" →
      Guideline.LanguageOutside s.text f.part := by
    intro f hf hid _ offset written hvalue r hr
    obtain ⟨hstart, hstop⟩ := hvalues f hf hid
    rw [hvalue] at hstop
    have hbefore : offset + written.width = 13 := Option.some.inj hstop
    rw [hregions, List.mem_singleton] at hr
    subst hr
    omega
  obtain ⟨batch, hbatch, hnew⟩ := exists_ok_of_map_toOption hmends
  obtain ⟨⟨t, happly, hoccur⟩, -⟩ := hkeeps batch hbatch hlanguage
  rw [hregions] at hoccur
  exact ⟨hregions, _, _, batch, t, hload, heval, hbatch, hnew, hlanguage, happly, hoccur⟩

/-- A comment in the tag of a page that speaks of a language is rewritten. -/
theorem mending_rewrites_comment :
    let s : Snapshot := { text := "<html <!-- lang=\"\" --> >".toList }
    Region.all s.text = [(6, 22)] ∧
      ∃ rules e batch t, Catalog.load [] = .ok rules ∧
        Evaluation.ofEntries? (Region.blank s.text) s (rules.map .rule) = .ok e ∧
        mending s e.findings rules = .ok batch ∧ batch.apply s.text = .ok t ∧
        String.ofList t = "<html <!-- lang=\"en\" --> >" ∧
        ¬Text.OccurInOrder ((Region.all s.text).map fun r => Text.slice s.text r.1 r.2) t := by
  intro s
  have hregions : Region.all s.text = [(6, 22)] := by decide +kernel
  have hmends : (mending s (Evaluation.ofSnapshot s Guideline.rules).findings
      Guideline.rules).toOption.map (fun batch => Edit.substitution s.text 0 batch.edits) =
        some "<html <!-- lang=\"en\" --> >".toList := by
    rw [Guideline.rules_eq_insertionSort]
    decide +kernel
  obtain ⟨batch, hbatch, hsubstitution⟩ := exists_ok_of_map_toOption hmends
  obtain ⟨-, -, happly⟩ := edits_of_mending_known (fun _ => id) Guideline.nodup_ids hbatch
  refine ⟨hregions, Guideline.rules, Evaluation.ofSnapshot s Guideline.rules, batch,
    "<html <!-- lang=\"en\" --> >".toList, Catalog.load_nil, Evaluation.ofEntries?_blank s _, hbatch,
    happly.trans (congrArg Except.ok hsubstitution), String.ofList_toList, ?_⟩
  have hslice : Text.slice s.text 6 22 = "<!-- lang=\"\" -->".toList := by decide +kernel
  have habsent : ¬"<!-- lang=\"\" -->".toList <:+: "<html <!-- lang=\"en\" --> >".toList := by
    decide +kernel
  rw [hregions]
  rintro ⟨before, rest, heq, -⟩
  rw [← hslice] at habsent
  exact habsent ⟨before, rest, by rw [heq, List.append_assoc]; rfl⟩

end Batch

end MarkupAudit
