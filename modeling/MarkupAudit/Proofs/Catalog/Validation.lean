import MarkupAudit.Proofs.Catalog.Resolution
import MarkupAudit.Proofs.Edit.Resolution

/-! # Validation of catalogues

A catalogue is accepted exactly if it has entries, all of them are rules that are well formed, and
no two have the same id. Otherwise the flaw that is told is that of the first entry that has one,
given the entries before it, and of the first check that this entry does not pass. An accepted
catalogue has one place in its index for each rule. -/

namespace MarkupAudit

/-- An id is the letter R and decimal digits, perhaps with a line feed after them. -/
def IsRuleId (id : String) : Prop :=
  ∃ digits : Text, digits ≠ [] ∧ (∀ c ∈ digits, Text.isDecimal c) ∧
    (id.toList = 'R' :: digits ∨ id.toList = 'R' :: digits ++ ['\n'])

/-- What is asked of a rule besides an id that no rule before it has. -/
structure Rule.WellFormed (r : Rule) : Prop where
  id : IsRuleId r.id
  level : r.level ∈ ["A", "AA", "AAA"]
  pattern : r.pattern.isSome
  condition : r.applies.isSome
  repair : r.repair ≠ some .notCallable

/-! ## The checks of a rule -/

/-- A check that a rule is put to. -/
inductive RuleCheck where
  | id
  | newId
  | level
  | pattern
  | condition
  | repair
deriving DecidableEq

namespace RuleCheck

/-- The checks in the order in which a rule is put to them. -/
def inOrder : List RuleCheck := [.id, .newId, .level, .pattern, .condition, .repair]

/-- The rule passes the check, after rules with the ids `seen`. -/
def Passed (seen : List String) (r : Rule) : RuleCheck → Prop
  | .id => IsRuleId r.id
  | .newId => r.id ∉ seen
  | .level => r.level ∈ ["A", "AA", "AAA"]
  | .pattern => r.pattern.isSome
  | .condition => r.applies.isSome
  | .repair => r.repair ≠ some .notCallable

/-- What is told of a rule that does not pass the check. -/
def error (r : Rule) : RuleCheck → CatalogError
  | .id => .badId r.id
  | .newId => .duplicateId r.id
  | .level => .unknownLevel r.id r.level
  | .pattern => .noPattern r.id
  | .condition => .badCondition r.id
  | .repair => .badRepair r.id

end RuleCheck

/-- What is wrong with an entry that comes after rules with the ids `seen`: it is not a rule, or
there is a first check that it does not pass. -/
inductive FirstFlaw (seen : List String) : CatalogEntry → CatalogError → Prop where
  | notRule (v : Json.Value) : FirstFlaw seen (.other v) (.notRule v)
  | check {r : Rule} {earlier later : List RuleCheck} {check : RuleCheck}
      (inOrder_eq : RuleCheck.inOrder = earlier ++ check :: later)
      (passed : ∀ c ∈ earlier, c.Passed seen r) (failed : ¬ check.Passed seen r) :
      FirstFlaw seen (.rule r) (check.error r)

/-- What is wrong with an entry depends only on which ids come before it. -/
theorem FirstFlaw.congr {seen others : List String} (hsame : ∀ id, id ∈ seen ↔ id ∈ others)
    {entry : CatalogEntry} {e : CatalogError} (h : FirstFlaw seen entry e) :
    FirstFlaw others entry e := by
  have hpassed : ∀ (r : Rule) (check : RuleCheck),
      check.Passed seen r ↔ check.Passed others r := by
    intro r check
    cases check <;> simp [RuleCheck.Passed, hsame]
  cases h with
  | notRule v => exact .notRule v
  | check horder hearlier hfailed =>
      exact .check horder (fun c hc => (hpassed _ c).mp (hearlier c hc))
        (fun h => hfailed ((hpassed _ _).mpr h))

namespace Catalog

theorem withoutLastLineFeed_eq_iff {t u : Text} (hu : u.getLast? ≠ some '\n') :
    withoutLastLineFeed t = u ↔ t = u ∨ t = u ++ ['\n'] := by
  unfold withoutLastLineFeed
  split
  · next hlast =>
      obtain ⟨v, rfl⟩ := List.getLast?_eq_some_iff.mp hlast
      rw [List.dropLast_concat, List.append_left_inj]
      refine ⟨.inr, ?_⟩
      rintro (rfl | h)
      · exact absurd hlast hu
      · exact h
  · next hlast =>
      refine ⟨.inl, ?_⟩
      rintro (h | rfl)
      · exact h
      · exact absurd (List.getLast?_concat) hlast

theorem not_isDecimal_lineFeed : Text.isDecimal '\n' = false := by decide

theorem isRuleId_iff {id : String} : isRuleId id ↔ IsRuleId id := by
  unfold isRuleId IsRuleId
  have hlast : ∀ {digits : Text}, (∀ c ∈ digits, Text.isDecimal c) →
      ('R' :: digits).getLast? ≠ some '\n' := by
    intro digits hdigits h
    rcases List.mem_cons.mp (List.mem_of_getLast? h) with hfirst | hmem
    · exact absurd hfirst (by decide)
    · simpa [not_isDecimal_lineFeed] using hdigits _ hmem
  constructor
  · intro h
    split at h
    · next digits hid =>
        simp only [Bool.and_eq_true, Bool.not_eq_true', List.isEmpty_eq_false_iff,
          List.all_eq_true] at h
        exact ⟨digits, h.1, h.2, (withoutLastLineFeed_eq_iff (hlast h.2)).mp hid⟩
    · cases h
  · rintro ⟨digits, hne, hdigits, hid⟩
    rw [(withoutLastLineFeed_eq_iff (hlast hdigits)).mpr hid]
    simpa [hne] using hdigits

theorem isSome_named?_iff {s : String} : (Level.named? s).isSome ↔ s ∈ ["A", "AA", "AAA"] := by
  have hnames : ["A", "AA", "AAA"] = Level.all.map Level.name := rfl
  simp only [Option.isSome_iff_exists, Level.named?_eq_some_iff, hnames, List.mem_map]
  refine exists_congr fun level => ?_
  rw [iff_and_self]
  intro _
  cases level <;> decide

theorem isUsable_iff {repair : Option Repair} : isUsable repair ↔ repair ≠ some .notCallable := by
  unfold isUsable
  split
  · simp
  · next h => simpa using h

end Catalog

theorem Rule.complete_iff {r : Rule} : r.Complete ↔ r.WellFormed := by
  constructor
  · intro h
    exact ⟨Catalog.isRuleId_iff.mp h.isRuleId, Catalog.isSome_named?_iff.mp h.level, h.pattern,
      h.applies, Catalog.isUsable_iff.mp h.isUsable⟩
  · intro h
    exact ⟨Catalog.isRuleId_iff.mpr h.id, Catalog.isSome_named?_iff.mpr h.level, h.pattern,
      h.condition, Catalog.isUsable_iff.mpr h.repair⟩

namespace RuleCheck

instance (seen : List String) (r : Rule) : DecidablePred (Passed seen r)
  | .id => decidable_of_iff _ Catalog.isRuleId_iff
  | .newId => inferInstanceAs (Decidable (r.id ∉ seen))
  | .level => inferInstanceAs (Decidable (r.level ∈ ["A", "AA", "AAA"]))
  | .pattern => inferInstanceAs (Decidable (r.pattern.isSome = true))
  | .condition => inferInstanceAs (Decidable (r.applies.isSome = true))
  | .repair => decidable_of_iff _ Catalog.isUsable_iff

end RuleCheck

namespace Catalog

/-! ## The first flaw of a rule -/

theorem flaw?_eq_find? (seen : List String) (r : Rule) :
    flaw? seen r =
      (RuleCheck.inOrder.find? fun check => ¬ check.Passed seen r).map (RuleCheck.error r) := by
  simp only [RuleCheck.inOrder, List.find?_cons, List.find?_nil, RuleCheck.Passed, ← isRuleId_iff,
    ← isSome_named?_iff, ← isUsable_iff]
  unfold flaw?
  split_ifs <;> simp_all [RuleCheck.error]

theorem flaw?_eq_some_iff {seen : List String} {r : Rule} {e : CatalogError} :
    flaw? seen r = some e ↔ FirstFlaw seen (.rule r) e := by
  rw [flaw?_eq_find?, Option.map_eq_some_iff]
  constructor
  · rintro ⟨check, hfind, rfl⟩
    obtain ⟨hfailed, earlier, later, horder, hpassed⟩ := List.find?_eq_some_iff_append.mp hfind
    exact .check horder (by simpa using hpassed) (by simpa using hfailed)
  · rintro ⟨⟩
    next earlier later check horder hpassed hfailed =>
      refine ⟨check, List.find?_eq_some_iff_append.mpr ⟨?_, earlier, later, horder, ?_⟩, rfl⟩
      · simpa using hfailed
      · simpa using hpassed

/-! ## The first entry with a flaw -/

/-- After rules without flaws, the ids of these rules are seen. -/
theorem checkFrom_append {seen : List String} {before : List Rule}
    (h : checkFrom seen (before.map .rule) = .ok before) (entries : List CatalogEntry) :
    checkFrom seen (before.map .rule ++ entries) =
      (checkFrom ((before.map (·.id)).reverse ++ seen) entries).map (before ++ ·) := by
  induction before generalizing seen with
  | nil => cases hentries : checkFrom seen entries <;> simp [hentries, Except.map]
  | cons r before ih =>
      rw [List.map_cons] at h
      unfold checkFrom at h
      cases hflaw : flaw? seen r with
      | some e => simp [hflaw] at h
      | none =>
          cases hrest : checkFrom (r.id :: seen) (before.map .rule) with
          | error e => simp [hflaw, hrest] at h
          | ok rest =>
              have hsame : rest = before := by simpa [hflaw, hrest] using h
              rw [List.map_cons, List.cons_append, checkFrom]
              simp only [hflaw, ih (hsame ▸ hrest)]
              rw [List.map_cons, List.reverse_cons, List.append_assoc, List.singleton_append]
              cases checkFrom ((before.map (·.id)).reverse ++ r.id :: seen) entries <;> rfl

theorem checkFrom_eq_error_iff {seen : List String} {entries : List CatalogEntry}
    {e : CatalogError} :
    checkFrom seen entries = .error e ↔ ∃ before entry after,
      entries = before.map .rule ++ entry :: after ∧
        checkFrom seen (before.map .rule) = .ok before ∧
        FirstFlaw ((before.map (·.id)).reverse ++ seen) entry e := by
  constructor
  · intro h
    induction entries generalizing seen with
    | nil => cases h
    | cons entry entries ih =>
        cases entry with
        | other v =>
            obtain rfl := Except.error.inj h
            exact ⟨[], .other v, entries, rfl, rfl, .notRule v⟩
        | rule r =>
            unfold checkFrom at h
            cases hflaw : flaw? seen r with
            | some e' =>
                simp only [hflaw, Except.error.injEq] at h
                subst h
                exact ⟨[], .rule r, entries, rfl, rfl, flaw?_eq_some_iff.mp hflaw⟩
            | none =>
                cases hrest : checkFrom (r.id :: seen) entries with
                | ok rules => simp [hflaw, hrest] at h
                | error e' =>
                    simp only [hflaw, hrest, Except.error.injEq] at h
                    subst h
                    obtain ⟨before, entry, after, rfl, hbefore, hfirst⟩ := ih hrest
                    refine ⟨r :: before, entry, after, rfl, ?_, by simpa using hfirst⟩
                    simp [checkFrom, hflaw, hbefore]
  · rintro ⟨before, entry, after, rfl, hbefore, hfirst⟩
    rw [checkFrom_append hbefore]
    cases entry with
    | other v =>
        cases hfirst
        rfl
    | rule r => simp [checkFrom, flaw?_eq_some_iff.mpr hfirst, Except.map]

end Catalog

/-! ## The index of a catalogue -/

namespace Text

theorem foldl_distinct {names seen : List String} (h : (seen ++ names).Nodup) :
    names.foldl (fun seen name => if seen.contains name then seen else seen ++ [name]) seen =
      seen ++ names := by
  induction names generalizing seen with
  | nil => simp
  | cons name names ih =>
      have hnew : name ∉ seen := by
        intro hmem
        exact (List.nodup_append.mp h).2.2 name hmem name (by simp) rfl
      rw [List.foldl_cons, if_neg (by simpa using hnew), ih (by simpa using h)]
      simp

theorem distinct_of_nodup {names : List String} (h : names.Nodup) : distinct names = names :=
  foldl_distinct (by simpa using h)

end Text

namespace Catalog

theorem ruleFor?_of_mem {rules : List Rule} (hids : (rules.map (·.id)).Nodup) {r : Rule}
    (hr : r ∈ rules) : EditBuilder.ruleFor? rules r.id = some r := by
  rw [EditBuilder.ruleFor?_eq_find? hids, Rule.find?_eq_of_nodup hids hr]

theorem index_of_nodup {rules : List Rule} (hids : (rules.map (·.id)).Nodup) :
    index rules = rules.map fun r => (r.id, r) := by
  rw [index, Text.distinct_of_nodup hids, List.filterMap_map, ← List.filterMap_eq_map]
  refine List.filterMap_congr fun r hr => ?_
  have hlast : rules.reverse.find? (fun x => x.id == r.id) = some r := ruleFor?_of_mem hids hr
  simp [hlast]

theorem lookup_index {rules : List Rule} (hids : (rules.map (·.id)).Nodup) {r : Rule}
    (hr : r ∈ rules) : (index rules).lookup r.id = some r := by
  rw [index_of_nodup hids, List.lookup_eq_some_iff]
  obtain ⟨before, after, rfl⟩ := List.append_of_mem hr
  refine ⟨before.map fun x => (x.id, x), after.map fun x => (x.id, x), by simp, ?_⟩
  rw [List.map_append, List.nodup_append] at hids
  rintro entry hentry
  obtain ⟨x, hx, rfl⟩ := List.mem_map.mp hentry
  have hne := hids.2.2 x.id (List.mem_map_of_mem hx) r.id (by simp)
  simpa using hne.symm

/-! ## Catalogues -/

theorem validate_eq_ok_iff {entries : List CatalogEntry} {rules : List Rule} :
    validate entries = .ok rules ↔ entries = rules.map .rule ∧ rules ≠ [] ∧
      (∀ r ∈ rules, r.WellFormed) ∧ (rules.map (·.id)).Nodup := by
  simp only [← Rule.complete_iff]
  exact validate_eq_ok_iff_complete

theorem validate_eq_error_iff {entries : List CatalogEntry} {e : CatalogError} :
    validate entries = .error e ↔ entries = [] ∧ e = .empty ∨
      ∃ (before : List Rule) (entry : CatalogEntry) (after : List CatalogEntry),
        entries = before.map .rule ++ entry :: after ∧ (∀ r ∈ before, r.WellFormed) ∧
        (before.map (·.id)).Nodup ∧ FirstFlaw (before.map (·.id)) entry e := by
  have hfrom : checkFrom [] entries = .error e ↔
      ∃ (before : List Rule) (entry : CatalogEntry) (after : List CatalogEntry),
        entries = before.map .rule ++ entry :: after ∧ (∀ r ∈ before, r.WellFormed) ∧
        (before.map (·.id)).Nodup ∧ FirstFlaw (before.map (·.id)) entry e := by
    rw [checkFrom_eq_error_iff]
    refine exists_congr fun before => exists_congr fun entry => exists_congr fun after =>
      and_congr_right fun _ => ?_
    rw [← and_assoc, checkFrom_eq_ok_iff]
    simp only [Rule.complete_iff, true_and, List.not_mem_nil, not_false_eq_true, implies_true,
      and_true]
    exact and_congr_right fun _ => ⟨.congr (by simp), .congr (by simp)⟩
  cases entries with
  | nil => simp [validate, eq_comm]
  | cons entry entries => simpa [validate] using hfrom

/-- A catalogue gives its rules exactly if there are some, all are well formed and their ids are
distinct. Otherwise what is told is that there are none, or the first flaw of the first entry that
has one after the rules before it. The index of a catalogue that gives its rules has a key for each
of them, in their order, and finds for it the rule that the repair of a finding goes by. -/
theorem gives_rules_or_first_flaw (entries : List CatalogEntry) :
    (∀ rules, validate entries = .ok rules ↔
      entries = rules.map .rule ∧ rules ≠ [] ∧ (∀ r ∈ rules, r.WellFormed) ∧
        (rules.map (·.id)).Nodup) ∧
    (∀ e, validate entries = .error e ↔
      entries = [] ∧ e = .empty ∨
        ∃ (before : List Rule) (entry : CatalogEntry) (after : List CatalogEntry),
          entries = before.map .rule ++ entry :: after ∧ (∀ r ∈ before, r.WellFormed) ∧
          (before.map (·.id)).Nodup ∧ FirstFlaw (before.map (·.id)) entry e) ∧
    ∀ rules, validate entries = .ok rules →
      index rules = rules.map (fun r => (r.id, r)) ∧ ((index rules).map (·.1)).Nodup ∧
        ∀ r ∈ rules, (index rules).lookup r.id = some r ∧
          EditBuilder.ruleFor? rules r.id = some r := by
  refine ⟨fun rules => validate_eq_ok_iff, fun e => validate_eq_error_iff, fun rules h => ?_⟩
  obtain ⟨-, -, -, hids⟩ := validate_eq_ok_iff.mp h
  have hkeys : (index rules).map (·.1) = rules.map (·.id) := by
    rw [index_of_nodup hids, List.map_map]
    rfl
  exact ⟨index_of_nodup hids, hkeys ▸ hids, fun r hr =>
    ⟨lookup_index hids hr, ruleFor?_of_mem hids hr⟩⟩

/-- An id may end with a line feed, and an id that was seen before is told before a level that is
unknown and before what comes after it. -/
theorem gives_rules_or_first_flaw_line_feed :
    let first := Guideline.TextAlternatives.image
    let second := { first with id := "R1\n" }
    let third := { first with level := "B" }
    validate [.rule first, .rule second] = .ok [first, second] ∧
      (index [first, second]).lookup "R1\n" = some second ∧
      validate [.rule first, .rule third, .other .null] = .error (.duplicateId "R1") := by
  intro first second third
  have hfirst : first.WellFormed := Rule.complete_iff.mp ⟨by decide, by decide, rfl, rfl, rfl⟩
  have hsecond : second.WellFormed := Rule.complete_iff.mp ⟨by decide, by decide, rfl, rfl, rfl⟩
  have hgives : validate [.rule first, .rule second] = .ok [first, second] :=
    ((gives_rules_or_first_flaw _).1 _).mpr
      ⟨rfl, by simp, by simp [hfirst, hsecond], by decide⟩
  refine ⟨hgives, ?_, ?_⟩
  · exact (((gives_rules_or_first_flaw _).2.2 _ hgives).2.2 second (by simp)).1
  · refine ((gives_rules_or_first_flaw _).2.1 _).mpr
      (.inr ⟨[first], .rule third, [.other .null], rfl, by simp [hfirst], by simp, ?_⟩)
    have horder : RuleCheck.inOrder =
        [.id] ++ .newId :: [.level, .pattern, .condition, .repair] := rfl
    have hpassed : ∀ c ∈ [RuleCheck.id], c.Passed ["R1"] third :=
      List.forall_mem_singleton.mpr hfirst.id
    exact .check horder hpassed (by decide)

end Catalog

end MarkupAudit
