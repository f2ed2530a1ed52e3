import MarkupAudit.Catalog
import Mathlib.Data.List.Basic

/-! # Complete rules

A rule is complete if it has all that an evaluation and a repair ask of it. Entries are accepted as a
catalogue exactly if there are some and they are complete rules with distinct ids. -/

namespace MarkupAudit

/-- The rule has all that an evaluation and a repair ask of it. -/
structure Rule.Complete (r : Rule) : Prop where
  isRuleId : Catalog.isRuleId r.id
  level : (Level.named? r.level).isSome
  pattern : r.pattern.isSome
  applies : r.applies.isSome
  isUsable : Catalog.isUsable r.repair

namespace Catalog

theorem flaw?_eq_none_iff {seen : List String} {r : Rule} :
    flaw? seen r = none ↔ r.Complete ∧ r.id ∉ seen := by
  unfold flaw?
  constructor
  · intro h
    split_ifs at h with hid hseen hlevel hpattern happlies hrepair
    refine ⟨⟨by simpa using hid, ?_, ?_, ?_, by simpa using hrepair⟩, by simpa using hseen⟩
    · simpa [Option.isSome_iff_ne_none] using hlevel
    · simpa [Option.isSome_iff_ne_none] using hpattern
    · simpa [Option.isSome_iff_ne_none] using happlies
  · rintro ⟨⟨hid, hlevel, hpattern, happlies, hrepair⟩, hseen⟩
    have hnone : ∀ {α : Type} {o : Option α}, o.isSome → ¬ o.isNone := by
      intro α o h
      cases o <;> simp_all
    simp [hid, hseen, hnone hlevel, hnone hpattern, hnone happlies, hrepair]

theorem checkFrom_of_complete {seen : List String} {rules : List Rule}
    (hcomplete : ∀ r ∈ rules, r.Complete) (hids : (rules.map (·.id)).Nodup)
    (hseen : ∀ r ∈ rules, r.id ∉ seen) : checkFrom seen (rules.map .rule) = .ok rules := by
  induction rules generalizing seen with
  | nil => rfl
  | cons r rules ih =>
      rw [List.map_cons, List.nodup_cons] at hids
      obtain ⟨hr, hrest⟩ := List.forall_mem_cons.mp hcomplete
      obtain ⟨hnew, hothers⟩ := List.forall_mem_cons.mp hseen
      have hflaw : flaw? seen r = none := flaw?_eq_none_iff.mpr ⟨hr, hnew⟩
      have hunseen : ∀ x ∈ rules, x.id ∉ r.id :: seen := by
        intro x hx hmem
        rcases List.mem_cons.mp hmem with heq | hmem
        · exact hids.1 (heq ▸ List.mem_map_of_mem hx)
        · exact hothers x hx hmem
      simp [checkFrom, hflaw, ih hrest hids.2 hunseen]

/-- Entries are accepted after rules that were seen exactly if they are complete rules with distinct
ids of their own. -/
theorem checkFrom_eq_ok_iff {seen : List String} {entries : List CatalogEntry}
    {rules : List Rule} :
    checkFrom seen entries = .ok rules ↔ entries = rules.map .rule ∧
      (∀ r ∈ rules, r.Complete) ∧ (rules.map (·.id)).Nodup ∧ ∀ r ∈ rules, r.id ∉ seen := by
  constructor
  · intro h
    induction entries generalizing seen rules with
    | nil =>
        obtain rfl := Except.ok.inj h
        simp
    | cons entry entries ih =>
        cases entry with
        | other v => cases h
        | rule r =>
            unfold checkFrom at h
            cases hflaw : flaw? seen r with
            | some e => simp [hflaw] at h
            | none =>
                cases hrest : checkFrom (r.id :: seen) entries with
                | error e => simp [hflaw, hrest] at h
                | ok rest =>
                    simp only [hflaw, hrest, Except.ok.injEq] at h
                    subst h
                    obtain ⟨rfl, hcomplete, hids, hseen⟩ := ih hrest
                    obtain ⟨hr, hnew⟩ := flaw?_eq_none_iff.mp hflaw
                    refine ⟨rfl, List.forall_mem_cons.mpr ⟨hr, hcomplete⟩, ?_, ?_⟩
                    · rw [List.map_cons, List.nodup_cons, List.mem_map]
                      refine ⟨?_, hids⟩
                      rintro ⟨x, hx, hid⟩
                      exact hseen x hx (by simp [hid])
                    · refine List.forall_mem_cons.mpr ⟨hnew, fun x hx hmem => ?_⟩
                      exact hseen x hx (List.mem_cons_of_mem _ hmem)
  · rintro ⟨rfl, hcomplete, hids, hseen⟩
    exact checkFrom_of_complete hcomplete hids hseen

theorem validate_eq_ok_iff_complete {entries : List CatalogEntry} {rules : List Rule} :
    validate entries = .ok rules ↔ entries = rules.map .rule ∧ rules ≠ [] ∧
      (∀ r ∈ rules, r.Complete) ∧ (rules.map (·.id)).Nodup := by
  unfold validate
  constructor
  · intro h
    split at h
    · cases h
    · next hne =>
        obtain ⟨rfl, hcomplete, hids, -⟩ := checkFrom_eq_ok_iff.mp h
        exact ⟨rfl, by simpa using hne, hcomplete, hids⟩
  · rintro ⟨rfl, hne, hcomplete, hids⟩
    rw [if_neg (by simpa using hne)]
    exact checkFrom_of_complete hcomplete hids (by simp)

theorem validate_rules {rules checked : List Rule} (h : validate (rules.map .rule) = .ok checked) :
    checked = rules ∧ ∀ r ∈ rules, r.Complete := by
  obtain ⟨hentries, -, hcomplete, -⟩ := validate_eq_ok_iff_complete.mp h
  obtain rfl : rules = checked :=
    List.map_injective_iff.mpr (fun _ _ => CatalogEntry.rule.inj) hentries
  exact ⟨rfl, hcomplete⟩

/-- Complete rules with distinct ids make a catalogue without flaws. -/
theorem validate_of_complete {rules : List Rule} (hne : rules ≠ [])
    (hcomplete : ∀ r ∈ rules, r.Complete) (hids : (rules.map (·.id)).Nodup) :
    validate (rules.map .rule) = .ok rules :=
  validate_eq_ok_iff_complete.mpr ⟨rfl, hne, hcomplete, hids⟩

end Catalog

end MarkupAudit
