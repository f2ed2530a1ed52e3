import MarkupAudit.Proofs.Catalog.Complete
import Mathlib.Data.List.Sort

/-! # Merging the known rules

The known rules are those of the four groups, put in the order of the numbers in their ids by a
stable sort. The numbers of the groups are 1 to 93 in some order, so the sorted ids are R1 to R93,
and the rules make a catalogue without flaws: loading starts from them. -/

namespace MarkupAudit

/-! ## The number in an id -/

namespace Text

theorem decimalValue?_of_isDigit {c : Char} (hc : c.isDigit) :
    decimalValue? c = some (c.toNat - '0'.toNat) := by
  obtain ⟨hleast, hgreatest⟩ : 48 ≤ c.toNat ∧ c.toNat ≤ 57 := by
    simpa [Char.isDigit, UInt32.le_iff_toNat_le] using hc
  simp [decimalValue?, decimalZeros, hleast, hgreatest]

theorem isDigit_of_mem_toDigits {n : ℕ} : ∀ c ∈ Nat.toDigits 10 n, c.isDigit :=
  fun _ hc => Nat.isDigit_of_mem_toDigits (by decide) (by decide) hc

/-- Plain digits write the number that they are in base ten. -/
theorem decimalFrom_of_isDigit {t : Text} (ht : ∀ c ∈ t, c.isDigit) (n : ℕ) :
    decimalFrom n t = some (Nat.ofDigitChars 10 t n) := by
  induction t generalizing n with
  | nil => rfl
  | cons c t ih =>
      obtain ⟨hc, hrest⟩ := List.forall_mem_cons.mp ht
      rw [decimalFrom, decimalValue?_of_isDigit hc, Option.bind_some, ih hrest,
        Nat.ofDigitChars_cons]

theorem decimalFrom_toDigits (n : ℕ) : decimalFrom 0 (Nat.toDigits 10 n) = some n := by
  rw [decimalFrom_of_isDigit isDigit_of_mem_toDigits, Nat.ofDigitChars_ten_toDigits]

end Text

namespace Catalog

theorem withoutLastLineFeed_of_number (n : ℕ) :
    withoutLastLineFeed ("R" ++ toString n).toList = 'R' :: Nat.toDigits 10 n := by
  have hlist : ("R" ++ toString n).toList = 'R' :: Nat.toDigits 10 n := by simp
  have hlast : ('R' :: Nat.toDigits 10 n).getLast? ≠ some '\n' := by
    intro h
    rcases List.mem_cons.mp (List.mem_of_getLast? h) with heq | hmem
    · cases heq
    · exact absurd (Text.isDigit_of_mem_toDigits _ hmem) (by decide)
  rw [hlist, withoutLastLineFeed, if_neg hlast]

theorem isRuleId_of_number (n : ℕ) : isRuleId ("R" ++ toString n) := by
  have hdigits : (Nat.toDigits 10 n).all Text.isDecimal := by
    refine List.all_eq_true.mpr fun c hc => ?_
    rw [Text.isDecimal, Text.decimalValue?_of_isDigit (Text.isDigit_of_mem_toDigits c hc)]
    rfl
  rw [isRuleId, withoutLastLineFeed_of_number]
  simp [hdigits]

theorem number_of_id {r : Rule} {n : ℕ} (h : r.id = "R" ++ toString n) : number r = n := by
  rw [number, h, withoutLastLineFeed_of_number]
  simp [Text.decimalFrom_toDigits]

theorem map_number_of_map_id {rules : List Rule} {numbers : List ℕ}
    (h : rules.map (·.id) = numbers.map fun n => "R" ++ toString n) :
    rules.map number = numbers := by
  induction rules generalizing numbers with
  | nil => simpa using h
  | cons r rules ih =>
      cases numbers with
      | nil => cases h
      | cons n numbers =>
          obtain ⟨hid, hrest⟩ := List.cons.inj h
          rw [List.map_cons, number_of_id hid, ih hrest]

/-! ## Rules by number -/

theorem number_le_trans (a b c : Rule) : decide (number a ≤ number b) →
    decide (number b ≤ number c) → decide (number a ≤ number c) := by
  simpa using Nat.le_trans

theorem number_le_total (a b : Rule) :
    decide (number a ≤ number b) || decide (number b ≤ number a) := by
  simpa using Nat.le_total (number a) (number b)

theorem byNumber_perm (rules : List Rule) : (byNumber rules).Perm rules :=
  List.mergeSort_perm rules _

/-- The numbers of the sorted rules do not decrease. -/
theorem pairwise_byNumber (rules : List Rule) :
    (byNumber rules).Pairwise fun a b => number a ≤ number b := by
  simpa only [byNumber, decide_eq_true_eq] using
    List.pairwise_mergeSort number_le_trans number_le_total rules

/-- The sort is stable: the rules with a number stay in order. -/
theorem filter_byNumber (rules : List Rule) (n : ℕ) :
    (byNumber rules).filter (number · = n) = rules.filter (number · = n) := by
  have hequal : (rules.filter (number · = n)).Pairwise fun a b => number a ≤ number b := by
    refine List.pairwise_filter.mpr (List.pairwise_of_forall fun a b ha hb => ?_)
    simp only [decide_eq_true_eq] at ha hb
    exact (ha.trans hb.symm).le
  have hkept : (rules.filter (number · = n)).Sublist (byNumber rules) :=
    List.sublist_mergeSort number_le_trans number_le_total (by simpa using hequal)
      List.filter_sublist
  have hsublist : (rules.filter (number · = n)).Sublist
      ((byNumber rules).filter (number · = n)) := by simpa using hkept.filter (number · = n)
  have hlength := ((byNumber_perm rules).filter (number · = n)).length_eq
  exact (hsublist.eq_of_length hlength.symm).symm

/-- Rules whose numbers are those of a sorted list, in any order, are sorted as the list is. -/
theorem map_number_byNumber {rules : List Rule} {numbers : List ℕ}
    (hsorted : numbers.Pairwise (· ≤ ·)) (hperm : (rules.map number).Perm numbers) :
    (byNumber rules).map number = numbers := by
  have hnumbers : ((byNumber rules).map number).Pairwise (· ≤ ·) :=
    List.pairwise_map.mpr (pairwise_byNumber rules)
  exact (((byNumber_perm rules).map number).trans hperm).eq_of_pairwise' hnumbers hsorted

end Catalog

/-! ## The known rules -/

namespace Guideline

open Catalog (number byNumber)

theorem rules_perm : rules.Perm groups.flatten :=
  Catalog.byNumber_perm groups.flatten

theorem mem_rules {r : Rule} : r ∈ rules ↔
    r ∈ perceivable ∨ r ∈ operable ∨ r ∈ understandable ∨ r ∈ robust := by
  rw [rules_perm.mem_iff]
  simp [groups]

/-- What holds of the rules of all groups holds of the known rules. -/
theorem forall_rules {P : Rule → Prop} (h : ∀ r ∈ groups.flatten, P r) : ∀ r ∈ rules, P r :=
  fun r hr => h r (rules_perm.mem_iff.mp hr)

/-- The numbers of the rules in the order of the groups. -/
def groupNumbers : List ℕ :=
  List.range' 1 6 ++ 9 :: List.range' 11 41 ++ List.range' 83 11 ++ 8 :: 10 :: List.range' 52 15 ++
    List.range' 67 13 ++ 7 :: List.range' 80 3

/-- The ids of the groups are written with the numbers from 1 to 93, each once, and each rule has
what else an evaluation and a repair ask of it. -/
theorem groups_checked :
    groups.flatten.map (·.id) = groupNumbers.map (fun n => "R" ++ toString n) ∧
      groupNumbers.Perm (List.range' 1 93) ∧
      ∀ r ∈ groups.flatten, (Level.named? r.level).isSome ∧ r.pattern.isSome ∧
        r.applies.isSome ∧ Catalog.isUsable r.repair := by
  decide +kernel

theorem map_number_groups : groups.flatten.map number = groupNumbers :=
  Catalog.map_number_of_map_id groups_checked.1

theorem map_number_rules : rules.map number = List.range' 1 93 :=
  Catalog.map_number_byNumber (List.pairwise_le_range' 1)
    (map_number_groups ▸ groups_checked.2.1)

theorem id_of_mem_rules : ∀ r ∈ rules, r.id = "R" ++ toString (number r) := by
  refine forall_rules fun r hr => ?_
  obtain ⟨n, -, hid⟩ := List.mem_map.mp (groups_checked.1 ▸ List.mem_map_of_mem hr)
  rw [Catalog.number_of_id hid.symm, ← hid]

/-- The numbers of the known rules increase. -/
theorem pairwise_rules : rules.Pairwise fun a b => number a < number b := by
  rw [← List.pairwise_map, map_number_rules]
  exact List.pairwise_lt_range' 1

/-- The ids of the known rules: the letter R and a number from 1 to 93. -/
def ids : List String :=
  (List.range' 1 93).map fun n => "R" ++ toString n

theorem map_id_rules : rules.map (·.id) = ids := by
  rw [ids, ← map_number_rules, List.map_map]
  exact List.map_congr_left id_of_mem_rules

theorem rules_ne_nil : rules ≠ [] := by
  rw [← List.length_pos_iff, ← List.length_map number, map_number_rules]
  decide

theorem nodup_numbers : (rules.map number).Nodup := by
  rw [map_number_rules]
  exact List.nodup_range' 1

theorem nodup_ids : (rules.map (·.id)).Nodup := by
  refine nodup_numbers.of_map.map_on fun a ha b hb hid => ?_
  have hnumber : number a = number b := by rw [number, hid, ← number]
  exact List.inj_on_of_nodup_map nodup_numbers ha hb hnumber

/-- The known rules as a sort gives them that unfolds. As no two of them have the same number, any
sort gives the same list. -/
theorem rules_eq_insertionSort :
    rules = groups.flatten.insertionSort fun a b => number a ≤ number b := by
  have hperm := rules_perm.trans (List.perm_insertionSort (number · ≤ number ·) groups.flatten).symm
  refine hperm.eq_of_pairwise (fun a b ha hb hab hba => ?_) (Catalog.pairwise_byNumber _)
    (List.pairwise_insertionSort _ _)
  exact List.inj_on_of_nodup_map nodup_numbers ha (hperm.mem_iff.mpr hb) (Nat.le_antisymm hab hba)

end Guideline

/-! ## Loading the known rules -/

namespace Catalog

theorem complete_of_mem_rules : ∀ r ∈ Guideline.rules, r.Complete := by
  intro r hr
  obtain ⟨hlevel, hpattern, happlies, hrepair⟩ :=
    Guideline.forall_rules Guideline.groups_checked.2.2 r hr
  have hid : isRuleId r.id := by
    rw [Guideline.id_of_mem_rules r hr]
    exact isRuleId_of_number _
  exact ⟨hid, hlevel, hpattern, happlies, hrepair⟩

/-- The known rules make a catalogue without flaws. -/
theorem known_eq : known = .ok Guideline.rules :=
  validate_of_complete Guideline.rules_ne_nil complete_of_mem_rules Guideline.nodup_ids

/-- The known rules without some of them are rules to use, unless none is left. -/
theorem load_of_known {disabled : List String} (hknown : unknownIds Guideline.rules disabled = [])
    (hne : Guideline.rules.filter (fun r => !(disabledIds disabled).contains r.id) ≠ []) :
    load disabled =
      .ok (Guideline.rules.filter fun r => !(disabledIds disabled).contains r.id) := by
  have hids : ((Guideline.rules.filter fun r => !(disabledIds disabled).contains r.id).map
      (·.id)).Nodup := Guideline.nodup_ids.sublist (List.filter_sublist.map _)
  have hvalidate := validate_of_complete hne
    (fun r hr => complete_of_mem_rules r (List.mem_filter.mp hr).1) hids
  simp only [load, known_eq, hknown, hvalidate]
  rfl

theorem load_nil : load [] = .ok Guideline.rules := by
  have hkept : (Guideline.rules.filter fun r => !(disabledIds []).contains r.id) =
      Guideline.rules := List.filter_eq_self.mpr fun _ _ => rfl
  have hload := @load_of_known [] rfl
  rw [hkept] at hload
  exact hload Guideline.rules_ne_nil

end Catalog

end MarkupAudit
