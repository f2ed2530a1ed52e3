import MarkupAudit.Proofs.Catalog.Merging
import MarkupAudit.Proofs.Evaluation.Order
import MarkupAudit.Proofs.Markup.Written
import MarkupAudit.Proofs.Pattern.First
import MarkupAudit.Proofs.Text.Idempotence
import Mathlib.Data.List.Nodup

/-! # The known rules that can fail

A rule fails where it reads a number that is none. Of the known rules, two read numbers that the
document gives: the tab index, which may have digits that no numeral has, and the width in pixels. A
third one reads the level of a heading out of its name, where its pattern has left nothing but a
digit from one to six. -/

namespace MarkupAudit

/-! ## Numerals -/

namespace Text

theorem decimalFrom_eq_none_iff {n : ℕ} {t : Text} :
    decimalFrom n t = none ↔ ∃ c ∈ t, ¬isDecimal c := by
  induction t generalizing n with
  | nil => simp [decimalFrom]
  | cons c t ih =>
      cases h : decimalValue? c with
      | none => simp [decimalFrom, isDecimal, h]
      | some d => simp [decimalFrom, isDecimal, h, ih]

theorem numeral?_eq_none_iff {t : Text} (hne : t ≠ []) :
    numeral? t = none ↔ (∃ c ∈ t, ¬isDecimal c) ∨ 4300 < t.length := by
  by_cases hlong : 4300 < t.length
  · simp [numeral?, numeralLimit, hlong]
  · simp [numeral?, numeralLimit, hlong, hne, decimalFrom_eq_none_iff]

end Text

/-! ## The first characters of a match -/

namespace Pattern

open Cursor

/-- Accepted characters one by one, and then another pattern. -/
def ones (lead : List (Char → Bool)) (rest : Pattern) : Pattern :=
  lead.foldr (fun accepts p => one accepts ++ p) rest

theorem exists_lead_of_run {lead : List (Char → Bool)} {rest : Pattern} {t held : Text} {q : ℕ}
    {next : Cursor → Option Cursor} {there : Cursor}
    (h : (ones lead rest).run (place t q held) next = some there) :
    ∃ cs r, t.drop q = cs ++ r ∧ List.Forall₂ (fun accepts c => accepts c = true) lead cs ∧
      rest.run (place t (q + lead.length) held) next = some there := by
  induction lead generalizing q with
  | nil => exact ⟨[], t.drop q, rfl, .nil, h⟩
  | cons accepts lead ih =>
      change (one accepts ++ ones lead rest).run (place t q held) next = some there at h
      rw [run_append, run_one_place] at h
      obtain ⟨haccepts, hrest⟩ := Option.ite_none_right_eq_some.mp h
      obtain ⟨c, hc, hcaccepts⟩ := (Option.any_eq_true _ _).mp haccepts
      obtain ⟨cs, r, hdrop, hlead, hrun⟩ := ih hrest
      refine ⟨c :: cs, r, ?_, .cons hcaccepts hlead, ?_⟩
      · obtain ⟨hlt, hget⟩ := List.getElem?_eq_some_iff.mp hc
        rw [List.drop_eq_getElem_cons hlt, hget, hdrop, List.cons_append]
      · rwa [List.length_cons, Nat.add_comm lead.length, ← Nat.add_assoc]

/-- What a pattern takes character by character is what its matches start with. -/
theorem exists_lead_of_mem_all {p rest : Pattern} {lead : List (Char → Bool)}
    (hp : ∀ here next, p.run here next = (ones lead rest).run here next) {t : Text} {m : Match}
    (h : m ∈ p.all t) :
    ∃ cs r, m.text = cs ++ r ∧ List.Forall₂ (fun accepts c => accepts c = true) lead cs := by
  obtain ⟨q, hq, next, there, hnext, hrun, rfl⟩ := exists_run_of_mem_all h
  rw [hp] at hrun
  obtain ⟨cs, r, hdrop, hlead, hrest⟩ := exists_lead_of_run hrun
  have hlength : q + lead.length ≤ t.length := by
    have hdropped := congrArg List.length hdrop
    rw [List.length_drop, List.length_append, ← hlead.length_eq] at hdropped
    omega
  obtain ⟨k, held, hqk, -, hthere⟩ := exists_place hlength hrest
  obtain rfl := hnext _ _ hthere
  refine ⟨cs, r.take (k - q - cs.length), ?_, hlead⟩
  change (t.drop q).take (k - q) = _
  rw [hdrop, List.take_append, List.take_of_length_le (by rw [← hlead.length_eq]; omega)]

/-- A pattern that starts with an opening bracket matches nothing that is white space only. -/
theorem not_isFiller_of_mem_all {p rest : Pattern}
    (hp : ∀ here next, p.run here next = (ones [Text.sameFold '<'] rest).run here next)
    {t : Text} {m : Match} (h : m ∈ p.all t) : ¬Text.isFiller m.text := by
  obtain ⟨cs, r, htext, hlead⟩ := exists_lead_of_mem_all hp h
  rcases hlead with _ | ⟨hc, -⟩
  rw [Text.sameFold_of_not_letter (by decide) (by decide) (by decide), beq_iff_eq] at hc
  subst hc
  have hblank : Text.isBlank '<' = false := by decide
  simp [htext, Text.isFiller, hblank]

end Pattern

/-! ## Rules without an answer -/

namespace Rule

variable {r : Rule} {t : Text}

theorem not_fails_of_ofBool {holds : Text → Text → Bool} (h : r.applies = some (.ofBool holds)) :
    ¬r.Fails t := by
  rintro ⟨p, -, m, -, -, fault, hfault⟩
  rw [condition, h] at hfault
  cases hfault

/-- A rule that looks for tags fails just if it has no answer for some match. -/
theorem fails_iff_of_tag {p rest : Pattern} (hpattern : r.pattern = some p)
    (hp : ∀ here next, p.run here next = (Pattern.ones [Text.sameFold '<'] rest).run here next) :
    r.Fails t ↔ ∃ p ∈ r.pattern, ∃ m ∈ p.all t, ∃ fault, r.condition m.text t = .error fault := by
  constructor
  · rintro ⟨p, hmem, m, hm, -, hfault⟩
    exact ⟨p, hmem, m, hm, hfault⟩
  · rintro ⟨p', hmem, m, hm, hfault⟩
    obtain rfl : p = p' := Option.some.inj (hpattern.symm.trans hmem)
    exact ⟨p, hmem, m, hm, Pattern.not_isFiller_of_mem_all hp hm, hfault⟩

end Rule

/-! ## Numbers in tags -/

namespace Markup

/-- The tab index is of digits, but some of them are not decimal or there are too many. -/
def HasBadTabIndex (tag : Text) : Prop :=
  ∃ value, attributeValue? tag "tabindex".toList = some value ∧ Text.trim value ≠ [] ∧
    (∀ c ∈ Text.trim value, Text.isDigit c) ∧
    ((∃ c ∈ Text.trim value, ¬Text.isDecimal c) ∨ 4300 < (Text.trim value).length)

/-- The width in the style is a number of pixels with too many digits. -/
def HasOverlongWidth (tag : Text) : Prop :=
  ∃ digits, digits ≠ [] ∧ (∀ c ∈ digits, Text.isDecimal c) ∧
    Text.trim ((styleOf tag).get "width") = digits ++ "px".toList ∧ 4300 < digits.length

end Markup

namespace Guideline

open Markup Pattern Cursor

theorem hasPositiveTabIndex_eq_error_iff (tag document : Text) :
    (∃ fault, Navigation.hasPositiveTabIndex tag document = .error fault) ↔
      HasBadTabIndex tag := by
  unfold Navigation.hasPositiveTabIndex trimmedValue attributeValue HasBadTabIndex
  cases attributeValue? tag "tabindex".toList with
  | none => simp [show Text.trim [] = [] from rfl]
  | some value =>
      simp only [Option.getD_some, Option.some.injEq, exists_eq_left']
      by_cases hdigits : Text.trim value ≠ [] ∧ ∀ c ∈ Text.trim value, Text.isDigit c
      · rw [if_pos (by simpa using hdigits), ← Text.numeral?_eq_none_iff hdigits.1]
        cases Text.numeral? (Text.trim value) with
        | none => simpa using hdigits
        | some n => simp
      · rw [if_neg (by simpa using hdigits)]
        simp only [reduceCtorEq, exists_false, false_iff]
        exact fun h => hdigits ⟨h.1, h.2.1⟩

/-- Decimal digits at the start of a text are set aside as a whole if what follows them cannot start
with one. -/
theorem run_hold_digits {t : Text} {next : Cursor → Option Cursor}
    (hnext : ∀ k, t[k]?.any Text.isDecimal → next (place t k (t.take k)) = none) :
    (hold digits).run (start t) next =
      if t.takeWhile Text.isDecimal = [] then none
      else next (place t (t.takeWhile Text.isDecimal).length (t.takeWhile Text.isDecimal)) := by
  change (one Text.isDecimal).run (place t 0 []) (fun there =>
    (longest Text.isDecimal).run there fun there =>
      next { there with held := t.take there.offset }) = _
  rw [run_one_place]
  cases t with
  | nil => rfl
  | cons c t =>
      by_cases hc : Text.isDecimal c
      · have htake : (c :: t).take ((c :: t).takeWhile Text.isDecimal).length =
            (c :: t).takeWhile Text.isDecimal :=
          (List.prefix_iff_eq_take.mp (List.takeWhile_prefix _)).symm
        have hlength : 0 + 1 + (((c :: t).drop (0 + 1)).takeWhile Text.isDecimal).length =
            ((c :: t).takeWhile Text.isDecimal).length := by
          simp [hc, Nat.add_comm]
        have hne : (c :: t).takeWhile Text.isDecimal ≠ [] := by simp [hc]
        rw [if_pos (by simpa using hc), run_longest_of_stop _ _ _ _ _ hnext, hlength, if_neg hne]
        change next (place _ _ ((c :: t).take ((c :: t).takeWhile Text.isDecimal).length)) = _
        rw [htake]
      · simp [hc]

/-- The unit ends a text that does not end with a line feed. -/
theorem run_unit {t : Text} (ht : t.getLast? ≠ some '\n') (k : ℕ) (held : Text) :
    (exactly "px".toList ++ lastLineEnd).run (place t k held) some =
      if t.drop k = "px".toList then some (place t (k + 2) held) else none := by
  rw [run_append, run_exactly_place]
  by_cases hunit : t.standsAt "px".toList k
  · obtain ⟨r, hr⟩ := List.isPrefixOf_iff_prefix.mp hunit
    have hrest : t.drop (k + 2) = r := by
      rw [← List.drop_drop, ← hr]
      rfl
    have hfeed : r ≠ ['\n'] := by
      rintro rfl
      apply ht
      rw [← List.take_append_drop k t, ← hr]
      simp
    rw [if_pos hunit, show k + "px".toList.length = k + 2 from rfl, run_lastLineEnd_place, hrest,
      ← hr]
    simp [hfeed]
  · rw [if_neg hunit, if_neg]
    intro hdrop
    apply hunit
    rw [Text.standsAt, hdrop]
    rfl

/-- A width in pixels is decimal digits and the unit. -/
theorem held_pixelWidth_eq_some_iff {t digits : Text} (ht : t.getLast? ≠ some '\n') :
    (Distinguishable.pixelWidth.matchAt? (start t)).map (·.held) = some digits ↔
      digits ≠ [] ∧ (∀ c ∈ digits, Text.isDecimal c) ∧ t = digits ++ "px".toList := by
  have hstop : ∀ k, t[k]?.any Text.isDecimal →
      (exactly "px".toList ++ lastLineEnd).run (place t k (t.take k)) some = none := by
    intro k hk
    rw [run_unit ht, if_neg]
    intro hdrop
    rw [← List.head?_drop, hdrop] at hk
    revert hk
    decide
  have hrun : Distinguishable.pixelWidth.run (start t) some =
      (hold Markup.digits).run (start t) fun there =>
        (exactly "px".toList ++ lastLineEnd).run there some := rfl
  rw [matchAt?, hrun, run_hold_digits hstop, run_unit ht, Text.drop_length_takeWhile]
  constructor
  · intro h
    by_cases hne : t.takeWhile Text.isDecimal = []
    · simp [hne] at h
    · by_cases hunit : t.dropWhile Text.isDecimal = "px".toList
      · rw [if_neg hne, if_pos hunit] at h
        obtain rfl : t.takeWhile Text.isDecimal = digits := Option.some.inj h
        refine ⟨hne, List.all_eq_true.mp List.all_takeWhile, ?_⟩
        rw [← hunit, List.takeWhile_append_dropWhile]
      · rw [if_neg hne, if_neg hunit] at h
        cases h
  · rintro ⟨hne, hall, rfl⟩
    have hp : Text.isDecimal 'p' = false := by decide
    have htake : (digits ++ "px".toList).takeWhile Text.isDecimal = digits := by
      rw [List.takeWhile_append_of_pos hall]
      simp [hp]
    have hdrop : (digits ++ "px".toList).dropWhile Text.isDecimal = "px".toList := by
      rw [List.dropWhile_append_of_pos hall]
      simp [hp]
    rw [htake, hdrop, if_neg hne, if_pos rfl]
    rfl

theorem hasFixedWidth_eq_error_iff (tag document : Text) :
    (∃ fault, Distinguishable.hasFixedWidth tag document = .error fault) ↔
      HasOverlongWidth tag := by
  have hfails : (∃ fault, Distinguishable.hasFixedWidth tag document = .error fault) ↔
      ∃ digits, (Distinguishable.pixelWidth.matchAt?
          (start (Text.trim ((styleOf tag).get "width")))).map (·.held) = some digits ∧
        Text.numeral? digits = none := by
    cases hmatch : Distinguishable.pixelWidth.matchAt?
        (start (Text.trim ((styleOf tag).get "width"))) with
    | none => simp [Distinguishable.hasFixedWidth, hmatch]
    | some m =>
        cases hnumeral : Text.numeral? m.held <;>
          simp [Distinguishable.hasFixedWidth, hmatch, hnumeral]
  have htrim : (Text.trim ((styleOf tag).get "width")).getLast? ≠ some '\n' := by
    intro hlast
    exact absurd (Text.isTrimmed_trim _ _ (.inr hlast)) (by decide)
  simp only [hfails, held_pixelWidth_eq_some_iff htrim, HasOverlongWidth]
  constructor
  · rintro ⟨digits, ⟨hne, hall, hwidth⟩, hnumeral⟩
    rcases (Text.numeral?_eq_none_iff hne).mp hnumeral with ⟨c, hc, hbad⟩ | hlong
    · exact absurd (hall c hc) hbad
    · exact ⟨digits, hne, hall, hwidth, hlong⟩
  · rintro ⟨digits, hne, hall, hwidth, hlong⟩
    exact ⟨digits, ⟨hne, hall, hwidth⟩, (Text.numeral?_eq_none_iff hne).mpr (.inr hlong)⟩

/-! ## Levels of headings -/

/-- A plain character behind a letter is the second one of the name. -/
theorem getElem?_tagName {letter c : Char} (hletter : letter.isAlpha) (hname : isNameChar c)
    (hc : c.toNat < 128) (r : Text) :
    (tagName ('<' :: letter :: c :: r))[1]? = some c.toLower := by
  have hplain : letter.toNat < 128 :=
    Text.plain_of_isAlphanum (by rw [Char.isAlphanum, hletter, Bool.true_or])
  rw [tagName, tagHead?_of_isAlpha hletter]
  simp only [List.takeWhile_cons, isNameChar_of_isAlpha hletter, hname, if_true]
  rw [Text.lower, Text.lowerFrom_cons_of_plain hplain, Text.lowerFrom_cons_of_plain hc]
  rfl

theorem level_of_digit {c : Char} (hc : c ∈ "123456".toList) :
    c.toNat < 128 ∧ c.toNat ≠ 0 ∧ c.isAlpha = false ∧ isNameChar c ∧ c.toLower = c ∧
      ∃ level ≤ 6, 1 ≤ level ∧ Text.numeral? [c] = some level := by
  have hdigit : c = '1' ∨ c = '2' ∨ c = '3' ∨ c = '4' ∨ c = '5' ∨ c = '6' := by simpa using hc
  rcases hdigit with rfl | rfl | rfl | rfl | rfl | rfl <;> decide

/-- The level of a heading can be read, whatever the case of its name. -/
theorem level_of_mem_all {t : Text} {m : Match} (h : m ∈ (tagOf [headingName] restOfTag).all t) :
    ∃ c level, (tagName m.text)[1]? = some c ∧ Text.numeral? [c] = some level ∧
      1 ≤ level ∧ level ≤ 6 := by
  have hp : ∀ here next, (tagOf [headingName] restOfTag).run here next =
      (ones [Text.sameFold '<', Text.sameFold 'h',
        fun x => "123456".toList.any fun c => Text.sameFold c x] (wordEdge ++ restOfTag)).run
        here next := fun _ _ => rfl
  obtain ⟨cs, r, htext, hlead⟩ := exists_lead_of_mem_all hp h
  obtain ⟨bracket, _, hbracket, hheading, rfl⟩ := List.forall₂_cons_left_iff.mp hlead
  obtain ⟨letter, _, hletter, hnumber, rfl⟩ := List.forall₂_cons_left_iff.mp hheading
  obtain ⟨digit, _, hdigit, -, rfl⟩ := List.forall₂_cons_left_iff.mp hnumber
  obtain rfl : bracket = '<' := by
    rwa [Text.sameFold_of_not_letter (by decide) (by decide) (by decide), beq_iff_eq] at hbracket
  have halpha : letter.isAlpha := by
    rcases Text.eq_of_sameFold_h hletter with rfl | rfl <;> decide
  obtain ⟨c, hc, hsame⟩ := List.any_eq_true.mp hdigit
  obtain ⟨hplain, hzero, hnoLetter, hname, hlower, level, hle, hpos, hlevel⟩ := level_of_digit hc
  obtain rfl : digit = c := by
    rwa [Text.sameFold_of_not_letter hplain hzero hnoLetter, beq_iff_eq] at hsame
  refine ⟨digit, level, ?_, hlevel, hpos, hle⟩
  rw [htext]
  exact (getElem?_tagName halpha hname hplain _).trans (by rw [hlower])

/-! ## The known rules -/

theorem fails_focusOrder_iff {t : Text} :
    Navigation.focusOrder.Fails t ↔
      ∃ p ∈ Navigation.focusOrder.pattern, ∃ m ∈ p.all t, HasBadTabIndex m.text := by
  have hp : ∀ here next, Navigation.tabIndexTag.run here next =
      (ones [Text.sameFold '<'] (oneIn "abcdefghijklmnopqrstuvwxyz" ++ (longest isNameChar ++
        (wordEdge ++ restWith "tabindex")))).run here next := fun _ _ => rfl
  simp only [← hasPositiveTabIndex_eq_error_iff _ t]
  exact Rule.fails_iff_of_tag rfl hp

theorem fails_layoutWidth_iff {t : Text} :
    Distinguishable.layoutWidth.Fails t ↔
      ∃ p ∈ Distinguishable.layoutWidth.pattern, ∃ m ∈ p.all t, HasOverlongWidth m.text := by
  have hp : ∀ here next, (tag ["body", "div", "main", "section"]).run here next =
      (ones [Text.sameFold '<'] (anyWord ["body", "div", "main", "section"] ++
        (wordEdge ++ restOfTag))).run here next := fun _ _ => rfl
  simp only [← hasFixedWidth_eq_error_iff _ t]
  exact Rule.fails_iff_of_tag rfl hp

theorem not_fails_headingOrder (t : Text) : ¬Navigation.headingOrder.Fails t := by
  rintro ⟨p, hp, m, hm, -, fault, hfault⟩
  obtain rfl := Option.some.inj hp
  obtain ⟨c, level, hc, hlevel, -⟩ := level_of_mem_all hm
  change Navigation.skipsLevel m.text t = .error fault at hfault
  rw [← List.head?_drop] at hc
  obtain ⟨r, hdrop⟩ := List.head?_eq_some_iff.mp hc
  simp [Navigation.skipsLevel, hdrop, hlevel] at hfault

/-- All but three of the known rules have a condition that always has an answer. -/
theorem applies_ofBool : ∀ r ∈ rules, (∃ holds, r.applies = some (.ofBool holds)) ∨
    r ∈ [Distinguishable.layoutWidth, Navigation.focusOrder, Navigation.headingOrder] := by
  refine forall_rules ?_
  simp only [groups, perceivable, operable, understandable, robust, List.flatten_cons,
    List.flatten_nil, List.cons_append, List.nil_append, List.forall_mem_cons, List.not_mem_nil,
    IsEmpty.forall_iff, implies_true, and_true]
  repeat' apply And.intro
  all_goals first | exact .inl ⟨_, rfl⟩ | exact .inr (by simp)

theorem mem_of_fails {t : Text} {r : Rule} (hr : r ∈ rules) (h : r.Fails t) :
    r ∈ [Distinguishable.layoutWidth, Navigation.focusOrder] := by
  rcases applies_ofBool r hr with ⟨holds, hholds⟩ | hmem
  · exact absurd h (Rule.not_fails_of_ofBool hholds)
  · simp only [List.mem_cons, List.not_mem_nil, or_false] at hmem ⊢
    rcases hmem with rfl | rfl | rfl
    · exact .inl rfl
    · exact .inr rfl
    · exact absurd h (not_fails_headingOrder t)

theorem isSome_pattern : ∀ r ∈ rules, r.pattern.isSome :=
  fun r hr => (Catalog.complete_of_mem_rules r hr).pattern

end Guideline

namespace Evaluation

/-- With distinct ids, a rule is listed as failed just if it fails. -/
theorem mem_failed_iff {t : Text} {s : Snapshot} {rules : List Rule}
    (hpatterns : ∀ r ∈ rules, r.pattern.isSome) (hids : (rules.map (·.id)).Nodup) {r : Rule}
    (hr : r ∈ rules) : r.id ∈ (ofPrepared t s rules).failed ↔ r.Fails t := by
  rw [failed_eq hpatterns, List.mem_map]
  constructor
  · rintro ⟨x, hx, hid⟩
    obtain ⟨hmem, hfails⟩ := List.mem_filter.mp hx
    obtain rfl := List.inj_on_of_nodup_map hids hmem hr hid
    exact of_decide_eq_true hfails
  · intro hfails
    exact ⟨r, List.mem_filter.mpr ⟨hr, decide_eq_true hfails⟩, rfl⟩

theorem failed_sublist (t : Text) (s : Snapshot) :
    (ofPrepared t s Guideline.rules).failed.Sublist ["R48", "R59"] := by
  have hfailed := failed_eq (t := t) (s := s) Guideline.isSome_pattern
  have hsublist : (ofPrepared t s Guideline.rules).failed.Sublist (Guideline.rules.map (·.id)) := by
    rw [hfailed]
    exact List.filter_sublist.map _
  have hids : ∀ id ∈ (ofPrepared t s Guideline.rules).failed, id ∈ ["R48", "R59"] := by
    rw [hfailed, List.forall_mem_map]
    intro r hr
    obtain ⟨hmem, hfails⟩ := List.mem_filter.mp hr
    exact List.mem_map_of_mem (f := (·.id)) (Guideline.mem_of_fails hmem (of_decide_eq_true hfails))
  have hkept : (Guideline.rules.map (·.id)).filter (· ∈ ["R48", "R59"]) = ["R48", "R59"] := by
    rw [Guideline.map_id_rules]
    decide +kernel
  have hfiltered := hsublist.filter (· ∈ ["R48", "R59"])
  rwa [hkept, List.filter_eq_self.mpr (by simpa using hids)] at hfiltered

/-- Of the known rules, only those about fixed widths and about tab indices can fail: the first on a
width of too many digits, the second on a tab index of digits that are not all decimal or too many.
The level of every heading can be read out of its name. -/
theorem known_rules_fail (s : Snapshot) :
    ∃ known e, Catalog.load [] = .ok known ∧
      ofEntries? (Region.blank s.text) s (known.map .rule) = .ok e ∧
      e.failed.Sublist ["R48", "R59"] ∧
      ("R59" ∈ e.failed ↔ ∃ p ∈ Guideline.Navigation.focusOrder.pattern,
        ∃ m ∈ p.all (Region.blank s.text), Markup.HasBadTabIndex m.text) ∧
      ("R48" ∈ e.failed ↔ ∃ p ∈ Guideline.Distinguishable.layoutWidth.pattern,
        ∃ m ∈ p.all (Region.blank s.text), Markup.HasOverlongWidth m.text) ∧
      ∀ p ∈ Guideline.Navigation.headingOrder.pattern, ∀ m ∈ p.all (Region.blank s.text),
        ∃ c level, (Markup.tagName m.text)[1]? = some c ∧ Text.numeral? [c] = some level ∧
          1 ≤ level ∧ level ≤ 6 := by
  have hfailed : ∀ r ∈ Guideline.rules,
      r.id ∈ (ofSnapshot s Guideline.rules).failed ↔ r.Fails (Region.blank s.text) :=
    fun r => mem_failed_iff Guideline.isSome_pattern Guideline.nodup_ids
  refine ⟨_, _, Catalog.load_nil, ofEntries?_blank s _, failed_sublist _ s, ?_, ?_, ?_⟩
  · rw [← Guideline.fails_focusOrder_iff]
    exact hfailed Guideline.Navigation.focusOrder
      (by simp [Guideline.mem_rules, Guideline.operable])
  · rw [← Guideline.fails_layoutWidth_iff]
    exact hfailed Guideline.Distinguishable.layoutWidth
      (by simp [Guideline.mem_rules, Guideline.perceivable])
  · intro p hp m hm
    obtain rfl := Option.some.inj hp
    exact Guideline.level_of_mem_all hm

example :
    (ofSnapshot { text := "<h2><a tabindex=²>".toList } Guideline.rules).failed = ["R59"] := by
  rw [Guideline.rules_eq_insertionSort]
  decide +kernel

end Evaluation

end MarkupAudit
