import MarkupAudit.Report.Summary
import Mathlib.Data.List.Basic

/-! # What a summary tells of findings

Findings can be summarised exactly if each of them is of a level. The numbers of a summary are
those of the findings, so that the order of the findings does not matter, and the message for users
holds all of them: a level without findings is left out of it, but each number stands between marks
that it cannot hold itself. -/

namespace MarkupAudit

namespace Level

theorem mem_all (level : Level) : level ∈ all := by
  cases level <;> decide

theorem name_injective : Function.Injective name := by
  intro level other
  cases level <;> cases other <;> decide

end Level

/-- The name of the level of a finding, in the spelling in which levels are compared. -/
def Finding.levelName (f : Finding) : String :=
  Text.upperString (Text.trimString f.level)

theorem Level.ofValue?_string_eq_ok_iff {s : String} {level : Level} :
    ofValue? (.string s) = .ok level ↔ Text.upperString (Text.trimString s) = level.name := by
  have hplain : (Json.Value.string s).plain = s := rfl
  unfold ofValue? ofString?
  rw [hplain, eq_comm (b := level.name), ← named?_eq_some_iff]
  cases named? (Text.upperString (Text.trimString s)) <;> simp

/-! ## Counting -/

namespace LevelCounts

variable {counts others : LevelCounts}

@[ext]
theorem ext_get (h : ∀ level, counts.get level = others.get level) : counts = others := by
  cases counts
  cases others
  exact (mk.injEq ..).mpr ⟨h .a, h .aa, h .aaa⟩

theorem get_add (counts : LevelCounts) (added level : Level) :
    (counts.add added).get level = counts.get level + if added = level then 1 else 0 := by
  cases added <;> cases level <;> rfl

end LevelCounts

namespace Summary

variable {now : String} {findings others : List Finding} {summary : Summary}

/-- The number of findings of a level. -/
def count (findings : List Finding) (level : Level) : ℕ :=
  findings.countP (·.levelName = level.name)

theorem count_cons_of_levelName {f : Finding} {level : Level} (h : f.levelName = level.name)
    (findings : List Finding) (other : Level) :
    count (f :: findings) other = (if level = other then 1 else 0) + count findings other := by
  have hname : f.levelName = other.name ↔ level = other := by
    rw [h, Level.name_injective.eq_iff]
  simp only [count, List.countP_cons, decide_eq_true_eq, hname, Nat.add_comm]

theorem countFrom_cons_of_ok {counts : LevelCounts} {f : Finding} {level : Level}
    (h : Level.ofValue? (.string f.level) = .ok level) (findings : List Finding) :
    countFrom counts (f :: findings) = countFrom (counts.add level) findings := by
  conv_lhs => unfold countFrom
  rw [h]

theorem countFrom_cons_of_error {counts : LevelCounts} {f : Finding} {e : UnknownLevel}
    (h : Level.ofValue? (.string f.level) = .error e) (findings : List Finding) :
    countFrom counts (f :: findings) = .error e := by
  unfold countFrom
  rw [h]

/-- Counting succeeds exactly if each finding is of a level, and adds one for each of them. -/
theorem countFrom_eq_ok_iff {counts result : LevelCounts} :
    countFrom counts findings = .ok result ↔
      (∀ f ∈ findings, ∃ level : Level, f.levelName = level.name) ∧
        ∀ level, result.get level = counts.get level + count findings level := by
  induction findings generalizing counts with
  | nil =>
      have hnil : countFrom counts [] = .ok counts := rfl
      simp only [hnil, Except.ok.injEq, List.not_mem_nil, false_implies, implies_true,
        true_and, count, List.countP_nil, Nat.add_zero]
      exact ⟨fun h _ => h ▸ rfl, fun h => LevelCounts.ext_get fun level => (h level).symm⟩
  | cons f findings ih =>
      cases hvalue : Level.ofValue? (.string f.level) with
      | ok level =>
          have hname : f.levelName = level.name := Level.ofValue?_string_eq_ok_iff.mp hvalue
          have hhead : ∃ level : Level, f.levelName = level.name := ⟨level, hname⟩
          rw [countFrom_cons_of_ok hvalue, ih]
          simp only [LevelCounts.get_add, List.forall_mem_cons, hhead, true_and,
            count_cons_of_levelName hname, Nat.add_assoc]
      | error e =>
          rw [countFrom_cons_of_error hvalue]
          simp only [reduceCtorEq, List.forall_mem_cons, false_iff]
          rintro ⟨⟨⟨level, hname⟩, -⟩, -⟩
          rw [Level.ofValue?_string_eq_ok_iff.mpr hname] at hvalue
          cases hvalue

theorem ofFindings_eq_ok_iff :
    ofFindings now findings = .ok summary ↔
      (∀ f ∈ findings, ∃ level : Level, f.levelName = level.name) ∧
        summary.total = findings.length ∧
        (∀ level, summary.byLevel.get level = count findings level) ∧
        summary.timestamp = now := by
  have hzero : ∀ level, ({} : LevelCounts).get level = 0 := by
    intro level
    cases level <;> rfl
  unfold ofFindings
  constructor
  · intro h
    cases hcounts : countFrom {} findings with
    | error e =>
        rw [hcounts] at h
        cases h
    | ok byLevel =>
        rw [hcounts] at h
        obtain rfl := Except.ok.inj h
        obtain ⟨hlevels, hget⟩ := countFrom_eq_ok_iff.mp hcounts
        exact ⟨hlevels, rfl, fun level => by rw [hget, hzero, Nat.zero_add], rfl⟩
  · rintro ⟨hlevels, htotal, hget, rfl⟩
    have hcounts : countFrom {} findings = .ok summary.byLevel :=
      countFrom_eq_ok_iff.mpr ⟨hlevels, fun level => by rw [hget, hzero, Nat.zero_add]⟩
    rw [hcounts, ← htotal]
    rfl

/-- The order of the findings does not matter to a summary. -/
theorem ofFindings_perm (h : findings.Perm others) :
    ofFindings now findings = .ok summary ↔ ofFindings now others = .ok summary := by
  have hcount : ∀ level, count findings level = count others level :=
    fun level => h.countP_eq _
  simp only [ofFindings_eq_ok_iff, h.mem_iff, h.length_eq, hcount]

/-- Each finding is of exactly one level, so that the numbers of the levels make the total. -/
theorem sum_count (h : ∀ f ∈ findings, ∃ level : Level, f.levelName = level.name) :
    count findings .a + count findings .aa + count findings .aaa = findings.length := by
  induction findings with
  | nil => rfl
  | cons f findings ih =>
      obtain ⟨⟨level, hname⟩, hrest⟩ := List.forall_mem_cons.mp h
      simp only [count_cons_of_levelName hname, List.length_cons, ← ih hrest]
      cases level <;> simp only [reduceCtorEq, if_true, if_false] <;> omega

/-- The names of the levels. -/
def levelNames : List String := ["A", "AA", "AAA"]

theorem mem_levelNames_iff {name : String} :
    name ∈ levelNames ↔ ∃ level : Level, name = level.name := by
  have hnames : levelNames = Level.all.map Level.name := rfl
  simp [hnames, Level.mem_all, eq_comm]

/-- That the numbers of a summary are those of findings. -/
structure Counts (summary : Summary) (findings : List Finding) : Prop where
  total : summary.total = findings.length
  byLevel : summary.byLevel.toJson = .object (levelNames.map fun name =>
    (name, .int (findings.countP fun f => Text.upperString (Text.trimString f.level) = name)))
  sum : summary.byLevel.a + summary.byLevel.aa + summary.byLevel.aaa = summary.total

theorem counts_of_ofFindings (h : ofFindings now findings = .ok summary) :
    summary.Counts findings := by
  obtain ⟨hlevels, htotal, hget, -⟩ := ofFindings_eq_ok_iff.mp h
  refine ⟨htotal, ?_, ?_⟩
  · simp only [LevelCounts.toJson, hget]
    rfl
  · have hsum := sum_count hlevels
    rw [← hget, ← hget, ← hget, ← htotal] at hsum
    exact hsum

theorem exists_ofFindings_iff : (∃ summary, ofFindings now findings = .ok summary) ↔
    ∀ f ∈ findings, Text.upperString (Text.trimString f.level) ∈ levelNames := by
  simp only [mem_levelNames_iff]
  constructor
  · rintro ⟨summary, h⟩
    exact (ofFindings_eq_ok_iff.mp h).1
  · intro hlevels
    let byLevel : LevelCounts := ⟨count findings .a, count findings .aa, count findings .aaa⟩
    have hget : ∀ level, byLevel.get level = count findings level := by
      intro level
      cases level <;> rfl
    exact ⟨⟨findings.length, byLevel, now⟩, ofFindings_eq_ok_iff.mpr ⟨hlevels, rfl, hget, rfl⟩⟩

end Summary

/-! ## The record -/

/-- A finding as it stands in a record. -/
def Finding.issue (f : Finding) : Json.Value :=
  .object f.members

namespace Summary

/-- A record of issues: how many there are, how many of each level, and the issues in order. -/
def recordOf (summary : Summary) (issues : List Json.Value) : Json.Value :=
  .object
    [("totalIssues", .int issues.length), ("breakdownByLevel", summary.byLevel.toJson),
     ("timestamp", .string summary.timestamp), ("issues", .array issues)]

theorem record_eq_recordOf {summary : Summary} {findings : List Finding}
    (h : summary.total = findings.length) :
    summary.record findings = summary.recordOf (findings.map Finding.issue) := by
  rw [record, recordOf, h, List.length_map]
  rfl

end Summary

/-! ## The message -/

namespace Text

/-- The first place of a mark divides a text in one way. -/
theorem append_cons_inj {c : Char} {t u rest others : Text} (ht : c ∉ t) (hu : c ∉ u)
    (h : t ++ c :: rest = u ++ c :: others) : t = u ∧ rest = others := by
  induction t generalizing u with
  | nil =>
      cases u with
      | nil => exact ⟨rfl, (List.cons.inj h).2⟩
      | cons d u => exact absurd (List.cons.inj h).1 (List.ne_of_not_mem_cons hu)
  | cons d t ih =>
      cases u with
      | nil => exact absurd (List.cons.inj h).1.symm (List.ne_of_not_mem_cons ht)
      | cons e u =>
          obtain ⟨rfl, hrest⟩ := List.cons.inj h
          obtain ⟨rfl, hothers⟩ := ih (List.not_mem_of_not_mem_cons ht)
            (List.not_mem_of_not_mem_cons hu) hrest
          exact ⟨rfl, hothers⟩

/-- Texts with bars between them. -/
def barred (pieces : List Text) : Text :=
  List.intercalate " | ".toList pieces

theorem barred_cons_cons (t u : Text) (pieces : List Text) :
    barred (t :: u :: pieces) = (t ++ [' ']) ++ '|' :: ' ' :: barred (u :: pieces) := by
  simp [barred]

theorem barred_cons_ne_nil {t : Text} (ht : t ≠ []) (pieces : List Text) :
    barred (t :: pieces) ≠ [] := by
  cases pieces with
  | nil => simpa [barred] using ht
  | cons u pieces => simp [barred_cons_cons]

/-- Pieces that are not empty and have no bar are known from the text that they make with bars
between them. -/
theorem barred_inj {pieces others : List Text} (hpieces : ∀ t ∈ pieces, t ≠ [] ∧ '|' ∉ t)
    (hothers : ∀ t ∈ others, t ≠ [] ∧ '|' ∉ t) (h : barred pieces = barred others) :
    pieces = others := by
  induction pieces generalizing others with
  | nil =>
      cases others with
      | nil => rfl
      | cons u others =>
          exact absurd h.symm (barred_cons_ne_nil (hothers u List.mem_cons_self).1 others)
  | cons t pieces ih =>
      obtain ⟨⟨hne, ht⟩, hrest⟩ := List.forall_mem_cons.mp hpieces
      match pieces, others, hothers with
      | pieces, [], _ => exact absurd h (barred_cons_ne_nil hne pieces)
      | [], [u], _ => simpa [barred] using h
      | [], u :: v :: others, _ =>
          -- Only the longer list has a bar in it.
          have hbar : '|' ∈ barred [t] := by simp [h, barred_cons_cons]
          exact absurd hbar (by simpa [barred] using ht)
      | w :: pieces, [u], hothers =>
          have hbar : '|' ∈ barred [u] := by simp [← h, barred_cons_cons]
          exact absurd hbar (by simpa [barred] using (hothers u List.mem_cons_self).2)
      | w :: pieces, u :: v :: others, hothers =>
          obtain ⟨⟨-, hu⟩, hothers⟩ := List.forall_mem_cons.mp hothers
          rw [barred_cons_cons, barred_cons_cons] at h
          obtain ⟨hhead, hbars⟩ := append_cons_inj (by simpa using ht) (by simpa using hu) h
          rw [List.append_cancel_right hhead, ih hrest hothers (List.cons.inj hbars).2]

theorem not_mem_toDigits {c : Char} (hc : c.isDigit = false) (n : ℕ) : c ∉ Nat.toDigits 10 n := by
  intro hn
  have hdigit : c.isDigit = true := Nat.isDigit_of_mem_toDigits (by decide) (by decide) hn
  rw [hc] at hdigit
  cases hdigit

/-- A number and what follows a space after it. -/
theorem toDigits_append_inj {m n : ℕ} {rest others : Text}
    (h : Nat.toDigits 10 m ++ ' ' :: rest = Nat.toDigits 10 n ++ ' ' :: others) :
    m = n ∧ rest = others := by
  obtain ⟨hdigits, hrest⟩ :=
    append_cons_inj (not_mem_toDigits (by decide) m) (not_mem_toDigits (by decide) n) h
  refine ⟨?_, hrest⟩
  rw [← Nat.ofDigitChars_ten_toDigits (n := m), hdigits, Nat.ofDigitChars_ten_toDigits]

end Text

namespace StatusMessage

/-- The levels that have findings, each with the number of them. -/
def entries (counts : LevelCounts) : List (Level × ℕ) :=
  (Level.all.filter fun level => counts.get level ≠ 0).map fun level => (level, counts.get level)

theorem mem_entries_iff {counts : LevelCounts} {level : Level} {n : ℕ} :
    (level, n) ∈ entries counts ↔ n ≠ 0 ∧ counts.get level = n := by
  simp only [entries, List.mem_map, List.mem_filter, Level.mem_all, true_and, Prod.mk.injEq,
    decide_eq_true_eq]
  constructor
  · rintro ⟨level, hne, rfl, rfl⟩
    exact ⟨hne, rfl⟩
  · rintro ⟨hne, rfl⟩
    exact ⟨level, hne, rfl, rfl⟩

/-- Levels without findings need no entry. -/
theorem entries_injective : Function.Injective entries := by
  intro counts others h
  have hsame : ∀ {counts others : LevelCounts}, entries counts = entries others → ∀ level,
      counts.get level ≠ 0 → others.get level = counts.get level := by
    intro counts others h level hne
    have hmem : (level, counts.get level) ∈ entries counts := mem_entries_iff.mpr ⟨hne, rfl⟩
    exact (mem_entries_iff.mp (h ▸ hmem)).2
  ext level
  by_cases hne : counts.get level = 0
  · by_cases hother : others.get level = 0
    · rw [hne, hother]
    · exact hsame h.symm level hother
  · exact (hsame h level hne).symm

/-- What is said of the findings of a level. -/
def part (entry : Level × ℕ) : Text :=
  Nat.toDigits 10 entry.2 ++ ' ' :: ("at Level " ++ entry.1.name).toList

theorem part_injective : Function.Injective part := by
  rintro ⟨level, m⟩ ⟨other, n⟩ h
  obtain ⟨rfl, hname⟩ := Text.toDigits_append_inj h
  have hlevel : level.name = other.name := by simpa [String.toList_inj] using hname
  rw [Level.name_injective hlevel]

theorem part_ne_nil_and_bar_not_mem (entry : Level × ℕ) :
    part entry ≠ [] ∧ '|' ∉ part entry := by
  obtain ⟨level, n⟩ := entry
  have hdigits : '|' ∉ Nat.toDigits 10 n := Text.not_mem_toDigits (by decide) n
  have hname : '|' ∉ level.name.toList := by cases level <;> decide
  simp [part, hdigits, hname]

/-- The text of a warning: the total, a word for the findings and what is said of each level. -/
theorem toList_text_ofSummary {s : Summary} (h : s.total ≠ 0) :
    (ofSummary s).text.toList = Nat.toDigits 10 s.total ++
      ' ' :: ((if s.total = 1 then "issue" else "issues") ++ ": ").toList ++
        Text.barred ((entries s.byLevel).map part) := by
  have hparts : (entries s.byLevel).map part =
      ((Level.all.filter fun level => s.byLevel.get level ≠ 0).map fun level =>
        toString (s.byLevel.get level) ++ " at Level " ++ level.name).map String.toList := by
    simp [entries, part, Function.comp_def]
  rw [ofSummary, if_neg h, hparts]
  simp [Text.barred, String.toList_intercalate]

/-- A warning holds all numbers of its summary. -/
theorem eq_of_text_eq {s other : Summary} (hs : s.total ≠ 0)
    (h : (ofSummary other).text = (ofSummary s).text) :
    other.total = s.total ∧ other.byLevel = s.byLevel := by
  have hlist := congrArg String.toList h
  rw [toList_text_ofSummary hs, List.append_assoc, List.cons_append] at hlist
  have hother : other.total ≠ 0 := by
    -- The first word of the other message is no number.
    intro hzero
    have hsuccess : (ofSummary other).text.toList =
        ['T', 'h', 'e'] ++ ' ' :: "HTML is semantically correct.".toList := by
      rw [ofSummary, if_pos hzero]
      rfl
    rw [hsuccess] at hlist
    obtain ⟨hword, -⟩ :=
      Text.append_cons_inj (by decide) (Text.not_mem_toDigits (by decide) _) hlist
    exact Text.not_mem_toDigits (c := 'T') (by decide) s.total (hword ▸ List.mem_cons_self)
  rw [toList_text_ofSummary hother, List.append_assoc, List.cons_append] at hlist
  obtain ⟨htotal, hrest⟩ := Text.toDigits_append_inj hlist
  rw [htotal] at hrest
  have hpieces : ∀ counts, ∀ t ∈ (entries counts).map part, t ≠ [] ∧ '|' ∉ t :=
    fun counts => List.forall_mem_map.mpr fun entry _ => part_ne_nil_and_bar_not_mem entry
  have hparts := Text.barred_inj (hpieces _) (hpieces _) (List.append_cancel_left hrest)
  exact ⟨htotal, entries_injective (List.map_injective_iff.mpr part_injective hparts)⟩

end StatusMessage

namespace Summary

/-- Findings are summarised exactly if each of them is of a level. The numbers of the summary and of
its record are those of the findings, in whatever order the findings are, and the text of a warning
tells all of them. -/
theorem tells_numbers_of_findings (now : String) (findings : List Finding) :
    ((∃ summary, ofFindings now findings = .ok summary) ↔
      ∀ f ∈ findings, Text.upperString (Text.trimString f.level) ∈ levelNames) ∧
    ∀ summary, ofFindings now findings = .ok summary →
      summary.Counts findings ∧
      summary.record findings = summary.recordOf (findings.map Finding.issue) ∧
      (∀ others, findings.Perm others → ofFindings now others = .ok summary ∧
        ∃ issues, issues.Perm (findings.map Finding.issue) ∧
          summary.record others = summary.recordOf issues) ∧
      ∀ other : Summary, (StatusMessage.ofSummary summary).kind = "warning" →
        (StatusMessage.ofSummary other).text = (StatusMessage.ofSummary summary).text →
        other.total = summary.total ∧ other.byLevel = summary.byLevel := by
  refine ⟨exists_ofFindings_iff, fun summary h => ?_⟩
  have hcounts := counts_of_ofFindings h
  refine ⟨hcounts, record_eq_recordOf hcounts.total, fun others hperm => ?_, fun other hkind => ?_⟩
  · have hothers := (ofFindings_perm hperm).mp h
    exact ⟨hothers, others.map Finding.issue, hperm.symm.map _,
      record_eq_recordOf (counts_of_ofFindings hothers).total⟩
  · refine StatusMessage.eq_of_text_eq fun hzero => ?_
    rw [StatusMessage.ofSummary, if_pos hzero] at hkind
    exact absurd hkind (by decide)

/-- One level is written with white space around it and the other in lower case. -/
theorem tells_numbers_of_findings_two :
    let second : Finding := ⟨"R2", " AA\n", "m", "r", ⟨4, 6, ⟨1, 4⟩, ⟨1, 6⟩⟩, []⟩
    let first : Finding := ⟨"R1", "a", "m", "r", ⟨0, 2, ⟨1, 0⟩, ⟨1, 2⟩⟩, []⟩
    let summary : Summary := ⟨2, ⟨1, 1, 0⟩, "2024-05-01T00:00:00+00:00"⟩
    ofFindings summary.timestamp [second, first] = .ok summary ∧
      ofFindings summary.timestamp [first, second] = .ok summary ∧
      StatusMessage.ofSummary summary =
        ⟨"warning", "2 issues: 1 at Level A | 1 at Level AA"⟩ ∧
      summary.Counts [second, first] ∧
      ∀ other : Summary,
        (StatusMessage.ofSummary other).text = "2 issues: 1 at Level A | 1 at Level AA" →
        other.total = 2 ∧ other.byLevel = ⟨1, 1, 0⟩ := by
  intro second first summary
  have hsecond : second.levelName = Level.aa.name := by decide +kernel
  have hfirst : first.levelName = Level.a.name := by decide +kernel
  have h : ofFindings summary.timestamp [second, first] = .ok summary := by
    refine ofFindings_eq_ok_iff.mpr ⟨?_, rfl, fun level => ?_, rfl⟩
    · intro f hf
      obtain rfl | rfl : f = second ∨ f = first := by simpa using hf
      exacts [⟨.aa, hsecond⟩, ⟨.a, hfirst⟩]
    · cases level <;>
        simp only [count, List.countP_cons, List.countP_nil, hsecond, hfirst] <;> decide
  have hmessage : StatusMessage.ofSummary summary =
      ⟨"warning", "2 issues: 1 at Level A | 1 at Level AA"⟩ := by decide +kernel
  obtain ⟨hcounts, -, hperm, htext⟩ :=
    (tells_numbers_of_findings summary.timestamp [second, first]).2 summary h
  refine ⟨h, (hperm [first, second] (List.Perm.swap first second [])).1, hmessage, hcounts, ?_⟩
  intro other hother
  exact htext other (by rw [hmessage]) (by rw [hother, hmessage])

end Summary

end MarkupAudit
